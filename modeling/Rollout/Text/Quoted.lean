import Rollout.Text.Shown
import Rollout.Text.Utf8

/-!
# Quoted text in messages

A text that a message quotes stands in double quotes.  Quotes, backslashes, the line characters
and NUL are escaped by a letter, characters that do not show by their number.
-/

namespace Rollout.Text

/-- The hexadecimal digits of `n` without leading zeros. -/
def hex (n : Nat) : List Char :=
  (Nat.toDigits 16 n)

def quotedChar (c : Char) : List Char :=
  if c = '"' then ['\\', '"']
  else if c = '\\' then ['\\', '\\']
  else if c = '\n' then ['\\', 'n']
  else if c = '\r' then ['\\', 'r']
  else if c = '\t' then ['\\', 't']
  else if c = '\x00' then ['\\', '0']
  else if isShown c then [c]
  else ['\\', 'u', '\x7b'] ++ hex c.toNat ++ ['\x7d']

def quoted (s : String) : String :=
  String.ofList (['"'] ++ s.toList.flatMap quotedChar ++ ['"'])

end Rollout.Text
