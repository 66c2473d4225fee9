import Rollout.Toml.Value

/-!
# The text of a TOML document

Values stand on one line after their key, except that an array of two items or more has a line
for each.  A table, and each table of an array of tables, is a block of its own under a header.
-/

namespace Rollout.Toml

/-! ### Texts -/

/-- What decides how a text is quoted. -/
structure TextTraits where
  hasBackslash : Bool
  hasBreak : Bool
  /-- A control character other than the line break, or DEL. -/
  hasControl : Bool
  /-- The longest run of double quotes, and of single ones. -/
  doubleRun : Nat
  singleRun : Nat

/-- The longest run of `c`; `run` of them stand before the text. -/
def longestRun (c : Char) (run : Nat) : List Char → Nat
  | [] => run
  | d :: rest => if c = d then longestRun c (run + 1) rest else max run (longestRun c 0 rest)

/-- The control characters, among them DEL. -/
def isControl (c : Char) : Bool := c.toNat < 0x20 || c = '\x7f'

def TextTraits.of (s : List Char) : TextTraits where
  hasBackslash := s.contains '\\'
  hasBreak := s.contains '\n'
  hasControl := s.any fun c ↦ isControl c && c ≠ '\n'
  doubleRun := longestRun '"' 0 s
  singleRun := longestRun '\'' 0 s

def codeEscape (c : Char) : List Char :=
  let ds := (Nat.toDigits 16 c.toNat).map Char.toUpper
  ['\\', 'u'] ++ List.replicate (4 - ds.length) '0' ++ ds

/-- A character other than a quote between double quotes. -/
def escapedChar (lines : Bool) (c : Char) : List Char :=
  if c = '\\' then ['\\', '\\']
  else if c = '\n' then (if lines then ['\n'] else ['\\', 'n'])
  else if c = '\x08' then ['\\', 'b']
  else if c = '\t' then ['\\', 't']
  else if c = '\x0c' then ['\\', 'f']
  else if c = '\r' then ['\\', 'r']
  else if isControl c then codeEscape c
  else [c]

/-- A text between double quotes, of which up to `allowed` in a row need no escape; `run` of them
stand before it. -/
def escapedChars (lines : Bool) (allowed run : Nat) : List Char → List Char
  | [] => []
  | '"' :: rest =>
    if run < allowed then '"' :: escapedChars lines allowed (run + 1) rest
    else '\\' :: '"' :: escapedChars lines allowed 0 rest
  | c :: rest => escapedChar lines c ++ escapedChars lines allowed 0 rest

/-- A text between quotes; a text with line breaks begins on a line of its own. -/
def enclose (quotes : List Char) (s : List Char) : List Char :=
  quotes ++ (if 1 < quotes.length && s.contains '\n' then ['\n'] else []) ++ s ++ quotes

def tripleDouble : List Char := ['"', '"', '"']

def tripleSingle : List Char := ['\'', '\'', '\'']

/-- A text in the first form that can hold it: on one line if possible, and without escapes. -/
def textChars (text : String) : List Char :=
  let s := text.toList
  let t := TextTraits.of s
  let onOneLine := !t.hasControl && !t.hasBreak
  if onOneLine && !t.hasBackslash && t.doubleRun = 0 then enclose ['"'] s
  else if onOneLine && t.singleRun = 0 then enclose ['\''] s
  else if !t.hasControl && !t.hasBackslash && t.doubleRun ≤ 2 then enclose tripleDouble s
  else if !t.hasControl && t.singleRun ≤ 2 then enclose tripleSingle s
  else if t.hasBreak then enclose tripleDouble (escapedChars true 2 0 s)
  else enclose ['"'] (escapedChars false 0 0 s)

def keyChars (key : String) : List Char :=
  let s := key.toList
  let t := TextTraits.of s
  let onOneLine := !t.hasControl && !t.hasBreak
  if !s.isEmpty && s.all isBareKeyChar then s
  else if onOneLine && !t.hasBackslash && t.doubleRun = 0 then enclose ['"'] s
  else if onOneLine && t.singleRun = 0 then enclose ['\''] s
  else enclose ['"'] (escapedChars false 0 0 s)

/-! ### Values -/

/-- All numbers are in positional notation; whole ones keep one decimal. -/
def numberLayout : Layout := ⟨.away, none, ['.', '0'], []⟩

def floatChars (x : Binary64) : List Char :=
  if x.isNaN then (if x.isNegative then ['-'] else []) ++ ['n', 'a', 'n'] else numberLayout.text x

/-- The texts with the text `sep` between them. -/
def joined (sep : List Char) (l : List (List Char)) : List Char := (l.intersperse sep).flatten

mutual

def valueChars : Toml → List Char
  | .string s => textChars s
  | .int n => (toString n).toList
  | .float x => floatChars x
  | .bool b => (toString b).toList
  | .moment m => m.text.toList
  | .array [] => ['[', ']']
  | .array [v] => ['['] ++ valueChars v ++ [']']
  | .array items =>
    ['['] ++ (itemTexts items).flatMap (['\n', ' ', ' ', ' ', ' '] ++ · ++ [',']) ++ ['\n', ']']
  | .table [] => ['\x7b', '\x7d']
  | .table members =>
    ['\x7b', ' '] ++ joined [',', ' '] (memberTexts members) ++ [' ', '\x7d']

def itemTexts : List Toml → List (List Char)
  | [] => []
  | v :: more => valueChars v :: itemTexts more

def memberTexts : List (String × Toml) → List (List Char)
  | [] => []
  | m :: more => (keyChars m.1 ++ [' ', '=', ' '] ++ valueChars m.2) :: memberTexts more

end

/-! ### Blocks -/

def isTable : Toml → Bool
  | .table _ => true
  | _ => false

/-- The value has blocks of its own: it is a table, or an array of nothing but tables. -/
def hasBlocks : Toml → Bool
  | .table _ => true
  | .array items => !items.isEmpty && items.all isTable
  | _ => false

/-- The lines of the members that have no blocks of their own. -/
def lineChars (members : List (String × Toml)) : List Char :=
  (memberTexts (members.filter fun m ↦ !hasBlocks m.2)).flatMap (· ++ ['\n'])

def pathChars (path : List String) : List Char := joined ['.'] (path.map keyChars)

/-- The block of a table under its header.  A table that has only blocks inside it needs none. -/
def block (path : List String) (members : List (String × Toml)) : List (List Char) :=
  if members.isEmpty || members.any fun m ↦ !hasBlocks m.2 then
    [['['] ++ pathChars path ++ [']', '\n'] ++ lineChars members]
  else []

def itemBlock (path : List String) (members : List (String × Toml)) : List Char :=
  ['[', '['] ++ pathChars path ++ [']', ']', '\n'] ++ lineChars members

mutual

def blocks (path : List String) : Toml → List (List Char)
  | .table members => block path members ++ memberBlocks path members
  | .array items => itemBlocks path items
  | _ => []

def memberBlocks (path : List String) : List (String × Toml) → List (List Char)
  | [] => []
  | m :: more =>
    (if hasBlocks m.2 then blocks (path ++ [m.1]) m.2 else []) ++ memberBlocks path more

def itemBlocks (path : List String) : List Toml → List (List Char)
  | .table members :: more =>
    itemBlock path members :: memberBlocks path members ++ itemBlocks path more
  | _ :: more => itemBlocks path more
  | [] => []

end

/-- The text of a document: its blocks, the root table's first, with an empty line between
them. -/
def print (members : List (String × Toml)) : String :=
  let own := lineChars members
  let all := (if own.isEmpty then [] else [own]) ++ memberBlocks [] members
  String.ofList (joined ['\n'] all)

end Rollout.Toml
