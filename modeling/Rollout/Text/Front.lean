/-!
# Reading at the front of a text

A reader takes what it knows from the front of a text and leaves the rest.  `split` goes on to the
end: it cuts a text at a mark.
-/

namespace Rollout.Text

/-- Read the character `c`. -/
def readChar? (c : Char) : List Char → Option (List Char)
  | d :: rest => if c = d then some rest else none
  | [] => none

def readWord? : List Char → List Char → Option (List Char)
  | [], s => some s
  | c :: word, s => (readChar? c s).bind (readWord? word)

theorem eq_cons_of_readChar? {c : Char} {s rest : List Char} (h : readChar? c s = some rest) :
    s = c :: rest := by
  unfold readChar? at h
  split at h
  · split at h
    next e => rw [e, Option.some.inj h]
    next => cases h
  · cases h

/-- The pieces of a text between marks; `piece` is the beginning of the first one, in reverse. -/
def splitFrom (mark : Char) (piece : List Char) : List Char → List (List Char)
  | [] => [piece.reverse]
  | c :: s =>
    if c = mark then piece.reverse :: splitFrom mark [] s else splitFrom mark (c :: piece) s

def split (mark : Char) (text : String) : List String :=
  (splitFrom mark [] text.toList).map String.ofList

end Rollout.Text
