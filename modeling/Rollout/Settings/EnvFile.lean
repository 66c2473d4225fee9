import Rollout.Text.Blank

/-!
# Files of environment variables

A file of lines `NAME=value`.  A value may stand in quotes, which may hold line breaks, and may
refer to variables as `$NAME` or with the name in braces.  Variables that are set already keep
their values.
-/

namespace Rollout.EnvFile

/-! ### Lines -/

/-- Where in a line the reader is. -/
inductive Place where
  | plain
  | afterSpace
  | escape
  | quoted (mark : Char)
  | quotedEscape (mark : Char)
  | comment
  deriving DecidableEq, Repr

namespace Place

/-- The place after the character `c`. -/
def next (p : Place) (c : Char) : Place :=
  let opened : Place :=
    if c = '\\' then escape else if c = '"' || c = '\'' then quoted c else plain
  match p with
  | afterSpace => if c = '#' then comment else opened
  | plain => if Text.isBlank c && c ≠ '\n' && c ≠ '\r' then afterSpace else opened
  | escape => plain
  | quoted mark => if c = '\\' then quotedEscape mark else if c = mark then plain else p
  | quotedEscape mark => quoted mark
  | comment => comment

end Place

def physicalLines : List Char → List (List Char)
  | [] => []
  | '\n' :: rest => ['\n'] :: physicalLines rest
  | c :: rest =>
    match physicalLines rest with
    | [] => [[c]]
    | line :: more => (c :: line) :: more

/-- The characters up to the comment at the end of a line, and the place after the line. -/
def scanLine (p : Place) : List Char → List Char × Place
  | [] => ([], p)
  | c :: rest =>
    match p.next c with
    | .comment => ([], .comment)
    | q =>
      let (kept, last) := scanLine q rest
      (c :: kept, last)

def withoutBreak (s : List Char) : List Char :=
  match s.reverse with
  | '\n' :: '\r' :: rest => rest.reverse
  | '\n' :: rest => rest.reverse
  | _ => s

/-- The lines of a file, where `before` holds the beginning of one that goes on.  A file that ends
within a line ends with `none`. -/
def linesFrom (before : List Char) (p : Place) : List (List Char) → List (Option (List Char))
  | [] => if p = .plain then [] else [none]
  | line :: more =>
    if ((before ++ line).dropWhile Text.isBlank).head? = some '#' then
      some [] :: linesFrom [] .plain more
    else
      match scanLine p line with
      | (kept, .plain) => some (withoutBreak (before ++ kept)) :: linesFrom [] .plain more
      | (kept, .comment) => some (before ++ kept) :: linesFrom [] .plain more
      | (kept, q) => linesFrom (before ++ kept) q more

/-! ### Values -/

/-- A reference to a variable that is being read. -/
inductive Reference where
  | absent
  | bare
  | braced
  deriving DecidableEq, Repr

/-- A value that is being read.  Texts are held in reverse. -/
structure Scan where
  strong : Bool := false
  weak : Bool := false
  escaped : Bool := false
  /-- The value is complete; only blanks and a comment may follow. -/
  ending : Bool := false
  /-- The comment has begun. -/
  done : Bool := false
  reference : Reference := .absent
  name : List Char := []
  output : List Char := []

namespace Scan

/-- Put the value of the variable that is referred to into the output. -/
def substitute (valueOf : String → Option String) (s : Scan) : Scan :=
  let value := (valueOf (String.ofList s.name.reverse)).getD ""
  { s with name := [], output := value.toList.reverse ++ s.output }

def push (s : Scan) (c : Char) : Scan := { s with output := c :: s.output }

/-- Read a character of a reference. -/
def refer (valueOf : String → Option String) (s : Scan) (c : Char) : Scan :=
  if c.isAlphanum then { s with name := c :: s.name }
  else if s.reference = .braced then
    if c = '\x7d' then { s.substitute valueOf with reference := .absent }
    else { s with name := c :: s.name }
  else if c = '\x7b' && s.name.isEmpty then { s with reference := .braced }
  else if c = '$' then { s.substitute valueOf with reference := .bare }
  else { (s.substitute valueOf).push c with reference := .absent }

/-- Read one character of a value. -/
def step (valueOf : String → Option String) (s : Scan) (c : Char) : Option Scan :=
  if s.done then some s
  else if s.ending then
    if c = ' ' || c = '\t' then some s else if c = '#' then some { s with done := true } else none
  else if s.escaped then
    if ['\\', '\'', '"', '$', ' '].contains c then some { s.push c with escaped := false }
    else if c = 'n' then some { s.push '\n' with escaped := false }
    else none
  else if s.strong then some (if c = '\'' then { s with strong := false } else s.push c)
  else if s.reference ≠ .absent then some (s.refer valueOf c)
  else if c = '$' then some { s with reference := .bare }
  else if c = '\\' then some { s with escaped := true }
  else if s.weak then some (if c = '"' then { s with weak := false } else s.push c)
  else if c = '\'' then some { s with strong := true }
  else if c = '"' then some { s with weak := true }
  else if c = ' ' || c = '\t' then some { s with ending := true }
  else some (s.push c)

/-- The value at the end of the text, unless quotes or braces are open. -/
def finish? (valueOf : String → Option String) (s : Scan) : Option String :=
  if s.reference = .braced || s.strong || s.weak then none
  else some (String.ofList (s.substitute valueOf).output.reverse)

end Scan

def value? (valueOf : String → Option String) (s : List Char) : Option String := do
  (← s.foldlM (Scan.step valueOf) {}).finish? valueOf

/-! ### Entries -/

def skipBlanks (s : List Char) : List Char := s.dropWhile Text.isBlank

def readName? : List Char → Option (String × List Char)
  | [] => none
  | c :: rest =>
    let inside (c : Char) : Bool := c.isAlphanum || c = '_' || c = '.'
    if c.isAlpha || c = '_' then
      some (String.ofList (c :: rest.takeWhile inside), rest.dropWhile inside)
    else none

/-- Read a name and the sign after it, which the word `export` may precede. -/
def readTarget? (s : List Char) : Option (String × List Char) := do
  let (name, rest) ← readName? s
  match skipBlanks rest with
  | '=' :: rest => some (name, rest)
  | rest =>
    if name = "export" then
      let (name, rest) ← readName? rest
      match skipBlanks rest with
      | '=' :: rest => some (name, rest)
      | _ => none
    else none

/-- What a line sets, if anything.  A malformed line is `none`. -/
def assignment? (valueOf : String → Option String) (line : List Char) :
    Option (Option (String × String)) := do
  match skipBlanks (line.reverse.dropWhile Text.isBlank).reverse with
  | [] | '#' :: _ => some none
  | s =>
    let (name, rest) ← readTarget? s
    match skipBlanks rest with
    | [] | '#' :: _ => some (some (name, ""))
    | rest =>
      let v ← value? valueOf rest
      some (some (name, v))

def valueIn (environment : List (String × String)) (name : String) : Option String :=
  (environment.find? (·.1 == name)).map (·.2)

/-- Set the variables of the lines, up to the first malformed one. -/
def setAll (environment : List (String × String)) :
    List (Option (List Char)) → List (String × String)
  | [] => environment
  | line :: more =>
    match line.bind (assignment? (valueIn environment)) with
    | none => environment
    | some none => setAll environment more
    | some (some (name, v)) =>
      setAll (if (valueIn environment name).isSome then environment else environment ++ [(name, v)])
        more

def load (text : String) (environment : List (String × String)) : List (String × String) :=
  let s := match text.toList with
    | '\ufeff' :: s => s
    | s => s
  setAll environment (linesFrom [] .plain (physicalLines s))

end Rollout.EnvFile
