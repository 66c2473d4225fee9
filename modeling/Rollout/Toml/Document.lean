import Rollout.Toml.Scalar
import Rollout.Toml.Table

/-!
# TOML documents

A document is read as a list of statements, one a line: headers, which open a table, and pairs,
which put a value into the table that is open.  The statements then build the tables one after the
other.
-/

namespace Rollout.Toml

open Text (readChar?)

/-! ### Keys -/

def readKey? : List Char → Option (String × List Char)
  | '"' :: rest => (readEscaped? false [] rest).map fun (cs, rest) ↦ (String.ofList cs, rest)
  | '\'' :: rest => (readLiteral? false [] rest).map fun (cs, rest) ↦ (String.ofList cs, rest)
  | s =>
    match s.takeWhile isBareKeyChar with
    | [] => none
    | cs => some (String.ofList cs, s.dropWhile isBareKeyChar)

/-- Tables may not be nested deeper than this, nor arrays. -/
def nestingLimit : Nat := 80

/-- Read keys with dots between them and spaces around them, at most `most`. -/
def readKeys? : Nat → List Char → Option (List String × List Char)
  | 0, _ => none
  | most + 1, s => do
    let (key, rest) ← readKey? (skipSpaces s)
    match skipSpaces rest with
    | '.' :: rest => do
      let (more, rest) ← readKeys? most rest
      some (key :: more, rest)
    | rest => some ([key], rest)

def readPath? (s : List Char) : Option (List String × List Char) := readKeys? (nestingLimit - 1) s

/-! ### Values -/

/-- Read a comment up to the end of its line, if there is one. -/
def skipComment? : List Char → Option (List Char)
  | '#' :: rest =>
    let rest := rest.dropWhile isPlain
    if rest.isEmpty || (readBreak? rest).isSome then some rest else none
  | s => some s

/-- The text after the blanks, line breaks and comments at its front. -/
def skipLines? (s : List Char) : Option (List Char) := do
  let rest ← skipComment? (skipBreaks s)
  if rest.length < (skipBreaks s).length then skipLines? rest else some rest
termination_by s.length
decreasing_by
  have := length_skipBreaks_le s
  omega

/-- Read the items of an array up to its end.  Line breaks and comments may surround them, and a
comma may follow the last one. -/
def readItems? (item : List Char → Option (Toml × List Char)) (s : List Char) :
    Option (List Toml × List Char) := do
  match ← skipLines? s with
  | ']' :: rest => some ([], rest)
  | s' =>
    let (v, rest) ← item s'
    match ← skipLines? rest with
    | ']' :: rest => some ([v], rest)
    | ',' :: rest =>
      if rest.length < s.length then
        let (more, rest) ← readItems? item rest
        some (v :: more, rest)
      else none
    | _ => none
termination_by s.length

/-- Read a key with dots, and its value after the sign. -/
def readPair? (item : List Char → Option (Toml × List Char)) (s : List Char) :
    Option ((List String × Toml) × List Char) := do
  let (path, rest) ← readPath? s
  let (v, rest) ← item (skipSpaces (← readChar? '=' rest))
  some ((path, v), rest)

/-- Read the pairs of a table on one line up to its end, and put them into it. -/
def readMembers? (item : List Char → Option (Toml × List Char)) (ms : Members) (s : List Char) :
    Option (Members × List Char) := do
  let ((path, v), rest) ← readPair? item s
  let ms ← ms.put? v .declared false path
  match skipSpaces rest with
  | '\x7d' :: rest => some (ms, rest)
  | ',' :: rest => if rest.length < s.length then readMembers? item ms rest else none
  | _ => none
termination_by s.length

/-- Read a value in which arrays and tables are nested at most `depth` times. -/
def readValue? (depth : Nat) (s : List Char) : Option (Toml × List Char) :=
  match s, depth with
  | '[' :: rest, depth + 1 =>
    (readItems? (fun s ↦ readValue? depth s) rest).map fun (items, rest) ↦ (.array items, rest)
  | '\x7b' :: rest, depth + 1 =>
    match skipSpaces rest with
    | '\x7d' :: rest => some (.table [], rest)
    | rest =>
      (readMembers? (fun s ↦ readValue? depth s) [] rest).map fun (ms, rest) ↦
        (.table (membersToToml ms), rest)
  | '[' :: _, 0 => none
  | '\x7b' :: _, 0 => none
  | s, _ => readScalar? s

/-! ### Statements -/

/-- What a line says. -/
inductive Statement where
  /-- The table under the path is open from here on. -/
  | header (path : List String)
  /-- One more table of the array under the path is open from here on. -/
  | itemHeader (path : List String)
  | pair (path : List String) (v : Toml)
  deriving Repr

def readStatement? : List Char → Option (Statement × List Char)
  | '[' :: '[' :: s => do
    let (path, rest) ← readPath? s
    some (.itemHeader path, ← readChar? ']' (← readChar? ']' rest))
  | '[' :: s => do
    let (path, rest) ← readPath? s
    some (.header path, ← readChar? ']' rest)
  | s => do
    let ((path, v), rest) ← readPair? (readValue? (nestingLimit - 1)) s
    some (.pair path v, rest)

def readLineEnd? (s : List Char) : Option (List Char) := do
  match ← skipComment? (skipSpaces s) with
  | [] => some []
  | rest => readBreak? rest

/-- Read a line: its statement, if it has one. -/
def readLine? (s : List Char) : Option (Option Statement × List Char) :=
  match readLineEnd? s with
  | some rest => some (none, rest)
  | none => do
    let (st, rest) ← readStatement? (skipSpaces s)
    some (some st, ← readLineEnd? rest)

def readStatements? (s : List Char) : Option (List Statement) :=
  if s.isEmpty then some []
  else do
    let (st, rest) ← readLine? s
    if rest.length < s.length then
      let more ← readStatements? rest
      some (st.toList ++ more)
    else none
termination_by s.length

/-! ### Documents -/

/-- The tables so far, and the path of the open one. -/
structure Draft where
  members : Members := []
  current : List String := []

namespace Draft

/-- Change the table that the last key of a path stands in. -/
def open? (change : String → Members → Option Members) (path : List String) (d : Draft) :
    Option Draft := do
  let key ← path.getLast?
  some ⟨← d.members.within? (change key) path.dropLast, path⟩

def extend? (d : Draft) : Statement → Option Draft
  | .header path => d.open? Members.declare? path
  | .itemHeader path => d.open? Members.append? path
  | .pair path v => do
    some { d with members := ← d.members.within? (·.put? v .declared false path) d.current }

end Draft

/-- The members of the root table of a document.  A byte order mark may stand before it. -/
def parse? (text : String) : Option (List (String × Toml)) := do
  let statements ← readStatements? <| match text.toList with
    | '\ufeff' :: s => s
    | s => s
  let d ← statements.foldlM Draft.extend? {}
  some (membersToToml d.members)

end Rollout.Toml
