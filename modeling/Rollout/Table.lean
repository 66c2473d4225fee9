/-!
# Transition tables

A transition table lists, for each state that can be entered at all, the states it may be entered
from.  A state without an entry is never entered.

* `ofList` merges the entries of one target, so the order and the grouping of predecessors do not
  matter to any question asked of a table.
* `reachableFrom` is a search: a state that has been found is followed once, and whatever may be
  entered from it is found in turn.  Only targets are ever found, and each of them for the first
  time once, so the search ends in whichever order the entries are gone through.
* `describe` prints a table line by line, in the order it is given.
-/

namespace Rollout

/-- The predecessors of each target, each target and each predecessor once. -/
structure TransitionTable (S : Type) where
  entries : List (S × List S)
  deriving Repr

namespace TransitionTable

variable {S : Type} [DecidableEq S]

instance : Inhabited (TransitionTable S) := ⟨⟨[]⟩⟩

/-- The members of `more` that are not in `known` yet are put behind it. -/
def addMissing (known : List S) : List S → List S
  | [] => known
  | s :: more => addMissing (if s ∈ known then known else known ++ [s]) more

/-- Put an entry into the list: into the entry of its target if there is one. -/
def addEntry (target : S) (predecessors : List S) : List (S × List S) → List (S × List S)
  | [] => [(target, addMissing [] predecessors)]
  | e :: more =>
    if e.1 = target then (target, addMissing e.2 predecessors) :: more
    else e :: addEntry target predecessors more

def ofList (entries : List (S × List S)) : TransitionTable S :=
  ⟨entries.foldl (fun table e ↦ addEntry e.1 e.2 table) []⟩

/-- The states that `target` may be entered from; none if it is no target of the table. -/
def predecessors (t : TransitionTable S) (target : S) : Option (List S) :=
  (t.entries.find? (·.1 = target)).map (·.2)

/-- The edge from `source` to `target` is in the table. -/
def allows (t : TransitionTable S) (source target : S) : Bool :=
  match t.predecessors target with
  | some sources => sources.contains source
  | none => false

def size (t : TransitionTable S) : Nat := t.entries.length

def isEmpty (t : TransitionTable S) : Bool := t.entries.isEmpty

/-! ### Reachability -/

/-- A search that is under way. -/
structure Search (S : Type) where
  /-- What has been found. -/
  seen : List S
  /-- What has been found and not been followed yet; the first of it is followed next. -/
  frontier : List S
  deriving Repr

namespace Search

def start (initial : S) : Search S := ⟨[initial], [initial]⟩

/-- Find a state, perhaps not for the first time. -/
def find (q : Search S) (s : S) : Search S :=
  if s ∈ q.seen then q else ⟨q.seen ++ [s], s :: q.frontier⟩

/-- Go through entries, and find the targets that may be entered from `current`. -/
def follow (current : S) (q : Search S) : List (S × List S) → Search S
  | [] => q
  | e :: more => follow current (if e.2.contains current then q.find e.1 else q) more

/-- What there is left to do, if nothing but the `targets` is ever found: what waits to be
followed, and what has not been found. -/
def remaining (targets : List S) (q : Search S) : Nat :=
  q.frontier.length + (targets.filter (· ∉ q.seen)).length

theorem remaining_find_le {targets : List S} {s : S} (target : s ∈ targets) (q : Search S) :
    (q.find s).remaining targets ≤ q.remaining targets := by
  unfold find
  split
  · exact Nat.le_refl _
  · rename_i unseen
    have fewer : (targets.filter (· ∉ q.seen ++ [s])).length <
        (targets.filter (· ∉ q.seen)).length := by
      have both : targets.filter (· ∉ q.seen ++ [s]) =
          (targets.filter (· ∉ q.seen)).filter (· ≠ s) := by
        rw [List.filter_filter]
        refine List.filter_congr fun a _ ↦ ?_
        simp [and_comm]
      rw [both, List.length_filter_lt_length_iff_exists]
      exact ⟨s, List.mem_filter.2 ⟨target, by simpa using unseen⟩, by simp⟩
    simp only [remaining, List.length_cons]
    omega

theorem remaining_follow_le {targets : List S} (current : S) {entries : List (S × List S)}
    (among : ∀ e ∈ entries, e.1 ∈ targets) (q : Search S) :
    (q.follow current entries).remaining targets ≤ q.remaining targets := by
  induction entries generalizing q with
  | nil => exact Nat.le_refl _
  | cons e more ih =>
    obtain ⟨first, rest⟩ := List.forall_mem_cons.1 among
    refine Nat.le_trans (ih rest _) ?_
    split
    · exact remaining_find_le first q
    · exact Nat.le_refl _

end Search

/-- In which order the entries of a table are gone through, each time that a state is followed. -/
abbrev Visiting (t : TransitionTable S) : Type :=
  Search S → {entries : List (S × List S) // entries.Perm t.entries}

/-- The entries are gone through in the order in which the table lists them. -/
def listed (t : TransitionTable S) : t.Visiting := fun _ ↦ ⟨t.entries, .refl _⟩

/-- The states that a search has found when nothing is left to be followed. -/
def search (t : TransitionTable S) (visiting : t.Visiting) : Search S → List S
  | ⟨seen, []⟩ => seen
  | ⟨seen, current :: frontier⟩ =>
    let entries := visiting ⟨seen, current :: frontier⟩
    t.search visiting (Search.follow current ⟨seen, frontier⟩ entries.1)
termination_by q => q.remaining (t.entries.map (·.1))
decreasing_by
  have among : ∀ e ∈ entries.1, e.1 ∈ t.entries.map (·.1) := fun e mem ↦
    List.mem_map_of_mem (entries.2.mem_iff.1 mem)
  refine Nat.lt_of_le_of_lt (Search.remaining_follow_le current among _) ?_
  simp only [Search.remaining, List.length_cons]
  omega

/-- The states that can be reached from `initial`, itself included. -/
def reachableFrom (t : TransitionTable S) (initial : S) : List S :=
  t.search t.listed (.start initial)

/-! ### Description -/

def arrow : String := " <- "

def comma : String := ", "

/-- One line of a description; the predecessors ascend. -/
def describeEntry [ToString S] [LE S] [DecidableLE S] (target : S) (sources : List S) : String :=
  toString target ++ arrow ++
    comma.intercalate ((sources.mergeSort (fun a b ↦ decide (a ≤ b))).map toString)

/-- The targets among `order` with their predecessors, one a line. -/
def describe [ToString S] [LE S] [DecidableLE S] (t : TransitionTable S) (order : List S) :
    String :=
  "\n".intercalate <| order.filterMap fun target ↦
    (t.predecessors target).map (describeEntry target)

end TransitionTable
end Rollout
