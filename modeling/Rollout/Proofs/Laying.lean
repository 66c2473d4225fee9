import Rollout.Settings.Path

/-!
# Laying values at paths

A path leads by steps from a value to one inside it.  To lay a value at a path is to change what the
last step leads to; all else stays as it was, except that a value of another kind that stands in the
way is replaced by a table or a list (`SettingPath.put_eq`).

* What a source sets apart from a value leaves this value alone (`Raw.under_layOver`), and two
  values that are the same but for this one stay so (`Raw.SameBut.layOver`).
* A source that is laid over a default says what it says when it is laid over nothing, unless it
  says nothing (`Raw.beneath_layOver`).
-/

namespace Rollout

namespace Raw

/-! ### Steps -/

/-- A step from a value to one inside it. -/
inductive Step where
  | key (name : String)
  | item (index : Int)
  deriving DecidableEq

def Step.change (change : Option Raw → Raw) (root : Raw) : Step → Raw
  | key name => root.alter name change
  | item i => root.alterItem i fun old ↦ change (some old)

/-- Change what steps lead to. -/
def changeAt (change : Option Raw → Raw) : List Step → Option Raw → Raw
  | [], old => change old
  | s :: more, old => s.change (changeAt change more) (old.getD nothing)

/-- A change at the end of a way is one at the end of its second part, made at the end of the first.
-/
theorem changeAt_append (change : Option Raw → Raw) (before after : List Step) :
    changeAt change (before ++ after) = changeAt (changeAt change after) before := by
  induction before with
  | nil => rfl
  | cons s more ih =>
    funext old
    rw [List.cons_append, changeAt, changeAt, ih]

/-- A value as it is after it has been laid over another. -/
def merged (v : Raw) (old : Option Raw) : Raw :=
  match v with
  | table members => putMembers (old.getD (table [])) members
  | v => v

theorem put_eq (key : String) (root v : Raw) :
    root.put key v = root.alter (folded key) v.merged := by
  cases v <;> rfl

end Raw

namespace SettingPath

open Raw (Step changeAt folded merged)

def steps : SettingPath → List Step
  | name key => [.key key]
  | member p key => p.steps ++ [.key key]
  | item p i => p.steps ++ [.item i]

/-- The steps to where values are laid: the last key is in lower case. -/
def place : SettingPath → List Step
  | name key => [.key (folded key)]
  | member p key => p.steps ++ [.key (folded key)]
  | item p i => p.steps ++ [.item i]

/-- What becomes of what stands at a path.  Items of lists are not merged. -/
def laid (v : Raw) : SettingPath → Option Raw → Raw
  | name _ | member .. => v.merged
  | item .. => fun _ ↦ v

/-- To update a path is to make a change where its steps lead. -/
theorem update_eq (change : Raw → Raw) (p : SettingPath) (root : Raw) :
    p.update change root = changeAt (fun old ↦ change (old.getD .nothing)) p.steps (some root) := by
  induction p generalizing change root with
  | name key => rfl
  | member p key ih => rw [update, ih, steps, Raw.changeAt_append]; rfl
  | item p i ih => rw [update, ih, steps, Raw.changeAt_append]; rfl

theorem put_eq (v : Raw) (p : SettingPath) (root : Raw) :
    p.put v root = changeAt (p.laid v) p.place (some root) := by
  cases p with
  | name key => exact Raw.put_eq key root v
  | member p key =>
    rw [put, update_eq, place, Raw.changeAt_append]
    simp only [Raw.put_eq]
    rfl
  | item p i => rw [put, update_eq, place, Raw.changeAt_append]; rfl

/-- Only tables are merged. -/
theorem laid_of_not_table {v : Raw} (no_table : ∀ ms, v ≠ .table ms) (p : SettingPath)
    (old : Option Raw) : p.laid v old = v := by
  cases p with
  | name | member =>
    cases v with
    | table ms => exact absurd rfl (no_table ms)
    | nothing | bool | int | double | text | list => rfl
  | item => rfl

theorem steps_eq_cons (p : SettingPath) : ∃ key more, p.steps = .key key :: more := by
  induction p with
  | name key => exact ⟨key, [], rfl⟩
  | member p _ ih | item p _ ih =>
    obtain ⟨key, more, eq⟩ := ih
    exact ⟨key, _, by rw [steps, eq, List.cons_append]⟩

/-- Paths begin with a name. -/
theorem place_eq_cons (p : SettingPath) : ∃ key more, p.place = .key key :: more := by
  cases p with
  | name key => exact ⟨_, [], rfl⟩
  | member p _ | item p _ =>
    obtain ⟨key, more, eq⟩ := p.steps_eq_cons
    exact ⟨key, _, by rw [place, eq, List.cons_append]⟩

end SettingPath

namespace Raw

variable {sec name key : String} {more : List Step} {p : SettingPath} {v root x y d : Raw}
  {change : Option Raw → Raw} {old a b : Option Raw} {source : List (String × Raw)}

/-- Whatever is put in, there is a table afterwards. -/
theorem isTable_put (v : Raw) (p : SettingPath) (root : Raw) : ∃ ms, p.put v root = table ms := by
  obtain ⟨key, more, place⟩ := p.place_eq_cons
  rw [p.put_eq, place]
  exact ⟨_, rfl⟩

theorem isTable_layOver (source : List (String × Raw)) (h : ∃ ms, root = table ms) :
    ∃ ms, layOver source root = table ms := by
  induction source generalizing root with
  | nil => exact h
  | cons e more ih => exact ih (isTable_put ..)

/-- A value that is put at a path changes the section with which the path begins, and no other. -/
theorem get?_put (place : p.place = .key key :: more) : (p.put v root).get? sec =
    if key = sec then some (changeAt (p.laid v) more (root.get? sec)) else root.get? sec := by
  rw [p.put_eq, place]
  refine (get?_alter ..).trans ?_
  split
  · rename_i same
    rw [same]
    rfl
  · rfl

/-! ### Values in sections -/

/-- The value under a name in a section. -/
def under (sec name : String) (root : Raw) : Option Raw := (root.get? sec).bind (get? name)

theorem get?_getD (name : String) (old : Option Raw) :
    (old.getD nothing).get? name = old.bind (get? name) := by
  cases old <;> rfl

theorem get?_changeAt : (changeAt change (.key key :: more) old).get? name =
    if key = name then some (changeAt change more (old.bind (get? name))) else
      old.bind (get? name) := by
  refine (get?_alter ..).trans ?_
  rw [get?_getD, get?_getD]
  split
  · rename_i same
    rw [same]
  · rfl

/-- A value that is put into a section changes the name with which its path goes on, and no other.
-/
theorem under_put (place : p.place = .key sec :: .key key :: more) : under sec name (p.put v root) =
    if key = name then some (changeAt (p.laid v) more (under sec name root)) else
      under sec name root := by
  unfold under
  rw [get?_put place, if_pos rfl, Option.bind_some, get?_changeAt]

/-- What stands at the place is not the value under `name` in the section `sec`, does not hold it
and is not held by it. -/
def Apart (sec name : String) : List Step → Prop
  | .key key :: more => key ≠ sec ∨ ∃ other rest, more = .key other :: rest ∧ other ≠ name
  | _ => False

/-- A value that is laid apart from another leaves it alone. -/
theorem under_put_of_apart (apart : Apart sec name p.place) :
    under sec name (p.put v root) = under sec name root := by
  obtain ⟨key, more, place⟩ := p.place_eq_cons
  rw [place] at apart
  by_cases here : key = sec
  · obtain elsewhere | ⟨other, rest, rfl, differs⟩ := apart
    · exact absurd here elsewhere
    · rw [under_put (here ▸ place), if_neg differs]
  · unfold under
    rw [get?_put place, if_neg here]

/-- A source that sets nothing of a section leaves it alone. -/
theorem get?_layOver
    (elsewhere : ∀ e ∈ source, (SettingPath.of e.1).place.head? ≠ some (.key sec)) :
    (layOver source root).get? sec = root.get? sec := by
  induction source generalizing root with
  | nil => rfl
  | cons e more ih =>
    obtain ⟨here, others⟩ := List.forall_mem_cons.1 elsewhere
    refine (ih others).trans ?_
    obtain ⟨key, steps, place⟩ := (SettingPath.of e.1).place_eq_cons
    rw [get?_put place, if_neg fun same ↦ here ?_]
    rw [place, same, List.head?_cons]

section Apart

variable (apart : ∀ e ∈ source, Apart sec name (SettingPath.of e.1).place)

include apart

/-- A source that is apart from a name leaves what is under it. -/
theorem under_layOver : under sec name (layOver source root) = under sec name root := by
  induction source generalizing root with
  | nil => rfl
  | cons e more ih =>
    obtain ⟨here, others⟩ := List.forall_mem_cons.1 apart
    exact (ih others).trans (under_put_of_apart here)

/-- A section that is a table remains one under a source that is apart from one of its names. -/
theorem section_stays_table (made : ∃ ms, root.get? sec = some (table ms)) :
    ∃ ms, (layOver source root).get? sec = some (table ms) := by
  induction source generalizing root with
  | nil => exact made
  | cons e more ih =>
    obtain ⟨here, others⟩ := List.forall_mem_cons.1 apart
    refine ih others ?_
    obtain ⟨key, steps, place⟩ := (SettingPath.of e.1).place_eq_cons
    rw [place] at here
    rw [get?_put place]
    split
    · rename_i same
      obtain elsewhere | ⟨other, rest, rfl, -⟩ := here
      · exact absurd same elsewhere
      · exact ⟨_, rfl⟩
    · exact made

/-- A section is a table once one of its values has been set. -/
theorem section_becomes_table
    (sets : ∃ e ∈ source, (SettingPath.of e.1).place.head? = some (.key sec)) :
    ∃ ms, (layOver source root).get? sec = some (table ms) := by
  induction source generalizing root with
  | nil => exact absurd sets (by simp)
  | cons e more ih =>
    obtain ⟨here, others⟩ := List.forall_mem_cons.1 apart
    obtain ⟨f, mem, begins⟩ := sets
    rcases List.mem_cons.1 mem with first | later
    · rw [first] at begins
      obtain ⟨key, steps, place⟩ := (SettingPath.of e.1).place_eq_cons
      rw [place, List.head?_cons, Option.some_inj, Step.key.injEq] at begins
      rw [place] at here
      have made : ∃ ms, ((SettingPath.of e.1).put e.2 root).get? sec = some (table ms) := by
        obtain elsewhere | ⟨other, rest, rfl, -⟩ := here
        · exact absurd begins elsewhere
        · rw [get?_put place, if_pos begins]
          exact ⟨_, rfl⟩
      have kept := section_stays_table others made
      exact kept
    · exact ih others ⟨f, later, begins⟩

end Apart

/-! ### Values that are the same but for one -/

/-- The values are the same but for what stands under `name` in the section `sec`. -/
structure SameBut (sec name : String) (x y : Raw) : Prop where
  sections : ∀ other ≠ sec, x.get? other = y.get? other
  values : ∀ other ≠ name, under sec other x = under sec other y

/-- They differ there only after a value has been laid there. -/
theorem sameBut_put (place : p.place = [.key sec, .key name]) :
    SameBut sec name (p.put v root) root where
  sections other differs := by rw [get?_put place, if_neg differs.symm]
  values other differs := by rw [under_put place, if_neg differs.symm]

/-- Tables that are the same but for one name remain so when a value is put elsewhere. -/
theorem SameBut.put (same : SameBut sec name x y) (apart : Apart sec name p.place) :
    SameBut sec name (p.put v x) (p.put v y) := by
  obtain ⟨key, more, place⟩ := p.place_eq_cons
  rw [place] at apart
  constructor
  · intro other differs
    rw [get?_put place, get?_put place, same.sections other differs]
  · intro other differs
    by_cases here : key = sec
    · obtain elsewhere | ⟨key', rest, rfl, -⟩ := apart
      · exact absurd here elsewhere
      · rw [under_put (here ▸ place), under_put (here ▸ place), same.values other differs]
    · unfold under
      rw [get?_put place, get?_put place, if_neg here, if_neg here]
      exact same.values other differs

/-- Tables that are the same but for one name remain so under a source that is apart from it. -/
theorem SameBut.layOver (same : SameBut sec name x y)
    (apart : ∀ e ∈ source, Apart sec name (SettingPath.of e.1).place) :
    SameBut sec name (layOver source x) (layOver source y) := by
  induction source generalizing x y with
  | nil => exact same
  | cons e more ih =>
    obtain ⟨here, others⟩ := List.forall_mem_cons.1 apart
    exact ih (same.put here) others

/-! ### Over a default and over nothing -/

/-- A value that holds nothing. -/
structure Plain (d : Raw) : Prop where
  members : d.members = []
  items : d.items = []

/-- Two values that come from the same source, one laid over nothing and one over `d`: the first
says nothing and the second is still `d`, or they are the same. -/
def Over (d : Raw) (a b : Option Raw) : Prop :=
  (a = none ∨ a = some (table [])) ∧ b = some d ∨ a = b

theorem alter_congr (same : x.members = y.members) (key : String) (change : Option Raw → Raw) :
    x.alter key change = y.alter key change := by
  unfold alter get?
  rw [same]

theorem alterItem_congr (same : x.items = y.items) (i : Int) (change : Raw → Raw) :
    x.alterItem i change = y.alterItem i change := by
  unfold alterItem
  rw [same]

theorem putMembers_congr (same : x.members = y.members) (m : String × Raw)
    (ms : List (String × Raw)) : x.putMembers (m :: ms) = y.putMembers (m :: ms) := by
  rw [putMembers, putMembers, put_eq, put_eq, alter_congr same]

/-- A value that is merged over nothing and over a plain default comes to the same, or else it says
nothing and the default is still there. -/
theorem Over.merged (plain : d.Plain) (upon : Over d a b) (v : Raw) :
    Over d (some (v.merged a)) (some (v.merged b)) := by
  obtain ⟨unsaid, rfl⟩ | rfl := upon
  · have blank : a.getD (table []) = table [] := by
      rcases unsaid with rfl | rfl <;> rfl
    cases v with
    | table members =>
      unfold Raw.merged
      rw [blank, Option.getD_some]
      cases members with
      | nil => exact .inl ⟨.inr rfl, rfl⟩
      | cons m ms =>
        have same : (table []).members = d.members := plain.members.symm
        exact .inr (congrArg some (putMembers_congr same m ms))
    | nothing | bool | int | double | text | list => exact .inr rfl
  · exact .inr rfl

theorem Over.laid (plain : d.Plain) (upon : Over d a b) (v : Raw) (p : SettingPath) :
    Over d (some (p.laid v a)) (some (p.laid v b)) := by
  cases p with
  | name | member => exact upon.merged plain v
  | item => exact .inr rfl

/-- So does a change inside, since a plain default has neither members nor items that it could find.
-/
theorem Over.changeAt (plain : d.Plain) (upon : Over d a b) (v : Raw) (p : SettingPath)
    (steps : List Step) :
    Over d (some (changeAt (p.laid v) steps a)) (some (changeAt (p.laid v) steps b)) := by
  obtain ⟨unsaid, rfl⟩ | rfl := upon
  · have holds_nothing : (a.getD nothing).members = [] ∧ (a.getD nothing).items = [] := by
      rcases unsaid with rfl | rfl <;> exact ⟨rfl, rfl⟩
    cases steps with
    | nil => exact Over.laid plain (.inl ⟨unsaid, rfl⟩) v p
    | cons s more =>
      refine .inr (congrArg some ?_)
      cases s with
      | key => exact alter_congr (holds_nothing.1.trans plain.members.symm) _ _
      | item => exact alterItem_congr (holds_nothing.2.trans plain.items.symm) _ _
  · exact .inr rfl

/-- Two sections that come from the same source, one laid over nothing and one over a table with `d`
under `name`. -/
def Beneath (name : String) (d : Raw) (a b : Option Raw) : Prop :=
  (a = none ∨ ∃ ms, a = some (table ms)) ∧ (∃ ms, b = some (table ms)) ∧
    Over d (a.bind (get? name)) (b.bind (get? name)) ∨ a = b

theorem over_put (plain : d.Plain) (upon : Over d (x.get? name) (y.get? name)) (key : String)
    (v : Raw) : Over d ((x.put key v).get? name) ((y.put key v).get? name) := by
  rw [put_eq, put_eq, get?_alter, get?_alter]
  split
  · rename_i same
    rw [same]
    exact upon.merged plain v
  · exact upon

theorem over_putMembers (plain : d.Plain) (upon : Over d (x.get? name) (y.get? name))
    (ms : List (String × Raw)) :
    Over d ((x.putMembers ms).get? name) ((y.putMembers ms).get? name) := by
  induction ms generalizing x y with
  | nil => exact upon
  | cons m more ih => exact ih (over_put plain upon m.1 m.2)

theorem isTable_putMembers (h : ∃ ms, x = table ms) (ms : List (String × Raw)) :
    ∃ ms', x.putMembers ms = table ms' := by
  induction ms generalizing x with
  | nil => exact h
  | cons m more ih => exact ih ⟨_, put_eq ..⟩

/-- A section that is merged over nothing and over a table with the default leaves two of their
kind. -/
theorem Beneath.merged (plain : d.Plain) (beneath : Beneath name d a b) (v : Raw) :
    Beneath name d (some (v.merged a)) (some (v.merged b)) := by
  obtain ⟨table_a, ⟨bs, rfl⟩, upon⟩ | rfl := beneath
  · cases v with
    | table members =>
      have made : ∃ ms, a.getD (table []) = table ms := by
        rcases table_a with rfl | ⟨ms, rfl⟩
        · exact ⟨[], rfl⟩
        · exact ⟨ms, rfl⟩
      have same : (a.getD (table [])).get? name = a.bind (get? name) := by cases a <;> rfl
      obtain ⟨ms, eq⟩ := isTable_putMembers made members
      obtain ⟨ms', eq'⟩ := isTable_putMembers ⟨bs, rfl⟩ members
      refine .inl ⟨.inr ⟨ms, congrArg some eq⟩, ⟨ms', congrArg some eq'⟩, ?_⟩
      exact over_putMembers plain (same ▸ upon) members
    | nothing | bool | int | double | text | list => exact .inr rfl
  · exact .inr rfl

/-- A change of the section is felt alike in both.  One at an item replaces either by the same list,
since tables have no items. -/
theorem Beneath.changeAt (plain : d.Plain) (beneath : Beneath name d a b) (v : Raw)
    (p : SettingPath) (steps : List Step) :
    Beneath name d (some (changeAt (p.laid v) steps a)) (some (changeAt (p.laid v) steps b)) := by
  obtain ⟨table_a, table_b, upon⟩ | rfl := beneath
  · cases steps with
    | nil =>
      cases p with
      | name | member => exact Beneath.merged plain (.inl ⟨table_a, table_b, upon⟩) v
      | item => exact .inr rfl
    | cons s more =>
      cases s with
      | key key =>
        refine .inl ⟨.inr ⟨_, rfl⟩, ⟨_, rfl⟩, ?_⟩
        rw [Option.bind_some, Option.bind_some, get?_changeAt, get?_changeAt]
        split
        · exact upon.changeAt plain v p more
        · exact upon
      | item i =>
        obtain ⟨bs, rfl⟩ := table_b
        have no_items : (a.getD nothing).items = [] := by
          rcases table_a with rfl | ⟨ms, rfl⟩ <;> rfl
        exact .inr (congrArg some (alterItem_congr no_items _ _))
  · exact .inr rfl

/-- What a source says of a section does not depend on the default that it is laid over. -/
theorem beneath_layOver (plain : d.Plain) (source : List (String × Raw))
    (beneath : Beneath name d (x.get? sec) (y.get? sec)) :
    Beneath name d ((layOver source x).get? sec) ((layOver source y).get? sec) := by
  induction source generalizing x y with
  | nil => exact beneath
  | cons e more ih =>
    refine ih ?_
    obtain ⟨key, steps, place⟩ := (SettingPath.of e.1).place_eq_cons
    rw [get?_put place, get?_put place]
    split
    · exact beneath.changeAt plain e.2 _ steps
    · exact beneath

end Raw
end Rollout
