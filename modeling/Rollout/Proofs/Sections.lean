import Mathlib
import Rollout.Proofs.Laying
import Rollout.Settings.Load

/-!
# Sections of settings

The settings stand in four sections, each a record of fields.  A field is read from the value under
its name or, in a section that is a list, from the value at its place in the order of the fields;
with no value there it keeps its default or is missed.  No field is read from the value of another
(`Form.fills_of_fill?`), so each setting of what is loaded comes from one raw value
(`Settings.ReadFrom.fills_by_name`, `Settings.ReadFrom.fills_in_place`).
-/

namespace Rollout

namespace Form

/-! ### Fields of records -/

variable {α : Type}

namespace Field

/-- What a raw value says of a field, as the field is written. -/
def told? (blank : α) (f : Field α) (v : Raw) : Option Json :=
  (f.read v).map fun change ↦ f.write (change blank)

/-- What is read is what is written then, whatever the other fields are. -/
def Settles (f : Field α) : Prop :=
  ∀ v change, f.read v = some change → ∀ a b, f.write (change a) = f.write (change b)

/-- What is read for `f` does not show in `g`. -/
def Spares (f g : Field α) : Prop :=
  ∀ v change, f.read v = some change → ∀ a, g.write (change a) = g.write a

/-- What becomes of a field for which a raw value is given, or none. -/
def Fills (blank : α) (f : Field α) : Option Raw → Json → Json → Prop
  | some v, _, after => f.told? blank v = some after
  | none, before, after => f.required = false ∧ after = before

def fill? (f : Field α) : Option Raw → α → Option α
  | some v, a => (f.read v).map (· a)
  | none, a => if f.required then none else some a

/-- The field can be filled with what is given. -/
def Ready (f : Field α) : Option Raw → Prop
  | some v => (f.read v).isSome = true
  | none => f.required = false

variable {f g : Field α} {given : Option Raw} {a b blank : α}

/-- A field is ready exactly if it can be filled. -/
theorem ready_iff (a : α) : f.Ready given ↔ ∃ b, f.fill? given a = some b := by
  cases given with
  | none => unfold Ready fill?; cases f.required <;> simp
  | some v => simp [Ready, fill?, Option.isSome_iff_exists]

theorem fill?_none_eq_some_iff : f.fill? none a = some b ↔ f.required = false ∧ a = b := by
  unfold fill?
  cases f.required <;> simp

theorem fills_of_fill? (settles : f.Settles) (filled : f.fill? given a = some b) :
    f.Fills blank given (f.write a) (f.write b) := by
  cases given with
  | none =>
    obtain ⟨spare, rfl⟩ := fill?_none_eq_some_iff.1 filled
    exact ⟨spare, rfl⟩
  | some v =>
    obtain ⟨change, read, rfl⟩ := Option.map_eq_some_iff.1 filled
    rw [Fills, told?, read, Option.map_some]
    exact congrArg some (settles v change read blank a)

theorem write_of_fill? (spares : f.Spares g) (filled : f.fill? given a = some b) :
    g.write b = g.write a := by
  cases given with
  | none =>
    obtain ⟨-, rfl⟩ := fill?_none_eq_some_iff.1 filled
    rfl
  | some v =>
    obtain ⟨change, read, rfl⟩ := Option.map_eq_some_iff.1 filled
    exact spares v change read a

end Field

def fill? : List (Field α × Option Raw) → α → Option α
  | [], a => some a
  | e :: more, a => (e.1.fill? e.2 a).bind (fill? more)

/-- Fields with the items of a list, in order. -/
def inOrder : List (Field α) → List Raw → List (Field α × Option Raw)
  | [], _ => []
  | f :: fields, items => (f, items.head?) :: inOrder fields items.tail

variable {fields : List (Field α)} {given : List (Field α × Option Raw)} {f g : Field α}
  {v : Option Raw} {a b blank : α}

theorem fillByName_eq_fill? (root : Raw) (fields : List (Field α)) (a : α) :
    fillByName root fields a = fill? (fields.map fun f ↦ (f, root.get? f.name)) a := by
  induction fields generalizing a with
  | nil => rfl
  | cons f more ih =>
    rw [fillByName, List.map_cons, fill?]
    cases root.get? f.name with
    | none =>
      rw [Field.fill?]
      cases f.required with
      | true => rfl
      | false => exact ih a
    | some v =>
      rw [Field.fill?, Option.bind_map, Option.bind_eq_bind]
      exact congrArg (Option.bind (f.read v)) (funext fun change ↦ ih _)

theorem fillInOrder_eq_fill? (items : List Raw) (fields : List (Field α)) (a : α) :
    fillInOrder fields items a = fill? (inOrder fields items) a := by
  induction fields generalizing items a with
  | nil => rfl
  | cons f more ih =>
    cases items with
    | nil =>
      rw [fillInOrder, inOrder, fill?, List.head?_nil, Field.fill?]
      cases f.required with
      | true => rfl
      | false => exact ih [] a
    | cons v items =>
      rw [fillInOrder, inOrder, fill?, List.head?_cons, Field.fill?, Option.bind_map,
        Option.bind_eq_bind]
      exact congrArg _ (funext fun change ↦ ih items _)

theorem map_fst_inOrder (fields : List (Field α)) (items : List Raw) :
    (inOrder fields items).map (·.1) = fields := by
  induction fields generalizing items with
  | nil => rfl
  | cons f more ih => rw [inOrder, List.map_cons, ih]

theorem mem_inOrder {i : Nat} (listed : fields[i]? = some f) (items : List Raw) :
    (f, items[i]?) ∈ inOrder fields items := by
  induction fields generalizing items i with
  | nil => cases listed
  | cons g more ih =>
    rw [inOrder, List.mem_cons]
    cases i with
    | zero =>
      cases listed
      exact .inl (by rw [List.head?_eq_getElem?])
    | succ i =>
      have later := ih (i := i) listed items.tail
      rw [List.getElem?_tail] at later
      exact .inr later

/-- Fields with names and values of their own. -/
structure Separate (fields : List (Field α)) : Prop where
  names : (fields.map (·.name)).Nodup
  settles : ∀ f ∈ fields, f.Settles
  apart : fields.Pairwise fun f g ↦ f.Spares g ∧ g.Spares f

theorem Separate.tail (separate : Separate (f :: fields)) : Separate fields :=
  ⟨(List.nodup_cons.1 separate.names).2, (List.forall_mem_cons.1 separate.settles).2,
    (List.pairwise_cons.1 separate.apart).2⟩

theorem write_of_fill? (spares : ∀ e ∈ given, e.1.Spares g) (filled : fill? given a = some b) :
    g.write b = g.write a := by
  induction given generalizing a with
  | nil =>
    cases filled
    rfl
  | cons e more ih =>
    obtain ⟨here, others⟩ := List.forall_mem_cons.1 spares
    obtain ⟨c, first, rest⟩ := Option.bind_eq_some_iff.1 filled
    rw [ih others rest, Field.write_of_fill? here first]

/-- Whether fields can be filled does not depend on what they hold. -/
theorem ready_iff (a : α) : (∀ e ∈ given, e.1.Ready e.2) ↔ ∃ b, fill? given a = some b := by
  induction given generalizing a with
  | nil => simp [fill?]
  | cons e more ih =>
    rw [List.forall_mem_cons, fill?, Field.ready_iff a]
    constructor
    · rintro ⟨⟨c, first⟩, others⟩
      rw [first]
      exact (ih c).1 others
    · rintro ⟨b, filled⟩
      obtain ⟨c, first, rest⟩ := Option.bind_eq_some_iff.1 filled
      exact ⟨⟨c, first⟩, (ih c).2 ⟨b, rest⟩⟩

theorem ready_iff_fillByName {root : Raw} (a : α) :
    (∀ f ∈ fields, f.Ready (root.get? f.name)) ↔ ∃ b, fillByName root fields a = some b := by
  rw [fillByName_eq_fill?, ← ready_iff, List.forall_mem_map]

/-- Each field is read from the value that is given for it. -/
theorem fills_of_fill? (separate : Separate (given.map (·.1))) (filled : fill? given a = some b)
    (mem : (f, v) ∈ given) : f.Fills blank v (f.write a) (f.write b) := by
  induction given generalizing a with
  | nil => cases mem
  | cons e more ih =>
    obtain ⟨settles, -⟩ := List.forall_mem_cons.1 separate.settles
    obtain ⟨apart, -⟩ := List.pairwise_cons.1 separate.apart
    obtain ⟨c, first, rest⟩ := Option.bind_eq_some_iff.1 filled
    rcases List.mem_cons.1 mem with rfl | later
    · have spared : ∀ e ∈ more, e.1.Spares f := fun e mem ↦
        (apart e.1 (List.mem_map_of_mem mem)).2
      rw [write_of_fill? spared rest]
      exact Field.fills_of_fill? settles first
    · have spares : e.1.Spares f := (apart f (List.mem_map_of_mem later)).1
      rw [← Field.write_of_fill? spares first]
      exact ih separate.tail rest later

/-- A record that is filled by name has each field from what stands under its name. -/
theorem fills_of_fillByName {root : Raw} (separate : Separate fields)
    (filled : fillByName root fields a = some b) (mem : f ∈ fields) :
    f.Fills blank (root.get? f.name) (f.write a) (f.write b) := by
  rw [fillByName_eq_fill?] at filled
  refine fills_of_fill? ?_ filled (List.mem_map_of_mem mem)
  rw [List.map_map]
  exact (List.map_id fields).symm ▸ separate

/-- A record that is filled in order has each field from the item at its place. -/
theorem fills_of_fillInOrder {items : List Raw} {i : Nat} (separate : Separate fields)
    (filled : fillInOrder fields items a = some b) (listed : fields[i]? = some f) :
    f.Fills blank items[i]? (f.write a) (f.write b) := by
  rw [fillInOrder_eq_fill?] at filled
  refine fills_of_fill? ?_ filled (mem_inOrder listed items)
  rwa [map_fst_inOrder]

end Form

/-! ### Sections -/

/-- The sections of the settings. -/
inductive Section where
  | server
  | workflow
  | observability
  | steps
  deriving DecidableEq

namespace Section

/-- The records of a section. -/
abbrev Values : Section → Type
  | server => Settings.Server
  | workflow => Settings.Workflow
  | observability => Settings.Observability
  | steps => StepsConfig

def name : Section → String
  | server => "server"
  | workflow => "workflow"
  | observability => "observability"
  | steps => "steps"

def fields : (sec : Section) → List (Form.Field sec.Values)
  | server => Settings.Server.fields
  | workflow => Settings.Workflow.fields
  | observability => Settings.Observability.fields
  | steps => StepsConfig.fields

def of (s : Settings) : (sec : Section) → sec.Values
  | server => s.server
  | workflow => s.workflow
  | observability => s.observability
  | steps => s.steps

/-- The defaults of a section. -/
def blank (sec : Section) : sec.Values := sec.of {}

/-- No two sections have one name. -/
theorem name_inj {a b : Section} (same : a.name = b.name) : a = b := by
  cases a <;> cases b <;> simp_all [name]

/-- The fields of a section do not touch each other. -/
theorem separate (sec : Section) : Form.Separate sec.fields := by
  refine ⟨?names, ?settles, ?apart⟩
  case names => cases sec <;> decide
  case settles =>
    cases sec
    all_goals
      simp only [fields, Settings.Server.fields, Settings.Workflow.fields,
        Settings.Observability.fields, StepsConfig.fields, List.forall_mem_cons, List.not_mem_nil,
        false_imp_iff, implies_true, and_true]
      and_intros
      all_goals
        intro v change read a b
        obtain ⟨x, -, rfl⟩ := Option.map_eq_some_iff.1 read
        rfl
  case apart =>
    cases sec
    all_goals
      simp only [fields, Settings.Server.fields, Settings.Workflow.fields,
        Settings.Observability.fields, StepsConfig.fields, List.pairwise_cons, List.forall_mem_cons,
        List.not_mem_nil, false_imp_iff, implies_true, List.Pairwise.nil, and_true]
    all_goals
      and_intros
      all_goals
        intro v change read a
        obtain ⟨x, -, rfl⟩ := Option.map_eq_some_iff.1 read
        rfl

/-- What the settings have in common. -/
structure Regular (sec : Section) (f : Form.Field sec.Values) : Prop where
  /-- The path of a setting leads through its section to its name. -/
  place : (SettingPath.of (sec.name ++ "." ++ f.name)).place = [.key sec.name, .key f.name]
  /-- Its default is among the raw defaults. -/
  default : Raw.under sec.name f.name Settings.defaults = some (.ofJson (f.write sec.blank))
  /-- The default is read as it is written. -/
  told : f.told? sec.blank (.ofJson (f.write sec.blank)) = some (f.write sec.blank)
  /-- An empty table is no value of it. -/
  empty : f.told? sec.blank (.table []) = none
  plain : (∀ items, f.write sec.blank ≠ .array items) → (Raw.ofJson (f.write sec.blank)).Plain

set_option maxRecDepth 4000 in
theorem regular (sec : Section) : ∀ f ∈ sec.fields, sec.Regular f := by
  cases sec
  all_goals
    simp only [fields, Settings.Server.fields, Settings.Workflow.fields,
      Settings.Observability.fields, StepsConfig.fields, List.forall_mem_cons, List.not_mem_nil,
      false_imp_iff, implies_true, and_true]
    and_intros
  all_goals
    refine ⟨by cbv, rfl, by cbv, rfl, ?_⟩
    first
      | exact fun _ ↦ ⟨rfl, rfl⟩
      | exact fun scalar ↦ absurd rfl (scalar _)

/-- A section of several settings needs two of them. -/
theorem single_or_needs_two (sec : Section) : sec.fields.length = 1 ∨
    ∃ f ∈ sec.fields, ∃ g ∈ sec.fields,
      f.name ≠ g.name ∧ f.required = true ∧ g.required = true := by
  cases sec with
  | server => exact .inl rfl
  | workflow | observability | steps =>
    refine .inr ⟨_, List.mem_of_getElem? (i := 0) rfl, _, List.mem_of_getLast? rfl, ?_, rfl, rfl⟩
    decide

end Section

/-! ### Settings -/

/-- A setting: a field of a section. -/
structure Setting where
  sec : Section
  index : Nat
  field : Form.Field sec.Values
  listed : sec.fields[index]? = some field

namespace Setting

def name (k : Setting) : String := k.field.name

def path (k : Setting) : String := k.sec.name ++ "." ++ k.name

/-- The value of a setting, as it is written. -/
def value (k : Setting) (s : Settings) : Json := k.field.write (k.sec.of s)

/-- The default of a setting, as it is written. -/
def default (k : Setting) : Json := k.field.write k.sec.blank

/-- The value that a raw value stands for. -/
def told? (k : Setting) (v : Raw) : Option Json := k.field.told? k.sec.blank v

/-- The value of a setting comes from the raw value that is given for it. -/
def Fills (k : Setting) (given : Option Raw) (s : Settings) : Prop :=
  k.field.Fills k.sec.blank given k.default (k.value s)

/-- A setting of one value, not of a list of values. -/
def Scalar (k : Setting) : Prop := ∀ items, k.default ≠ .array items

variable {k k' : Setting} {s s' : Settings} {given : Option Raw}

theorem regular (k : Setting) : k.sec.Regular k.field :=
  k.sec.regular k.field (List.mem_of_getElem? k.listed)

/-- A setting is known by its section and its name. -/
theorem eq_of_names (sections : k.sec = k'.sec) (names : k.name = k'.name) : k = k' := by
  obtain ⟨sec, i, f, at_i⟩ := k
  obtain ⟨sec', j, g, at_j⟩ := k'
  cases sections
  have name_i : (sec.fields.map (·.name))[i]? = some f.name := by rw [List.getElem?_map, at_i]; rfl
  have name_j : (sec.fields.map (·.name))[j]? = some g.name := by rw [List.getElem?_map, at_j]; rfl
  obtain ⟨inside, -⟩ := List.getElem?_eq_some_iff.1 name_i
  obtain rfl : i = j := (List.getElem?_inj inside sec.separate.names).1
    ((name_i.trans (congrArg some names)).trans name_j.symm)
  cases at_i.symm.trans at_j
  rfl

theorem field_eq_of_name {f : Form.Field k.sec.Values} (mem : f ∈ k.sec.fields)
    (named : f.name = k.name) : f = k.field := by
  obtain ⟨sec, i, g, at_i⟩ := k
  obtain ⟨j, at_j⟩ := List.getElem?_of_mem mem
  have same : (⟨sec, j, f, at_j⟩ : Setting) = ⟨sec, i, g, at_i⟩ := eq_of_names rfl named
  cases same
  rfl

/-- A section with other settings needs one of them. -/
theorem exists_required (same : k'.sec = k.sec) (other : k' ≠ k) :
    ∃ f ∈ k.sec.fields, f.name ≠ k.name ∧ f.required = true := by
  obtain single | ⟨f, mem_f, g, mem_g, differ, required_f, required_g⟩ := k.sec.single_or_needs_two
  · have first (k : Setting) (single : k.sec.fields.length = 1) : k.index = 0 := by
      obtain ⟨inside, -⟩ := List.getElem?_eq_some_iff.1 k.listed
      omega
    obtain ⟨sec, i, f, at_i⟩ := k
    obtain ⟨sec', j, g, at_j⟩ := k'
    cases same
    obtain rfl : i = 0 := first ⟨_, i, f, at_i⟩ single
    obtain rfl : j = 0 := first ⟨_, j, g, at_j⟩ single
    cases at_i.symm.trans at_j
    exact absurd rfl other
  · by_cases named : f.name = k.name
    · exact ⟨g, mem_g, fun same ↦ differ (named.trans same.symm), required_g⟩
    · exact ⟨f, mem_f, named, required_f⟩

/-- What is given for a setting determines its value. -/
theorem Fills.unique (first : k.Fills given s) (second : k.Fills given s') :
    k.value s = k.value s' := by
  cases given with
  | none => exact first.2.trans second.2.symm
  | some v => exact Option.some.inj (first.symm.trans second)

end Setting

/-! ### What is read -/

namespace Settings

variable {k k' : Setting} {s s' : Settings} {root x y : Raw} {ms : List (String × Raw)}
  {items : List Raw}

/-- The settings are read from a raw value. -/
structure ReadFrom (root : Raw) (s : Settings) : Prop where
  sections : ∀ sec : Section, ∃ v, root.get? sec.name = some v ∧
    (Form.record sec.blank sec.fields).ofRaw? v = some (sec.of s)
  app_config : s.appConfig = ((root.get? "app_config").bind AppConfigSchema.form.ofRaw?).getD {}

section Fields

variable {α β : Type} {name : String} {form : Form β} {get : α → β} {set : β → α → α}
  {fields : List (Form.Field α)} {a b : α}

theorem fillByName_needed : Form.fillByName root (.needed name form get set :: fields) a = some b ↔
    ∃ v x, root.get? name = some v ∧ form.ofRaw? v = some x ∧
      Form.fillByName root fields (set x a) = some b := by
  show (match root.get? name with
    | some v => ((form.ofRaw? v).map set).bind fun change ↦ Form.fillByName root fields (change a)
    | none => none) = some b ↔ _
  cases root.get? name with
  | none => simp
  | some v => simp [Option.bind_eq_some_iff]

theorem fillByName_defaulted :
    Form.fillByName root (.defaulted name form get set :: fields) a = some b ↔
      root.get? name = none ∧ Form.fillByName root fields a = some b ∨
        ∃ v x, root.get? name = some v ∧ form.ofRaw? v = some x ∧
          Form.fillByName root fields (set x a) = some b := by
  show (match root.get? name with
    | some v => ((form.ofRaw? v).map set).bind fun change ↦ Form.fillByName root fields (change a)
    | none => Form.fillByName root fields a) = some b ↔ _
  cases root.get? name with
  | none => simp
  | some v => simp [Option.bind_eq_some_iff]

end Fields

/-- Settings that have been read from a table are read from it section by section. -/
theorem readFrom_of_ofRaw? (read : form.ofRaw? (.table ms) = some s) :
    ReadFrom (.table ms) s := by
  obtain ⟨v₁, server, given₁, read₁, read⟩ := fillByName_needed.1 read
  obtain ⟨v₂, workflow, given₂, read₂, read⟩ := fillByName_needed.1 read
  obtain ⟨v₃, observability, given₃, read₃, read⟩ := fillByName_needed.1 read
  obtain ⟨v₄, steps, given₄, read₄, read⟩ := fillByName_needed.1 read
  have items : s = ⟨server, workflow, observability, steps,
      (((Raw.table ms).get? "app_config").bind AppConfigSchema.form.ofRaw?).getD {}⟩ := by
    obtain ⟨absent, made⟩ | ⟨v, items, given, read_items, made⟩ := fillByName_defaulted.1 read
    · rw [absent]
      exact (Option.some.inj made).symm
    · rw [given, Option.bind_some, read_items]
      exact (Option.some.inj made).symm
  subst items
  refine ⟨fun sec ↦ ?_, rfl⟩
  cases sec with
  | server => exact ⟨v₁, given₁, read₁⟩
  | workflow => exact ⟨v₂, given₂, read₂⟩
  | observability => exact ⟨v₃, given₃, read₃⟩
  | steps => exact ⟨v₄, given₄, read₄⟩

/-- Without items of the application, sections that can be read are enough. -/
theorem exists_ofRaw? (no_items : (Raw.table ms).get? "app_config" = none)
    (sections : ∀ sec : Section, ∃ v x, (Raw.table ms).get? sec.name = some v ∧
      (Form.record sec.blank sec.fields).ofRaw? v = some x) :
    ∃ s, form.ofRaw? (.table ms) = some s := by
  obtain ⟨v₁, server, given₁, read₁⟩ := sections .server
  obtain ⟨v₂, workflow, given₂, read₂⟩ := sections .workflow
  obtain ⟨v₃, observability, given₃, read₃⟩ := sections .observability
  obtain ⟨v₄, steps, given₄, read₄⟩ := sections .steps
  refine ⟨⟨server, workflow, observability, steps, {}⟩, ?_⟩
  refine fillByName_needed.2 ⟨v₁, server, given₁, read₁, ?_⟩
  refine fillByName_needed.2 ⟨v₂, workflow, given₂, read₂, ?_⟩
  refine fillByName_needed.2 ⟨v₃, observability, given₃, read₃, ?_⟩
  refine fillByName_needed.2 ⟨v₄, steps, given₄, read₄, ?_⟩
  exact fillByName_defaulted.2 (.inl ⟨no_items, rfl⟩)

namespace ReadFrom

variable (read : ReadFrom root s)

include read

/-- A section is given as a table or as a list. -/
theorem section_cases (sec : Section) : (∃ ms, root.get? sec.name = some (.table ms)) ∨
    ∃ items, root.get? sec.name = some (.list items) := by
  obtain ⟨v, given, filled⟩ := read.sections sec
  cases v with
  | table ms => exact .inl ⟨ms, given⟩
  | list items => exact .inr ⟨items, given⟩
  | nothing | bool | int | double | text => cases filled

/-- In a section that is a table a setting is filled by its name. -/
theorem fills_by_name (is_table : root.get? k.sec.name = some (.table ms)) :
    k.Fills (Raw.under k.sec.name k.name root) s := by
  obtain ⟨v, given, filled⟩ := read.sections k.sec
  cases is_table.symm.trans given
  unfold Raw.under
  rw [is_table, Option.bind_some]
  exact Form.fills_of_fillByName k.sec.separate filled (List.mem_of_getElem? k.listed)

/-- In a section that is a list a setting is filled by its place. -/
theorem fills_in_place (is_list : root.get? k.sec.name = some (.list items)) :
    k.Fills items[k.index]? s := by
  obtain ⟨v, given, filled⟩ := read.sections k.sec
  cases is_list.symm.trans given
  exact Form.fills_of_fillInOrder k.sec.separate filled k.listed

end ReadFrom

end Settings
end Rollout
