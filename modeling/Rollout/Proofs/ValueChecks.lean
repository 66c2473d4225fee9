import Mathlib.Data.List.Nodup
import Rollout.Proofs.Fitting

/-!
# Checked values

Values are checked in two passes: each of them against the item that it is for, and then each
required item against the value that it would have.  With distinct names both passes say exactly
what is wrong (`values_checked`).  A blank text may fail in both; any other value that its item does
not take is reported once.
-/

namespace Rollout

/-- The value is of the kind. -/
inductive ItemKind.Takes : ItemKind → Json → Prop where
  | text (s : String) : Takes .text (.string s)
  | bool (b : Bool) : Takes .bool (.bool b)
  | number (n : Json.Number) : Takes .number (.number n)

theorem ItemKind.accepts_iff {k : ItemKind} {v : Json} : k.accepts v = true ↔ k.Takes v := by
  constructor
  · intro accepted
    unfold accepts at accepted
    split at accepted
    · exact .text _
    · exact .bool _
    · exact .number _
    · cases accepted
  · rintro ⟨⟩ <;> rfl

theorem Dict.mem_entries_iff {α : Type} {d : Dict α} {key : String} {v : α} :
    (key, v) ∈ d.entries ↔ d.get? key = some v :=
  ⟨fun mem ↦ get?_of_mem mem, mem_of_lookUp?⟩

/-- If each result stands under the name of what it comes from, the names keep their order. -/
theorem filterMap_sublist {α β γ : Type} {f : α → Option β} {source : α → γ} {name : β → γ}
    (same : ∀ a b, f a = some b → name b = source a) (l : List α) :
    ((l.filterMap f).map name).Sublist (l.map source) := by
  induction l with
  | nil => exact .slnil
  | cons a l ih =>
    cases result : f a with
    | none =>
      rw [List.filterMap_cons_none result]
      exact ih.cons _
    | some b =>
      rw [List.filterMap_cons_some result, List.map_cons, same a b result]
      exact ih.cons_cons _

namespace AppConfigSchema

/-- The value that an item has: its own, or else its default. -/
inductive Effective (values : ConfigValues) (i : AppConfigItem) : Json → Prop where
  | own {v : Json} (given : values.get? i.name = some v) : Effective values i v
  | default {v : Json} (absent : values.get? i.name = none) (default : i.default = some v) :
      Effective values i v

/-- A text of nothing but blanks. -/
def Blank (v : Json) : Prop := ∃ s : String, v = .string s ∧ ∀ c ∈ s.toList, Text.isBlank c = true

/-- The item has a value that is not blank. -/
def Filled (values : ConfigValues) (i : AppConfigItem) : Prop :=
  ∃ v, Effective values i v ∧ ¬Blank v

/-- The value is of the kind of the item of that name. -/
def Fits (s : AppConfigSchema) (key : String) (v : Json) : Prop :=
  ∃ i ∈ s.items, i.name = key ∧ i.kind.Takes v

/-- What is said about a value that does not fit. -/
inductive Misfits (s : AppConfigSchema) (key : String) (v : Json) : String → Prop where
  | unknown (no_item : ∀ i ∈ s.items, i.name ≠ key) : Misfits s key v "is not a known config item"
  | kind {i : AppConfigItem} (item : i ∈ s.items) (named : i.name = key)
      (other : ¬i.kind.Takes v) : Misfits s key v ("must be " ++ i.kind.noun)

variable {s : AppConfigSchema} {values : ConfigValues} {i : AppConfigItem} {key : String} {v : Json}

/-! ### Required items -/

theorem effective_iff : Effective values i v ↔ (values.get? i.name).or i.default = some v := by
  constructor
  · rintro (given | ⟨absent, default⟩)
    · rw [given, Option.some_or]
    · rw [absent, Option.none_or, default]
  · intro effective
    cases own : values.get? i.name with
    | none =>
      rw [own, Option.none_or] at effective
      exact .default own effective
    | some v' =>
      rw [own, Option.some_or] at effective
      exact .own (own.trans effective)

theorem isMissing_some_iff : isMissing (some v) = true ↔ Blank v := by
  unfold isMissing
  split
  · rename_i none
    cases none
  · rename_i text same
    obtain rfl := Option.some.inj same
    constructor
    · exact fun blank ↦ ⟨text, rfl, List.all_eq_true.1 blank⟩
    · rintro ⟨_, ⟨⟩, blank⟩
      exact List.all_eq_true.2 blank
  · rename_i other same
    obtain rfl := Option.some.inj same
    refine ⟨nofun, ?_⟩
    rintro ⟨text, rfl, -⟩
    exact absurd rfl (other text)

/-- An item is missing a value exactly if it is not filled. -/
theorem isMissing_iff :
    isMissing ((values.get? i.name).or i.default) = true ↔ ¬Filled values i := by
  unfold Filled
  simp only [effective_iff]
  cases (values.get? i.name).or i.default with
  | none => exact ⟨fun _ ↦ nofun, fun _ ↦ rfl⟩
  | some v => simp [isMissing_some_iff]

/-- A required item that is not filled is reported as such. -/
theorem requiredError?_eq_some_iff {e : FieldError} :
    requiredError? values i = some e ↔
      i.required = true ∧ ¬Filled values i ∧ e = ⟨i.name, "is required"⟩ := by
  unfold requiredError?
  split
  · rename_i missing
    rw [Bool.and_eq_true, isMissing_iff] at missing
    rw [and_iff_right missing.1, and_iff_right missing.2, Option.some_inj, eq_comm]
  · rename_i present
    rw [Bool.and_eq_true, isMissing_iff] at present
    exact ⟨nofun, fun ⟨required, empty, _⟩ ↦ absurd ⟨required, empty⟩ present⟩

/-! ### Values -/

theorem item?_eq_none_iff : s.item? key = none ↔ ∀ i ∈ s.items, i.name ≠ key := by
  simp [item?]

section Distinct

variable (distinct : (s.items.map (·.name)).Nodup)

include distinct

theorem item?_eq_some_iff : s.item? key = some i ↔ i ∈ s.items ∧ i.name = key := by
  constructor
  · intro found
    exact ⟨List.mem_of_find?_eq_some found, by simpa using List.find?_some found⟩
  · rintro ⟨item, rfl⟩
    obtain ⟨first, found⟩ : ∃ first, s.item? i.name = some first :=
      Option.isSome_iff_exists.1 (List.find?_isSome.2 ⟨i, item, beq_self_eq_true i.name⟩)
    have named : first.name = i.name := by simpa using List.find?_some found
    have same := List.inj_on_of_nodup_map distinct (List.mem_of_find?_eq_some found) item named
    rw [found, same]

/-- A value that does not fit is reported under its key, with the reason. -/
theorem valueError?_eq_some_iff {e : FieldError} :
    s.valueError? (key, v) = some e ↔ e.field = key ∧ s.Misfits key v e.message := by
  unfold valueError?
  dsimp only
  constructor
  · intro report
    split at report
    · rename_i unknown
      obtain rfl := Option.some.inj report
      exact ⟨rfl, .unknown (item?_eq_none_iff.1 unknown)⟩
    · rename_i i found
      obtain ⟨item, named⟩ := (item?_eq_some_iff distinct).1 found
      split at report
      · cases report
      · rename_i other
        obtain rfl := Option.some.inj report
        exact ⟨rfl, .kind item named fun takes ↦ other (ItemKind.accepts_iff.2 takes)⟩
  · obtain ⟨field, message⟩ := e
    rintro ⟨rfl, no_item | ⟨item, named, other⟩⟩
    · rw [item?_eq_none_iff.2 no_item]
    · rw [(item?_eq_some_iff distinct).2 ⟨item, named⟩]
      exact if_neg fun accepted ↦ other (ItemKind.accepts_iff.1 accepted)

theorem valueError?_eq_none_iff : s.valueError? (key, v) = none ↔ s.Fits key v := by
  unfold valueError? Fits
  dsimp only
  split
  · rename_i unknown
    refine ⟨nofun, fun ⟨i, item, named, _⟩ ↦ ?_⟩
    exact absurd named (item?_eq_none_iff.1 unknown i item)
  · rename_i i found
    obtain ⟨item, named⟩ := (item?_eq_some_iff distinct).1 found
    split
    · rename_i accepted
      exact ⟨fun _ ↦ ⟨i, item, named, ItemKind.accepts_iff.1 accepted⟩, fun _ ↦ rfl⟩
    · rename_i other
      refine ⟨nofun, fun ⟨i', item', named', takes⟩ ↦ ?_⟩
      obtain rfl := List.inj_on_of_nodup_map distinct item item' (named.trans named'.symm)
      exact absurd (ItemKind.accepts_iff.2 takes) other

end Distinct

/-! ### The report -/

/-- How values are checked. -/
structure Checked (s : AppConfigSchema) (values : ConfigValues) : Prop where
  accepted : s.validate values = .ok () ↔
    (∀ key v, values.get? key = some v → s.Fits key v) ∧
      ∀ i ∈ s.items, i.required = true → Filled values i
  /-- Otherwise the report has an entry for each value that does not fit, by key, and then one for
  each required item that has no value, in the order of the items. -/
  rejected : s.validate values ≠ .ok () → ∃ misfits missing : List FieldError,
    s.validate values = .error ⟨misfits ++ missing⟩ ∧
      (misfits.map (·.field)).Pairwise (· < ·) ∧
      (∀ e, e ∈ misfits ↔ ∃ v, values.get? e.field = some v ∧ s.Misfits e.field v e.message) ∧
      (missing.map (·.field)).Sublist (s.items.map (·.name)) ∧
      ∀ e, e ∈ missing ↔
        ∃ i ∈ s.items, i.required = true ∧ ¬Filled values i ∧ e = ⟨i.name, "is required"⟩
  /-- A required item whose value is of the wrong kind, and no text, is reported once. -/
  once : ∀ i ∈ s.items, i.required = true → ∀ v, values.get? i.name = some v → ¬i.kind.Takes v →
    (∀ text, v ≠ .string text) →
      ∃ e, s.validate values = .error e ∧ (e.errors.map (·.field)).count i.name = 1

/-- Values that do not fit are reported by key, each at most once. -/
theorem misfits_ascending (s : AppConfigSchema) (values : ConfigValues) :
    ((values.entries.filterMap s.valueError?).map (·.field)).Pairwise (· < ·) := by
  have named : ∀ a b, s.valueError? a = some b → b.field = a.1 := by
    intro a b report
    unfold valueError? at report
    split at report
    · rw [← Option.some.inj report]
    · split at report
      · cases report
      · rw [← Option.some.inj report]
  exact (List.pairwise_map.2 values.ascending).sublist (filterMap_sublist named values.entries)

/-- Items without a value are reported in the order of the items. -/
theorem missing_sublist (s : AppConfigSchema) (values : ConfigValues) :
    ((s.items.filterMap (requiredError? values)).map (·.field)).Sublist (s.items.map (·.name)) := by
  refine filterMap_sublist (fun i e report ↦ ?_) s.items
  obtain ⟨-, -, rfl⟩ := requiredError?_eq_some_iff.1 report
  rfl

theorem mem_missing_iff {e : FieldError} : e ∈ s.items.filterMap (requiredError? values) ↔
    ∃ i ∈ s.items, i.required = true ∧ ¬Filled values i ∧ e = ⟨i.name, "is required"⟩ := by
  simp only [List.mem_filterMap, requiredError?_eq_some_iff]

/-- The values that are reported are those that do not fit. -/
theorem mem_misfits_iff (distinct : (s.items.map (·.name)).Nodup) {e : FieldError} :
    e ∈ values.entries.filterMap s.valueError? ↔
      ∃ v, values.get? e.field = some v ∧ s.Misfits e.field v e.message := by
  simp only [List.mem_filterMap, Prod.exists, valueError?_eq_some_iff distinct,
    Dict.mem_entries_iff]
  constructor
  · rintro ⟨_, v, given, rfl, misfit⟩
    exact ⟨v, given, misfit⟩
  · rintro ⟨v, given, misfit⟩
    exact ⟨_, v, given, rfl, misfit⟩

/-- Nothing is reported exactly if all values fit and the required items are filled. -/
theorem errors_eq_nil_iff (distinct : (s.items.map (·.name)).Nodup) : s.errors values = [] ↔
    (∀ key v, values.get? key = some v → s.Fits key v) ∧
      ∀ i ∈ s.items, i.required = true → Filled values i := by
  unfold errors
  rw [List.append_eq_nil_iff]
  refine and_congr ?_ ?_
  · simp only [List.filterMap_eq_nil_iff, Prod.forall, valueError?_eq_none_iff distinct,
      Dict.mem_entries_iff]
  · simp only [List.eq_nil_iff_forall_not_mem, mem_missing_iff]
    constructor
    · intro none i item required
      by_contra empty
      exact none _ ⟨i, item, required, empty, rfl⟩
    · rintro filled e ⟨i, item, required, empty, rfl⟩
      exact empty (filled i item required)

/-- A value of another kind is reported once, even if its item is required. -/
theorem count_field (distinct : (s.items.map (·.name)).Nodup) (item : i ∈ s.items)
    (given : values.get? i.name = some v) (other : ¬i.kind.Takes v)
    (no_text : ∀ text, v ≠ .string text) :
    ((s.errors values).map (·.field)).count i.name = 1 := by
  have misfit : ⟨i.name, "must be " ++ i.kind.noun⟩ ∈ values.entries.filterMap s.valueError? :=
    (mem_misfits_iff distinct).2 ⟨v, given, .kind item rfl other⟩
  have present : i.name ∉ (s.items.filterMap (requiredError? values)).map (·.field) := by
    intro mem
    obtain ⟨e, missing, field⟩ := List.mem_map.1 mem
    obtain ⟨i', item', -, empty, rfl⟩ := mem_missing_iff.1 missing
    obtain rfl := List.inj_on_of_nodup_map distinct item' item field
    exact empty ⟨v, .own given, fun ⟨text, same, _⟩ ↦ no_text text same⟩
  have apart : ((values.entries.filterMap s.valueError?).map (·.field)).Nodup :=
    (s.misfits_ascending values).imp String.ne_of_lt
  rw [errors, List.map_append, List.count_append, List.count_eq_zero_of_not_mem present,
    List.count_eq_one_of_mem apart (List.mem_map_of_mem (f := (·.field)) misfit)]

end AppConfigSchema

/-- With distinct names, values are accepted if each is of the kind of its item and each required
item has one, and otherwise everything that is wrong is reported. -/
theorem values_checked (s : AppConfigSchema) (distinct : (s.items.map (·.name)).Nodup)
    (values : ConfigValues) : s.Checked values where
  accepted := ValidationError.check_eq_ok_iff.trans (AppConfigSchema.errors_eq_nil_iff distinct)
  rejected refused := by
    have some_error : s.errors values ≠ [] := fun none ↦
      refused (ValidationError.check_eq_ok_iff.2 none)
    exact ⟨_, _, ValidationError.check_of_ne_nil some_error, s.misfits_ascending values,
      fun _ ↦ AppConfigSchema.mem_misfits_iff distinct, s.missing_sublist values,
      fun _ ↦ AppConfigSchema.mem_missing_iff⟩
  once i item _ v given other no_text := by
    have once := AppConfigSchema.count_field distinct item given other no_text
    have some_error : s.errors values ≠ [] := by
      intro none
      rw [none] at once
      cases once
    exact ⟨_, ValidationError.check_of_ne_nil some_error, once⟩

def shopItems : AppConfigSchema :=
  ⟨[{ name := "hostname", required := true },
    { name := "replicas", kind := .number, required := true, default := some (.int 1) },
    { name := "tls", kind := .bool, required := true }]⟩

/-- A shop with a blank name for its host, a text for a number and an unknown colour. -/
def shopValues : ConfigValues :=
  .ofList [("hostname", .string " \u3000"), ("replicas", .string "three"),
    ("colour", .string "blue"), ("tls", .null)]

/-- What is wrong with these values. -/
theorem shop_values_checked : (shopItems.items.map (·.name)).Nodup ∧ shopItems.Checked shopValues ∧
    shopItems.validate shopValues = .error ⟨[⟨"colour", "is not a known config item"⟩,
      ⟨"replicas", "must be a number"⟩, ⟨"tls", "must be a boolean"⟩,
      ⟨"hostname", "is required"⟩]⟩ := by
  have distinct : (shopItems.items.map (·.name)).Nodup := by decide
  exact ⟨distinct, values_checked shopItems distinct shopValues, rfl⟩

end Rollout
