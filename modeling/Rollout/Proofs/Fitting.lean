import Rollout.AppConfig

/-!
# Values that fit

Whatever is stored, stale or of the wrong kind, some patch leads to values that the schema accepts:
it gives each item a sample of its kind and takes away what is not an item.  A patch is looked up
key by key (`AppConfigSchema.get?_merge`), and so the values that it leads to are known, whatever
they were before (`AppConfigSchema.get?_merge_fitting`).
-/

namespace Rollout

/-! ### Dictionaries -/

section Entries

variable {α : Type} {l : List (String × α)} {key : String} {v : α}

/-- A key without an entry is not among the keys. -/
theorem lookUp?_eq_none_iff : lookUp? key l = none ↔ key ∉ l.map (·.1) := by
  induction l with
  | nil => exact ⟨fun _ ↦ List.not_mem_nil, fun _ ↦ rfl⟩
  | cons e more ih =>
    rw [lookUp?, List.map_cons, List.mem_cons, not_or]
    by_cases here : e.1 = key
    · rw [if_pos here]
      exact ⟨fun found ↦ absurd found (Option.some_ne_none _),
        fun absent ↦ absurd here.symm absent.1⟩
    · rw [if_neg here, ih]
      exact ⟨fun later ↦ ⟨fun same ↦ here same.symm, later⟩, And.right⟩

theorem mem_of_lookUp? (h : lookUp? key l = some v) : (key, v) ∈ l := by
  induction l with
  | nil => nomatch h
  | cons e more ih =>
    unfold lookUp? at h
    split at h
    · rename_i same
      obtain rfl := Option.some.inj h
      exact same ▸ List.mem_cons_self
    · exact List.mem_cons_of_mem _ (ih h)

/-- Where no key stands twice, a look-up finds whatever is listed. -/
theorem lookUp?_eq_some_iff (distinct : (l.map (·.1)).Nodup) :
    lookUp? key l = some v ↔ (key, v) ∈ l := by
  refine ⟨mem_of_lookUp?, fun listed ↦ ?_⟩
  induction l with
  | nil => cases listed
  | cons e more ih =>
    obtain ⟨first, rest⟩ := List.nodup_cons.1 (List.map_cons .. ▸ distinct)
    rw [lookUp?]
    rcases List.mem_cons.1 listed with rfl | later
    · exact if_pos rfl
    · have other : e.1 ≠ key := fun same ↦
        first (same ▸ List.mem_map_of_mem (f := (·.1)) later)
      rw [if_neg other]
      exact ih rest later

end Entries

namespace Dict

variable {α : Type}

theorem get?_of_mem {d : Dict α} {e : String × α} (mem : e ∈ d.entries) :
    d.get? e.1 = some e.2 := (lookUp?_eq_some_iff d.keys_nodup).2 mem

/-- A look-up after the same has been put in for several keys. -/
theorem get?_insertMany_map (d : Dict α) (keys : List String) (f : String → α) (k : String) :
    (d.insertMany (keys.map fun key ↦ (key, f key))).get? k =
      if k ∈ keys then some (f k) else d.get? k := by
  induction keys generalizing d with
  | nil => rfl
  | cons key more ih =>
    show ((d.insert key (f key)).insertMany (more.map fun key ↦ (key, f key))).get? k = _
    rw [ih, get?_insert]
    by_cases later : k ∈ more
    · rw [if_pos later, if_pos (List.mem_cons_of_mem key later)]
    · by_cases same : key = k
      · subst same
        rw [if_neg later, if_pos rfl, if_pos List.mem_cons_self]
      · rw [if_neg later, if_neg same, if_neg]
        intro mem
        exact (List.mem_cons.1 mem).elim (fun eq ↦ same eq.symm) later

end Dict

namespace AppConfigSchema

/-! ### Patches -/

/-- What an entry of a patch leaves under its key. -/
def stored? : Json → Option Json
  | .null => none
  | v => some v

/-- An entry of a patch decides about its own key only. -/
theorem get?_patchEntry (values : ConfigValues) (e : String × Json) (k : String) :
    (patchEntry values e).get? k = if e.1 = k then stored? e.2 else values.get? k := by
  obtain ⟨key, v⟩ := e
  cases v with
  | null => exact Dict.get?_erase values key k
  | bool | number | string | array | object => exact Dict.get?_insert values key k _

/-- A patch decides about the keys that it has, and leaves the others as they are.  Its keys ascend,
so that nothing later has the key of an earlier entry. -/
theorem get?_foldl_patchEntry (values : ConfigValues) {entries : List (String × Json)}
    (ascending : Ascending entries) (k : String) :
    (entries.foldl patchEntry values).get? k =
      (lookUp? k entries).elim (values.get? k) stored? := by
  induction entries generalizing values with
  | nil => rfl
  | cons e more ih =>
    obtain ⟨first, rest⟩ := List.pairwise_cons.1 ascending
    have unfolded : lookUp? k (e :: more) = if e.1 = k then some e.2 else lookUp? k more := rfl
    rw [List.foldl_cons, ih _ rest, get?_patchEntry, unfolded]
    by_cases same : e.1 = k
    · rw [Dict.lookUp?_eq_none_of_lt fun f mem ↦ same ▸ first f mem, if_pos same, if_pos same]
      rfl
    · rw [if_neg same, if_neg same]

/-- A look-up after a patch. -/
theorem get?_merge (current patch : ConfigValues) (k : String) :
    (merge current patch).get? k = (patch.get? k).elim (current.get? k) stored? :=
  get?_foldl_patchEntry current patch.ascending k

end AppConfigSchema

/-! ### A patch that fits -/

def ItemKind.sample : ItemKind → Json
  | text => .string "x"
  | bool => .bool true
  | number => .int 0

theorem ItemKind.accepts_sample (kind : ItemKind) : kind.accepts kind.sample = true := by
  cases kind <;> rfl

namespace AppConfigSchema

theorem stored?_sample (kind : ItemKind) : stored? kind.sample = some kind.sample := by
  cases kind <;> rfl

theorem not_missing_sample (kind : ItemKind) : isMissing (some kind.sample) = false := by
  cases kind <;> decide

variable (s : AppConfigSchema)

/-- A sample for an item, and nothing for what is not an item. -/
def fittingEntry (key : String) : Json := ((s.item? key).map (·.kind.sample)).getD .null

/-- A patch that makes up for whatever is stored. -/
def fitting (current : ConfigValues) : ConfigValues :=
  Dict.ofList ((current.entries.map (·.1) ++ s.items.map (·.name)).map fun key ↦
    (key, s.fittingEntry key))

variable {s}

/-- An entry of the fitting patch leaves a sample for its item, or nothing where there is no item.
-/
theorem stored?_fittingEntry (key : String) :
    stored? (s.fittingEntry key) = (s.item? key).map (·.kind.sample) := by
  unfold fittingEntry
  cases s.item? key with
  | none => rfl
  | some i => exact stored?_sample i.kind

/-- After the patch there is a sample for each item, and nothing else. -/
theorem get?_merge_fitting (current : ConfigValues) (key : String) :
    (merge current (s.fitting current)).get? key = (s.item? key).map (·.kind.sample) := by
  unfold fitting Dict.ofList
  rw [get?_merge, Dict.get?_insertMany_map]
  by_cases known : key ∈ current.entries.map (·.1) ++ s.items.map (·.name)
  · rw [if_pos known]
    exact stored?_fittingEntry key
  · rw [if_neg known]
    have absent : current.get? key = none :=
      lookUp?_eq_none_iff.2 fun stored ↦ known (List.mem_append_left _ stored)
    have unknown : s.item? key = none := by
      refine Option.eq_none_iff_forall_ne_some.2 fun i found ↦ known ?_
      obtain rfl : i.name = key := by simpa using List.find?_some found
      exact List.mem_append_right _ (List.mem_map_of_mem (f := (·.name))
        (List.mem_of_find?_eq_some found))
    rw [unknown]
    exact absent

/-- Values that have a sample for each item and nothing else are accepted.  Of several items with
one name, the first one decides about the sample. -/
theorem validate_of_samples {values : ConfigValues}
    (samples : ∀ key, values.get? key = (s.item? key).map (·.kind.sample)) :
    s.validate values = .ok () := by
  have known : values.entries.filterMap s.valueError? = [] := by
    refine List.filterMap_eq_nil_iff.2 fun e mem ↦ ?_
    have found := (samples e.1).symm.trans (Dict.get?_of_mem mem)
    obtain ⟨i, item, sample⟩ := Option.map_eq_some_iff.1 found
    unfold valueError?
    rw [item, ← sample]
    exact if_pos (ItemKind.accepts_sample i.kind)
  have present : s.items.filterMap (requiredError? values) = [] := by
    refine List.filterMap_eq_nil_iff.2 fun i mem ↦ ?_
    obtain ⟨first, item⟩ : ∃ first, s.item? i.name = some first := by
      refine Option.isSome_iff_exists.1 (List.find?_isSome.2 ⟨i, mem, ?_⟩)
      exact beq_self_eq_true i.name
    unfold requiredError?
    rw [samples, item, Option.map_some, Option.some_or, not_missing_sample, Bool.and_false]
    rfl
  unfold validate errors
  rw [known, present]
  rfl

/-- Whatever is stored, there is a patch that leads to acceptable values. -/
theorem validate_merge_fitting (s : AppConfigSchema) (current : ConfigValues) :
    s.validate (merge current (s.fitting current)) = .ok () :=
  validate_of_samples (get?_merge_fitting current)

end AppConfigSchema
end Rollout
