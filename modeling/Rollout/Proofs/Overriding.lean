import Rollout.Proofs.ValueChecks

/-!
# Patches one after the other

A patch says something about its own keys and nothing about the others.  Two patches can be put into
one, in which the later one has its way under each key (`AppConfigSchema.overridden`); a null stays
in it, since it still has a value to take away.  Patching with this one is patching with both, one
after the other, so patches are a monoid that acts on values (`patches_act`).

All laws here are equations between look-ups, since dictionaries that answer every look-up alike are
equal.
-/

namespace Rollout

/-! ### Dictionaries -/

namespace Dict

variable {α : Type}

/-- A look-up after entries have been put in, none of them under the key of another. -/
theorem get?_insertMany (d : Dict α) {entries : List (String × α)}
    (distinct : (entries.map (·.1)).Nodup) (k : String) :
    (d.insertMany entries).get? k = (lookUp? k entries).or (d.get? k) := by
  induction entries generalizing d with
  | nil => rfl
  | cons e more ih =>
    obtain ⟨first, rest⟩ := List.nodup_cons.1 (List.map_cons .. ▸ distinct)
    show ((d.insert e.1 e.2).insertMany more).get? k = _
    rw [ih _ rest, get?_insert, lookUp?]
    by_cases here : e.1 = k
    · rw [if_pos here, if_pos here, lookUp?_eq_none_iff.2 (here ▸ first)]
      rfl
    · rw [if_neg here, if_neg here]

/-- A look-up after all entries of another dictionary have been put in. -/
theorem get?_insertMany_entries (d e : Dict α) (k : String) :
    (d.insertMany e.entries).get? k = (e.get? k).or (d.get? k) :=
  d.get?_insertMany e.keys_nodup k

theorem get?_ofList_eq_some_iff {entries : List (String × α)}
    (distinct : (entries.map (·.1)).Nodup) {k : String} {v : α} :
    (ofList entries).get? k = some v ↔ (k, v) ∈ entries := by
  unfold ofList
  rw [get?_insertMany _ distinct, get?_empty, Option.or_none, lookUp?_eq_some_iff distinct]

end Dict

namespace AppConfigSchema

/-! ### Defaults -/

section Defaults

variable (s : AppConfigSchema)

/-- A look-up after the defaults have been filled in. -/
theorem get?_resolve (values : ConfigValues) (k : String) :
    (s.resolve values).get? k = (values.get? k).or (s.defaults.get? k) :=
  s.defaults.get?_insertMany_entries values k

variable {s}

/-- The default of a key is that of the item with this name. -/
theorem get?_defaults_eq_some_iff (distinct : (s.items.map (·.name)).Nodup) {k : String}
    {v : Json} : s.defaults.get? k = some v ↔ ∃ i ∈ s.items, i.name = k ∧ i.default = some v := by
  have named : ∀ (i : AppConfigItem) e, (i.default.map fun v ↦ (i.name, v)) = some e →
      e.1 = i.name := by
    intro i e default
    obtain ⟨v, -, rfl⟩ := Option.map_eq_some_iff.1 default
    rfl
  unfold defaults
  rw [Dict.get?_ofList_eq_some_iff (distinct.sublist (filterMap_sublist named s.items))]
  simp [List.mem_filterMap, Option.map_eq_some_iff, and_comm]

/-- With distinct names, the default under a key is that of the item. -/
theorem get?_defaults (distinct : (s.items.map (·.name)).Nodup) (k : String) :
    s.defaults.get? k = (s.item? k).bind (·.default) := by
  refine Option.ext fun v ↦ ?_
  rw [get?_defaults_eq_some_iff distinct, Option.bind_eq_some_iff]
  simp only [item?_eq_some_iff distinct, and_assoc]

end Defaults

/-! ### Composition -/

/-- The patch that does what the first and then the second one do. -/
def overridden (p q : ConfigValues) : ConfigValues := p.insertMany q.entries

/-- In a patch for two, the second one decides where it has a key. -/
theorem get?_overridden (p q : ConfigValues) (k : String) :
    (overridden p q).get? k = (q.get? k).or (p.get? k) :=
  p.get?_insertMany_entries q k

/-- Three patches make one, whichever two are taken together first. -/
theorem overridden_assoc (p q r : ConfigValues) :
    overridden (overridden p q) r = overridden p (overridden q r) := by
  ext k : 1
  simp only [get?_overridden, Option.or_assoc]

theorem stored?_eq_some_iff {v w : Json} : stored? v = some w ↔ v = w ∧ v ≠ .null := by
  unfold stored?
  split
  · exact ⟨nofun, fun ⟨_, other⟩ ↦ absurd rfl other⟩
  · rename_i other
    exact ⟨fun same ↦ ⟨Option.some.inj same, other⟩, fun ⟨same, _⟩ ↦ congrArg some same⟩

section Merge

variable (c p q : ConfigValues)

/-- Two patches come to the one that they are put into. -/
theorem merge_merge : merge (merge c p) q = merge c (overridden p q) := by
  ext k : 1
  rw [get?_merge, get?_merge, get?_merge, get?_overridden]
  cases q.get? k with
  | none => rfl
  | some v => rfl

theorem merge_empty : merge c .empty = c := rfl

variable {c p} {k : String} {v : Json}

theorem get?_merge_of_none (absent : p.get? k = none) : (merge c p).get? k = c.get? k := by
  rw [get?_merge, absent, Option.elim_none]

/-- Where a patch has a key, it decides, with a null taking the value away. -/
theorem get?_merge_of_some (given : p.get? k = some v) : (merge c p).get? k = stored? v := by
  rw [get?_merge, given, Option.elim_some]

/-- A null that is there after a patch was there before, and the patch says nothing about it. -/
theorem null_of_merge (null : (merge c p).get? k = some .null) :
    p.get? k = none ∧ c.get? k = some .null := by
  cases given : p.get? k with
  | none => exact ⟨rfl, (get?_merge_of_none given).symm.trans null⟩
  | some v =>
    obtain ⟨rfl, other⟩ := stored?_eq_some_iff.1 ((get?_merge_of_some given).symm.trans null)
    exact absurd rfl other

variable (c p)

/-- The same patch once more changes nothing. -/
theorem merge_again : merge (merge c p) p = merge c p := by
  have absorbed : overridden p p = p := by
    ext k : 1
    rw [get?_overridden, Option.or_self]
  rw [merge_merge, absorbed]

end Merge

/-- How patches compose and act on values, and how the defaults are filled in afterwards. -/
structure PatchLaws (s : AppConfigSchema) : Prop where
  /-- The later patch has its way under each key, nulls included. -/
  overrides : ∀ p q k, (overridden p q).get? k = (q.get? k).or (p.get? k)
  assoc : ∀ p q r, overridden (overridden p q) r = overridden p (overridden q r)
  empty_overridden : ∀ p, overridden .empty p = p
  overridden_empty : ∀ p, overridden p .empty = p
  merges : ∀ c p q, merge (merge c p) q = merge c (overridden p q)
  merges_empty : ∀ c, merge c .empty = c
  merges_again : ∀ c p, merge (merge c p) p = merge c p
  untouched : ∀ c p k, p.get? k = none → (merge c p).get? k = c.get? k
  removed : ∀ c p k, p.get? k = some .null → (merge c p).get? k = none
  stored : ∀ c p k v, p.get? k = some v → v ≠ .null → (merge c p).get? k = some v
  no_null_inserted : ∀ c p k, (merge c p).get? k = some .null →
    p.get? k = none ∧ c.get? k = some .null
  null_free : ∀ c p, (∀ k, c.get? k ≠ some .null) → ∀ k, (merge c p).get? k ≠ some .null
  resolves_again : ∀ v, s.resolve (s.resolve v) = s.resolve v
  kept : ∀ v k a, v.get? k = some a → (s.resolve v).get? k = some a

/-- Taking one value away brings the default back. -/
structure ResetLaws (s : AppConfigSchema) : Prop where
  default : ∀ c, ∀ i ∈ s.items,
    (s.resolve (merge c (.ofList [(i.name, .null)]))).get? i.name = i.default
  unknown : ∀ c k, (∀ i ∈ s.items, i.name ≠ k) →
    (s.resolve (merge c (.ofList [(k, .null)]))).get? k = none
  others : ∀ c k k', k' ≠ k →
    (s.resolve (merge c (.ofList [(k, .null)]))).get? k' = (s.resolve c).get? k'

variable (s : AppConfigSchema)

/-- Defaults are filled in once. -/
theorem resolve_resolve (v : ConfigValues) : s.resolve (s.resolve v) = s.resolve v := by
  ext k : 1
  rw [get?_resolve, get?_resolve, Option.or_assoc, Option.or_self]

theorem patchLaws : s.PatchLaws where
  overrides := get?_overridden
  assoc := overridden_assoc
  empty_overridden p := by
    ext k : 1
    rw [get?_overridden, Dict.get?_empty, Option.or_none]
  overridden_empty _ := rfl
  merges := merge_merge
  merges_empty := merge_empty
  merges_again := merge_again
  untouched _ _ _ := get?_merge_of_none
  removed _ _ _ := get?_merge_of_some
  stored _ _ _ v given other :=
    (get?_merge_of_some given).trans (stored?_eq_some_iff.2 ⟨rfl, other⟩)
  no_null_inserted _ _ _ := null_of_merge
  null_free _ _ free k null := free k (null_of_merge null).2
  resolves_again := s.resolve_resolve
  kept v k a given := by rw [get?_resolve, given, Option.some_or]

variable {s}

theorem get?_removal (k k' : String) :
    (Dict.ofList [(k, Json.null)]).get? k' = if k = k' then some .null else none := by
  show (Dict.empty.insert k Json.null).get? k' = _
  rw [Dict.get?_insert, Dict.get?_empty]

/-- Under the key itself, only the default is left. -/
theorem get?_resolve_removed (distinct : (s.items.map (·.name)).Nodup) (c : ConfigValues)
    (k : String) :
    (s.resolve (merge c (.ofList [(k, .null)]))).get? k = (s.item? k).bind (·.default) := by
  have removed : (merge c (.ofList [(k, .null)])).get? k = none :=
    get?_merge_of_some ((get?_removal k k).trans (if_pos rfl))
  rw [get?_resolve, removed, Option.none_or, get?_defaults distinct]

/-- With distinct names the laws of a reset hold of every schema. -/
theorem resetLaws (distinct : (s.items.map (·.name)).Nodup) : s.ResetLaws where
  default c i item := by
    rw [get?_resolve_removed distinct, (item?_eq_some_iff distinct).2 ⟨item, rfl⟩, Option.bind_some]
  unknown c k no_item := by
    rw [get?_resolve_removed distinct, item?_eq_none_iff.2 no_item, Option.bind_none]
  others c k k' other := by
    have untouched : (Dict.ofList [(k, Json.null)]).get? k' = none :=
      (get?_removal k k').trans (if_neg (Ne.symm other))
    rw [get?_resolve, get?_resolve, get?_merge_of_none untouched]

end AppConfigSchema

/-- Patches are a monoid that acts on values, filling in the defaults is idempotent and keeps what
is there, and with distinct names taking a value away brings its default back. -/
theorem patches_act (s : AppConfigSchema) :
    s.PatchLaws ∧ ((s.items.map (·.name)).Nodup → s.ResetLaws) :=
  ⟨s.patchLaws, AppConfigSchema.resetLaws⟩

/-- The replicas of a shop are set, and then taken away again. -/
theorem shop_replicas_reset : (shopItems.items.map (·.name)).Nodup ∧ shopItems.ResetLaws ∧
    (shopItems.resolve (AppConfigSchema.merge
        (.ofList [("hostname", .string "a"), ("replicas", .int 3)])
        (.ofList [("replicas", .null)]))).get? "replicas" = some (.int 1) := by
  have distinct : (shopItems.items.map (·.name)).Nodup := by decide
  have laws := (patches_act shopItems).2 distinct
  have replicas : (⟨"replicas", .number, true, some (.int 1)⟩ : AppConfigItem) ∈ shopItems.items :=
    .tail _ (.head _)
  exact ⟨distinct, laws, laws.default _ _ replicas⟩

end Rollout
