import Mathlib.Data.List.Induction
import Mathlib.Data.List.Nodup
import Mathlib.Data.Option.Basic
import Mathlib.Tactic.Tauto
import Rollout.Table

/-!
# Tables of entries

A table is made from entries, each a target with some of its predecessors.  What the table is then
asked depends on two things only: which targets there are, and which state is listed as a
predecessor of which target (`Edge`).  A table that answers both as the entries do holds them
(`Holds`), however it arranges its own entries and their predecessors.  `ofList` makes such a table,
and entries that are permuted, or divided among several entries of one target, are held by the same
tables (`Regrouped.holds_iff`).
-/

namespace Rollout
namespace TransitionTable

variable {S : Type}

/-- Some entry of `target` lists `source`. -/
def Edge (entries : List (S × List S)) (source target : S) : Prop :=
  ∃ e ∈ entries, e.1 = target ∧ source ∈ e.2

/-- The table has what the entries say: their targets once each, and for each of them once all the
predecessors that any of its entries lists. -/
structure Holds (t : TransitionTable S) (entries : List (S × List S)) : Prop where
  targets_once : (t.entries.map (·.1)).Nodup
  sources_once : ∀ e ∈ t.entries, e.2.Nodup
  target_iff : ∀ target, target ∈ t.entries.map (·.1) ↔ target ∈ entries.map (·.1)
  edge_iff : ∀ source target, Edge t.entries source target ↔ Edge entries source target

section Edge

variable {entries entries' : List (S × List S)} {source target : S}

@[simp]
theorem edge_nil : ¬Edge [] source target := fun ⟨_, mem, _⟩ ↦ nomatch mem

@[simp]
theorem edge_cons {e : S × List S} :
    Edge (e :: entries) source target ↔
      (e.1 = target ∧ source ∈ e.2) ∨ Edge entries source target := by
  simp [Edge]

@[simp]
theorem edge_append :
    Edge (entries ++ entries') source target ↔
      Edge entries source target ∨ Edge entries' source target := by
  simp only [Edge, List.mem_append, or_and_right, exists_or]

/-- The order of entries does not matter to the edges that they list. -/
theorem edge_perm (same : entries.Perm entries') :
    Edge entries source target ↔ Edge entries' source target := by
  simp only [Edge, same.mem_iff]

/-- Some of the parts lists a state exactly if their concatenation does. -/
theorem edge_parts {a : S} {parts : List (List S)} :
    Edge (parts.map (a, ·)) source target ↔ a = target ∧ source ∈ parts.flatten := by
  simp [Edge, and_assoc, and_left_comm]

end Edge

/-! ### Tables that are made from entries -/

variable [DecidableEq S]

section Added

variable {known more : List S} {s source target a : S} {l : List (S × List S)}

theorem mem_addMissing : s ∈ addMissing known more ↔ s ∈ known ∨ s ∈ more := by
  induction more generalizing known with
  | nil => simp [addMissing]
  | cons b more ih =>
    rw [addMissing, ih, List.mem_cons]
    split
    · rename_i there
      constructor
      · exact Or.imp_right .inr
      · rintro (h | rfl | h)
        exacts [.inl h, .inl there, .inr h]
    · rw [List.mem_append, List.mem_singleton, or_assoc]

theorem nodup_addMissing (once : known.Nodup) : (addMissing known more).Nodup := by
  induction more generalizing known with
  | nil => exact once
  | cons b more ih =>
    rw [addMissing]
    split
    · exact ih once
    · rename_i new
      exact ih (List.nodup_append.2 ⟨once, List.nodup_singleton b, fun x mem y is_b eq ↦
        new (List.mem_singleton.1 is_b ▸ eq ▸ mem)⟩)

/-- The targets after an entry has been put in. -/
theorem targets_addEntry : (addEntry target more l).map (·.1) =
    if target ∈ l.map (·.1) then l.map (·.1) else l.map (·.1) ++ [target] := by
  induction l with
  | nil => rfl
  | cons e l ih =>
    rw [addEntry]
    by_cases here : e.1 = target
    · rw [if_pos here, if_pos (here ▸ List.mem_cons_self)]
      simp [here]
    · rw [if_neg here, List.map_cons, ih, List.map_cons]
      have later : target ∈ e.1 :: l.map (·.1) ↔ target ∈ l.map (·.1) := by
        simp [Ne.symm here]
      simp only [later]
      split
      · rfl
      · rfl

/-- An entry that is added brings in its own edges and no others. -/
theorem edge_addEntry : Edge (addEntry target more l) source a ↔
    Edge l source a ∨ (target = a ∧ source ∈ more) := by
  induction l with
  | nil => simp [addEntry, mem_addMissing]
  | cons e l ih =>
    rw [addEntry]
    split
    · rename_i here
      simp only [edge_cons, mem_addMissing, here]
      tauto
    · simp only [edge_cons, ih, or_assoc]

/-- No target lists a predecessor twice, however entries are merged. -/
theorem sources_addEntry (once : ∀ e ∈ l, e.2.Nodup) : ∀ e ∈ addEntry target more l, e.2.Nodup := by
  induction l with
  | nil => exact List.forall_mem_singleton.2 (nodup_addMissing List.nodup_nil)
  | cons e l ih =>
    obtain ⟨first, rest⟩ := List.forall_mem_cons.1 once
    rw [addEntry]
    split
    · exact List.forall_mem_cons.2 ⟨nodup_addMissing first, rest⟩
    · exact List.forall_mem_cons.2 ⟨first, ih rest⟩

end Added

variable {entries entries' : List (S × List S)} {t u : TransitionTable S}

/-- One more entry is put into a table. -/
theorem Holds.addEntry (holds : t.Holds entries) (e : S × List S) :
    (⟨addEntry e.1 e.2 t.entries⟩ : TransitionTable S).Holds (entries ++ [e]) where
  targets_once := by
    show ((TransitionTable.addEntry e.1 e.2 t.entries).map (·.1)).Nodup
    rw [targets_addEntry]
    split
    · exact holds.targets_once
    · rename_i new
      exact List.nodup_append.2 ⟨holds.targets_once, List.nodup_singleton _,
        fun x mem y is_new eq ↦ new (List.mem_singleton.1 is_new ▸ eq ▸ mem)⟩
  sources_once := sources_addEntry holds.sources_once
  target_iff target := by
    show target ∈ (TransitionTable.addEntry e.1 e.2 t.entries).map (·.1) ↔ _
    rw [targets_addEntry, List.map_append, List.mem_append, ← holds.target_iff]
    split
    · rename_i there
      refine ⟨.inl, fun h ↦ h.elim id fun last ↦ ?_⟩
      exact List.mem_singleton.1 last ▸ there
    · exact List.mem_append
  edge_iff source target := by
    show Edge (TransitionTable.addEntry e.1 e.2 t.entries) source target ↔ _
    rw [edge_addEntry, edge_append, holds.edge_iff, edge_cons]
    simp

/-- The table that is made from entries holds them. -/
theorem holds_ofList (entries : List (S × List S)) : (ofList entries).Holds entries := by
  induction entries using List.reverseRecOn with
  | nil =>
    exact
      { targets_once := List.nodup_nil
        sources_once := nofun
        target_iff := fun _ ↦ Iff.rfl
        edge_iff := fun _ _ ↦ Iff.rfl }
  | append_singleton entries e ih =>
    have last : ofList (entries ++ [e]) = ⟨addEntry e.1 e.2 (ofList entries).entries⟩ := by
      rw [ofList, ofList, List.foldl_append]
      rfl
    exact last ▸ ih.addEntry e

/-! ### Look-ups -/

/-- The predecessors of a target are those of its one entry. -/
theorem Holds.predecessors_eq_some_iff (holds : t.Holds entries) {target : S} {sources : List S} :
    t.predecessors target = some sources ↔ (target, sources) ∈ t.entries := by
  have once := holds.targets_once
  unfold predecessors
  generalize t.entries = l at once
  induction l with
  | nil => simp
  | cons e l ih =>
    obtain ⟨first, rest⟩ := List.nodup_cons.1 (List.map_cons .. ▸ once)
    by_cases here : e.1 = target
    · rw [List.find?_cons_of_pos (by simpa using here), Option.map_some, Option.some_inj,
        List.mem_cons]
      constructor
      · rintro rfl
        exact .inl (Prod.ext here.symm rfl)
      · rintro (rfl | mem)
        · rfl
        · exact absurd (List.mem_map_of_mem mem) (here ▸ first)
    · rw [List.find?_cons_of_neg (by simpa using here), List.mem_cons]
      refine (ih rest).trans ?_
      exact ⟨.inr, fun h ↦ h.resolve_left fun eq ↦ here (congrArg Prod.fst eq).symm⟩

/-- A state has predecessors, perhaps none, exactly if some entry has it as its target. -/
theorem Holds.predecessors_isSome (holds : t.Holds entries) (target : S) :
    (t.predecessors target).isSome ↔ target ∈ entries.map (·.1) := by
  rw [← holds.target_iff, Option.isSome_iff_exists, List.mem_map]
  constructor
  · rintro ⟨sources, found⟩
    exact ⟨_, holds.predecessors_eq_some_iff.1 found, rfl⟩
  · rintro ⟨e, mem, rfl⟩
    exact ⟨e.2, holds.predecessors_eq_some_iff.2 mem⟩

/-- The predecessors of a target are those that its entries list. -/
theorem Holds.mem_predecessors (holds : t.Holds entries) {source target : S} {sources : List S}
    (found : t.predecessors target = some sources) :
    source ∈ sources ↔ Edge entries source target := by
  rw [← holds.edge_iff]
  refine ⟨fun mem ↦ ⟨_, holds.predecessors_eq_some_iff.1 found, rfl, mem⟩, ?_⟩
  rintro ⟨e, mem, rfl, listed⟩
  obtain rfl := Option.some.inj (found.symm.trans (holds.predecessors_eq_some_iff.2 mem))
  exact listed

/-- Two tables hold the same entries: the same targets have predecessors, and the same ones. -/
theorem Holds.predecessors_perm (holds : t.Holds entries) (holds' : u.Holds entries) (target : S) :
    Option.Rel List.Perm (t.predecessors target) (u.predecessors target) := by
  have both : (t.predecessors target).isSome ↔ (u.predecessors target).isSome :=
    (holds.predecessors_isSome target).trans (holds'.predecessors_isSome target).symm
  cases found : t.predecessors target with
  | none =>
    cases found' : u.predecessors target with
    | none => exact .none
    | some _ => simp [found, found'] at both
  | some sources =>
    cases found' : u.predecessors target with
    | none => simp [found, found'] at both
    | some sources' =>
      refine .some ((List.perm_ext_iff_of_nodup ?_ ?_).2 fun source ↦ ?_)
      · exact holds.sources_once _ (holds.predecessors_eq_some_iff.1 found)
      · exact holds'.sources_once _ (holds'.predecessors_eq_some_iff.1 found')
      · rw [holds.mem_predecessors found, holds'.mem_predecessors found']

/-! ### Other entries for the same table -/

/-- The second entries come from the first ones by permuting them, and by dividing the predecessors
of an entry among several entries of its target or putting them together again. -/
inductive Regrouped : List (S × List S) → List (S × List S) → Prop
  | permuted {entries entries' : List (S × List S)} (same : entries.Perm entries') :
    Regrouped entries entries'
  | divided (before after : List (S × List S)) (target : S) {parts : List (List S)}
      (some_part : parts ≠ []) :
      Regrouped (before ++ (target, parts.flatten) :: after)
        (before ++ parts.map (target, ·) ++ after)
  | symm {entries entries' : List (S × List S)} (h : Regrouped entries entries') :
      Regrouped entries' entries
  | trans {entries entries' entries'' : List (S × List S)} (h : Regrouped entries entries')
      (h' : Regrouped entries' entries'') : Regrouped entries entries''

omit [DecidableEq S] in
/-- Regrouped entries have the same targets. -/
theorem Regrouped.target_iff (h : Regrouped entries entries') (target : S) :
    target ∈ entries.map (·.1) ↔ target ∈ entries'.map (·.1) := by
  induction h with
  | permuted same => exact (same.map _).mem_iff
  | divided before after a some_part =>
    obtain ⟨part, parts, rfl⟩ := List.exists_cons_of_ne_nil some_part
    simp only [List.map_append, List.map_cons, List.mem_append, List.mem_cons, List.map_map]
    have others : target ∈ parts.map ((·.1) ∘ (a, ·)) → target = a := by
      rw [List.mem_map]
      rintro ⟨_, -, rfl⟩
      rfl
    tauto
  | symm _ ih => exact ih.symm
  | trans _ _ ih ih' => exact ih.trans ih'

omit [DecidableEq S] in
theorem Regrouped.edge_iff (h : Regrouped entries entries') (source target : S) :
    Edge entries source target ↔ Edge entries' source target := by
  induction h with
  | permuted same => exact edge_perm same
  | divided before after a _ =>
    simp only [edge_append, edge_cons, edge_parts, or_assoc]
  | symm _ ih => exact ih.symm
  | trans _ _ ih ih' => exact ih.trans ih'

omit [DecidableEq S] in
/-- Entries that are only regrouped are held by the same tables. -/
theorem Regrouped.holds_iff (h : Regrouped entries entries') : t.Holds entries ↔ t.Holds entries' :=
  ⟨fun holds ↦ ⟨holds.targets_once, holds.sources_once,
      fun target ↦ (holds.target_iff target).trans (h.target_iff target),
      fun source target ↦ (holds.edge_iff source target).trans (h.edge_iff source target)⟩,
    fun holds ↦ ⟨holds.targets_once, holds.sources_once,
      fun target ↦ (holds.target_iff target).trans (h.target_iff target).symm,
      fun source target ↦ (holds.edge_iff source target).trans (h.edge_iff source target).symm⟩⟩

end TransitionTable
end Rollout
