import Rollout.Proofs.Arrangement

/-!
# What a search finds

The states that can be reached from one are the least set that holds it and, with some predecessor
that an entry lists, the entry's target (`Reachable`).  A search has at any time found reachable
states only, and has found all that can be entered from those which no longer wait to be followed
(`Search.Sound`); each turn keeps this, whatever order it goes through the entries in, so when
nothing waits any more the found states are the reachable ones (`searches_exactly`).  That a search
comes to its end is in the definition of `search`: of the targets fewer and fewer are left.
-/

namespace Rollout
namespace TransitionTable

variable {S : Type}

/-- With some predecessor that an entry lists, the entry's target is in the set. -/
def Closed (entries : List (S × List S)) (P : S → Prop) : Prop :=
  ∀ e ∈ entries, ∀ source ∈ e.2, P source → P e.1

/-- The states found, each of them once, are the least closed set that holds `initial`. -/
structure Reachable (entries : List (S × List S)) (initial : S) (found : List S) : Prop where
  once : found.Nodup
  begins : initial ∈ found
  closed : Closed entries (· ∈ found)
  least : ∀ P : S → Prop, P initial → Closed entries P → ∀ s ∈ found, P s

/-- A closed property holds of the target of an edge if it holds of its source. -/
theorem Closed.edge {entries : List (S × List S)} {P : S → Prop} (closed : Closed entries P)
    {source target : S} (edge : Edge entries source target) (mem : P source) : P target := by
  obtain ⟨e, entry, rfl, listed⟩ := edge
  exact closed e entry source listed mem

/-- Only the edges matter to what is closed. -/
theorem closed_congr {entries entries' : List (S × List S)}
    (same : ∀ source target, Edge entries source target ↔ Edge entries' source target)
    {P : S → Prop} : Closed entries P ↔ Closed entries' P :=
  ⟨fun closed e entry _ listed ↦ closed.edge ((same _ _).2 ⟨e, entry, rfl, listed⟩),
    fun closed e entry _ listed ↦ closed.edge ((same _ _).1 ⟨e, entry, rfl, listed⟩)⟩

/-- There is one least closed set. -/
theorem Reachable.perm {entries entries' : List (S × List S)}
    (same : ∀ source target, Edge entries source target ↔ Edge entries' source target) {initial : S}
    {found found' : List S} (reachable : Reachable entries initial found)
    (reachable' : Reachable entries' initial found') : found.Perm found' := by
  rw [List.perm_ext_iff_of_nodup reachable.once reachable'.once]
  refine fun s ↦ ⟨fun mem ↦ ?_, fun mem ↦ ?_⟩
  · exact reachable.least (· ∈ found') reachable'.begins
      ((closed_congr same).2 reachable'.closed) s mem
  · exact reachable'.least (· ∈ found) reachable.begins
      ((closed_congr same).1 reachable.closed) s mem

/-! ### One turn of a search -/

variable [DecidableEq S]

namespace Search

variable {q : Search S} {current s : S} {es : List (S × List S)}

theorem mem_seen_find {a : S} : s ∈ (q.find a).seen ↔ s ∈ q.seen ∨ s = a := by
  unfold find
  split
  · rename_i known
    exact ⟨.inl, fun h ↦ h.elim id fun eq ↦ eq ▸ known⟩
  · simp

/-- A state that is found for the first time is to be followed. -/
theorem mem_frontier_find {a : S} :
    s ∈ (q.find a).frontier ↔ s ∈ q.frontier ∨ (s ∉ q.seen ∧ s = a) := by
  unfold find
  split
  · rename_i known
    exact ⟨.inl, fun h ↦ h.elim id fun ⟨new, eq⟩ ↦ absurd (eq ▸ known) new⟩
  · rename_i new
    rw [List.mem_cons, or_comm]
    exact or_congr_right ⟨fun eq ↦ ⟨eq ▸ new, eq⟩, And.right⟩

theorem nodup_find {a : S} (once : q.seen.Nodup) : (q.find a).seen.Nodup := by
  unfold find
  split
  · exact once
  · rename_i new
    exact List.nodup_append.2 ⟨once, List.nodup_singleton a, fun x mem y is_a eq ↦
      new (List.mem_singleton.1 is_a ▸ eq ▸ mem)⟩

/-- A turn finds what may be entered from the state that it follows. -/
theorem mem_seen_follow :
    s ∈ (q.follow current es).seen ↔ s ∈ q.seen ∨ Edge es current s := by
  induction es generalizing q with
  | nil => simp [follow]
  | cons e more ih =>
    rw [follow, ih, edge_cons, ← or_assoc]
    by_cases listed : current ∈ e.2
    · rw [if_pos (by simpa using listed), mem_seen_find]
      simp [listed, eq_comm]
    · rw [if_neg (by simpa using listed)]
      simp [listed]

/-- What is found for the first time waits to be followed. -/
theorem mem_frontier_follow : s ∈ (q.follow current es).frontier ↔
    s ∈ q.frontier ∨ (s ∉ q.seen ∧ Edge es current s) := by
  induction es generalizing q with
  | nil => simp [follow]
  | cons e more ih =>
    rw [follow, ih, edge_cons]
    by_cases listed : current ∈ e.2
    · rw [if_pos (by simpa using listed), mem_frontier_find, mem_seen_find]
      by_cases here : s = e.1
      · simp [listed, here]
      · simp [here, Ne.symm here]
    · rw [if_neg (by simpa using listed)]
      simp [listed]

theorem nodup_follow (once : q.seen.Nodup) : (q.follow current es).seen.Nodup := by
  induction es generalizing q with
  | nil => exact once
  | cons e more ih =>
    rw [follow]
    split
    · exact ih (nodup_find once)
    · exact ih once

/-- What has been found can be reached, and what can be entered from it has been found too, unless
it still waits to be followed. -/
structure Sound (entries : List (S × List S)) (initial : S) (q : Search S) : Prop where
  once : q.seen.Nodup
  begins : initial ∈ q.seen
  waiting : ∀ s ∈ q.frontier, s ∈ q.seen
  followed : ∀ s ∈ q.seen, s ∉ q.frontier → ∀ target, Edge entries s target → target ∈ q.seen
  reached : ∀ P : S → Prop, P initial → Closed entries P → ∀ s ∈ q.seen, P s

variable {entries : List (S × List S)} {initial : S}

omit [DecidableEq S] in
/-- A search that has just begun has found what is reachable. -/
theorem start_sound : (start initial).Sound entries initial where
  once := List.nodup_singleton initial
  begins := List.mem_singleton_self initial
  waiting _ mem := mem
  followed _ mem not_waiting := absurd mem not_waiting
  reached _ holds _ _ mem := List.mem_singleton.1 mem ▸ holds

/-- A turn keeps a search sound. -/
theorem Sound.follow {seen frontier : List S}
    (sound : Sound entries initial ⟨seen, current :: frontier⟩)
    (same : ∀ source target, Edge es source target ↔ Edge entries source target) :
    (Search.follow current ⟨seen, frontier⟩ es).Sound entries initial where
  once := nodup_follow sound.once
  begins := mem_seen_follow.2 (.inl sound.begins)
  waiting s mem := by
    rw [mem_seen_follow]
    rcases mem_frontier_follow.1 mem with before | ⟨-, edge⟩
    · exact .inl (sound.waiting s (List.mem_cons_of_mem _ before))
    · exact .inr edge
  followed s mem not_waiting target edge := by
    rw [mem_frontier_follow] at not_waiting
    rw [mem_seen_follow] at mem ⊢
    by_cases known : s ∈ seen
    · by_cases now : s = current
      · exact .inr (now ▸ (same s target).2 edge)
      · have earlier : s ∉ current :: frontier := fun mem ↦
          (List.mem_cons.1 mem).elim now fun before ↦ not_waiting (.inl before)
        exact .inl (sound.followed s known earlier target edge)
    · exact absurd (.inr ⟨known, mem.resolve_left known⟩) not_waiting
  reached P holds closed s mem := by
    rcases mem_seen_follow.1 mem with before | edge
    · exact sound.reached P holds closed s before
    · have at_current : P current :=
        sound.reached P holds closed current (sound.waiting current List.mem_cons_self)
      exact closed.edge ((same _ _).1 edge) at_current

omit [DecidableEq S] in
/-- A sound search that has nothing left to follow has found what can be reached. -/
theorem Sound.reachable {seen : List S} (sound : Sound entries initial ⟨seen, []⟩) :
    Reachable entries initial seen where
  once := sound.once
  begins := sound.begins
  closed e entry source listed mem :=
    sound.followed source mem List.not_mem_nil e.1 ⟨e, entry, rfl, listed⟩
  least := sound.reached

end Search

/-! ### Whole searches -/

variable {entries : List (S × List S)} {initial : S} {t : TransitionTable S}

/-- A sound search that has been brought to its end has found what is reachable, and nothing else.
-/
theorem Holds.reachable_search (holds : t.Holds entries) (visiting : t.Visiting) (q : Search S)
    (sound : q.Sound entries initial) : Reachable entries initial (t.search visiting q) := by
  fun_induction search t visiting q with
  | case1 seen => exact sound.reachable
  | case2 seen current frontier es ih =>
    have same : ∀ source target, Edge es.1 source target ↔ Edge entries source target :=
      fun source target ↦ (edge_perm es.2).trans (holds.edge_iff source target)
    exact ih (sound.follow same)

/-- From `initial`, searches of the tables that hold the entries find what can be reached. -/
structure SearchesExactly (entries : List (S × List S)) (initial : S) : Prop where
  /-- The table that is made from the entries holds them, and is searched in one order. -/
  made : (ofList entries).Holds entries ∧
    Reachable entries initial ((ofList entries).reachableFrom initial)
  /-- Neither how a table arranges its entries nor in which order they are gone through matters. -/
  exact : ∀ t : TransitionTable S, t.Holds entries → ∀ visiting : t.Visiting,
    Reachable entries initial (t.search visiting (.start initial))
  /-- Nor does it matter how the entries are permuted and divided. -/
  regrouped : ∀ entries', Regrouped entries entries' →
    ∀ t t' : TransitionTable S, t.Holds entries → t'.Holds entries' →
    ∀ (visiting : t.Visiting) (visiting' : t'.Visiting),
      (t.search visiting (.start initial)).Perm (t'.search visiting' (.start initial))

/-- In every order of visits, a search ends with the least set that holds the initial state and is
closed under the entries; it is the same set for all groupings of the entries. -/
theorem searches_exactly (entries : List (S × List S)) (initial : S) :
    SearchesExactly entries initial where
  made := ⟨holds_ofList entries,
    (holds_ofList entries).reachable_search _ _ Search.start_sound⟩
  exact _ holds visiting := holds.reachable_search visiting _ Search.start_sound
  regrouped _ regrouped _ _ holds holds' visiting visiting' :=
    (holds.reachable_search visiting _ Search.start_sound).perm regrouped.edge_iff
      (holds'.reachable_search visiting' _ Search.start_sound)

/-- A cycle is gone through once, and a predecessor that is no target is not entered. -/
example : (ofList [("b", ["a", "c"]), ("c", ["b", "z"]), ("d", ["z"])]).reachableFrom "a" =
    ["a", "b", "c"] := by
  cbv

end TransitionTable
end Rollout
