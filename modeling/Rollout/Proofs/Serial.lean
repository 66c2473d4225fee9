import Rollout.Proofs.MutualExclusion
import Rollout.Proofs.Tenure

/-!
# One tenure after the other

Clients that change the core only under the lock take turns in any order.  Nevertheless the core
goes from hand to hand: each client that gets the lock finds what the one before it has left
(`Tenure.Chain`), and the last one may still be at work (`Tenure.Serial`).

`Pool.Serial` is the invariant of such a pool.  It says nothing of where the engine has come from,
so that the lock may be out from the beginning and never come back.
-/

namespace Rollout

variable {S P D C α : Type}

/-! ### Chains of tenures -/

namespace Tenure

/-- The lock that a client has or has had. -/
def taken? : Tenure C → Option Lock
  | inside lock .. | past lock .. => some lock
  | _ => none

/-- The clients that took the lock have had it one after the other.  Each has found the core as the
one before has left it. -/
inductive Chain (tenures : Nat → Tenure C) (initial : C) : List (Nat × Lock) → C → Prop
  | nil : Chain tenures initial [] initial
  | snoc {taken : List (Nat × Lock)} {i : Nat} {lock : Lock} {first last : C}
      (earlier : Chain tenures initial taken first) (ended : tenures i = past lock first last) :
      Chain tenures initial (taken ++ [(i, lock)]) last

/-- The same, but the last client may still have the lock. -/
inductive Serial (tenures : Nat → Tenure C) (initial : C) : List (Nat × Lock) → C → Prop
  | free {taken : List (Nat × Lock)} {now : C} (nobody : ∀ i, (tenures i).lock? = none)
      (chain : Chain tenures initial taken now) : Serial tenures initial taken now
  | held {taken : List (Nat × Lock)} {i : Nat} {lock : Lock} {first now : C}
      (chain : Chain tenures initial taken first) (inside : tenures i = inside lock first now)
      (others : ∀ j, j ≠ i → (tenures j).lock? = none) :
      Serial tenures initial (taken ++ [(i, lock)]) now

variable {tenures : Nat → Tenure C} {initial now : C} {taken : List (Nat × Lock)} {i : Nat}
  {lock : Lock} {first : C}

/-- Who is in the chain has taken the lock that stands there. -/
theorem Chain.taken?_eq (h : Chain tenures initial taken now) {x : Nat × Lock} (mem : x ∈ taken) :
    (tenures x.1).taken? = some x.2 := by
  induction h with
  | nil => nomatch mem
  | snoc earlier ended ih =>
    rcases List.mem_append.1 mem with old | new
    · exact ih old
    · obtain rfl := List.mem_singleton.1 new
      rw [ended]
      rfl

theorem not_past_of_fresh (fresh : (tenures i).taken? = none) (lock : Lock) (first last : C) :
    tenures i ≠ past lock first last := by
  intro same
  rw [same] at fresh
  nomatch fresh

theorem not_past_of_inside (here : tenures i = inside lock first now) (lock' : Lock)
    (first' last : C) : tenures i ≠ past lock' first' last := by
  rw [here]
  nofun

/-- The chain is made of tenures that have ended. -/
theorem Chain.update (h : Chain tenures initial taken now)
    (other : ∀ lock first last, tenures i ≠ past lock first last) (τ : Tenure C) :
    Chain (Function.update tenures i τ) initial taken now := by
  induction h with
  | nil => exact .nil
  | @snoc taken j lock first last earlier ended ih =>
    have ne : j ≠ i := by
      rintro rfl
      exact other lock first last ended
    refine ih.snoc ?_
    rw [Function.update_of_ne ne, ended]

theorem Chain.eq_of_nil (h : Chain tenures initial [] now) : now = initial := by
  generalize same : ([] : List (Nat × Lock)) = all at h
  cases h with
  | nil => rfl
  | snoc earlier ended => simp at same

/-- The last of a chain has met what the others have left. -/
theorem Chain.last (h : Chain tenures initial (taken ++ [(i, lock)]) now) :
    ∃ first, Chain tenures initial taken first ∧ tenures i = past lock first now := by
  generalize same : taken ++ [(i, lock)] = all at h
  cases h with
  | nil => simp at same
  | snoc earlier ended =>
    obtain ⟨rfl, entry⟩ := List.append_inj' same rfl
    obtain ⟨rfl, rfl⟩ := Prod.mk.inj (List.singleton_inj.1 entry)
    exact ⟨_, earlier, ended⟩

theorem Chain.earlier (later : List (Nat × Lock)) (h : Chain tenures initial (taken ++ later) now) :
    ∃ first, Chain tenures initial taken first := by
  induction later generalizing taken with
  | nil => exact ⟨now, by rwa [List.append_nil] at h⟩
  | cons x more ih =>
    rw [List.append_cons] at h
    obtain ⟨_, h'⟩ := ih h
    obtain ⟨first, before, -⟩ := h'.last
    exact ⟨first, before⟩

/-- The tenure of one of the clients in the chain. -/
theorem Chain.cut {later : List (Nat × Lock)}
    (h : Chain tenures initial (taken ++ (i, lock) :: later) now) :
    ∃ first last, Chain tenures initial taken first ∧ tenures i = past lock first last := by
  rw [List.append_cons] at h
  obtain ⟨last, h'⟩ := h.earlier
  obtain ⟨first, before, ended⟩ := h'.last
  exact ⟨first, last, before, ended⟩

theorem Serial.taken?_eq (h : Serial tenures initial taken now) {x : Nat × Lock}
    (mem : x ∈ taken) : (tenures x.1).taken? = some x.2 := by
  cases h with
  | free nobody chain => exact chain.taken?_eq mem
  | held chain inside others =>
    rcases List.mem_append.1 mem with old | new
    · exact chain.taken?_eq old
    · obtain rfl := List.mem_singleton.1 new
      rw [inside]
      rfl

/-- Whoever has the lock is the last to have taken it, and knows the core. -/
theorem Serial.of_inside (h : Serial tenures initial taken now) {now' : C}
    (inside : tenures i = inside lock first now') :
    now' = now ∧ (∀ j, j ≠ i → (tenures j).lock? = none) ∧
      ∃ earlier, taken = earlier ++ [(i, lock)] ∧ Chain tenures initial earlier first := by
  cases h with
  | free nobody chain =>
    have := nobody i
    rw [inside] at this
    nomatch this
  | @held earlier j _ _ _ chain here others =>
    obtain rfl : i = j := by
      refine Classical.byContradiction fun other ↦ ?_
      have := others i other
      rw [inside] at this
      nomatch this
    obtain ⟨rfl, rfl, rfl⟩ := Tenure.inside.inj (inside.symm.trans here)
    exact ⟨rfl, others, earlier, rfl, chain⟩

/-- Once everybody has ended, the tenures are a chain. -/
theorem Serial.chain (h : Serial tenures initial taken now)
    (ended : ∀ x ∈ taken, (tenures x.1).lock? = none) : Chain tenures initial taken now := by
  cases h with
  | free nobody chain => exact chain
  | @held _ i lock _ _ chain here others =>
    have unlocked := ended (i, lock) (by simp)
    rw [here] at unlocked
    nomatch unlocked

/-- If nobody else has the lock, nobody has it once `i` does not. -/
theorem unlocked_update {τ : Tenure C} (others : ∀ j, j ≠ i → (tenures j).lock? = none)
    (unlocked : τ.lock? = none) (j : Nat) : (Function.update tenures i τ j).lock? = none := by
  by_cases same : j = i
  · rwa [same, Function.update_self]
  · rw [Function.update_of_ne same]
    exact others j same

/-- Somebody who has not taken the lock is refused. -/
theorem Serial.refuse (h : Serial tenures initial taken now) (fresh : (tenures i).taken? = none) :
    Serial (Function.update tenures i refused) initial taken now := by
  have notPast := not_past_of_fresh fresh
  cases h with
  | free nobody chain =>
    exact .free (unlocked_update (fun j _ ↦ nobody j) rfl) (chain.update notPast _)
  | @held _ j _ _ _ chain inside others =>
    have ne : j ≠ i := by
      rintro rfl
      rw [inside] at fresh
      nomatch fresh
    refine .held (chain.update notPast _) ?_ fun k other ↦ ?_
    · rw [Function.update_of_ne ne, inside]
    · by_cases same : k = i
      · rw [same, Function.update_self]
        rfl
      · rw [Function.update_of_ne same]
        exact others k other

/-- The client that has the lock goes on. -/
theorem Serial.goOn (h : Serial tenures initial taken now) {now₁ : C}
    (here : tenures i = inside lock first now₁) (now' : C) :
    Serial (Function.update tenures i (inside lock first now')) initial taken now' := by
  obtain ⟨-, others, earlier, rfl, chain⟩ := h.of_inside here
  refine .held (chain.update (not_past_of_inside here) _) (Function.update_self ..) ?_
  intro j other
  rw [Function.update_of_ne other]
  exact others j other

/-- The client that has the lock gives it back. -/
theorem Serial.giveBack (h : Serial tenures initial taken now) {now' : C}
    (here : tenures i = inside lock first now') :
    Serial (Function.update tenures i (past lock first now')) initial taken now := by
  obtain ⟨rfl, others, earlier, rfl, chain⟩ := h.of_inside here
  exact .free (unlocked_update others rfl)
    ((chain.update (not_past_of_inside here) _).snoc (Function.update_self ..))

/-- A client takes the lock that nobody has. -/
theorem Serial.take (h : Serial tenures initial taken now)
    (nobody : ∀ j, (tenures j).lock? = none) (fresh : (tenures i).taken? = none) (lock : Lock) :
    Serial (Function.update tenures i (inside lock now now)) initial (taken ++ [(i, lock)])
      now := by
  cases h with
  | @held _ j _ _ _ chain here others =>
    have unlocked := nobody j
    rw [here] at unlocked
    nomatch unlocked
  | free nobody chain =>
    refine .held (chain.update (not_past_of_fresh fresh) _) (Function.update_self ..) ?_
    intro j other
    rw [Function.update_of_ne other]
    exact nobody j

end Tenure

/-! ### Engines -/

/-- Only those who ask for the lock get one. -/
theorem Engine.perform_other_keeps [DecidableEq S] (e : Engine S) {c : EngineCall S}
    (other : c ≠ .acquire) :
    (e.perform c).1.acquired? = none ∧ (e.perform c).2.nextGeneration = e.nextGeneration := by
  obtain ⟨d, e', same⟩ : ∃ d e', e.perform c = (d, e') := ⟨_, _, rfl⟩
  rw [same]
  cases performed_of_eq same with
  | acquired | busy => exact absurd rfl other
  | entered | forbidden | invalid | released | ignored => exact ⟨rfl, rfl⟩

/-- The clients have taken one lock each, in the order of the generations.  The next generation and
the number of the clients are given. -/
structure InOrder (taken : List (Nat × Lock)) (generation clients : Nat) : Prop where
  distinct : (taken.map (·.1)).Nodup
  ascending : (taken.map (·.2.generation)).Pairwise (· < ·)
  below : ∀ x ∈ taken, x.2.generation < generation
  numbered : ∀ x ∈ taken, x.1 < clients

theorem InOrder.snoc {taken : List (Nat × Lock)} {clients i : Nat} {lock : Lock}
    (h : InOrder taken lock.generation clients) (fresh : ∀ x ∈ taken, x.1 ≠ i)
    (lt : i < clients) : InOrder (taken ++ [(i, lock)]) (lock.generation + 1) clients where
  distinct := by
    rw [List.map_append]
    refine List.nodup_append.2 ⟨h.distinct, by simp, ?_⟩
    rintro j old k new rfl
    obtain ⟨x, mem, rfl⟩ := List.mem_map.1 old
    exact fresh x mem (by simpa using new)
  ascending := by
    rw [List.map_append]
    refine List.pairwise_append.2 ⟨h.ascending, by simp, ?_⟩
    rintro g old g' new
    obtain rfl : g' = lock.generation := by simpa using new
    obtain ⟨x, mem, rfl⟩ := List.mem_map.1 old
    exact h.below x mem
  below x mem := by
    rcases List.mem_append.1 mem with old | new
    · exact Nat.lt_succ_of_lt (h.below x old)
    · obtain rfl := List.mem_singleton.1 new
      exact Nat.lt_succ_self _
  numbered x mem := by
    rcases List.mem_append.1 mem with old | new
    · exact h.numbered x old
    · obtain rfl := List.mem_singleton.1 new
      exact lt

/-! ### Pools -/

namespace Pool

variable [DecidableEq S]

/-- What the ledger, the engine, the core and the tenures of the clients have to do with each other
in a pool that has started from `s₀`. -/
structure Serial (data : P → D) (Q : Nat → α → Tenure (Core S D) → Prop) (s₀ : Shared S P)
    (tenures : Nat → Tenure (Core S D)) (l : Ledger S) (q : Pool (Shared S P) α) : Prop where
  following : q.Following (Tenure.discipline (Shared.core data)) Q tenures
  serial : Tenure.Serial tenures (s₀.core data) l.acquisitions (q.state.core data)
  current : ∀ (i : Nat) (lock : Lock), (tenures i).lock? = some lock →
    q.state.engine.isCurrent lock = true
  complete : ∀ (i : Nat) (lock : Lock), (tenures i).taken? = some lock →
    (i, lock) ∈ l.acquisitions
  inOrder : InOrder l.acquisitions q.state.engine.nextGeneration q.procs.length
  /-- The lock was free if anybody has got it. -/
  opened : l.acquisitions ≠ [] → s₀.engine.held = none
  /-- If no client has the lock, it is free, or with whoever had it from the beginning. -/
  unheld : (∀ i, (tenures i).lock? = none) → q.state.engine.held = s₀.engine.held

namespace Serial

variable {data : P → D} {Q : Nat → α → Tenure (Core S D) → Prop} {s₀ : Shared S P}
  {tenures : Nat → Tenure (Core S D)} {l : Ledger S} {s : Shared S P}
  {procs : List (Proc (Shared S P) α)} {i : Nat} {act : Shared S P → Shared S P}
  {next : Shared S P → Proc (Shared S P) α} {q : Pool (Shared S P) α}

/-- Nobody has done anything yet. -/
theorem start
    (following : q.Following (Tenure.discipline (Shared.core data)) Q fun _ ↦ .outside) :
    q.Serial data Q q.state (fun _ ↦ .outside) [] where
  following := following
  serial := .free (fun _ ↦ rfl) .nil
  current _ _ := nofun
  complete _ _ := nofun
  inOrder := ⟨.nil, .nil, nofun, nofun⟩
  opened := absurd rfl
  unheld _ := rfl

/-- Each client knows what the lock protects as far as its tenure goes. -/
theorem knows (h : q.Serial data Q s₀ tenures l) (i : Nat) :
    (tenures i).Knows (Shared.core data) q.state := by
  cases here : tenures i with
  | inside lock first now =>
    obtain ⟨rfl, -⟩ := h.serial.of_inside here
    exact ⟨rfl, h.current i lock (by rw [here]; rfl)⟩
  | outside | past | refused => trivial

/-- A turn at which no lock is handed out. -/
theorem goOn (h : Serial data Q s₀ tenures l ⟨s, procs⟩) {τ : Tenure (Core S D)}
    {entry : Ledger S} (acquisitions : Ledger.acquisitions (l ++ entry) = l.acquisitions)
    (following : Following (Tenure.discipline (Shared.core data)) Q (Function.update tenures i τ)
      ⟨act s, procs.set i (next s)⟩)
    (serial : Tenure.Serial (Function.update tenures i τ) (s₀.core data) l.acquisitions
      ((act s).core data))
    (current : ∀ j lock, (Function.update tenures i τ j).lock? = some lock →
      (act s).engine.isCurrent lock = true)
    (taken : τ.taken? = (tenures i).taken?)
    (generation : (act s).engine.nextGeneration = s.engine.nextGeneration)
    (unheld : (∀ j, (Function.update tenures i τ j).lock? = none) →
      (act s).engine.held = s₀.engine.held) :
    Serial data Q s₀ (Function.update tenures i τ) (l ++ entry) ⟨act s, procs.set i (next s)⟩ where
  following := following
  serial := acquisitions.symm ▸ serial
  current := current
  complete j lock has := by
    rw [acquisitions]
    refine h.complete j lock ?_
    by_cases same : j = i
    · rwa [same, Function.update_self, taken, ← same] at has
    · rwa [Function.update_of_ne same] at has
  inOrder := by
    rw [acquisitions, List.length_set]
    exact generation.symm ▸ h.inOrder
  opened := acquisitions.symm ▸ h.opened
  unheld := unheld

omit [DecidableEq S] in
/-- If nobody else has the lock, the current one is that of `i`. -/
theorem current_update {e : Engine S} {τ : Tenure (Core S D)}
    (others : ∀ j, j ≠ i → (tenures j).lock? = none)
    (current : ∀ lock, τ.lock? = some lock → e.isCurrent lock = true) (j : Nat) (lock : Lock)
    (has : (Function.update tenures i τ j).lock? = some lock) : e.isCurrent lock = true := by
  by_cases same : j = i
  · rw [same, Function.update_self] at has
    exact current lock has
  · rw [Function.update_of_ne same, others j same] at has
    nomatch has

omit [DecidableEq S] in
/-- The client that goes on has the lock. -/
theorem held_update {τ : Tenure (Core S D)} {lock : Lock} (has : τ.lock? = some lock)
    (nobody : ∀ j, (Function.update tenures i τ j).lock? = none) : False := by
  have unlocked := nobody i
  rw [Function.update_self, has] at unlocked
  nomatch unlocked

/-- A turn at which a lock is handed out. -/
theorem take (h : Serial data Q s₀ tenures l ⟨s, procs⟩)
    (at_i : procs[i]? = some (.step act next)) (free : s.engine.held = none)
    (fresh : (tenures i).taken? = none) (engine : (act s).engine = s.engine.taken)
    (keeps : (act s).core data = s.core data)
    (following : Following (Tenure.discipline (Shared.core data)) Q (Function.update tenures i
      (.inside s.engine.nextLock (s.core data) (s.core data))) ⟨act s, procs.set i (next s)⟩) :
    Serial data Q s₀
      (Function.update tenures i (.inside s.engine.nextLock (s.core data) (s.core data)))
      (l ++ [(i, .acquired s.engine.nextLock)]) ⟨act s, procs.set i (next s)⟩ := by
  have acquisitions : Ledger.acquisitions (l ++ [(i, .acquired s.engine.nextLock)]) =
      l.acquisitions ++ [(i, s.engine.nextLock)] := l.acquisitions_snoc i _
  have nobody (j : Nat) : (tenures j).lock? = none :=
    Option.eq_none_iff_forall_ne_some.2 fun lock has ↦
      Engine.held_ne_none (h.current j lock has) free
  have fresh' : ∀ x ∈ l.acquisitions, x.1 ≠ i := by
    rintro x mem rfl
    exact nomatch (h.serial.taken?_eq mem).symm.trans fresh
  refine
    { following := following
      serial := ?serial
      current := current_update (fun j _ ↦ nobody j) ?current
      complete := ?complete
      inOrder := ?inOrder
      opened := fun _ ↦ ?opened
      unheld := fun nobody' ↦ (held_update rfl nobody').elim }
  case serial =>
    rw [acquisitions]
    exact keeps.symm ▸ h.serial.take nobody fresh _
  case current =>
    rintro _ ⟨⟩
    exact engine.symm ▸ s.engine.isCurrent_taken
  case complete =>
    intro j lock has
    rw [acquisitions]
    by_cases same : j = i
    · rw [same, Function.update_self] at has
      rw [same, ← Option.some.inj has]
      exact List.mem_append_right _ (List.mem_singleton_self _)
    · rw [Function.update_of_ne same] at has
      exact List.mem_append_left _ (h.complete j lock has)
  case inOrder =>
    rw [acquisitions, List.length_set]
    exact engine.symm ▸ InOrder.snoc h.inOrder fresh' (List.getElem?_eq_some_iff.1 at_i).1
  case opened =>
    exact (h.unheld nobody).symm.trans free

/-- Whoever's turn it is, everything stays in order. -/
theorem turn (h : Serial data Q s₀ tenures l ⟨s, procs⟩)
    (at_i : procs[i]? = some (.step act next)) :
    ∃ entry τ, Turn i ⟨s, procs⟩ entry ⟨act s, procs.set i (next s)⟩ ∧
      Serial data Q s₀ (Function.update tenures i τ) (l ++ entry)
        ⟨act s, procs.set i (next s)⟩ := by
  obtain ⟨τ, allowed, following⟩ := h.following.turn at_i (h.knows i)
  generalize here : tenures i = τ₀ at allowed
  cases allowed with
  | aside spares keeps =>
    have same : Function.update tenures i τ = tenures := by rw [← here, Function.update_eq_self]
    refine ⟨[], τ, .aside at_i spares s, h.goOn (by rw [List.append_nil]) following ?_ ?_
      (by rw [here]) (by rw [spares s]) ?_⟩
    · rw [same, keeps]
      exact h.serial
    · rw [same, spares s]
      exact h.current
    · rw [same, spares s]
      exact h.unheld
  | @writes lock first now spares =>
    obtain ⟨-, others, -⟩ := h.serial.of_inside here
    refine ⟨[], _, .aside at_i spares s, h.goOn (by rw [List.append_nil]) following
      (h.serial.goOn here _) (current_update others ?_) (by rw [here]; rfl) (by rw [spares s])
      fun nobody ↦ (held_update rfl nobody).elim⟩
    rintro _ ⟨⟩
    rw [spares s]
    exact h.current i lock (by rw [here]; rfl)
  | busy makes keeps held =>
    have performed := Engine.perform_acquire_busy held
    have same : (act s).engine = s.engine := (makes s).trans (congrArg Prod.snd performed)
    have lock?_eq (j : Nat) :
        (Function.update tenures i Tenure.refused j).lock? = (tenures j).lock? := by
      by_cases own : j = i
      · rw [own, Function.update_self, here]
        rfl
      · rw [Function.update_of_ne own]
    refine ⟨_, _, .call at_i makes s, h.goOn ?_ following ?_ ?_ (by rw [here]; rfl) (by rw [same])
      ?_⟩
    · rw [performed, Ledger.acquisitions_snoc]
      exact List.append_nil _
    · rw [keeps]
      exact h.serial.refuse (by rw [here]; rfl)
    · intro j lock has
      rw [same]
      exact h.current j lock ((lock?_eq j).symm.trans has)
    · intro nobody
      rw [same]
      exact h.unheld fun j ↦ (lock?_eq j).symm.trans (nobody j)
  | takes makes keeps free =>
    have performed := Engine.perform_acquire_free free
    refine ⟨_, .inside s.engine.nextLock (s.core data) (s.core data), .call at_i makes s, ?_⟩
    rw [performed]
    exact h.take at_i free (by rw [here]; rfl) ((makes s).trans (congrArg Prod.snd performed))
      keeps following
  | @enters lock first now target makes =>
    obtain ⟨-, others, -⟩ := h.serial.of_inside here
    obtain ⟨no_lock, generation⟩ :=
      s.engine.perform_other_keeps (c := .transition lock target s.now) nofun
    refine ⟨_, _, .call at_i makes s, h.goOn ?_ following (h.serial.goOn here _)
      (current_update others ?_) (by rw [here]; rfl) ((makes s) ▸ generation)
      fun nobody ↦ (held_update rfl nobody).elim⟩
    · rw [Ledger.acquisitions_snoc, no_lock]
      exact List.append_nil _
    · rintro _ ⟨⟩
      rw [makes s]
      exact Engine.isCurrent_perform_transition (h.current i lock (by rw [here]; rfl)) ..
  | @releases lock first now makes keeps =>
    obtain ⟨-, others, -⟩ := h.serial.of_inside here
    obtain ⟨no_lock, generation⟩ := s.engine.perform_other_keeps (c := .release lock) nofun
    refine ⟨_, _, .call at_i makes s, h.goOn ?_ following (keeps ▸ h.serial.giveBack here)
      (current_update others nofun) (by rw [here]; rfl) ((makes s) ▸ generation) fun _ ↦ ?_⟩
    · rw [Ledger.acquisitions_snoc, no_lock]
      exact List.append_nil _
    · have taken := h.complete i lock (by rw [here]; rfl)
      rw [h.opened (List.ne_nil_of_mem taken), makes s]
      show (s.engine.release lock).held = none
      rw [Engine.release_current (h.current i lock (by rw [here]; rfl))]
      rfl

/-- Any number of steps leave tenures one after the other. -/
theorem steps {p : Pool (Shared S P) α} (h : p.Serial data Q s₀ tenures []) (steps : p.Steps q) :
    ∃ l tenures', p.Run l q ∧ q.Serial data Q s₀ tenures' l := by
  induction steps with
  | refl => exact ⟨[], tenures, .start, h⟩
  | tail _ step ih =>
    obtain ⟨l, tenures', run, serial⟩ := ih
    obtain ⟨i, act, next, at_i, rfl⟩ := step.exists_turn
    obtain ⟨entry, τ, turn, serial'⟩ := serial.turn at_i
    exact ⟨l ++ entry, _, run.turn turn, serial'⟩

/-- When all have ended, so have those who took the lock. -/
theorem results (h : q.Serial data Q s₀ tenures l) (ended : ∀ p ∈ q.procs, ∃ a, p = .done a)
    (x : Nat × Lock) (mem : x ∈ l.acquisitions) :
    ∃ a, q.result? x.1 = some a ∧ Q x.1 a (tenures x.1) := by
  obtain ⟨a, result⟩ := result?_of_ended ended (h.inOrder.numbered x mem)
  exact ⟨a, result, h.following.post result⟩

/-- When all have ended, their tenures make a chain. -/
theorem chain (h : q.Serial data Q s₀ tenures l) (ended : ∀ p ∈ q.procs, ∃ a, p = .done a)
    (unlocked : ∀ (i : Nat) (a : α) (τ : Tenure (Core S D)), Q i a τ → τ.lock? = none) :
    Tenure.Chain tenures (s₀.core data) l.acquisitions (q.state.core data) := by
  refine h.serial.chain fun x mem ↦ ?_
  obtain ⟨a, -, post⟩ := h.results ended x mem
  exact unlocked _ a _ post

end Serial
end Pool
end Rollout
