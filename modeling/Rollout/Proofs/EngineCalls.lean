import Rollout.Proofs.Operation

/-!
# Calls on an engine

Three calls are made on an engine: to take its lock, to enter a state, to give the lock back.  A
`Deed` is what a call comes to; `Engine.perform_cases` lists all that it can come to, and what
becomes of the engine.

The deeds of an engine tell everything about it.  `Engine.Account` says how: the locks that it has
handed out have the generations 1, 2, 3, ..., the current one is the last of them unless it has been
given back, and the transitions lead along edges of the table from the initial state to the current
one.  `Account.perform` is the step lemma; the statements about several engines and about several
clients of one engine are read off it.
-/

namespace Rollout

variable {S : Type}

/-- A call on an engine. -/
inductive EngineCall (S : Type) where
  | acquire
  | transition (lock : Lock) (target : S) (now : Timestamp)
  | release (lock : Lock)

def EngineCall.lock? : EngineCall S → Option Lock
  | acquire => none
  | transition lock .. | release lock => some lock

/-- What a call on an engine comes to. -/
inductive Deed (S : Type) where
  | acquired (lock : Lock)
  | busy
  | entered (lock : Lock) (t : Transition S)
  | refused (lock : Lock) (e : EngineError S)
  | released (lock : Lock)
  /-- The lock that was to be given back is not the current one. -/
  | ignored (lock : Lock)

namespace Deed

def fails : Deed S → Bool
  | busy | refused .. => true
  | acquired _ | entered .. | released _ | ignored _ => false

def acquired? : Deed S → Option Lock
  | acquired lock => some lock
  | _ => none

def entered? : Deed S → Option (Transition S)
  | entered _ t => some t
  | _ => none

/-- The lock that is out after a deed. -/
def holder (before : Option Lock) : Deed S → Option Lock
  | acquired lock => some lock
  | released _ => none
  | _ => before

end Deed

/-! ### What deeds tell -/

def handedOut (deeds : List (Deed S)) : List Lock := deeds.filterMap Deed.acquired?

def moves (deeds : List (Deed S)) : List (Transition S) := deeds.filterMap Deed.entered?

/-- The lock that is out. -/
def holder (deeds : List (Deed S)) : Option Lock := deeds.foldl Deed.holder none

@[simp] theorem handedOut_snoc (deeds : List (Deed S)) (d : Deed S) :
    handedOut (deeds ++ [d]) = handedOut deeds ++ d.acquired?.toList := by
  cases d <;> simp [handedOut, Deed.acquired?]

@[simp] theorem moves_snoc (deeds : List (Deed S)) (d : Deed S) :
    moves (deeds ++ [d]) = moves deeds ++ d.entered?.toList := by
  cases d <;> simp [moves, Deed.entered?]

@[simp] theorem holder_snoc (deeds : List (Deed S)) (d : Deed S) :
    holder (deeds ++ [d]) = d.holder (holder deeds) := by
  simp [holder]

def locksOf (id n : Nat) : List Lock := (List.range' 1 n).map (Lock.mk id)

theorem locksOf_succ (id n : Nat) : locksOf id (n + 1) = locksOf id n ++ [⟨id, n + 1⟩] := by
  unfold locksOf
  rw [List.range'_1_concat, List.map_append, Nat.add_comm]
  rfl

theorem mem_locksOf {id n : Nat} {lock : Lock} :
    lock ∈ locksOf id n ↔ lock.engine = id ∧ 1 ≤ lock.generation ∧ lock.generation ≤ n := by
  unfold locksOf
  rw [List.mem_map]
  constructor
  · rintro ⟨g, within, rfl⟩
    obtain ⟨positive, lt⟩ := List.mem_range'_1.1 within
    rw [Nat.add_comm] at lt
    exact ⟨rfl, positive, Nat.lt_succ_iff.1 lt⟩
  · rintro ⟨rfl, positive, le⟩
    exact ⟨lock.generation, List.mem_range'_1.2 (by omega), rfl⟩

/-! ### Ledgers -/

/-- Deeds, each with a number that tells whose it is: of the engine that it was done to, or of the
client that did it. -/
abbrev Ledger (S : Type) := List (Nat × Deed S)

namespace Ledger

def deeds (l : Ledger S) : List (Deed S) := l.map (·.2)

/-- The deeds with a number. -/
def of (l : Ledger S) (i : Nat) : List (Deed S) := deeds (l.filter (·.1 == i))

@[simp] theorem deeds_snoc (l : Ledger S) (i : Nat) (d : Deed S) :
    deeds (l ++ [(i, d)]) = deeds l ++ [d] := List.map_append

@[simp] theorem of_snoc_self (l : Ledger S) (i : Nat) (d : Deed S) :
    of (l ++ [(i, d)]) i = of l i ++ [d] := by
  simp [of, deeds]

theorem of_snoc_ne (l : Ledger S) {i j : Nat} (h : i ≠ j) (d : Deed S) :
    of (l ++ [(i, d)]) j = of l j := by
  simp [of, h]

theorem mem_of {l : Ledger S} {i : Nat} {d : Deed S} : d ∈ of l i ↔ (i, d) ∈ l := by
  simp [of, deeds]

end Ledger

/-- What is found in a list after an update is the update, or was there before. -/
theorem getElem?_set_cases {α : Type} {xs : List α} {i j : Nat} {x y : α}
    (h : (xs.set i x)[j]? = some y) : i = j ∧ x = y ∨ i ≠ j ∧ xs[j]? = some y := by
  by_cases same : i = j
  · subst same
    have lt : i < xs.length := by
      simpa using (List.getElem?_eq_some_iff.1 h).1
    rw [List.getElem?_set_self lt] at h
    exact .inl ⟨rfl, Option.some.inj h⟩
  · exact .inr ⟨same, (List.getElem?_set_ne same).symm.trans h⟩

/-! ### Journeys -/

namespace TransitionTable

variable [DecidableEq S]

/-- The transitions lead from `a` to another state, each along an edge of the table. -/
inductive Journey (t : TransitionTable S) (a : S) : List (Transition S) → S → Prop where
  | stay : Journey t a [] a
  | enter {ts : List (Transition S)} {b c : S} (journey : Journey t a ts b)
      (allowed : t.allows b c = true) (now : Timestamp) : Journey t a (ts ++ [⟨b, c, now⟩]) c

variable {t : TransitionTable S} {a b : S} {ts : List (Transition S)}

theorem Journey.eq_of_nil (journey : t.Journey a ts b) (h : ts = []) : b = a := by
  cases journey with
  | stay => rfl
  | enter => simp at h

/-- A journey ends where its last transition leads. -/
theorem Journey.last (journey : t.Journey a ts b) {m : Transition S} (h : ts.getLast? = some m) :
    m.target = b ∧ t.allows m.source m.target = true := by
  cases journey with
  | stay => simp at h
  | enter journey allowed now =>
    obtain rfl : _ = m := by simpa using h
    exact ⟨rfl, allowed⟩

end TransitionTable

/-! ### All that a call can do -/

namespace Engine

/-- A lock is the one that is out if engine and generation agree. -/
theorem isCurrent_iff {e : Engine S} {lock : Lock} :
    e.isCurrent lock = true ↔ lock.engine = e.id ∧ e.held = some lock.generation := by
  unfold isCurrent
  rw [Bool.and_eq_true, beq_iff_eq, beq_iff_eq]

theorem isCurrent_freed (e : Engine S) (lock : Lock) : e.freed.isCurrent lock = false := by
  simp [isCurrent, freed]

/-- A lock that is not current gives nothing back. -/
theorem release_stale {e : Engine S} {lock : Lock} (h : e.isCurrent lock = false) :
    e.release lock = e := if_neg (by simp [h])

/-- After a release the lock is not current, whether it was before or not. -/
theorem isCurrent_release (e : Engine S) (lock : Lock) :
    (e.release lock).isCurrent lock = false := by
  cases current : e.isCurrent lock with
  | true =>
    rw [release_current current]
    exact e.isCurrent_freed lock
  | false => rw [release_stale current, current]

/-- Whoever gets the lock has found it free. -/
theorem free_of_acquire {e : Engine S} {r : Lock × Engine S} (h : e.acquire = .ok r) :
    e.held = none := by
  refine Classical.byContradiction fun taken ↦ ?_
  rw [acquire_busy taken] at h
  nomatch h

variable [DecidableEq S]

/-- A lock that is not current changes nothing. -/
theorem transition_stale {e : Engine S} {lock : Lock} (h : e.isCurrent lock = false) (target : S)
    (now : Timestamp) : e.transition lock target now = .error .invalidLock := by
  unfold transition
  rw [if_neg (by simp [h])]

/-- Make a call: what it comes to, and the engine after it. -/
def perform (e : Engine S) : EngineCall S → Deed S × Engine S
  | .acquire => match e.acquire with
    | .ok (lock, e') => (.acquired lock, e')
    | .error _ => (.busy, e)
  | .transition lock target now => match e.transition lock target now with
    | .ok e' => (.entered lock ⟨e.current, target, now⟩, e')
    | .error err => (.refused lock err, e)
  | .release lock =>
    (if e.isCurrent lock then .released lock else .ignored lock, e.release lock)

theorem perform_acquire_free {e : Engine S} (free : e.held = none) :
    e.perform .acquire = (.acquired e.nextLock, e.taken) := by
  simp only [perform, acquire_free free]

theorem perform_acquire_busy {e : Engine S} (taken : e.held ≠ none) :
    e.perform .acquire = (.busy, e) := by
  simp only [perform, acquire_busy taken]

/-- What a call can come to, and what becomes of the engine. -/
inductive Performed (e : Engine S) : EngineCall S → Deed S → Engine S → Prop where
  | acquired (free : e.held = none) : Performed e .acquire (.acquired e.nextLock) e.taken
  | busy (taken : e.held ≠ none) : Performed e .acquire .busy e
  | entered {lock : Lock} {target : S} (current : e.isCurrent lock = true)
      (can : e.canTransition target = true) (now : Timestamp) :
      Performed e (.transition lock target now) (.entered lock ⟨e.current, target, now⟩)
        (e.moved target now)
  | forbidden {lock : Lock} {target : S} (current : e.isCurrent lock = true)
      (cannot : e.canTransition target = false) (now : Timestamp) :
      Performed e (.transition lock target now)
        (.refused lock (.invalidTransition e.current target)) e
  | invalid {lock : Lock} (stale : e.isCurrent lock = false) (target : S) (now : Timestamp) :
      Performed e (.transition lock target now) (.refused lock .invalidLock) e
  | released {lock : Lock} (current : e.isCurrent lock = true) :
      Performed e (.release lock) (.released lock) e.freed
  | ignored {lock : Lock} (stale : e.isCurrent lock = false) :
      Performed e (.release lock) (.ignored lock) e

/-- What can become of a call: the cases of `Performed` are all that there are. -/
theorem perform_cases (e : Engine S) (c : EngineCall S) :
    e.Performed c (e.perform c).1 (e.perform c).2 := by
  cases c with
  | acquire =>
    by_cases free : e.held = none
    · rw [perform_acquire_free free]
      exact .acquired free
    · rw [perform_acquire_busy free]
      exact .busy free
  | transition lock target now =>
    cases current : e.isCurrent lock with
    | false =>
      simp only [perform, transition_stale current]
      exact .invalid current target now
    | true =>
      cases can : e.canTransition target with
      | true =>
        simp only [perform, transition_ok current can]
        exact .entered current can now
      | false =>
        simp only [perform, transition_refused current can]
        exact .forbidden current can now
  | release lock =>
    cases current : e.isCurrent lock with
    | true =>
      simp only [perform, current, release_current current, if_true]
      exact .released current
    | false =>
      simp only [perform, current, release_stale current, Bool.false_eq_true, if_false]
      exact .ignored current

theorem performed_of_eq {e e' : Engine S} {c : EngineCall S} {d : Deed S}
    (h : e.perform c = (d, e')) : e.Performed c d e' := by
  have performed := e.perform_cases c
  rwa [h] at performed

/-- A call that fails leaves the engine as it was. -/
theorem perform_of_fails {e : Engine S} {c : EngineCall S} (h : (e.perform c).1.fails = true) :
    (e.perform c).2 = e := by
  obtain ⟨d, e', same⟩ : ∃ d e', e.perform c = (d, e') := ⟨_, _, rfl⟩
  rw [same] at h ⊢
  cases performed_of_eq same with
  | busy | forbidden | invalid | ignored => rfl
  | acquired | entered | released => nomatch h

/-- A lock that is not current is not current after a call either, unless it is handed out by it. -/
theorem isCurrent_perform {e : Engine S} {lock : Lock} (stale : e.isCurrent lock = false)
    (old : lock ≠ e.nextLock) (c : EngineCall S) : (e.perform c).2.isCurrent lock = false := by
  obtain ⟨d, e', same⟩ : ∃ d e', e.perform c = (d, e') := ⟨_, _, rfl⟩
  rw [same]
  cases performed_of_eq same with
  | busy | forbidden | invalid | ignored => exact stale
  | entered current can now => exact stale
  | released current => exact e.isCurrent_freed lock
  | acquired free =>
    refine Bool.eq_false_iff.2 fun current ↦ old ?_
    obtain ⟨engine_eq, held⟩ := isCurrent_iff.1 current
    have generation_eq : e.nextGeneration = lock.generation := Option.some.inj held
    unfold nextLock
    rw [generation_eq, ← show lock.engine = e.id from engine_eq]

theorem table_perform (e : Engine S) (c : EngineCall S) : (e.perform c).2.table = e.table := by
  obtain ⟨d, e', same⟩ : ∃ d e', e.perform c = (d, e') := ⟨_, _, rfl⟩
  rw [same]
  cases performed_of_eq same <;> rfl

/-- A lock stays current until it is given back. -/
theorem isCurrent_perform_transition {e : Engine S} {lock : Lock}
    (current : e.isCurrent lock = true) (target : S) (now : Timestamp) :
    (e.perform (.transition lock target now)).2.isCurrent lock = true := by
  obtain ⟨d, e', same⟩ : ∃ d e', e.perform (.transition lock target now) = (d, e') := ⟨_, _, rfl⟩
  rw [same]
  cases performed_of_eq same <;> exact current

/-! ### Accounts -/

/-- The deeds tell how the engine has come from its initial state to where it is. -/
structure Account (id : Nat) (table : TransitionTable S) (initial : S) (deeds : List (Deed S))
    (e : Engine S) : Prop where
  id_eq : e.id = id
  table_eq : e.table = table
  /-- Generations are handed out in order. -/
  handedOut_eq : handedOut deeds = locksOf id (handedOut deeds).length
  next_eq : e.nextGeneration = (handedOut deeds).length + 1
  held_eq : e.held = (holder deeds).map (·.generation)
  /-- The lock that is out is the last one. -/
  holder_last : ∀ lock, holder deeds = some lock → (handedOut deeds).getLast? = some lock
  journey : table.Journey initial (moves deeds) e.current
  last_eq : e.last = (moves deeds).getLast?

/-- A new engine has done nothing yet. -/
theorem start_account (id : Nat) (table : TransitionTable S) (initial : S) :
    (start id table initial).Account id table initial [] where
  id_eq := rfl
  table_eq := rfl
  handedOut_eq := rfl
  next_eq := rfl
  held_eq := rfl
  holder_last _ h := nomatch h
  journey := .stay
  last_eq := rfl

namespace Account

variable {id : Nat} {table : TransitionTable S} {initial : S} {deeds : List (Deed S)}
  {e : Engine S}

/-- The locks that have been handed out are those of this engine below the next generation. -/
theorem mem_handedOut (h : e.Account id table initial deeds) {lock : Lock} :
    lock ∈ handedOut deeds ↔
      lock.engine = e.id ∧ 1 ≤ lock.generation ∧ lock.generation < e.nextGeneration := by
  rw [h.handedOut_eq, mem_locksOf, h.id_eq, h.next_eq, Nat.lt_succ_iff]

theorem holder_mem (h : e.Account id table initial deeds) {lock : Lock}
    (out : holder deeds = some lock) : lock ∈ handedOut deeds :=
  List.mem_of_getLast? (h.holder_last lock out)

/-- The lock that is out is the current one. -/
theorem isCurrent_iff_holder (h : e.Account id table initial deeds) {lock : Lock} :
    e.isCurrent lock = true ↔ holder deeds = some lock := by
  rw [isCurrent_iff, h.held_eq]
  constructor
  · rintro ⟨engine_eq, held⟩
    obtain ⟨other, out, generation_eq⟩ := Option.map_eq_some_iff.1 held
    obtain ⟨other_engine, -⟩ := h.mem_handedOut.1 (h.holder_mem out)
    rw [out]
    cases lock
    cases other
    simp_all
  · intro out
    rw [out]
    exact ⟨(h.mem_handedOut.1 (h.holder_mem out)).1, rfl⟩

/-- The current lock is the last one that was handed out. -/
theorem generation_of_current (h : e.Account id table initial deeds) {lock : Lock}
    (current : e.isCurrent lock = true) : lock.generation + 1 = e.nextGeneration := by
  have last := h.holder_last lock (h.isCurrent_iff_holder.1 current)
  rw [h.handedOut_eq] at last
  rw [h.next_eq]
  cases handed : (handedOut deeds).length with
  | zero =>
    rw [handed] at last
    nomatch last
  | succ n =>
    rw [handed, locksOf_succ, List.getLast?_append] at last
    obtain rfl : (⟨id, n + 1⟩ : Lock) = lock := Option.some.inj last
    rfl

/-- The engine is free exactly if its deeds leave nobody with a lock. -/
theorem free_iff_holder (h : e.Account id table initial deeds) :
    e.held = none ↔ holder deeds = none := by
  rw [h.held_eq, Option.map_eq_none_iff]

/-- A lock that is handed out has not been handed out before. -/
theorem nextLock_notMem (h : e.Account id table initial deeds) : e.nextLock ∉ handedOut deeds :=
  fun mem ↦ Nat.lt_irrefl _ (h.mem_handedOut.1 mem).2.2

/-- A deed that hands out no lock, takes none back and makes no transition leaves an account as it
is. -/
theorem idle (h : e.Account id table initial deeds) {d : Deed S} (acquired : d.acquired? = none)
    (entered : d.entered? = none) (keeps : d.holder (holder deeds) = holder deeds) :
    e.Account id table initial (deeds ++ [d]) := by
  have handedOut_eq : handedOut (deeds ++ [d]) = handedOut deeds := by simp [acquired]
  have moves_eq : moves (deeds ++ [d]) = moves deeds := by simp [entered]
  have holder_eq : holder (deeds ++ [d]) = holder deeds := by rw [holder_snoc, keeps]
  obtain ⟨id_eq, table_eq, handedOut, next, held, holder, journey, last⟩ := h
  refine ⟨id_eq, table_eq, ?_, ?_, ?_, ?_, ?_, ?_⟩
  · rwa [handedOut_eq]
  · rwa [handedOut_eq]
  · rwa [holder_eq]
  · rwa [handedOut_eq, holder_eq]
  · rwa [moves_eq]
  · rwa [moves_eq]

theorem acquired (h : e.Account id table initial deeds) :
    e.taken.Account id table initial (deeds ++ [.acquired e.nextLock]) := by
  have handedOut_eq : handedOut (deeds ++ [.acquired e.nextLock]) =
      handedOut deeds ++ [e.nextLock] := handedOut_snoc ..
  have moves_eq : moves (deeds ++ [.acquired e.nextLock]) = moves deeds := by simp [Deed.entered?]
  have nextLock_eq : e.nextLock = ⟨id, (handedOut deeds).length + 1⟩ := by
    rw [nextLock, h.id_eq, h.next_eq]
  refine ⟨h.id_eq, h.table_eq, ?_, ?_, ?_, ?_, ?_, ?_⟩
  · rw [handedOut_eq, List.length_append, List.length_singleton, locksOf_succ, ← h.handedOut_eq,
      nextLock_eq]
  · rw [handedOut_eq, List.length_append, List.length_singleton, ← h.next_eq]
    rfl
  · rw [holder_snoc]
    rfl
  · intro lock out
    rw [holder_snoc] at out
    rw [handedOut_eq, ← Option.some.inj out, List.getLast?_append]
    rfl
  · rw [moves_eq]
    exact h.journey
  · rw [moves_eq]
    exact h.last_eq

theorem entered (h : e.Account id table initial deeds) (lock : Lock) {target : S}
    (can : e.canTransition target = true) (now : Timestamp) :
    (e.moved target now).Account id table initial
      (deeds ++ [.entered lock ⟨e.current, target, now⟩]) := by
  have handedOut_eq : handedOut (deeds ++ [.entered lock ⟨e.current, target, now⟩]) =
      handedOut deeds := by simp [Deed.acquired?]
  have holder_eq : holder (deeds ++ [.entered lock ⟨e.current, target, now⟩]) = holder deeds :=
    holder_snoc ..
  have moves_eq : moves (deeds ++ [.entered lock ⟨e.current, target, now⟩]) =
      moves deeds ++ [⟨e.current, target, now⟩] := moves_snoc ..
  refine ⟨h.id_eq, h.table_eq, ?_, ?_, ?_, ?_, ?_, ?_⟩
  · rw [handedOut_eq]
    exact h.handedOut_eq
  · rw [handedOut_eq]
    exact h.next_eq
  · rw [holder_eq]
    exact h.held_eq
  · rw [handedOut_eq, holder_eq]
    exact h.holder_last
  · rw [moves_eq]
    exact .enter h.journey (h.table_eq ▸ can) now
  · rw [moves_eq, List.getLast?_append]
    rfl

theorem released (h : e.Account id table initial deeds) (lock : Lock) :
    e.freed.Account id table initial (deeds ++ [.released lock]) := by
  have handedOut_eq : handedOut (deeds ++ [.released lock]) = handedOut deeds := by
    simp [Deed.acquired?]
  have moves_eq : moves (deeds ++ [.released lock]) = moves deeds := by simp [Deed.entered?]
  refine ⟨h.id_eq, h.table_eq, ?_, ?_, ?_, ?_, ?_, ?_⟩
  · rw [handedOut_eq]
    exact h.handedOut_eq
  · rw [handedOut_eq]
    exact h.next_eq
  · rw [holder_snoc]
    rfl
  · intro lock' out
    rw [holder_snoc] at out
    nomatch out
  · rw [moves_eq]
    exact h.journey
  · rw [moves_eq]
    exact h.last_eq

/-- Every call is entered into the account. -/
theorem perform (h : e.Account id table initial deeds) (c : EngineCall S) :
    (e.perform c).2.Account id table initial (deeds ++ [(e.perform c).1]) := by
  obtain ⟨d, e', same⟩ : ∃ d e', e.perform c = (d, e') := ⟨_, _, rfl⟩
  rw [same]
  cases performed_of_eq same with
  | busy | forbidden | invalid | ignored => exact h.idle rfl rfl rfl
  | acquired free => exact h.acquired
  | entered current can now => exact h.entered _ can now
  | released current => exact h.released _

end Account
end Engine
end Rollout
