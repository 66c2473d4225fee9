import Rollout.Proofs.EngineCalls

/-!
# Several engines

Engines of any number and with any tables are called in any order, with any of the locks that any
of them has handed out: current ones, ones that were given back, ones of other engines.  Locks
cannot be made up; `Engines.next` makes no call with a lock that was never handed out.

`Engines.Orderly` is the invariant: every engine has its account in the common ledger.  What it says
of the locks is in `Engines.Disciplined`.
-/

namespace Rollout

variable {S : Type}

/-- Engines, and what has been done to them. -/
structure Engines (S : Type) where
  engines : List (Engine S)
  ledger : Ledger S := []

/-- No call with this lock does anything to the engine. -/
structure Engine.Rejects [DecidableEq S] (e : Engine S) (lock : Lock) : Prop where
  transition : ∀ target now, e.transition lock target now = .error .invalidLock
  release : e.release lock = e

/-- An engine rejects a lock that is not current in both its calls. -/
theorem Engine.rejects_of_stale [DecidableEq S] {e : Engine S} {lock : Lock}
    (stale : e.isCurrent lock = false) : e.Rejects lock :=
  ⟨transition_stale stale, release_stale stale⟩

namespace Engines

/-- Engines in their initial states, each with its table. -/
def start (plans : List (TransitionTable S × S)) : Engines S where
  engines := plans.mapIdx fun id plan ↦ .start id plan.1 plan.2

def issued (w : Engines S) : List Lock := handedOut w.ledger.deeds

theorem mem_issued {w : Engines S} {lock : Lock} :
    lock ∈ w.issued ↔ ∃ i, lock ∈ handedOut (w.ledger.of i) := by
  unfold issued handedOut
  simp only [List.mem_filterMap, Ledger.mem_of, Ledger.deeds, List.mem_map]
  constructor
  · rintro ⟨d, ⟨x, mem, rfl⟩, handed⟩
    exact ⟨x.1, x.2, mem, handed⟩
  · rintro ⟨i, d, mem, handed⟩
    exact ⟨d, ⟨(i, d), mem, rfl⟩, handed⟩

theorem issued_snoc (engines : List (Engine S)) (l : Ledger S) (i : Nat) (d : Deed S) :
    issued ⟨engines, l ++ [(i, d)]⟩ = handedOut l.deeds ++ d.acquired?.toList := by
  unfold issued
  rw [Ledger.deeds_snoc, handedOut_snoc]

variable [DecidableEq S]

def next (w : Engines S) (i : Nat) (c : EngineCall S) : Engines S :=
  match w.engines[i]? with
  | some e =>
    if c.lock?.all (· ∈ w.issued) then
      ⟨w.engines.set i (e.perform c).2, w.ledger ++ [(i, (e.perform c).1)]⟩
    else w
  | none => w

def after (w : Engines S) (calls : List (Nat × EngineCall S)) : Engines S :=
  calls.foldl (fun w x ↦ w.next x.1 x.2) w

/-- A call is not made, or one engine performs it. -/
theorem next_cases (w : Engines S) (i : Nat) (c : EngineCall S) :
    w.next i c = w ∨ ∃ e, w.engines[i]? = some e ∧
      w.next i c = ⟨w.engines.set i (e.perform c).2, w.ledger ++ [(i, (e.perform c).1)]⟩ := by
  unfold next
  cases found : w.engines[i]? with
  | none => exact .inl rfl
  | some e =>
    by_cases known : c.lock?.all (· ∈ w.issued) = true
    · exact .inr ⟨e, rfl, if_pos known⟩
    · exact .inl (if_neg known)

/-- A call on one engine does nothing to another. -/
theorem next_frame (w : Engines S) {i j : Nat} (h : j ≠ i) (c : EngineCall S) :
    (w.next i c).engines[j]? = w.engines[j]? := by
  rcases w.next_cases i c with same | ⟨e, -, same⟩
  · rw [same]
  · rw [same]
    exact List.getElem?_set_ne (Ne.symm h)

/-- The engine after a call on some engine. -/
theorem next_engine {w : Engines S} {i : Nat} {e : Engine S} (at_i : w.engines[i]? = some e)
    (j : Nat) (c : EngineCall S) :
    (w.next j c).engines[i]? = some e ∨ (w.next j c).engines[i]? = some (e.perform c).2 := by
  rcases w.next_cases j c with same | ⟨e', at_j, same⟩
  · rw [same]
    exact .inl at_i
  · by_cases h : i = j
    · subst h
      obtain rfl : e = e' := Option.some.inj (at_i.symm.trans at_j)
      rw [same]
      exact .inr (List.getElem?_set_self (List.getElem?_eq_some_iff.1 at_i).1)
    · rw [w.next_frame h c]
      exact .inl at_i

theorem issued_next {w : Engines S} {lock : Lock} (issued : lock ∈ w.issued) (i : Nat)
    (c : EngineCall S) : lock ∈ (w.next i c).issued := by
  rcases w.next_cases i c with same | ⟨e, -, same⟩
  · rwa [same]
  · rw [same, issued_snoc]
    exact List.mem_append_left _ issued

/-! ### The invariant -/

/-- Every engine has its account in the ledger. -/
structure Orderly (plans : List (TransitionTable S × S)) (w : Engines S) : Prop where
  account : ∀ (i : Nat) (e : Engine S), w.engines[i]? = some e → ∃ plan, plans[i]? = some plan ∧
    e.Account i plan.1 plan.2 (w.ledger.of i)
  /-- No other engine has. -/
  numbered : ∀ x ∈ w.ledger, x.1 < w.engines.length
  nodup : w.issued.Nodup

variable {plans : List (TransitionTable S × S)} {w : Engines S}

/-- A lock names the engine that has handed it out. -/
theorem Orderly.engine_eq (orderly : w.Orderly plans) {i : Nat} {lock : Lock}
    (h : lock ∈ handedOut (w.ledger.of i)) : lock.engine = i := by
  obtain ⟨d, mem, -⟩ := List.mem_filterMap.1 h
  have lt := orderly.numbered _ (Ledger.mem_of.1 mem)
  obtain ⟨plan, -, account⟩ := orderly.account i _ (List.getElem?_eq_getElem lt)
  exact (account.mem_handedOut.1 h).1.trans account.id_eq

/-- The issued locks with the number of an engine are those that it has handed out. -/
theorem Orderly.mem_issued_iff (orderly : w.Orderly plans) {i : Nat} {lock : Lock}
    (named : lock.engine = i) : lock ∈ w.issued ↔ lock ∈ handedOut (w.ledger.of i) := by
  rw [mem_issued]
  constructor
  · rintro ⟨j, h⟩
    rwa [← named, orderly.engine_eq h]
  · exact fun h ↦ ⟨i, h⟩

/-- The lock that an engine hands out next is new. -/
theorem Orderly.nextLock_notMem (orderly : w.Orderly plans) {i : Nat} {e : Engine S}
    (at_i : w.engines[i]? = some e) : e.nextLock ∉ w.issued := by
  obtain ⟨plan, -, account⟩ := orderly.account i e at_i
  rw [orderly.mem_issued_iff (show e.nextLock.engine = i from account.id_eq)]
  exact account.nextLock_notMem

/-- No lock is issued a second time. -/
theorem Orderly.nodup_perform (orderly : w.Orderly plans) {i : Nat} {e : Engine S}
    (at_i : w.engines[i]? = some e) (c : EngineCall S) :
    (w.issued ++ (e.perform c).1.acquired?.toList).Nodup := by
  obtain ⟨d, e', performed⟩ : ∃ d e', e.perform c = (d, e') := ⟨_, _, rfl⟩
  rw [performed]
  cases Engine.performed_of_eq performed with
  | acquired free =>
    refine List.nodup_append.2 ⟨orderly.nodup, by simp [Deed.acquired?], ?_⟩
    rintro lock old lock' new rfl
    obtain rfl : lock = e.nextLock := List.mem_singleton.1 new
    exact orderly.nextLock_notMem at_i old
  | _ => simpa [Deed.acquired?] using orderly.nodup

theorem start_orderly (plans : List (TransitionTable S × S)) : (start plans).Orderly plans where
  account i e at_i := by
    obtain ⟨plan, found, rfl⟩ := Option.map_eq_some_iff.1 (List.getElem?_mapIdx ▸ at_i)
    exact ⟨plan, found, Engine.start_account ..⟩
  numbered _ h := nomatch h
  nodup := .nil

/-- A call of any engine keeps the engines in order. -/
theorem Orderly.next (orderly : w.Orderly plans) (i : Nat) (c : EngineCall S) :
    (w.next i c).Orderly plans := by
  rcases w.next_cases i c with same | ⟨e, at_i, same⟩
  · rwa [same]
  · rw [same]
    refine ⟨?_, ?_, ?_⟩
    · intro j e' at_j
      rcases getElem?_set_cases at_j with ⟨rfl, rfl⟩ | ⟨other, before⟩
      · obtain ⟨plan, found, account⟩ := orderly.account i e at_i
        refine ⟨plan, found, ?_⟩
        rw [Ledger.of_snoc_self]
        exact account.perform c
      · rw [Ledger.of_snoc_ne _ other]
        exact orderly.account j e' before
    · intro x mem
      rw [List.length_set]
      rcases List.mem_append.1 mem with old | new
      · exact orderly.numbered x old
      · obtain rfl := List.mem_singleton.1 new
        exact (List.getElem?_eq_some_iff.1 at_i).1
    · rw [issued_snoc]
      exact orderly.nodup_perform at_i c

/-- Any list of calls keeps the engines in order. -/
theorem Orderly.after (orderly : w.Orderly plans) (calls : List (Nat × EngineCall S)) :
    (w.after calls).Orderly plans := by
  induction calls generalizing w with
  | nil => exact orderly
  | cons x more ih => exact ih (orderly.next x.1 x.2)

/-- A lock that is out of use stays so, whatever is called. -/
theorem Orderly.stays_stale (orderly : w.Orderly plans) {i : Nat} {e : Engine S}
    (at_i : w.engines[i]? = some e) {lock : Lock} (issued : lock ∈ w.issued)
    (stale : e.isCurrent lock = false) (calls : List (Nat × EngineCall S)) :
    ∃ e', (w.after calls).engines[i]? = some e' ∧ e'.isCurrent lock = false := by
  induction calls generalizing w e with
  | nil => exact ⟨e, at_i, stale⟩
  | cons x more ih =>
    have orderly' := orderly.next x.1 x.2
    have issued' := issued_next issued x.1 x.2
    rcases next_engine at_i x.1 x.2 with same | performed
    · exact ih orderly' same issued' stale
    · have old : lock ≠ e.nextLock := fun h ↦ orderly.nextLock_notMem at_i (h ▸ issued)
      exact ih orderly' performed issued' (Engine.isCurrent_perform stale old x.2)

/-! ### Discipline -/

/-- What holds after any calls on any engines. -/
structure Disciplined (plans : List (TransitionTable S × S)) (w : Engines S) : Prop where
  /-- One at most of the locks that have been handed out is current on an engine. -/
  current_unique : ∀ e ∈ w.engines, ∀ (k k' : Nat) (lock lock' : Lock), w.issued[k]? = some lock →
    w.issued[k']? = some lock' → e.isCurrent lock = true → e.isCurrent lock' = true → k = k'
  /-- A lock is handed out exactly when none is current; otherwise the engine is busy. -/
  acquire_iff : ∀ e ∈ w.engines,
    (∃ r, e.acquire = .ok r) ↔ ∀ lock ∈ w.issued, e.isCurrent lock = false
  acquire_error : ∀ e ∈ w.engines, ∀ err, e.acquire = .error err → err = .busy
  /-- An engine hands out the generations 1, 2, 3, ..., each of them current at first. -/
  generations : ∀ (i : Nat) (e : Engine S), w.engines[i]? = some e →
    ∃ n, handedOut (w.ledger.of i) = locksOf i n ∧
      ∀ lock e', e.acquire = .ok (lock, e') → lock = ⟨i, n + 1⟩ ∧ e'.isCurrent lock = true
  /-- A lock that was given back is not current. -/
  released : ∀ (e : Engine S) (lock : Lock), (e.release lock).isCurrent lock = false
  /-- A lock that the same engine has superseded is not current. -/
  superseded : ∀ (i : Nat) (e : Engine S), w.engines[i]? = some e →
    ∀ lock ∈ handedOut (w.ledger.of i), ∀ lock' ∈ handedOut (w.ledger.of i),
      lock.generation < lock'.generation → e.isCurrent lock = false
  /-- A lock of another engine is not current. -/
  foreign : ∀ (i j : Nat) (e : Engine S), w.engines[i]? = some e → i ≠ j →
    ∀ lock ∈ handedOut (w.ledger.of j), e.isCurrent lock = false
  /-- A lock that is not current is never again: the engine rejects it from now on. -/
  rejects : ∀ (i : Nat) (e : Engine S), w.engines[i]? = some e →
    ∀ lock ∈ w.issued, e.isCurrent lock = false → ∀ calls, ∃ e',
      (w.after calls).engines[i]? = some e' ∧ e'.isCurrent lock = false ∧ e'.Rejects lock
  /-- With the current lock the table alone decides. -/
  transition_iff : ∀ (e : Engine S) (lock : Lock), e.isCurrent lock = true → ∀ target now,
    ((∃ e', e.transition lock target now = .ok e') ↔ e.canTransition target = true) ∧
      e.canTransition target = e.table.allows e.current target
  /-- A call that fails changes nothing. -/
  failing : ∀ (i : Nat) (e : Engine S) (c : EngineCall S), w.engines[i]? = some e →
    (e.perform c).1.fails = true → (w.next i c).engines = w.engines
  /-- A call on one engine changes no other. -/
  frame : ∀ (i j : Nat) (c : EngineCall S), j ≠ i → (w.next i c).engines[j]? = w.engines[j]?
  /-- The transitions of an engine lead along edges from its initial state to the current one, and
  it remembers the last of them. -/
  journey : ∀ (i : Nat) (e : Engine S), w.engines[i]? = some e →
    ∃ plan, plans[i]? = some plan ∧ e.table = plan.1 ∧
      plan.1.Journey plan.2 (moves (w.ledger.of i)) e.current ∧
      e.last = (moves (w.ledger.of i)).getLast? ∧
      (e.last = none ↔ ∀ d ∈ w.ledger.of i, d.entered? = none) ∧
      (e.last = none → e.current = plan.2) ∧
      ∀ t, e.last = some t → t.target = e.current ∧ plan.1.allows t.source t.target = true

/-- An engine hands out a lock exactly if none of those issued so far is current. -/
theorem Orderly.acquire_iff (orderly : w.Orderly plans) {i : Nat} {e : Engine S}
    (at_i : w.engines[i]? = some e) :
    (∃ r, e.acquire = .ok r) ↔ ∀ lock ∈ w.issued, e.isCurrent lock = false := by
  obtain ⟨plan, -, account⟩ := orderly.account i e at_i
  constructor
  · rintro ⟨r, ok⟩ lock -
    refine Bool.eq_false_iff.2 fun current ↦ ?_
    exact Engine.held_ne_none current (Engine.free_of_acquire ok)
  · intro stale
    have free : e.held = none := by
      refine account.free_iff_holder.2 (Option.eq_none_iff_forall_ne_some.2 fun lock out ↦ ?_)
      have issued := mem_issued.2 ⟨i, account.holder_mem out⟩
      exact Bool.eq_false_iff.1 (stale lock issued) (account.isCurrent_iff_holder.2 out)
    exact ⟨_, Engine.acquire_free free⟩

/-- At most one of the issued locks is current for an engine. -/
theorem Orderly.current_unique (orderly : w.Orderly plans) {i : Nat} {e : Engine S}
    (at_i : w.engines[i]? = some e) {k k' : Nat} {lock lock' : Lock}
    (at_k : w.issued[k]? = some lock) (at_k' : w.issued[k']? = some lock')
    (current : e.isCurrent lock = true) (current' : e.isCurrent lock' = true) : k = k' := by
  obtain ⟨plan, -, account⟩ := orderly.account i e at_i
  have out := account.isCurrent_iff_holder.1 current
  have out' := account.isCurrent_iff_holder.1 current'
  obtain rfl : lock = lock' := Option.some.inj (out.symm.trans out')
  have lt : k < w.issued.length := (List.getElem?_eq_some_iff.1 at_k).1
  exact (List.getElem?_inj lt orderly.nodup).1 (at_k.trans at_k'.symm)

/-- An engine numbers its locks from one on without a gap. -/
theorem Orderly.generations (orderly : w.Orderly plans) {i : Nat} {e : Engine S}
    (at_i : w.engines[i]? = some e) :
    ∃ n, handedOut (w.ledger.of i) = locksOf i n ∧
      ∀ lock e', e.acquire = .ok (lock, e') → lock = ⟨i, n + 1⟩ ∧ e'.isCurrent lock = true := by
  obtain ⟨plan, -, account⟩ := orderly.account i e at_i
  refine ⟨_, account.handedOut_eq, fun lock e' ok ↦ ?_⟩
  rw [Engine.acquire_free (Engine.free_of_acquire ok)] at ok
  obtain ⟨rfl, rfl⟩ := Prod.mk.inj (Except.ok.inj ok)
  refine ⟨?_, e.isCurrent_taken⟩
  rw [Engine.nextLock, account.id_eq, account.next_eq]

/-- A lock that is older than another one of its engine is not current. -/
theorem Orderly.superseded (orderly : w.Orderly plans) {i : Nat} {e : Engine S}
    (at_i : w.engines[i]? = some e) {lock lock' : Lock}
    (handed' : lock' ∈ handedOut (w.ledger.of i)) (later : lock.generation < lock'.generation) :
    e.isCurrent lock = false := by
  obtain ⟨plan, -, account⟩ := orderly.account i e at_i
  refine Bool.eq_false_iff.2 fun current ↦ ?_
  have last := account.generation_of_current current
  have := (account.mem_handedOut.1 handed').2.2
  omega

/-- The state of an engine is where the transitions that it has made lead along edges of its table,
and the last of them is the one that it tells. -/
theorem Orderly.journey (orderly : w.Orderly plans) {i : Nat} {e : Engine S}
    (at_i : w.engines[i]? = some e) :
    ∃ plan, plans[i]? = some plan ∧ e.table = plan.1 ∧
      plan.1.Journey plan.2 (moves (w.ledger.of i)) e.current ∧
      e.last = (moves (w.ledger.of i)).getLast? ∧
      (e.last = none ↔ ∀ d ∈ w.ledger.of i, d.entered? = none) ∧
      (e.last = none → e.current = plan.2) ∧
      ∀ t, e.last = some t → t.target = e.current ∧ plan.1.allows t.source t.target = true := by
  obtain ⟨plan, found, account⟩ := orderly.account i e at_i
  have none_iff : e.last = none ↔ moves (w.ledger.of i) = [] := by
    rw [account.last_eq, List.getLast?_eq_none_iff]
  refine ⟨plan, found, account.table_eq, account.journey, account.last_eq, ?_, ?_, ?_⟩
  · rw [none_iff]
    exact List.filterMap_eq_nil_iff
  · exact fun none ↦ account.journey.eq_of_nil (none_iff.1 none)
  · exact fun t last ↦ account.journey.last (account.last_eq ▸ last)

/-- Engines in order are disciplined in every respect. -/
theorem Orderly.disciplined (orderly : w.Orderly plans) : w.Disciplined plans where
  current_unique e mem k k' lock lock' at_k at_k' := by
    obtain ⟨i, at_i⟩ := List.mem_iff_getElem?.1 mem
    exact orderly.current_unique at_i at_k at_k'
  acquire_iff e mem := by
    obtain ⟨i, at_i⟩ := List.mem_iff_getElem?.1 mem
    exact orderly.acquire_iff at_i
  acquire_error e _ err failed := by
    by_cases free : e.held = none
    · rw [Engine.acquire_free free] at failed
      nomatch failed
    · rw [Engine.acquire_busy free] at failed
      exact (Except.error.inj failed).symm
  generations i e at_i := orderly.generations at_i
  released e lock := e.isCurrent_release lock
  superseded i e at_i lock _ lock' handed' later := orderly.superseded at_i handed' later
  foreign i j e at_i ne lock handed := by
    obtain ⟨plan, -, account⟩ := orderly.account i e at_i
    refine Bool.eq_false_iff.2 fun current ↦ ne ?_
    rw [← account.id_eq, ← (Engine.isCurrent_iff.1 current).1, orderly.engine_eq handed]
  rejects i e at_i lock issued stale calls := by
    obtain ⟨e', at_i', stale'⟩ := orderly.stays_stale at_i issued stale calls
    exact ⟨e', at_i', stale', Engine.rejects_of_stale stale'⟩
  transition_iff e lock current target now := by
    refine ⟨⟨fun ⟨e', ok⟩ ↦ ?_, fun can ↦ ⟨_, Engine.transition_ok current can now⟩⟩, rfl⟩
    cases can : e.canTransition target with
    | true => rfl
    | false =>
      rw [Engine.transition_refused current can] at ok
      nomatch ok
  failing i e c at_i fails := by
    rcases w.next_cases i c with same | ⟨e', at_i', same⟩
    · rw [same]
    · obtain rfl : e = e' := Option.some.inj (at_i.symm.trans at_i')
      rw [same, Engine.perform_of_fails fails]
      obtain ⟨lt, rfl⟩ := List.getElem?_eq_some_iff.1 at_i
      exact List.set_getElem_self lt
  frame i j c ne := w.next_frame ne c
  journey i e at_i := orderly.journey at_i

end Engines

/-- However engines are called, one lock at most is current on each of them; what is out of use
stays so; only the current lock moves an engine, along edges of its table, and no other engine with
it. -/
theorem engine_discipline [DecidableEq S] (plans : List (TransitionTable S × S))
    (calls : List (Nat × EngineCall S)) :
    ((Engines.start plans).after calls).Disciplined plans :=
  ((Engines.start_orderly plans).after calls).disciplined

/-- The lock of the first engine is none of the second one, which has handed out one of the same
generation. -/
example (t : TransitionTable Nat) :
    ((Engines.start [(t, 0), (t, 0)]).after [(0, .acquire), (1, .acquire),
        (1, .transition ⟨0, 1⟩ 1 .epoch)]).ledger =
      [(0, .acquired ⟨0, 1⟩), (1, .acquired ⟨1, 1⟩), (1, .refused ⟨0, 1⟩ .invalidLock)] := rfl

end Rollout
