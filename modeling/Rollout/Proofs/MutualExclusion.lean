import Rollout.Proofs.Exclusion
import Rollout.Proofs.Ownership

/-!
# Mutual exclusion

Clients run guarded operations on one engine and take turns in any order.  What a client does is
given by a `Client`: it may enter further states before its operation starts, as it likes and as it
sees fit, it may give the operation up at any point, and its work may come to any outcome.  Others
may change everything but the engine in between, the time included.

A run of such a pool enters the calls on the engine into a ledger, each with the number of the
client (`Pool.Run`).  The invariant `Pool.Excluding` relates the ledger, the engine and what is left
of each client's program; all that is said of a pool in `MutualExclusion` is read off it.
-/

namespace Rollout

variable {S P α : Type}

/-! ### Clients -/

/-- A computation that leaves the engine alone. -/
abbrev Beside (S P α : Type) := {p : Proc (Shared S P) α // p.Aside}

/-- How an operation in its running state comes to an end. -/
inductive Ending (S P α : Type) where
  /-- It is given up after a part of its work. -/
  | drop (part : Beside S P Unit)
  | run (work : Beside S P (Outcome (α × Option S)))
    (report : Except (OperationError S) α → Beside S P Unit)

/-- What a client does that holds the lock. -/
inductive Conduct (S P α : Type) where
  | drop
  /-- It looks at what is shared before it goes on. -/
  | look (next : Shared S P → Conduct S P α)
  | transition (target : S) (next : Except (OperationError S) Unit → Conduct S P α)
  | start (ending : Ending S P α)

/-- A client of an engine. -/
inductive Client (S P α : Type) where
  | operation (stages : Stages S) (conduct : Conduct S P α)
  /-- It has nothing to do with the engine. -/
  | bystander (p : Beside S P Unit)

section Programs

variable [DecidableEq S]

/-- What is left to do for an operation in its running state. -/
def Ending.program (r : Running S) : Ending S P α → Proc (Shared S P) Unit
  | drop part => do
    part.1
    r.drop
  | run work report => do
    let _ ← r.run work.1 fun result ↦ (report result).1

def Conduct.program (g : Guarded S) : Conduct S P α → Proc (Shared S P) Unit
  | drop => g.drop
  | look next => do (next (← Proc.read id)).program g
  | transition target next => do (next (← g.transition target)).program g
  | start ending => do
    match ← g.start with
    | .ok r => ending.program r
    | .error _ => pure ()

def Client.program : Client S P α → Proc (Shared S P) Unit
  | operation stages conduct => do
    match ← Guarded.acquire stages with
    | .ok g => conduct.program g
    | .error _ => pure ()
  | bystander p => p.1

def Client.pool (clients : List (Client S P α)) (s : Shared S P) : Pool (Shared S P) Unit :=
  ⟨s, clients.map Client.program⟩

/-- Whoever has ended does not hold the lock. -/
def Ends (_ : α) (σ : Standing) : Prop := ∀ lock, σ ≠ .inside lock

theorem ends_past (a : α) : Ends a .past := nofun

/-- Whatever its end, a running operation obeys the lock and gives it back. -/
theorem Ending.obeys (r : Running S) (ending : Ending S P α) :
    (ending.program r).Obeys Ends (.inside r.lock) := by
  cases ending with
  | drop part => exact part.2.then fun _ ↦ r.drop_leads.obeys ends_past
  | run work report =>
    exact (r.run_leads work.2 fun result ↦ (report result).2).then fun _ ↦ .done (ends_past ())

theorem Conduct.obeys (g : Guarded S) (conduct : Conduct S P α) :
    (conduct.program g).Obeys Ends (.inside g.lock) := by
  induction conduct with
  | drop => exact g.drop_leads.obeys ends_past
  | look next ih => exact (Proc.aside_read id).then fun s ↦ ih s
  | transition target next ih => exact (g.transition_leads target).then fun result ↦ ih result
  | start ending =>
    refine g.start_leads.then ?_
    rintro (e | r)
    · exact .done (ends_past ())
    · exact ending.obeys r

/-- Every client obeys the protocol of the lock. -/
theorem Client.obeys (client : Client S P α) : client.program.Obeys Ends .outside := by
  cases client with
  | bystander p => exact p.2.obeys fun _ ↦ nofun
  | operation stages conduct =>
    refine (Guarded.acquire_leads stages).then ?_
    rintro (e | g)
    · exact .done (ends_past ())
    · exact conduct.obeys g

end Programs

/-! ### Standing -/

namespace Ledger

variable {l : Ledger S} {i j : Nat}

/-- Where a client stands after its deeds. -/
def standing (l : Ledger S) (i : Nat) : Standing :=
  match holder (l.of i), l.of i with
  | some lock, _ => .inside lock
  | none, [] => .outside
  | none, _ :: _ => .past

theorem of_eq_nil (h : l.standing i = .outside) : l.of i = [] := by
  unfold standing at h
  split at h
  · nomatch h
  · assumption
  · nomatch h

/-- A client is inside exactly if its deeds leave it with the lock. -/
theorem standing_inside_iff {lock : Lock} :
    l.standing i = .inside lock ↔ holder (l.of i) = some lock := by
  unfold standing
  split
  · rename_i has
    rw [has, Standing.inside.injEq, Option.some.injEq]
  · rename_i free _
    simp [free]
  · rename_i free _
    simp [free]

/-- The deed of one client does not change where another one stands. -/
theorem standing_snoc_ne (h : i ≠ j) (d : Deed S) :
    standing (l ++ [(i, d)]) j = l.standing j := by
  unfold standing
  rw [of_snoc_ne l h]

theorem standing_snoc_inside {d : Deed S} {lock : Lock}
    (h : d.holder (holder (l.of i)) = some lock) :
    standing (l ++ [(i, d)]) i = .inside lock := by
  rw [standing_inside_iff, of_snoc_self, holder_snoc, h]

theorem standing_snoc_past {d : Deed S} (h : d.holder (holder (l.of i)) = none) :
    standing (l ++ [(i, d)]) i = .past := by
  unfold standing
  rw [of_snoc_self, holder_snoc, h]
  cases l.of i <;> rfl

end Ledger

/-! ### Runs of a pool -/

namespace Pool

/-- A step is the turn of one of the computations. -/
theorem Step.exists_turn {σ : Type} {q r : Pool σ α} (h : q.Step r) :
    ∃ i act next, q.procs[i]? = some (.step act next) ∧
      r = ⟨act q.state, q.procs.set i (next q.state)⟩ := by
  cases h with
  | turn s before after act next => exact ⟨before.length, act, next, by simp, by simp⟩

/-- The computation `i` makes its next step.  It enters into the ledger the call that it makes on
the engine, if it makes one. -/
inductive Turn [DecidableEq S] (i : Nat) :
    Pool (Shared S P) α → Ledger S → Pool (Shared S P) α → Prop
  | aside {procs : List (Proc (Shared S P) α)} {act : Shared S P → Shared S P}
      {next : Shared S P → Proc (Shared S P) α} (at_i : procs[i]? = some (.step act next))
      (spares : Shared.Spares act) (s : Shared S P) :
      Turn i ⟨s, procs⟩ [] ⟨act s, procs.set i (next s)⟩
  | call {procs : List (Proc (Shared S P) α)} {act : Shared S P → Shared S P}
      {next : Shared S P → Proc (Shared S P) α} (at_i : procs[i]? = some (.step act next))
      {c : Timestamp → EngineCall S} (makes : Shared.Makes act c) (s : Shared S P) :
      Turn i ⟨s, procs⟩ [(i, (s.engine.perform (c s.now)).1)] ⟨act s, procs.set i (next s)⟩

/-- Any number of turns. -/
inductive Run [DecidableEq S] (p : Pool (Shared S P) α) :
    Ledger S → Pool (Shared S P) α → Prop
  | start : Run p [] p
  | turn {l entry : Ledger S} {i : Nat} {q r : Pool (Shared S P) α} (run : Run p l q)
      (turn : q.Turn i entry r) : Run p (l ++ entry) r

variable [DecidableEq S]

/-- What the ledger, the engine and the programs that are left have to do with each other. -/
structure Excluding (id : Nat) (table : TransitionTable S) (initial : S) (l : Ledger S)
    (q : Pool (Shared S P) α) : Prop where
  account : q.state.engine.Account id table initial l.deeds
  exclusive : ∃ hand, l.Exclusive hand
  obeys : ∀ (i : Nat) (p : Proc (Shared S P) α), q.procs[i]? = some p →
    p.Obeys Ends (l.standing i)
  numbered : ∀ (i : Nat) (lock : Lock), holder (l.of i) = some lock → i < q.procs.length

namespace Excluding

variable {id : Nat} {table : TransitionTable S} {initial : S} {l : Ledger S}
  {q r : Pool (Shared S P) α} {s : Shared S P} {procs : List (Proc (Shared S P) α)} {i : Nat}
  {act : Shared S P → Shared S P} {next : Shared S P → Proc (Shared S P) α}

/-- A lock is current exactly if some client holds it. -/
theorem isCurrent_iff (h : q.Excluding id table initial l) {lock : Lock} :
    q.state.engine.isCurrent lock = true ↔ ∃ i, holder (l.of i) = some lock := by
  obtain ⟨hand, exclusive⟩ := h.exclusive
  rw [h.account.isCurrent_iff_holder, exclusive.holder_eq, Option.map_eq_some_iff]
  constructor
  · rintro ⟨⟨i, lock⟩, rfl, rfl⟩
    exact ⟨i, exclusive.holder_of_iff.2 rfl⟩
  · rintro ⟨i, has⟩
    exact ⟨(i, lock), exclusive.holder_of_iff.1 has, rfl⟩

/-- The engine is free exactly if no client holds a lock. -/
theorem free_iff (h : q.Excluding id table initial l) :
    q.state.engine.held = none ↔ ∀ i, holder (l.of i) = none := by
  obtain ⟨hand, exclusive⟩ := h.exclusive
  rw [h.account.free_iff_holder, exclusive.holder_eq, Option.map_eq_none_iff]
  constructor
  · rintro rfl i
    exact Option.eq_none_iff_forall_ne_some.2 fun lock has ↦ nomatch exclusive.holder_of_iff.1 has
  · intro free
    refine Option.eq_none_iff_forall_ne_some.2 fun x has ↦ ?_
    have := exclusive.holder_of_iff.2 has
    rw [free] at this
    nomatch this

/-- Whoever has ended does not have the lock. -/
theorem holder_of_done (h : q.Excluding id table initial l) {a : α}
    (at_i : q.procs[i]? = some (.done a)) : holder (l.of i) = none := by
  refine Option.eq_none_iff_forall_ne_some.2 fun lock has ↦ ?_
  have obeys := h.obeys i _ at_i
  rw [Ledger.standing_inside_iff.2 has] at obeys
  cases obeys with
  | done post => exact post lock rfl

/-- A step beside the engine enters nothing. -/
theorem aside (h : Excluding id table initial l ⟨s, procs⟩) (spares : Shared.Spares act)
    (goes : (next s).Obeys Ends (l.standing i)) :
    Excluding id table initial l ⟨act s, procs.set i (next s)⟩ where
  account := (spares s).symm ▸ h.account
  exclusive := h.exclusive
  obeys j p at_j := by
    rcases getElem?_set_cases at_j with ⟨rfl, rfl⟩ | ⟨-, before⟩
    · exact goes
    · exact h.obeys j p before
  numbered j lock has := by
    rw [List.length_set]
    exact h.numbered j lock has

/-- A call that fits is entered. -/
theorem call (h : Excluding id table initial l ⟨s, procs⟩)
    (at_i : procs[i]? = some (.step act next)) {c : Timestamp → EngineCall S}
    (makes : Shared.Makes act c) {hand : Option (Nat × Lock)} (exclusive : l.Exclusive hand)
    (hand' : Option (Nat × Lock))
    (fits : (s.engine.perform (c s.now)).1.Fits (l.of i) i hand hand')
    (goes : (next s).Obeys Ends
      (Ledger.standing (l ++ [(i, (s.engine.perform (c s.now)).1)]) i)) :
    Excluding id table initial (l ++ [(i, (s.engine.perform (c s.now)).1)])
      ⟨act s, procs.set i (next s)⟩ where
  account := by
    rw [Ledger.deeds_snoc]
    show (act s).engine.Account ..
    rw [makes s]
    exact h.account.perform (c s.now)
  exclusive := ⟨hand', exclusive.snoc fits⟩
  obeys j p at_j := by
    rcases getElem?_set_cases at_j with ⟨rfl, rfl⟩ | ⟨other, before⟩
    · exact goes
    · rw [Ledger.standing_snoc_ne other]
      exact h.obeys j p before
  numbered j lock has := by
    rw [List.length_set]
    by_cases same : i = j
    · subst same
      exact (List.getElem?_eq_some_iff.1 at_i).1
    · rw [Ledger.of_snoc_ne l same] at has
      exact h.numbered j lock has

/-- The client that has the lock shows the current one. -/
theorem current (h : q.Excluding id table initial l) {lock : Lock}
    (inside : l.standing i = .inside lock) : q.state.engine.isCurrent lock = true :=
  h.isCurrent_iff.2 ⟨i, Ledger.standing_inside_iff.1 inside⟩

/-- An acquire keeps clients excluded from each other. -/
theorem acquires (h : Excluding id table initial l ⟨s, procs⟩)
    (at_i : procs[i]? = some (.step act next)) (stands : l.standing i = .outside)
    (makes : Shared.Makes act fun _ ↦ .acquire)
    (busy : s.engine.held ≠ none → (next s).Obeys Ends .past)
    (taken : s.engine.held = none → (next s).Obeys Ends (.inside s.engine.nextLock)) :
    Excluding id table initial (l ++ [(i, (s.engine.perform .acquire).1)])
      ⟨act s, procs.set i (next s)⟩ := by
  obtain ⟨hand, exclusive⟩ := h.exclusive
  have fresh := Ledger.of_eq_nil stands
  by_cases free : s.engine.held = none
  · have performed := Engine.perform_acquire_free free
    obtain rfl : hand = none := by
      have nobody := h.account.free_iff_holder.1 free
      rwa [exclusive.holder_eq, Option.map_eq_none_iff] at nobody
    refine h.call at_i makes exclusive (some (i, s.engine.nextLock)) ?_ ?_
    · rw [performed]
      exact .acquired fresh _
    · rw [performed, Ledger.standing_snoc_inside rfl]
      exact taken free
  · have performed := Engine.perform_acquire_busy free
    have none_yet : Deed.holder (holder (l.of i)) (.busy : Deed S) = none := by
      rw [fresh]
      rfl
    refine h.call at_i makes exclusive hand ?_ ?_
    · rw [performed]
      exact .busy fresh
    · rw [performed, Ledger.standing_snoc_past none_yet]
      exact busy free

theorem enters (h : Excluding id table initial l ⟨s, procs⟩)
    (at_i : procs[i]? = some (.step act next)) {lock : Lock} (stands : l.standing i = .inside lock)
    {target : S} (makes : Shared.Makes act (.transition lock target))
    (goes : (next s).Obeys Ends (.inside lock)) :
    Excluding id table initial (l ++ [(i, (s.engine.perform (.transition lock target s.now)).1)])
      ⟨act s, procs.set i (next s)⟩ := by
  obtain ⟨hand, exclusive⟩ := h.exclusive
  have has := Ledger.standing_inside_iff.1 stands
  obtain rfl := exclusive.holder_of_iff.1 has
  obtain ⟨d, e', same⟩ : ∃ d e', s.engine.perform (.transition lock target s.now) = (d, e') :=
    ⟨_, _, rfl⟩
  refine h.call at_i makes exclusive (some (i, lock)) ?_ ?_
  · rw [same]
    cases Engine.performed_of_eq same with
    | entered => exact .entered _
    | forbidden => exact .refused _ _
    | invalid stale => exact absurd (h.current stands) (by simp [stale])
  · have keeps : d.holder (holder (l.of i)) = some lock := by
      cases Engine.performed_of_eq same <;> exact has
    rw [same, Ledger.standing_snoc_inside keeps]
    exact goes

theorem releases (h : Excluding id table initial l ⟨s, procs⟩)
    (at_i : procs[i]? = some (.step act next)) {lock : Lock} (stands : l.standing i = .inside lock)
    (makes : Shared.Makes act fun _ ↦ .release lock) (goes : (next s).Obeys Ends .past) :
    Excluding id table initial (l ++ [(i, (s.engine.perform (.release lock)).1)])
      ⟨act s, procs.set i (next s)⟩ := by
  obtain ⟨hand, exclusive⟩ := h.exclusive
  obtain rfl := exclusive.holder_of_iff.1 (Ledger.standing_inside_iff.1 stands)
  have performed : (s.engine.perform (.release lock)).1 = .released lock :=
    if_pos (h.current stands)
  refine h.call at_i makes exclusive none ?_ ?_
  · rw [performed]
    exact .released
  · rw [performed, Ledger.standing_snoc_past rfl]
    exact goes

/-- Whoever's turn it is, everything stays in order. -/
theorem turn (h : Excluding id table initial l ⟨s, procs⟩)
    (at_i : procs[i]? = some (.step act next)) :
    ∃ entry, Turn i ⟨s, procs⟩ entry ⟨act s, procs.set i (next s)⟩ ∧
      Excluding id table initial (l ++ entry) ⟨act s, procs.set i (next s)⟩ := by
  have obeys := h.obeys i _ at_i
  generalize stands : l.standing i = σ at obeys
  cases obeys with
  | aside spares rest =>
    refine ⟨[], .aside at_i spares s, ?_⟩
    rw [List.append_nil]
    exact h.aside spares (stands ▸ rest s)
  | acquires makes busy taken =>
    exact ⟨_, .call at_i makes s, h.acquires at_i stands makes (busy s) (taken s)⟩
  | enters makes rest => exact ⟨_, .call at_i makes s, h.enters at_i stands makes (rest s)⟩
  | releases makes rest => exact ⟨_, .call at_i makes s, h.releases at_i stands makes (rest s)⟩

/-- Each step of the pool is a turn. -/
theorem step (h : q.Excluding id table initial l) (step : q.Step r) :
    ∃ i entry, q.Turn i entry r ∧ r.Excluding id table initial (l ++ entry) := by
  obtain ⟨i, act, next, at_i, rfl⟩ := step.exists_turn
  obtain ⟨entry, turn, excluding⟩ := h.turn at_i
  exact ⟨i, entry, turn, excluding⟩

/-- Any number of steps leave a ledger in which clients exclude each other. -/
theorem steps {p : Pool (Shared S P) α} (h : p.Excluding id table initial []) (steps : p.Steps q) :
    ∃ l, p.Run l q ∧ q.Excluding id table initial l := by
  induction steps with
  | refl => exact ⟨[], .start, h⟩
  | tail _ step ih =>
    obtain ⟨l, run, excluding⟩ := ih
    obtain ⟨i, entry, turn, excluding'⟩ := excluding.step step
    exact ⟨l ++ entry, run.turn turn, excluding'⟩

/-- No two clients hold a lock. -/
theorem alone (h : q.Excluding id table initial l) {i j : Nat} {lock lock' : Lock}
    (has : holder (l.of i) = some lock) (has' : holder (l.of j) = some lock') : i = j := by
  obtain ⟨hand, exclusive⟩ := h.exclusive
  have same := (exclusive.holder_of_iff.1 has).symm.trans (exclusive.holder_of_iff.1 has')
  exact (Prod.mk.inj (Option.some.inj same)).1

/-- While a client has the lock, no step of another one changes the engine. -/
theorem undisturbed (h : q.Excluding id table initial l) {lock : Lock}
    (has : holder (l.of i) = some lock) {j : Nat} (other : j ≠ i) {entry : Ledger S}
    (turn : q.Turn j entry r) : r.state.engine = q.state.engine := by
  obtain ⟨procs, act, next, s, at_j, rfl, rfl⟩ : ∃ procs act next s,
      procs[j]? = some (.step act next) ∧ q = ⟨s, procs⟩ ∧
        r = ⟨act s, procs.set j (next s)⟩ := by
    cases turn with
    | aside at_j _ s | call at_j _ s => exact ⟨_, _, _, s, at_j, rfl, rfl⟩
  have obeys := h.obeys j _ at_j
  generalize stands : l.standing j = σ at obeys
  cases obeys with
  | aside spares rest => exact spares s
  | acquires makes busy taken =>
    have held : s.engine.held ≠ none := fun free ↦ by
      have := h.free_iff.1 free i
      rw [has] at this
      nomatch this
    exact (makes s).trans (congrArg Prod.snd (Engine.perform_acquire_busy held))
  | enters | releases => exact absurd (h.alone (Ledger.standing_inside_iff.1 stands) has) other

end Excluding

/-! ### Runs come to an end -/

section Ends

variable {σ : Type}

/-- One of the computations has made a step. -/
inductive Fewer : List (Proc σ α) → List (Proc σ α) → Prop
  | turn (s : σ) (before after : List (Proc σ α)) (act : σ → σ) (next : σ → Proc σ α) :
    Fewer (before ++ next s :: after) (before ++ .step act next :: after)

theorem fewer_cons {p : Proc σ α} {ps qs : List (Proc σ α)} (h : Fewer qs (p :: ps)) :
    (∃ act next s, p = .step act next ∧ qs = next s :: ps) ∨
      ∃ ps', qs = p :: ps' ∧ Fewer ps' ps := by
  generalize same : p :: ps = all at h
  cases h with
  | turn s before after act next =>
    cases before with
    | nil =>
      obtain ⟨rfl, rfl⟩ := List.cons.inj same
      exact .inl ⟨act, next, s, rfl, rfl⟩
    | cons first before =>
      obtain ⟨rfl, rfl⟩ := List.cons.inj same
      exact .inr ⟨before ++ next s :: after, rfl, .turn s before after act next⟩

/-- Computations cannot go on for ever, in whatever order they make their steps: the induction is on
the first of them, and for each on what the others have left. -/
theorem acc_fewer (ps : List (Proc σ α)) : Acc Fewer ps := by
  induction ps with
  | nil =>
    refine .intro _ fun qs h ↦ ?_
    generalize same : ([] : List (Proc σ α)) = all at h
    cases h with
    | turn => simp at same
  | cons p ps rest =>
    induction p generalizing ps with
    | done a =>
      induction rest with
      | intro ps _ ih =>
        refine .intro _ fun qs h ↦ ?_
        rcases fewer_cons h with ⟨act, next, s, ⟨⟩, -⟩ | ⟨ps', rfl, fewer⟩
        exact ih ps' fewer
    | step act next first =>
      induction rest with
      | intro ps acc ih =>
        refine .intro _ fun qs h ↦ ?_
        rcases fewer_cons h with ⟨act, next, s, ⟨⟩, rfl⟩ | ⟨ps', rfl, fewer⟩
        · exact first s ps (.intro ps acc)
        · exact ih ps' fewer

/-- No run goes on for ever. -/
theorem acc_step (q : Pool σ α) : Acc (fun r q : Pool σ α ↦ q.Step r) q := by
  refine Subrelation.accessible ?_ (InvImage.accessible Pool.procs (acc_fewer q.procs))
  rintro r q ⟨s, before, after, act, next⟩
  exact .turn s before after act next

/-- Where a run cannot go on, all have ended. -/
theorem ended_of_no_step {q : Pool σ α} (h : ∀ r, ¬ q.Step r) :
    ∀ p ∈ q.procs, ∃ a, p = .done a := by
  obtain ⟨s, procs⟩ := q
  intro p mem
  cases p with
  | done a => exact ⟨a, rfl⟩
  | step act next =>
    obtain ⟨before, after, rfl⟩ := List.append_of_mem mem
    exact absurd (.turn s before after act next) (h _)

/-! ### Schedules -/

/-- The computation `i` makes its next step, if it has one. -/
def next (q : Pool σ α) (i : Nat) : Pool σ α :=
  match q.procs[i]? with
  | some (.step act next) => ⟨act q.state, q.procs.set i (next q.state)⟩
  | _ => q

def after (q : Pool σ α) (turns : List Nat) : Pool σ α := turns.foldl next q

/-- A turn is a step, or it is one of a computation that has ended and changes nothing. -/
theorem next_cases (q : Pool σ α) (i : Nat) : q.next i = q ∨ q.Step (q.next i) := by
  obtain ⟨s, procs⟩ := q
  unfold next
  cases at_i : procs[i]? with
  | none => exact .inl rfl
  | some p =>
    cases p with
    | done a => exact .inl rfl
    | step act next =>
      obtain ⟨lt, found⟩ := List.getElem?_eq_some_iff.1 at_i
      have split (x : Proc σ α) : procs.set i x = procs.take i ++ x :: procs.drop (i + 1) := by
        rw [List.set_eq_take_append_cons_drop, if_pos lt]
      have before := split procs[i]
      rw [List.set_getElem_self, found] at before
      refine .inr ?_
      show Step ⟨s, procs⟩ ⟨act s, procs.set i (next s)⟩
      rw [split]
      conv => lhs; rw [before]
      exact .turn ..

theorem Steps.after {p q : Pool σ α} (h : p.Steps q) (turns : List Nat) :
    p.Steps (q.after turns) := by
  induction turns generalizing q with
  | nil => exact h
  | cons i more ih =>
    rcases q.next_cases i with same | step
    · exact ih (same.symm ▸ h)
    · exact ih (h.tail step)

end Ends
end Pool

/-! ### The statement -/

section Statement

variable [DecidableEq S]

/-- What holds at any moment of a pool whose clients have entered `l` into the ledger. -/
structure MutualExclusion (id : Nat) (table : TransitionTable S) (initial : S) (l : Ledger S)
    (q : Pool (Shared S P) α) : Prop where
  /-- One client at most is between its acquire and its release. -/
  alone : ∀ (i j : Nat) (lock lock' : Lock), holder (l.of i) = some lock →
    holder (l.of j) = some lock' → i = j
  /-- Such a client has the current lock, and if there is none, the lock is free. -/
  current : ∀ lock, q.state.engine.isCurrent lock = true ↔ ∃ i, holder (l.of i) = some lock
  free : q.state.engine.held = none ↔ ∀ i, holder (l.of i) = none
  /-- Every step is the turn of one client. -/
  turns : ∀ r, q.Step r → ∃ i entry, q.Turn i entry r
  /-- No step of another client changes the engine. -/
  undisturbed : ∀ (i : Nat) (lock : Lock), holder (l.of i) = some lock →
    ∀ (j : Nat) entry r, j ≠ i → q.Turn j entry r → r.state.engine = q.state.engine
  /-- A client makes transitions, and gives back the lock, only while it has it. -/
  own : ∀ (earlier later : Ledger S) (i : Nat) (d : Deed S) (lock : Lock),
    l = earlier ++ (i, d) :: later → d.lock? = some lock → holder (earlier.of i) = some lock
  /-- No transition fails for its lock, and no release is in vain. -/
  valid : ∀ (i : Nat) (d : Deed S) (lock : Lock), (i, d) ∈ l →
    d ≠ .refused lock .invalidLock ∧ d ≠ .ignored lock
  /-- A client takes the lock once at most, and gives it back once at most. -/
  once : ∀ i, (handedOut (l.of i)).length ≤ 1 ∧
    handedOut (l.of i) = givenBack (l.of i) ++ (holder (l.of i)).toList
  /-- Whoever has ended has given back the lock that it has taken. -/
  ended : ∀ (i : Nat) (a : α), q.procs[i]? = some (.done a) →
    givenBack (l.of i) = handedOut (l.of i)
  /-- Locks are taken in the order of their generations. -/
  generations : l.acquisitions.map (·.2) = locksOf id l.acquisitions.length
  /-- The transitions of the engine are those of one client after the other, in this order. -/
  serial : moves l.deeds = l.acquisitions.flatMap fun x ↦ moves (l.of x.1)
  journey : table.Journey initial (moves l.deeds) q.state.engine.current
  last : q.state.engine.last = (moves l.deeds).getLast?
  /-- When all have ended the lock is free. -/
  settled : (∀ p ∈ q.procs, ∃ a, p = .done a) → q.state.engine.isLocked = false
  /-- This comes to pass, whoever takes the turns. -/
  ends : Acc (fun r q : Pool (Shared S P) α ↦ q.Step r) q ∧
    ((∀ r, ¬ q.Step r) → ∀ p ∈ q.procs, ∃ a, p = .done a)

/-- Clients that exclude each other in the ledger do so in every respect. -/
theorem Pool.Excluding.mutualExclusion {id : Nat} {table : TransitionTable S} {initial : S}
    {l : Ledger S} {q : Pool (Shared S P) α} (h : q.Excluding id table initial l) :
    MutualExclusion id table initial l q := by
  obtain ⟨hand, exclusive⟩ := h.exclusive
  refine
    { alone := fun i j lock lock' ↦ h.alone
      current := fun lock ↦ h.isCurrent_iff
      free := h.free_iff
      turns := ?turns
      undisturbed := fun i lock has j entry r other ↦ h.undisturbed has other
      own := ?own
      valid := fun i d lock mem ↦ exclusive.valid mem lock
      once := fun i ↦ ⟨exclusive.once i, exclusive.balanced i⟩
      ended := ?ended
      generations := ?generations
      serial := exclusive.serial
      journey := h.account.journey
      last := h.account.last_eq
      settled := ?settled
      ends := ⟨acc_step q, ended_of_no_step⟩ }
  case turns =>
    intro r step
    obtain ⟨i, entry, turn, -⟩ := h.step step
    exact ⟨i, entry, turn⟩
  case own =>
    rintro earlier later i d lock rfl shown
    exact exclusive.own shown
  case ended =>
    intro i a at_i
    rw [exclusive.balanced i, h.holder_of_done at_i]
    exact (List.append_nil _).symm
  case generations =>
    rw [l.map_acquisitions, h.account.handedOut_eq, ← l.map_acquisitions, List.length_map]
  case settled =>
    intro done
    have free : q.state.engine.held = none := by
      refine h.free_iff.2 fun i ↦ Option.eq_none_iff_forall_ne_some.2 fun lock has ↦ ?_
      have at_i := List.getElem?_eq_getElem (h.numbered i lock has)
      obtain ⟨a, same⟩ := done _ (List.getElem_mem (h.numbered i lock has))
      rw [same] at at_i
      rw [h.holder_of_done at_i] at has
      nomatch has
    simp [Engine.isLocked, free]

/-- Clients that have done nothing exclude each other. -/
theorem Client.excluding (id : Nat) (table : TransitionTable S) (initial : S) (counters : Counters)
    (now : Timestamp) (payload : P) (clients : List (Client S P α)) :
    (pool clients ⟨.start id table initial, counters, now, payload⟩).Excluding id table initial []
    where
  account := Engine.start_account id table initial
  exclusive := ⟨none, .nil⟩
  obeys i p at_i := by
    obtain ⟨client, -, rfl⟩ := Option.map_eq_some_iff.1 (List.getElem?_map ▸ at_i)
    exact client.obeys
  numbered i lock has := nomatch has

/-- Guarded operations on one engine exclude each other, in whatever way their steps are
interleaved. -/
theorem guarded_mutual_exclusion (id : Nat) (table : TransitionTable S) (initial : S)
    (counters : Counters) (now : Timestamp) (payload : P) (clients : List (Client S P α))
    (q : Pool (Shared S P) Unit)
    (run : (Client.pool clients ⟨.start id table initial, counters, now, payload⟩).Steps q) :
    ∃ l, (Client.pool clients ⟨.start id table initial, counters, now, payload⟩).Run l q ∧
      MutualExclusion id table initial l q := by
  have start := Client.excluding id table initial counters now payload clients
  obtain ⟨l, entered, excluding⟩ := start.steps run
  exact ⟨l, entered, excluding.mutualExclusion⟩

end Statement

/-! ### Three clients -/

def trioTable : TransitionTable Nat := .ofList [(1, [0, 2]), (2, [1]), (3, [1])]

def Beside.nothing (a : α) : Beside S P α := ⟨.done a, .done a⟩

def Client.begins (ending : Ending Nat Unit Unit) : Client Nat Unit Unit :=
  .operation ⟨1, 2, 3⟩ (.start ending)

/-- The first client succeeds; the others give up their operations when they are at work. -/
def Client.trio : List (Client Nat Unit Unit) :=
  [begins (.run (.nothing (.returned ((), none))) fun _ ↦ .nothing ()),
    begins (.drop (.nothing ())), begins (.drop (.nothing ()))]

/-- The second client asks for the lock when the first one has settled and not given it back. -/
theorem trio_exclude :
    ∃ q, (Client.pool Client.trio ⟨.start 0 trioTable 0, {}, .epoch, ()⟩).Steps q ∧
      q.state.engine.current = 3 ∧ q.state.engine.isLocked = false ∧
      ∃ l, (Client.pool Client.trio ⟨.start 0 trioTable 0, {}, .epoch, ()⟩).Run l q ∧
        MutualExclusion 0 trioTable 0 l q := by
  have run := (Pool.Steps.refl (Client.pool Client.trio
    ⟨.start 0 trioTable 0, {}, .epoch, ()⟩)).after [0, 0, 0, 0, 0, 1, 0, 2, 2, 2, 2, 2]
  exact ⟨_, run, rfl, rfl, guarded_mutual_exclusion 0 trioTable 0 {} .epoch () Client.trio _ run⟩

end Rollout
