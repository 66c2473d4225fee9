import Rollout.Proofs.Interleaving
import Rollout.Proofs.Ownership

/-!
# Tenures of the lock

The lock of an engine protects the state, and whatever else is changed only by those who hold it.
`Core` is what the lock protects, and a `Tenure` tells where a client stands towards the lock and
what it knows about the core: while it holds the lock, the core as it found it and as it has left it
so far, and afterwards what it has made of it.

`Proc.Guards` is the discipline of such clients (`Interleaving`).  Each operation of the library
says in one statement what it answers and where it leads, `Proc.Takes`; the answer is known because
the core is.
-/

namespace Rollout

variable {S P D C α β : Type}

/-! ### What the lock protects -/

/-- The table and the state of an engine, and a part of what is kept beside it. -/
structure Core (S D : Type) where
  table : TransitionTable S
  current : S
  data : D

/-- The part that the lock protects. -/
def Shared.core (data : P → D) (s : Shared S P) : Core S D :=
  ⟨s.engine.table, s.engine.current, data s.payload⟩

namespace Core

variable [DecidableEq S] (c : Core S D) (target : S)

/-- The table allows to enter `target`. -/
def can : Bool := c.table.allows c.current target

def entered : Core S D := if c.can target then { c with current := target } else c

/-- What an attempted transition comes to. -/
def tries : Except (EngineError S) Unit :=
  if c.can target then .ok () else .error (.invalidTransition c.current target)

variable {c target}

theorem entered_of_can (h : c.can target = true) :
    c.entered target = { c with current := target } := if_pos h

theorem entered_of_cannot (h : c.can target = false) : c.entered target = c :=
  if_neg (by simp [h])

theorem tries_of_can (h : c.can target = true) : c.tries target = .ok () := if_pos h

theorem tries_of_cannot (h : c.can target = false) :
    c.tries target = .error (.invalidTransition c.current target) := if_neg (by simp [h])

@[simp] theorem data_entered (c : Core S D) (target : S) : (c.entered target).data = c.data := by
  unfold entered
  split <;> rfl

end Core

/-! ### The discipline -/

/-- Where a client stands towards the lock, and what it knows about the core. -/
inductive Tenure (C : Type) where
  /-- It has not asked for the lock yet. -/
  | outside
  /-- It has found the core as `first`, and it is now `now`. -/
  | inside (lock : Lock) (first now : C)
  /-- It has found the core as `first` and left it as `last`. -/
  | past (lock : Lock) (first last : C)
  /-- It did not get the lock. -/
  | refused

namespace Tenure

def lock? : Tenure C → Option Lock
  | inside lock .. => some lock
  | _ => none

/-- Whoever has the lock knows the core. -/
def Knows (view : Shared S P → C) : Tenure C → Shared S P → Prop
  | inside lock _ now, s => view s = now ∧ s.engine.isCurrent lock = true
  | _, _ => True

/-- The steps of a client: the core is changed only while it has the lock. -/
inductive Allows [DecidableEq S] (view : Shared S P → C) (act : Shared S P → Shared S P)
    (s : Shared S P) : Tenure C → Tenure C → Prop
  | aside {τ : Tenure C} (spares : Shared.Spares act) (keeps : view (act s) = view s) :
      Allows view act s τ τ
  | writes {lock : Lock} {first now : C} (spares : Shared.Spares act) :
      Allows view act s (inside lock first now) (inside lock first (view (act s)))
  | busy (makes : Shared.Makes act fun _ ↦ .acquire) (keeps : view (act s) = view s)
      (held : s.engine.held ≠ none) : Allows view act s outside refused
  | takes (makes : Shared.Makes act fun _ ↦ .acquire) (keeps : view (act s) = view s)
      (free : s.engine.held = none) :
      Allows view act s outside (inside s.engine.nextLock (view s) (view s))
  | enters {lock : Lock} {first now : C} {target : S}
      (makes : Shared.Makes act (.transition lock target)) :
      Allows view act s (inside lock first now) (inside lock first (view (act s)))
  | releases {lock : Lock} {first now : C} (makes : Shared.Makes act fun _ ↦ .release lock)
      (keeps : view (act s) = view s) :
      Allows view act s (inside lock first now) (past lock first now)

def discipline [DecidableEq S] (view : Shared S P → C) : Discipline (Shared S P) (Tenure C) where
  Knows := Knows view
  Allows τ act s τ' := Allows view act s τ τ'

end Tenure

namespace Proc

variable [DecidableEq S] {data : P → D} {Q : α → Tenure (Core S D) → Prop}
  {R : β → Tenure (Core S D) → Prop} {τ τ' : Tenure (Core S D)} {lock : Lock}
  {first now now' : Core S D} {p : Proc (Shared S P) α} {a : α}

/-- The computation changes the core only while it has the lock, and ends as `Q` says. -/
def Guards (data : P → D) (Q : α → Tenure (Core S D) → Prop) (τ : Tenure (Core S D))
    (p : Proc (Shared S P) α) : Prop :=
  p.Follows (Tenure.discipline (Shared.core data)) Q τ

/-- The computation answers `a` and leads from one tenure to another. -/
def Takes (data : P → D) (p : Proc (Shared S P) α) (τ : Tenure (Core S D)) (a : α)
    (τ' : Tenure (Core S D)) : Prop :=
  p.Guards data (fun b τ'' ↦ b = a ∧ τ'' = τ') τ

/-- Two computations that guard the core are one that does. -/
theorem Guards.bind {k : α → Proc (Shared S P) β} (h : p.Guards data Q τ)
    (rest : ∀ a τ', Q a τ' → (k a).Guards data R τ') : (p >>= k).Guards data R τ :=
  Follows.bind h rest

theorem guards_pure (post : Q a τ) : (pure a : Proc (Shared S P) α).Guards data Q τ := .done post

theorem takes_pure (a : α) : (pure a : Proc (Shared S P) α).Takes data τ a τ := .done ⟨rfl, rfl⟩

/-- A computation whose tenure is known may come before another one. -/
theorem Takes.then {k : α → Proc (Shared S P) β} (h : p.Takes data τ a τ')
    (rest : (k a).Guards data R τ') : (p >>= k).Guards data R τ := by
  refine Guards.bind h ?_
  rintro _ _ ⟨rfl, rfl⟩
  exact rest

theorem Takes.guards (h : p.Takes data τ a τ') (post : Q a τ') : p.Guards data Q τ := by
  refine Follows.mono h ?_
  rintro _ _ ⟨rfl, rfl⟩
  exact post

/-- A step beside the core. -/
theorem takes_modify {f : Shared S P → Shared S P} (spares : Shared.Spares f)
    (keeps : ∀ s, data (f s).payload = data s.payload) :
    (modify f).Takes data τ () τ := by
  refine follows_change (fun _ ↦ τ) (fun s _ ↦ .aside spares ?_) fun _ _ ↦ ⟨rfl, rfl⟩
  unfold Shared.core
  rw [spares s, keeps s]

/-- Whoever has the lock changes what it protects. -/
theorem takes_write {f : Shared S P → Shared S P} (spares : Shared.Spares f)
    (writes : ∀ s, Shared.core data s = now → Shared.core data (f s) = now') :
    (modify f).Takes data (.inside lock first now) () (.inside lock first now') := by
  refine follows_change (fun s ↦ .inside lock first (Shared.core data (f s)))
    (fun s _ ↦ .writes spares) fun s knows ↦ ⟨rfl, ?_⟩
  rw [writes s knows.1]

/-- Whoever has the lock knows what it protects. -/
theorem takes_read {f : Shared S P → α} (reads : ∀ s, Shared.core data s = now → f s = a) :
    (read f).Takes data (.inside lock first now) a (.inside lock first now) :=
  follows_change (fun _ ↦ .inside lock first now) (fun _ _ ↦ .aside (fun _ ↦ rfl) rfl)
    fun s knows ↦ ⟨reads s knows.1, rfl⟩

end Proc

/-! ### Operations -/

section Operations

open Proc

variable [DecidableEq S] {data : P → D} {Q : α → Tenure (Core S D) → Prop}
  {τ : Tenure (Core S D)} {lock : Lock} {first now : Core S D}

namespace Shared

theorem tally_takes (t : Tally) : (tally t : Proc (Shared S P) Unit).Takes data τ () τ :=
  takes_modify (fun _ ↦ rfl) fun _ ↦ rfl

/-- A transition with the lock in hand changes the core as the table allows. -/
theorem enter_takes (lock : Lock) (first now : Core S D) (target : S) :
    (enter lock target : Proc (Shared S P) _).Takes data (.inside lock first now)
      (now.tries target) (.inside lock first (now.entered target)) := by
  have ran (s : Shared S P) (knows : Tenure.Knows (core data) (.inside lock first now) s) :
      ((enter lock target).run s).1 = now.tries target ∧
        core data ((enter lock target).run s).2 = now.entered target := by
    obtain ⟨rfl, current⟩ := knows
    cases can : (core data s).can target with
    | true =>
      rw [run_enter_ok current can, Core.tries_of_can can, Core.entered_of_can can]
      exact ⟨rfl, rfl⟩
    | false =>
      rw [run_enter_refused current can, Core.tries_of_cannot can, Core.entered_of_cannot can]
      exact ⟨rfl, rfl⟩
  refine follows_change (fun _ ↦ .inside lock first (now.entered target)) (fun s knows ↦ ?_)
    fun s knows ↦ ⟨(ran s knows).1, rfl⟩
  rw [← (ran s knows).2]
  exact .enters (makes_enter lock target)

/-- A release ends the tenure with the core as it is. -/
theorem release_takes (lock : Lock) (first now : Core S D) :
    (release lock : Proc (Shared S P) Unit).Takes data (.inside lock first now) ()
      (.past lock first now) := by
  refine follows_change (fun _ ↦ .past lock first now) (fun s _ ↦ .releases (fun _ ↦ rfl) ?_)
    fun _ _ ↦ ⟨rfl, rfl⟩
  show (⟨(s.engine.release lock).table, (s.engine.release lock).current, _⟩ : Core S D) = _
  unfold Engine.release
  split <;> rfl

/-- The finalizer ends the tenure with the core in the closing state. -/
theorem finalize_takes (lock : Lock) (first now : Core S D) (target : S) :
    (finalize lock target : Proc (Shared S P) Unit).Takes data (.inside lock first now) ()
      (.past lock first (now.entered target)) :=
  (enter_takes lock first now target).then (release_takes lock first _)

end Shared

namespace Guarded

/-- Whoever asks for the lock is refused, or finds the core in some way. -/
theorem acquire_guards {stages : Stages S}
    {Q : Except (OperationError S) (Guarded S) → Tenure (Core S D) → Prop}
    (busy : Q (.error (.engine .busy)) .refused)
    (taken : ∀ lock first, Q (.ok ⟨lock, stages⟩) (.inside lock first first)) :
    (acquire stages : Proc (Shared S P) _).Guards data Q .outside := by
  have makes (s : Shared S P) :
      ((acquire stages).run s).2.engine = (s.engine.perform .acquire).2 := by
    simp only [acquire, run_change, Engine.perform]
    cases s.engine.acquire <;> rfl
  refine follows_change (fun s ↦ if s.engine.held = none then
      .inside s.engine.nextLock (Shared.core data s) (Shared.core data s) else .refused)
    (fun s _ ↦ ?_) fun s _ ↦ ?_
  · by_cases free : s.engine.held = none
    · rw [if_pos free]
      refine .takes makes ?_ free
      rw [Engine.acquire_free free]
      rfl
    · rw [if_neg free]
      refine .busy makes ?_ free
      rw [Engine.acquire_busy free]
      rfl
  · by_cases free : s.engine.held = none
    · rw [if_pos free, Engine.acquire_free free]
      exact taken _ _
    · rw [if_neg free, Engine.acquire_busy free]
      exact busy

variable (g : Guarded S)

theorem transition_takes (first now : Core S D) (target : S) :
    (g.transition target : Proc (Shared S P) _).Takes data (.inside g.lock first now)
      ((now.tries target).mapError .engine) (.inside g.lock first (now.entered target)) :=
  (Shared.enter_takes g.lock first now target).then (takes_pure _)

theorem drop_takes (first now : Core S D) :
    (g.drop : Proc (Shared S P) Unit).Takes data (.inside g.lock first now) ()
      (.past g.lock first (now.entered g.stages.failed)) := Shared.finalize_takes ..

/-- A start keeps the lock if the table allows the running state. -/
theorem start_takes_of_can (first : Core S D) {now : Core S D}
    (can : now.can g.stages.running = true) :
    (g.start : Proc (Shared S P) _).Takes data (.inside g.lock first now)
      (.ok ⟨g.lock, g.stages⟩) (.inside g.lock first (now.entered g.stages.running)) := by
  refine (g.transition_takes first now _).then ?_
  rw [Core.tries_of_can can]
  exact (Shared.tally_takes _).then (takes_pure _)

theorem start_takes_of_cannot (first : Core S D) {now : Core S D}
    (cannot : now.can g.stages.running = false) :
    (g.start : Proc (Shared S P) _).Takes data (.inside g.lock first now)
      (.error (.engine (.invalidTransition now.current g.stages.running)))
      (.past g.lock first (now.entered g.stages.failed)) := by
  refine (g.transition_takes first now _).then ?_
  rw [Core.tries_of_cannot cannot, Core.entered_of_cannot cannot]
  exact (Shared.tally_takes _).then ((g.drop_takes first now).then (takes_pure _))

end Guarded

/-- The end of an operation ends the tenure in the settled state. -/
theorem Running.conclude_takes (r : Running S) (first now : Core S D)
    (outcome : Outcome (α × Option S))
    {report : Except (OperationError S) α → Proc (Shared S P) Unit}
    (reports : ∀ x (τ : Tenure (Core S D)), (report x).Takes data τ () τ) :
    (r.conclude outcome report).Takes data (.inside r.lock first now) (outcome.map Prod.fst).result
      (.past r.lock first (now.entered (r.settledState outcome))) :=
  (Shared.tally_takes _).then <| (reports _ _).then <|
    (Shared.finalize_takes ..).then (takes_pure _)

end Operations
end Rollout
