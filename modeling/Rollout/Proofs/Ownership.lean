import Rollout.Proofs.EngineCalls

/-!
# The protocol of the lock

A computation that works under the lock of an engine takes it, changes the engine only while it
holds it, and gives it back.  `Proc.Obeys` says so of a computation on its own, step by step,
whatever others do between its steps: it relates the standing with which the computation begins, the
computation, and what is known of its result and its standing at the end.  There is one rule for
sequences, `Obeys.bind`, and for each operation of the library a statement that says from where to
where it leads, `Proc.Leads`.

What a computation that obeys leaves behind when nobody interferes is in `Obeys.passes`: at each
moment the engine is as at the beginning, or locked, or as at the end.
-/

namespace Rollout

variable {S P α β : Type}

/-- Where a computation stands towards the lock. -/
inductive Standing where
  /-- It has not asked for the lock yet. -/
  | outside
  | inside (lock : Lock)
  /-- It has given the lock back, or did not get it. -/
  | past
  deriving DecidableEq, Repr

/-- Where a computation stands that has got something with the lock, or has failed. -/
def Standing.after {ε : Type} (lock : α → Lock) : Except ε α → Standing
  | .ok a => inside (lock a)
  | .error _ => past

/-- The step leaves the engine alone. -/
def Shared.Spares (act : Shared S P → Shared S P) : Prop := ∀ s, (act s).engine = s.engine

/-- The step makes a call on the engine, which may depend on the time. -/
def Shared.Makes [DecidableEq S] (act : Shared S P → Shared S P) (c : Timestamp → EngineCall S) :
    Prop :=
  ∀ s, (act s).engine = (s.engine.perform (c s.now)).2

namespace Proc

/-- The computation leaves the engine alone. -/
inductive Aside : Proc (Shared S P) α → Prop where
  | done (a : α) : Aside (.done a)
  | step {act : Shared S P → Shared S P} {next : Shared S P → Proc (Shared S P) α}
      (spares : Shared.Spares act) (rest : ∀ s, Aside (next s)) : Aside (.step act next)

/-- The computation obeys the protocol from a standing on, and ends as `Q` says. -/
inductive Obeys [DecidableEq S] (Q : α → Standing → Prop) :
    Standing → Proc (Shared S P) α → Prop where
  | done {σ : Standing} {a : α} (post : Q a σ) : Obeys Q σ (.done a)
  | aside {σ : Standing} {act : Shared S P → Shared S P}
      {next : Shared S P → Proc (Shared S P) α} (spares : Shared.Spares act)
      (rest : ∀ s, Obeys Q σ (next s)) : Obeys Q σ (.step act next)
  | acquires {act : Shared S P → Shared S P} {next : Shared S P → Proc (Shared S P) α}
      (makes : Shared.Makes act fun _ ↦ .acquire)
      (busy : ∀ s, s.engine.held ≠ none → Obeys Q .past (next s))
      (taken : ∀ s, s.engine.held = none → Obeys Q (.inside s.engine.nextLock) (next s)) :
      Obeys Q .outside (.step act next)
  | enters {lock : Lock} {target : S} {act : Shared S P → Shared S P}
      {next : Shared S P → Proc (Shared S P) α} (makes : Shared.Makes act (.transition lock target))
      (rest : ∀ s, Obeys Q (.inside lock) (next s)) : Obeys Q (.inside lock) (.step act next)
  | releases {lock : Lock} {act : Shared S P → Shared S P}
      {next : Shared S P → Proc (Shared S P) α} (makes : Shared.Makes act fun _ ↦ .release lock)
      (rest : ∀ s, Obeys Q .past (next s)) : Obeys Q (.inside lock) (.step act next)

/-! ### Leaving the engine alone -/

theorem Aside.bind {p : Proc (Shared S P) α} {k : α → Proc (Shared S P) β} (h : p.Aside)
    (rest : ∀ a, (k a).Aside) : (p >>= k).Aside := by
  show (p.bind k).Aside
  induction h with
  | done a => exact rest a
  | step spares _ ih => exact .step spares ih

theorem aside_read (f : Shared S P → α) : (read f).Aside := .step (fun _ ↦ rfl) fun _ ↦ .done _

theorem aside_modify {f : Shared S P → Shared S P} (h : Shared.Spares f) : (modify f).Aside :=
  .step h fun _ ↦ .done _

section Rules

variable [DecidableEq S] {Q : α → Standing → Prop} {R : β → Standing → Prop} {σ : Standing}
  {p : Proc (Shared S P) α}

/-- Whoever leaves the engine alone obeys the lock, wherever it stands. -/
theorem Aside.obeys (h : p.Aside) (post : ∀ a, Q a σ) : p.Obeys Q σ := by
  induction h with
  | done a => exact .done (post a)
  | step spares _ ih => exact .aside spares ih

/-- A sequence obeys if its second part goes on from where the first one ends. -/
theorem Obeys.bind {k : α → Proc (Shared S P) β} (h : p.Obeys Q σ)
    (rest : ∀ a σ', Q a σ' → (k a).Obeys R σ') : (p >>= k).Obeys R σ := by
  show (p.bind k).Obeys R σ
  induction h with
  | done post => exact rest _ _ post
  | aside spares _ ih => exact .aside spares ih
  | acquires makes _ _ busy taken => exact .acquires makes busy taken
  | enters makes _ ih => exact .enters makes ih
  | releases makes _ ih => exact .releases makes ih

theorem Obeys.mono {R : α → Standing → Prop} (h : p.Obeys Q σ) (le : ∀ a σ', Q a σ' → R a σ') :
    p.Obeys R σ := by
  induction h with
  | done post => exact .done (le _ _ post)
  | aside spares _ ih => exact .aside spares ih
  | acquires makes _ _ busy taken => exact .acquires makes busy taken
  | enters makes _ ih => exact .enters makes ih
  | releases makes _ ih => exact .releases makes ih

/-- The computation obeys the protocol, and its result tells where it stands at the end. -/
def Leads (p : Proc (Shared S P) α) (σ : Standing) (σ' : α → Standing) : Prop :=
  p.Obeys (fun a τ ↦ τ = σ' a) σ

variable {σ' : α → Standing} {k : α → Proc (Shared S P) β}

/-- A computation that leads to where the next one begins may come before it. -/
theorem Leads.then (h : p.Leads σ σ') (rest : ∀ a, (k a).Obeys R (σ' a)) :
    (p >>= k).Obeys R σ := by
  refine Obeys.bind h ?_
  rintro a _ rfl
  exact rest a

theorem Leads.obeys (h : p.Leads σ σ') (post : ∀ a, Q a (σ' a)) : p.Obeys Q σ := by
  refine Obeys.mono h ?_
  rintro a _ rfl
  exact post a

theorem Aside.leads (h : p.Aside) (σ : Standing) : p.Leads σ fun _ ↦ σ := h.obeys fun _ ↦ rfl

/-- First something beside the engine, then what obeys. -/
theorem Aside.then (h : p.Aside) (rest : ∀ a, (k a).Obeys R σ) : (p >>= k).Obeys R σ :=
  (h.leads σ).then rest

end Rules
end Proc

/-! ### Operations -/

theorem Shared.aside_tally (t : Tally) : (Shared.tally t : Proc (Shared S P) Unit).Aside :=
  Proc.aside_modify fun _ ↦ rfl

section Operations

variable [DecidableEq S]

theorem Shared.makes_enter (lock : Lock) (target : S) :
    Shared.Makes (fun s : Shared S P ↦ match s.engine.transition lock target s.now with
      | .ok e => { s with engine := e }
      | .error _ => s) (.transition lock target) := by
  intro s
  simp only [Engine.perform]
  cases s.engine.transition lock target s.now <;> rfl

theorem Shared.enter_leads (lock : Lock) (target : S) :
    (enter lock target : Proc (Shared S P) _).Leads (.inside lock) fun _ ↦ .inside lock :=
  .enters (makes_enter lock target) fun _ ↦ .done rfl

/-- The finalizer gives the lock back. -/
theorem Shared.finalize_leads (lock : Lock) (target : S) :
    (finalize lock target : Proc (Shared S P) Unit).Leads (.inside lock) fun _ ↦ .past :=
  (enter_leads lock target).then fun _ ↦ .releases (fun _ ↦ rfl) fun _ ↦ .done rfl

namespace Guarded

theorem acquire_leads (stages : Stages S) :
    (acquire stages : Proc (Shared S P) _).Leads .outside (.after Guarded.lock) := by
  refine .acquires ?_ ?_ ?_
  · intro s
    simp only [Engine.perform]
    cases s.engine.acquire <;> rfl
  · intro s held
    refine .done ?_
    simp only [Engine.acquire_busy held]
    rfl
  · intro s free
    refine .done ?_
    simp only [Engine.acquire_free free]
    rfl

variable (g : Guarded S)

theorem transition_leads (target : S) :
    (g.transition target : Proc (Shared S P) _).Leads (.inside g.lock) fun _ ↦ .inside g.lock :=
  (Shared.enter_leads g.lock target).then fun _ ↦ .done rfl

theorem drop_leads : (g.drop : Proc (Shared S P) Unit).Leads (.inside g.lock) fun _ ↦ .past :=
  Shared.finalize_leads ..

/-- A start goes on with the lock, or it gives it back. -/
theorem start_leads :
    (g.start : Proc (Shared S P) _).Leads (.inside g.lock) (.after Running.lock) := by
  refine (g.transition_leads _).then ?_
  rintro (e | u)
  · exact (Shared.aside_tally _).then fun _ ↦ g.drop_leads.then fun _ ↦ .done rfl
  · exact (Shared.aside_tally _).then fun _ ↦ .done rfl

end Guarded

namespace Running

variable (r : Running S) {report : Except (OperationError S) α → Proc (Shared S P) Unit}

theorem drop_leads : (r.drop : Proc (Shared S P) Unit).Leads (.inside r.lock) fun _ ↦ .past :=
  Shared.finalize_leads ..

/-- The end of an operation gives the lock back, whatever the outcome. -/
theorem conclude_leads (outcome : Outcome (α × Option S)) (reports : ∀ x, (report x).Aside) :
    (r.conclude outcome report).Leads (.inside r.lock) fun _ ↦ .past :=
  (Shared.aside_tally _).then fun _ ↦ (reports _).then fun _ ↦
    (Shared.finalize_leads ..).then fun _ ↦ .done rfl

/-- An operation whose work leaves the engine alone gives the lock back. -/
theorem run_leads {work : Proc (Shared S P) (Outcome (α × Option S))} (works : work.Aside)
    (reports : ∀ x, (report x).Aside) :
    (r.run work report).Leads (.inside r.lock) fun _ ↦ .past :=
  works.then fun outcome ↦ r.conclude_leads outcome reports

end Running
end Operations

/-! ### Runs -/

namespace Proc

/-- The run of a computation from `s` comes by `t`. -/
inductive Passes {σ : Type} : Proc σ α → σ → σ → Prop where
  | start (p : Proc σ α) (s : σ) : Passes p s s
  | step {act : σ → σ} {next : σ → Proc σ α} {s t : σ} (rest : Passes (next s) (act s) t) :
      Passes (.step act next) s t

/-- Where the engine is as at a moment at which a lock is current, it is locked. -/
theorem held_or_of_current {e now final : Engine S} {lock : Lock}
    (current : e.isCurrent lock = true)
    (h : now = e ∨ now.held ≠ none ∨ now = final) : now.held ≠ none ∨ now = final := by
  rcases h with rfl | rest
  · exact .inl (Engine.held_ne_none current)
  · exact rest

theorem passes_run {σ : Type} (p : Proc σ α) (s : σ) : p.Passes s (p.run s).2 := by
  induction p generalizing s with
  | done a => exact .start _ s
  | step act next ih => exact .step (ih s (act s))

variable [DecidableEq S] {Q : α → Standing → Prop} {σ : Standing} {p : Proc (Shared S P) α}
  {s t : Shared S P}

/-- Nobody who obeys changes the table. -/
theorem Obeys.table_eq (h : p.Obeys Q σ) (passes : p.Passes s t) :
    t.engine.table = s.engine.table := by
  induction h generalizing s with
  | done =>
    cases passes
    rfl
  | aside spares _ ih =>
    cases passes with
    | start => rfl
    | step rest => rw [ih _ rest, spares s]
  | acquires makes _ _ busy taken =>
    cases passes with
    | start => rfl
    | step rest =>
      rw [← Engine.table_perform s.engine .acquire, ← makes s]
      by_cases free : s.engine.held = none
      · exact taken s free rest
      · exact busy s free rest
  | enters makes _ ih =>
    cases passes with
    | start => rfl
    | step rest => rw [ih _ rest, makes s, Engine.table_perform]
  | releases makes _ ih =>
    cases passes with
    | start => rfl
    | step rest => rw [ih _ rest, makes s, Engine.table_perform]

/-- Whoever is past the lock leaves the engine alone. -/
theorem Obeys.engine_of_past (h : p.Obeys Q .past) (passes : p.Passes s t) :
    t.engine = s.engine := by
  generalize past : Standing.past = σ at h
  induction h generalizing s with
  | done =>
    cases passes
    rfl
  | aside spares _ ih =>
    cases passes with
    | start => rfl
    | step rest => exact (ih _ rest past).trans (spares s)
  | acquires | enters | releases => nomatch past

/-- As long as nobody interferes, the engine is as at the beginning, or locked, or as at the end:
from the acquire on the lock is current, and from the release on nothing changes any more. -/
theorem Obeys.passes (h : p.Obeys Q σ)
    (current : ∀ lock, σ = .inside lock → s.engine.isCurrent lock = true) (passes : p.Passes s t) :
    t.engine = s.engine ∨ t.engine.held ≠ none ∨ t.engine = (p.run s).2.engine := by
  induction h generalizing s with
  | done =>
    cases passes
    exact .inl rfl
  | aside spares _ ih =>
    cases passes with
    | start => exact .inl rfl
    | step rest =>
      rw [← spares s]
      exact ih s (fun lock inside ↦ by rw [spares s]; exact current lock inside) rest
  | @acquires act next makes _ _ busy taken =>
    cases passes with
    | start => exact .inl rfl
    | step rest =>
      by_cases free : s.engine.held = none
      · have acted : (act s).engine = s.engine.taken := by
          rw [makes s, Engine.perform_acquire_free free]
        have here : (act s).engine.isCurrent s.engine.nextLock = true := by
          rw [acted]
          exact s.engine.isCurrent_taken
        exact .inr (held_or_of_current here (taken s free (by rintro lock ⟨⟩; exact here) rest))
      · have acted : (act s).engine = s.engine := by
          rw [makes s, Engine.perform_acquire_busy free]
        rw [← acted]
        exact busy s free (by rintro _ ⟨⟩) rest
  | @enters lock target act next makes _ ih =>
    have here := current lock rfl
    cases passes with
    | start => exact .inl rfl
    | step rest =>
      have here' : (act s).engine.isCurrent lock = true := by
        rw [makes s]
        exact Engine.isCurrent_perform_transition here target s.now
      exact .inr (held_or_of_current here' (ih s (by rintro lock ⟨⟩; exact here') rest))
  | @releases lock act next makes rest _ =>
    cases passes with
    | start => exact .inl rfl
    | step passes =>
      have here := (rest s).engine_of_past passes
      have final := (rest s).engine_of_past (passes_run (next s) (act s))
      exact .inr (.inr (here.trans final.symm))

end Proc
end Rollout
