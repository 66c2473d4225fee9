import Mathlib.Logic.Function.Basic
import Rollout.Proofs.EngineCalls

/-!
# Computations that take turns

What one computation of a pool does can be said without the others.  A `Discipline` names the
conditions in which a computation can be, what it can rely on in each of them whatever the others
do, and the steps that it may make.  `Proc.Follows` says that a computation keeps to a discipline
step by step, and with which conditions it ends; a sequence follows if its parts do
(`Follows.bind`).  Where all steps of a computation are of a kind (`Proc.Each`) that a condition
allows, it follows and stays with the condition (`Each.follows`).

In a pool in which all follow, a turn of one leaves the conditions of all others as they are
(`Pool.Following.turn`).  That the others can still rely on what they know is left to the invariant
of the pool.
-/

namespace Rollout

variable {σ γ α β : Type}

/-- A discipline for computations on a shared state, with the conditions `γ`. -/
structure Discipline (σ γ : Type) where
  /-- What a computation in a condition can rely on. -/
  Knows : γ → σ → Prop
  /-- The steps that a computation in a condition may make in a state, and the condition that such a
  step leads to. -/
  Allows : γ → (σ → σ) → σ → γ → Prop

/-- The computation follows the discipline from a condition on, and ends as `Q` says. -/
inductive Proc.Follows (D : Discipline σ γ) (Q : α → γ → Prop) : γ → Proc σ α → Prop
  | done {g : γ} {a : α} (post : Q a g) : Follows D Q g (.done a)
  | step {g : γ} {act : σ → σ} {next : σ → Proc σ α} (goal : σ → γ)
      (allowed : ∀ s, D.Knows g s → D.Allows g act s (goal s))
      (rest : ∀ s, D.Knows g s → Follows D Q (goal s) (next s)) : Follows D Q g (.step act next)

namespace Proc

variable {D : Discipline σ γ} {Q : α → γ → Prop} {R : β → γ → Prop} {g : γ} {p : Proc σ α}

/-- A sequence follows if its second part goes on from where the first one ends. -/
theorem Follows.bind {k : α → Proc σ β} (h : p.Follows D Q g)
    (rest : ∀ a g', Q a g' → (k a).Follows D R g') : (p >>= k).Follows D R g := by
  show (p.bind k).Follows D R g
  induction h with
  | done post => exact rest _ _ post
  | step goal allowed _ ih => exact .step goal allowed ih

/-- A weaker aim is reached as well. -/
theorem Follows.mono {R : α → γ → Prop} (h : p.Follows D Q g) (le : ∀ a g', Q a g' → R a g') :
    p.Follows D R g := by
  induction h with
  | done post => exact .done (le _ _ post)
  | step goal allowed _ ih => exact .step goal allowed ih

/-- Whoever goes on makes an allowed step. -/
theorem Follows.turn {act : σ → σ} {next : σ → Proc σ α} (h : (Proc.step act next).Follows D Q g)
    {s : σ} (knows : D.Knows g s) : ∃ g', D.Allows g act s g' ∧ (next s).Follows D Q g' := by
  cases h with
  | step goal allowed rest => exact ⟨goal s, allowed s knows, rest s knows⟩

/-- Change the state and answer, in one step. -/
theorem follows_change {act : σ → σ} {answer : σ → α} (goal : σ → γ)
    (allowed : ∀ s, D.Knows g s → D.Allows g act s (goal s))
    (post : ∀ s, D.Knows g s → Q (answer s) (goal s)) : (change act answer).Follows D Q g :=
  .step goal allowed fun s knows ↦ .done (post s knows)

/-! ### Steps of a kind -/

/-- All steps of the computation are of this kind. -/
inductive Each (P : (σ → σ) → Prop) : Proc σ α → Prop
  | done (a : α) : Each P (.done a)
  | step {act : σ → σ} {next : σ → Proc σ α} (kind : P act) (rest : ∀ s, Each P (next s)) :
      Each P (.step act next)

variable {P : (σ → σ) → Prop}

theorem Each.bind {k : α → Proc σ β} (h : p.Each P) (rest : ∀ a, (k a).Each P) :
    (p >>= k).Each P := by
  show (p.bind k).Each P
  induction h with
  | done a => exact rest a
  | step kind _ ih => exact .step kind ih

theorem Each.forM {f : α → Proc σ Unit} (each : ∀ a, (f a).Each P) (xs : List α) :
    (xs.forM f).Each P := by
  induction xs with
  | nil => exact .done _
  | cons a more ih => exact (each a).bind fun _ ↦ ih

theorem each_read (kind : P id) (f : σ → α) : (read f).Each P := .step kind fun _ ↦ .done _

theorem each_modify {f : σ → σ} (kind : P f) : (modify f).Each P := .step kind fun _ ↦ .done _

/-- Whoever makes steps that the condition allows stays with it. -/
theorem Each.follows (h : p.Each P)
    (allowed : ∀ act, P act → ∀ s, D.Knows g s → D.Allows g act s g) (post : ∀ a, Q a g) :
    p.Follows D Q g := by
  induction h with
  | done a => exact .done (post a)
  | @step act next kind _ ih => exact .step (fun _ ↦ g) (allowed act kind) fun s _ ↦ ih s

/-- Steps that change nothing in what is known may come before a computation that follows a
discipline. -/
theorem Each.then {k : α → Proc σ β} (h : p.Each P)
    (allowed : ∀ act, P act → ∀ s, D.Knows g s → D.Allows g act s g)
    (rest : ∀ a, (k a).Follows D R g) : (p >>= k).Follows D R g := by
  refine Follows.bind (h.follows (Q := fun _ g' ↦ g' = g) allowed fun _ ↦ rfl) ?_
  rintro a _ rfl
  exact rest a

end Proc

namespace Pool

/-- What the computation `i` has come to, if it has ended. -/
def result? (q : Pool σ α) (i : Nat) : Option α :=
  match q.procs[i]? with
  | some (.done a) => some a
  | _ => none

theorem result?_eq_some {q : Pool σ α} {i : Nat} {a : α} :
    q.result? i = some a ↔ q.procs[i]? = some (.done a) := by
  unfold result?
  split
  · rename_i same
    simp [same]
  · rename_i other
    exact ⟨nofun, fun same ↦ absurd same (other a)⟩

/-- When all computations have ended, each has a result. -/
theorem result?_of_ended {q : Pool σ α} (ended : ∀ p ∈ q.procs, ∃ a, p = .done a) {i : Nat}
    (lt : i < q.procs.length) : ∃ a, q.result? i = some a := by
  obtain ⟨a, done⟩ := ended _ (List.getElem_mem lt)
  exact ⟨a, result?_eq_some.2 (done ▸ List.getElem?_eq_getElem lt)⟩

/-- The computations follow the discipline, each from its condition on. -/
def Following (D : Discipline σ γ) (Q : Nat → α → γ → Prop) (conditions : Nat → γ)
    (q : Pool σ α) : Prop :=
  ∀ (i : Nat) (p : Proc σ α), q.procs[i]? = some p → p.Follows D (Q i) (conditions i)

namespace Following

variable {D : Discipline σ γ} {Q : Nat → α → γ → Prop} {conditions : Nat → γ} {i : Nat}

/-- Whose turn it is makes an allowed step. -/
theorem turn {s : σ} {procs : List (Proc σ α)} {act : σ → σ} {next : σ → Proc σ α}
    (h : Following D Q conditions ⟨s, procs⟩) (at_i : procs[i]? = some (.step act next))
    (knows : D.Knows (conditions i) s) :
    ∃ g, D.Allows (conditions i) act s g ∧
      Following D Q (Function.update conditions i g) ⟨act s, procs.set i (next s)⟩ := by
  obtain ⟨g, allowed, rest⟩ := Proc.Follows.turn (h i _ at_i) knows
  refine ⟨g, allowed, fun j p at_j ↦ ?_⟩
  rcases getElem?_set_cases at_j with ⟨rfl, rfl⟩ | ⟨other, before⟩
  · rw [Function.update_self]
    exact rest
  · rw [Function.update_of_ne (Ne.symm other)]
    exact h j p before

/-- A result that a computation has come to meets its aim. -/
theorem post {q : Pool σ α} (h : Following D Q conditions q) {a : α}
    (result : q.result? i = some a) : Q i a (conditions i) := by
  cases h i _ (result?_eq_some.1 result) with
  | done post => exact post

end Following
end Pool
end Rollout
