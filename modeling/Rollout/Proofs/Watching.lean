import Mathlib.Logic.Relation
import Rollout.Proofs.Settlement

/-!
# One writes, the others watch

A part of the stores is written by one computation of a pool, while the others may look at it
between any two of its steps.  `Watch` is where a computation stands towards the part: the writer
knows what the part is, and a reader what it has been when the reader looked last.  The part only
goes on as `step` says, so what a reader sees later is never earlier than what it has seen before
(`Pool.Watched`).

The run of a task is such a writer.  Up to its acceptance the run may write what it likes; from then
on it keeps what its collaborator has returned, and then tells how it has ended (`GoesOn`).
-/

namespace Rollout

variable {S R V α β : Type}

/-! ### Leaving the part alone -/

namespace Proc

/-- The computation leaves this part of the stores alone. -/
def Keeps (part : Stores → R) (p : Proc (Site S) α) : Prop :=
  p.Each fun act ↦ ∀ s, part (act s).payload = part s.payload

variable {part : Stores → R}

theorem keeps_read (f : Site S → α) : (read f).Keeps part := each_read (fun _ ↦ rfl) f

theorem keeps_modify {f : Site S → Site S} (keeps : ∀ s, part (f s).payload = part s.payload) :
    (modify f).Keeps part := each_modify keeps

end Proc

/-! ### The discipline -/

/-- Where a computation stands towards a part of the stores. -/
inductive Watch (R : Type) where
  /-- Only this computation writes the part, and has left it like this. -/
  | writer (now : R)
  /-- The part has been like this when the computation looked last. -/
  | reader (seen : R)

namespace Watch

/-- What a computation can rely on. -/
def Knows (part : Stores → R) (step : R → R → Prop) : Watch R → Site S → Prop
  | writer now, s => part s.payload = now
  | reader seen, s => Relation.ReflTransGen step seen (part s.payload)

/-- The steps of a computation: a reader changes nothing. -/
inductive Allows (part : Stores → R) (step : R → R → Prop) (act : Site S → Site S) (s : Site S) :
    Watch R → Watch R → Prop
  | writes {now now' : R} (becomes : part (act s).payload = now')
      (goes : Relation.ReflTransGen step now now') :
      Allows part step act s (writer now) (writer now')
  | reads {seen seen' : R} (keeps : part (act s).payload = part s.payload)
      (sees : Relation.ReflTransGen step seen' (part s.payload)) :
      Allows part step act s (reader seen) (reader seen')

/-- The discipline of a part that goes on by these steps. -/
def discipline (part : Stores → R) (step : R → R → Prop) : Discipline (Site S) (Watch R) where
  Knows := Knows part step
  Allows c act s c' := Allows part step act s c c'

end Watch

/-- The first computation writes the part, which is now this, and the others watch. -/
def Watch.first (now : R) : Nat → Watch R
  | 0 => .writer now
  | _ + 1 => .reader now

namespace Proc

variable {part : Stores → R} {step : R → R → Prop} {p : Proc (Site S) α} {k : α → Proc (Site S) β}
  {Q : α → Watch R → Prop} {T : β → Watch R → Prop} {now seen : R}

theorem Keeps.reader (h : p.Keeps part) (post : ∀ a, Q a (.reader seen)) :
    p.Follows (Watch.discipline part step) Q (.reader seen) :=
  Each.follows h (fun _ keeps s sees ↦ .reads (keeps s) sees) post

theorem Keeps.writer (h : p.Keeps part) (post : ∀ a, Q a (.writer now)) :
    p.Follows (Watch.discipline part step) Q (.writer now) :=
  Each.follows h (fun _ keeps s is ↦ .writes ((keeps s).trans is) .refl) post

theorem Keeps.reader_then (h : p.Keeps part)
    (rest : ∀ a, (k a).Follows (Watch.discipline part step) T (.reader seen)) :
    (p >>= k).Follows (Watch.discipline part step) T (.reader seen) :=
  Each.then h (fun _ keeps s sees ↦ .reads (keeps s) sees) rest

theorem Keeps.writer_then (h : p.Keeps part)
    (rest : ∀ a, (k a).Follows (Watch.discipline part step) T (.writer now)) :
    (p >>= k).Follows (Watch.discipline part step) T (.writer now) :=
  Each.then h (fun _ keeps s is ↦ .writes ((keeps s).trans is) .refl) rest

/-- Something is written to the part. -/
theorem write_follows {f : Stores → Stores} {g : R → R} {Q : Unit → Watch R → Prop}
    (becomes : ∀ s, part (f s) = g (part s)) (goes : Relation.ReflTransGen step now (g now))
    (post : Q () (.writer (g now))) :
    (Site.write f : Proc (Site S) Unit).Follows (Watch.discipline part step) Q (.writer now) := by
  refine follows_change (fun _ ↦ .writer (g now)) (fun s is ↦ .writes ?_ goes) fun _ _ ↦ post
  rw [← show part s.payload = now from is]
  exact becomes s.payload

/-- A write that makes a step of the part may come before a writer that goes on. -/
theorem write_then {f : Stores → Stores} {g : R → R} {k : Unit → Proc (Site S) β}
    (becomes : ∀ s, part (f s) = g (part s)) (goes : Relation.ReflTransGen step now (g now))
    (rest : (k ()).Follows (Watch.discipline part step) T (.writer (g now))) :
    (Site.write f >>= k).Follows (Watch.discipline part step) T (.writer now) := by
  refine Follows.bind (write_follows (Q := fun _ c ↦ c = .writer (g now)) becomes goes rfl) ?_
  rintro _ _ rfl
  exact rest

/-- The part is marked, with a status that may be told at any time. -/
theorem mark_follows {a : Activity} {state : Status} {text : String} {g : StatusRecord → R → R}
    (becomes : ∀ s r, part (s.setStatus r a) = g r (part s))
    (goes : ∀ time, Relation.ReflTransGen step now (g ⟨state, text, time⟩ now)) :
    (Site.mark a state text : Proc (Site S) Unit).Follows (Watch.discipline part step)
      (fun _ c ↦ ∃ time, c = .writer (g ⟨state, text, time⟩ now)) (.writer now) := by
  refine follows_change (fun s ↦ .writer (g ⟨state, text, s.now⟩ now))
    (fun s is ↦ .writes ?_ (goes s.now)) fun s _ ↦ ⟨s.now, rfl⟩
  rw [← show part s.payload = now from is]
  exact becomes s.payload _

/-- First the part, or something of it, is looked at. -/
theorem look_then {f : Stores → α} {g : R → α} (shows : ∀ s, f s = g (part s))
    (rest : ∀ c, Relation.ReflTransGen step seen c →
      (k (g c)).Follows (Watch.discipline part step) T (.reader c)) :
    (Site.look f >>= k).Follows (Watch.discipline part step) T (.reader seen) := by
  refine .step (fun s ↦ .reader (part s.payload)) (fun s _ ↦ .reads rfl .refl) fun s sees ↦ ?_
  have rest' := rest (part s.payload) sees
  rw [← shows s.payload] at rest'
  exact rest'

end Proc

/-! ### Pools -/

/-- The first computation of a pool writes a part of the stores, and the others watch. -/
structure Pool.Watched (part : Stores → R) (step : R → R → Prop) (Q : Nat → α → Watch R → Prop)
    (watches : Nat → Watch R) (q : Pool (Site S) α) : Prop where
  following : q.Following (Watch.discipline part step) Q watches
  knows : ∀ i, (watches i).Knows part step q.state
  alone : ∀ i now, watches i = .writer now → i = 0

namespace Pool.Watched

variable {part : Stores → R} {step : R → R → Prop} {Q : Nat → α → Watch R → Prop}
  {watches : Nat → Watch R} {s : Site S} {procs : List (Proc (Site S) α)} {i : Nat}
  {act : Site S → Site S} {next : Site S → Proc (Site S) α} {p q : Pool (Site S) α}

/-- One writer and any number of readers begin with the part as it is. -/
theorem start {first : Proc (Site S) α} {others : List (Proc (Site S) α)}
    (writes : first.Follows (Watch.discipline part step) (Q 0) (.writer (part s.payload)))
    (reads : ∀ (i : Nat) (p : Proc (Site S) α), others[i]? = some p →
      p.Follows (Watch.discipline part step) (Q (i + 1)) (.reader (part s.payload))) :
    Watched part step Q (Watch.first (part s.payload)) ⟨s, first :: others⟩ where
  following i p at_i := by
    cases i with
    | zero =>
      obtain rfl : first = p := Option.some.inj at_i
      exact writes
    | succ i => exact reads i p at_i
  knows i := by
    cases i with
    | zero => exact rfl
    | succ i => exact .refl
  alone i now written := by
    cases i with
    | zero => rfl
    | succ i => nomatch written

/-- Whoever's turn it is, nobody knows anything wrong. -/
theorem turn (h : Watched part step Q watches ⟨s, procs⟩)
    (at_i : procs[i]? = some (.step act next)) :
    ∃ c, Watched part step Q (Function.update watches i c) ⟨act s, procs.set i (next s)⟩ := by
  obtain ⟨c, allowed, following⟩ := h.following.turn at_i (h.knows i)
  generalize here : watches i = c₀ at allowed
  cases allowed with
  | @writes now now' becomes goes =>
    obtain rfl := h.alone i now here
    refine ⟨_, following, fun j ↦ ?_, fun j now' written ↦ ?_⟩
    · by_cases same : j = 0
      · rw [same, Function.update_self]
        exact becomes
      · rw [Function.update_of_ne same]
        have knows := h.knows j
        have is := h.knows 0
        rw [here] at is
        cases there : watches j with
        | writer now' => exact absurd (h.alone j now' there) same
        | reader seen =>
          rw [there] at knows
          show Relation.ReflTransGen step seen (part (act s).payload)
          rw [becomes]
          exact Relation.ReflTransGen.trans (is ▸ knows) goes
    · by_cases same : j = 0
      · exact same
      · rw [Function.update_of_ne same] at written
        exact h.alone j now' written
  | @reads seen seen' keeps sees =>
    refine ⟨_, following, fun j ↦ ?_, fun j now written ↦ ?_⟩
    · have knows : (Function.update watches i (.reader seen') j).Knows part step s := by
        by_cases same : j = i
        · rw [same, Function.update_self]
          exact sees
        · rw [Function.update_of_ne same]
          exact h.knows j
      cases there : Function.update watches i (.reader seen') j with
      | writer now | reader seen =>
        rw [there] at knows
        simp only [Watch.Knows, keeps] at knows ⊢
        exact knows
    · by_cases same : j = i
      · rw [same, Function.update_self] at written
        nomatch written
      · rw [Function.update_of_ne same] at written
        exact h.alone j now written

/-- After any number of steps the writer has gone on, and the readers have seen it at some time. -/
theorem steps (h : p.Watched part step Q watches) (steps : p.Steps q) :
    ∃ watches', q.Watched part step Q watches' := by
  induction steps with
  | refl => exact ⟨watches, h⟩
  | tail _ step ih =>
    obtain ⟨watches', watched⟩ := ih
    obtain ⟨i, act, next, at_i, rfl⟩ := step.exists_turn
    obtain ⟨c, watched'⟩ := watched.turn at_i
    exact ⟨_, watched'⟩

end Pool.Watched
end Rollout
