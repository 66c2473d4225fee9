import Rollout.Proofs.History

/-!
# Traces

What a history says about where it has led.  The state of an outline tells which fact came last; a
region of states that only a success leads into tells that this success lies behind; and a region
that no edge leaves keeps what lies behind it from happening again.
-/

namespace Rollout

variable {S : Type}

namespace Fact

theorem eq_ended {f : Fact} {t : Task} (about : f.activity = .task t) (ends : f.isCall = false) :
    ∃ outcome, f = .ended t outcome := by
  cases f with
  | ended t' outcome =>
    obtain rfl : t' = t := Activity.task.inj about
    exact ⟨outcome, rfl⟩
  | began => nomatch ends
  | patched | configured => nomatch about

theorem eq_ended_returned {f : Fact} {t : Task} (about : f.activity = .task t)
    (success : f.succeeds = true) : ∃ v, f = .ended t (.returned v) := by
  have ends : f.isCall = false := by
    cases f with
    | began => nomatch success
    | patched | configured | ended => rfl
  obtain ⟨outcome, rfl⟩ := eq_ended about ends
  cases outcome with
  | returned v => exact ⟨v, rfl⟩
  | failed | panicked => nomatch success

theorem configures {f : Fact} (h : f.isConfiguration = true) :
    f.isCall = false ∧ (f.activity = .configureApp ∨ f.activity = .configureInstallation) := by
  cases f with
  | patched => exact ⟨rfl, .inl rfl⟩
  | configured => exact ⟨rfl, .inr rfl⟩
  | began | ended => nomatch h

end Fact

/-! ### Regions -/

namespace Plan

/-- No edge leaves the region. -/
def Keeps (p : Plan S) (o : Options) (R : S → Prop) : Prop :=
  ∀ e ∈ (p.table o.target o.airgap).edges, R e.1 → R e.2

/-- The edges into the region are those to the success of an activity. -/
def EnteredBy (p : Plan S) (o : Options) (a : Activity) (R : S → Prop) : Prop :=
  ∀ e ∈ (p.table o.target o.airgap).edges, R e.2 →
    R e.1 ∨ ∃ x ∈ p.activities o, x.1 = a ∧ e.2 = x.2.succeeded

/-- A task begins inside the region only. -/
def BeginsIn (p : Plan S) (o : Options) (t : Task) (R : S → Prop) : Prop :=
  ∀ x ∈ p.activities o, x.1 = .task t →
    ∀ e ∈ (p.table o.target o.airgap).edges, e.2 = x.2.running → R e.1

/-- A task leads into the region. -/
def BeginsInto (p : Plan S) (o : Options) (t : Task) (R : S → Prop) : Prop :=
  ∀ x ∈ p.activities o, x.1 = .task t → R x.2.running

/-- A task begins outside a region which is not left. -/
structure Closes (p : Plan S) (o : Options) (t : Task) (R : S → Prop) : Prop where
  keeps : p.Keeps o R
  begins : p.BeginsIn o t fun s ↦ ¬ R s

/-- A task leads into a region that closes it. -/
structure Once (p : Plan S) (o : Options) (t : Task) (R : S → Prop) : Prop
    extends p.Closes o t R where
  into : p.BeginsInto o t R

/-- The success of a task leads into a region that closes it. -/
structure Final (p : Plan S) (o : Options) (t : Task) (R : S → Prop) : Prop
    extends p.Closes o t R where
  into : ∀ x ∈ p.activities o, x.1 = .task t → R x.2.succeeded

/-- A task leads into a region that only the success of an activity opens. -/
structure Opens (p : Plan S) (o : Options) (a : Activity) (t : Task) (R : S → Prop) : Prop where
  entered : p.EnteredBy o a R
  initial : ¬ R p.initial
  into : p.BeginsInto o t R

section Decidable

variable [DecidableEq S] (p : Plan S) (o : Options) (a : Activity) (t : Task) (R : S → Prop)
  [DecidablePred R]

instance : Decidable (p.Keeps o R) :=
  inferInstanceAs (Decidable (∀ e ∈ (p.table o.target o.airgap).edges, R e.1 → R e.2))

instance : Decidable (p.EnteredBy o a R) :=
  inferInstanceAs (Decidable (∀ e ∈ (p.table o.target o.airgap).edges, R e.2 →
    R e.1 ∨ ∃ x ∈ p.activities o, x.1 = a ∧ e.2 = x.2.succeeded))

instance : Decidable (p.BeginsIn o t R) :=
  inferInstanceAs (Decidable (∀ x ∈ p.activities o, x.1 = .task t →
    ∀ e ∈ (p.table o.target o.airgap).edges, e.2 = x.2.running → R e.1))

instance : Decidable (p.BeginsInto o t R) :=
  inferInstanceAs (Decidable (∀ x ∈ p.activities o, x.1 = .task t → R x.2.running))

end Decidable
end Plan

namespace Workflow

/-- The success of an activity lies behind, and all that has happened since leads into the
region. -/
def Behind (w : Workflow S) (a : Activity) (R : S → Prop) (h : List Fact) : Prop :=
  ∃ before f after, h = before ++ f :: after ∧ f.activity = a ∧ f.succeeds = true ∧
    ∀ g ∈ after, ∃ stages, (g.activity, stages) ∈ w.plan.activities w.options ∧
      R (w.stateAfter stages g)

variable {w : Workflow S} {f : Fact} {stages : Stages S}

/-- What is not a call leaves the workflow in an outcome. -/
theorem stateAfter_mem (settles : f.isCall = false) :
    w.stateAfter stages f ∈ w.plan.outcomes f.activity stages := by
  cases f with
  | patched p accepted | configured c accepted =>
    cases accepted with
    | true => exact Plan.succeeded_mem_outcomes
    | false => exact Plan.failed_mem_outcomes
  | began => nomatch settles
  | ended t outcome => exact w.outcomeState_mem ..

theorem stateAfter_of_isCall (calls : f.isCall = true) :
    w.stateAfter stages f = stages.running := by
  cases f with
  | began => rfl
  | patched | configured | ended => nomatch calls

/-- Only a success leads to the state of success. -/
theorem succeeds_of_stateAfter (nodup : (w.plan.outcomes f.activity stages).Nodup)
    (settles : f.isCall = false) (h : w.stateAfter stages f = stages.succeeded) :
    f.succeeds = true := by
  have differ : stages.failed ≠ stages.succeeded := by
    intro same
    have fresh := (List.nodup_cons.1 nodup).1
    exact fresh (same ▸ List.mem_cons_self)
  cases f with
  | patched p accepted | configured c accepted =>
    cases accepted with
    | true => rfl
    | false => exact absurd h differ
  | began => nomatch settles
  | ended t outcome =>
    cases outcome with
    | returned v => rfl
    | failed e | panicked p => cases t <;> exact absurd h differ

variable [DecidableEq S] {o o' : Outline S} {a : Activity} {t : Task} {R : S → Prop}

/-! ### Steps -/

section Enters

variable {through : Option S}

/-- A region that no edge leaves is not left on the way into a running state. -/
theorem Enters.keeps (enters : w.Enters o a through stages) (keeps : w.plan.Keeps w.options R)
    (inside : R o.current) : R stages.running := by
  have leads := enters.leads
  cases through with
  | none => exact keeps _ (TransitionTable.mem_edges leads) inside
  | some b =>
    obtain ⟨first, second⟩ := leads
    apply keeps _ (TransitionTable.mem_edges second)
    exact keeps _ (TransitionTable.mem_edges first) inside

/-- Neither the running state nor a bypass is a state of success, so the way into the running state
does not lead into a region that only a success leads into. -/
theorem Enters.back (enters : w.Enters o f.activity through stages)
    (sound : w.plan.Sound w.options) (entered : w.plan.EnteredBy w.options a R)
    (bypass : ∀ b, through = some b → ∃ g, w.plan.gateOf f.activity = some g ∧ b = g.2.bypassed)
    (inside : R stages.running) : R o.current := by
  have leads := enters.leads
  have not_success : ∀ x ∈ w.plan.activities w.options, stages.running ≠ x.2.succeeded := by
    intro x has same
    apply sound.running_not_resting _ enters.has
    exact same ▸ Plan.outcome_mem_resting has Plan.succeeded_mem_outcomes
  cases through with
  | none =>
    rcases entered _ (TransitionTable.mem_edges leads) inside with before | ⟨x, has, -, same⟩
    · exact before
    · exact absurd same (not_success x has)
  | some b =>
    obtain ⟨first, second⟩ := leads
    obtain ⟨g, gated, bypassed⟩ := bypass b rfl
    rcases entered _ (TransitionTable.mem_edges second) inside with passed | ⟨x, has, -, same⟩
    · rcases entered _ (TransitionTable.mem_edges first) passed with before | ⟨x, has, -, same⟩
      · exact before
      · change b = x.2.succeeded at same
        refine absurd ?_ (sound.bypassed_not_resting _ enters.has g gated)
        rw [← bypassed, same]
        exact Plan.outcome_mem_resting has Plan.succeeded_mem_outcomes
    · exact absurd same (not_success x has)

end Enters

namespace Step

/-- A step begins where its activity can be entered, or in its running state if it is the end. -/
theorem begins (step : w.Step o f o') :
    ∃ stages, (f.activity, stages) ∈ w.plan.activities w.options ∧
      o'.current = w.stateAfter stages f ∧
      (o.current = stages.running ∨
        ∃ through, w.Enters o f.activity through stages ∧
          ∀ b, through = some b → ∃ g, w.plan.gateOf f.activity = some g ∧ b = g.2.bypassed) := by
  cases step with
  | patched enters | patchRejected enters | configured enters | configurationRejected enters =>
    exact ⟨_, enters.has, rfl, .inr ⟨none, enters, nofun⟩⟩
  | began enters passes =>
    refine ⟨_, enters.has, rfl, .inr ⟨_, enters, ?_⟩⟩
    rintro b rfl
    obtain ⟨scope, gate, gated, -, bypassed, -, -⟩ := bypassFrom_some passes
    exact ⟨_, gated, bypassed⟩
  | ended outcome has calling running => exact ⟨_, has, rfl, .inl running⟩

theorem call_eq {ignore : Bool} {call : Call} (step : w.Step o (.began t ignore call) o') :
    call = w.callFor o.values o.settings t := by
  cases step with
  | began enters passes => rfl

/-- The call of a task is its own. -/
theorem task_eq {ignore : Bool} {call : Call} (step : w.Step o (.began t ignore call) o') :
    call.task = t := by
  rw [step.call_eq, task_callFor]

/-- A task does not begin in a region that closes it. -/
theorem outside (step : w.Step o f o') (closes : w.plan.Closes w.options t R)
    (calls : f.calls t = true) : ¬ R o.current := by
  cases step with
  | @began _ _ through _ enters passes =>
    obtain rfl : _ = t := by simpa [Fact.calls] using calls
    intro inside
    have leads := enters.leads
    cases through with
    | none => exact closes.begins _ enters.has rfl _ (TransitionTable.mem_edges leads) rfl inside
    | some b =>
      obtain ⟨first, second⟩ := leads
      apply closes.begins _ enters.has rfl _ (TransitionTable.mem_edges second) rfl
      exact closes.keeps _ (TransitionTable.mem_edges first) inside
  | patched | patchRejected | configured | configurationRejected | ended => nomatch calls

/-- A call leads into the running state of its task. -/
theorem lands (step : w.Step o f o') (calls : f.calls t = true) :
    ∃ stages, (.task t, stages) ∈ w.plan.activities w.options ∧ o'.current = stages.running := by
  cases step with
  | began enters passes =>
    obtain rfl : _ = t := by simpa [Fact.calls] using calls
    exact ⟨_, enters.has, rfl⟩
  | patched | patchRejected | configured | configurationRejected | ended => nomatch calls

variable (sound : w.plan.Sound w.options)

include sound

/-- A region that no edge leaves is not left by a step. -/
theorem keeps (step : w.Step o f o') (keeps : w.plan.Keeps w.options R) (inside : R o.current) :
    R o'.current := by
  obtain ⟨stages, has, after, origin⟩ := step.begins
  have running : R stages.running := by
    rcases origin with running | ⟨through, enters, -⟩
    · exact running ▸ inside
    · exact enters.keeps keeps inside
  rw [after]
  cases calls : f.isCall with
  | true =>
    rw [stateAfter_of_isCall calls]
    exact running
  | false =>
    have settles := sound.settles _ has _ (stateAfter_mem calls)
    exact keeps _ (TransitionTable.mem_edges settles) running

/-- A region that only the success of an activity leads into is entered by such a success. -/
theorem back (step : w.Step o f o') (entered : w.plan.EnteredBy w.options a R)
    (inside : R o'.current) : R o.current ∨ f.activity = a ∧ f.succeeds = true := by
  obtain ⟨stages, has, after, origin⟩ := step.begins
  have before (running : R stages.running) : R o.current := by
    rcases origin with from_running | ⟨through, enters, bypass⟩
    · exact from_running ▸ running
    · exact enters.back sound entered bypass running
  rw [after] at inside
  cases calls : f.isCall with
  | true =>
    rw [stateAfter_of_isCall calls] at inside
    exact .inl (before inside)
  | false =>
    have outcome : w.stateAfter stages f ∈ w.plan.outcomes f.activity stages := stateAfter_mem calls
    have edge := TransitionTable.mem_edges (sound.settles _ has _ outcome)
    rcases entered _ edge inside with running | ⟨x, x_has, rfl, success⟩
    · exact .inl (before running)
    · change w.stateAfter stages f = x.2.succeeded at success
      have same : f.activity = x.1 := sound.outcomes_distinct _ has _ x_has _ outcome
        (success ▸ Plan.succeeded_mem_outcomes)
      obtain rfl : stages = x.2 := Plan.stages_unique has (same ▸ x_has)
      exact .inr ⟨same, succeeds_of_stateAfter (sound.outcomes_nodup _ has) calls success⟩

/-- A task begins in the region that opens it. -/
theorem opened (step : w.Step o f o') (opens : w.plan.Opens w.options a t R)
    (calls : f.calls t = true) : R o.current := by
  obtain ⟨stages, has, lands⟩ := step.lands calls
  have inside : R o'.current := lands ▸ opens.into _ has rfl
  refine (step.back sound opens.entered inside).resolve_right fun success ↦ ?_
  cases f with
  | began => nomatch success.2
  | patched | configured | ended => nomatch calls

end Step

/-! ### Traces -/

namespace Trace

variable {h before after : List Fact}

/-- A trace can be cut at any of its facts. -/
theorem split (trace : w.Trace o (before ++ f :: after) o') :
    ∃ o₁ o₂, w.Trace o before o₁ ∧ w.Step o₁ f o₂ ∧ w.Trace o₂ after o' := by
  generalize eq : before ++ f :: after = h at trace
  induction trace generalizing after with
  | nil => exact absurd eq (List.append_ne_nil_of_right_ne_nil _ (List.cons_ne_nil f after))
  | snoc trace step ih =>
    rcases List.eq_nil_or_concat after with rfl | ⟨after', g, rfl⟩
    · obtain ⟨rfl, ⟨⟩⟩ := List.append_inj' eq rfl
      exact ⟨_, _, trace, step, .nil⟩
    · rw [List.concat_eq_append, ← List.cons_append, ← List.append_assoc] at eq
      obtain ⟨rest, ⟨⟩⟩ := List.append_inj' eq rfl
      obtain ⟨o₁, o₂, first, here, last⟩ := ih rest
      rw [List.concat_eq_append]
      exact ⟨o₁, o₂, first, here, .snoc last step⟩

/-- The call in flight is the last thing that happened. -/
theorem called (trace : w.Trace o h o') (idle : o.call = none) {call : Call}
    (calling : o'.call = some call) :
    ∃ earlier ignore, h = earlier ++ [.began call.task ignore call] := by
  cases trace with
  | nil => exact nomatch idle.symm.trans calling
  | snoc trace step =>
    cases step with
    | patched enters | patchRejected enters | configured enters | configurationRejected enters =>
      exact nomatch enters.idle.symm.trans calling
    | began enters passes =>
      obtain rfl := Option.some.inj calling
      rw [task_callFor]
      exact ⟨_, _, rfl⟩
    | ended => nomatch calling

/-- What ends is the call that was last. -/
theorem ends_call {outcome : Outcome t.Value}
    (trace : w.Trace o (before ++ .ended t outcome :: after) o') (idle : o.call = none) :
    ∃ earlier ignore call, before = earlier ++ [.began t ignore call] := by
  obtain ⟨o₁, o₂, first, step, -⟩ := trace.split
  cases step with
  | ended outcome has calling running =>
    obtain ⟨earlier, ignore, rfl⟩ := first.called idle calling
    exact ⟨earlier, ignore, _, rfl⟩

/-- There is a call in flight if one more has begun than ended. -/
theorem calls_eq_ends (trace : w.Trace o h o') (idle : o.call = none) :
    h.countP Fact.isCall = h.countP Fact.isEnd + o'.call.toList.length := by
  induction trace with
  | nil =>
    rw [idle]
    rfl
  | snoc trace step ih =>
    rw [List.countP_append, List.countP_append, ih]
    cases step with
    | patched | patchRejected | configured | configurationRejected => rfl
    | began enters passes =>
      rw [enters.idle]
      rfl
    | ended outcome has calling running =>
      rw [calling]
      rfl

variable (sound : w.plan.Sound w.options)

include sound

/-- A region that no edge leaves is not left. -/
theorem keeps (trace : w.Trace o h o') (keeps : w.plan.Keeps w.options R) (inside : R o.current) :
    R o'.current := by
  induction trace with
  | nil => exact inside
  | snoc trace step ih => exact step.keeps sound keeps ih

/-- Whoever is in a region that only the success of an activity leads into has this success behind,
and has not left the region since.  The region was entered either before the last fact of the
history, or by it. -/
theorem entered (trace : w.Trace o h o') (entered : w.plan.EnteredBy w.options a R)
    (outside : ¬ R o.current) (inside : R o'.current) : w.Behind a R h := by
  induction trace with
  | nil => exact absurd inside outside
  | @snoc h f _ _ trace step ih =>
    rcases step.back sound entered inside with still | ⟨about, success⟩
    · obtain ⟨before, g, after, rfl, about, success, stays⟩ := ih still
      refine ⟨before, g, after ++ [f], by simp, about, success, ?_⟩
      intro k k_mem
      rcases List.mem_append.1 k_mem with k_mem | k_mem
      · exact stays k k_mem
      · obtain rfl := List.mem_singleton.1 k_mem
        obtain ⟨stages, has, lands, -⟩ := step.begins
        exact ⟨stages, has, lands ▸ inside⟩
    · refine ⟨h, f, [], rfl, about, success, ?_⟩
      intro g g_mem
      exact absurd g_mem List.not_mem_nil

/-- A task does not begin again in a region that closes it. -/
theorem never_again (trace : w.Trace o h o') (closes : w.plan.Closes w.options t R)
    (inside : R o.current) : ∀ f ∈ h, f.calls t = false := by
  intro f f_mem
  obtain ⟨before, after, rfl⟩ := List.append_of_mem f_mem
  obtain ⟨o₁, o₂, first, step, -⟩ := trace.split
  refine Bool.eq_false_iff.2 fun calls ↦ ?_
  exact step.outside closes calls (first.keeps sound closes.keeps inside)

/-- A task that leads into a region which closes it begins at most once. -/
theorem calls_le_one (trace : w.Trace o h o') (once : w.plan.Once w.options t R) :
    h.countP (·.calls t) ≤ 1 := by
  have first : h.countP (·.calls t) ≤ 1 ∧ (¬ R o'.current → h.countP (·.calls t) = 0) := by
    induction trace with
    | nil => exact ⟨Nat.zero_le 1, fun _ ↦ rfl⟩
    | @snoc h f _ _ trace step ih =>
      obtain ⟨one, never⟩ := ih
      rw [List.countP_append, List.countP_singleton]
      cases calls : f.calls t with
      | false =>
        rw [if_neg Bool.false_ne_true, Nat.add_zero]
        refine ⟨one, fun outside ↦ never fun inside ↦ outside ?_⟩
        exact step.keeps sound once.keeps inside
      | true =>
        obtain ⟨stages, has, lands⟩ := step.lands calls
        rw [if_pos rfl, never (step.outside once.toCloses calls)]
        refine ⟨Nat.le_refl 1, fun outside ↦ absurd ?_ outside⟩
        exact lands ▸ once.into _ has rfl
  exact first.1

/-- Whoever begins a task has behind what opens it. -/
theorem behind (trace : w.Trace o (before ++ f :: after) o') (fresh : o.current = w.plan.initial)
    (opens : w.plan.Opens w.options a t R) (calls : f.calls t = true) : w.Behind a R before := by
  obtain ⟨o₁, o₂, first, step, -⟩ := trace.split
  have inside := step.opened sound opens calls
  exact first.entered sound opens.entered (fresh ▸ opens.initial) inside

/-- The state in which a task has settled tells what was last. -/
theorem finished (trace : w.Trace o h o') (fresh : o.current = w.plan.initial)
    (idle : o.call = none) (has : (.task t, stages) ∈ w.plan.activities w.options)
    (settled : o'.current ∈ w.plan.outcomes (.task t) stages) :
    ∃ earlier ignore call outcome,
      h = earlier ++ [.began t ignore call, .ended t outcome] ∧ call.task = t ∧
      o'.current = w.outcomeState stages t outcome := by
  cases trace with
  | nil => exact absurd (fresh ▸ settled) (sound.initial_fresh _ has)
  | snoc trace step =>
    obtain ⟨stages', has', lands, -⟩ := step.begins
    rw [lands] at settled
    cases calls : Fact.isCall _ with
    | true =>
      rw [stateAfter_of_isCall calls] at settled
      exact absurd (Plan.outcome_mem_resting has settled) (sound.running_not_resting _ has')
    | false =>
      have about := sound.outcomes_distinct _ has' _ has _ (stateAfter_mem calls) settled
      obtain ⟨outcome, rfl⟩ := Fact.eq_ended about calls
      obtain rfl : stages' = stages := Plan.stages_unique has' has
      cases step with
      | @ended call _ outcome _ calling _ =>
        obtain ⟨earlier, ignore, rfl⟩ := trace.called idle calling
        refine ⟨earlier, ignore, call, outcome, ?_, rfl, lands⟩
        rw [List.append_assoc]
        rfl

end Trace
end Workflow
end Rollout
