import Mathlib.Data.List.Forall2
import Rollout.Proofs.Simulation

/-!
# The influence of a flag

A client that begins a task may ask to pass over failed checks.  Where the options of the workflow
do not permit this, asking for it does nothing: the request is carried out by the same steps, so
that two runs which differ only in such flags give the same answers and go through the same states
(`FlagInfluence.transcript_eq`).  Where they do permit it, the flag is looked at in one state alone,
and there it decides.
-/

namespace Rollout

variable {S : Type}

/-- Two events that differ at most in the flag of a task that failed checks of a scope can stand in
the way of. -/
inductive Event.SameBut (scope : PreflightScope) : Event → Event → Prop
  | same (e : Event) : SameBut scope e e
  | flag {t : Task} (gated : t.gatedBy? = some scope) (ignore ignore' : Bool) :
      SameBut scope (.act (.begin t ignore)) (.act (.begin t ignore'))

namespace Attempt

variable {α β : Type} {P : ActionError S → Prop}

/-- Whenever the attempt fails, it is for such a reason. -/
def FailsBy (P : ActionError S → Prop) (x : Attempt S α) : Prop :=
  ∀ s e, (x.on s).1 = .error e → P e

theorem FailsBy.bind {x : Attempt S α} {k : α → Attempt S β} (h : x.FailsBy P)
    (rest : ∀ a, (k a).FailsBy P) : (x >>= k).FailsBy P := by
  intro s e failed
  rw [on_bind] at failed
  cases found : x.on s with
  | mk r s' =>
    rw [found] at failed
    cases r with
    | error e' =>
      refine h s e ?_
      rw [found]
      exact congrArg Except.error (Except.error.inj failed)
    | ok a => exact rest a s' e failed

theorem failsBy_liftM (p : Proc (Site S) α) : (liftM p : Attempt S α).FailsBy P := by
  intro s e failed
  rw [on_liftM] at failed
  cases failed

theorem failsBy_ofOperation (p : Proc (Site S) (Except (OperationError S) α))
    (h : ∀ e, P (.operation e)) : (ofOperation p).FailsBy P := by
  intro s e failed
  rw [on_ofOperation] at failed
  cases result : (p.run s).1 with
  | ok a =>
    rw [result] at failed
    cases failed
  | error cause =>
    rw [result] at failed
    exact Except.error.inj failed ▸ h cause

end Attempt

namespace Workflow

variable [DecidableEq S] {w : Workflow S} {t : Task} {scope : PreflightScope}

/-- Without permission the flag is not even looked at. -/
theorem bypass_eq (gated : t.gatedBy? = some scope)
    (forbidden : w.options.allowsIgnoring scope = false) (ignore ignore' : Bool) :
    w.bypass ignore t = w.bypass ignore' t := by
  unfold bypass
  simp only [gated, Option.bind_some]
  cases w.plan.gate scope with
  | none => rfl
  | some gate => simp only [Option.map_some, forbidden, Bool.and_false]

/-- Outside the state of failed checks the flag makes no difference. -/
theorem bypassFrom_of_ne (gated : t.gatedBy? = some scope) {current : S}
    (elsewhere : ∀ gate, w.plan.gate scope = some gate → current ≠ gate.closed) (ignore : Bool) :
    w.bypassFrom ignore t current = .ok none := by
  unfold bypassFrom
  simp only [Plan.gateOf, gated, Option.bind_some]
  cases found : w.plan.gate scope with
  | none => rfl
  | some gate => exact if_pos (elsewhere gate found)

/-- In the state of failed checks the flag decides, if it may. -/
theorem bypassFrom_closed (gated : t.gatedBy? = some scope) {gate : Gate S}
    (found : w.plan.gate scope = some gate) (allowed : w.options.allowsIgnoring scope = true)
    (ignore : Bool) :
    w.bypassFrom ignore t gate.closed =
      if ignore then .ok (some gate.bypassed) else .error (.bypassNotAllowed scope) := by
  unfold bypassFrom
  simp only [Plan.gateOf, gated, found, Option.bind_some, Option.map_some, ne_eq, not_true,
    if_false, allowed, Bool.and_true]

/-- On the way into a running state only the engine refuses. -/
theorem enter_failsBy (stages : Stages S) (through : Option S) :
    (enter stages through).FailsBy fun e ↦ ∃ cause, e = .operation cause := by
  unfold enter
  refine (Attempt.failsBy_ofOperation _ fun e ↦ ⟨e, rfl⟩).bind fun g ↦ ?_
  have start := Attempt.failsBy_ofOperation (g.start : Proc (Site S) _)
    (P := fun e ↦ ∃ cause, e = .operation cause) fun e ↦ ⟨e, rfl⟩
  cases through with
  | none => exact start
  | some b =>
    refine (Attempt.failsBy_liftM _).bind fun r ↦ ?_
    cases r with
    | error cause =>
      refine (Attempt.failsBy_liftM _).bind fun _ s e failed ↦ ?_
      exact ⟨cause, (Except.error.inj failed).symm⟩
    | ok u => exact start

variable [ToString S]

/-- Without permission the flag does nothing to a request. -/
theorem act_begin_eq (gated : t.gatedBy? = some scope)
    (forbidden : w.options.allowsIgnoring scope = false) (ignore ignore' : Bool) :
    w.act (.begin t ignore) = w.act (.begin t ignore') := by
  have begin_eq : w.begin t ignore = w.begin t ignore' := by
    unfold Workflow.begin
    rw [bypass_eq gated forbidden ignore ignore']
  exact congrArg (answer · fun a ↦ (.accepted a.status, some a.job)) begin_eq

theorem next_eq_of_sameBut (forbidden : w.options.allowsIgnoring scope = false) {e e' : Event}
    (same : e.SameBut scope e') (s : Session S) : s.next w e = s.next w e' := by
  cases same with
  | same => rfl
  | flag gated ignore ignore' =>
    have act_eq := act_begin_eq gated forbidden ignore ignore'
    exact congrArg (fun p ↦ (some (s.take p).1, (s.take p).2)) act_eq

/-- Without permission the flags do nothing to a run. -/
theorem transcript_eq_of_sameBut (forbidden : w.options.allowsIgnoring scope = false)
    {events events' : List Event} (same : List.Forall₂ (Event.SameBut scope) events events')
    (s : Session S) : s.transcript w events = s.transcript w events' := by
  induction same generalizing s with
  | nil => rfl
  | cons head _ ih =>
    unfold Session.transcript
    rw [next_eq_of_sameBut forbidden head s, ih]

/-- A task that is begun is refused as its flag is. -/
theorem run_begin_error {stages : Stages S} {ignore : Bool} {s : Site S} {e : ActionError S}
    (supported : w.plan.stages w.options (.task t) = .ok stages)
    (h : w.bypassFrom ignore t s.engine.current = .error e) :
    (w.act (.begin t ignore)).run s = ((.refused e, none), s) := by
  unfold act
  rw [run_answer, show (w.begin t ignore).on s = (.error e, s) from ?_]
  unfold Workflow.begin
  rw [Attempt.on_bind_ok (on_stages_ok supported), Attempt.on_bind_error
    ((on_bypass ignore t).trans (congrArg (·, s) h))]

/-- A task whose flag is accepted is refused by the engine alone. -/
theorem begin_failsBy {stages : Stages S} {ignore : Bool} {s : Site S} {through : Option S}
    {e : ActionError S} (supported : w.plan.stages w.options (.task t) = .ok stages)
    (h : w.bypassFrom ignore t s.engine.current = .ok through)
    (refused : ((w.act (.begin t ignore)).run s).1 = (.refused e, none)) :
    ∃ cause, e = .operation cause := by
  have fails : ((w.begin t ignore).on s).1 = .error e → ∃ cause, e = .operation cause := by
    unfold Workflow.begin
    rw [Attempt.on_bind_ok (on_stages_ok supported), Attempt.on_bind_ok
      ((on_bypass ignore t).trans (congrArg (·, s) h))]
    exact (enter_failsBy stages through).bind (fun r ↦ Attempt.failsBy_liftM _) s e
  refine fails ?_
  unfold act at refused
  rw [run_answer] at refused
  cases found : (w.begin t ignore).on s with
  | mk r s' =>
    rw [found] at refused
    cases r with
    | ok a => cases refused
    | error e' =>
      obtain ⟨same, -⟩ := Prod.mk.inj refused
      exact congrArg Except.error (Answer.refused.inj same)

/-! ### The statement -/

/-- What the flags of the tasks do that failed checks of a scope can stand in the way of. -/
structure FlagInfluence (w : Workflow S) (scope : PreflightScope) : Prop where
  /-- Without permission a request is carried out by the same steps, whatever others do in
  between. -/
  program_eq : w.options.allowsIgnoring scope = false → ∀ t, t.gatedBy? = some scope →
    ∀ ignore ignore', w.act (.begin t ignore) = w.act (.begin t ignore')
  /-- Without permission two runs that differ only in the flags have the same answers, and the same
  engines and stores at every step. -/
  transcript_eq : w.options.allowsIgnoring scope = false → ∀ values now events events',
    List.Forall₂ (Event.SameBut scope) events events' →
      w.transcript values now events = w.transcript values now events'
  /-- With or without permission, the flag does nothing outside the state of failed checks. -/
  run_eq : ∀ t, t.gatedBy? = some scope → ∀ s : Site S,
    (∀ gate, w.plan.gate scope = some gate → s.engine.current ≠ gate.closed) →
      ∀ ignore ignore', (w.act (.begin t ignore)).run s = (w.act (.begin t ignore')).run s
  /-- With permission it decides there. -/
  decides : w.options.allowsIgnoring scope = true → ∀ t, t.gatedBy? = some scope →
    ∀ stages, w.plan.stages w.options (.task t) = .ok stages →
      ∀ gate, w.plan.gate scope = some gate → ∀ s : Site S, s.engine.current = gate.closed →
        (w.act (.begin t false)).run s = ((.refused (.bypassNotAllowed scope), none), s) ∧
          ((w.act (.begin t true)).run s).1 ≠ (.refused (.bypassNotAllowed scope), none)

/-- Away from the state of failed checks it makes no difference whether a client asks to pass over
them. -/
theorem run_act_of_ne (gated : t.gatedBy? = some scope) {s : Site S}
    (elsewhere : ∀ gate, w.plan.gate scope = some gate → s.engine.current ≠ gate.closed)
    (ignore ignore' : Bool) :
    (w.act (.begin t ignore)).run s = (w.act (.begin t ignore')).run s := by
  have bypass_eq (ignore : Bool) : (w.bypass ignore t).on s = (.ok none, s) :=
    (on_bypass ignore t).trans (congrArg (·, s) (bypassFrom_of_ne gated elsewhere ignore))
  unfold act
  rw [run_answer, run_answer]
  suffices h : (w.begin t ignore).on s = (w.begin t ignore').on s by rw [h]
  unfold Workflow.begin
  cases found : w.plan.stages w.options (.task t) with
  | error what =>
    rw [Attempt.on_bind_error (on_stages_error found),
      Attempt.on_bind_error (on_stages_error found)]
  | ok stages =>
    rw [Attempt.on_bind_ok (on_stages_ok found), Attempt.on_bind_ok (on_stages_ok found),
      Attempt.on_bind_ok (bypass_eq ignore), Attempt.on_bind_ok (bypass_eq ignore')]

/-- In every workflow a flag has influence only where it is permitted and needed. -/
theorem flagInfluence (w : Workflow S) (scope : PreflightScope) : w.FlagInfluence scope where
  program_eq forbidden t gated := act_begin_eq gated forbidden
  transcript_eq forbidden values now events events' same :=
    transcript_eq_of_sameBut forbidden same _
  run_eq t gated s elsewhere := run_act_of_ne gated elsewhere
  decides allowed t gated stages supported gate found s closed := by
    have decided := bypassFrom_closed gated found allowed
    rw [← closed] at decided
    refine ⟨run_begin_error supported (decided false), fun refused ↦ ?_⟩
    obtain ⟨cause, same⟩ := begin_failsBy supported (decided true) refused
    cases same

end Workflow

/-- In every installation and every upgrade, for the checks of the hosts and for those of the
application, the flag that asks to pass over failures has no influence without permission, and with
permission none but where checks have failed. -/
theorem flag_influence (options : Options) (schema : AppConfigSchema)
    (titles : PreflightScope → List String) (scope : PreflightScope) :
    (Workflow.install options schema titles).FlagInfluence scope ∧
      (Workflow.upgrade options schema titles).FlagInfluence scope :=
  ⟨Workflow.flagInfluence _ scope, Workflow.flagInfluence _ scope⟩

end Rollout
