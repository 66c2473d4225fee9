import Rollout.Proofs.Ownership
import Rollout.Proofs.Simulation

/-!
# Refusals

An action that is refused changes neither the engine, the count of its locks apart, nor any store,
and no collaborator is called.  This holds between two events as well as at any moment at which
another event is under way: the actions obey the protocol of the lock, so that the engine is locked
at such a moment, or as before the event, or as after it.
-/

namespace Rollout

variable {S α β : Type}

/-! ### Attempts obey the protocol -/

namespace Attempt

open Proc

theorem aside_bind {x : Attempt S α} {k : α → Attempt S β} (h : x.run.Aside)
    (rest : ∀ a, (k a).run.Aside) : (x >>= k).run.Aside := by
  show (x.run >>= ExceptT.bindCont k).Aside
  refine h.bind ?_
  rintro (e | a)
  · exact .done _
  · exact rest a

theorem aside_liftM {p : Proc (Site S) α} (h : p.Aside) : (liftM p : Attempt S α).run.Aside := by
  show (p >>= fun a ↦ pure (Except.ok a)).Aside
  exact h.bind fun _ ↦ .done _

section Rules

variable [DecidableEq S] {R : Except (ActionError S) β → Standing → Prop} {σ : Standing}

/-- An attempt goes on from where its first part has led, or it ends there. -/
theorem then_obeys {x : Attempt S α} {k : α → Attempt S β}
    {σ' : Except (ActionError S) α → Standing} (h : x.run.Leads σ σ')
    (ok : ∀ a, (k a).run.Obeys R (σ' (.ok a))) (error : ∀ e, R (.error e) (σ' (.error e))) :
    (x >>= k).run.Obeys R σ := by
  show (x.run >>= ExceptT.bindCont k).Obeys R σ
  refine h.then ?_
  rintro (e | a)
  · exact .done (error e)
  · exact ok a

/-- What is done outside of an attempt does not end it. -/
theorem liftM_then_obeys {p : Proc (Site S) α} {k : α → Attempt S β} {σ' : α → Standing}
    (h : p.Leads σ σ') (ok : ∀ a, (k a).run.Obeys R (σ' a)) :
    ((liftM p : Attempt S α) >>= k).run.Obeys R σ := by
  show ((p >>= fun a ↦ pure (Except.ok a)) >>= ExceptT.bindCont k).Obeys R σ
  have lifts : (p >>= fun a ↦ pure (Except.ok a) :
      Proc (Site S) (Except (ActionError S) α)).Obeys (fun r τ ↦ ∃ a, r = .ok a ∧ τ = σ' a) σ :=
    h.then fun a ↦ .done ⟨a, rfl, rfl⟩
  refine lifts.bind ?_
  rintro _ _ ⟨a, rfl, rfl⟩
  exact ok a

theorem ofOperation_obeys {Q : Except (ActionError S) α → Standing → Prop}
    {p : Proc (Site S) (Except (OperationError S) α)}
    (h : p.Obeys (fun r τ ↦ Q (r.mapError .operation) τ) σ) : (ofOperation p).run.Obeys Q σ := by
  show (p >>= fun r ↦ pure (r.mapError ActionError.operation)).Obeys Q σ
  exact h.bind fun r τ post ↦ .done post

theorem ofOperation_leads {lock : α → Lock} {p : Proc (Site S) (Except (OperationError S) α)}
    (h : p.Leads σ (.after lock)) : (ofOperation p).run.Leads σ (.after lock) :=
  ofOperation_obeys <| h.obeys <| by rintro (e | a) <;> rfl

end Rules
end Attempt

namespace Site

theorem aside_look (f : Stores → α) : (look f : Proc (Site S) α).Aside := Proc.aside_read _

theorem aside_write (f : Stores → Stores) : (write f : Proc (Site S) Unit).Aside :=
  Proc.aside_modify fun _ ↦ rfl

theorem aside_mark (a : Activity) (state : Status) (text : String) :
    (mark a state text : Proc (Site S) Unit).Aside :=
  Proc.aside_modify fun _ ↦ rfl

theorem aside_clear (t : Task) : (clear t : Proc (Site S) Unit).Aside := by
  refine (aside_write _).bind fun _ ↦ ?_
  cases t with
  | preflights scope => exact (aside_write _).bind fun _ ↦ aside_write _
  | infrastructure => exact (aside_write _).bind fun _ ↦ aside_write _
  | airgap => exact aside_write _
  | deployment => exact (aside_write _).bind fun _ ↦ aside_write _

end Site

namespace Workflow

variable {w : Workflow S}

theorem aside_values : w.values.Aside := Site.aside_look _

theorem aside_stages (a : Activity) : (w.stages a).run.Aside := by
  unfold Workflow.stages
  cases w.plan.stages w.options a <;> exact .done _

theorem aside_mergePatch (patch : ConfigValues) : (w.mergePatch patch).Aside := by
  unfold mergePatch
  refine (Site.aside_look _).bind fun values ↦ ?_
  dsimp only
  cases w.schema.validate (AppConfigSchema.merge values patch) with
  | error e => exact .done _
  | ok u => exact (Site.aside_write _).bind fun _ ↦ aside_values.bind fun _ ↦ .done _

theorem aside_storeSettings (settings : InstallationConfig) :
    (storeSettings settings : Proc (Site S) _).Aside := by
  unfold storeSettings
  cases settings.validate with
  | error e => exact .done _
  | ok u => exact (Site.aside_write _).bind fun _ ↦ .done _

theorem aside_prepare (t : Task) : (w.prepare t).Aside := by
  refine (Site.aside_clear t).bind fun _ ↦ ?_
  cases t with
  | preflights scope => exact (Site.aside_write _).bind fun _ ↦ .done _
  | infrastructure =>
    cases w.plan.mode with
    | install => exact (Site.aside_look _).bind fun _ ↦ .done _
    | upgrade => exact .done _
  | airgap => exact .done _
  | deployment =>
    refine aside_values.bind fun _ ↦ ?_
    cases w.plan.mode <;> exact .done _

theorem aside_launch (t : Task) (running : Running S) : (w.launch t running).Aside :=
  (aside_prepare t).bind fun _ ↦ (Site.aside_mark ..).bind fun _ ↦
    (Site.aside_look _).bind fun _ ↦ .done _

theorem aside_describe [ToString S] (t : Task) (r : Except (OperationError S) Unit) :
    (w.describe t r).Aside := by
  cases r <;> exact Site.aside_mark ..

theorem aside_describeChecks [ToString S] (scope : PreflightScope)
    (r : Except (OperationError S) Bool) : (w.describeChecks scope r).Aside := by
  rcases r with e | ⟨_ | _⟩
  · exact aside_describe (w := w) _ (.error e)
  · exact aside_describe (w := w) _ (.ok ())
  · exact Site.aside_mark ..

variable [DecidableEq S]

theorem aside_bypass (ignore : Bool) (t : Task) : (w.bypass ignore t).run.Aside := by
  unfold bypass
  cases t.gatedBy?.bind fun scope ↦ (w.plan.gate scope).map (scope, ·) with
  | none => exact .done _
  | some gated =>
    obtain ⟨scope, gate⟩ := gated
    refine Attempt.aside_bind (Attempt.aside_liftM (Proc.aside_read _)) fun current ↦ ?_
    split
    · exact .done _
    · split <;> exact .done _

/-- To enter an activity leads inside with the lock, or it is over. -/
theorem enter_leads (stages : Stages S) (through : Option S) :
    (enter stages through).run.Leads .outside (.after Running.lock) := by
  have starts (g : Guarded S) : (Attempt.ofOperation (g.start : Proc (Site S) _)).run.Leads
      (.inside g.lock) (.after Running.lock) := Attempt.ofOperation_leads g.start_leads
  have acquires := Attempt.ofOperation_leads (Guarded.acquire_leads (P := Stores) stages)
  refine Attempt.then_obeys acquires (fun g ↦ ?_) fun _ ↦ rfl
  cases through with
  | none => exact starts g
  | some b =>
    refine Attempt.liftM_then_obeys (g.transition_leads b) ?_
    rintro (e | u)
    · exact Attempt.liftM_then_obeys g.drop_leads fun _ ↦ .done rfl
    · exact starts g

theorem begin_obeys (t : Task) (ignore : Bool) :
    (w.begin t ignore).run.Obeys (fun _ _ ↦ True) .outside := by
  unfold Workflow.begin
  refine Attempt.then_obeys ((aside_stages _).leads _) (fun stages ↦ ?_) fun _ ↦ trivial
  refine Attempt.then_obeys ((aside_bypass ignore t).leads _) (fun through ↦ ?_) fun _ ↦ trivial
  refine Attempt.then_obeys (enter_leads stages through) (fun running ↦ ?_) fun _ ↦ trivial
  exact (Attempt.aside_liftM (aside_launch t running)).obeys fun _ ↦ trivial

theorem answer_obeys {attempt : Attempt S α} {f : α → Answer S × Option (Job S)}
    (h : attempt.run.Obeys (fun _ _ ↦ True) .outside) :
    (answer attempt f).Obeys (fun _ _ ↦ True) .outside := by
  refine Proc.Obeys.bind h ?_
  rintro (e | a) σ - <;> exact .done trivial

variable [ToString S]

/-- A configuration obeys the lock. -/
theorem settleNow_obeys (a : Activity) (running succeeded : String)
    {work : Proc (Site S) (Outcome (α × Option S))} (works : work.Aside) :
    (w.settleNow a running succeeded work).run.Obeys (fun _ _ ↦ True) .outside := by
  unfold settleNow
  refine Attempt.then_obeys ((aside_stages a).leads _) (fun stages ↦ ?_) fun _ ↦ trivial
  refine Attempt.then_obeys (enter_leads stages none) (fun operation ↦ ?_) fun _ ↦ trivial
  refine Attempt.ofOperation_obeys ((Site.aside_mark ..).then fun _ ↦ ?_)
  refine (operation.run_leads works fun _ ↦ .done _).then ?_
  rintro (e | v) <;> exact (Site.aside_mark ..).then fun _ ↦ .done trivial

/-- An action takes the lock once at most; a task that begins leaves it to its job. -/
theorem act_obeys (a : Action) : (w.act a).Obeys (fun _ _ ↦ True) .outside := by
  cases a with
  | patchValues patch => exact answer_obeys (settleNow_obeys _ _ _ (aside_mergePatch patch))
  | configureInstallation settings =>
    exact answer_obeys (settleNow_obeys _ _ _ (aside_storeSettings settings))
  | begin t ignore => exact answer_obeys (begin_obeys t ignore)

/-- The end of a job gives back the lock that the job holds. -/
theorem finish_obeys (running : Running S) (t : Task) (outcome : Outcome t.Value) :
    (w.finish running t outcome).Obeys (fun _ _ ↦ True) (.inside running.lock) := by
  have concludes {β : Type} (outcome : Outcome (β × Option S))
      {report : Except (OperationError S) β → Proc (Site S) Unit}
      (reports : ∀ r, (report r).Aside) :
      (do let _ ← running.conclude outcome report : Proc (Site S) Unit).Obeys (fun _ _ ↦ True)
        (.inside running.lock) :=
    (running.conclude_leads outcome reports).then fun _ ↦ .done trivial
  cases t with
  | preflights scope =>
    cases outcome with
    | returned o => exact (Site.aside_write _).then fun _ ↦ concludes _ (aside_describeChecks scope)
    | failed f => exact concludes _ (aside_describeChecks scope)
    | panicked p => exact concludes _ (aside_describeChecks scope)
  | infrastructure => exact concludes _ (aside_describe _)
  | airgap => exact concludes _ (aside_describe _)
  | deployment =>
    cases outcome with
    | returned r => exact (Site.aside_write _).then fun _ ↦ concludes _ (aside_describe _)
    | failed f => exact concludes _ (aside_describe _)
    | panicked p => exact concludes _ (aside_describe _)

end Workflow

/-! ### While an event is under way -/

variable [DecidableEq S] [ToString S]

/-- The session comes by this site while an event is under way; reports and the clock change a site
in one step. -/
inductive Session.Amid (w : Workflow S) (s : Session S) (t : Site S) : Prop
  | acting (a : Action) (passes : (w.act a).Passes s.site t)
  | ending {job : Job S} (flying : s.job = some job)
      (outcome : (c : Call) → Outcome c.task.Value)
      (passes : (w.finish job.running job.call.task (outcome job.call)).Passes s.site t)

namespace Session

variable {w : Workflow S} {s : Session S} {t : Site S}

/-- If the engine is free in between, the workflow waits. -/
theorem Consistent.amid (sound : w.plan.Sound w.options) (consistent : s.Consistent w)
    (amid : s.Amid w t) : t.engine.table = w.table ∧
      (t.engine.held = none → t.engine.current ∈ w.plan.resting w.options) := by
  have rests {s' : Session S} (h : s'.Consistent w) (free : s'.site.engine.held = none) :
      s'.site.engine.current ∈ w.plan.resting w.options := (h.idle (h.no_job free)).2
  cases amid with
  | acting a passes =>
    have obeys := Workflow.act_obeys (w := w) a
    refine ⟨(obeys.table_eq passes).trans consistent.table, fun free ↦ ?_⟩
    rcases obeys.passes nofun passes with same | held | same
    · rw [same] at free ⊢
      exact rests consistent free
    · exact absurd free held
    · rw [same] at free ⊢
      exact rests (next_follows sound consistent (.act a)).1 free
  | @ending job flying outcome passes =>
    obtain ⟨current, -, -⟩ := consistent.busy job flying
    have obeys := Workflow.finish_obeys (w := w) job.running job.call.task (outcome job.call)
    refine ⟨(obeys.table_eq passes).trans consistent.table, fun free ↦ ?_⟩
    rcases obeys.passes (by rintro lock ⟨⟩; exact current) passes with same | held | same
    · rw [same] at free ⊢
      exact rests consistent free
    · exact absurd free held
    · have consistent' := (next_follows sound consistent (.complete outcome)).1
      have site_eq : (s.next w (.complete outcome)).2.site =
          ((w.finish job.running job.call.task (outcome job.call)).run s.site).2 := by
        show (s.complete w outcome).site = _
        unfold complete
        rw [flying]
        rfl
      rw [same, ← site_eq] at free ⊢
      exact rests consistent' free

end Session

/-! ### Refusals -/

/-- The state, the lock, the last transition and all stores are the same. -/
structure Site.Alike (s s' : Site S) : Prop where
  current : s'.engine.current = s.engine.current
  held : s'.engine.held = s.engine.held
  last : s'.engine.last = s.engine.last
  stores : s'.payload = s.payload

namespace Workflow

variable {w : Workflow S}

/-- A refused action leaves the site alike, and no job. -/
theorem Acted.alike {s s' : Site S} {a : Action} {e : ActionError S} {job : Option (Job S)}
    (acted : w.Acted s a (.refused e, job) s') (refusal : e.isRefusal = true) :
    s.Alike s' ∧ job = none := by
  cases acted with
  | refused a refusal valid untouched =>
    obtain ⟨generation, rfl⟩ := untouched
    exact ⟨⟨rfl, rfl, rfl, rfl⟩, rfl⟩
  | patchRejected | configurationRejected => nomatch refusal

/-- Refused actions leave no trace. -/
structure RefusesAtomically (w : Workflow S) : Prop where
  /-- Between two events of a session, with or without a job in flight. -/
  between : ∀ (values : Option ConfigValues) (now : Timestamp) (events : List Event) (a : Action)
    (e : ActionError S), let s := w.after values now events
    (s.next w (.act a)).1 = some (.refused e) → e.isRefusal = true →
      s.site.Alike (s.next w (.act a)).2.site ∧ (s.next w (.act a)).2.job = s.job ∧
        s.fact w (.act a) = none
  /-- While another event is under way. -/
  amid : ∀ (values : Option ConfigValues) (now : Timestamp) (events : List Event) (t : Site S),
    (w.after values now events).Amid w t → ∀ (a : Action) (e : ActionError S)
      (job : Option (Job S)), ((w.act a).run t).1 = (.refused e, job) → e.isRefusal = true →
        t.Alike ((w.act a).run t).2 ∧ job = none

/-- Every workflow with a sound plan refuses atomically. -/
theorem refusesAtomically (sound : w.plan.Sound w.options) : w.RefusesAtomically := by
  have amid : ∀ (values : Option ConfigValues) (now : Timestamp) (events : List Event) (t : Site S),
      (w.after values now events).Amid w t → ∀ (a : Action) (e : ActionError S)
        (job : Option (Job S)), ((w.act a).run t).1 = (.refused e, job) → e.isRefusal = true →
          t.Alike ((w.act a).run t).2 ∧ job = none := by
    intro values now events t amid a e job answered refusal
    have consistent := w.consistent_after sound values now events
    obtain ⟨table, rest⟩ := consistent.amid sound amid
    have acted := act_cases sound table rest a
    rw [answered] at acted
    exact acted.alike refusal
  refine ⟨?_, amid⟩
  intro values now events a e s answered refusal
  obtain ⟨⟨⟨answer, job⟩, site⟩, ran⟩ : ∃ r, (w.act a).run s.site = r := ⟨_, rfl⟩
  obtain ⟨next_eq, fact_eq⟩ := Session.next_act ran
  have same : answer = .refused e := by
    have : some ((w.act a).run s.site).1.1 = some (.refused e) := answered
    rw [ran] at this
    exact Option.some.inj this
  subst same
  obtain ⟨alike, rfl⟩ := amid values now events s.site (.acting a (.start _ _)) a e job
    (by rw [ran]) refusal
  rw [ran] at alike
  rw [next_eq, fact_eq]
  exact ⟨alike, rfl, a.fact_refused refusal⟩

end Workflow

/-- Whatever an installation or an upgrade refuses leaves everything as it was. -/
theorem refusals_atomic (options : Options) (schema : AppConfigSchema)
    (titles : PreflightScope → List String) :
    (Workflow.install options schema titles).RefusesAtomically ∧
      (Workflow.upgrade options schema titles).RefusesAtomically :=
  ⟨Workflow.refusesAtomically (InstallState.plan_sound options),
    Workflow.refusesAtomically (UpgradeState.plan_sound options)⟩

def checkingHosts : Session InstallState :=
  (Workflow.install {} {} fun _ ↦ []).after none Timestamp.epoch
    [.act (.patchValues .empty), .act (.configureInstallation {}),
      .act (.begin (.preflights .host) false)]

/-- No patch is taken while the hosts are being checked, and the checks go on. -/
theorem patch_refused_during_checks :
    (checkingHosts.next (Workflow.install {} {} fun _ ↦ []) (.act (.patchValues .empty))).1 =
        some (.refused (.operation (.engine .busy))) ∧
      checkingHosts.job.isSome ∧
      checkingHosts.site.Alike (checkingHosts.next (Workflow.install {} {} fun _ ↦ [])
        (.act (.patchValues .empty))).2.site ∧
      (checkingHosts.next (Workflow.install {} {} fun _ ↦ []) (.act (.patchValues .empty))).2.job =
        checkingHosts.job := by
  have refused : (checkingHosts.next (Workflow.install {} {} fun _ ↦ [])
      (.act (.patchValues .empty))).1 = some (.refused (.operation (.engine .busy))) := rfl
  obtain ⟨installs, -⟩ := refusals_atomic {} {} fun _ ↦ []
  obtain ⟨alike, job_eq, -⟩ := installs.between none Timestamp.epoch _ _ _ refused rfl
  exact ⟨refused, rfl, alike, job_eq⟩

end Rollout
