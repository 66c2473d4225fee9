import Rollout.Proofs.Fitting
import Rollout.Proofs.Simulation
import Rollout.Proofs.Trace

/-!
# A way to success

No history of failures gets a workflow stuck before it changes the cluster.  Wherever it waits, some
activity can be entered whose success leaves less to do (`Plan.LeadsOn`), whatever is stored can be
patched into something acceptable, and so by induction on what is left to do every workflow that is
not lost can be brought to success without passing over failed checks.  From success itself, and
from the failure of what changes the cluster, no edge leads on: there every action is refused for
ever.
-/

namespace Rollout

variable {S : Type}

/-! ### When all goes well -/

/-- A client asks for something, but not to pass over failed checks, or a task succeeds. -/
def Event.GoesWell : Event → Prop
  | act (.begin _ ignore) => ignore = false
  | act (.patchValues _) | act (.configureInstallation _) => True
  | complete outcome => ∀ c : Call, c.task.GoesWell (outcome c)
  | note _ | tick _ => False

/-- An activity has succeeded. -/
def Fact.GoesWell : Fact → Prop
  | patched _ accepted | configured _ accepted => accepted = true
  | began .. => False
  | ended t outcome => t.GoesWell outcome

/-- A task succeeds. -/
def Task.done : (t : Task) → Outcome t.Value
  | .preflights _ => .returned ({} : PreflightOutput)
  | .infrastructure | .airgap => .returned ()
  | .deployment => .returned ({} : AppRelease)

/-- There is an outcome with which a task succeeds. -/
theorem Task.done_goesWell (t : Task) : t.GoesWell t.done := by
  cases t with
  | preflights scope => rfl
  | infrastructure | airgap | deployment => trivial

namespace Workflow

variable {w : Workflow S}

/-- A task for which all goes well settles in its succeeded state. -/
theorem outcomeState_of_goesWell (stages : Stages S) {t : Task} {outcome : Outcome t.Value}
    (well : t.GoesWell outcome) : w.outcomeState stages t outcome = stages.succeeded := by
  cases t with
  | preflights scope =>
    cases outcome with
    | returned o =>
      have no_failures : PreflightOutput.hasFailures o = false := well
      show (w.settledChecks scope o).getD stages.succeeded = _
      unfold settledChecks
      rw [no_failures]
      rfl
    | failed | panicked => exact well.elim
  | infrastructure | airgap | deployment =>
    cases outcome with
    | returned => rfl
    | failed | panicked => exact well.elim

/-- What goes well leads to the state of success. -/
theorem Step.succeeds [DecidableEq S] {o o' : Outline S} {f : Fact} (step : w.Step o f o')
    (well : f.GoesWell) : o'.call = none ∧
      ∃ stages, (f.activity, stages) ∈ w.plan.activities w.options ∧
        o'.current = stages.succeeded := by
  cases step with
  | patched enters | configured enters => exact ⟨enters.idle, _, enters.has, rfl⟩
  | patchRejected | configurationRejected => nomatch well
  | began => exact well.elim
  | ended outcome has calling running => exact ⟨rfl, _, has, outcomeState_of_goesWell _ well⟩

end Workflow

/-! ### Plans that lead on -/

/-- Wherever a workflow waits, it has reached its goal, or it is lost, or some activity can be
entered whose success leaves less to do. -/
structure Plan.LeadsOn [DecidableEq S] (p : Plan S) (o : Options) (goal : S) (lost : List S)
    (left : S → Nat) : Prop where
  advances : ∀ s ∈ p.resting o, s = goal ∨ s ∈ lost ∨ ∃ x ∈ p.activities o,
    (p.table o.target o.airgap).allows s x.2.running = true ∧
      (∀ g ∈ p.gateOf x.1, s ≠ g.2.closed) ∧ x.2.succeeded ∉ lost ∧ left x.2.succeeded < left s
  ends : ∀ s ∈ goal :: lost, ∀ e ∈ (p.table o.target o.airgap).edges, e.1 ≠ s

variable [DecidableEq S] [ToString S]

/-- Where a workflow can get from here. -/
structure Session.NeverWedged (w : Workflow S) (goal : S) (lost : List S) (s : Session S) :
    Prop where
  /-- A workflow that waits and is not lost can reach its goal. -/
  completes : s.site.engine.held = none → s.site.engine.current ∉ lost →
    ∃ events : List Event, (∀ e ∈ events, e.GoesWell) ∧
      (s.after w events).site.engine.current = goal ∧ (s.after w events).site.engine.held = none
  /-- Where the application can be configured, some patch is accepted. -/
  patchable : s.site.engine.held = none →
    ∀ stages, w.plan.stages w.options .configureApp = .ok stages →
      s.site.engine.canTransition stages.running = true →
      ∃ patch v, (s.next w (.act (.patchValues patch))).1 = some (.values v)
  /-- At the goal, and where it is lost, it stays for ever. -/
  final : s.site.engine.current ∈ goal :: lost → ∀ events : List Event,
    (s.after w events).site.engine.current = s.site.engine.current ∧
      ∀ a, ∃ e, ((s.after w events).next w (.act a)).1 = some (.refused e) ∧ e.isRefusal = true

/-- Only what is refused comes to nothing. -/
theorem Workflow.Acted.refused_of_fact {w : Workflow S} {s s' : Site S} {a : Action}
    {answered : Answer S × Option (Job S)} (acted : w.Acted s a answered s')
    (nothing : a.fact answered = none) : ∃ e, answered.1 = .refused e ∧ e.isRefusal = true := by
  cases acted with
  | @refused a e refusal valid s' untouched => exact ⟨e, rfl, refusal⟩
  | patched | patchRejected | configured | configurationRejected | began => nomatch nothing

namespace Session

variable {w : Workflow S} {s : Session S}

omit [DecidableEq S] [ToString S] in
theorem idle_of_call (idle : s.outline.call = none) : s.job = none := Option.map_eq_none_iff.1 idle

/-- Events that come after others are handled in the session that these have led to. -/
theorem after_append (w : Workflow S) (s : Session S) (first second : List Event) :
    s.after w (first ++ second) = (s.after w first).after w second := List.foldl_append ..

/-! ### One activity further -/

/-- Whatever is stored, some patch is accepted where patches are taken. -/
theorem patch_accepted {stages : Stages S}
    (supported : w.plan.stages w.options .configureApp = .ok stages)
    (free : s.site.engine.held = none)
    (can : s.site.engine.canTransition stages.running = true) :
    ∃ patch v, ((w.act (.patchValues patch)).run s.site).1 = (.values v, none) := by
  have valid := AppConfigSchema.validate_merge_fitting w.schema s.site.payload.values
  refine ⟨w.schema.fitting s.site.payload.values, w.schema.resolve (AppConfigSchema.merge
    s.site.payload.values (w.schema.fitting s.site.payload.values)), ?_⟩
  unfold Workflow.act
  rw [Workflow.run_answer, Workflow.on_patchValues_accepted supported free can valid]

/-- Some settings are accepted where settings are taken. -/
theorem settings_accepted {stages : Stages S}
    (supported : w.plan.stages w.options .configureInstallation = .ok stages)
    (free : s.site.engine.held = none)
    (can : s.site.engine.canTransition stages.running = true) :
    ∃ c, ((w.act (.configureInstallation c)).run s.site).1 = (.settings c, none) := by
  refine ⟨{}, ?_⟩
  unfold Workflow.act
  rw [Workflow.run_answer, Workflow.on_configureInstallation_accepted supported free can rfl]

/-- A task is accepted where it can be entered and no failed checks are in its way. -/
theorem task_accepted {t : Task} {stages : Stages S}
    (supported : w.plan.stages w.options (.task t) = .ok stages)
    (free : s.site.engine.held = none)
    (can : s.site.engine.canTransition stages.running = true)
    (opened : ∀ g ∈ w.plan.gateOf (.task t), s.site.engine.current ≠ g.2.closed) :
    ∃ r job site, (w.act (.begin t false)).run s.site = ((.accepted r, some job), site) := by
  have passes : w.bypassFrom false t s.site.engine.current = .ok none := by
    unfold Workflow.bypassFrom
    cases gated : w.plan.gateOf (.task t) with
    | none => rfl
    | some g => exact if_pos (opened g gated)
  unfold Workflow.act
  rw [Workflow.run_answer, Workflow.on_begin_ok supported passes free can]
  exact ⟨_, _, _, rfl⟩

section Advance

variable (sound : w.plan.Sound w.options)

include sound

/-- An event that comes to a success leaves the workflow in the state of this success. -/
theorem Consistent.succeeds (consistent : s.Consistent w) {e : Event} {f : Fact}
    (fact : s.fact w e = some f) (well : f.GoesWell) {stages : Stages S}
    (has : (f.activity, stages) ∈ w.plan.activities w.options) :
    (s.next w e).2.Consistent w ∧ (s.next w e).2.job = none ∧
      (s.next w e).2.site.engine.current = stages.succeeded := by
  obtain ⟨consistent', follows⟩ := next_follows sound consistent e
  rw [fact] at follows
  obtain ⟨idle, stages', has', current⟩ := follows.1.succeeds well
  obtain rfl := Plan.stages_unique has has'
  exact ⟨consistent', idle_of_call idle, current⟩

/-- An activity that can be entered can succeed. -/
theorem Consistent.advances (consistent : s.Consistent w) (idle : s.job = none) {a : Activity}
    {stages : Stages S} (has : (a, stages) ∈ w.plan.activities w.options)
    (can : s.site.engine.canTransition stages.running = true)
    (opened : ∀ g ∈ w.plan.gateOf a, s.site.engine.current ≠ g.2.closed) :
    ∃ events : List Event, (∀ e ∈ events, e.GoesWell) ∧
      (s.after w events).Consistent w ∧ (s.after w events).job = none ∧
      (s.after w events).site.engine.current = stages.succeeded := by
  have supported := Plan.mem_activities.1 has
  have free := (consistent.idle idle).1
  cases a with
  | configureApp =>
    obtain ⟨patch, v, answered⟩ := patch_accepted supported free can
    have fact : s.fact w (.act (.patchValues patch)) = some (.patched patch true) :=
      congrArg (Action.patchValues patch).fact answered
    exact ⟨[.act (.patchValues patch)], by simp [Event.GoesWell],
      consistent.succeeds sound fact rfl has⟩
  | configureInstallation =>
    obtain ⟨c, answered⟩ := settings_accepted supported free can
    have fact : s.fact w (.act (.configureInstallation c)) = some (.configured c true) :=
      congrArg (Action.configureInstallation c).fact answered
    exact ⟨[.act (.configureInstallation c)], by simp [Event.GoesWell],
      consistent.succeeds sound fact rfl has⟩
  | task t =>
    obtain ⟨r, job, site, ran⟩ := task_accepted supported free can opened
    obtain ⟨next_eq, fact⟩ := next_act ran
    obtain ⟨consistent', follows⟩ := next_follows sound consistent (.act (.begin t false))
    rw [fact] at follows
    have task_eq : job.call.task = t := follows.1.task_eq
    have flying : (s.next w (.act (.begin t false))).2.job = some job := by rw [next_eq]; rfl
    have ends : (s.next w (.act (.begin t false))).2.fact w (.complete fun c ↦ c.task.done) =
        some (.ended job.call.task job.call.task.done) := by
      unfold Session.fact
      rw [flying]
      rfl
    refine ⟨[.act (.begin t false), .complete fun c ↦ c.task.done], ?_,
      consistent'.succeeds sound ends (Task.done_goesWell _) (task_eq ▸ has)⟩
    simp [Event.GoesWell, Task.done_goesWell]

variable {goal : S} {lost : List S} {left : S → Nat}

/-- Activity by activity, a workflow that waits and is not lost gets to its goal. -/
theorem Consistent.completes (leadsOn : w.plan.LeadsOn w.options goal lost left)
    (consistent : s.Consistent w) (idle : s.job = none) (alive : s.site.engine.current ∉ lost) :
    ∃ events : List Event, (∀ e ∈ events, e.GoesWell) ∧
      (s.after w events).site.engine.current = goal ∧
      (s.after w events).site.engine.held = none := by
  induction n : left s.site.engine.current using Nat.strongRecOn generalizing s with
  | ind n ih =>
    obtain ⟨free, rests⟩ := consistent.idle idle
    rcases leadsOn.advances _ rests with reached | dead | ⟨x, has, allowed, opened, alive', less⟩
    · exact ⟨[], nofun, reached, free⟩
    · exact absurd dead alive
    · have can : s.site.engine.canTransition x.2.running = true := by
        unfold Engine.canTransition
        rwa [consistent.table]
      obtain ⟨first, well, consistent', idle', current⟩ :=
        consistent.advances sound idle has can opened
      rw [← current] at alive' less
      obtain ⟨rest, well', reached, free'⟩ := ih _ (n ▸ less) consistent' idle' alive' rfl
      refine ⟨first ++ rest, ?_, ?_⟩
      · intro e mem
        exact (List.mem_append.1 mem).elim (well e) (well' e)
      · rw [after_append]
        exact ⟨reached, free'⟩

/-! ### Where nothing leads on -/

/-- From a state that no edge leaves, no step is made. -/
theorem Consistent.no_fact (consistent : s.Consistent w)
    (ends : ∀ e ∈ (w.plan.table w.options.target w.options.airgap).edges,
      e.1 ≠ s.site.engine.current) (e : Event) : s.fact w e = none := by
  refine Option.eq_none_iff_forall_ne_some.2 fun f fact ↦ ?_
  have follows := (next_follows sound consistent e).2
  rw [fact] at follows
  obtain ⟨stages, has, -, running | ⟨through, enters, -⟩⟩ := follows.1.begins
  · have settles := sound.settles _ has _ Plan.succeeded_mem_outcomes
    exact ends _ (TransitionTable.mem_edges settles) running.symm
  · have leads := enters.leads
    cases through with
    | none => exact ends _ (TransitionTable.mem_edges leads) rfl
    | some b => exact ends _ (TransitionTable.mem_edges leads.1) rfl

/-- No event leads out of a state that no edge leaves. -/
theorem Consistent.stays (consistent : s.Consistent w)
    (ends : ∀ e ∈ (w.plan.table w.options.target w.options.airgap).edges,
      e.1 ≠ s.site.engine.current) (events : List Event) :
    (s.after w events).site.engine.current = s.site.engine.current := by
  induction events generalizing s with
  | nil => rfl
  | cons e more ih =>
    obtain ⟨consistent', follows⟩ := next_follows sound consistent e
    rw [consistent.no_fact sound ends e] at follows
    have same : (s.next w e).2.site.engine.current = s.site.engine.current :=
      congrArg Outline.current (follows : _ = s.outline)
    exact (ih consistent' (same.symm ▸ ends)).trans same

/-- A workflow whose plan leads on from every resting state but the lost ones is never wedged: the
steps that are left are made one by one. -/
theorem Consistent.neverWedged (consistent : s.Consistent w)
    (leadsOn : w.plan.LeadsOn w.options goal lost left) : s.NeverWedged w goal lost where
  completes free alive := consistent.completes sound leadsOn (consistent.no_job free) alive
  patchable free stages supported can := by
    obtain ⟨patch, v, answered⟩ := patch_accepted supported free can
    exact ⟨patch, v, congrArg (fun r ↦ some (Prod.fst r)) answered⟩
  final ended events := by
    have ends := leadsOn.ends _ ended
    have stays := consistent.stays sound ends events
    refine ⟨stays, fun a ↦ ?_⟩
    have consistent' := (trace_history sound consistent events).1
    have nothing := consistent'.no_fact sound (stays.symm ▸ ends) (.act a)
    obtain ⟨e, refused, refusal⟩ := (consistent'.acted sound a).refused_of_fact nothing
    exact ⟨e, congrArg some refused, refusal⟩

end Advance
end Session

/-! ### Both workflows -/

/-- How much of an installation is left to do: two for each level, and one less when its checks have
passed. -/
def InstallState.left (s : InstallState) : Nat :=
  2 * (7 - s.progress) - if s = hostPreflightsSucceeded ∨ s = appPreflightsSucceeded then 1 else 0

/-- How much of an upgrade is left to do. -/
def UpgradeState.left (s : UpgradeState) : Nat :=
  2 * (6 - s.progress) - if s = appPreflightsSucceeded then 1 else 0

/-- From every resting state of an installation there is an activity that leads closer to its end,
unless the cluster has been changed in vain. -/
theorem InstallState.plan_leadsOn (o : Options) :
    InstallState.plan.LeadsOn o .succeeded [.infrastructureInstallFailed, .appInstallFailed]
      left := by
  obtain ⟨⟨⟩, ⟨⟩, ⟨⟩, ⟨⟩⟩ := o
  all_goals exact ⟨by decide, by decide⟩

theorem UpgradeState.plan_leadsOn (o : Options) :
    UpgradeState.plan.LeadsOn o .succeeded [.infrastructureUpgradeFailed, .appUpgradeFailed]
      left := by
  obtain ⟨⟨⟩, ⟨⟩, ⟨⟩, ⟨⟩⟩ := o
  all_goals exact ⟨by decide, by decide⟩

/-- No installation or upgrade gets stuck, unless it fails to change the cluster. -/
theorem never_wedged (options : Options) (schema : AppConfigSchema)
    (titles : PreflightScope → List String) (values : Option ConfigValues) (now : Timestamp)
    (events : List Event) :
    ((Workflow.install options schema titles).after values now events).NeverWedged
        (Workflow.install options schema titles) .succeeded
        [.infrastructureInstallFailed, .appInstallFailed] ∧
      ((Workflow.upgrade options schema titles).after values now events).NeverWedged
        (Workflow.upgrade options schema titles) .succeeded
        [.infrastructureUpgradeFailed, .appUpgradeFailed] := by
  constructor
  · have sound := InstallState.plan_sound options
    exact ((Workflow.install options schema titles).consistent_after sound values now
      events).neverWedged sound (InstallState.plan_leadsOn options)
  · have sound := UpgradeState.plan_sound options
    exact ((Workflow.upgrade options schema titles).consistent_after sound values now
      events).neverWedged sound (UpgradeState.plan_leadsOn options)

def requiredItem : AppConfigSchema := { items := [{ name := "host", required := true }] }

def requiredUpgrade : Workflow UpgradeState := .upgrade {} requiredItem fun _ ↦ []

/-- The upgrade has taken over values that do not fit any more, and a patch of nothing has been
rejected. -/
def staleUpgrade : Session UpgradeState :=
  requiredUpgrade.after (some (Dict.ofList [("gone", .string "x"), ("host", .int 5)])) .epoch
    [.act (.patchValues .empty)]

/-- The upgrade can still be brought to success. -/
theorem stale_upgrade_completes :
    staleUpgrade.site.engine.current = .applicationConfigurationFailed ∧
      ∃ events : List Event, (∀ e ∈ events, e.GoesWell) ∧
        (staleUpgrade.after requiredUpgrade events).site.engine.current = .succeeded := by
  obtain ⟨-, upgrades⟩ := never_wedged {} requiredItem (fun _ ↦ [])
    (some (Dict.ofList [("gone", .string "x"), ("host", .int 5)])) .epoch
    [.act (.patchValues .empty)]
  obtain ⟨events, well, reached, -⟩ := upgrades.completes rfl (by decide)
  exact ⟨rfl, events, well, reached⟩

end Rollout
