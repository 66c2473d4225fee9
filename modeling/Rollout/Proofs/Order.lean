import Rollout.Proofs.Simulation
import Rollout.Proofs.Trace

/-!
# The order of calls

Collaborators are called one at a time, the infrastructure and the application at most once, and
each only when what it builds on has returned.  Nothing in the actions says so: it follows from the
edges that the tables do not have, by the regions of `progress`.
-/

namespace Rollout

variable {S : Type}

/-! ### What is said of a history -/

/-- Calls do not overlap: a call finds every earlier one ended, and what ends was called last. -/
structure Exclusive (h : List Fact) : Prop where
  begins : ∀ before f after, h = before ++ f :: after → f.isCall = true →
    before.countP Fact.isCall = before.countP Fact.isEnd
  ends : ∀ before t outcome after, h = before ++ .ended t outcome :: after →
    ∃ earlier ignore call, before = earlier ++ [.began t ignore call]

/-- A task is called only when another has returned. -/
def CalledAfter (first t : Task) (h : List Fact) : Prop :=
  ∀ before f after, h = before ++ f :: after → f.calls t = true →
    ∃ v, .ended first (.returned v) ∈ before

/-- A task is called only when another has returned, and nothing has been configured since. -/
def CalledUnchangedAfter (first t : Task) (h : List Fact) : Prop :=
  ∀ before f after, h = before ++ f :: after → f.calls t = true →
    ∃ earlier v since, before = earlier ++ .ended first (.returned v) :: since ∧
      ∀ g ∈ since, g.isConfiguration = false

/-- A task is called only when two others have returned, and the second had been called after the
first returned. -/
def CalledAfterBoth (first second t : Task) (h : List Fact) : Prop :=
  ∀ before f after, h = before ++ f :: after → f.calls t = true →
    ∃ earlier v between ignore call v' since,
      before = earlier ++ .ended first (.returned v) :: between ++
        .began second ignore call :: .ended second (.returned v') :: since

/-- A task is not called again when it has returned. -/
def ReturnsOnce (t : Task) (h : List Fact) : Prop :=
  ∀ before v after, h = before ++ .ended t (.returned v) :: after → ∀ f ∈ after, f.calls t = false

/-- The order of calls in an installation. -/
structure InstallOrder (o : Options) (h : List Fact) : Prop where
  exclusive : Exclusive h
  infrastructure_once : h.countP (·.calls .infrastructure) ≤ 1
  deployment_once : h.countP (·.calls .deployment) ≤ 1
  infrastructure_first : CalledAfter .infrastructure .deployment h
  bundle_between : o.hasBundle = true → CalledAfterBoth .infrastructure .airgap .deployment h
  bundle_once : ReturnsOnce .airgap h

/-- The order of calls in an upgrade. -/
structure UpgradeOrder (o : Options) (h : List Fact) : Prop where
  exclusive : Exclusive h
  infrastructure_once : h.countP (·.calls .infrastructure) ≤ 1
  deployment_once : h.countP (·.calls .deployment) ≤ 1
  infrastructure_first : o.target = .linux → CalledAfter .infrastructure .deployment h
  bundle_first : o.hasBundle = true → CalledUnchangedAfter .airgap .infrastructure h

/-! ### Why a history is so -/

namespace Workflow

variable [DecidableEq S] {w : Workflow S} {o o' : Outline S} {h : List Fact}
  {t first second : Task} {R Q : S → Prop}

namespace Trace

/-- While a task has been called, nothing else begins. -/
theorem exclusive (trace : w.Trace o h o') (idle : o.call = none) : Exclusive h where
  begins before f after eq calls := by
    subst eq
    obtain ⟨o₁, o₂, earlier, step, -⟩ := trace.split
    rw [earlier.calls_eq_ends idle]
    cases step with
    | began enters passes => rw [enters.idle]; rfl
    | patched | patchRejected | configured | configurationRejected | ended => nomatch calls
  ends before t outcome after eq := by
    subst eq
    exact trace.ends_call idle

variable (sound : w.plan.Sound w.options)

include sound

/-- A task that another one opens is not called before that one has returned. -/
theorem calledAfter (trace : w.Trace o h o') (fresh : o.current = w.plan.initial)
    (opens : w.plan.Opens w.options (.task first) t R) : CalledAfter first t h := by
  intro before f after eq calls
  subst eq
  obtain ⟨earlier, g, since, rfl, about, success, -⟩ := trace.behind sound fresh opens calls
  obtain ⟨v, rfl⟩ := Fact.eq_ended_returned about success
  exact ⟨v, by simp⟩

/-- Where every configuration leads out of the region, nothing has been configured since. -/
theorem calledUnchangedAfter (trace : w.Trace o h o') (fresh : o.current = w.plan.initial)
    (opens : w.plan.Opens w.options (.task first) t R)
    (leaves : ∀ x ∈ w.plan.activities w.options,
      x.1 = .configureApp ∨ x.1 = .configureInstallation → ∀ s ∈ w.plan.outcomes x.1 x.2, ¬ R s) :
    CalledUnchangedAfter first t h := by
  intro before f after eq calls
  subst eq
  obtain ⟨earlier, g, since, rfl, about, success, stays⟩ := trace.behind sound fresh opens calls
  obtain ⟨v, rfl⟩ := Fact.eq_ended_returned about success
  refine ⟨earlier, v, since, rfl, ?_⟩
  intro k k_mem
  obtain ⟨stages, has, inside⟩ := stays k k_mem
  refine Bool.eq_false_iff.2 fun configures ↦ ?_
  obtain ⟨settles, about'⟩ := Fact.configures configures
  exact leaves _ has about' _ (stateAfter_mem settles) inside

/-- The end of the second task is behind, so the call of it is, and so is what opens that. -/
theorem calledAfterBoth (trace : w.Trace o h o') (fresh : o.current = w.plan.initial)
    (idle : o.call = none) (opens : w.plan.Opens w.options (.task first) second R)
    (opens' : w.plan.Opens w.options (.task second) t Q) : CalledAfterBoth first second t h := by
  intro before f after eq calls
  subst eq
  obtain ⟨earlier, g, since, rfl, about, success, -⟩ := trace.behind sound fresh opens' calls
  obtain ⟨v', rfl⟩ := Fact.eq_ended_returned about success
  obtain ⟨o₁, o₂, to_call, -, -⟩ := trace.split
  obtain ⟨earlier', ignore, call, rfl⟩ := to_call.ends_call idle
  rw [List.append_assoc] at to_call
  obtain ⟨o₃, o₄, -, step, -⟩ := to_call.split
  have calls' : (Fact.began second ignore call).calls second = true := by
    simpa [Fact.calls] using step.task_eq
  obtain ⟨earliest, g, between, rfl, about', success', -⟩ :=
    to_call.behind sound fresh opens calls'
  obtain ⟨v, rfl⟩ := Fact.eq_ended_returned about' success'
  exact ⟨earliest, v, between, ignore, call, v', since, by simp⟩

/-- A task whose return leads into a region that closes it does not begin again. -/
theorem returnsOnce (trace : w.Trace o h o') (final : w.plan.Final w.options t R)
    (plain : ∀ stages v, w.outcomeState stages t (.returned v) = stages.succeeded) :
    ReturnsOnce t h := by
  intro before v after eq
  subst eq
  obtain ⟨o₁, o₂, -, step, rest⟩ := trace.split
  obtain ⟨stages, has, lands, -⟩ := step.begins
  have current : o₂.current = stages.succeeded := lands.trans (plain stages v)
  exact rest.never_again sound final.toCloses (current ▸ final.into _ has rfl)

end Trace
end Workflow

/-! ### The regions of both workflows -/

namespace InstallState

variable (o : Options)

/-- An installation does not get back to where its infrastructure begins. -/
theorem infrastructure_once : plan.Once o .infrastructure fun s ↦ 3 ≤ s.progress := by
  obtain ⟨⟨⟩, ⟨⟩, ⟨⟩, ⟨⟩⟩ := o
  all_goals exact ⟨⟨by decide, by decide⟩, by decide⟩

theorem infrastructure_opens :
    plan.Opens o (.task .infrastructure) .deployment fun s ↦ 4 ≤ s.progress := by
  obtain ⟨⟨⟩, ⟨⟩, ⟨⟩, ⟨⟩⟩ := o
  all_goals exact ⟨by decide, by decide, by decide⟩

/-- The cluster is there before the bundle is processed. -/
theorem infrastructure_opens_bundle :
    plan.Opens o (.task .infrastructure) .airgap fun s ↦ 4 ≤ s.progress := by
  obtain ⟨⟨⟩, ⟨⟩, ⟨⟩, ⟨⟩⟩ := o
  all_goals exact ⟨by decide, by decide, by decide⟩

theorem bundle_final : plan.Final o .airgap fun s ↦ 5 ≤ s.progress := by
  obtain ⟨⟨⟩, ⟨⟩, ⟨⟩, ⟨⟩⟩ := o
  all_goals exact ⟨⟨by decide, by decide⟩, by decide⟩

theorem bundle_opens (bundle : o.hasBundle = true) :
    plan.Opens o (.task .airgap) .deployment fun s ↦ 5 ≤ s.progress := by
  obtain ⟨⟨⟩, ⟨⟩, ⟨⟩, ⟨⟩⟩ := o
  all_goals first
    | exact absurd bundle (by decide)
    | exact ⟨by decide, by decide, by decide⟩

theorem deployment_once : plan.Once o .deployment fun s ↦ 6 ≤ s.progress := by
  obtain ⟨⟨⟩, ⟨⟩, ⟨⟩, ⟨⟩⟩ := o
  all_goals exact ⟨⟨by decide, by decide⟩, by decide⟩

end InstallState

namespace UpgradeState

variable (o : Options)

/-- An upgrade of Kubernetes has no infrastructure. -/
theorem infrastructure_once :
    plan.Once o .infrastructure fun s ↦ o.target = .linux ∧ 3 ≤ s.progress := by
  obtain ⟨⟨⟩, ⟨⟩, ⟨⟩, ⟨⟩⟩ := o
  all_goals exact ⟨⟨by decide, by decide⟩, by decide⟩

theorem infrastructure_opens (linux : o.target = .linux) :
    plan.Opens o (.task .infrastructure) .deployment fun s ↦ 4 ≤ s.progress := by
  obtain ⟨target, ⟨⟩, ⟨⟩, ⟨⟩⟩ := o
  all_goals
    obtain rfl : target = .linux := linux
    exact ⟨by decide, by decide, by decide⟩

theorem bundle_opens (bundle : o.hasBundle = true) :
    plan.Opens o (.task .airgap) .infrastructure fun s ↦ 2 ≤ s.progress := by
  obtain ⟨⟨⟩, ⟨⟩, ⟨⟩, ⟨⟩⟩ := o
  all_goals first
    | exact absurd bundle (by decide)
    | exact ⟨by decide, by decide, by decide⟩

theorem deployment_once : plan.Once o .deployment fun s ↦ 5 ≤ s.progress := by
  obtain ⟨⟨⟩, ⟨⟩, ⟨⟩, ⟨⟩⟩ := o
  all_goals exact ⟨⟨by decide, by decide⟩, by decide⟩

/-- No configuration settles in a state behind the first change. -/
theorem configuration_leaves : ∀ x ∈ plan.activities o,
    x.1 = .configureApp ∨ x.1 = .configureInstallation →
      ∀ s ∈ plan.outcomes x.1 x.2, ¬ 2 ≤ s.progress := by
  obtain ⟨⟨⟩, ⟨⟩, ⟨⟩, ⟨⟩⟩ := o
  all_goals decide

end UpgradeState

/-- The order of calls in every run of an installation and of an upgrade. -/
theorem call_order (options : Options) (schema : AppConfigSchema)
    (titles : PreflightScope → List String) (values : Option ConfigValues) (now : Timestamp)
    (events : List Event) :
    InstallOrder options
        ((Workflow.install options schema titles).history values now events) ∧
      UpgradeOrder options
        ((Workflow.upgrade options schema titles).history values now events) := by
  constructor
  · have sound := InstallState.plan_sound options
    have trace := (Workflow.install options schema titles).trace sound values now events
    refine
      { exclusive := trace.exclusive rfl
        infrastructure_once := trace.calls_le_one sound (InstallState.infrastructure_once options)
        deployment_once := trace.calls_le_one sound (InstallState.deployment_once options)
        infrastructure_first :=
          trace.calledAfter sound rfl (InstallState.infrastructure_opens options)
        bundle_between := fun bundle ↦ ?_
        bundle_once := ?_ }
    · exact trace.calledAfterBoth sound rfl rfl (InstallState.infrastructure_opens_bundle options)
        (InstallState.bundle_opens options bundle)
    · exact trace.returnsOnce sound (InstallState.bundle_final options) fun _ _ ↦ rfl
  · have sound := UpgradeState.plan_sound options
    have trace := (Workflow.upgrade options schema titles).trace sound values now events
    refine
      { exclusive := trace.exclusive rfl
        infrastructure_once := trace.calls_le_one sound (UpgradeState.infrastructure_once options)
        deployment_once := trace.calls_le_one sound (UpgradeState.deployment_once options)
        infrastructure_first := fun linux ↦ ?_
        bundle_first := fun bundle ↦ ?_ }
    · exact trace.calledAfter sound rfl (UpgradeState.infrastructure_opens options linux)
    · exact trace.calledUnchangedAfter sound rfl (UpgradeState.bundle_opens options bundle)
        (UpgradeState.configuration_leaves options)

end Rollout
