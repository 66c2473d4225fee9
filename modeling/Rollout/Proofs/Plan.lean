import Rollout.Workflow.Plan

/-!
# What both plans have in common

The actions are defined once for both modes, so what they rely on is stated once for every plan:
the states of the activities do not get into each other's way, an operation that has started can
settle, and a bypass leads on.  Both plans are of this kind, for all options.
-/

namespace Rollout

namespace TransitionTable

variable {S : Type} [DecidableEq S]

/-- The edges of a table, the sources in front. -/
def edges (t : TransitionTable S) : List (S × S) := t.entries.flatMap fun e ↦ e.2.map (·, e.1)

theorem mem_edges {t : TransitionTable S} {source target : S} (h : t.allows source target = true) :
    (source, target) ∈ t.edges := by
  unfold allows predecessors at h
  cases found : t.entries.find? (·.1 = target) with
  | none => simp [found] at h
  | some e =>
    have target_eq : e.1 = target := by simpa using List.find?_some found
    have source_mem : source ∈ e.2 := by simpa [found] using h
    refine List.mem_flatMap.2 ⟨e, List.mem_of_find?_eq_some found, ?_⟩
    exact List.mem_map.2 ⟨source, source_mem, by rw [target_eq]⟩

/-- There are edges to `target`, over `through` if that is given. -/
def Leads (t : TransitionTable S) (source : S) (through : Option S) (target : S) : Prop :=
  match through with
  | none => t.allows source target = true
  | some b => t.allows source b = true ∧ t.allows b target = true

end TransitionTable

theorem Activity.mem_all (a : Activity) : a ∈ Activity.all := by
  rcases a with _ | _ | ⟨⟨⟨⟩⟩ | _ | _ | _⟩ <;> decide

namespace Plan

variable {S : Type}

/-- The activities that a workflow has, with their states. -/
def activities (p : Plan S) (o : Options) : List (Activity × Stages S) :=
  Activity.all.filterMap fun a ↦ match p.stages o a with
    | .ok stages => some (a, stages)
    | .error _ => none

/-- The activities of a workflow are those that have states in it. -/
theorem mem_activities {p : Plan S} {o : Options} {a : Activity} {stages : Stages S} :
    (a, stages) ∈ p.activities o ↔ p.stages o a = .ok stages := by
  unfold activities
  rw [List.mem_filterMap]
  constructor
  · rintro ⟨b, -, h⟩
    split at h
    · rename_i found
      obtain ⟨rfl, rfl⟩ := Prod.mk.injEq .. ▸ Option.some.inj h
      exact found
    · contradiction
  · intro h
    exact ⟨a, a.mem_all, by rw [h]⟩

theorem stages_unique {p : Plan S} {o : Options} {a : Activity} {stages stages' : Stages S}
    (h : (a, stages) ∈ p.activities o) (h' : (a, stages') ∈ p.activities o) : stages = stages' := by
  rw [mem_activities] at h h'
  exact Except.ok.inj (h.symm.trans h')

/-- The state in which checks settle that reported failures. -/
def closedBy (p : Plan S) : Activity → Option S
  | .task (.preflights scope) => (p.gate scope).map (·.closed)
  | _ => none

/-- The states in which an activity settles. -/
def outcomes (p : Plan S) (a : Activity) (stages : Stages S) : List S :=
  stages.succeeded :: stages.failed :: (p.closedBy a).toList

/-- The states in which a workflow waits for an action. -/
def resting (p : Plan S) (o : Options) : List S :=
  p.initial :: (p.activities o).flatMap fun x ↦ p.outcomes x.1 x.2

/-- The failed checks that can stand in the way of an activity, with the states around them. -/
def gateOf (p : Plan S) : Activity → Option (PreflightScope × Gate S)
  | .task t => t.gatedBy?.bind fun scope ↦ (p.gate scope).map (scope, ·)
  | _ => none

theorem gate_of_gateOf {p : Plan S} {a : Activity} {scope : PreflightScope} {gate : Gate S}
    (h : p.gateOf a = some (scope, gate)) : p.gate scope = some gate := by
  cases a with
  | task t =>
    obtain ⟨scope', -, h'⟩ := Option.bind_eq_some_iff.1 h
    obtain ⟨gate', found, same⟩ := Option.map_eq_some_iff.1 h'
    cases same
    exact found
  | configureApp | configureInstallation => nomatch h

section Membership

variable {p : Plan S} {o : Options} {a : Activity} {stages : Stages S}

theorem initial_mem_resting : p.initial ∈ p.resting o := List.mem_cons_self

/-- A workflow waits where an activity has settled. -/
theorem outcome_mem_resting (has : (a, stages) ∈ p.activities o) {s : S}
    (h : s ∈ p.outcomes a stages) : s ∈ p.resting o :=
  List.mem_cons_of_mem _ (List.mem_flatMap.2 ⟨_, has, h⟩)

theorem succeeded_mem_outcomes : stages.succeeded ∈ p.outcomes a stages := List.mem_cons_self

theorem failed_mem_outcomes : stages.failed ∈ p.outcomes a stages :=
  List.mem_cons_of_mem _ List.mem_cons_self

theorem closed_mem_outcomes {scope : PreflightScope} {gate : Gate S}
    (h : p.gate scope = some gate) :
    gate.closed ∈ p.outcomes (.task (.preflights scope)) stages := by
  simp [outcomes, closedBy, h]

end Membership

variable [DecidableEq S]

/-- What the actions rely on. -/
structure Sound (p : Plan S) (o : Options) : Prop where
  /-- The state of an activity that goes on tells which it is. -/
  running_distinct : ∀ x ∈ p.activities o, ∀ y ∈ p.activities o,
    x.2.running = y.2.running → x.1 = y.1
  /-- A workflow that waits does not go on. -/
  running_not_resting : ∀ x ∈ p.activities o, x.2.running ∉ p.resting o
  /-- The state in which an activity has settled tells which it was, and how it came out. -/
  outcomes_distinct : ∀ x ∈ p.activities o, ∀ y ∈ p.activities o, ∀ s ∈ p.outcomes x.1 x.2,
    s ∈ p.outcomes y.1 y.2 → x.1 = y.1
  outcomes_nodup : ∀ x ∈ p.activities o, (p.outcomes x.1 x.2).Nodup
  initial_fresh : ∀ x ∈ p.activities o, p.initial ∉ p.outcomes x.1 x.2
  /-- An operation that has started can settle. -/
  settles : ∀ x ∈ p.activities o, ∀ s ∈ p.outcomes x.1 x.2,
    (p.table o.target o.airgap).allows x.2.running s = true
  /-- Only an operation that has started settles. -/
  settles_only : ∀ e ∈ (p.table o.target o.airgap).edges, ∀ x ∈ p.activities o,
    e.2 ∈ p.outcomes x.1 x.2 → e.1 = x.2.running
  /-- Whoever passes over failed checks can go on. -/
  passes : ∀ x ∈ p.activities o, ∀ g ∈ p.gateOf x.1, g.2.closed ∈ p.resting o →
    (p.table o.target o.airgap).allows g.2.closed g.2.bypassed = true ∧
      (p.table o.target o.airgap).allows g.2.bypassed x.2.running = true
  /-- A workflow does not wait where checks are passed over. -/
  bypassed_not_resting : ∀ x ∈ p.activities o, ∀ g ∈ p.gateOf x.1, g.2.bypassed ∉ p.resting o

section Sound

variable {p : Plan S} {o : Options} {a : Activity} {stages : Stages S}

/-- From a state in which the workflow waits, no outcome is entered. -/
theorem Sound.stays (sound : p.Sound o) (has : (a, stages) ∈ p.activities o) {s target : S}
    (rests : s ∈ p.resting o) (h : target ∈ p.outcomes a stages) :
    (p.table o.target o.airgap).allows s target = false := by
  refine Bool.eq_false_iff.2 fun allowed ↦ ?_
  have edge := TransitionTable.mem_edges allowed
  have from_running : s = stages.running := sound.settles_only _ edge _ has h
  exact sound.running_not_resting _ has (from_running ▸ rests)

end Sound
end Plan

/-! ### Progress -/

/-- How far an installation has got.  A level is entered by the success of an activity, the third
and the sixth by the start of a task: from there on the infrastructure and the application are being
changed, and nothing leads back. -/
def InstallState.progress : InstallState → Nat
  | new | applicationConfiguring | applicationConfigurationFailed => 0
  | applicationConfigured | installationConfiguring | installationConfigurationFailed => 1
  | installationConfigured | hostPreflightsRunning | hostPreflightsSucceeded
  | hostPreflightsFailed | hostPreflightsExecutionFailed | hostPreflightsFailedBypassed => 2
  | infrastructureInstalling | infrastructureInstallFailed => 3
  | infrastructureInstalled | airgapProcessing | airgapProcessingFailed => 4
  | airgapProcessed | appPreflightsRunning | appPreflightsSucceeded | appPreflightsFailed
  | appPreflightsExecutionFailed | appPreflightsFailedBypassed => 5
  | appInstalling | appInstallFailed => 6
  | succeeded => 7

/-- How far an upgrade has got.  The infrastructure is being changed from the third level on, the
application from the fifth; before that, an upgrade of Kubernetes may be configured again. -/
def UpgradeState.progress : UpgradeState → Nat
  | new | applicationConfiguring | applicationConfigurationFailed => 0
  | applicationConfigured | airgapProcessing | airgapProcessingFailed => 1
  | airgapProcessed => 2
  | infrastructureUpgrading | infrastructureUpgradeFailed => 3
  | infrastructureUpgraded | appPreflightsRunning | appPreflightsSucceeded | appPreflightsFailed
  | appPreflightsExecutionFailed | appPreflightsFailedBypassed => 4
  | appUpgrading | appUpgradeFailed => 5
  | succeeded => 6

/-! ### Soundness -/

/-- The plan of an installation is sound for every target and every permission. -/
theorem InstallState.plan_sound (o : Options) : InstallState.plan.Sound o := by
  obtain ⟨⟨⟩, ⟨⟩, ⟨⟩, ⟨⟩⟩ := o
  all_goals exact
    { running_distinct := by decide
      running_not_resting := by decide
      outcomes_distinct := by decide
      outcomes_nodup := by decide
      initial_fresh := by decide
      settles := by decide
      settles_only := by decide
      passes := by decide
      bypassed_not_resting := by decide }

theorem UpgradeState.plan_sound (o : Options) : UpgradeState.plan.Sound o := by
  obtain ⟨⟨⟩, ⟨⟩, ⟨⟩, ⟨⟩⟩ := o
  all_goals exact
    { running_distinct := by decide
      running_not_resting := by decide
      outcomes_distinct := by decide
      outcomes_nodup := by decide
      initial_fresh := by decide
      settles := by decide
      settles_only := by decide
      passes := by decide
      bypassed_not_resting := by decide }

end Rollout
