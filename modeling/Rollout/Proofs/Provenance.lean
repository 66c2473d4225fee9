import Rollout.Proofs.Simulation
import Rollout.Proofs.Trace

/-!
# Where deployed data comes from

Collaborators get what clients have configured, and only what has been validated: the settings of
the last configuration, and the fold of all accepted patches.  The stores do not tell whether they
have been validated, but the state does, by the regions of `progress`: neither is got past without a
success, and no failure leads back into them.
-/

namespace Rollout

variable {S : Type}

/-! ### What a history says of the stores -/

/-- The values of the application that a call takes along. -/
def Call.values? : Call → Option ConfigValues
  | installApp v | upgradeApp v => some v
  | preflights _ | installInfrastructure _ | upgradeInfrastructure | processAirgap => none

/-- The patch that was accepted. -/
def Fact.acceptedPatch? : Fact → Option ConfigValues
  | patched p true => some p
  | _ => none

/-- All accepted patches merged, the first one first. -/
def valuesAfter (initial : ConfigValues) (h : List Fact) : ConfigValues :=
  (h.filterMap Fact.acceptedPatch?).foldl AppConfigSchema.merge initial

/-- What collaborators get comes from clients, and has been validated. -/
structure Provenance (schema : AppConfigSchema) (initial : ConfigValues) (h : List Fact) :
    Prop where
  /-- A patch is accepted if and only if it leads to valid values. -/
  accepted_iff : ∀ before p accepted after, h = before ++ .patched p accepted :: after →
    (accepted = true ↔
      schema.validate (AppConfigSchema.merge (valuesAfter initial before) p) = .ok ())
  /-- The infrastructure is installed with the settings that were configured last. -/
  settings : ∀ before t ignore c after,
    h = before ++ .began t ignore (.installInfrastructure c) :: after →
      c.validate = .ok () ∧ (before.filterMap Fact.settings?).getLast? = some (c, true)
  /-- The application is deployed with the accepted patches, and the last one was accepted. -/
  values : ∀ before t ignore call v after, h = before ++ .began t ignore call :: after →
    call.values? = some v →
      v = schema.resolve (valuesAfter initial before) ∧
      schema.validate (valuesAfter initial before) = .ok () ∧
      ∃ p, (before.filterMap Fact.patch?).getLast? = some (p, true)

/-- A region that the success of an activity leads into, and its failure does not. -/
structure Plan.Confirms (p : Plan S) (o : Options) (a : Activity) (t : Task) (R : S → Prop) : Prop
    extends p.Opens o a t R where
  failed : ∀ x ∈ p.activities o, x.1 = a → ¬ R x.2.failed

/-- An accepted patch is merged into the values before it, and no other fact changes them. -/
theorem valuesAfter_snoc (initial : ConfigValues) (h : List Fact) (f : Fact) :
    valuesAfter initial (h ++ [f]) = match f.acceptedPatch? with
      | some p => AppConfigSchema.merge (valuesAfter initial h) p
      | none => valuesAfter initial h := by
  unfold valuesAfter
  rw [List.filterMap_append, List.foldl_append]
  cases found : f.acceptedPatch? <;> simp [found]

namespace Workflow

section Call

variable {w : Workflow S} {values : ConfigValues} {settings : InstallationConfig} {t : Task}

theorem callFor_eq_installInfrastructure {c : InstallationConfig}
    (h : w.callFor values settings t = .installInfrastructure c) :
    w.plan.mode = .install ∧ t = .infrastructure ∧ c = settings := by
  unfold callFor at h
  cases t with
  | infrastructure =>
    cases mode : w.plan.mode with
    | install =>
      rw [mode] at h
      exact ⟨rfl, rfl, (Call.installInfrastructure.inj h).symm⟩
    | upgrade =>
      rw [mode] at h
      nomatch h
  | deployment => cases mode : w.plan.mode <;> rw [mode] at h <;> nomatch h
  | preflights | airgap => nomatch h

/-- The values that a call takes along are those of its moment, with the defaults filled in. -/
theorem values?_callFor {v : ConfigValues} (h : (w.callFor values settings t).values? = some v) :
    t = .deployment ∧ v = w.schema.resolve values := by
  unfold callFor at h
  cases t with
  | deployment =>
    cases mode : w.plan.mode <;> rw [mode] at h <;> exact ⟨rfl, (Option.some.inj h).symm⟩
  | infrastructure => cases mode : w.plan.mode <;> rw [mode] at h <;> nomatch h
  | preflights | airgap => nomatch h

end Call

variable [DecidableEq S] {w : Workflow S} {o o' : Outline S} {h : List Fact} {t : Task}
  {R : S → Prop}

/-! ### What the stores come from -/

namespace Trace

/-- The stored values are the accepted patches. -/
theorem values_eq (trace : w.Trace o h o') : o'.values = valuesAfter o.values h := by
  induction trace with
  | nil => rfl
  | snoc trace step ih =>
    rw [valuesAfter_snoc, ← ih]
    cases step with
    | patched | patchRejected | configured | configurationRejected | began | ended => rfl

variable (sound : w.plan.Sound w.options)

include sound

/-- Past the success of a patch, the stored values are valid, and the last patch was accepted. -/
theorem patch_accepted (trace : w.Trace o h o') (initial : o.current = w.plan.initial)
    (confirms : w.plan.Confirms w.options .configureApp t R) (inside : R o'.current) :
    w.schema.validate o'.values = .ok () ∧
      ∃ p, (h.filterMap Fact.patch?).getLast? = some (p, true) := by
  induction trace with
  | nil => exact absurd (initial ▸ inside) confirms.initial
  | @snoc h f o₁ o₂ trace step ih =>
    have back := step.back sound confirms.entered inside
    rw [List.filterMap_append]
    cases step with
    | @patched p _ enters valid => exact ⟨valid, p, by simp [Fact.patch?]⟩
    | patchRejected enters => exact absurd inside (confirms.failed _ enters.has rfl)
    | configured | configurationRejected | began | ended =>
      have still : R o₁.current := back.resolve_right (by simp [Fact.activity])
      simpa [Fact.patch?] using ih still

/-- Past the success of a configuration, the stored settings are those that were configured last,
and they are valid. -/
theorem settings_accepted (trace : w.Trace o h o') (initial : o.current = w.plan.initial)
    (confirms : w.plan.Confirms w.options .configureInstallation t R) (inside : R o'.current) :
    o'.settings.validate = .ok () ∧
      (h.filterMap Fact.settings?).getLast? = some (o'.settings, true) := by
  induction trace with
  | nil => exact absurd (initial ▸ inside) confirms.initial
  | @snoc h f o₁ o₂ trace step ih =>
    have back := step.back sound confirms.entered inside
    rw [List.filterMap_append]
    cases step with
    | configured enters valid => exact ⟨valid, by simp [Fact.settings?]⟩
    | configurationRejected enters => exact absurd inside (confirms.failed _ enters.has rfl)
    | patched | patchRejected | began | ended =>
      have still : R o₁.current := back.resolve_right (by simp [Fact.activity])
      simpa [Fact.settings?] using ih still

/-- What is deployed in a history comes from it. -/
theorem provenance {Q : S → Prop} (trace : w.Trace o h o') (initial : o.current = w.plan.initial)
    (patches : w.plan.Confirms w.options .configureApp .deployment R)
    (configures : w.plan.mode = .install →
      w.plan.Confirms w.options .configureInstallation .infrastructure Q) :
    Provenance w.schema o.values h where
  accepted_iff before p accepted after eq := by
    subst eq
    obtain ⟨o₁, o₂, first, step, -⟩ := trace.split
    rw [← first.values_eq]
    cases step with
    | patched enters valid => exact ⟨fun _ ↦ valid, fun _ ↦ rfl⟩
    | patchRejected enters invalid =>
      exact ⟨nofun, fun valid ↦ nomatch invalid.symm.trans valid⟩
  settings before t ignore c after eq := by
    subst eq
    obtain ⟨o₁, o₂, first, step, -⟩ := trace.split
    obtain ⟨mode, rfl, rfl⟩ := callFor_eq_installInfrastructure step.call_eq.symm
    have confirms := configures mode
    have inside := step.opened sound confirms.toOpens rfl
    exact first.settings_accepted sound initial confirms inside
  values before t ignore call v after eq has_values := by
    subst eq
    obtain ⟨o₁, o₂, first, step, -⟩ := trace.split
    have calls : (Fact.began t ignore call).calls t = true := by
      simpa [Fact.calls] using step.task_eq
    rw [step.call_eq] at has_values
    obtain ⟨rfl, rfl⟩ := values?_callFor has_values
    have inside := step.opened sound patches.toOpens calls
    rw [← first.values_eq]
    exact ⟨rfl, first.patch_accepted sound initial patches inside⟩

end Trace
end Workflow

/-! ### Both workflows -/

/-- A deployment begins only where the last patch has been accepted. -/
theorem InstallState.patches_confirm (o : Options) :
    InstallState.plan.Confirms o .configureApp .deployment fun s ↦ 1 ≤ s.progress := by
  obtain ⟨⟨⟩, ⟨⟩, ⟨⟩, ⟨⟩⟩ := o
  all_goals exact ⟨⟨by decide, by decide, by decide⟩, by decide⟩

/-- The infrastructure begins only where the last settings have been accepted. -/
theorem InstallState.settings_confirm (o : Options) :
    InstallState.plan.Confirms o .configureInstallation .infrastructure fun s ↦ 2 ≤ s.progress := by
  obtain ⟨⟨⟩, ⟨⟩, ⟨⟩, ⟨⟩⟩ := o
  all_goals exact ⟨⟨by decide, by decide, by decide⟩, by decide⟩

theorem UpgradeState.patches_confirm (o : Options) :
    UpgradeState.plan.Confirms o .configureApp .deployment fun s ↦ 1 ≤ s.progress := by
  obtain ⟨⟨⟩, ⟨⟩, ⟨⟩, ⟨⟩⟩ := o
  all_goals exact ⟨⟨by decide, by decide, by decide⟩, by decide⟩

/-- In every run, what is deployed is what clients have configured, and it has been validated.  An
upgrade has no settings of its own. -/
theorem deployed_provenance (options : Options) (schema : AppConfigSchema)
    (titles : PreflightScope → List String) (values : Option ConfigValues) (now : Timestamp)
    (events : List Event) :
    Provenance schema (values.getD .empty)
        ((Workflow.install options schema titles).history values now events) ∧
      Provenance schema (values.getD .empty)
        ((Workflow.upgrade options schema titles).history values now events) := by
  constructor
  · have sound := InstallState.plan_sound options
    have trace := (Workflow.install options schema titles).trace sound values now events
    exact trace.provenance sound rfl (InstallState.patches_confirm options)
      fun _ ↦ InstallState.settings_confirm options
  · have sound := UpgradeState.plan_sound options
    have trace := (Workflow.upgrade options schema titles).trace sound values now events
    exact trace.provenance sound rfl (UpgradeState.patches_confirm options)
      (Q := fun _ ↦ True) nofun

end Rollout
