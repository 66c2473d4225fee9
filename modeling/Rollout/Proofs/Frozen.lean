import Rollout.Proofs.Provenance

/-!
# When configuration is over

Once the cluster is being changed, nothing is configured any more.  The start of the task that
changes it leads into a region of states which no edge leaves and in which no configuration begins
(`Plan.Freezes`).  Inside the region a configuration is refused, and every other event leaves the
stores of the configuration alone (`Session.Consistent.frozen_next`).  So what has been configured
stays what it was when the task was accepted (`Workflow.Frozen`), and this is what the application
is deployed with.
-/

namespace Rollout

variable {S : Type}

def Action.isConfiguration : Action → Bool
  | patchValues _ | configureInstallation _ => true
  | begin .. => false

/-- What has been configured, with what clients are told about it. -/
def Stores.configuration (s : Stores) : ConfigStore × InstallationStore :=
  (s.config, s.installation)

theorem Stores.values_of_configuration {s s' : Stores} (h : s'.configuration = s.configuration) :
    s'.values = s.values := congrArg (fun c ↦ c.1.result.getD .empty) h

theorem Stores.settings_of_configuration {s s' : Stores} (h : s'.configuration = s.configuration) :
    s'.settings = s.settings := congrArg (fun c ↦ c.2.result.getD {}) h

/-- A task leads into a region that is not left and where no configuration begins. -/
structure Plan.Freezes [DecidableEq S] (p : Plan S) (o : Options) (t : Task) (R : S → Prop) :
    Prop where
  keeps : p.Keeps o R
  into : p.BeginsInto o t R
  outside : ∀ x ∈ p.activities o, x.1 = .configureApp ∨ x.1 = .configureInstallation →
    ¬ R x.2.running

/-! ### Tasks leave the configuration alone -/

namespace Workflow

variable {w : Workflow S} {s : Stores} {t : Task}

theorem configuration_begunIn (r : StatusRecord) :
    (w.begunIn r s t).configuration = s.configuration := by
  rcases t with ⟨⟨⟩⟩ | _ | _ | _ <;> rfl

theorem configuration_endedIn [ToString S] (now : Timestamp) (outcome : Outcome t.Value) :
    (w.endedIn now s t outcome).configuration = s.configuration := by
  rcases t with ⟨⟨⟩⟩ | _ | _ | _ <;> cases outcome <;> rfl

/-- Reports of a collaborator leave the configuration alone. -/
theorem configuration_note (site : Site S) (p : Progress) :
    ((note t p).run site).2.payload.configuration = site.payload.configuration := by
  rcases t with scope | _ | _ | _ <;> cases p <;> rfl

end Workflow

variable [DecidableEq S]

/-- Where no configuration can begin, an action that configures is refused, and no action changes
what has been configured. -/
theorem Workflow.Acted.frozen [ToString S] {w : Workflow S} {s s' : Site S} {a : Action}
    {answered : Answer S × Option (Job S)} (acted : w.Acted s a answered s')
    (closed : ∀ x ∈ w.plan.activities w.options,
      x.1 = .configureApp ∨ x.1 = .configureInstallation →
        s.engine.canTransition x.2.running = false) :
    s'.payload.configuration = s.payload.configuration ∧
      (a.isConfiguration = true → ∃ e, answered.1 = .refused e ∧ e.isRefusal = true) := by
  cases acted with
  | @refused a e refusal valid s' untouched =>
    obtain ⟨generation, rfl⟩ := untouched
    exact ⟨rfl, fun _ ↦ ⟨e, rfl, refusal⟩⟩
  | began has free passes leads => exact ⟨configuration_begunIn _, nofun⟩
  | patched has free can valid => exact nomatch (closed _ has (.inl rfl)).symm.trans can
  | patchRejected has free can invalid => exact nomatch (closed _ has (.inl rfl)).symm.trans can
  | configured has free can valid => exact nomatch (closed _ has (.inr rfl)).symm.trans can
  | configurationRejected has free can invalid =>
    exact nomatch (closed _ has (.inr rfl)).symm.trans can

/-! ### Inside the region -/

namespace Session

variable {w : Workflow S} {s : Session S} {t : Task} {R : S → Prop}

/-- No configuration begins inside the region. -/
theorem Consistent.closed (consistent : s.Consistent w) (freezes : w.plan.Freezes w.options t R)
    (inside : R s.site.engine.current) :
    ∀ x ∈ w.plan.activities w.options, x.1 = .configureApp ∨ x.1 = .configureInstallation →
      s.site.engine.canTransition x.2.running = false := by
  intro x has configures
  refine Bool.eq_false_iff.2 fun can ↦ freezes.outside x has configures ?_
  unfold Engine.canTransition at can
  rw [consistent.table] at can
  exact freezes.keeps _ (TransitionTable.mem_edges can) inside

variable [ToString S] (sound : w.plan.Sound w.options)

include sound

/-- No event leads out of the region or changes the configuration inside it. -/
theorem Consistent.frozen_next (consistent : s.Consistent w)
    (freezes : w.plan.Freezes w.options t R) (inside : R s.site.engine.current) (e : Event) :
    R (s.next w e).2.site.engine.current ∧
      (s.next w e).2.site.payload.configuration = s.site.payload.configuration := by
  constructor
  · show R (s.next w e).2.outline.current
    have follows := (next_follows sound consistent e).2
    cases fact : s.fact w e with
    | none =>
      rw [fact] at follows
      rw [show (s.next w e).2.outline = s.outline from follows]
      exact inside
    | some f =>
      rw [fact] at follows
      exact follows.1.keeps sound freezes.keeps inside
  · cases e with
    | act a => exact ((consistent.acted sound a).frozen (consistent.closed freezes inside)).1
    | note p =>
      show (s.note p).site.payload.configuration = _
      unfold Session.note
      cases s.job with
      | none => rfl
      | some job => exact Workflow.configuration_note s.site p
    | tick now => rfl
    | complete outcome =>
      cases found : s.job with
      | none =>
        show (s.complete w outcome).site.payload.configuration = _
        unfold complete
        rw [found]
      | some job =>
        rw [next_complete sound consistent found]
        exact Workflow.configuration_endedIn ..

/-- Inside a region that freezes the configuration no event leads out or changes it. -/
theorem Consistent.frozen_after (consistent : s.Consistent w)
    (freezes : w.plan.Freezes w.options t R) (inside : R s.site.engine.current)
    (events : List Event) :
    R (s.after w events).site.engine.current ∧
      (s.after w events).site.payload.configuration = s.site.payload.configuration := by
  induction events generalizing s with
  | nil => exact ⟨inside, rfl⟩
  | cons e more ih =>
    obtain ⟨inside', same⟩ := consistent.frozen_next sound freezes inside e
    obtain ⟨inside'', same'⟩ := ih (next_follows sound consistent e).1 inside'
    exact ⟨inside'', same'.trans same⟩

/-- The call that an event comes to is made with the stores of the session. -/
theorem Consistent.call_eq (consistent : s.Consistent w) {e : Event} {ignore : Bool} {call : Call}
    (fact : s.fact w e = some (.began t ignore call)) :
    call = w.callFor s.site.payload.values s.site.payload.settings t := by
  have follows := (next_follows sound consistent e).2
  rw [fact] at follows
  exact follows.1.call_eq

/-- If no event changes the configuration, all calls are made with the same values. -/
theorem Consistent.deployed_eq (consistent : s.Consistent w) {events : List Event}
    (frozen : ∀ before after, events = before ++ after →
      (s.after w before).site.payload.configuration = s.site.payload.configuration)
    {ignore : Bool} {call : Call} {v : ConfigValues}
    (mem : .began t ignore call ∈ s.history w events) (has : call.values? = some v) :
    v = w.schema.resolve s.site.payload.values := by
  induction events generalizing s with
  | nil => nomatch mem
  | cons e more ih =>
    rcases List.mem_append.1 mem with here | later
    · rw [consistent.call_eq sound (Option.mem_toList.1 here)] at has
      exact (Workflow.values?_callFor has).2
    · have same := frozen [e] more rfl
      rw [← Stores.values_of_configuration same]
      refine ih (next_follows sound consistent e).1 (fun before after split ↦ ?_) later
      exact (frozen (e :: before) after (congrArg (e :: ·) split)).trans same.symm

end Session

/-! ### From the start of the task on -/

section Frozen

variable [ToString S]

/-- From an action on, the configuration of a session stays what it was. -/
structure Workflow.Frozen (w : Workflow S) (s : Session S) (a : Action) : Prop where
  /-- Every configuration is refused. -/
  refused : ∀ (more : List Event) (b : Action), b.isConfiguration = true →
    ∃ e : ActionError S, ((s.after w (.act a :: more)).next w (.act b)).1 = some (.refused e) ∧
      e.isRefusal = true
  stored : ∀ more, (s.after w (.act a :: more)).site.payload.configuration =
    s.site.payload.configuration
  /-- Clients are shown the same values of the application. -/
  values : ∀ more, (w.values.run (s.after w (.act a :: more)).site).1 = (w.values.run s.site).1
  /-- Clients are shown the same settings of the installation. -/
  settings : ∀ more,
    ((Site.look Stores.settings).run (s.after w (.act a :: more)).site).1 =
      ((Site.look Stores.settings).run s.site).1
  /-- The application is deployed with these values. -/
  deployed : ∀ more t ignore call v,
    .began t ignore call ∈ s.history w (.act a :: more) → call.values? = some v →
      v = (w.values.run s.site).1

namespace Session

variable {w : Workflow S} {s : Session S} {t : Task} {R : S → Prop}

/-- The configuration is over when the task has been accepted. -/
theorem Consistent.frozen (consistent : s.Consistent w) (sound : w.plan.Sound w.options)
    (freezes : w.plan.Freezes w.options t R) {ignore : Bool} {r : StatusRecord}
    (accepted : (s.next w (.act (.begin t ignore))).1 = some (.accepted r)) :
    w.Frozen s (.begin t ignore) := by
  have begun : R (s.next w (.act (.begin t ignore))).2.site.engine.current ∧
      (s.next w (.act (.begin t ignore))).2.site.payload.configuration =
        s.site.payload.configuration := by
    have acted := consistent.acted sound (.begin t ignore)
    change some ((w.act (.begin t ignore)).run s.site).1.1 = _ at accepted
    generalize ((w.act (.begin t ignore)).run s.site).1 = answered at acted accepted
    generalize (s.next w (.act (.begin t ignore))).2.site = site at acted ⊢
    cases acted with
    | refused => nomatch accepted
    | began has free passes leads =>
      exact ⟨freezes.into _ has rfl, Workflow.configuration_begunIn _⟩
  have consistent' := (next_follows sound consistent (.act (.begin t ignore))).1
  have stored (more : List Event) :
      (s.after w (.act (.begin t ignore) :: more)).site.payload.configuration =
        s.site.payload.configuration :=
    (consistent'.frozen_after sound freezes begun.1 more).2.trans begun.2
  refine
    { refused := fun more b configures ↦ ?_
      stored := stored
      values := fun more ↦ congrArg w.schema.resolve (Stores.values_of_configuration (stored more))
      settings := fun more ↦ Stores.settings_of_configuration (stored more)
      deployed := fun more t' ignore' call v mem has ↦ ?_ }
  · have after := (trace_history sound consistent' more).1
    have inside := (consistent'.frozen_after sound freezes begun.1 more).1
    obtain ⟨e, refused, refusal⟩ :=
      ((after.acted sound b).frozen (after.closed freezes inside)).2 configures
    exact ⟨e, congrArg some refused, refusal⟩
  · refine consistent.deployed_eq sound (fun before after split ↦ ?_) mem has
    cases before with
    | nil => rfl
    | cons e more' =>
      obtain ⟨rfl, -⟩ := List.cons.inj split
      exact stored more'

end Session
end Frozen

/-! ### Both workflows -/

/-- The infrastructure freezes an installation. -/
theorem InstallState.infrastructure_freezes (o : Options) :
    InstallState.plan.Freezes o .infrastructure fun s ↦ 3 ≤ s.progress := by
  obtain ⟨⟨⟩, ⟨⟩, ⟨⟩, ⟨⟩⟩ := o
  all_goals exact ⟨by decide, by decide, by decide⟩

/-- The task with which an upgrade begins to change the cluster. -/
def Target.upgradedBy : Target → Task
  | .linux => .infrastructure
  | .kubernetes => .deployment

/-- How far an upgrade has got once it has begun to change the cluster. -/
def Target.upgradedFrom : Target → Nat
  | .linux => 3
  | .kubernetes => 5

/-- The first change of the cluster freezes an upgrade. -/
theorem UpgradeState.upgraded_freezes (o : Options) :
    UpgradeState.plan.Freezes o o.target.upgradedBy fun s ↦ o.target.upgradedFrom ≤ s.progress := by
  obtain ⟨⟨⟩, ⟨⟩, ⟨⟩, ⟨⟩⟩ := o
  all_goals exact ⟨by decide, by decide, by decide⟩

/-- Once an installation or an upgrade has begun to change the cluster, its configuration is
over. -/
theorem configuration_frozen (options : Options) (schema : AppConfigSchema)
    (titles : PreflightScope → List String) (values : Option ConfigValues) (now : Timestamp)
    (events : List Event) (ignore : Bool) (r : StatusRecord) :
    (let w := Workflow.install options schema titles
      let s := w.after values now events
      (s.next w (.act (.begin .infrastructure ignore))).1 = some (.accepted r) →
        w.Frozen s (.begin .infrastructure ignore)) ∧
    (let w := Workflow.upgrade options schema titles
      let s := w.after values now events
      (s.next w (.act (.begin options.target.upgradedBy ignore))).1 = some (.accepted r) →
        w.Frozen s (.begin options.target.upgradedBy ignore)) := by
  constructor
  · have sound := InstallState.plan_sound options
    intro w s accepted
    exact (w.consistent_after sound values now events).frozen sound
      (InstallState.infrastructure_freezes options) accepted
  · have sound := UpgradeState.plan_sound options
    intro w s accepted
    exact (w.consistent_after sound values now events).frozen sound
      (UpgradeState.upgraded_freezes options) accepted

def hostItem : AppConfigSchema := { items := [{ name := "host" }] }

def hostPatched : Event := .act (.patchValues (Dict.ofList [("host", .string "a")]))

def configuredInstall : Session InstallState :=
  (Workflow.install { target := .kubernetes } hostItem fun _ ↦ []).after none .epoch
    [hostPatched, .act (.configureInstallation {})]

def configuredUpgrade : Session UpgradeState :=
  (Workflow.upgrade {} hostItem fun _ ↦ []).after none .epoch [hostPatched]

/-- Both have been accepted to begin with the infrastructure, and their configuration is over. -/
theorem configuration_over :
    configuredInstall.site.payload.values = Dict.ofList [("host", .string "a")] ∧
      (configuredInstall.next (.install { target := .kubernetes } hostItem fun _ ↦ [])
        (.act (.begin .infrastructure false))).1 =
          some (.accepted ⟨.running, "Installing infrastructure", .epoch⟩) ∧
      (Workflow.install { target := .kubernetes } hostItem fun _ ↦ []).Frozen configuredInstall
        (.begin .infrastructure false) ∧
      (configuredUpgrade.next (.upgrade {} hostItem fun _ ↦ [])
        (.act (.begin .infrastructure false))).1 =
          some (.accepted ⟨.running, "Upgrading infrastructure", .epoch⟩) ∧
      (Workflow.upgrade {} hostItem fun _ ↦ []).Frozen configuredUpgrade
        (.begin .infrastructure false) :=
  ⟨rfl, rfl, (configuration_frozen { target := .kubernetes } hostItem (fun _ ↦ []) none .epoch _
      false _).1 rfl, rfl,
    (configuration_frozen {} hostItem (fun _ ↦ []) none .epoch _ false _).2 rfl⟩

end Rollout
