import Rollout.Proofs.Answers
import Rollout.Proofs.Patches
import Rollout.Proofs.Telling

/-!
# Configurations that overtake each other

Clients configure a workflow at the same time.  The state in which the workflow is left was entered
under the lock, and tells what the last client to take the lock has come to.  The status of an
activity was written after the lock had been given back, and tells what the last client to return
has come to (`ToldInTurn`).  So the two agree exactly if these came to the same: a client that is
overtaken between its release and its last step leaves a status that the state contradicts
(`overtaken_status_contradicts`).
-/

namespace Rollout

variable {S : Type}

/-- What the state tells of a configuration is what the status of its activity tells. -/
def Shared.Concords (configuration? : S → Option (Activity × Bool)) (s : Site S) : Prop :=
  ∀ a success, configuration? s.engine.current = some (a, success) →
    (s.payload.status a).state = .ofSuccess success

/-- What these clients came to; who was refused is left out. -/
def outcomes (requests : List Configuration) (q : Pool (Site S) (Answer S × Option (Job S)))
    (order : List Nat) : List (Activity × Bool) :=
  answeredIn Configuration.outcome? requests q order

/-- The state tells what was come to last, or is still the one before. -/
def TellsLast (configuration? : S → Option (Activity × Bool)) (before now : S) :
    Option (Activity × Bool) → Prop
  | some x => configuration? now = some x
  | none => now = before

/-- What the state and the statuses tell in the end, of clients that took the lock and returned in
the given orders. -/
structure ToldInTurn (configuration? : S → Option (Activity × Bool)) (s : Site S)
    (requests : List Configuration) (taken returned : List Nat)
    (q : Pool (Site S) (Answer S × Option (Job S))) : Prop where
  /-- The state tells what the last to take the lock came to. -/
  current : TellsLast configuration? s.engine.current q.state.engine.current
    (outcomes requests q taken).getLast?
  /-- The status of an activity tells what the last to return came to. -/
  status : ∀ a, (q.state.payload.status a).state =
    (lastOf a (outcomes requests q returned)).elim (s.payload.status a).state .ofSuccess
  /-- They agree exactly if these came to the same. -/
  concords_iff : q.state.Concords configuration? ↔
    ∀ a success, (outcomes requests q taken).getLast? = some (a, success) →
      lastOf a (outcomes requests q returned) = some success

section Told

variable {w : Workflow S} {requests : List Configuration}
  {q : Pool (Site S) (Answer S × Option (Job S))} {configuration? : S → Option (Activity × Bool)}

theorem mem_outcomes {order : List Nat} {x : Activity × Bool} :
    x ∈ outcomes requests q order ↔
      ∃ i ∈ order, answered? Configuration.outcome? requests q i = some x := mem_answeredIn

/-! ### States -/

/-- The core of a workflow that waits. -/
structure Workflow.Waits (w : Workflow S) (c : Core S Inputs) : Prop where
  table : c.table = w.table
  rests : c.current ∈ w.plan.resting w.options

theorem Configuration.task?_activity (c : Configuration) : c.activity.task? = none := by
  cases c <;> rfl

/-- The answer to an accepted configuration tells so. -/
theorem Workflow.outcome?_of_configured {c : Configuration} {i i' : Inputs} {answer : Answer S}
    (configured : w.configured i c = .ok (i', answer)) :
    c.outcome? answer = some (c.activity, true) := by
  cases c with
  | values patch =>
    obtain ⟨-, rfl⟩ := Workflow.configured_values configured
    rfl
  | settings c =>
    obtain ⟨-, rfl⟩ := Workflow.configured_settings configured
    rfl

variable [DecidableEq S]

/-- What becomes of the state while a client has the lock. -/
theorem Workflow.Served.current (sound : w.plan.Sound w.options)
    (configures : w.plan.Configures w.options configuration?) {c : Configuration}
    {answered : Answer S × Option (Job S)} {lock : Lock} {first last : Core S Inputs}
    (served : w.Served c answered (.past lock first last)) (waits : w.Waits first) :
    w.Waits last ∧ TellsLast configuration? first.current last.current (c.outcome? answered.1) := by
  have settles {stages : Stages S} (has : (c.activity, stages) ∈ w.plan.activities w.options)
      {target : S} (outcome : target ∈ w.plan.outcomes c.activity stages) (i : Inputs) :
      Core.entered { first with current := stages.running, data := i } target =
        { first with current := target, data := i } ∧
      w.Waits { first with current := target, data := i } := by
    have can : Core.can { first with current := stages.running, data := i } target = true := by
      unfold Core.can
      rw [waits.table]
      exact sound.settles _ has _ outcome
    exact ⟨Core.entered_of_can can, waits.table, Plan.outcome_mem_resting has outcome⟩
  cases served with
  | @forbidden stages has _ cannot lock =>
    have stays : first.can stages.failed = false := by
      unfold Core.can
      rw [waits.table]
      exact sound.stays has waits.rests Plan.failed_mem_outcomes
    rw [Core.entered_of_cannot stays]
    exact ⟨waits, rfl⟩
  | @accepted stages has _ can i answer configured lock =>
    obtain ⟨entered, waits'⟩ := settles has Plan.succeeded_mem_outcomes i
    rw [entered, w.outcome?_of_configured configured]
    exact ⟨waits', (configures _ has c.task?_activity).1⟩
  | @rejected stages has _ can e configured lock =>
    obtain ⟨entered, waits'⟩ := settles has Plan.failed_mem_outcomes first.data
    rw [entered]
    exact ⟨waits', (configures _ has c.task?_activity).2⟩

/-- What becomes of the state in a chain of tenures. -/
theorem current_of_chain (sound : w.plan.Sound w.options)
    (configures : w.plan.Configures w.options configuration?)
    {tenures : Nat → Tenure (Core S Inputs)} {initial now : Core S Inputs}
    {taken : List (Nat × Lock)} (chain : Tenure.Chain tenures initial taken now)
    (served : ∀ x ∈ taken, ∃ answered, q.result? x.1 = some answered ∧
      w.ServedAt requests x.1 answered (tenures x.1)) (waits : w.Waits initial) :
    w.Waits now ∧ TellsLast configuration? initial.current now.current
      (outcomes requests q (taken.map (·.1))).getLast? := by
  induction chain with
  | nil => exact ⟨waits, rfl⟩
  | @snoc taken i lock first last earlier ended ih =>
    obtain ⟨waits', before⟩ := ih fun x mem ↦ served x (List.mem_append_left _ mem)
    obtain ⟨answered, result, c, found, served_i⟩ := served (i, lock) (by simp)
    rw [ended] at served_i
    obtain ⟨waits'', after⟩ := served_i.current sound configures waits'
    refine ⟨waits'', ?_⟩
    rw [List.map_append, List.map_singleton, outcomes, answeredIn_snoc, answered?_eq found result]
    cases came : c.outcome? answered.1 with
    | some x =>
      rw [came] at after
      rw [Option.toList_some, List.getLast?_concat]
      exact after
    | none =>
      rw [came] at after
      have same : last.current = first.current := after
      rw [Option.toList_none, List.append_nil, same]
      exact before

/-! ### Agreement -/

omit [DecidableEq S] in
/-- The state and the statuses agree exactly if the last to take the lock came to the same as the
last to return. -/
theorem concords_iff_of {s : Site S} {taken returned : List Nat}
    (start : s.Concords configuration?)
    (current : TellsLast configuration? s.engine.current q.state.engine.current
      (outcomes requests q taken).getLast?)
    (status : ∀ a, (q.state.payload.status a).state =
      (lastOf a (outcomes requests q returned)).elim (s.payload.status a).state .ofSuccess)
    (took : ∀ i x, answered? Configuration.outcome? requests q i = some x → i ∈ taken)
    (returns : ∀ i x, answered? Configuration.outcome? requests q i = some x → i ∈ returned) :
    q.state.Concords configuration? ↔
      ∀ a success, (outcomes requests q taken).getLast? = some (a, success) →
        lastOf a (outcomes requests q returned) = some success := by
  cases last : (outcomes requests q taken).getLast? with
  | none =>
    rw [last] at current
    have nobody : outcomes requests q returned = [] := by
      refine List.eq_nil_iff_forall_not_mem.2 fun x told ↦ ?_
      obtain ⟨i, -, came⟩ := mem_outcomes.1 told
      have listed := mem_outcomes.2 ⟨i, took i x came, came⟩
      rw [List.getLast?_eq_none_iff.1 last] at listed
      nomatch listed
    refine ⟨fun _ ↦ nofun, fun _ a success is ↦ ?_⟩
    have same : q.state.engine.current = s.engine.current := current
    rw [same] at is
    rw [status, nobody]
    exact start a success is
  | some x =>
    obtain ⟨a, success⟩ := x
    rw [last] at current
    obtain ⟨i, -, came⟩ := mem_outcomes.1 (List.mem_of_getLast? last)
    obtain ⟨success', told⟩ := lastOf_isSome (mem_outcomes.2 ⟨i, returns i _ came, came⟩)
    constructor
    · rintro concords _ _ ⟨⟩
      have same := concords a success current
      rw [status, told] at same
      rw [told, Status.ofSuccess_inj.1 same]
    · intro same b success'' is
      obtain ⟨rfl, rfl⟩ := Prod.mk.inj (Option.some.inj (current.symm.trans is))
      rw [status, same a success rfl]
      rfl

/-- Who has told something has had the lock. -/
theorem Workflow.Served.taken_of_outcome {c : Configuration} {answered : Answer S × Option (Job S)}
    {τ : Tenure (Core S Inputs)} (served : w.Served c answered τ) {x : Activity × Bool}
    (came : c.outcome? answered.1 = some x) : ∃ lock, τ.taken? = some lock := by
  cases served with
  | unsupported | busy => nomatch came
  | forbidden | accepted | rejected => exact ⟨_, rfl⟩

section Serving

variable [ToString S] {s : Site S} {l : Ledger S} {returned : List Nat}

/-- What can have been told of the request with a number. -/
def ToldAt (requests : List Configuration) (i : Nat) (answered : Answer S × Option (Job S))
    (g : Telling) : Prop :=
  ∃ c, requests[i]? = some c ∧ g = .of (c.outcome? answered.1)

/-- While requests are served, the statuses are as they were told. -/
theorem Workflow.serving_marked (journal : (w.serving requests s).Journal l returned q) :
    ∃ tellings, q.Marked (ToldAt requests) s tellings returned := by
  have start : (w.serving requests s).Marked (ToldAt requests) s (fun _ ↦ .quiet) [] :=
    Pool.Marked.start (q := w.serving requests s)
      (Workflow.serving_following w.act_marks requests s)
  exact start.along journal

/-- The statuses that are left when all have returned. -/
theorem Workflow.status_of_journal (journal : (w.serving requests s).Journal l returned q)
    (ended : ∀ p ∈ q.procs, ∃ answered, p = .done answered) :
    (∀ a, (q.state.payload.status a).state =
      (lastOf a (outcomes requests q returned)).elim (s.payload.status a).state .ofSuccess) ∧
    ∀ i x, answered? Configuration.outcome? requests q i = some x → i ∈ returned := by
  obtain ⟨tellings, marked⟩ := w.serving_marked journal
  have told {i : Nat} {answered : Answer S × Option (Job S)}
      (result : q.result? i = some answered) :
      tellings i = .of (answered? Configuration.outcome? requests q i) := by
    obtain ⟨c, found, told⟩ := marked.following.post result
    rw [told, answered?_eq found result]
  constructor
  · intro a
    have listed : (returned.filterMap fun i ↦ (tellings i).told?) =
        outcomes requests q returned := by
      refine List.filterMap_congr fun i mem ↦ ?_
      obtain ⟨answered, result⟩ := marked.ended i mem
      rw [told result, Telling.told?_of]
    rw [marked.status a fun i lt ↦ ?_, listed]
    obtain ⟨answered, result⟩ := Pool.result?_of_ended ended lt
    rw [told result]
    exact Telling.of_ne_amid _ _
  · intro i x came
    obtain ⟨c, answered, -, result, -⟩ := answered?_eq_some came
    refine marked.complete i ?_
    rw [told result, Telling.told?_of, came]
    nofun

/-- However the steps of configurations are interleaved, the state and the statuses are told in
turn. -/
theorem Workflow.toldInTurn (sound : w.plan.Sound w.options)
    (configures : w.plan.Configures w.options configuration?) (table : s.engine.table = w.table)
    (rests : s.engine.held = none → s.engine.current ∈ w.plan.resting w.options)
    (start : s.Concords configuration?) (steps : (w.serving requests s).Steps q)
    (ended : ∀ p ∈ q.procs, ∃ answered, p = .done answered) :
    ∃ l returned, (w.serving requests s).Journal l returned q ∧
      ToldInTurn configuration? s requests (l.acquisitions.map (·.1)) returned q := by
  obtain ⟨l, tenures, run, serial⟩ := w.serving_serial steps
  obtain ⟨returned, journal⟩ := run.journal
  obtain ⟨status, returns⟩ := w.status_of_journal journal ended
  have chain := serial.chain ended fun _ _ _ ⟨_, _, served⟩ ↦ served.unlocked
  have current : TellsLast configuration? s.engine.current q.state.engine.current
      (outcomes requests q (l.acquisitions.map (·.1))).getLast? := by
    by_cases nobody : l.acquisitions = []
    · rw [nobody] at chain ⊢
      exact congrArg Core.current chain.eq_of_nil
    · have waits : w.Waits (s.core Stores.inputs) := ⟨table, rests (serial.opened nobody)⟩
      exact (current_of_chain sound configures chain (serial.results ended) waits).2
  have took (i : Nat) (x : Activity × Bool)
      (came : answered? Configuration.outcome? requests q i = some x) :
      i ∈ l.acquisitions.map (·.1) := by
    obtain ⟨c, answered, found, result, came⟩ := answered?_eq_some came
    obtain ⟨c', found', served⟩ := serial.following.post result
    obtain rfl := Option.some.inj (found.symm.trans found')
    obtain ⟨lock, taken⟩ := served.taken_of_outcome came
    exact List.mem_map_of_mem (serial.complete i lock taken)
  exact ⟨l, returned, journal,
    ⟨current, status, concords_iff_of start current status took returns⟩⟩

end Serving

/-- However configurations overlap between two events, the state and the statuses are told in
turn. -/
def Workflow.ConfigurationsToldInTurn [ToString S] (w : Workflow S)
    (configuration? : S → Option (Activity × Bool)) : Prop :=
  ∀ (values : Option ConfigValues) (now : Timestamp) (events : List Event)
    (requests : List Configuration) (q : Pool (Site S) (Answer S × Option (Job S))),
    (w.serving requests (w.after values now events).site).Steps q →
    (∀ p ∈ q.procs, ∃ answered, p = .done answered) →
    ∃ l returned, (w.serving requests (w.after values now events).site).Journal l returned q ∧
      ToldInTurn configuration? (w.after values now events).site requests
        (l.acquisitions.map (·.1)) returned q

/-- In every reachable session configurations are told in turn.  The statuses agree with the state
where a configuration has been told, since with a job in flight it would be the state of a task. -/
theorem Workflow.configurationsToldInTurn [ToString S] {task? : S → Option Task}
    {Told : Stores → S → Prop} (sound : w.plan.Sound w.options)
    (named : w.plan.Named w.options task?) (configures : w.plan.Configures w.options configuration?)
    (tells : ∀ stores current, w.Told stores current → Told stores current)
    (waits : ∀ current x, configuration? current = some x → task? current = none)
    (concords : ∀ stores current a success, Told stores current →
      configuration? current = some (a, success) → (stores.status a).state = .ofSuccess success) :
    w.ConfigurationsToldInTurn configuration? := by
  intro values now events requests q steps ended
  have consistent := w.consistent_after sound values now events
  have agree := Workflow.storesAgree_after sound named tells values now events
  refine w.toldInTurn sound configures consistent.table
    (fun free ↦ (consistent.idle (consistent.no_job free)).2) (fun a success is ↦ ?_) steps ended
  refine concords _ _ a success (agree.told ?_) is
  cases flying : (w.after values now events).job with
  | none => exact (consistent.idle flying).1
  | some job =>
    obtain ⟨-, running, has⟩ := consistent.busy job flying
    have task := named.running _ has job.call.task rfl
    rw [← running, waits _ _ is] at task
    nomatch task

end Told

/-! ### Schedules -/

/-- Two patches; the second one is rejected. -/
def goodAndBadPatch : List Configuration :=
  [.values (Dict.ofList [("host", .string "a")]), .values (Dict.ofList [("host", .bool true)])]

/-- Settings of an installation, and some that are rejected. -/
def goodAndBadSettings : List Configuration :=
  [.settings {}, .settings { adminConsolePort := 0 }]

def twoItemsUpgrade : Workflow UpgradeState := .upgrade {} twoItems fun _ ↦ []

/-- The first client makes so many steps, the last of which gives the lock back.  Then the second
one is served, and only then the first one writes the status. -/
def overtakenAfter (steps : Nat) : List Nat := List.replicate steps 0 ++ List.replicate 9 1 ++ [0]

/-- An installation whose first client is overtaken when it has patched the values. -/
def overtakenPatch : Pool (Site InstallState) (Answer InstallState × Option (Job InstallState)) :=
  (twoItemsInstall.serving goodAndBadPatch (twoItemsInstall.after none .epoch []).site).after
    (overtakenAfter 10)

/-- An installation whose first client is overtaken when it has stored the settings. -/
def overtakenSettings :
    Pool (Site InstallState) (Answer InstallState × Option (Job InstallState)) :=
  (twoItemsInstall.serving goodAndBadSettings
    (twoItemsInstall.after none .epoch [.act (.patchValues .empty)]).site).after (overtakenAfter 8)

/-- An upgrade whose first client is overtaken when it has patched the values. -/
def overtakenUpgrade : Pool (Site UpgradeState) (Answer UpgradeState × Option (Job UpgradeState)) :=
  (twoItemsUpgrade.serving goodAndBadPatch (twoItemsUpgrade.after none .epoch []).site).after
    (overtakenAfter 10)

theorem Pool.ended_of_pair {σ α : Type} {q : Pool σ α} {a b : α}
    (procs : q.procs = [.done a, .done b]) (p : Proc σ α) (mem : p ∈ q.procs) :
    ∃ r, p = .done r := by
  simp only [procs, List.mem_cons, List.not_mem_nil, or_false] at mem
  rcases mem with rfl | rfl <;> exact ⟨_, rfl⟩

/-! ### Both workflows -/

/-- No task runs in a state that tells of a configuration. -/
theorem InstallState.task?_of_configuration {s : InstallState} {x : Activity × Bool}
    (is : configuration? s = some x) : task? s = none := by
  cases s <;> first | rfl | nomatch is

/-- Where the state tells of a configuration, its status tells the same. -/
theorem InstallState.status_of_told {stores : Stores} {s : InstallState} {a : Activity}
    {success : Bool} (told : Told stores s) (is : configuration? s = some (a, success)) :
    (stores.status a).state = .ofSuccess success := by
  cases s <;> cases is <;> exact told

theorem UpgradeState.task?_of_configuration {s : UpgradeState} {x : Activity × Bool}
    (is : configuration? s = some x) : task? s = none := by
  cases s <;> first | rfl | nomatch is

theorem UpgradeState.status_of_told {stores : Stores} {s : UpgradeState} {a : Activity}
    {success : Bool} (told : Told stores s) (is : configuration? s = some (a, success)) :
    (stores.status a).state = .ofSuccess success := by
  cases s <;> cases is <;> exact told

/-- However configurations of an installation or an upgrade overlap, the state tells what the last
to take the lock came to, a status what the last to return came to, and the two agree exactly if
these came to the same. -/
theorem configurations_told_in_turn (options : Options) (schema : AppConfigSchema)
    (titles : PreflightScope → List String) :
    (Workflow.install options schema titles).ConfigurationsToldInTurn
        InstallState.configuration? ∧
      (Workflow.upgrade options schema titles).ConfigurationsToldInTurn
        UpgradeState.configuration? := by
  constructor
  · exact Workflow.configurationsToldInTurn (InstallState.plan_sound options)
      (InstallState.plan_named options) (InstallState.plan_configures options)
      (fun _ _ ↦ InstallState.told_of_told) (fun _ _ ↦ InstallState.task?_of_configuration)
      fun _ _ _ _ ↦ InstallState.status_of_told
  · exact Workflow.configurationsToldInTurn (UpgradeState.plan_sound options)
      (UpgradeState.plan_named options) (UpgradeState.plan_configures options)
      (fun _ _ ↦ UpgradeState.told_of_told) (fun _ _ ↦ UpgradeState.task?_of_configuration)
      fun _ _ _ _ ↦ UpgradeState.status_of_told

/-- The first client has returned last, and the status is what it has told. -/
theorem overtaken_patch_told_in_turn :
    (overtakenPatch.state.payload.status .configureApp).state = .succeeded ∧
      ∃ l returned, (twoItemsInstall.serving goodAndBadPatch
          (twoItemsInstall.after none .epoch []).site).Journal l returned overtakenPatch ∧
        lastOf .configureApp (outcomes goodAndBadPatch overtakenPatch returned) = some true := by
  obtain ⟨installs, -⟩ := configurations_told_in_turn {} twoItems fun _ ↦ []
  have steps := (Pool.Steps.refl (twoItemsInstall.serving goodAndBadPatch
    (twoItemsInstall.after none .epoch []).site)).after (overtakenAfter 10)
  obtain ⟨a, b, procs⟩ : ∃ a b, overtakenPatch.procs = [.done a, .done b] := ⟨_, _, rfl⟩
  obtain ⟨l, returned, journal, told⟩ :=
    installs none .epoch [] goodAndBadPatch overtakenPatch steps (Pool.ended_of_pair procs)
  have status : (overtakenPatch.state.payload.status .configureApp).state = .succeeded := rfl
  refine ⟨status, l, returned, journal, ?_⟩
  have told_status := status.symm.trans (told.status .configureApp)
  cases last : lastOf .configureApp (outcomes goodAndBadPatch overtakenPatch returned) with
  | none =>
    rw [last] at told_status
    nomatch told_status
  | some success =>
    rw [last] at told_status
    exact congrArg some (Status.ofSuccess_inj (b := true).1 told_status).symm

/-! ### Overtaking -/

/-- When all configurations have been answered and the lock is free, the state and the statuses
agree. -/
def Workflow.ConfigurationsConcord [DecidableEq S] [ToString S] (w : Workflow S)
    (configuration? : S → Option (Activity × Bool)) (requests : List Configuration) : Prop :=
  ∀ (values : Option ConfigValues) (now : Timestamp) (events : List Event)
    (q : Pool (Site S) (Answer S × Option (Job S))),
    (w.serving requests (w.after values now events).site).Steps q →
    (∀ p ∈ q.procs, ∃ answered, p = .done answered) → q.state.engine.held = none →
    q.state.Concords configuration?

/-- A schedule after which a status contradicts the state. -/
theorem Workflow.not_concord [DecidableEq S] [ToString S] {w : Workflow S}
    {configuration? : S → Option (Activity × Bool)} {requests : List Configuration}
    (events : List Event) (turns : List Nat) {q : Pool (Site S) (Answer S × Option (Job S))}
    (after : (w.serving requests (w.after none .epoch events).site).after turns = q)
    {a b : Answer S × Option (Job S)} (procs : q.procs = [.done a, .done b])
    (free : q.state.engine.held = none) {activity : Activity}
    (state : configuration? q.state.engine.current = some (activity, false))
    (status : (q.state.payload.status activity).state = .succeeded) :
    ¬ w.ConfigurationsConcord configuration? requests := by
  intro concord
  have steps := (Pool.Steps.refl (w.serving requests (w.after none .epoch events).site)).after turns
  rw [after] at steps
  have agrees := concord none .epoch events q steps (Pool.ended_of_pair procs) free activity false
    state
  rw [status] at agrees
  nomatch agrees

/-- The state and the status of a client that has been overtaken need not agree. -/
theorem overtaken_status_contradicts :
    ¬ twoItemsInstall.ConfigurationsConcord InstallState.configuration? goodAndBadPatch ∧
      ¬ twoItemsInstall.ConfigurationsConcord InstallState.configuration? goodAndBadSettings ∧
      ¬ twoItemsUpgrade.ConfigurationsConcord UpgradeState.configuration? goodAndBadPatch := by
  refine ⟨?_, ?_, ?_⟩
  · exact Workflow.not_concord (q := overtakenPatch) [] (overtakenAfter 10) rfl rfl rfl rfl rfl
  · exact Workflow.not_concord (q := overtakenSettings) [.act (.patchValues .empty)]
      (overtakenAfter 8) rfl rfl rfl rfl rfl
  · exact Workflow.not_concord (q := overtakenUpgrade) [] (overtakenAfter 10) rfl rfl rfl rfl rfl

end Rollout
