import Rollout.Api.Server
import Rollout.Proofs.Refusal
import Rollout.Proofs.StoreAgreement

/-!
# Answers tell the truth

What the server answers to a request tells what has become of the workflow.  What the status of an
answer means is `Api.AnswersTruly`.  A request that gives a command is an action of the workflow, so
that all that it can come to is known from `Workflow.Acted`; every other request changes nothing
(`Api.Handled`).  No answer tells of a fault of the server: an action that fails has been refused,
or its input has been rejected.
-/

namespace Rollout

variable {S : Type}

/-! ### Rejected input -/

/-- A rejection names a field. -/
theorem ValidationError.errors_ne_nil {errors : List FieldError} {e : ValidationError}
    (h : ValidationError.check errors = .error e) : e.errors ≠ [] := by
  unfold check at h
  split at h
  · nomatch h
  · rename_i some_error
    obtain rfl := Except.error.inj h
    simpa using some_error

namespace ActionError

/-- An action that was not even begun is refused as a conflict, or for what it is. -/
theorem statusCode_of_isRefusal {e : ActionError S} (refusal : e.isRefusal = true)
    (valid : e ≠ .operation (.engine .invalidLock)) :
    e.statusCode = 409 ∨ e.statusCode = 400 ∨ e.statusCode = 404 := by
  rcases e with (e | f | m) | scope | ⟨action, mode, target⟩
  · cases e with
    | busy => exact .inl rfl
    | invalidLock => exact absurd rfl valid
    | invalidTransition source target => exact .inl rfl
  · nomatch refusal
  · nomatch refusal
  · exact .inr (.inl rfl)
  · exact .inr (.inr rfl)

/-- A refused action has not got as far as to reject an input. -/
theorem rejection?_of_isRefusal {e : ActionError S} (refusal : e.isRefusal = true) :
    e.rejection? = none := by
  rcases e with (e | f | m) | scope | ⟨action, mode, target⟩
  · rfl
  · nomatch refusal
  · nomatch refusal
  · rfl
  · rfl

end ActionError

/-- The states in which a configuration has been accepted or rejected tell which it was, and how it
came out. -/
def Plan.Configures (p : Plan S) (o : Options) (configuration? : S → Option (Activity × Bool)) :
    Prop :=
  ∀ x ∈ p.activities o, x.1.task? = none →
    configuration? x.2.succeeded = some (x.1, true) ∧ configuration? x.2.failed = some (x.1, false)

namespace Api

/-! ### What an answer means -/

/-- The rejected fields in the body of a response. -/
def Response.fields (r : Response) : List Json :=
  match r.content with
  | .json body =>
    match body.get? "fields" with
    | some (.array fields) => fields
    | _ => []
  | _ => []

/-- The command that a request gives. -/
def Request.command? (r : Request) (mode : Mode) : Option Command :=
  (Route.find? mode r.path).bind fun route ↦
    route.command.bind fun c ↦ if r.method = c.method then some c else none

/-- What a response tells of the site before the request and after it.  `task?` names the running
states, and `configuration?` those in which a configuration has been accepted or rejected. -/
structure AnswersTruly (w : Workflow S) (task? : S → Option Task)
    (configuration? : S → Option (Activity × Bool)) (r : Request) (before : Site S)
    (response : Response) (job : Option (Job S)) (after : Site S) : Prop where
  /-- The server is never at fault. -/
  served : response.status < 500
  /-- The lock was free, and the task that was asked for is running. -/
  accepted : response.status = 202 → before.engine.isLocked = false ∧
    ∃ t, r.command? w.plan.mode = some (.begin t) ∧ after.engine.isLocked = true ∧
      task? after.engine.current = some t ∧ job.map (·.call.task) = some t ∧
      (after.payload.status (.task t)).state = .running ∧
      response.content = .json (after.payload.status (.task t)).toJson
  /-- The values have been changed. -/
  patched : r.command? w.plan.mode = some .patchValues → response.status = 200 →
    configuration? after.engine.current = some (.configureApp, true) ∧
      after.engine.isLocked = false ∧
      response.content = .json (valuesBody (w.schema.resolve after.payload.values))
  /-- The settings have been changed. -/
  configured : r.command? w.plan.mode = some .configureInstallation → response.status = 200 →
    configuration? after.engine.current = some (.configureInstallation, true) ∧
      after.engine.isLocked = false ∧ response.content = .json after.payload.settings.toJson
  /-- The values or the settings have been rejected, and are as before. -/
  rejected : response.status = 400 → response.fields ≠ [] →
    (r.command? w.plan.mode = some .patchValues ∧
      configuration? after.engine.current = some (.configureApp, false) ∧
      after.payload.config.result = before.payload.config.result) ∨
    (r.command? w.plan.mode = some .configureInstallation ∧
      configuration? after.engine.current = some (.configureInstallation, false) ∧
      after.payload.installation.result = before.payload.installation.result)
  /-- All other answers leave everything as it was. -/
  otherwise : response.status ≠ 202 →
    ¬ (r.command? w.plan.mode = some .patchValues ∧ response.status = 200) →
    ¬ (r.command? w.plan.mode = some .configureInstallation ∧ response.status = 200) →
    ¬ (response.status = 400 ∧ response.fields ≠ []) → before.Alike after ∧ job = none

/-! ### What a request can come to -/

theorem Command.method_ne (c : Command) : c.method ≠ "GET" ∧ c.method ≠ "HEAD" := by
  cases c <;> simp [Command.method]

variable [ToString S] {w : Workflow S}

theorem run_body (q : Query) (s : Site S) : ((q.body w).run s).2 = s := by
  rcases q with _ | _ | _ | _ | _ | (_ | _ | ⟨⟨⟩ | _ | _ | _⟩) <;> rfl

section Handle

variable [DecidableEq S]

/-- A request that gives a command is that command. -/
theorem handle_of_command {r : Request} {c : Command} (gives : r.command? w.plan.mode = some c) :
    handle w r = c.perform w r := by
  obtain ⟨route, found, gives⟩ := Option.bind_eq_some_iff.1 gives
  obtain ⟨c', has, gives⟩ := Option.bind_eq_some_iff.1 gives
  split at gives
  case isFalse => nomatch gives
  case isTrue method =>
    obtain rfl := Option.some.inj gives
    obtain ⟨notGet, notHead⟩ := c'.method_ne
    unfold handle
    simp only [found, has]
    cases route.query with
    | none => exact if_pos method
    | some q => simp only [method, notGet, notHead, if_false, if_true]

/-- A request that gives no command changes nothing. -/
theorem run_handle_of_none {r : Request} (gives : r.command? w.plan.mode = none) (s : Site S) :
    ∃ response, (handle w r).run s = ((response, none), s) ∧
      (response.status = 200 ∨ response.status = 404 ∨ response.status = 405) := by
  unfold handle
  cases found : Route.find? w.plan.mode r.path with
  | none => exact ⟨_, rfl, .inr (.inl rfl)⟩
  | some route =>
    have notGiven (c : Command) (has : route.command = some c) : r.method ≠ c.method := by
      intro method
      simp [Request.command?, found, has, method] at gives
    have notAllowed : ∃ response : Response,
        (pure ({ status := 405, allow := some route.allow }, none) :
          Proc (Site S) (Response × Option (Job S))).run s = ((response, none), s) ∧
        (response.status = 200 ∨ response.status = 404 ∨ response.status = 405) :=
      ⟨_, rfl, .inr (.inr rfl)⟩
    dsimp only
    cases asked : route.query with
    | none =>
      cases has : route.command with
      | none => exact notAllowed
      | some c =>
        simp only [notGiven c has, if_false]
        exact notAllowed
    | some q =>
      dsimp only
      split
      · refine ⟨.json 200 ((q.body w).run s).1, ?_, .inl rfl⟩
        rw [Proc.run_bind, run_body]
        rfl
      split
      · refine ⟨{ status := 200 }, ?_, .inl rfl⟩
        rw [Proc.run_bind, run_body]
        rfl
      cases has : route.command with
      | none => exact notAllowed
      | some c =>
        simp only [notGiven c has, if_false]
        exact notAllowed

/-- The command that asks for an action. -/
def Command.of : Action → Command
  | .patchValues _ => patchValues
  | .configureInstallation _ => configureInstallation
  | .begin t _ => begin t

omit [ToString S] [DecidableEq S] in
/-- The action that a request asks for is one of its command. -/
theorem Command.of_action {c : Command} {r : Request} {a : Action} (read : c.action w r = .ok a) :
    c = of a := by
  have of_map {α : Type} {body : Except BodyError α} {f : α → Action}
      (asks : ∀ input, of (f input) = c) (h : body.map f = .ok a) : c = of a := by
    cases body with
    | error e => nomatch h
    | ok input =>
      obtain rfl := Except.ok.inj h
      exact (asks input).symm
  cases c with
  | patchValues => exact of_map (fun _ ↦ rfl) read
  | configureInstallation => exact of_map (fun _ ↦ rfl) read
  | begin t =>
    simp only [action] at read
    split at read
    · exact of_map (fun _ ↦ rfl) read
    · obtain rfl := Except.ok.inj read
      rfl

/-- What a request can come to: the response, the job that it leaves behind, and what becomes of the
site. -/
inductive Handled (w : Workflow S) (s : Site S) (r : Request) :
    Response × Option (Job S) → Site S → Prop
  | other {response : Response} (gives : r.command? w.plan.mode = none)
      (status : response.status = 200 ∨ response.status = 404 ∨ response.status = 405) :
      Handled w s r (response, none) s
  | unread {c : Command} {e : BodyError} (gives : r.command? w.plan.mode = some c)
      (broken : c.action w r = .error e) : Handled w s r (e.response, none) s
  | acted {a : Action} {answer : Answer S} {job : Option (Job S)} {s' : Site S}
      (gives : r.command? w.plan.mode = some (.of a)) (acted : w.Acted s a (answer, job) s') :
      Handled w s r (responseTo answer, job) s'

/-- A request is handled in one of the ways of `Handled`. -/
theorem handle_cases {s : Site S} (sound : w.plan.Sound w.options)
    (table : s.engine.table = w.table)
    (rest : s.engine.held = none → s.engine.current ∈ w.plan.resting w.options) (r : Request) :
    Handled w s r ((handle w r).run s).1 ((handle w r).run s).2 := by
  cases gives : r.command? w.plan.mode with
  | none =>
    obtain ⟨response, ran, status⟩ := run_handle_of_none gives s
    rw [ran]
    exact .other gives status
  | some c =>
    rw [handle_of_command gives]
    unfold Command.perform
    cases read : c.action w r with
    | error e => exact .unread gives read
    | ok a =>
      have acted := Workflow.act_cases sound table rest a
      simp only [Proc.run_bind]
      obtain ⟨⟨⟨answer, job⟩, s'⟩, ran⟩ : ∃ x, (w.act a).run s = x := ⟨_, rfl⟩
      rw [ran] at acted ⊢
      obtain rfl := Command.of_action read
      exact .acted gives acted

end Handle

/-! ### Every answer is true -/

theorem BodyError.fields_response (e : BodyError) : e.response.fields = [] := rfl

/-- A body that is not accepted is answered as an error of the client. -/
theorem BodyError.status_mem (e : BodyError) :
    e.response.status = 400 ∨ e.response.status = 413 ∨ e.response.status = 415 ∨
      e.response.status = 422 := by
  cases e <;> simp [response, status]

theorem fields_of_isRefusal {e : ActionError S} (refusal : e.isRefusal = true) :
    (responseTo (.refused e)).fields = [] := by
  show (match e.body.get? "fields" with
    | some (.array fields) => fields
    | _ => []) = []
  unfold ActionError.body
  rw [ActionError.rejection?_of_isRefusal refusal]
  rfl

/-- The answer to a rejected input lists the rejected fields. -/
theorem fields_rejection {e : ValidationError} (some_error : e.errors ≠ []) :
    (responseTo (.refused (.operation (Workflow.rejection e)) : Answer S)).fields =
      e.errors.map FieldError.toJson := by
  show (match (ActionError.body (.operation (Workflow.rejection e) : ActionError S)).get?
      "fields" with
    | some (.array fields) => fields
    | _ => []) = _
  unfold ActionError.body
  have fields_eq :
      (ActionError.operation (Workflow.rejection e) : ActionError S).rejection? = some e := rfl
  simp only [fields_eq, List.isEmpty_iff, some_error, if_false]
  rfl

section Truth

variable {task? : S → Option Task} {configuration? : S → Option (Activity × Bool)} {r : Request}
  {s s' : Site S}

namespace AnswersTruly

variable {response : Response}

omit [ToString S]

/-- An answer that promises nothing is true where nothing has changed. -/
theorem of_alike (served : response.status < 500) (notAccepted : response.status ≠ 202)
    (promises : response.status = 200 → r.command? w.plan.mode = none)
    (fields : response.status = 400 → response.fields = []) (alike : s.Alike s') :
    AnswersTruly w task? configuration? r s response none s' where
  served := served
  accepted status := absurd status notAccepted
  patched gives status := nomatch gives.symm.trans (promises status)
  configured gives status := nomatch gives.symm.trans (promises status)
  rejected status some_field := absurd (fields status) some_field
  otherwise _ _ _ _ := ⟨alike, rfl⟩

/-- A task that has begun is answered truly: with 202, and with the status under which its work has
begun. -/
theorem of_accepted {job : Job S} {t : Task} (status : response.status = 202)
    (gives : r.command? w.plan.mode = some (.begin t)) (before : s.engine.isLocked = false)
    (after : s'.engine.isLocked = true) (current : task? s'.engine.current = some t)
    (flies : job.call.task = t) (running : (s'.payload.status (.task t)).state = .running)
    (content : response.content = .json (s'.payload.status (.task t)).toJson) :
    AnswersTruly w task? configuration? r s response (some job) s' where
  served := by omega
  accepted _ := ⟨before, t, gives, after, current, congrArg some flies, running, content⟩
  patched := by omega
  configured := by omega
  rejected := by omega
  otherwise others := absurd status others

/-- An accepted patch is answered truly, with the values that the stores hold now. -/
theorem of_patched (status : response.status = 200)
    (gives : r.command? w.plan.mode = some .patchValues)
    (current : configuration? s'.engine.current = some (.configureApp, true))
    (free : s'.engine.isLocked = false)
    (content : response.content = .json (valuesBody (w.schema.resolve s'.payload.values))) :
    AnswersTruly w task? configuration? r s response none s' where
  served := by omega
  accepted := by omega
  patched _ _ := ⟨current, free, content⟩
  configured other _ := nomatch gives.symm.trans other
  rejected := by omega
  otherwise _ others _ _ := absurd ⟨gives, status⟩ others

/-- Accepted settings are answered truly, with the settings that the stores hold now. -/
theorem of_configured (status : response.status = 200)
    (gives : r.command? w.plan.mode = some .configureInstallation)
    (current : configuration? s'.engine.current = some (.configureInstallation, true))
    (free : s'.engine.isLocked = false)
    (content : response.content = .json s'.payload.settings.toJson) :
    AnswersTruly w task? configuration? r s response none s' where
  served := by omega
  accepted := by omega
  patched other _ := nomatch gives.symm.trans other
  configured _ _ := ⟨current, free, content⟩
  rejected := by omega
  otherwise _ _ others _ := absurd ⟨gives, status⟩ others

/-- A rejected configuration is answered truly: it names a field, and the stored result is the one
before. -/
theorem of_rejected (status : response.status = 400) (some_field : response.fields ≠ [])
    (unchanged : (r.command? w.plan.mode = some .patchValues ∧
        configuration? s'.engine.current = some (.configureApp, false) ∧
        s'.payload.config.result = s.payload.config.result) ∨
      (r.command? w.plan.mode = some .configureInstallation ∧
        configuration? s'.engine.current = some (.configureInstallation, false) ∧
        s'.payload.installation.result = s.payload.installation.result)) :
    AnswersTruly w task? configuration? r s response none s' where
  served := by omega
  accepted := by omega
  patched := by omega
  configured := by omega
  rejected _ _ := unchanged
  otherwise _ _ _ others := absurd ⟨status, some_field⟩ others

end AnswersTruly

theorem fields_rejection_ne_nil {errors : List FieldError} {e : ValidationError}
    (h : ValidationError.check errors = .error e) :
    (responseTo (.refused (.operation (Workflow.rejection e)) : Answer S)).fields ≠ [] := by
  have some_error := ValidationError.errors_ne_nil h
  rw [fields_rejection some_error]
  simpa using some_error

variable [DecidableEq S] (sound : w.plan.Sound w.options) (table : s.engine.table = w.table)
  (named : w.plan.Named w.options task?) (configures : w.plan.Configures w.options configuration?)

include sound table named configures

/-- The response to an action that has been carried out is a true one. -/
theorem answersTruly_of_acted {a : Action} {answer : Answer S} {job : Option (Job S)}
    (gives : r.command? w.plan.mode = some (.of a)) (acted : w.Acted s a (answer, job) s') :
    AnswersTruly w task? configuration? r s (responseTo answer) job s' := by
  have current {a : Activity} {stages : Stages S} {target : S}
      (has : (a, stages) ∈ w.plan.activities w.options)
      (settles : target ∈ w.plan.outcomes a stages) :
      configuration? (s.engine.passed stages.running target s.now).current =
        configuration? target := by
    have allowed : s.engine.table.allows stages.running target = true := by
      rw [table]
      exact sound.settles _ has _ settles
    rw [Engine.passed_of_allows allowed]
  cases acted with
  | refused a refusal valid untouched =>
    obtain ⟨generation, rfl⟩ := untouched
    have status := ActionError.statusCode_of_isRefusal refusal valid
    refine .of_alike ?_ ?_ ?_ (fun _ ↦ fields_of_isRefusal refusal) ⟨rfl, rfl, rfl, rfl⟩
    · show ActionError.statusCode _ < 500
      omega
    · show ActionError.statusCode _ ≠ 202
      omega
    · intro ok
      have : ActionError.statusCode _ = 200 := ok
      omega
  | patched has free can accepted =>
    have ends := (current has Plan.succeeded_mem_outcomes).trans (configures _ has rfl).1
    exact .of_patched rfl gives ends rfl rfl
  | patchRejected has free can rejected =>
    have ends := (current has Plan.failed_mem_outcomes).trans (configures _ has rfl).2
    exact .of_rejected rfl (fields_rejection_ne_nil rejected) (.inl ⟨gives, ends, rfl⟩)
  | configured has free can accepted =>
    have ends := (current has Plan.succeeded_mem_outcomes).trans (configures _ has rfl).1
    exact .of_configured rfl gives ends rfl rfl
  | configurationRejected has free can rejected =>
    have ends := (current has Plan.failed_mem_outcomes).trans (configures _ has rfl).2
    exact .of_rejected rfl (fields_rejection_ne_nil rejected) (.inr ⟨gives, ends, rfl⟩)
  | @began t ignore through stages has free passes leads =>
    have status : (w.begunIn (w.acceptedStatus t s.now) s.payload t).status (.task t) =
        w.acceptedStatus t s.now := by
      rw [Workflow.status_begunIn, if_pos rfl]
    have unlocked : s.engine.isLocked = false := by
      unfold Engine.isLocked
      rw [free]
      rfl
    refine .of_accepted rfl gives unlocked ?_ (named.running _ has t rfl) (Workflow.task_callFor ..)
      ?_ ?_
    · cases through <;> rfl
    · exact congrArg StatusRecord.state status
    · exact congrArg (fun r : StatusRecord ↦ Content.json r.toJson) status.symm

/-- The response to any request is a true one, whether it asks, gives a command or cannot be read.
-/
theorem handle_answersTruly
    (rest : s.engine.held = none → s.engine.current ∈ w.plan.resting w.options) (r : Request) :
    AnswersTruly w task? configuration? r s ((handle w r).run s).1.1 ((handle w r).run s).1.2
      ((handle w r).run s).2 := by
  have handled := handle_cases sound table rest r
  obtain ⟨⟨⟨response, job⟩, s'⟩, ran⟩ : ∃ x, (handle w r).run s = x := ⟨_, rfl⟩
  rw [ran] at handled ⊢
  show AnswersTruly w task? configuration? r s response job s'
  cases handled with
  | other gives status =>
    exact .of_alike (by omega) (by omega) (fun _ ↦ gives) (by omega) ⟨rfl, rfl, rfl, rfl⟩
  | @unread c e gives broken =>
    have status := e.status_mem
    exact .of_alike (by omega) (by omega) (by omega) (fun _ ↦ e.fields_response)
      ⟨rfl, rfl, rfl, rfl⟩
  | acted gives acted => exact answersTruly_of_acted sound table named configures gives acted

end Truth

/-- Every answer is true: between two events of a session, with or without a job in flight, and
while another event is under way. -/
structure AnswersTrulyAlways [DecidableEq S] (w : Workflow S) (task? : S → Option Task)
    (configuration? : S → Option (Activity × Bool)) : Prop where
  between : ∀ (values : Option ConfigValues) (now : Timestamp) (events : List Event) (r : Request),
    let s := (w.after values now events).site
    let answered := (handle w r).run s
    AnswersTruly w task? configuration? r s answered.1.1 answered.1.2 answered.2
  amid : ∀ (values : Option ConfigValues) (now : Timestamp) (events : List Event) (t : Site S),
    (w.after values now events).Amid w t → ∀ r : Request, let answered := (handle w r).run t
      AnswersTruly w task? configuration? r t answered.1.1 answered.1.2 answered.2

/-- A workflow whose states tell the task and the configuration at hand answers truly in every
session that can be reached. -/
theorem answersTrulyAlways [DecidableEq S] {task? : S → Option Task}
    {configuration? : S → Option (Activity × Bool)} (sound : w.plan.Sound w.options)
    (named : w.plan.Named w.options task?)
    (configures : w.plan.Configures w.options configuration?) :
    AnswersTrulyAlways w task? configuration? := by
  have amid (values : Option ConfigValues) (now : Timestamp) (events : List Event) (t : Site S)
      (amid : (w.after values now events).Amid w t) (r : Request) :
      AnswersTruly w task? configuration? r t ((handle w r).run t).1.1 ((handle w r).run t).1.2
        ((handle w r).run t).2 := by
    obtain ⟨table, rest⟩ := (w.consistent_after sound values now events).amid sound amid
    exact handle_answersTruly sound table named configures rest r
  refine ⟨fun values now events r ↦ ?_, amid⟩
  exact amid values now events _ (.acting (.patchValues .empty) (.start _ _)) r

end Api

/-! ### Both workflows -/

def InstallState.configuration? : InstallState → Option (Activity × Bool)
  | applicationConfigured => some (.configureApp, true)
  | applicationConfigurationFailed => some (.configureApp, false)
  | installationConfigured => some (.configureInstallation, true)
  | installationConfigurationFailed => some (.configureInstallation, false)
  | _ => none

/-- The states in which an installation has accepted or rejected a configuration are named so. -/
theorem InstallState.plan_configures (o : Options) : plan.Configures o configuration? := by
  obtain ⟨⟨⟩, ⟨⟩, ⟨⟩, ⟨⟩⟩ := o
  all_goals
    unfold Plan.Configures
    decide

def UpgradeState.configuration? : UpgradeState → Option (Activity × Bool)
  | applicationConfigured => some (.configureApp, true)
  | applicationConfigurationFailed => some (.configureApp, false)
  | _ => none

theorem UpgradeState.plan_configures (o : Options) : plan.Configures o configuration? := by
  obtain ⟨⟨⟩, ⟨⟩, ⟨⟩, ⟨⟩⟩ := o
  all_goals
    unfold Plan.Configures
    decide

/-- Whatever a server answers, for an installation or an upgrade, is true. -/
theorem answers_true (options : Options) (schema : AppConfigSchema)
    (titles : PreflightScope → List String) :
    Api.AnswersTrulyAlways (Workflow.install options schema titles) InstallState.task?
        InstallState.configuration? ∧
      Api.AnswersTrulyAlways (Workflow.upgrade options schema titles) UpgradeState.task?
        UpgradeState.configuration? :=
  ⟨Api.answersTrulyAlways (InstallState.plan_sound options) (InstallState.plan_named options)
      (InstallState.plan_configures options),
    Api.answersTrulyAlways (UpgradeState.plan_sound options) (UpgradeState.plan_named options)
      (UpgradeState.plan_configures options)⟩

def readyForChecks : Session InstallState :=
  (Workflow.install {} {} fun _ ↦ []).after none Timestamp.epoch
    [.act (.patchValues .empty), .act (.configureInstallation {})]

def requestForChecks : Api.Request :=
  { method := "POST", target := "/api/install/host-preflights/run" }

/-- The server accepts to check the hosts, and it is true that they are being checked. -/
theorem checks_accepted_truly :
    let w := Workflow.install {} {} fun _ ↦ []
    let answered := (Api.handle w requestForChecks).run readyForChecks.site
    answered.1.1.status = 202 ∧ readyForChecks.site.engine.isLocked = false ∧
      answered.2.engine.isLocked = true ∧
      InstallState.task? answered.2.engine.current = some (.preflights .host) := by
  intro w answered
  have status : answered.1.1.status = 202 := by decide
  obtain ⟨installs, -⟩ := answers_true {} {} fun _ ↦ []
  have truly := installs.between none Timestamp.epoch
    [.act (.patchValues .empty), .act (.configureInstallation {})] requestForChecks
  obtain ⟨before, t, gives, after, current, -⟩ := truly.accepted status
  have asks : requestForChecks.command? .install = some (.begin (.preflights .host)) := by decide
  obtain rfl : Task.preflights .host = t :=
    Api.Command.begin.inj (Option.some.inj (asks.symm.trans gives))
  exact ⟨status, before, after, current⟩

end Rollout
