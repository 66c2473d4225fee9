import Rollout.Proofs.Action
import Rollout.Proofs.Serial

/-!
# Configurations that overlap

Clients configure a workflow and wait for the answers, and their requests take turns in any order.
The lock of the engine protects the state and what is configured (`Inputs`): each request follows
the discipline of the lock, and `Workflow.Served` says what its client can have been answered and
what it has then made of the core during its tenure.  So the requests of a pool are served one after
the other, in the order in which they took the lock (`Workflow.serving_serial`).
-/

namespace Rollout

variable {S α β : Type}

/-! ### Requests -/

/-- What a client configures, waiting for the answer. -/
inductive Configuration where
  | values (patch : ConfigValues)
  | settings (settings : InstallationConfig)

namespace Configuration

def activity : Configuration → Activity
  | .values _ => .configureApp
  | .settings _ => .configureInstallation

def action : Configuration → Action
  | .values patch => .patchValues patch
  | .settings c => .configureInstallation c

end Configuration

/-! ### Answers to requests -/

section Answered

variable {requests : List Configuration} {q : Pool (Site S) (Answer S × Option (Job S))}
  {f : Configuration → Answer S → Option β} {i : Nat}

/-- Something told from the request with a number and the answer to it. -/
def answered? (f : Configuration → Answer S → Option β) (requests : List Configuration)
    (q : Pool (Site S) (Answer S × Option (Job S))) (i : Nat) : Option β := do
  let c ← requests[i]?
  let (answer, _) ← q.result? i
  f c answer

/-- What is told from several requests, in the given order. -/
def answeredIn (f : Configuration → Answer S → Option β) (requests : List Configuration)
    (q : Pool (Site S) (Answer S × Option (Job S))) (order : List Nat) : List β :=
  order.filterMap (answered? f requests q)

theorem answered?_eq {c : Configuration} {answered : Answer S × Option (Job S)}
    (found : requests[i]? = some c) (result : q.result? i = some answered) :
    answered? f requests q i = f c answered.1 := by
  unfold answered?
  rw [found, result]
  rfl

theorem answered?_eq_some {x : β} (told : answered? f requests q i = some x) :
    ∃ c answered, requests[i]? = some c ∧ q.result? i = some answered ∧
      f c answered.1 = some x := by
  obtain ⟨c, found, told⟩ := Option.bind_eq_some_iff.1 told
  obtain ⟨answered, result, told⟩ := Option.bind_eq_some_iff.1 told
  exact ⟨c, answered, found, result, told⟩

theorem mem_answeredIn {order : List Nat} {x : β} :
    x ∈ answeredIn f requests q order ↔ ∃ i ∈ order, answered? f requests q i = some x :=
  List.mem_filterMap

theorem answeredIn_snoc (order : List Nat) (i : Nat) :
    answeredIn f requests q (order ++ [i]) =
      answeredIn f requests q order ++ (answered? f requests q i).toList := by
  unfold answeredIn
  rw [List.filterMap_append, List.filterMap_cons, List.filterMap_nil]
  cases answered? f requests q i <;> rfl

end Answered

/-! ### Inputs -/

/-- What configurations change. -/
structure Inputs where
  values : ConfigValues
  settings : InstallationConfig

def Stores.inputs (s : Stores) : Inputs := ⟨s.values, s.settings⟩

@[simp] theorem Stores.inputs_setStatus (r : StatusRecord) (s : Stores) (a : Activity) :
    (s.setStatus r a).inputs = s.inputs := by
  rcases a with _ | _ | ⟨⟨⟩⟩ | _ | _ | _ <;> rfl

@[simp] theorem Stores.status_setStatus_self (r : StatusRecord) (s : Stores) (a : Activity) :
    (s.setStatus r a).status a = r := by
  rcases a with _ | _ | ⟨⟨⟩⟩ | _ | _ | _ <;> rfl

theorem Stores.status_setStatus_of_ne {a b : Activity} (other : b ≠ a) (r : StatusRecord)
    (s : Stores) : (s.setStatus r a).status b = s.status b := by
  rcases a with _ | _ | ⟨⟨⟩⟩ | _ | _ | _ <;> rcases b with _ | _ | ⟨⟨⟩⟩ | _ | _ | _ <;>
    first | rfl | exact absurd rfl other

namespace Workflow

/-- What a configuration makes of the inputs, and the answer to it. -/
def configured (w : Workflow S) (i : Inputs) :
    Configuration → Except ValidationError (Inputs × Answer S)
  | .values patch =>
    let merged := AppConfigSchema.merge i.values patch
    (w.schema.validate merged).map fun _ ↦
      ({ i with values := merged }, .values (w.schema.resolve merged))
  | .settings c => c.validate.map fun _ ↦ ({ i with settings := c }, .settings c)

section Configured

variable {w : Workflow S} {i i' : Inputs} {answer : Answer S}

theorem configured_values {patch : ConfigValues}
    (h : w.configured i (.values patch) = .ok (i', answer)) :
    i' = { i with values := AppConfigSchema.merge i.values patch } ∧
      answer = .values (w.schema.resolve (AppConfigSchema.merge i.values patch)) := by
  unfold configured at h
  cases valid : w.schema.validate (AppConfigSchema.merge i.values patch) with
  | error e =>
    simp only [valid] at h
    nomatch h
  | ok u =>
    simp only [valid] at h
    obtain ⟨rfl, rfl⟩ := Prod.mk.inj (Except.ok.inj h)
    exact ⟨rfl, rfl⟩

theorem configured_settings {c : InstallationConfig}
    (h : w.configured i (.settings c) = .ok (i', answer)) :
    i' = { i with settings := c } ∧ answer = .settings c := by
  unfold configured at h
  cases valid : c.validate with
  | error e =>
    simp only [valid] at h
    nomatch h
  | ok u =>
    simp only [valid] at h
    obtain ⟨rfl, rfl⟩ := Prod.mk.inj (Except.ok.inj h)
    exact ⟨rfl, rfl⟩

end Configured

/-- What can come of a configuration: the answer, and what its client has made of the core while it
had the lock. -/
inductive Served [DecidableEq S] (w : Workflow S) (c : Configuration) :
    Answer S × Option (Job S) → Tenure (Core S Inputs) → Prop
  | unsupported (what : String) :
      Served w c (.refused (.unsupported what w.plan.mode w.options.target), none) .outside
  | busy : Served w c (.refused (.operation (.engine .busy)), none) .refused
  | forbidden {stages : Stages S} (has : (c.activity, stages) ∈ w.plan.activities w.options)
      {first : Core S Inputs} (cannot : first.can stages.running = false) (lock : Lock) :
      Served w c
        (.refused (.operation (.engine (.invalidTransition first.current stages.running))), none)
        (.past lock first (first.entered stages.failed))
  | accepted {stages : Stages S} (has : (c.activity, stages) ∈ w.plan.activities w.options)
      {first : Core S Inputs} (can : first.can stages.running = true) {i : Inputs}
      {answer : Answer S} (configured : w.configured first.data c = .ok (i, answer)) (lock : Lock) :
      Served w c (answer, none) (.past lock first
        (Core.entered { first with current := stages.running, data := i } stages.succeeded))
  | rejected {stages : Stages S} (has : (c.activity, stages) ∈ w.plan.activities w.options)
      {first : Core S Inputs} (can : first.can stages.running = true) {e : ValidationError}
      (configured : w.configured first.data c = .error e) (lock : Lock) :
      Served w c (.refused (.operation (rejection e)), none) (.past lock first
        (Core.entered { first with current := stages.running } stages.failed))

/-- Whoever has been answered does not have the lock. -/
theorem Served.unlocked [DecidableEq S] {w : Workflow S} {c : Configuration}
    {answered : Answer S × Option (Job S)} {τ : Tenure (Core S Inputs)}
    (served : w.Served c answered τ) : τ.lock? = none := by
  cases served <;> rfl

end Workflow

/-! ### Attempts -/

section Attempts

open Proc

variable {γ : Type} {D : Discipline (Site S) γ} {g : γ}

namespace Attempt

/-- An attempt goes on unless it has failed. -/
theorem then_follows {M : α → γ → Prop} {R : Except (ActionError S) β → γ → Prop}
    {x : Attempt S α} {k : α → Attempt S β}
    (h : x.run.Follows D (fun r g' ↦ match r with
      | .ok a => M a g'
      | .error e => R (.error e) g') g)
    (ok : ∀ a g', M a g' → (k a).run.Follows D R g') : (x >>= k).run.Follows D R g := by
  show (x.run >>= ExceptT.bindCont k).Follows D R g
  refine Follows.bind h ?_
  rintro (e | a) g' post
  · exact .done post
  · exact ok a g' post

/-- A discipline that an operation follows is followed by the attempt that it makes up. -/
theorem ofOperation_follows {Q : Except (ActionError S) α → γ → Prop}
    {p : Proc (Site S) (Except (OperationError S) α)}
    (h : p.Follows D (fun r g' ↦ Q (r.mapError .operation) g') g) :
    (ofOperation p).run.Follows D Q g := by
  show (p >>= fun r ↦ pure (r.mapError ActionError.operation)).Follows D Q g
  exact Follows.bind h fun r g' post ↦ .done post

end Attempt

/-- A discipline that an attempt follows is followed by the answer to it. -/
theorem Workflow.answer_follows {attempt : Attempt S α} {f : α → Answer S × Option (Job S)}
    {Q : Answer S × Option (Job S) → γ → Prop}
    (h : attempt.run.Follows D (fun r g' ↦ match r with
      | .ok a => Q (f a) g'
      | .error e => Q (.refused e, none) g') g) : (answer attempt f).Follows D Q g := by
  refine Follows.bind h ?_
  rintro (e | a) g' post
  · exact .done post
  · exact .done post

end Attempts

/-! ### Steps of a configuration -/

namespace Workflow

open Proc

variable [DecidableEq S] {w : Workflow S} {a : Activity} {lock : Lock} {first now : Core S Inputs}
  {τ : Tenure (Core S Inputs)}

theorem mark_takes (a : Activity) (state : Status) (text : String) :
    (Site.mark a state text : Proc (Site S) Unit).Takes Stores.inputs τ () τ :=
  takes_modify (fun _ ↦ rfl) fun _ ↦ Stores.inputs_setStatus ..

/-- Whoever has the lock changes the inputs. -/
theorem write_takes {i : Inputs} {f : Stores → Stores}
    (writes : ∀ s, Stores.inputs s = now.data → (f s).inputs = i) :
    (Site.write f : Proc (Site S) Unit).Takes Stores.inputs (.inside lock first now) ()
      (.inside lock first { now with data := i }) := by
  refine takes_write (fun _ ↦ rfl) ?_
  rintro s rfl
  exact congrArg (Core.mk s.engine.table s.engine.current) (writes s.payload rfl)

/-- Whoever has the lock knows the inputs. -/
theorem look_takes (f : Inputs → α) :
    (Site.look fun s ↦ f s.inputs : Proc (Site S) α).Takes Stores.inputs (.inside lock first now)
      (f now.data) (.inside lock first now) :=
  takes_read fun _ knows ↦ congrArg (fun c : Core S Inputs ↦ f c.data) knows

theorem stages_guards {Q : Except (ActionError S) (Stages S) → Tenure (Core S Inputs) → Prop}
    (unsupported : ∀ what, Q (.error (.unsupported what w.plan.mode w.options.target)) τ)
    (has : ∀ stages, (a, stages) ∈ w.plan.activities w.options → Q (.ok stages) τ) :
    (w.stages a).run.Guards Stores.inputs Q τ := by
  unfold Workflow.stages
  cases found : w.plan.stages w.options a with
  | error what => exact guards_pure (unsupported what)
  | ok stages => exact guards_pure (has stages (Plan.mem_activities.2 found))

/-- To enter an activity takes the lock, and keeps it exactly if the table leads to the running
state. -/
theorem enter_guards {stages : Stages S}
    {Q : Except (ActionError S) (Running S) → Tenure (Core S Inputs) → Prop}
    (busy : Q (.error (.operation (.engine .busy))) .refused)
    (forbidden : ∀ lock first, first.can stages.running = false →
      Q (.error (.operation (.engine (.invalidTransition first.current stages.running))))
        (.past lock first (first.entered stages.failed)))
    (starts : ∀ lock first, first.can stages.running = true →
      Q (.ok ⟨lock, stages⟩) (.inside lock first (first.entered stages.running))) :
    (enter stages none).run.Guards Stores.inputs Q .outside := by
  refine Attempt.then_follows (M := fun g τ ↦ ∃ lock first, g = ⟨lock, stages⟩ ∧
      τ = .inside lock first first) (Attempt.ofOperation_follows ?_) ?_
  · exact Guarded.acquire_guards busy fun lock first ↦ ⟨lock, first, rfl, rfl⟩
  · rintro _ _ ⟨lock, first, rfl, rfl⟩
    refine Attempt.ofOperation_follows ?_
    cases can : first.can stages.running with
    | true =>
      exact (Guarded.start_takes_of_can ⟨lock, stages⟩ first can).guards (starts lock first can)
    | false =>
      exact (Guarded.start_takes_of_cannot ⟨lock, stages⟩ first can).guards
        (forbidden lock first can)

/-- A patch is merged with the lock in hand: it changes the values if it is accepted, and nothing
otherwise. -/
theorem mergePatch_guards {Q : Outcome (ConfigValues × Option S) → Tenure (Core S Inputs) → Prop}
    {patch merged : ConfigValues} (is : AppConfigSchema.merge now.data.values patch = merged)
    (accepted : w.schema.validate merged = .ok () →
      Q (.returned (w.schema.resolve merged, none))
        (.inside lock first { now with data := { now.data with values := merged } }))
    (rejected : ∀ e, w.schema.validate merged = .error e →
      Q (.failed (.validation e)) (.inside lock first now)) :
    (w.mergePatch patch).Guards Stores.inputs Q (.inside lock first now) := by
  unfold mergePatch
  refine (look_takes Inputs.values).then ?_
  rw [is]
  dsimp only
  cases valid : w.schema.validate merged with
  | error e => exact guards_pure (rejected e valid)
  | ok u =>
    have writes (s : Stores) (knows : s.inputs = now.data) :
        Stores.inputs { s with config.result := some merged } =
          { now.data with values := merged } :=
      congrArg (fun i : Inputs ↦ { i with values := merged }) knows
    refine (write_takes writes).then ?_
    exact (look_takes fun i ↦ w.schema.resolve i.values).then (guards_pure (accepted valid))

/-- Settings are stored with the lock in hand: they change if they are accepted, and nothing does
otherwise. -/
theorem storeSettings_guards
    {Q : Outcome (InstallationConfig × Option S) → Tenure (Core S Inputs) → Prop}
    {c : InstallationConfig}
    (accepted : c.validate = .ok () →
      Q (.returned (c, none))
        (.inside lock first { now with data := { now.data with settings := c } }))
    (rejected : ∀ e, c.validate = .error e →
      Q (.failed (.validation e)) (.inside lock first now)) :
    (storeSettings c : Proc (Site S) _).Guards Stores.inputs Q (.inside lock first now) := by
  unfold storeSettings
  cases valid : c.validate with
  | error e => exact guards_pure (rejected e valid)
  | ok u =>
    have writes (s : Stores) (knows : s.inputs = now.data) :
        Stores.inputs { s with installation.result := some c } =
          { now.data with settings := c } :=
      congrArg (fun i : Inputs ↦ { i with settings := c }) knows
    exact (write_takes writes).then (guards_pure (accepted valid))

variable [ToString S]

/-- A configuration from end to end keeps to the discipline of the lock, in each of the ways in
which it can end. -/
theorem settleNow_guards {Q : Except (ActionError S) α → Tenure (Core S Inputs) → Prop}
    {running succeeded : String} {work : Proc (Site S) (Outcome (α × Option S))}
    (unsupported : ∀ what, Q (.error (.unsupported what w.plan.mode w.options.target)) .outside)
    (busy : Q (.error (.operation (.engine .busy))) .refused)
    (forbidden : ∀ stages lock first, (a, stages) ∈ w.plan.activities w.options →
      first.can stages.running = false →
      Q (.error (.operation (.engine (.invalidTransition first.current stages.running))))
        (.past lock first (first.entered stages.failed)))
    (works : ∀ stages lock first, (a, stages) ∈ w.plan.activities w.options →
      first.can stages.running = true →
      work.Guards Stores.inputs (fun outcome τ ↦ ∃ now, τ = .inside lock first now ∧
        Q ((outcome.map Prod.fst).result.mapError .operation)
          (.past lock first (now.entered (Running.settledState ⟨lock, stages⟩ outcome))))
        (.inside lock first (first.entered stages.running))) :
    (w.settleNow a running succeeded work).run.Guards Stores.inputs Q .outside := by
  unfold settleNow
  refine Attempt.then_follows (M := fun stages τ ↦ (a, stages) ∈ w.plan.activities w.options ∧
    τ = .outside) (stages_guards unsupported fun stages has ↦ ⟨has, rfl⟩) ?_
  rintro stages _ ⟨has, rfl⟩
  refine Attempt.then_follows (M := fun operation τ ↦ ∃ lock first,
      first.can stages.running = true ∧ operation = ⟨lock, stages⟩ ∧
        τ = .inside lock first (first.entered stages.running)) (enter_guards busy
      (fun lock first cannot ↦ forbidden stages lock first has cannot)
      fun lock first can ↦ ⟨lock, first, can, rfl, rfl⟩) ?_
  rintro _ _ ⟨lock, first, can, rfl, rfl⟩
  refine Attempt.ofOperation_follows ((mark_takes ..).then ?_)
  refine Guards.bind (Q := fun r τ ↦ Q (r.mapError .operation) τ)
    (Guards.bind (works stages lock first has can) ?_) ?_
  · rintro outcome _ ⟨now, rfl, post⟩
    exact (Running.conclude_takes ⟨lock, stages⟩ first now outcome fun _ _ ↦
      takes_pure ()).guards post
  · rintro (e | v) τ post
    · exact (mark_takes ..).then (guards_pure post)
    · exact (mark_takes ..).then (guards_pure post)

/-- A configuration changes the core only while it has the lock. -/
theorem act_guards (w : Workflow S) (c : Configuration) :
    (w.act c.action).Guards Stores.inputs (w.Served c) .outside := by
  cases c with
  | values patch =>
    refine answer_follows (settleNow_guards .unsupported .busy
      (fun _ lock _ has cannot ↦ .forbidden has cannot lock) fun stages lock first has can ↦ ?_)
    rw [Core.entered_of_can can]
    refine mergePatch_guards rfl (fun valid ↦ ⟨_, rfl, ?_⟩) fun e valid ↦ ⟨_, rfl, ?_⟩
    · exact .accepted has can (by simp only [configured, valid]; rfl) lock
    · exact .rejected has can (by simp only [configured, valid]; rfl) lock
  | settings c =>
    refine answer_follows (settleNow_guards .unsupported .busy
      (fun _ lock _ has cannot ↦ .forbidden has cannot lock) fun stages lock first has can ↦ ?_)
    rw [Core.entered_of_can can]
    refine storeSettings_guards (fun valid ↦ ⟨_, rfl, ?_⟩) fun e valid ↦ ⟨_, rfl, ?_⟩
    · exact .accepted has can (by simp only [configured, valid]; rfl) lock
    · exact .rejected has can (by simp only [configured, valid]; rfl) lock

/-! ### Pools of requests -/

/-- Requests that nobody has begun to serve. -/
def serving (w : Workflow S) (requests : List Configuration) (s : Site S) :
    Pool (Site S) (Answer S × Option (Job S)) :=
  ⟨s, requests.map fun c ↦ w.act c.action⟩

/-- What can come of the request with a number. -/
def ServedAt (w : Workflow S) (requests : List Configuration) (i : Nat)
    (answered : Answer S × Option (Job S)) (τ : Tenure (Core S Inputs)) : Prop :=
  ∃ c, requests[i]? = some c ∧ w.Served c answered τ

/-- Requests follow a discipline if each of them does. -/
theorem serving_following {γ : Type} {D : Discipline (Site S) γ} {g : γ}
    {R : Configuration → Answer S × Option (Job S) → γ → Prop}
    (follows : ∀ c, (w.act c.action).Follows D (R c) g) (requests : List Configuration)
    (s : Site S) :
    (w.serving requests s).Following D
      (fun i answered g' ↦ ∃ c, requests[i]? = some c ∧ R c answered g') fun _ ↦ g := by
  intro i p at_i
  obtain ⟨c, found, rfl⟩ := Option.map_eq_some_iff.1 (List.getElem?_map ▸ at_i)
  exact Proc.Follows.mono (follows c) fun answered g' post ↦ ⟨c, found, post⟩

/-- Requests are served one after the other. -/
theorem serving_serial {requests : List Configuration} {s : Site S}
    {q : Pool (Site S) (Answer S × Option (Job S))} (steps : (w.serving requests s).Steps q) :
    ∃ l tenures, (w.serving requests s).Run l q ∧
      q.Serial Stores.inputs (w.ServedAt requests) s tenures l := by
  have start : (w.serving requests s).Serial Stores.inputs (w.ServedAt requests) s
      (fun _ ↦ .outside) [] :=
    Pool.Serial.start (q := w.serving requests s) (serving_following w.act_guards requests s)
  exact start.steps steps

end Workflow
end Rollout
