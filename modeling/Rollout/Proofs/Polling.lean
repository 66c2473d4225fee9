import Mathlib.Data.List.Forall2
import Rollout.Proofs.Watching

/-!
# What polls tell of a run

A client polls the status of a task again and again while the task is carried out.  A poll reads the
store field by field, so that steps of the run may fall between its reads.  What it shows is
nevertheless of this run: the status with which the run was accepted or has ended, and what the run
has returned or nothing yet (`TaskRun.Told`).  Whether a poll that shows the end also shows what was
returned depends on the order of its reads.  A poll of the deployment reads the status first, and
does; a poll of checks reads the status last, and need not (`terminal_poll_without_output`).  The
next poll does in any case.
-/

namespace Rollout

variable {S R V α β : Type}

/-- What was returned, if anything. -/
def Outcome.returned? : Outcome α → Option α
  | returned a => some a
  | failed _ | panicked _ => none

/-! ### Runs -/

/-- The run of a task as its store shows it, from its acceptance on. -/
structure TaskRun (V R : Type) where
  /-- The store with a status and what was returned. -/
  store : StatusRecord → Option V → R
  status : R → StatusRecord
  status_store : ∀ r v, status (store r v) = r
  accepted : StatusRecord
  result : Option V
  /-- The run may end with this status. -/
  Ends : StatusRecord → Prop
  under_way : accepted.state.isTerminal = false
  terminal : ∀ r, Ends r → r.state.isTerminal = true

namespace TaskRun

/-- How the store goes on: what was returned is kept, and then it is told how the run has ended. -/
inductive GoesOn (x : TaskRun V R) : R → R → Prop
  | keeps : GoesOn x (x.store x.accepted none) (x.store x.accepted x.result)
  | ends {r : StatusRecord} (ends : x.Ends r) :
      GoesOn x (x.store x.accepted x.result) (x.store r x.result)

/-- The store may go on from the one content to the other. -/
def Leads (x : TaskRun V R) : R → R → Prop := Relation.ReflTransGen x.GoesOn

/-- What the store may be like from the acceptance on. -/
def During (x : TaskRun V R) : R → Prop := x.Leads (x.store x.accepted none)

/-- The run is under way, or has ended. -/
inductive Stage (x : TaskRun V R) : R → Prop
  | goes {v : Option V} (value : v = none ∨ v = x.result) : Stage x (x.store x.accepted v)
  | ended {r : StatusRecord} (ends : x.Ends r) : Stage x (x.store r x.result)

/-- What the polls of a client show from the acceptance on. -/
structure Told (x : TaskRun V R) (shown : List (StatusRecord × Option V)) : Prop where
  status : ∀ r ∈ shown, r.1 = x.accepted ∨ x.Ends r.1
  value : ∀ r ∈ shown, r.2 = none ∨ r.2 = x.result
  /-- When a poll has shown the end, all later ones show everything. -/
  after : shown.Pairwise fun r r' ↦ r.1.state.isTerminal = true → r' = (r.1, x.result)

variable {x : TaskRun V R} {c c' : R} {r : StatusRecord}

theorem During.stage (h : x.During c) : x.Stage c := by
  induction h with
  | refl => exact .goes (.inl rfl)
  | tail _ step _ =>
    cases step with
    | keeps => exact .goes (.inr rfl)
    | ends ends => exact .ended ends

/-- The status is that of the acceptance, or one that the run may end with. -/
theorem During.told (h : x.During c) : x.status c = x.accepted ∨ x.Ends (x.status c) := by
  cases h.stage with
  | goes => exact .inl (x.status_store ..)
  | ended ends => exact .inr ((x.status_store ..).symm ▸ ends)

/-- A store that tells an end holds what was returned. -/
theorem During.ended (h : x.During c) (ends : x.Ends (x.status c)) :
    c = x.store (x.status c) x.result := by
  cases h.stage with
  | goes =>
    rw [x.status_store] at ends
    exact nomatch (x.terminal _ ends).symm.trans x.under_way
  | ended => rw [x.status_store]

/-- A run that has ended does not go on. -/
theorem Leads.of_ended (h : x.Leads (x.store r x.result) c) (ends : x.Ends r) :
    c = x.store r x.result := by
  rcases h.cases_head with same | ⟨d, step, -⟩
  · exact same.symm
  · have differ : r ≠ x.accepted := by
      rintro rfl
      exact nomatch (x.terminal _ ends).symm.trans x.under_way
    generalize same : x.store r x.result = c₀ at step
    cases step with
    | keeps | ends =>
      refine absurd ?_ differ
      rw [← x.status_store r x.result, same, x.status_store]

/-- What one poll shows that begins when the store has been seen like `seen`, and ends when it is
like `c`. -/
structure Reading (x : TaskRun V R) (seen : R) (r : StatusRecord × Option V) (c : R) : Prop where
  leads : x.Leads seen c
  status : r.1 = x.accepted ∨ x.Ends r.1
  value : r.2 = none ∨ r.2 = x.result
  /-- The end that it shows is the end of the run. -/
  ended : x.Ends r.1 → c = x.store r.1 x.result
  /-- When the run has ended before, it shows everything. -/
  complete : ∀ r₀, x.Ends r₀ → seen = x.store r₀ x.result → r = (r₀, x.result)

/-- A terminal status is one of the end, since the one of the acceptance is not terminal. -/
theorem ends_of_terminal (terminal : r.state.isTerminal = true)
    (status : r = x.accepted ∨ x.Ends r) : x.Ends r := by
  rcases status with rfl | ends
  · exact nomatch terminal.symm.trans x.under_way
  · exact ends

/-- One more poll shows something of the same run. -/
theorem Reading.cons {seen : R} {r : StatusRecord × Option V}
    {shown : List (StatusRecord × Option V)} (first : x.Reading seen r c) (told : x.Told shown)
    (complete : ∀ r₀, x.Ends r₀ → c = x.store r₀ x.result → ∀ r' ∈ shown, r' = (r₀, x.result)) :
    x.Told (r :: shown) ∧
      ∀ r₀, x.Ends r₀ → seen = x.store r₀ x.result → ∀ r' ∈ r :: shown, r' = (r₀, x.result) := by
  constructor
  · refine ⟨?_, ?_, List.pairwise_cons.2 ⟨fun r' mem terminal ↦ ?_, told.after⟩⟩
    · exact List.forall_mem_cons.2 ⟨first.status, told.status⟩
    · exact List.forall_mem_cons.2 ⟨first.value, told.value⟩
    · have ends := ends_of_terminal terminal first.status
      exact complete _ ends (first.ended ends) r' mem
  · intro r₀ ends same
    have shows := first.complete r₀ ends same
    have here : c = x.store r₀ x.result := by
      have ended := first.ended (by rw [shows]; exact ends)
      rwa [shows] at ended
    exact List.forall_mem_cons.2 ⟨shows, complete r₀ ends here⟩

end TaskRun

/-! ### Polls -/

section Polls

open Proc

variable {w : Workflow S} {part : Stores → R} {x : TaskRun V R} {seen : R}

def Workflow.checksBody (w : Workflow S) (scope : PreflightScope) (titles : List String)
    (output : Option PreflightOutput) (status : StatusRecord) : Json :=
  .object [("titles", .strings titles), ("output", .ofOption PreflightOutput.toJson output),
    ("status", status.toJson), ("allowIgnore", .bool (w.options.allowsIgnoring scope))]

def deploymentBody (status : StatusRecord) (release : Option AppRelease) (logs : Log) : Json :=
  .object [("status", status.toJson), ("release", .ofOption AppRelease.toJson release),
    ("logs", .string logs.text)]

/-- Poll the status of an activity so many times. -/
def Workflow.polls (w : Workflow S) (a : Activity) : Nat → Proc (Site S) (List Json)
  | 0 => return []
  | n + 1 => do
    let body ← Api.statusBody w a
    let more ← w.polls a n
    return body :: more

/-- Polls one after the other show something of the same run. -/
theorem Workflow.polls_follow {a : Activity} {shows : Json → StatusRecord × Option V → Prop}
    (poll : ∀ seen, x.During seen → (Api.statusBody w a).Follows
      (Watch.discipline part x.GoesOn)
      (fun body c' ↦ ∃ r c, c' = .reader c ∧ x.Reading seen r c ∧ shows body r) (.reader seen))
    (n : Nat) (during : x.During seen) :
    (w.polls a n).Follows (Watch.discipline part x.GoesOn)
      (fun bodies _ ↦ ∃ shown, List.Forall₂ shows bodies shown ∧ x.Told shown ∧
        ∀ r₀, x.Ends r₀ → seen = x.store r₀ x.result → ∀ r ∈ shown, r = (r₀, x.result))
      (.reader seen) := by
  induction n generalizing seen with
  | zero => exact .done ⟨[], .nil, ⟨nofun, nofun, .nil⟩, fun _ _ _ ↦ nofun⟩
  | succ n ih =>
    refine Follows.bind (poll seen during) ?_
    rintro body _ ⟨r, c, rfl, reading, shows_body⟩
    refine Follows.bind (ih (during.trans reading.leads)) ?_
    rintro more _ ⟨shown, shows_more, told, complete⟩
    obtain ⟨told', complete'⟩ := reading.cons told complete
    exact .done ⟨r :: shown, .cons shows_body shows_more, told', complete'⟩

/-! ### Checks and the deployment -/

variable [ToString S]

/-- The checks of a scope, run with this outcome and accepted at this time. -/
def Workflow.checksRun (w : Workflow S) (scope : PreflightScope) (outcome : Outcome PreflightOutput)
    (time : Timestamp) : TaskRun PreflightOutput PreflightStore where
  store r v := ⟨r, w.titles scope, v⟩
  status := PreflightStore.status
  status_store _ _ := rfl
  accepted := w.acceptedStatus (.preflights scope) time
  result := outcome.returned?
  Ends r := ∃ now, r = w.outcomeStatus now (.preflights scope) outcome
  under_way := rfl
  terminal := by
    rintro _ ⟨now, rfl⟩
    exact w.outcomeStatus_terminal ..

/-- What clients are told of the deployment besides its log. -/
def Stores.deployed (s : Stores) : StatusRecord × Option AppRelease := (s.app.status, s.app.release)

/-- The deployment, run with this outcome and accepted at this time. -/
def Workflow.deploymentRun (w : Workflow S) (outcome : Outcome AppRelease) (time : Timestamp) :
    TaskRun AppRelease (StatusRecord × Option AppRelease) where
  store r v := (r, v)
  status := Prod.fst
  status_store _ _ := rfl
  accepted := w.acceptedStatus .deployment time
  result := outcome.returned?
  Ends r := ∃ now, r = w.outcomeStatus now .deployment outcome
  under_way := rfl
  terminal := by
    rintro _ ⟨now, rfl⟩
    exact w.outcomeStatus_terminal ..

/-- A poll of checks reads the status last. -/
theorem Workflow.checks_poll {scope : PreflightScope} {outcome : Outcome PreflightOutput}
    {time : Timestamp} {seen : PreflightStore}
    (during : (w.checksRun scope outcome time).During seen) :
    (Api.statusBody w (.task (.preflights scope))).Follows
      (Watch.discipline (·.preflights scope) (w.checksRun scope outcome time).GoesOn)
      (fun body c' ↦ ∃ r c, c' = .reader c ∧ (w.checksRun scope outcome time).Reading seen r c ∧
        body = w.checksBody scope (w.titles scope) r.2 r.1) (.reader seen) := by
  refine look_then (g := PreflightStore.titles) (fun _ ↦ rfl) fun c₁ leads₁ ↦ ?_
  refine look_then (g := PreflightStore.output) (fun _ ↦ rfl) fun c₂ leads₂ ↦ ?_
  refine look_then (g := PreflightStore.status) (fun _ ↦ rfl) fun c₃ leads₃ ↦ ?_
  have during₁ := during.trans leads₁
  have during₂ := during₁.trans leads₂
  refine .done ⟨(c₃.status, c₂.output), c₃, rfl,
    { leads := (leads₁.trans leads₂).trans leads₃
      status := TaskRun.During.told (during₂.trans leads₃)
      value := ?value
      ended := TaskRun.During.ended (during₂.trans leads₃)
      complete := ?complete }, ?body⟩
  case value =>
    cases TaskRun.During.stage during₂ with
    | goes value => exact value
    | ended => exact .inr rfl
  case complete =>
    rintro r₀ ends rfl
    obtain rfl := TaskRun.Leads.of_ended leads₁ ends
    obtain rfl := TaskRun.Leads.of_ended leads₂ ends
    obtain rfl := TaskRun.Leads.of_ended leads₃ ends
    rfl
  case body =>
    cases TaskRun.During.stage during₁ <;> rfl

/-- A poll of the deployment reads the status first. -/
theorem Workflow.deployment_poll {outcome : Outcome AppRelease} {time : Timestamp}
    {seen : StatusRecord × Option AppRelease}
    (during : (w.deploymentRun outcome time).During seen) :
    (Api.statusBody w (.task .deployment)).Follows
      (Watch.discipline Stores.deployed (w.deploymentRun outcome time).GoesOn)
      (fun body c' ↦ ∃ r c, c' = .reader c ∧ (w.deploymentRun outcome time).Reading seen r c ∧
        (∃ logs, body = deploymentBody r.1 r.2 logs) ∧
        (r.1.state.isTerminal = true → r.2 = outcome.returned?)) (.reader seen) := by
  refine look_then (g := Prod.fst) (fun _ ↦ rfl) fun c₁ leads₁ ↦ ?_
  refine look_then (g := Prod.snd) (fun _ ↦ rfl) fun c₂ leads₂ ↦ ?_
  refine Keeps.reader_then (keeps_read _) fun logs ↦ ?_
  have during₁ := during.trans leads₁
  have status := TaskRun.During.told during₁
  have ended (ends : (w.deploymentRun outcome time).Ends c₁.1) :
      c₂ = (c₁.1, outcome.returned?) := by
    rw [TaskRun.During.ended during₁ ends] at leads₂
    exact TaskRun.Leads.of_ended leads₂ ends
  refine .done ⟨(c₁.1, c₂.2), c₂, rfl,
    { leads := leads₁.trans leads₂
      status := status
      value := ?value
      ended := ended
      complete := ?complete }, ⟨logs, rfl⟩, fun terminal ↦ ?_⟩
  case value =>
    cases TaskRun.During.stage (during₁.trans leads₂) with
    | goes value => exact value
    | ended => exact .inr rfl
  case complete =>
    rintro r₀ ends rfl
    obtain rfl := TaskRun.Leads.of_ended leads₁ ends
    obtain rfl := TaskRun.Leads.of_ended leads₂ ends
    rfl
  · have ends := TaskRun.ends_of_terminal (x := w.deploymentRun outcome time) terminal status
    exact congrArg Prod.snd (ended ends)

/-! ### What a run writes -/

variable [DecidableEq S]

omit [ToString S] [DecidableEq S] in
/-- What is reported is no status and no result. -/
theorem Workflow.note_keeps (log : ∀ s f t, part (Stores.modifyLog f s t) = part s)
    (infra : ∀ s i, part { s with infra := i } = part s) (t : Task) (p : Progress) :
    (note t p : Proc (Site S) Unit).Keeps part := by
  cases p with
  | line text =>
    have line : (note t (.line text) : Proc (Site S) Unit) =
        Site.write fun s ↦ s.modifyLog (·.add text) t := by
      cases t <;> rfl
    rw [line]
    exact keeps_modify fun s ↦ log s.payload (·.add text) t
  | components names | component name state text =>
    cases t with
    | infrastructure => exact keeps_modify fun s ↦ infra s.payload _
    | preflights | airgap | deployment => exact .done _

omit [ToString S] in
theorem Shared.finalize_keeps (lock : Lock) (target : S) :
    (finalize lock target : Proc (Site S) Unit).Keeps part := by
  refine Each.bind (.step (fun s ↦ ?_) fun _ ↦ .done _) fun _ ↦ keeps_modify fun _ ↦ rfl
  exact congrArg part (payload_enter lock target s)

omit [ToString S] in
/-- Only the report writes the part when a run is concluded. -/
theorem Running.conclude_writes {step : R → R → Prop} {now : R} {r : Running S}
    {outcome : Outcome (α × Option S)} {report : Except (OperationError S) α → Proc (Site S) Unit}
    (reports : (report (outcome.map Prod.fst).result).Follows (Watch.discipline part step)
      (fun _ c ↦ ∃ now', c = .writer now') (.writer now)) :
    (r.conclude outcome report).Follows (Watch.discipline part step) (fun _ _ ↦ True)
      (.writer now) := by
  unfold conclude
  refine Keeps.writer_then (keeps_modify fun _ ↦ rfl) fun _ ↦ ?_
  refine Follows.bind reports ?_
  rintro _ _ ⟨now', rfl⟩
  exact Keeps.writer ((Shared.finalize_keeps ..).bind fun _ ↦ .done _) fun _ ↦ trivial

/-- The run of a task goes on as its outcome tells, once it has been accepted. -/
theorem Workflow.work_follows {c : Collaborator} {running : Running S} {t : Task}
    {g : StatusRecord → R → R} (log : ∀ s f t, part (Stores.modifyLog f s t) = part s)
    (infra : ∀ s i, part { s with infra := i } = part s)
    (keeps : (keep t (c.outcome t) : Proc (Site S) Unit).Follows (Watch.discipline part x.GoesOn)
      (fun _ c ↦ c = .writer (x.store x.accepted x.result)) (.writer (x.store x.accepted none)))
    (marks : ∀ s r, part (Stores.setStatus r s (.task t)) = g r (part s))
    (marked : ∀ r, g r (x.store x.accepted x.result) = x.store r x.result)
    (ends : ∀ now, x.Ends (w.outcomeStatus now t (c.outcome t))) :
    (w.work c running t).Follows (Watch.discipline part x.GoesOn) (fun _ _ ↦ True)
      (.writer (x.store x.accepted none)) := by
  refine Keeps.writer_then (Each.forM (note_keeps log infra t) _) fun _ ↦ ?_
  obtain ⟨conclusion, same, concludes⟩ := w.finish_eq running t (c.outcome t)
  rw [same]
  refine Follows.bind keeps ?_
  rintro _ _ rfl
  cases concludes with
  | @intro _ settle report state text tally settles reports status =>
    refine Follows.bind (Running.conclude_writes ?_) fun _ _ _ ↦ .done trivial
    rw [reports]
    refine Follows.mono (mark_follows (g := g) marks fun now ↦ ?_) fun _ _ ⟨now, told⟩ ↦ ⟨_, told⟩
    rw [marked]
    exact .single (.ends (status now ▸ ends now))

/-- A run of checks writes its store as the stages of a run tell. -/
theorem Workflow.work_checks {c : Collaborator} {running : Running S} {scope : PreflightScope}
    (time : Timestamp) :
    (w.work c running (.preflights scope)).Follows
      (Watch.discipline (·.preflights scope)
        (w.checksRun scope (c.outcome (.preflights scope)) time).GoesOn) (fun _ _ ↦ True)
      (.writer ⟨w.acceptedStatus (.preflights scope) time, w.titles scope, none⟩) := by
  refine work_follows (x := w.checksRun scope (c.outcome (.preflights scope)) time)
    (g := fun r p ↦ { p with status := r }) ?log ?infra ?keeps ?marks (fun _ ↦ rfl)
    fun now ↦ ⟨now, rfl⟩
  case log =>
    intro s f t
    cases scope <;> cases t <;> rfl
  case infra =>
    intro s i
    cases scope <;> rfl
  case keeps =>
    cases returned : c.outcome (.preflights scope) with
    | returned o =>
      show (Site.write fun s ↦ s.modifyPreflights (fun p ↦ { p with output := some o }) scope :
        Proc (Site S) Unit).Follows _ _ _
      refine write_follows (g := fun p : PreflightStore ↦ { p with output := some o }) (fun s ↦ ?_)
        ?_ ?_
      · cases scope <;> rfl
      · exact .single .keeps
      · rfl
    | failed | panicked => exact .done rfl
  case marks =>
    intro s r
    cases scope <;> rfl

theorem Workflow.work_deployment {c : Collaborator} {running : Running S} (time : Timestamp) :
    (w.work c running .deployment).Follows
      (Watch.discipline Stores.deployed (w.deploymentRun (c.outcome .deployment) time).GoesOn)
      (fun _ _ ↦ True) (.writer (w.acceptedStatus .deployment time, none)) := by
  refine work_follows (x := w.deploymentRun (c.outcome .deployment) time)
    (g := fun r x ↦ (r, x.2)) ?log (fun _ _ ↦ rfl) ?keeps (fun _ _ ↦ rfl) (fun _ ↦ rfl)
    fun now ↦ ⟨now, rfl⟩
  case log =>
    intro s f t
    cases t <;> rfl
  case keeps =>
    cases returned : c.outcome .deployment with
    | returned o =>
      show (Site.write fun s ↦ { s with app.release := some o } : Proc (Site S) Unit).Follows _ _ _
      refine write_follows (g := fun x : StatusRecord × Option AppRelease ↦ (x.1, some o))
        (fun s ↦ ?_) ?_ ?_
      · rfl
      · exact .single .keeps
      · rfl
    | failed | panicked => exact .done rfl

/-! ### Up to the acceptance -/

omit [ToString S] [DecidableEq S] in
/-- Whatever the store has been like, checks are accepted with their titles and no output. -/
theorem Workflow.launch_checks (running : Running S) (scope : PreflightScope)
    (now : PreflightStore) :
    (w.launch (.preflights scope) running).Follows
      (Watch.discipline (·.preflights scope) fun _ _ ↦ True)
      (fun _ c ↦ ∃ time,
        c = .writer ⟨w.acceptedStatus (.preflights scope) time, w.titles scope, none⟩)
      (.writer now) := by
  have becomes (f : PreflightStore → PreflightStore) (s : Stores) :
      (s.modifyPreflights f scope).preflights scope = f (s.preflights scope) := by
    cases scope <;> rfl
  have clears : (Site.clear (.preflights scope) : Proc (Site S) Unit).Follows
      (Watch.discipline (·.preflights scope) fun _ _ ↦ True)
      (fun _ c ↦ c = .writer ⟨.zero, [], none⟩) (.writer now) := by
    refine write_then (g := fun p : PreflightStore ↦ { p with status := .zero }) (becomes _)
      (.single trivial) ?_
    refine write_then (g := fun p : PreflightStore ↦ { p with titles := [] }) (becomes _)
      (.single trivial) ?_
    exact write_follows (g := fun p : PreflightStore ↦ { p with output := none }) (becomes _)
      (.single trivial) rfl
  have prepares : (w.prepare (.preflights scope)).Follows
      (Watch.discipline (·.preflights scope) fun _ _ ↦ True)
      (fun _ c ↦ c = .writer ⟨.zero, w.titles scope, none⟩) (.writer now) := by
    refine Follows.bind clears ?_
    rintro _ _ rfl
    exact write_then (g := fun p : PreflightStore ↦ { p with titles := w.titles scope }) (becomes _)
      (.single trivial) (.done rfl)
  unfold launch
  refine Follows.bind prepares ?_
  rintro call _ rfl
  refine Follows.bind (mark_follows (g := fun r (p : PreflightStore) ↦ { p with status := r })
    (fun s r ↦ becomes _ s) fun _ ↦ .single trivial) ?_
  rintro _ _ ⟨time, rfl⟩
  exact (keeps_read _).writer_then fun _ ↦ .done ⟨time, rfl⟩

omit [ToString S] [DecidableEq S] in
/-- Whatever the store has been like, a deployment is accepted with no release. -/
theorem Workflow.launch_deployment (running : Running S) (now : StatusRecord × Option AppRelease) :
    (w.launch .deployment running).Follows (Watch.discipline Stores.deployed fun _ _ ↦ True)
      (fun _ c ↦ ∃ time, c = .writer (w.acceptedStatus .deployment time, none)) (.writer now) := by
  have clears : (Site.clear .deployment : Proc (Site S) Unit).Follows
      (Watch.discipline Stores.deployed fun _ _ ↦ True)
      (fun _ c ↦ c = .writer (.zero, none)) (.writer now) := by
    refine write_then (g := fun x ↦ (.zero, x.2)) (fun _ ↦ rfl) (.single trivial) ?_
    refine write_then (g := fun x ↦ (x.1, none)) (fun _ ↦ rfl) (.single trivial) ?_
    exact Keeps.writer (keeps_modify fun _ ↦ rfl) fun _ ↦ rfl
  have prepares : (w.prepare .deployment).Follows
      (Watch.discipline Stores.deployed fun _ _ ↦ True)
      (fun _ c ↦ c = .writer (.zero, none)) (.writer now) := by
    refine Follows.bind clears ?_
    rintro _ _ rfl
    refine (keeps_read _).writer_then fun values ↦ ?_
    cases w.plan.mode <;> exact .done rfl
  unfold launch
  refine Follows.bind prepares ?_
  rintro call _ rfl
  refine Follows.bind (mark_follows (g := fun r x ↦ (r, x.2)) (fun _ _ ↦ rfl)
    fun _ ↦ .single trivial) ?_
  rintro _ _ ⟨time, rfl⟩
  exact (keeps_read _).writer_then fun _ ↦ .done ⟨time, rfl⟩

/-! ### Polls of a run -/

/-- Whatever the stores are like, a run of the task is accepted, and while it is carried out a
client polls its status again and again and is answered with these bodies.  All the time others do
what leaves this part of the stores alone. -/
inductive Workflow.Polled (w : Workflow S) (part : Stores → R) (t : Task) (c : Collaborator)
    (bodies : List Json) : Prop
  | intro (s : Site S) (running : Running S) (before beside : List (Proc (Site S) (List Json)))
    (n : Nat) {accepted last : Pool (Site S) (List Json)}
    (aside : ∀ p ∈ before ++ beside, p.Keeps part)
    (launches : Pool.Steps ⟨s, (do let _ ← w.launch t running; return []) :: before⟩ accepted)
    (launched : accepted.result? 0 = some [])
    (works : Pool.Steps ⟨accepted.state,
      (do w.work c running t; return []) :: w.polls (.task t) n :: beside⟩ last)
    (answered : last.result? 1 = some bodies)

/-- What is written to the part, and how it is polled, tells what polls show. -/
theorem Workflow.Polled.told {t : Task} {c : Collaborator} {bodies : List Json}
    {shows : Json → StatusRecord × Option V → Prop} (polled : w.Polled part t c bodies)
    (run : Timestamp → TaskRun V R)
    (launches : ∀ running now, (w.launch t running).Follows
      (Watch.discipline part fun _ _ ↦ True)
      (fun _ c ↦ ∃ time, c = .writer ((run time).store (run time).accepted none)) (.writer now))
    (works : ∀ running time, (w.work c running t).Follows
      (Watch.discipline part (run time).GoesOn) (fun _ _ ↦ True)
      (.writer ((run time).store (run time).accepted none)))
    (poll : ∀ time seen, (run time).During seen → (Api.statusBody w (.task t)).Follows
      (Watch.discipline part (run time).GoesOn)
      (fun body c' ↦ ∃ r c, c' = .reader c ∧ (run time).Reading seen r c ∧ shows body r)
      (.reader seen)) :
    ∃ time shown, List.Forall₂ shows bodies shown ∧ (run time).Told shown := by
  cases polled with
  | @intro s running before beside n accepted last aside launched_steps launched worked answered =>
    have begins : Pool.Watched part (fun _ _ ↦ True) (fun i _ c ↦ i = 0 → ∃ time,
        c = .writer ((run time).store (run time).accepted none)) (Watch.first (part s.payload))
        ⟨s, (do let _ ← w.launch t running; return []) :: before⟩ := by
      refine .start (Follows.bind (launches running _) fun _ _ is ↦ .done fun _ ↦ is) ?_
      intro i p at_i
      exact (aside p (List.mem_append_left _ (List.mem_of_getElem? at_i))).reader fun _ ↦ nofun
    obtain ⟨watches, watched⟩ := begins.steps launched_steps
    obtain ⟨time, is⟩ := watched.following.post launched rfl
    have here := watched.knows 0
    rw [is] at here
    change part accepted.state.payload = _ at here
    have goes : Pool.Watched part (run time).GoesOn (fun i bodies _ ↦ i = 1 → ∃ shown,
        List.Forall₂ shows bodies shown ∧ (run time).Told shown)
        (Watch.first (part accepted.state.payload)) ⟨accepted.state,
          (do w.work c running t; return []) :: w.polls (.task t) n :: beside⟩ := by
      refine .start ?_ ?_
      · rw [here]
        exact Follows.bind (works running time) fun _ _ _ ↦ .done nofun
      · intro i p at_i
        cases i with
        | zero =>
          obtain rfl := Option.some.inj at_i
          rw [here]
          refine Follows.mono (polls_follow (poll time) n .refl) ?_
          rintro bodies _ ⟨shown, shows_bodies, told, -⟩ -
          exact ⟨shown, shows_bodies, told⟩
        | succ i =>
          have mem : p ∈ beside := List.mem_of_getElem? at_i
          exact (aside p (List.mem_append_right _ mem)).reader fun _ ↦ nofun
    obtain ⟨watches', watched'⟩ := goes.steps worked
    obtain ⟨shown, shows_bodies, told⟩ := watched'.following.post answered rfl
    exact ⟨time, shown, shows_bodies, told⟩

/-- What polls show from the acceptance of a run on.  A poll of checks shows the titles, and what
was returned or nothing yet; a poll of the deployment that shows the end shows what was
returned. -/
theorem polls_tell (w : Workflow S) (c : Collaborator) (bodies : List Json) :
    (∀ scope, w.Polled (·.preflights scope) (.preflights scope) c bodies → ∃ time shown,
      List.Forall₂ (fun body r ↦ body = w.checksBody scope (w.titles scope) r.2 r.1) bodies shown ∧
        (w.checksRun scope (c.outcome (.preflights scope)) time).Told shown) ∧
    (w.Polled Stores.deployed .deployment c bodies → ∃ time shown,
      List.Forall₂ (fun body r ↦ (∃ logs, body = deploymentBody r.1 r.2 logs) ∧
        (r.1.state.isTerminal = true → r.2 = (c.outcome .deployment).returned?)) bodies shown ∧
        (w.deploymentRun (c.outcome .deployment) time).Told shown) :=
  ⟨fun scope polled ↦ polled.told (w.checksRun scope (c.outcome (.preflights scope)))
      (fun running now ↦ w.launch_checks running scope now) (fun _ time ↦ w.work_checks time)
      fun _ _ during ↦ w.checks_poll during,
    fun polled ↦ polled.told (w.deploymentRun (c.outcome .deployment))
      w.launch_deployment (fun _ time ↦ w.work_deployment time)
      fun _ _ during ↦ w.deployment_poll during⟩

end Polls

/-! ### Polls of an upgrade -/

def smoothWork : Collaborator where
  reports _ := []
  outcome
    | .preflights _ => .returned ({} : PreflightOutput)
    | .infrastructure | .airgap => .returned ()
    | .deployment => .returned ({} : AppRelease)

def checkingStages : Stages UpgradeState :=
  ⟨.appPreflightsRunning, .appPreflightsSucceeded, .appPreflightsExecutionFailed⟩

def upgradingStages : Stages UpgradeState := ⟨.appUpgrading, .succeeded, .appUpgradeFailed⟩

def configuredPlain : Session UpgradeState :=
  plainUpgrade.after none .epoch [.act (.patchValues .empty)]

def checkedPlain : Session UpgradeState :=
  configuredPlain.after plainUpgrade [.act (.begin (.preflights .app) false),
    .complete fun c ↦ smoothWork.outcome c.task]

def failedStatus : StatusRecord := ⟨.failed, "app preflight checks failed", .epoch⟩

/-- The first poll reads the output before it is kept, and the status when the run has ended. -/
theorem overtaken_poll :
    plainUpgrade.Polled (·.preflights .app) (.preflights .app) failingCheck
      [plainUpgrade.checksBody .app [] none failedStatus,
        plainUpgrade.checksBody .app [] (failingCheck.outcome (.preflights .app)).returned?
          failedStatus] :=
  .intro ((Workflow.enter checkingStages none).on configuredPlain.site).2
    ⟨configuredPlain.site.engine.nextLock, checkingStages⟩ [] [] 2 nofun
    ((Pool.Steps.refl _).after (List.replicate 6 0)) rfl
    ((Pool.Steps.refl _).after ([1, 1] ++ List.replicate 5 0 ++ List.replicate 4 1)) rfl

/-- The first poll reads the status before the run has ended, and the release when it has been
kept. -/
theorem early_poll :
    plainUpgrade.Polled Stores.deployed .deployment smoothWork
      [deploymentBody ⟨.running, "Upgrading application", .epoch⟩
          (smoothWork.outcome .deployment).returned? {},
        deploymentBody ⟨.succeeded, "Application upgraded", .epoch⟩
          (smoothWork.outcome .deployment).returned? {}] :=
  .intro ((Workflow.enter upgradingStages none).on checkedPlain.site).2
    ⟨checkedPlain.site.engine.nextLock, upgradingStages⟩ [] [] 2 nofun
    ((Pool.Steps.refl _).after (List.replicate 6 0)) rfl
    ((Pool.Steps.refl _).after ([1, 0, 1, 1] ++ List.replicate 4 0 ++ List.replicate 3 1)) rfl

/-- What these polls show is of the one run. -/
theorem upgrade_polls_tell :
    (∃ time shown, List.Forall₂ (fun body r ↦ body = plainUpgrade.checksBody .app [] r.2 r.1)
        [plainUpgrade.checksBody .app [] none failedStatus,
          plainUpgrade.checksBody .app [] (failingCheck.outcome (.preflights .app)).returned?
            failedStatus] shown ∧
      (plainUpgrade.checksRun .app (failingCheck.outcome (.preflights .app)) time).Told shown) ∧
    ∃ time shown, List.Forall₂ (fun body r ↦ (∃ logs, body = deploymentBody r.1 r.2 logs) ∧
        (r.1.state.isTerminal = true → r.2 = (smoothWork.outcome .deployment).returned?))
        [deploymentBody ⟨.running, "Upgrading application", .epoch⟩
            (smoothWork.outcome .deployment).returned? {},
          deploymentBody ⟨.succeeded, "Application upgraded", .epoch⟩
            (smoothWork.outcome .deployment).returned? {}] shown ∧
      (plainUpgrade.deploymentRun (smoothWork.outcome .deployment) time).Told shown :=
  ⟨(polls_tell plainUpgrade failingCheck _).1 .app overtaken_poll,
    (polls_tell plainUpgrade smoothWork _).2 early_poll⟩

/-! ### Polls that the end overtakes -/

/-- The polls of a run that show the end show what the run has returned. -/
def Workflow.TerminalPollsComplete [DecidableEq S] [ToString S] (w : Workflow S) : Prop :=
  ∀ (c : Collaborator) (bodies : List Json),
    (∀ scope, w.Polled (·.preflights scope) (.preflights scope) c bodies → ∀ body ∈ bodies,
      ∀ titles output status, body = w.checksBody scope titles output status →
        status.state.isTerminal = true →
          titles = w.titles scope ∧ output = (c.outcome (.preflights scope)).returned?) ∧
    (w.Polled Stores.deployed .deployment c bodies → ∀ body ∈ bodies,
      ∀ status release logs, body = deploymentBody status release logs →
        status.state.isTerminal = true → release = (c.outcome .deployment).returned?)

/-- A poll of checks may show that they have failed, and not why. -/
theorem terminal_poll_without_output : ¬ plainUpgrade.TerminalPollsComplete := by
  intro complete
  obtain ⟨checks, -⟩ := complete failingCheck _
  obtain ⟨-, shown⟩ := checks .app overtaken_poll _ List.mem_cons_self [] none failedStatus rfl rfl
  nomatch shown

end Rollout
