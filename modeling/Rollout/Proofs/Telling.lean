import Mathlib.Data.List.Basic
import Rollout.Proofs.Acted
import Rollout.Proofs.Configuration

/-!
# Statuses of configurations that overlap

A configuration marks its activity twice: as running while it has the lock, and with what has become
of it when it has given the lock back.  So the lock does not protect the status, and that of an
activity is in the end what the last client to return has told (`Pool.Marked`), whoever had the lock
last.

`Telling` is where a client stands towards the status of its activity, and `Proc.Marks` the
discipline that goes with it.  Who has told has returned, for nothing else is allowed then.
-/

namespace Rollout

variable {S P α β : Type}

/-- The status of an activity that has succeeded, or has not. -/
def Status.ofSuccess : Bool → Status
  | true => .succeeded
  | false => .failed

theorem Status.ofSuccess_inj {b b' : Bool} : ofSuccess b = ofSuccess b' ↔ b = b' := by
  cases b <;> cases b' <;> simp [ofSuccess]

/-! ### The discipline -/

/-- Where a client stands towards the status of its activity. -/
inductive Telling where
  /-- It has not marked the activity. -/
  | quiet
  /-- It has marked the activity as running. -/
  | amid (a : Activity)
  /-- It has told what the activity came to. -/
  | told (a : Activity) (success : Bool)

namespace Telling

/-- What a client has told. -/
def told? : Telling → Option (Activity × Bool)
  | told a success => some (a, success)
  | _ => none

/-- A client that has told this, if anything. -/
def of : Option (Activity × Bool) → Telling
  | some (a, success) => told a success
  | none => quiet

@[simp] theorem told?_of (x : Option (Activity × Bool)) : (of x).told? = x := by
  cases x <;> rfl

theorem of_ne_amid (x : Option (Activity × Bool)) (a : Activity) : of x ≠ amid a := by
  cases x <;> nofun

/-- The steps of a client: it marks one activity, and tells at the end what that came to. -/
inductive Allows (act : Site S → Site S) (s : Site S) : Telling → Telling → Prop
  | aside {g : Telling} (untold : g.told? = none)
      (keeps : ∀ b, (act s).payload.status b = s.payload.status b) : Allows act s g g
  | begins {a : Activity} (others : ∀ b, b ≠ a → (act s).payload.status b = s.payload.status b) :
      Allows act s quiet (amid a)
  | tells {a : Activity} {success : Bool}
      (others : ∀ b, b ≠ a → (act s).payload.status b = s.payload.status b)
      (status : ((act s).payload.status a).state = .ofSuccess success) :
      Allows act s (amid a) (told a success)

def discipline : Discipline (Site S) Telling where
  Knows _ _ := True
  Allows g act s g' := Allows act s g g'

end Telling

namespace Proc

variable {Q : α → Telling → Prop} {g : Telling} {a : Activity}

/-- The computation marks one activity at most, and ends as `Q` says. -/
def Marks (Q : α → Telling → Prop) (g : Telling) (p : Proc (Site S) α) : Prop :=
  p.Follows Telling.discipline Q g

/-- The computation marks nothing, and its results are as `T` says. -/
def Quiet (T : α → Prop) (p : Proc (Site S) α) : Prop :=
  ∀ g : Telling, g.told? = none → p.Marks (fun a g' ↦ T a ∧ g' = g) g

variable {T : α → Prop} {U : β → Prop} {p : Proc (Site S) α}

theorem quiet_pure {a : α} (post : T a) : (pure a : Proc (Site S) α).Quiet T :=
  fun _ _ ↦ .done ⟨post, rfl⟩

/-- A change that leaves all statuses as they are is quiet. -/
theorem quiet_change {act : Site S → Site S} {answer : Site S → α}
    (keeps : ∀ s b, (act s).payload.status b = s.payload.status b) (post : ∀ s, T (answer s)) :
    (change act answer).Quiet T := fun g untold ↦
  follows_change (fun _ ↦ g) (fun s _ ↦ .aside untold (keeps s)) fun s _ ↦ ⟨post s, rfl⟩

/-- What is quiet may come before a computation that keeps to the discipline. -/
theorem Quiet.then {R : β → Telling → Prop} {k : α → Proc (Site S) β} (h : p.Quiet T)
    (untold : g.told? = none) (rest : ∀ a, T a → (k a).Marks R g) : (p >>= k).Marks R g := by
  refine Follows.bind (h g untold) ?_
  rintro a _ ⟨post, rfl⟩
  exact rest a post

theorem Quiet.bind {k : α → Proc (Site S) β} (h : p.Quiet T) (rest : ∀ a, T a → (k a).Quiet U) :
    (p >>= k).Quiet U := fun g untold ↦ h.then untold fun a post ↦ rest a post g untold

theorem Quiet.marks (h : p.Quiet T) (untold : g.told? = none) (post : ∀ a, T a → Q a g) :
    p.Marks Q g := by
  refine Follows.mono (h g untold) ?_
  rintro a _ ⟨result, rfl⟩
  exact post a result

/-- Whoever has told has returned. -/
theorem Marks.done_of_told {success : Bool} (h : p.Marks Q (.told a success)) (s : Site S) :
    ∃ r, p = .done r := by
  cases h with
  | done post => exact ⟨_, rfl⟩
  | step goal allowed rest =>
    have allowed : Telling.Allows _ s (.told a success) (goal s) := allowed s trivial
    generalize goal s = g' at allowed
    cases allowed with
    | aside untold keeps => nomatch untold

end Proc

/-! ### Operations that mark nothing -/

section Operations

open Proc

theorem Shared.tally_quiet (t : Tally) : (tally t : Proc (Site S) Unit).Quiet fun _ ↦ True :=
  quiet_change (fun _ _ ↦ rfl) fun _ ↦ trivial

/-- An operation that has not begun has been refused. -/
def Refuses (r : Except (OperationError S) α) : Prop :=
  ∀ e, r = .error e → (ActionError.operation e).isRefusal = true

theorem Guarded.acquire_quiet (stages : Stages S) :
    (acquire stages : Proc (Site S) _).Quiet Refuses := by
  refine quiet_change (fun s b ↦ ?_) fun s e refused ↦ ?_
  · cases s.engine.acquire <;> rfl
  · cases acquired : s.engine.acquire with
    | ok taken =>
      simp only [acquired] at refused
      nomatch refused
    | error e =>
      simp only [acquired] at refused
      obtain rfl := Except.error.inj refused
      rfl

variable [DecidableEq S]

theorem Shared.enter_quiet (lock : Lock) (target : S) :
    (enter lock target : Proc (Site S) _).Quiet fun _ ↦ True := by
  refine quiet_change (fun s b ↦ ?_) fun _ ↦ trivial
  cases s.engine.transition lock target s.now <;> rfl

theorem Shared.finalize_quiet (lock : Lock) (target : S) :
    (finalize lock target : Proc (Site S) Unit).Quiet fun _ ↦ True :=
  (enter_quiet lock target).bind fun _ _ ↦ quiet_change (fun _ _ ↦ rfl) fun _ ↦ trivial

theorem Guarded.start_quiet (g : Guarded S) : (g.start : Proc (Site S) _).Quiet Refuses := by
  have tried : (g.transition g.stages.running : Proc (Site S) _).Quiet Refuses := by
    refine (Shared.enter_quiet _ _).bind fun r _ ↦ quiet_pure fun e refused ↦ ?_
    cases r with
    | ok u => nomatch refused
    | error e =>
      obtain rfl := Except.error.inj refused
      rfl
  refine tried.bind ?_
  rintro (e | u) refuses
  · refine (Shared.tally_quiet _).bind fun _ _ ↦ ?_
    refine (Shared.finalize_quiet _ _).bind fun _ _ ↦ quiet_pure ?_
    rintro _ ⟨⟩
    exact refuses e rfl
  · exact (Shared.tally_quiet _).bind fun _ _ ↦ quiet_pure nofun

/-- Work that has come to an outcome is not refused any more. -/
theorem Running.conclude_quiet (r : Running S) (outcome : Outcome (α × Option S))
    {report : Except (OperationError S) α → Proc (Site S) Unit}
    (reports : ∀ x, (report x).Quiet fun _ ↦ True) :
    (r.conclude outcome report).Quiet fun result ↦
      ∀ e, result = .error e → (ActionError.operation e).isRefusal = false := by
  refine (Shared.tally_quiet _).bind fun _ _ ↦ (reports _).bind fun _ _ ↦
    (Shared.finalize_quiet _ _).bind fun _ _ ↦ quiet_pure fun e failed ↦ ?_
  cases outcome <;> cases failed <;> rfl

end Operations

/-! ### Configurations -/

/-- What the activity of a configuration has come to, told from the answer. -/
def Configuration.outcome? (c : Configuration) : Answer S → Option (Activity × Bool)
  | .refused e => if e.isRefusal then none else some (c.activity, false)
  | _ => some (c.activity, true)

namespace Workflow

open Proc

variable {w : Workflow S} {a : Activity}

/-- First the activity is marked as running. -/
theorem mark_begins {Q : β → Telling → Prop} {text : String} {k : Unit → Proc (Site S) β}
    (rest : (k ()).Marks Q (.amid a)) : (Site.mark a .running text >>= k).Marks Q .quiet :=
  .step (fun _ ↦ .amid a)
    (fun _ _ ↦ .begins fun _ other ↦ Stores.status_setStatus_of_ne other ..) fun _ _ ↦ rest

/-- First it is told what the activity came to. -/
theorem mark_tells {Q : β → Telling → Prop} {text : String} {k : Unit → Proc (Site S) β}
    (success : Bool) (rest : (k ()).Marks Q (.told a success)) :
    (Site.mark a (.ofSuccess success) text >>= k).Marks Q (.amid a) :=
  .step (fun _ ↦ .told a success)
    (fun _ _ ↦ .tells (fun _ other ↦ Stores.status_setStatus_of_ne other ..)
      (congrArg StatusRecord.state (Stores.status_setStatus_self ..))) fun _ _ ↦ rest

theorem look_quiet (f : Stores → α) : (Site.look f : Proc (Site S) α).Quiet fun _ ↦ True :=
  quiet_change (fun _ _ ↦ rfl) fun _ ↦ trivial

theorem write_quiet {f : Stores → Stores} (keeps : ∀ s b, (f s).status b = s.status b) :
    (Site.write f : Proc (Site S) Unit).Quiet fun _ ↦ True :=
  quiet_change (fun s ↦ keeps s.payload) fun _ ↦ trivial

theorem mergePatch_quiet (w : Workflow S) (patch : ConfigValues) :
    (w.mergePatch patch).Quiet fun _ ↦ True := by
  have writes (values : ConfigValues) (s : Stores) (b : Activity) :
      Stores.status { s with config.result := some values } b = s.status b := by
    rcases b with _ | _ | ⟨⟨⟩⟩ | _ | _ | _ <;> rfl
  refine (look_quiet Stores.values).bind fun values _ ↦ ?_
  dsimp only
  split
  · exact quiet_pure trivial
  · refine (write_quiet (writes _)).bind fun _ _ ↦ ?_
    exact (look_quiet _).bind fun _ _ ↦ quiet_pure trivial

theorem storeSettings_quiet (c : InstallationConfig) :
    (storeSettings c : Proc (Site S) _).Quiet fun _ ↦ True := by
  have writes (s : Stores) (b : Activity) :
      Stores.status { s with installation.result := some c } b = s.status b := by
    rcases b with _ | _ | ⟨⟨⟩⟩ | _ | _ | _ <;> rfl
  unfold storeSettings
  split
  · exact quiet_pure trivial
  · exact (write_quiet writes).bind fun _ _ ↦ quiet_pure trivial

variable [DecidableEq S]

/-- Nothing is marked on the way into a running state. -/
theorem enter_marks {stages : Stages S} {Q : Except (ActionError S) (Running S) → Telling → Prop}
    (refused : ∀ e, e.isRefusal = true → Q (.error e) .quiet)
    (starts : ∀ operation, Q (.ok operation) .quiet) :
    (enter stages none).run.Marks Q .quiet := by
  refine Attempt.then_follows (M := fun _ g ↦ g = .quiet) (Attempt.ofOperation_follows ?_) ?_
  · refine (Guarded.acquire_quiet stages).marks rfl ?_
    rintro (e | g) refuses
    · exact refused _ (refuses e rfl)
    · rfl
  · rintro g _ rfl
    refine Attempt.ofOperation_follows (g.start_quiet.marks rfl ?_)
    rintro (e | operation) refuses
    · exact refused _ (refuses e rfl)
    · exact starts operation

variable [ToString S]

/-- An activity that a client waits for is told if it was begun. -/
theorem settleNow_marks {Q : Except (ActionError S) α → Telling → Prop}
    {running succeeded : String} {work : Proc (Site S) (Outcome (α × Option S))}
    (quiet : work.Quiet fun _ ↦ True) (refused : ∀ e, e.isRefusal = true → Q (.error e) .quiet)
    (accepted : ∀ v, Q (.ok v) (.told a true))
    (failed : ∀ e, e.isRefusal = false → Q (.error e) (.told a false)) :
    (w.settleNow a running succeeded work).run.Marks Q .quiet := by
  refine Attempt.then_follows (M := fun _ g ↦ g = .quiet) ?_ ?_
  · unfold Workflow.stages
    cases w.plan.stages w.options a with
    | ok stages => exact .done rfl
    | error what => exact .done (refused _ rfl)
  rintro stages _ rfl
  refine Attempt.then_follows (M := fun _ g ↦ g = .quiet) (enter_marks refused fun _ ↦ rfl) ?_
  rintro operation _ rfl
  refine Attempt.ofOperation_follows (mark_begins ?_)
  have ran : (operation.run work fun _ ↦ pure ()).Quiet fun result ↦
      ∀ e, result = .error e → (ActionError.operation e).isRefusal = false :=
    quiet.bind fun outcome _ ↦ operation.conclude_quiet outcome fun _ ↦ quiet_pure trivial
  refine ran.then rfl ?_
  rintro (e | v) carriedOut
  · exact mark_tells false (.done (failed _ (carriedOut e rfl)))
  · exact mark_tells true (.done (accepted v))

/-- A configuration tells what it has come to. -/
theorem act_marks (w : Workflow S) (c : Configuration) :
    (w.act c.action).Marks (fun answered g ↦ g = .of (c.outcome? answered.1)) .quiet := by
  have refused (e : ActionError S) (refusal : e.isRefusal = true) :
      Telling.quiet = .of (c.outcome? (.refused e)) := by
    simp [Configuration.outcome?, refusal, Telling.of]
  have failed (e : ActionError S) (carriedOut : e.isRefusal = false) :
      Telling.told c.activity false = .of (c.outcome? (.refused e)) := by
    simp [Configuration.outcome?, carriedOut, Telling.of]
  cases c with
  | values patch =>
    exact answer_follows (settleNow_marks (w.mergePatch_quiet patch) refused (fun _ ↦ rfl) failed)
  | settings c =>
    exact answer_follows (settleNow_marks (storeSettings_quiet c) refused (fun _ ↦ rfl) failed)

end Workflow

/-! ### Pools -/

/-- What the last one of an activity came to. -/
def lastOf (a : Activity) (told : List (Activity × Bool)) : Option Bool :=
  (told.filterMap fun x ↦ if x.1 = a then some x.2 else none).getLast?

theorem lastOf_snoc_self (told : List (Activity × Bool)) (a : Activity) (success : Bool) :
    lastOf a (told ++ [(a, success)]) = some success := by
  simp [lastOf, List.filterMap_append]

theorem lastOf_snoc_of_ne {a b : Activity} (other : b ≠ a) (told : List (Activity × Bool))
    (success : Bool) : lastOf a (told ++ [(b, success)]) = lastOf a told := by
  simp [lastOf, List.filterMap_append, other]

/-- Of the outcomes that have been told of an activity one is the last. -/
theorem lastOf_isSome {a : Activity} {success : Bool} {told : List (Activity × Bool)}
    (mem : (a, success) ∈ told) : ∃ last, lastOf a told = some last := by
  have listed : success ∈ told.filterMap fun x ↦ if x.1 = a then some x.2 else none :=
    List.mem_filterMap.2 ⟨(a, success), mem, if_pos rfl⟩
  exact Option.isSome_iff_exists.1 (List.getLast?_isSome.2 (List.ne_nil_of_mem listed))

namespace Pool

/-- The journal of a run: what has been entered into the ledger, and the clients in the order in
which they have returned. -/
inductive Journal [DecidableEq S] (p : Pool (Shared S P) α) :
    Ledger S → List Nat → Pool (Shared S P) α → Prop
  | start : Journal p [] [] p
  | turn {l entry : Ledger S} {returned : List Nat} {i : Nat} {q r : Pool (Shared S P) α}
      (earlier : Journal p l returned q) (turn : q.Turn i entry r) :
      Journal p (l ++ entry) (returned ++ if (r.result? i).isSome then [i] else []) r

/-- The order in which computations have returned can be told from their run. -/
theorem Run.journal [DecidableEq S] {p q : Pool (Shared S P) α} {l : Ledger S} (run : p.Run l q) :
    ∃ returned, p.Journal l returned q := by
  induction run with
  | start => exact ⟨[], .start⟩
  | turn _ turn ih =>
    obtain ⟨returned, earlier⟩ := ih
    exact ⟨_, earlier.turn turn⟩

/-- What the statuses have to do with what the clients have told in a pool that has started from
`s₀`. -/
structure Marked (Q : Nat → α → Telling → Prop) (s₀ : Site S) (tellings : Nat → Telling)
    (returned : List Nat) (q : Pool (Site S) α) : Prop where
  following : q.Following Telling.discipline Q tellings
  ended : ∀ i ∈ returned, ∃ a, q.result? i = some a
  complete : ∀ i, (tellings i).told? ≠ none → i ∈ returned
  /-- A status that nobody is about to write is that of the last to have told. -/
  status : ∀ a, (∀ i < q.procs.length, tellings i ≠ .amid a) →
    (q.state.payload.status a).state =
      (lastOf a (returned.filterMap fun i ↦ (tellings i).told?)).elim
        (s₀.payload.status a).state .ofSuccess

namespace Marked

variable {Q : Nat → α → Telling → Prop} {s₀ s : Site S} {tellings : Nat → Telling}
  {returned : List Nat} {procs : List (Proc (Site S) α)} {i : Nat} {act : Site S → Site S}
  {next : Site S → Proc (Site S) α} {q : Pool (Site S) α} {g : Telling} {a : Activity}

/-- Nobody has done anything yet. -/
theorem start (following : q.Following Telling.discipline Q fun _ ↦ .quiet) :
    q.Marked Q q.state (fun _ ↦ .quiet) [] where
  following := following
  ended := nofun
  complete _ told := absurd rfl told
  status _ _ := rfl

theorem mem_snoc_if {ended : Bool} {j : Nat} :
    j ∈ returned ++ (if ended then [i] else []) ↔ j ∈ returned ∨ ended = true ∧ j = i := by
  cases ended <;> simp

/-- What has been told after a turn of `i`. -/
theorem told_snoc (fresh : i ∉ returned) {ended : Bool} (returns : g.told? ≠ none → ended = true) :
    ((returned ++ if ended then [i] else []).filterMap fun j ↦
        (Function.update tellings i g j).told?) =
      (returned.filterMap fun j ↦ (tellings j).told?) ++ g.told?.toList := by
  rw [List.filterMap_append]
  congr 1
  · refine List.filterMap_congr fun j mem ↦ ?_
    have other : j ≠ i := fun same ↦ fresh (same ▸ mem)
    rw [Function.update_of_ne other]
  · cases ended with
    | true =>
      rw [if_pos rfl, List.filterMap_cons, Function.update_self]
      cases g.told? <;> rfl
    | false =>
      have untold : g.told? = none := Classical.byContradiction fun told ↦ nomatch returns told
      rw [untold]
      rfl

theorem not_amid_of_update {n : Nat} (not : tellings i ≠ .amid a)
    (nobody : ∀ j < n, Function.update tellings i g j ≠ .amid a) (j : Nat) (lt : j < n) :
    tellings j ≠ .amid a := by
  by_cases same : j = i
  · rwa [same]
  · have other := nobody j lt
    rwa [Function.update_of_ne same] at other

/-- Whoever's turn it is, the statuses are as they were told. -/
theorem turn (h : Marked Q s₀ tellings returned ⟨s, procs⟩)
    (at_i : procs[i]? = some (.step act next)) :
    ∃ g, Marked Q s₀ (Function.update tellings i g)
      (returned ++ if (result? ⟨act s, procs.set i (next s)⟩ i).isSome then [i] else [])
      ⟨act s, procs.set i (next s)⟩ := by
  obtain ⟨g, allowed, following⟩ := h.following.turn at_i trivial
  have allowed : Telling.Allows act s (tellings i) g := allowed
  have lt : i < procs.length := (List.getElem?_eq_some_iff.1 at_i).1
  have now : (procs.set i (next s))[i]? = some (next s) := List.getElem?_set_self lt
  have fresh : i ∉ returned := by
    intro mem
    obtain ⟨a, result⟩ := h.ended i mem
    exact nomatch at_i.symm.trans (result?_eq_some.1 result)
  have returns (told : g.told? ≠ none) :
      (result? ⟨act s, procs.set i (next s)⟩ i).isSome = true := by
    have marks := following i _ now
    rw [Function.update_self] at marks
    cases g with
    | quiet | amid => exact absurd rfl told
    | told a success =>
      obtain ⟨r, done⟩ := Proc.Marks.done_of_told marks s
      exact Option.isSome_iff_exists.2 ⟨r, result?_eq_some.2 (now.trans (congrArg some done))⟩
  refine ⟨g, { following := following, ended := ?ended, complete := ?complete, status := ?status }⟩
  case ended =>
    intro j mem
    rcases mem_snoc_if.1 mem with old | ⟨done, rfl⟩
    · obtain ⟨a, result⟩ := h.ended j old
      have other : i ≠ j := fun same ↦ fresh (same ▸ old)
      have kept : (procs.set i (next s))[j]? = some (.done a) := by
        rw [List.getElem?_set_ne other]
        exact result?_eq_some.1 result
      exact ⟨a, result?_eq_some.2 kept⟩
    · exact Option.isSome_iff_exists.1 done
  case complete =>
    intro j told
    refine mem_snoc_if.2 ?_
    by_cases same : j = i
    · subst same
      rw [Function.update_self] at told
      exact .inr ⟨returns told, rfl⟩
    · rw [Function.update_of_ne same] at told
      exact .inl (h.complete j told)
  case status =>
    intro b nobody
    rw [List.length_set] at nobody
    rw [told_snoc fresh returns]
    generalize here : tellings i = g₀ at allowed
    have before (not : g₀ ≠ .amid b) :=
      h.status b (not_amid_of_update (show tellings i ≠ .amid b from here ▸ not) nobody)
    have here_not := nobody i lt
    rw [Function.update_self] at here_not
    cases allowed with
    | aside untold keeps =>
      rw [untold, Option.toList_none, List.append_nil, keeps]
      exact before here_not
    | @begins a others =>
      have other : b ≠ a := by
        rintro rfl
        exact here_not rfl
      show _ = (lastOf b (_ ++ [])).elim _ _
      rw [List.append_nil, others b other]
      exact before nofun
    | @tells a success others status =>
      show _ = (lastOf b (_ ++ [(a, success)])).elim _ _
      by_cases same : b = a
      · subst same
        rw [lastOf_snoc_self]
        exact status
      · rw [lastOf_snoc_of_ne (Ne.symm same), others b same]
        exact before fun amid ↦ same (Telling.amid.inj amid).symm

/-- Along a run, the statuses are as they were told. -/
theorem along [DecidableEq S] {p : Pool (Site S) α} {l : Ledger S} (h : p.Marked Q s₀ tellings [])
    (journal : p.Journal l returned q) : ∃ tellings', q.Marked Q s₀ tellings' returned := by
  induction journal with
  | start => exact ⟨tellings, h⟩
  | turn _ turn ih =>
    obtain ⟨tellings', marked⟩ := ih
    cases turn with
    | aside at_i spares s =>
      obtain ⟨g, marked'⟩ := marked.turn at_i
      exact ⟨_, marked'⟩
    | call at_i makes s =>
      obtain ⟨g, marked'⟩ := marked.turn at_i
      exact ⟨_, marked'⟩

end Marked
end Pool
end Rollout
