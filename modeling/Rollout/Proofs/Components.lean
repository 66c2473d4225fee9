import Mathlib.Data.List.Nodup
import Mathlib.Logic.Function.Basic
import Rollout.Steps.Command
import Rollout.Workflow.Session

/-!
# What is told of the components

A step that changes the infrastructure lists its components before it runs the command, and reports
on each of them afterwards.  A report is about a name, and goes to the first component of that name.
So when the step is over, the first component of each name tells how the step came out, and another
one of the same name has never been heard of again (`components_told`): nothing is left pending
exactly if no name is configured twice.
-/

namespace Rollout

/-- What a status tells. -/
def StatusRecord.told (r : StatusRecord) : Status × String := (r.state, r.description)

namespace InfraStore

variable {name : String} {r : StatusRecord} {cs : List ComponentStatus} {names : List String}
  {told : String → Status × String}

/-! ### One report -/

/-- The first component of the name is replaced, and no other. -/
theorem getElem?_setComponent (listed : name ∈ cs.map (·.name)) (i : Nat) :
    (setComponent name r cs)[i]? =
      if cs[i]?.map (·.name) = some name ∧ name ∉ (cs.map (·.name)).take i then some ⟨name, r⟩
      else cs[i]? := by
  induction cs generalizing i with
  | nil => cases listed
  | cons c more ih =>
    rw [setComponent]
    by_cases here : c.name = name
    · rw [if_pos here]
      cases i with
      | zero => simp [here]
      | succ i => simp [here]
    · rw [if_neg here]
      have later : name ∈ more.map (·.name) :=
        (List.mem_cons.1 (List.map_cons .. ▸ listed)).resolve_left fun same ↦ here same.symm
      cases i with
      | zero => simp [here]
      | succ i => simpa [Ne.symm here] using ih later i

/-- A report about a listed component leaves the names as they are. -/
theorem names_setComponent (listed : name ∈ cs.map (·.name)) :
    (setComponent name r cs).map (·.name) = cs.map (·.name) := by
  induction cs with
  | nil => cases listed
  | cons c more ih =>
    rw [setComponent]
    by_cases here : c.name = name
    · rw [if_pos here, List.map_cons, List.map_cons, here]
    · have later : name ∈ more.map (·.name) :=
        (List.mem_cons.1 (List.map_cons .. ▸ listed)).resolve_left fun same ↦ here same.symm
      rw [if_neg here, List.map_cons, List.map_cons, ih later]

/-- The components of these names: the first of each name tells what was told of it last, the
others what was told when they were listed. -/
structure Tells (names : List String) (told : String → Status × String)
    (cs : List ComponentStatus) : Prop where
  listed : cs.map (·.name) = names
  first : ∀ i c, cs[i]? = some c → c.name ∉ names.take i → c.status.told = told c.name
  further : ∀ i c, cs[i]? = some c → c.name ∈ names.take i → c.status.told = (.pending, "")

/-- Components that have just been listed are pending. -/
theorem tells_register (s : InfraStore) (names : List String) (now : Timestamp) :
    Tells names (fun _ ↦ (.pending, "")) (s.register names now).components := by
  have pending : ∀ (i : Nat) (c : ComponentStatus), (s.register names now).components[i]? = some c →
      c.status.told = (.pending, "") := by
    intro i c at_i
    obtain ⟨n, -, rfl⟩ := Option.map_eq_some_iff.1 (List.getElem?_map .. ▸ at_i)
    rfl
  refine ⟨?_, fun i c at_i _ ↦ pending i c at_i, fun i c at_i _ ↦ pending i c at_i⟩
  show (names.map _).map _ = names
  rw [List.map_map]
  exact List.map_id names

/-- A report is told of its name, and nothing else changes. -/
theorem Tells.setComponent (tells : Tells names told cs) (listed : name ∈ names) :
    Tells names (Function.update told name r.told) (setComponent name r cs) := by
  have mem : name ∈ cs.map (·.name) := tells.listed.symm ▸ listed
  refine ⟨(names_setComponent mem).trans tells.listed, fun i c at_i is_first ↦ ?_,
    fun i c at_i is_further ↦ ?_⟩
  · rw [getElem?_setComponent mem, tells.listed] at at_i
    split at at_i
    · obtain rfl := Option.some.inj at_i
      exact (Function.update_self name r.told told).symm
    · rename_i untouched
      have other : c.name ≠ name := by
        rintro rfl
        exact untouched ⟨congrArg (Option.map _) at_i, is_first⟩
      rw [Function.update_of_ne other]
      exact tells.first i c at_i is_first
  · rw [getElem?_setComponent mem, tells.listed] at at_i
    split at at_i
    · rename_i touched
      obtain rfl := Option.some.inj at_i
      exact absurd is_further touched.2
    · exact tells.further i c at_i is_further

end InfraStore

/-! ### All reports -/

/-- What is told of each name after a report. -/
def Progress.tellOf (told : String → Status × String) : Progress → String → Status × String
  | component name state text => Function.update told name (state, text)
  | line _ | components _ => told

/-- A report about one of the names, or about none. -/
def Progress.Concerns (names : List String) : Progress → Prop
  | component name _ _ => name ∈ names
  | line _ => True
  | components _ => False

namespace Workflow

variable {S : Type}

/-- The infrastructure reports, one report after the other.  In between anything may happen that
leaves its components alone. -/
inductive Reporting : Site S → List Progress → Site S → Prop where
  | done {s s' : Site S} (same : s'.payload.infra.components = s.payload.infra.components) :
      Reporting s [] s'
  | report {s s₁ s' : Site S} {p : Progress} {more : List Progress}
      (same : s₁.payload.infra.components = s.payload.infra.components)
      (rest : Reporting ((note .infrastructure p).run s₁).2 more s') : Reporting s (p :: more) s'

/-- Nothing need happen in between. -/
theorem reporting_run (s : Site S) (reports : List Progress) :
    Reporting s reports ((reports.forM (note .infrastructure)).run s).2 := by
  induction reports generalizing s with
  | nil => exact .done rfl
  | cons p more ih =>
    show Reporting s (p :: more) ((do
      note .infrastructure p
      more.forM (note .infrastructure)).run s).2
    rw [Proc.run_bind]
    exact .report rfl (ih _)

variable {s s' : Site S} {names : List String} {told : String → Status × String}

/-- Reports on listed names are told of these. -/
theorem Reporting.tells {reports : List Progress} (reporting : Reporting s reports s')
    (concern : ∀ p ∈ reports, p.Concerns names)
    (tells : InfraStore.Tells names told s.payload.infra.components) :
    InfraStore.Tells names (reports.foldl Progress.tellOf told) s'.payload.infra.components := by
  induction reporting generalizing told with
  | done same => exact same.symm ▸ tells
  | @report s s₁ s' p more same rest ih =>
    obtain ⟨here, later⟩ := List.forall_mem_cons.1 concern
    rw [← same] at tells
    refine ih later ?_
    cases p with
    | line text => exact tells
    | components names' => exact here.elim
    | component name state text => exact tells.setComponent (r := ⟨state, text, s₁.now⟩) here

/-- The names are listed first, whatever was there before. -/
theorem Reporting.tells_listed {reports : List Progress}
    (reporting : Reporting s (.components names :: reports) s')
    (concern : ∀ p ∈ reports, p.Concerns names) :
    InfraStore.Tells names (reports.foldl Progress.tellOf fun _ ↦ (.pending, ""))
      s'.payload.infra.components := by
  cases reporting with
  | @report _ s₁ _ _ _ same rest =>
    exact rest.tells concern (s₁.payload.infra.tells_register names s₁.now)

end Workflow

/-! ### The reports of a step -/

namespace Steps

variable {c : StepsConfig} {told : String → Status × String}

/-- A report about all components is about each one of the configuration. -/
theorem concerns_reportAll (c : StepsConfig) (state : Status) (text : String) :
    ∀ p ∈ reportAll c state text, p.Concerns c.infraComponents := by
  rintro p mem
  obtain ⟨name, listed, rfl⟩ := List.mem_map.1 mem
  exact listed

/-- After a report about each of some names, these are told alike and the others are told what they
were told. -/
theorem foldl_component (names : List String) (state : Status) (text name : String) :
    (names.map fun n ↦ Progress.component n state text).foldl Progress.tellOf told name =
      if name ∈ names then (state, text) else told name := by
  induction names generalizing told with
  | nil => rfl
  | cons n more ih =>
    rw [List.map_cons, List.foldl_cons, ih]
    by_cases later : name ∈ more
    · rw [if_pos later, if_pos (List.mem_cons_of_mem n later)]
    · rw [if_neg later]
      by_cases same : name = n
      · rw [if_pos (List.mem_cons.2 (.inl same)), same]
        exact Function.update_self ..
      · rw [if_neg (List.not_mem_cons_of_ne_of_not_mem same later)]
        exact Function.update_of_ne same ..

/-- What the components are told in the end. -/
def verdict (step : String) : Except Failure Unit → Status × String
  | .ok () => (.succeeded, step)
  | .error e => (.failed, e.outermost)

/-- The last reports of a step are the same for all components. -/
theorem infraProgress_eq (c : StepsConfig) (step : String) (logged : List String)
    (result : Except Failure Unit) :
    infraProgress c step logged result = .components c.infraComponents ::
      (reportAll c .running step ++ logged.map .line ++
        reportAll c (verdict step result).1 (verdict step result).2) := by
  cases result with
  | ok u => rfl
  | error e => rfl

variable {S : Type} {s s' : Site S}

/-- When a step is over, each name has been told how it came out. -/
theorem tells_of_infraProgress {step : String} {logged : List String}
    {result : Except Failure Unit}
    (reporting : Workflow.Reporting s (infraProgress c step logged result) s') :
    InfraStore.Tells c.infraComponents (fun _ ↦ verdict step result)
      s'.payload.infra.components := by
  rw [infraProgress_eq] at reporting
  have tells := reporting.tells_listed fun p mem ↦ by
    rcases List.mem_append.1 mem with mem | mem
    · rcases List.mem_append.1 mem with mem | mem
      · exact concerns_reportAll c _ _ p mem
      · obtain ⟨line, -, rfl⟩ := List.mem_map.1 mem
        trivial
    · exact concerns_reportAll c _ _ p mem
  refine ⟨tells.listed, fun i x at_i is_first ↦ (tells.first i x at_i is_first).trans ?_,
    tells.further⟩
  have listed : x.name ∈ c.infraComponents :=
    tells.listed ▸ List.mem_map_of_mem (List.mem_of_getElem? at_i)
  rw [List.foldl_append]
  exact (foldl_component ..).trans (if_pos listed)

/-! ### What is left behind -/

/-- What the components tell when a step has come to an outcome. -/
structure ComponentsTold {α : Type} (names : List String) (step : String) (outcome : Outcome α)
    (cs : List ComponentStatus) : Prop where
  /-- They are those configured, in that order. -/
  listed : cs.map (·.name) = names
  /-- A step returns or fails, and the first component of each name tells which. -/
  first : (∃ a, outcome = .returned a ∧ ∀ (i : Nat) x, cs[i]? = some x → x.name ∉ names.take i →
      x.status.told = (.succeeded, step)) ∨
    ∃ f, outcome = .failed f ∧ ∀ (i : Nat) x, cs[i]? = some x → x.name ∉ names.take i →
      x.status.told = (.failed, f.outermost)
  /-- Another one of the same name is as it was listed. -/
  further : ∀ (i : Nat) x, cs[i]? = some x → x.name ∈ names.take i →
    x.status.told = (.pending, "")
  terminal_iff : (∀ x ∈ cs, x.status.state.isTerminal = true) ↔ names.Nodup

/-- A call that changes the infrastructure reports as its step comes out. -/
theorem carryOut_infrastructure (c : StepsConfig) (run : Invocation → Run) (now : Timestamp)
    {call : Call} (infra : call.task = .infrastructure) : ∃ logged result,
    (carryOut c run now call).1 = infraProgress c (stepName call) logged result ∧
      ((∃ a, (carryOut c run now call).2 = .returned a) ∧ result = .ok () ∨
        ∃ f, (carryOut c run now call).2 = .failed f ∧ result = .error f) := by
  have told (result : Except Failure Unit) :
      (∃ a, outcome result = .returned a) ∧ result = .ok () ∨
        ∃ f, outcome result = .failed f ∧ result = .error f := by
    cases result with
    | ok u => exact .inl ⟨⟨u, rfl⟩, rfl⟩
    | error f => exact .inr ⟨f, rfl, rfl⟩
  cases call with
  | installInfrastructure settings => exact ⟨_, _, rfl, told _⟩
  | upgradeInfrastructure => exact ⟨_, _, rfl, told _⟩
  | preflights | processAirgap | installApp | upgradeApp => nomatch infra

/-- In a list without repetition nothing stands a second time. -/
theorem nodup_iff_not_mem_take {α : Type} {l : List α} :
    l.Nodup ↔ ∀ (i : Nat) a, l[i]? = some a → a ∉ l.take i := by
  rw [List.nodup_iff_getElem?_ne_getElem?]
  constructor
  · intro differ i a at_i mem
    obtain ⟨j, at_j⟩ := List.mem_iff_getElem?.1 mem
    rw [List.getElem?_take] at at_j
    split at at_j
    · rename_i before
      obtain ⟨within, -⟩ := List.getElem?_eq_some_iff.1 at_i
      exact differ j i before within (at_j.trans at_i.symm)
    · cases at_j
  · intro fresh i j before within same
    have at_j : l[j]? = some l[j] := List.getElem?_eq_getElem within
    refine fresh j _ at_j (List.mem_iff_getElem?.2 ⟨i, ?_⟩)
    rw [List.getElem?_take, if_pos before, same, at_j]

/-- Nothing is left pending exactly if no name is listed twice. -/
theorem terminal_iff_nodup {names : List String} {told : String → Status × String}
    {cs : List ComponentStatus} (tells : InfraStore.Tells names told cs)
    (terminal : ∀ name, (told name).1.isTerminal = true) :
    (∀ x ∈ cs, x.status.state.isTerminal = true) ↔ names.Nodup := by
  rw [nodup_iff_not_mem_take]
  constructor
  · intro all i name at_i again
    rw [← tells.listed, List.getElem?_map] at at_i
    obtain ⟨x, found, rfl⟩ := Option.map_eq_some_iff.1 at_i
    have pending : x.status.state = .pending := congrArg Prod.fst (tells.further i x found again)
    have settled := all x (List.mem_of_getElem? found)
    rw [pending] at settled
    nomatch settled
  · intro fresh x mem
    obtain ⟨i, at_i⟩ := List.mem_iff_getElem?.1 mem
    have named : names[i]? = some x.name := by
      rw [← tells.listed, List.getElem?_map, at_i, Option.map_some]
    have state : x.status.state = (told x.name).1 :=
      congrArg Prod.fst (tells.first i x at_i (fresh i x.name named))
    rw [state]
    exact terminal x.name

/-- Whatever comes of the command and whatever was there before, the components are those
configured, and the first of each name tells how the step came out.  Only another component of the
same name is left as it was listed. -/
theorem components_told (c : StepsConfig) (run : Invocation → Run) (now : Timestamp) (call : Call)
    (infra : call.task = .infrastructure) (s s' : Site S)
    (reporting : Workflow.Reporting s (carryOut c run now call).1 s') :
    ComponentsTold c.infraComponents (stepName call) (carryOut c run now call).2
      s'.payload.infra.components := by
  obtain ⟨logged, result, reports, came_out⟩ := carryOut_infrastructure c run now infra
  rw [reports] at reporting
  have tells := tells_of_infraProgress reporting
  refine ⟨tells.listed, ?_, tells.further, terminal_iff_nodup tells fun _ ↦ ?_⟩
  · rcases came_out with ⟨⟨a, returned⟩, rfl⟩ | ⟨f, failed, rfl⟩
    · exact .inl ⟨a, returned, tells.first⟩
    · exact .inr ⟨f, failed, tells.first⟩
  · rcases came_out with ⟨-, rfl⟩ | ⟨f, -, rfl⟩ <;> rfl

def failingUpgrade : StepsConfig := { infraUpgrade := some "exit 3" }

def exits (code : Nat) : Invocation → Run := fun _ ↦ .ended { status := .exited code }

def staleSite : Site UpgradeState :=
  { engine := .start 0 (UpgradeState.table .linux false) .new
    payload := { infra := { components := [{ name := "etcd" }] } } }

/-- Both components of the upgrade have failed. -/
theorem failed_upgrade_told :
    Call.upgradeInfrastructure.task = .infrastructure ∧
      ∃ s', Workflow.Reporting staleSite
          (carryOut failingUpgrade (exits 3) .epoch .upgradeInfrastructure).1 s' ∧
        ComponentsTold ["runtime", "storage"] "infrastructure upgrade"
          (carryOut failingUpgrade (exits 3) .epoch .upgradeInfrastructure).2
          s'.payload.infra.components ∧
        s'.payload.infra.components.map (·.status.told) =
          [(.failed, "infrastructure upgrade command failed with exit status: 3"),
            (.failed, "infrastructure upgrade command failed with exit status: 3")] := by
  have reporting := Workflow.reporting_run staleSite
    (carryOut failingUpgrade (exits 3) .epoch .upgradeInfrastructure).1
  exact ⟨rfl, _, reporting, components_told failingUpgrade (exits 3) .epoch .upgradeInfrastructure
    rfl staleSite _ reporting, rfl⟩

/-- An upgrade of the infrastructure with nothing to run, and two components of one name. -/
def twinComponents : StepsConfig := { infraComponents := ["node", "node"] }

/-- The second of two components of one name is left behind. -/
theorem twin_left_pending :
    ¬∀ (c : StepsConfig) (run : Invocation → Run) (now : Timestamp) (call : Call),
      call.task = .infrastructure → ∀ s s' : Site UpgradeState,
        Workflow.Reporting s (carryOut c run now call).1 s' →
          ∀ x ∈ s'.payload.infra.components, x.status.state.isTerminal = true := by
  intro all
  have reporting := Workflow.reporting_run staleSite
    (carryOut twinComponents (exits 0) .epoch .upgradeInfrastructure).1
  have second : (⟨"node", ⟨.pending, "", .epoch⟩⟩ : ComponentStatus) ∈
      ((((carryOut twinComponents (exits 0) .epoch .upgradeInfrastructure).1.forM
        (Workflow.note .infrastructure)).run staleSite).2).payload.infra.components :=
    .tail _ (.head _)
  nomatch all _ _ _ _ rfl _ _ reporting _ second

end Steps
end Rollout
