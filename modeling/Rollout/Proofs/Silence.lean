import Rollout.Proofs.Decoding
import Rollout.Proofs.Simulation
import Rollout.Steps.Command

/-!
# Checks that fail in silence

A command that makes checks reports on them in its output, or tells by its exit status alone how
they came out.  The report wins: where the output can be read as one, the status is not looked at.
But a report need not tell of any check.  An empty object is one, and so is any object without the
groups that a report consists of (`Json.Tree.Silent` tells which documents are).  A command that
fails and prints such a report has made checks that pass; after any other output without a check
in it, its failure closes the gate (`unreported_failures_settle`).
-/

namespace Rollout

/-! ### The groups of a report -/

/-- The groups that a report consists of. -/
inductive PreflightGroup where
  | pass
  | warn
  | fail
  deriving DecidableEq, Repr

namespace PreflightGroup

/-- Every group, in the order of a report. -/
def all : List PreflightGroup := [pass, warn, fail]

def name : PreflightGroup → String
  | pass => "pass"
  | warn => "warn"
  | fail => "fail"

def index : PreflightGroup → Nat
  | pass => 0
  | warn => 1
  | fail => 2

theorem index_inj {g g' : PreflightGroup} : g.index = g'.index ↔ g = g' := by
  cases g <;> cases g' <;> decide

theorem name_inj {g g' : PreflightGroup} : g.name = g'.name ↔ g = g' := by
  cases g <;> cases g' <;> decide

end PreflightGroup

namespace PreflightOutput

def group (o : PreflightOutput) : PreflightGroup → List PreflightRecord
  | .pass => o.pass
  | .warn => o.warn
  | .fail => o.fail

/-- Replace the checks of a group. -/
def withGroup (g : PreflightGroup) (l : List PreflightRecord) (o : PreflightOutput) :
    PreflightOutput :=
  match g with
  | .pass => { o with pass := l }
  | .warn => { o with warn := l }
  | .fail => { o with fail := l }

variable {g g' : PreflightGroup} {l : List PreflightRecord} {o o' : PreflightOutput}

@[simp] theorem group_withGroup : (o.withGroup g l).group g = l := by cases g <;> rfl

theorem group_withGroup_of_ne (h : g ≠ g') : (o.withGroup g' l).group g = o.group g := by
  cases g <;> cases g' <;> first | rfl | exact absurd rfl h

@[simp] theorem withGroup_nil_empty : withGroup g [] {} = {} := by cases g <;> rfl

@[simp] theorem group_empty : ({} : PreflightOutput).group g = [] := by cases g <;> rfl

/-- A report that tells of no check is the empty one. -/
theorem titles_eq_nil_iff : o.titles = [] ↔ o = {} := by
  obtain ⟨pass, warn, fail⟩ := o
  simp [titles]

def groupField (g : PreflightGroup) : Json.Field PreflightOutput :=
  .defaulted [g.name] (.list PreflightRecord.decoder) (withGroup g)

theorem decoder_eq : decoder = .record {} (PreflightGroup.all.map groupField) := rfl

end PreflightOutput

namespace Json

open PreflightOutput

/-! ### Documents that report no check -/

/-- An array without items. -/
inductive Tree.EmptyArray : Tree → Prop
  | intro (skip : Option Fault) : EmptyArray (.array [] .closed skip)

/-- Members of a report that tells of no check: each group comes once at most and is empty, and what
is no group can be passed over. -/
structure SilentMembers (members : List (Lexeme String × Tree)) : Prop where
  each : ∀ m ∈ members,
    (∃ g : PreflightGroup, m.1.value = .ok g.name ∧ m.2.EmptyArray) ∨
      ∃ name, m.1.value = .ok name ∧ (∀ g : PreflightGroup, name ≠ g.name) ∧ m.2.skip = none
  once : members.Pairwise fun m m' ↦
    ∀ g : PreflightGroup, m.1.value = .ok g.name → m'.1.value ≠ .ok g.name

/-- A document that is a report, and tells of no check. -/
inductive Tree.Silent : Tree → Prop
  | array {items : List Tree} (skip : Option Fault) (few : items.length ≤ PreflightGroup.all.length)
      (each : ∀ t ∈ items, t.EmptyArray) : Silent (.array items .closed skip)
  | object {members : List (Lexeme String × Tree)} (skip : Option Fault)
      (silent : SilentMembers members) : Silent (.object members .closed skip)

variable {depth : Nat} {ending : Ending} {seen : List Nat} {g g' : PreflightGroup}
  {gs : List PreflightGroup} {items : List Tree} {key : Lexeme String} {t : Tree}
  {members : List (Lexeme String × Tree)} {o o' : PreflightOutput}

/-- Only an array without items is an empty list. -/
theorem list_eq_nil_iff {α : Type} {d : Decoder α} :
    Decoder.list d (depth + 2) t = .ok [] ↔ t.EmptyArray := by
  constructor
  · intro read
    cases t with
    | array items ending skip =>
      obtain ⟨as, decoded, read⟩ := of_bind_ok (Decoder.of_entered read)
      obtain ⟨u, closed, read⟩ := of_bind_ok read
      obtain rfl := Decoder.ended_eq_ok_iff.1 closed
      cases items with
      | nil => exact .intro skip
      | cons t more =>
        rw [List.mapM_cons] at decoded
        obtain ⟨a, -, decoded⟩ := of_bind_ok decoded
        obtain ⟨rest, -, decoded⟩ := of_bind_ok decoded
        cases decoded
        nomatch read
    | _ => nomatch read
  · rintro ⟨skip⟩
    rfl

/-- The field of a group replaces it by the list that it reads. -/
theorem read_groupField {set : PreflightOutput → PreflightOutput} :
    (groupField g).read depth t = .ok set ↔
      ∃ l, Decoder.list PreflightRecord.decoder depth t = .ok l ∧ set = withGroup g l := by
  constructor
  · intro read
    obtain ⟨l, decoded, rfl⟩ := of_map_ok read
    exact ⟨l, decoded, rfl⟩
  · rintro ⟨l, decoded, rfl⟩
    show (Decoder.list PreflightRecord.decoder depth t).map (withGroup g) = _
    rw [decoded]
    rfl

/-! ### Reports as arrays -/

theorem fillInOrder_nil_iff :
    Decoder.fillInOrder depth ending (gs.map groupField) [] o = .ok o' ↔
      ending = .closed ∧ o = o' := by
  induction gs with
  | nil =>
    rw [List.map_nil, Decoder.fillInOrder, bind_eq_ok_iff]
    simp [Decoder.ended_eq_ok_iff]
  | cons g gs ih =>
    rw [List.map_cons, Decoder.fillInOrder, bind_eq_ok_iff]
    constructor
    · rintro ⟨-, -, filled⟩
      exact ih.1 filled
    · rintro ⟨closed, same⟩
      exact ⟨(), Decoder.ended_eq_ok_iff.2 closed, ih.2 ⟨closed, same⟩⟩

theorem fillInOrder_cons_iff :
    Decoder.fillInOrder depth ending ((g :: gs).map groupField) (t :: items) o = .ok o' ↔
      ∃ l, Decoder.list PreflightRecord.decoder depth t = .ok l ∧
        Decoder.fillInOrder depth ending (gs.map groupField) items (o.withGroup g l) = .ok o' := by
  rw [List.map_cons, Decoder.fillInOrder, bind_eq_ok_iff]
  constructor
  · rintro ⟨set, read, filled⟩
    obtain ⟨l, decoded, rfl⟩ := read_groupField.1 read
    exact ⟨l, decoded, filled⟩
  · rintro ⟨l, decoded, filled⟩
    exact ⟨withGroup g l, read_groupField.2 ⟨l, decoded, rfl⟩, filled⟩

/-- A group that is not in the list is kept. -/
theorem group_of_fillInOrder (absent : g ∉ gs)
    (filled : Decoder.fillInOrder depth ending (gs.map groupField) items o = .ok o') :
    o'.group g = o.group g := by
  induction gs generalizing items o with
  | nil =>
    cases items with
    | nil => rw [(fillInOrder_nil_iff.1 filled).2]
    | cons t more => nomatch filled
  | cons g' gs ih =>
    obtain ⟨other, absent⟩ := List.ne_and_not_mem_of_not_mem_cons absent
    cases items with
    | nil => rw [(fillInOrder_nil_iff.1 filled).2]
    | cons t more =>
      obtain ⟨l, -, filled⟩ := fillInOrder_cons_iff.1 filled
      exact (ih absent filled).trans (group_withGroup_of_ne other)

/-- An array fills in nothing exactly if its items are empty: no later item undoes what an earlier
one has filled in. -/
theorem fillInOrder_empty_iff (distinct : gs.Nodup) :
    Decoder.fillInOrder (depth + 2) ending (gs.map groupField) items {} = .ok {} ↔
      ending = .closed ∧ items.length ≤ gs.length ∧ ∀ t ∈ items, t.EmptyArray := by
  induction gs generalizing items with
  | nil =>
    cases items with
    | nil =>
      rw [fillInOrder_nil_iff]
      simp
    | cons t more => exact ⟨nofun, fun ⟨_, few, _⟩ ↦ absurd few (Nat.not_succ_le_zero _)⟩
  | cons g gs ih =>
    obtain ⟨absent, distinct⟩ := List.nodup_cons.1 distinct
    cases items with
    | nil =>
      rw [fillInOrder_nil_iff]
      simp
    | cons t more =>
      rw [fillInOrder_cons_iff, List.forall_mem_cons, List.length_cons, List.length_cons,
        Nat.succ_le_succ_iff]
      constructor
      · rintro ⟨l, decoded, filled⟩
        have kept := group_of_fillInOrder absent filled
        rw [group_withGroup, group_empty] at kept
        subst kept
        rw [withGroup_nil_empty] at filled
        obtain ⟨closed, few, each⟩ := (ih distinct).1 filled
        exact ⟨closed, few, list_eq_nil_iff.1 decoded, each⟩
      · rintro ⟨closed, few, empty, each⟩
        refine ⟨[], list_eq_nil_iff.2 empty, ?_⟩
        rw [withGroup_nil_empty]
        exact (ih distinct).2 ⟨closed, few, each⟩

/-! ### Reports as objects -/

abbrev groupFields : List (Field PreflightOutput) := PreflightGroup.all.map groupField

theorem find?_group (g : PreflightGroup) :
    groupFields.zipIdx.find? (·.1.names.contains g.name) = some (groupField g, g.index) := by
  cases g <;> rfl

theorem find?_other {name : String} (other : ∀ g : PreflightGroup, name ≠ g.name) :
    groupFields.zipIdx.find? (·.1.names.contains name) = none := by
  refine List.find?_eq_none.2 fun x mem named ↦ ?_
  obtain ⟨g, -, field⟩ := List.mem_map.1 (List.fst_mem_of_mem_zipIdx mem)
  rw [← field] at named
  exact other g (List.mem_singleton.1 (List.contains_iff_mem.1 named))

/-- The end of an object leaves the report as it is, since no group has to be there. -/
theorem fillByName_nil_iff :
    Decoder.fillByName depth groupFields ending [] seen o = .ok o' ↔
      ending = .closed ∧ o = o' := by
  have complete : (groupFields.zipIdx.any fun f ↦ f.1.required && !seen.contains f.2) = false := rfl
  rw [Decoder.fillByName, complete, bind_eq_ok_iff]
  simp [Decoder.ended_eq_ok_iff]

/-- A member fills a group that has not been filled, or is no group and is passed over. -/
theorem fillByName_cons_iff :
    Decoder.fillByName depth groupFields ending ((key, t) :: members) seen o = .ok o' ↔
      (∃ g : PreflightGroup, key.value = .ok g.name ∧ g.index ∉ seen ∧
        ∃ l, Decoder.list PreflightRecord.decoder depth t = .ok l ∧
          Decoder.fillByName depth groupFields ending members (g.index :: seen)
            (o.withGroup g l) = .ok o') ∨
      ∃ name, key.value = .ok name ∧ (∀ g : PreflightGroup, name ≠ g.name) ∧ t.skip = none ∧
        Decoder.fillByName depth groupFields ending members seen o = .ok o' := by
  rw [Decoder.fillByName, bind_eq_ok_iff]
  constructor
  · rintro ⟨name, named, filled⟩
    by_cases known : ∃ g : PreflightGroup, name = g.name
    · obtain ⟨g, rfl⟩ := known
      rw [find?_group] at filled
      dsimp only at filled
      split at filled
      · nomatch filled
      · rename_i fresh
        obtain ⟨set, read, filled⟩ := of_bind_ok filled
        obtain ⟨l, decoded, rfl⟩ := read_groupField.1 read
        exact .inl ⟨g, named, fun mem ↦ fresh (List.contains_iff_mem.2 mem), l, decoded, filled⟩
    · have other : ∀ g : PreflightGroup, name ≠ g.name := fun g same ↦ known ⟨g, same⟩
      rw [find?_other other] at filled
      dsimp only at filled
      split at filled
      · nomatch filled
      · rename_i skipped
        exact .inr ⟨name, named, other, skipped, filled⟩
  · rintro (⟨g, named, fresh, l, decoded, filled⟩ | ⟨name, named, other, skipped, filled⟩)
    · refine ⟨g.name, named, ?_⟩
      rw [find?_group]
      dsimp only
      rw [if_neg fun mem ↦ fresh (List.contains_iff_mem.1 mem), bind_eq_ok_iff]
      exact ⟨withGroup g l, read_groupField.2 ⟨l, decoded, rfl⟩, filled⟩
    · refine ⟨name, named, ?_⟩
      rw [find?_other other]
      dsimp only
      rw [skipped]
      exact filled

/-- A group that has been filled is kept. -/
theorem group_of_fillByName (filled_before : g.index ∈ seen)
    (filled : Decoder.fillByName depth groupFields ending members seen o = .ok o') :
    o'.group g = o.group g := by
  induction members generalizing seen o with
  | nil => rw [(fillByName_nil_iff.1 filled).2]
  | cons m more ih =>
    rcases fillByName_cons_iff.1 filled with
      ⟨g', -, fresh, l, -, filled⟩ | ⟨name, -, -, -, filled⟩
    · have other : g ≠ g' := by
        rintro rfl
        exact fresh filled_before
      exact (ih (List.mem_cons_of_mem _ filled_before) filled).trans (group_withGroup_of_ne other)
    · exact ih filled_before filled

theorem group_unique (named : key.value = .ok g.name) (named' : key.value = .ok g'.name) : g = g' :=
  PreflightGroup.name_inj.1 (Except.ok.inj (named.symm.trans named'))

/-- A silent object goes on with an empty group that it does not name again, or with something else
that is no error. -/
theorem silentMembers_cons_iff : SilentMembers ((key, t) :: members) ↔ SilentMembers members ∧
    ((∃ g : PreflightGroup, key.value = .ok g.name ∧ t.EmptyArray ∧
        ∀ m ∈ members, m.1.value ≠ .ok g.name) ∨
      ∃ name, key.value = .ok name ∧ (∀ g : PreflightGroup, name ≠ g.name) ∧ t.skip = none) := by
  constructor
  · rintro ⟨each, once⟩
    obtain ⟨here, each⟩ := List.forall_mem_cons.1 each
    obtain ⟨apart, once⟩ := List.pairwise_cons.1 once
    refine ⟨⟨each, once⟩, here.imp_left ?_⟩
    rintro ⟨g, named, empty⟩
    exact ⟨g, named, empty, fun m mem ↦ apart m mem g named⟩
  · rintro ⟨⟨each, once⟩, ⟨g, named, empty, apart⟩ | ⟨name, named, other, skipped⟩⟩
    · refine ⟨List.forall_mem_cons.2 ⟨.inl ⟨g, named, empty⟩, each⟩,
        List.pairwise_cons.2 ⟨fun m mem g' named' ↦ ?_, once⟩⟩
      obtain rfl := group_unique named named'
      exact apart m mem
    · refine ⟨List.forall_mem_cons.2 ⟨.inr ⟨name, named, other, skipped⟩, each⟩,
        List.pairwise_cons.2 ⟨fun m _ g named' ↦ ?_, once⟩⟩
      exact absurd (Except.ok.inj (named.symm.trans named')) (other g)

/-- An object fills in nothing exactly if it is silent: no later member undoes what an earlier one
has filled in. -/
theorem fillByName_empty_iff :
    Decoder.fillByName (depth + 2) groupFields ending members seen {} = .ok {} ↔
      ending = .closed ∧ SilentMembers members ∧
        ∀ m ∈ members, ∀ g : PreflightGroup, m.1.value = .ok g.name → g.index ∉ seen := by
  induction members generalizing seen with
  | nil =>
    rw [fillByName_nil_iff]
    exact ⟨fun ⟨closed, _⟩ ↦ ⟨closed, ⟨nofun, .nil⟩, nofun⟩, fun ⟨closed, _⟩ ↦ ⟨closed, rfl⟩⟩
  | cons m more ih =>
    obtain ⟨key, t⟩ := m
    rw [fillByName_cons_iff, silentMembers_cons_iff, List.forall_mem_cons]
    constructor
    · rintro (⟨g, named, fresh, l, decoded, filled⟩ | ⟨name, named, other, skipped, filled⟩)
      · have kept := group_of_fillByName List.mem_cons_self filled
        rw [group_withGroup, group_empty] at kept
        subst kept
        rw [withGroup_nil_empty] at filled
        obtain ⟨closed, silent, unseen⟩ := ih.1 filled
        have apart : ∀ m ∈ more, m.1.value ≠ .ok g.name := fun m mem again ↦
          unseen m mem g again List.mem_cons_self
        refine ⟨closed, ⟨silent, .inl ⟨g, named, list_eq_nil_iff.1 decoded, apart⟩⟩, ?_, ?_⟩
        · exact fun g' named' ↦ group_unique named named' ▸ fresh
        · exact fun m mem g' named' before ↦
            unseen m mem g' named' (List.mem_cons_of_mem _ before)
      · obtain ⟨closed, silent, unseen⟩ := ih.1 filled
        refine ⟨closed, ⟨silent, .inr ⟨name, named, other, skipped⟩⟩, fun g named' ↦ ?_, unseen⟩
        exact absurd (Except.ok.inj (named.symm.trans named')) (other g)
    · rintro ⟨closed, ⟨silent, ⟨g, named, empty, apart⟩ | ⟨name, named, other, skipped⟩⟩,
        fresh, unseen⟩
      · refine .inl ⟨g, named, fresh g named, [], list_eq_nil_iff.2 empty, ?_⟩
        rw [withGroup_nil_empty]
        refine ih.2 ⟨closed, silent, fun m mem g' named' before ↦ ?_⟩
        rcases List.mem_cons.1 before with same | before
        · obtain rfl := PreflightGroup.index_inj.1 same
          exact apart m mem named'
        · exact unseen m mem g' named' before
      · exact .inr ⟨name, named, other, skipped, ih.2 ⟨closed, silent, unseen⟩⟩

/-- Exactly the silent documents are decoded to the empty report. -/
theorem decoder_eq_empty_iff : PreflightOutput.decoder (depth + 3) t = .ok {} ↔ t.Silent := by
  rw [decoder_eq]
  constructor
  · intro decoded
    cases t with
    | array items ending skip =>
      obtain ⟨rfl, few, each⟩ := (fillInOrder_empty_iff (by decide)).1 (Decoder.of_entered decoded)
      exact .array skip few each
    | object members ending skip =>
      obtain ⟨rfl, silent, -⟩ := fillByName_empty_iff.1 (Decoder.of_entered decoded)
      exact .object skip silent
    | _ => nomatch decoded
  · rintro (⟨skip, few, each⟩ | ⟨skip, silent⟩)
    · exact (fillInOrder_empty_iff (by decide)).2 ⟨rfl, few, each⟩
    · exact fillByName_empty_iff.2 ⟨rfl, silent, fun _ _ _ _ ↦ List.not_mem_nil⟩

end Json

/-! ### What a command has made of its checks -/

namespace Steps

/-- The command has reported a check. -/
def ReportsCheck (o : CommandOutput) : Prop :=
  ∃ report, reported? o = some report ∧ report.titles ≠ []

/-- The command has printed a report that tells of no check. -/
def PrintsSilence (o : CommandOutput) : Prop :=
  let doc := Json.Document.ofString (Text.trim (drained o.stdout))
  doc.root.Silent ∧ doc.trailing = false

/-- What becomes of the checks of a command that has failed and reported none of them. -/
structure Unreported (o : CommandOutput) : Prop where
  fails : ¬PrintsSilence o → ∀ title, checks title o =
    { fail := [⟨title, "Checks failed with " ++ o.status.text ++ ": " ++ lastLine o⟩] }
  passes : PrintsSilence o → ∀ title, checks title o = {}

variable {o : CommandOutput}

theorem reported?_eq_some_iff {report : PreflightOutput} : reported? o = some report ↔
    PreflightOutput.decoder.fromText (Text.trim (drained o.stdout)) = .ok report := by
  unfold reported?
  cases PreflightOutput.decoder.fromText (Text.trim (drained o.stdout)) <;> simp [Except.toOption]

/-- An empty report is found exactly if silence has been printed. -/
theorem reported?_eq_empty_iff : reported? o = some {} ↔ PrintsSilence o := by
  rw [reported?_eq_some_iff, Json.Decoder.fromText_eq_ok_iff]
  exact and_congr_left fun _ ↦ Json.decoder_eq_empty_iff

/-- An error in an object of another form is passed over like any other member. -/
example : reported? ⟨.exited 1, Text.bytes "\x7b\"error\": \"disk full\"\x7d", []⟩ = some {} := by
  decide +kernel

/-- A command that has failed and reported no check comes to one failed check, or to none if it has
printed silence. -/
theorem unreported (failed : o.status.isSuccess = false) (none_reported : ¬ReportsCheck o) :
    Unreported o where
  fails loud title := by
    have no_report : reported? o = none := by
      refine Option.eq_none_iff_forall_ne_some.2 fun report found ↦ ?_
      refine none_reported ⟨report, found, fun empty ↦ ?_⟩
      obtain rfl := PreflightOutput.titles_eq_nil_iff.1 empty
      exact loud (reported?_eq_empty_iff.1 found)
    unfold checks
    rw [no_report, failed]
    rfl
  passes silent title := by
    unfold checks
    rw [reported?_eq_empty_iff.2 silent]

/-- Checks return what the report of their command says. -/
theorem carryOut_checks {c : StepsConfig} {run : Invocation → Run} {scope : PreflightScope}
    {command : String} (now : Timestamp) (configured : c.preflights scope = some command)
    (ended : run (invocation c (.preflights scope) command) = .ended o) :
    (carryOut c run now (.preflights scope)).2 =
      .returned (checks (checkTitle scope) o : PreflightOutput) := by
  show outcome (runChecks c run scope) = _
  unfold runChecks
  rw [configured]
  dsimp only
  rw [ended]
  rfl

end Steps

/-! ### Where the checks settle -/

variable {S : Type} [DecidableEq S]

/-- The checks of a scope are in flight, and the command that is run for them leaves this
behind. -/
structure Session.Checking (s : Session S) (c : StepsConfig) (run : Steps.Invocation → Steps.Run)
    (scope : PreflightScope) (o : Steps.CommandOutput) : Prop where
  flying : s.job.map (·.call) = some (.preflights scope)
  ended : ∃ command, c.preflights scope = some command ∧
    run (Steps.invocation c (.preflights scope) command) = .ended o

/-- The state after checks whose command has failed and reported none of them. -/
structure SettledUnreported (o : Steps.CommandOutput) (passed closed current : S) : Prop where
  closes : ¬Steps.PrintsSilence o → current = closed
  passes : Steps.PrintsSilence o → current = passed

variable [ToString S]

/-- The session after its job has been carried out by a command. -/
def Session.carriedOut (s : Session S) (w : Workflow S) (c : StepsConfig)
    (run : Steps.Invocation → Steps.Run) (now : Timestamp) : Session S :=
  (s.next w (.complete fun call ↦ (Steps.carryOut c run now call).2)).2

namespace Session

variable {w : Workflow S} {s : Session S} {scope : PreflightScope} {gate : Gate S} {passed : S}

/-- Checks that return settle as succeeded, unless some of them failed. -/
theorem Consistent.checked (consistent : s.Consistent w) (sound : w.plan.Sound w.options)
    (gated : w.plan.gate scope = some gate)
    (passes : ∀ stages, w.plan.stages w.options (.task (.preflights scope)) = .ok stages →
      stages.succeeded = passed)
    (flying : s.job.map (·.call) = some (.preflights scope))
    {outcome : (call : Call) → Outcome call.task.Value} {output : PreflightOutput}
    (returned : outcome (.preflights scope) = .returned output) :
    (s.next w (.complete outcome)).2.site.engine.current =
      if output.hasFailures then gate.closed else passed := by
  obtain ⟨⟨running, call⟩, found, calling⟩ := Option.map_eq_some_iff.1 flying
  obtain rfl : call = .preflights scope := calling
  obtain ⟨-, -, has⟩ := consistent.busy _ found
  rw [next_complete sound consistent found, returned]
  show (w.settledChecks scope output).getD running.stages.succeeded = _
  rw [passes _ (Plan.mem_activities.1 has)]
  unfold Workflow.settledChecks
  cases output.hasFailures with
  | true => rw [gated]; rfl
  | false => rfl

/-- Checks that have failed without a report settle as failed, unless silence has been printed. -/
theorem Consistent.settledUnreported (consistent : s.Consistent w)
    (sound : w.plan.Sound w.options) (gated : w.plan.gate scope = some gate)
    (passes : ∀ stages, w.plan.stages w.options (.task (.preflights scope)) = .ok stages →
      stages.succeeded = passed)
    {o : Steps.CommandOutput} (unreported : Steps.Unreported o) {c : StepsConfig}
    {run : Steps.Invocation → Steps.Run} (checking : s.Checking c run scope o) (now : Timestamp) :
    SettledUnreported o passed gate.closed (s.carriedOut w c run now).site.engine.current := by
  obtain ⟨command, configured, ended⟩ := checking.ended
  have returned := Steps.carryOut_checks now configured ended
  have settles : (s.carriedOut w c run now).site.engine.current = _ :=
    consistent.checked sound gated passes checking.flying returned
  refine ⟨fun loud ↦ settles.trans ?_, fun silent ↦ settles.trans ?_⟩
  · rw [unreported.fails loud]
    rfl
  · rw [unreported.passes silent]
    rfl

end Session

theorem InstallState.succeeded_of_host_checks {o : Options} {stages : Stages InstallState}
    (has : InstallState.plan.stages o (.task (.preflights .host)) = .ok stages) :
    stages.succeeded = .hostPreflightsSucceeded := by
  obtain ⟨⟨⟩, airgap, host, app⟩ := o
  · cases has
    rfl
  · nomatch has

/-- If a command that makes checks has failed and reported none of them, one check stands for it
that has failed, and its run settles behind the gate.  Only if it has printed a report that tells of
no check, there is none, and its run settles as succeeded. -/
theorem unreported_failures_settle (options : Options) (schema : AppConfigSchema)
    (titles : PreflightScope → List String) (values : Option ConfigValues) (start : Timestamp)
    (events : List Event) (c : StepsConfig) (run : Steps.Invocation → Steps.Run) (now : Timestamp)
    (o : Steps.CommandOutput) (failed : o.status.isSuccess = false)
    (unreported : ¬Steps.ReportsCheck o) :
    Steps.Unreported o ∧
      (let install := Workflow.install options schema titles
        let s := install.after values start events
        (s.Checking c run .host o →
          SettledUnreported o .hostPreflightsSucceeded .hostPreflightsFailed
            (s.carriedOut install c run now).site.engine.current) ∧
        (s.Checking c run .app o →
          SettledUnreported o .appPreflightsSucceeded .appPreflightsFailed
            (s.carriedOut install c run now).site.engine.current)) ∧
      let upgrade := Workflow.upgrade options schema titles
      let s := upgrade.after values start events
      s.Checking c run .app o →
        SettledUnreported o .appPreflightsSucceeded .appPreflightsFailed
          (s.carriedOut upgrade c run now).site.engine.current := by
  have judged := Steps.unreported failed unreported
  have installs := InstallState.plan_sound options
  have upgrades := UpgradeState.plan_sound options
  have install := (Workflow.install options schema titles).consistent_after installs values start
    events
  have upgrade := (Workflow.upgrade options schema titles).consistent_after upgrades values start
    events
  refine ⟨judged, ⟨fun checking ↦ ?_, fun checking ↦ ?_⟩, fun checking ↦ ?_⟩
  · have gated : InstallState.plan.gate .host = some (InstallState.gate .host) := rfl
    exact install.settledUnreported installs gated (fun _ ↦ InstallState.succeeded_of_host_checks)
      judged checking now
  · have gated : InstallState.plan.gate .app = some (InstallState.gate .app) := rfl
    exact install.settledUnreported installs gated (fun _ has ↦ by cases has; rfl) judged checking
      now
  · have gated : UpgradeState.plan.gate .app =
        some ⟨.appPreflightsFailed, .appPreflightsFailedBypassed⟩ := rfl
    exact upgrade.settledUnreported upgrades gated (fun _ has ↦ by cases has; rfl) judged checking
      now

def hostCommand : StepsConfig := { hostPreflights := some "check-hosts" }

def checkedInstall : Workflow InstallState := .install {} {} (Steps.titles hostCommand)

/-- The installation comes to its checks. -/
def toHostChecks : List Event :=
  [.act (.patchValues .empty), .act (.configureInstallation {}),
    .act (.begin (.preflights .host) false)]

/-- The command has explained its failure, in no report. -/
def explainedFailure : Steps.CommandOutput :=
  { status := .exited 1, stderr := Text.bytes "disk full\n" }

/-- Its failure closes the gate. -/
theorem explained_failure_closes :
    explainedFailure.status.isSuccess = false ∧ ¬Steps.ReportsCheck explainedFailure ∧
      (checkedInstall.after none .epoch toHostChecks).Checking hostCommand
        (fun _ ↦ .ended explainedFailure) .host explainedFailure ∧
      Steps.checks "Host preflight checks" explainedFailure =
        { fail := [⟨"Host preflight checks", "Checks failed with exit status: 1: disk full"⟩] } ∧
      ((checkedInstall.after none .epoch toHostChecks).carriedOut checkedInstall hostCommand
        (fun _ ↦ .ended explainedFailure) .epoch).site.engine.current = .hostPreflightsFailed := by
  have no_report : Steps.reported? explainedFailure = none := by decide +kernel
  have unreported : ¬Steps.ReportsCheck explainedFailure := by
    rintro ⟨report, found, -⟩
    nomatch no_report.symm.trans found
  have loud : ¬Steps.PrintsSilence explainedFailure := fun silent ↦
    nomatch no_report.symm.trans (Steps.reported?_eq_empty_iff.2 silent)
  have checking : (checkedInstall.after none .epoch toHostChecks).Checking hostCommand
      (fun _ ↦ .ended explainedFailure) .host explainedFailure := ⟨rfl, "check-hosts", rfl, rfl⟩
  obtain ⟨judged, ⟨host, -⟩, -⟩ := unreported_failures_settle {} {} (Steps.titles hostCommand) none
    .epoch toHostChecks hostCommand (fun _ ↦ .ended explainedFailure) .epoch explainedFailure rfl
    unreported
  refine ⟨rfl, unreported, checking, (judged.fails loud _).trans ?_, (host checking).closes loud⟩
  decide +kernel

/-- The command has printed an empty object, and failed. -/
def emptyReport : Steps.CommandOutput := { status := .exited 1, stdout := Text.bytes "\x7b\x7d\n" }

/-- Its failure has got lost, and the gate is open. -/
theorem empty_report_passes :
    emptyReport.status.isSuccess = false ∧ ¬Steps.ReportsCheck emptyReport ∧
      (Steps.checks "Host preflight checks" emptyReport).fail = [] ∧
      ((checkedInstall.after none .epoch toHostChecks).carriedOut checkedInstall hostCommand
        (fun _ ↦ .ended emptyReport) .epoch).site.engine.current = .hostPreflightsSucceeded := by
  have empty : Steps.reported? emptyReport = some {} := by decide +kernel
  refine ⟨rfl, ?_, by decide +kernel, by decide +kernel⟩
  rintro ⟨report, found, reports⟩
  obtain rfl := Option.some.inj (empty.symm.trans found)
  exact reports rfl

end Rollout
