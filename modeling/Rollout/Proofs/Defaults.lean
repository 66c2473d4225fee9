import Rollout.Proofs.Overriding
import Rollout.Proofs.Provenance
import Rollout.Settings.Basic

/-!
# Defaults that are filled in

A value that a client submits is held against the kind of its item.  A default is not: settings are
loaded without a look at it, and values are checked as they were submitted, a default counting only
where it has to stand in for a required value, and then for not being blank.  What is deployed and
answered has the defaults filled in.  So accepted values stay acceptable exactly if each default
that is filled in happens to be of the kind of its item (`defaults_filled_in`); one that is not
goes out to the application, and would be rejected if it came back (`mistyped_default_goes_out`).
-/

namespace Rollout

/-! ### Names of usable settings -/

namespace Settings

/-- Names are accepted if none is empty and none occurs twice. -/
theorem checkNames_eq_ok_iff {seen names : List String} : checkNames seen names = .ok () ↔
    (∀ n ∈ names, n ≠ "") ∧ names.Nodup ∧ ∀ n ∈ names, n ∉ seen := by
  induction names generalizing seen with
  | nil => simp [checkNames]
  | cons name more ih =>
    rw [checkNames]
    split
    · rename_i empty
      refine ⟨nofun, fun ⟨named, _⟩ ↦ ?_⟩
      exact absurd (String.isEmpty_iff.1 empty) (named name List.mem_cons_self)
    · rename_i named
      rw [String.isEmpty_iff] at named
      split
      · rename_i again
        refine ⟨nofun, fun ⟨_, _, fresh⟩ ↦ ?_⟩
        exact absurd (List.contains_iff_mem.1 again) (fresh name List.mem_cons_self)
      · rename_i fresh
        rw [List.contains_iff_mem] at fresh
        rw [ih, List.nodup_cons, List.forall_mem_cons, List.forall_mem_cons]
        constructor
        · rintro ⟨others, distinct, apart⟩
          refine ⟨⟨named, others⟩, ⟨fun mem ↦ ?_, distinct⟩, fresh, fun n mem before ↦ ?_⟩
          · exact apart name mem List.mem_cons_self
          · exact apart n mem (List.mem_cons_of_mem name before)
        · rintro ⟨⟨-, others⟩, ⟨single, distinct⟩, -, unseen⟩
          refine ⟨others, distinct, fun n mem before ↦ ?_⟩
          rcases List.mem_cons.1 before with rfl | before
          · exact single mem
          · exact unseen n mem before

/-- The items of usable settings have distinct names. -/
theorem distinct_of_validate {s : Settings} (usable : s.validate = .ok ()) :
    (s.appConfig.items.map (·.name)).Nodup := by
  unfold validate at usable
  cases address : s.address with
  | error e =>
    rw [address] at usable
    cases usable
  | ok a =>
    rw [address] at usable
    cases bundle : s.workflow.airgap && decide (s.workflow.target = .kubernetes) with
    | true => simp [bundle, bind, Except.bind] at usable
    | false =>
      have names : checkNames [] (s.appConfig.items.map (·.name)) = .ok () := by
        simpa [bundle, bind, Except.bind] using usable
      exact (checkNames_eq_ok_iff.1 names).2.1

end Settings

namespace AppConfigSchema

variable {s : AppConfigSchema} {v : ConfigValues} {i : AppConfigItem} {key : String} {a : Json}

/-- The default of this item is filled in, and is not of its kind. -/
def Misfilled (s : AppConfigSchema) (v : ConfigValues) (i : AppConfigItem) : Prop :=
  i ∈ s.items ∧ v.get? i.name = none ∧ ∃ d, i.default = some d ∧ ¬i.kind.Takes d

/-- A default that is never filled in: the item has to have a value, and this one is none. -/
def Idle (i : AppConfigItem) (d : Json) : Prop := i.required = true ∧ Blank d

/-- What becomes of accepted values when the defaults are filled in. -/
structure Resolved (s : AppConfigSchema) (v : ConfigValues) : Prop where
  /-- Every value is the accepted one, which is of the kind of its item, or else a default as it
  stands. -/
  values : ∀ key a, (s.resolve v).get? key = some a ↔
    v.get? key = some a ∧ s.Fits key a ∨
      v.get? key = none ∧ ∃ i ∈ s.items, i.name = key ∧ i.default = some a
  accepted_iff : s.validate (s.resolve v) = .ok () ↔ ∀ i, ¬s.Misfilled v i
  /-- Otherwise each default of the wrong kind is reported once, by name, and nothing else. -/
  rejected : ∀ i, s.Misfilled v i → ∃ misfits : List FieldError,
    s.validate (s.resolve v) = .error ⟨misfits⟩ ∧ (misfits.map (·.field)).Pairwise (· < ·) ∧
      ∀ e, e ∈ misfits ↔ ∃ i, s.Misfilled v i ∧ e = ⟨i.name, "must be " ++ i.kind.noun⟩

/-! ### What is checked again -/

section Distinct

variable (distinct : (s.items.map (·.name)).Nodup)

include distinct

/-- An item has the same value as before. -/
theorem effective_resolve (item : i ∈ s.items) :
    ((s.resolve v).get? i.name).or i.default = (v.get? i.name).or i.default := by
  rw [get?_resolve, get?_defaults distinct, (item?_eq_some_iff distinct).2 ⟨item, rfl⟩,
    Option.bind_some, Option.or_assoc, Option.or_self]

/-- No required item loses or gets a value. -/
theorem missing_resolve : s.items.filterMap (requiredError? (s.resolve v)) =
    s.items.filterMap (requiredError? v) := by
  refine List.filterMap_congr fun i item ↦ ?_
  unfold requiredError?
  rw [effective_resolve distinct item]

section Accepted

variable (accepted : s.validate v = .ok ())

include accepted

/-- Accepted values are of the kinds of their items. -/
theorem fits_of_accepted (given : v.get? key = some a) : s.Fits key a :=
  ((errors_eq_nil_iff distinct).1 (ValidationError.check_eq_ok_iff.1 accepted)).1 key a given

/-- Accepted values fill the required items. -/
theorem filled_of_accepted (item : i ∈ s.items) (required : i.required = true) : Filled v i :=
  ((errors_eq_nil_iff distinct).1 (ValidationError.check_eq_ok_iff.1 accepted)).2 i item required

/-- With the defaults filled in, a key has its accepted value, or the default of an item that has
none. -/
theorem get?_resolve_iff : (s.resolve v).get? key = some a ↔
    v.get? key = some a ∧ s.Fits key a ∨
      v.get? key = none ∧ ∃ i ∈ s.items, i.name = key ∧ i.default = some a := by
  rw [get?_resolve, ← get?_defaults_eq_some_iff distinct, Option.or_eq_some_iff]
  refine or_congr_left ⟨fun given ↦ ⟨given, ?_⟩, And.left⟩
  exact fits_of_accepted distinct accepted given

/-- Only what has been checked is left out of the report. -/
theorem errors_resolve :
    s.errors (s.resolve v) = (s.resolve v).entries.filterMap s.valueError? := by
  have none_missing : s.items.filterMap (requiredError? v) = [] :=
    (List.append_eq_nil_iff.1 (ValidationError.check_eq_ok_iff.1 accepted)).2
  unfold errors
  rw [missing_resolve distinct, none_missing, List.append_nil]

/-- What is wrong with the values are the defaults. -/
theorem mem_errors_resolve_iff {e : FieldError} : e ∈ s.errors (s.resolve v) ↔
    ∃ i, s.Misfilled v i ∧ e = ⟨i.name, "must be " ++ i.kind.noun⟩ := by
  rw [errors_resolve distinct accepted, mem_misfits_iff distinct]
  constructor
  · rintro ⟨a, present, misfit⟩
    rcases (get?_resolve_iff distinct accepted).1 present with
      ⟨-, j, item, named, takes⟩ | ⟨absent, j, item, named, default⟩
    · have fits := (valueError?_eq_none_iff distinct).2 ⟨j, item, named, takes⟩
      nomatch fits.symm.trans ((valueError?_eq_some_iff distinct).2 ⟨rfl, misfit⟩)
    · obtain ⟨field, message⟩ := e
      cases misfit with
      | unknown no_item => exact absurd named (no_item j item)
      | @kind i item' named' other =>
        obtain rfl := List.inj_on_of_nodup_map distinct item item' (named.trans named'.symm)
        obtain rfl : j.name = field := named
        exact ⟨j, ⟨item, absent, a, default, other⟩, rfl⟩
  · rintro ⟨i, ⟨item, absent, d, default, other⟩, rfl⟩
    refine ⟨d, ?_, .kind item rfl other⟩
    exact (get?_resolve_iff distinct accepted).2 (.inr ⟨absent, i, item, rfl, default⟩)

/-- What becomes of accepted values when the defaults are filled in. -/
theorem resolved_of_accepted : s.Resolved v where
  values _ _ := get?_resolve_iff distinct accepted
  accepted_iff := by
    refine ValidationError.check_eq_ok_iff.trans ?_
    rw [List.eq_nil_iff_forall_not_mem]
    simp only [mem_errors_resolve_iff distinct accepted]
    constructor
    · exact fun none i misfilled ↦ none _ ⟨i, misfilled, rfl⟩
    · rintro fine e ⟨i, misfilled, -⟩
      exact fine i misfilled
  rejected i misfilled := by
    have reported := (mem_errors_resolve_iff distinct accepted).2 ⟨i, misfilled, rfl⟩
    refine ⟨_, ValidationError.check_of_ne_nil (List.ne_nil_of_mem reported), ?_,
      fun _ ↦ mem_errors_resolve_iff distinct accepted⟩
    rw [errors_resolve distinct accepted]
    exact s.misfits_ascending (s.resolve v)

end Accepted

/-! ### Applications whose accepted values stay acceptable -/

def allBut (s : AppConfigSchema) (name : String) : ConfigValues :=
  (merge .empty (s.fitting .empty)).erase name

omit distinct in
theorem get?_allBut (name key : String) : (s.allBut name).get? key =
    if name = key then none else (s.item? key).map (·.kind.sample) := by
  unfold allBut
  rw [Dict.get?_erase, get?_merge_fitting]

omit distinct in
theorem sample_not_blank (kind : ItemKind) : ¬Blank kind.sample := fun blank ↦
  nomatch (not_missing_sample kind).symm.trans (isMissing_some_iff.2 blank)

/-- An item may be left out if its default can stand in for a value that it has to have. -/
theorem validate_allBut (item : i ∈ s.items)
    (spare : i.required = true → ∃ d, i.default = some d ∧ ¬Blank d) :
    s.validate (s.allBut i.name) = .ok () := by
  refine ValidationError.check_eq_ok_iff.2 ((errors_eq_nil_iff distinct).2 ⟨?_, ?_⟩)
  · intro key a given
    rw [get?_allBut] at given
    split at given
    · cases given
    · obtain ⟨j, found, rfl⟩ := Option.map_eq_some_iff.1 given
      obtain ⟨item', named⟩ := (item?_eq_some_iff distinct).1 found
      exact ⟨j, item', named, ItemKind.accepts_iff.1 (ItemKind.accepts_sample j.kind)⟩
  · intro j item' required
    by_cases same : i.name = j.name
    · obtain rfl := List.inj_on_of_nodup_map distinct item item' same
      obtain ⟨d, default, filled⟩ := spare required
      exact ⟨d, .default ((get?_allBut ..).trans (if_pos rfl)) default, filled⟩
    · refine ⟨j.kind.sample, .own ?_, sample_not_blank j.kind⟩
      rw [get?_allBut, if_neg same, (item?_eq_some_iff distinct).2 ⟨item', rfl⟩, Option.map_some]

/-- All accepted values stay acceptable exactly if each default is of the kind of its item or
idle. -/
theorem stays_acceptable_iff :
    (∀ v, s.validate v = .ok () → s.validate (s.resolve v) = .ok ()) ↔
      ∀ i ∈ s.items, ∀ d, i.default = some d → i.kind.Takes d ∨ Idle i d := by
  constructor
  · intro stays i item d default
    by_contra neither
    obtain ⟨other, busy⟩ := not_or.1 neither
    have accepted : s.validate (s.allBut i.name) = .ok () :=
      validate_allBut distinct item fun required ↦
        ⟨d, default, fun blank ↦ busy ⟨required, blank⟩⟩
    have misfilled : s.Misfilled (s.allBut i.name) i :=
      ⟨item, (get?_allBut ..).trans (if_pos rfl), d, default, other⟩
    exact (resolved_of_accepted distinct accepted).accepted_iff.1 (stays _ accepted) i misfilled
  · intro each v accepted
    refine (resolved_of_accepted distinct accepted).accepted_iff.2 ?_
    rintro i ⟨item, absent, d, default, other⟩
    rcases each i item d default with takes | ⟨required, blank⟩
    · exact other takes
    · obtain ⟨a, effective, filled⟩ := filled_of_accepted distinct accepted item required
      rw [effective_iff, absent, Option.none_or, default] at effective
      exact filled (Option.some.inj effective ▸ blank)

end Distinct

/-- What is deployed in a history are accepted values, with the defaults filled in. -/
def DeploysResolved (s : AppConfigSchema) (h : List Fact) : Prop :=
  ∀ before t ignore call u after, h = before ++ .began t ignore call :: after →
    call.values? = some u → ∃ v, s.validate v = .ok () ∧ u = s.resolve v

/-- Values whose provenance is known are accepted ones with the defaults filled in. -/
theorem deploysResolved {initial : ConfigValues} {h : List Fact}
    (provenance : Provenance s initial h) : s.DeploysResolved h := by
  intro before t ignore call u after eq has_values
  obtain ⟨resolved, accepted, -⟩ := provenance.values before t ignore call u after eq has_values
  exact ⟨_, accepted, resolved⟩

/-- An installation deploys accepted values with the defaults filled in. -/
theorem install_deploysResolved (s : AppConfigSchema) (options : Options)
    (titles : PreflightScope → List String) (values : Option ConfigValues) (now : Timestamp)
    (events : List Event) :
    s.DeploysResolved ((Workflow.install options s titles).history values now events) := by
  have sound := InstallState.plan_sound options
  have trace := (Workflow.install options s titles).trace sound values now events
  exact deploysResolved (trace.provenance sound rfl (InstallState.patches_confirm options)
    fun _ ↦ InstallState.settings_confirm options)

theorem upgrade_deploysResolved (s : AppConfigSchema) (options : Options)
    (titles : PreflightScope → List String) (values : Option ConfigValues) (now : Timestamp)
    (events : List Event) :
    s.DeploysResolved ((Workflow.upgrade options s titles).history values now events) := by
  have sound := UpgradeState.plan_sound options
  have trace := (Workflow.upgrade options s titles).trace sound values now events
  exact deploysResolved (trace.provenance sound rfl (UpgradeState.patches_confirm options)
    (Q := fun _ ↦ True) nofun)

end AppConfigSchema

/-- Under usable settings, accepted values with the defaults filled in are acceptable exactly if the
defaults filled in are of the kinds of their items; no accepted values go wrong exactly if no
default can; and these are the values that are deployed. -/
theorem defaults_filled_in (settings : Settings) (usable : settings.validate = .ok ()) :
    (∀ v, settings.appConfig.validate v = .ok () → settings.appConfig.Resolved v) ∧
      ((∀ v, settings.appConfig.validate v = .ok () →
          settings.appConfig.validate (settings.appConfig.resolve v) = .ok ()) ↔
        ∀ i ∈ settings.appConfig.items, ∀ d, i.default = some d →
          i.kind.Takes d ∨ AppConfigSchema.Idle i d) ∧
      ∀ options titles values now events,
        settings.appConfig.DeploysResolved
            ((Workflow.install options settings.appConfig titles).history values now events) ∧
          settings.appConfig.DeploysResolved
            ((Workflow.upgrade options settings.appConfig titles).history values now events) := by
  have distinct := Settings.distinct_of_validate usable
  refine ⟨fun v accepted ↦ AppConfigSchema.resolved_of_accepted distinct accepted,
    AppConfigSchema.stays_acceptable_iff distinct, fun options titles values now events ↦ ?_⟩
  exact ⟨AppConfigSchema.install_deploysResolved _ options titles values now events,
    AppConfigSchema.upgrade_deploysResolved _ options titles values now events⟩

/-! ### A default of the wrong kind -/

/-- The settings of an upgrade whose only item takes a number and has a text for its default. -/
def mistypedSettings : Settings where
  workflow := { mode := .upgrade, target := .kubernetes }
  appConfig := ⟨[{ name := "replicas", kind := .number, default := some (.string "three") }]⟩

/-- Nothing is submitted, and the default is filled in. -/
theorem mistyped_default_resolved : mistypedSettings.validate = .ok () ∧
    mistypedSettings.appConfig.validate .empty = .ok () ∧
    mistypedSettings.appConfig.Resolved .empty := by
  have usable : mistypedSettings.validate = .ok () := rfl
  have accepted : mistypedSettings.appConfig.validate .empty = .ok () := rfl
  exact ⟨usable, accepted, (defaults_filled_in mistypedSettings usable).1 .empty accepted⟩

/-- A client submits nothing, has the application checked and upgrades it. -/
def plainDeployment : List Event :=
  [.act (.patchValues .empty), .act (.begin (.preflights .app) false),
    .complete fun
      | .preflights _ => .returned ({} : PreflightOutput)
      | .installInfrastructure _ | .upgradeInfrastructure | .processAirgap => .returned ()
      | .installApp _ | .upgradeApp _ => .returned ({} : AppRelease),
    .act (.begin .deployment false)]

/-- Accepted values need not stay acceptable: the text goes out for a number. -/
theorem mistyped_default_goes_out :
    (¬∀ settings : Settings, settings.validate = .ok () →
      ∀ v, settings.appConfig.validate v = .ok () →
        settings.appConfig.validate (settings.appConfig.resolve v) = .ok ()) ∧
      mistypedSettings.appConfig.validate (mistypedSettings.appConfig.resolve .empty) =
        .error ⟨[⟨"replicas", "must be a number"⟩]⟩ ∧
      ∃ before, (Workflow.upgrade { target := .kubernetes } mistypedSettings.appConfig
          fun _ ↦ []).history none .epoch plainDeployment =
        before ++ [.began .deployment false
          (.upgradeApp (.ofList [("replicas", .string "three")]))] := by
  have rejected : mistypedSettings.appConfig.validate (mistypedSettings.appConfig.resolve .empty) =
      .error ⟨[⟨"replicas", "must be a number"⟩]⟩ := rfl
  refine ⟨fun stays ↦ ?_, rejected, [_, _, _], rfl⟩
  nomatch rejected.symm.trans (stays mistypedSettings rfl .empty rfl)

end Rollout
