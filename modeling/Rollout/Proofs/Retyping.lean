import Rollout.Proofs.Decimals
import Rollout.Proofs.Layers

/-!
# Texts that spell something else

A variable is a text, but a text that spells a truth value or a number is taken for one.  A setting
that is a text prints it again, so that the text comes back the way it is printed: `TRUE` as `true`,
`007` as `7` and `1.10` as `1.1`.  What is printed is given for every text (`reprinted`), and the
texts that come back as they were are told apart from the others (`Kept`, `kept_iff`).  No number
with a point and a zero at its end is among them (`not_kept_of_last_zero`).

The settings of the steps are loaded from whatever text a single variable gives for the name of the
application, its version or a command (`step_texts_reprinted`).
-/

namespace Rollout

namespace Settings

variable {k k' : Setting} {s : Settings} {name text : String}

/-! ### A single variable -/

theorem read_defaults : form.ofRaw? defaults = some {} := by cbv

theorem readFrom_defaults : ReadFrom defaults {} := readFrom_of_ofRaw? read_defaults

/-- The defaults alone are usable. -/
theorem usable_defaults : Usable {} := validate_eq_ok_iff.1 (by cbv)

theorem ofRaw_eq_ok {root : Raw} (read : form.ofRaw? root = some s) (usable : s.Usable) :
    ofRaw root = .ok s := by
  simp only [ofRaw, read, validate_eq_ok_iff.2 usable]

/-- Without a file and without variables the defaults are loaded. -/
theorem load_nothing : load [] none [] = .ok {} := ofRaw_eq_ok read_defaults usable_defaults

/-- The section of a setting can be read if the value can that is put in for the setting. -/
theorem exists_section {root v : Raw} (same : Raw.SameBut k.sec.name k.name root defaults)
    (given : Raw.under k.sec.name k.name root = some v) (fits : (k.field.read v).isSome = true) :
    ∃ w x, root.get? k.sec.name = some w ∧
      (Form.record k.sec.blank k.sec.fields).ofRaw? w = some x := by
  obtain ⟨w, found, inside⟩ := Option.bind_eq_some_iff.1 given
  obtain ⟨ms, rfl⟩ := isTable_of_get? inside
  obtain ⟨w, found', inside'⟩ := Option.bind_eq_some_iff.1 k.regular.default
  obtain ⟨ms', rfl⟩ := isTable_of_get? inside'
  obtain ⟨v', found'', filled'⟩ := readFrom_defaults.sections k.sec
  cases found'.symm.trans found''
  have ready : ∀ f ∈ k.sec.fields, f.Ready ((Raw.table ms).get? f.name) := by
    intro f mem
    by_cases named : f.name = k.name
    · rw [named, inside, Setting.field_eq_of_name mem named]
      exact fits
    · have values := same.values f.name named
      rw [Raw.under, Raw.under, found, found', Option.bind_some, Option.bind_some] at values
      rw [values]
      exact (Form.ready_iff_fillByName k.sec.blank).2 ⟨_, filled'⟩ f mem
  obtain ⟨x, filled⟩ := (Form.ready_iff_fillByName k.sec.blank).1 ready
  exact ⟨_, x, found, filled⟩

/-- Without a file, a single variable for a setting of the steps is enough to load them. -/
theorem exists_load (named : settingOf? name = some k.path) (steps : k.sec = .steps)
    (fits : (k.field.read (ofText k.path text)).isSome = true) :
    ∃ s, load [] none [(name, text)] = .ok s := by
  have same : Raw.SameBut k.sec.name k.name
      ((SettingPath.of k.path).put (ofText k.path text) defaults) defaults :=
    Raw.sameBut_put (place_path k)
  have given := under_put_path k text defaults
  obtain ⟨ms, is_table⟩ := Raw.isTable_put (ofText k.path text) (SettingPath.of k.path) defaults
  rw [load_single named, is_table]
  rw [is_table] at same given
  have apart {other : String} (differ : other ≠ "steps") :
      (Raw.table ms).get? other = defaults.get? other :=
    same.sections other (steps ▸ differ)
  have sections (sec : Section) : ∃ v x, (Raw.table ms).get? sec.name = some v ∧
      (Form.record sec.blank sec.fields).ofRaw? v = some x := by
    by_cases here : sec = k.sec
    · subst here
      exact exists_section same given fits
    · have kept := same.sections sec.name (mt Section.name_inj here)
      obtain ⟨v, found, filled⟩ := readFrom_defaults.sections sec
      exact ⟨v, _, kept.trans found, filled⟩
  have no_items : (Raw.table ms).get? "app_config" = none := (apart (by decide)).trans rfl
  obtain ⟨s, read⟩ := exists_ofRaw? no_items sections
  have read_s := readFrom_of_ofRaw? read
  have server : s.server = {} :=
    read_s.section_eq readFrom_defaults .server (apart (by decide))
  have workflow : s.workflow = {} :=
    read_s.section_eq readFrom_defaults .workflow (apart (by decide))
  have items : s.appConfig = {} := by rw [read_s.app_config, no_items]; rfl
  refine ⟨s, ofRaw_eq_ok read ⟨?_, ?_, ?_, ?_⟩⟩
  · rw [server]
    exact usable_defaults.address
  · rw [workflow]
    exact usable_defaults.bundle
  · rw [items]
    exact usable_defaults.named
  · rw [items]
    exact usable_defaults.distinct

/-! ### Texts that come back -/

/-- How a text comes back from a setting that is a text: a truth value or a number that it spells is
printed. -/
def reprinted (text : String) : String :=
  if Raw.folded text = "true" then "true"
  else if Raw.folded text = "false" then "false"
  else
    match wholeNumber? text.toList, Binary64.ofText? text.toList with
    | some n, _ => toString n
    | none, some x => String.ofList (Raw.numberLayout.text x)
    | none, none => text

/-- The text that a variable is read as. -/
theorem toText?_ofText {setting : String} (no_list : setting ≠ listSetting) (text : String) :
    (ofText setting text).toText? = some (reprinted text) := by
  unfold ofText reprinted
  split
  · rfl
  · split
    · rfl
    · cases wholeNumber? text.toList with
      | some n => rfl
      | none => cases Binary64.ofText? text.toList <;> rfl

/-- The text spells a truth value. -/
def SpellsFlag (text : String) : Prop := Raw.folded text = "true" ∨ Raw.folded text = "false"

/-- The texts that come back as they were. -/
inductive Kept : String → Prop where
  | flag (b : Bool) : Kept (toString b)
  | whole (n : Int) (least : -0x8000000000000000 ≤ n) (most : n < 0x8000000000000000) :
      Kept (toString n)
  /-- A number that is spelt the way it is printed. -/
  | double {text : String} {x : Binary64} (no_flag : ¬SpellsFlag text)
      (no_whole : wholeNumber? text.toList = none) (read : Binary64.ofText? text.toList = some x)
      (printed : text.toList = Raw.numberLayout.text x) : Kept text
  /-- A text that spells nothing else. -/
  | other {text : String} (no_flag : ¬SpellsFlag text) (no_whole : wholeNumber? text.toList = none)
      (no_double : Binary64.ofText? text.toList = none) : Kept text

theorem reprinted_of_no_flag (no_flag : ¬SpellsFlag text) : reprinted text =
    match wholeNumber? text.toList, Binary64.ofText? text.toList with
    | some n, _ => toString n
    | none, some x => String.ofList (Raw.numberLayout.text x)
    | none, none => text := by
  unfold reprinted
  rw [if_neg fun spelt ↦ no_flag (.inl spelt), if_neg fun spelt ↦ no_flag (.inr spelt)]

/-- A character that has no other case and is in neither word keeps a text from spelling them. -/
theorem not_spellsFlag_of_mem {c : Char} (mem : c ∈ text.toList) (ordinary : c ≠ '\u212a')
    (no_upper : c.toLower = c) (not_true : c ∉ "true".toList) (not_false : c ∉ "false".toList) :
    ¬SpellsFlag text := by
  have folded : c ∈ (Raw.folded text).toList := by
    rw [Raw.folded, String.toList_map]
    exact List.mem_map.2 ⟨c, mem, by rw [if_neg ordinary, no_upper]⟩
  rintro (spelt | spelt)
  · exact not_true (spelt ▸ folded)
  · exact not_false (spelt ▸ folded)

theorem not_spellsFlag_of_isDigit {c : Char} (mem : c ∈ text.toList) (digit : c.isDigit = true) :
    ¬SpellsFlag text := by
  have ne {d : Char} (other : d.isDigit = false) : c ≠ d := by
    rintro rfl
    exact absurd digit (Bool.eq_false_iff.1 other)
  refine not_spellsFlag_of_mem mem (ne rfl) ?_ ?_ ?_
  · grind [Char.toLower, Char.isDigit]
  · simp [ne]
  · simp [ne]

theorem exists_isDigit_toString (n : Int) : ∃ c ∈ (toString n).toList, c.isDigit = true := by
  cases n with
  | ofNat m =>
    have digits := Net.digits_toString m
    obtain ⟨c, mem⟩ := List.exists_mem_of_ne_nil _ digits.nonempty
    exact ⟨c, mem, digits.digits c mem⟩
  | negSucc m =>
    have digits := Net.digits_toString (m + 1)
    obtain ⟨c, mem⟩ := List.exists_mem_of_ne_nil _ digits.nonempty
    rw [toList_toString_negSucc]
    exact ⟨c, List.mem_cons_of_mem _ mem, digits.digits c mem⟩

/-- No whole number spells a truth value. -/
theorem not_spellsFlag_toString (n : Int) : ¬SpellsFlag (toString n) := by
  obtain ⟨c, mem, digit⟩ := exists_isDigit_toString n
  exact not_spellsFlag_of_isDigit mem digit

theorem reprinted_of_kept (kept : Kept text) : reprinted text = text := by
  cases kept with
  | flag b => cases b <;> cbv
  | whole n least most =>
    rw [reprinted_of_no_flag (not_spellsFlag_toString n), wholeNumber?_toString least most]
  | @double _ x no_flag no_whole read printed =>
    rw [reprinted_of_no_flag no_flag, no_whole, read]
    show String.ofList (Raw.numberLayout.text x) = text
    rw [← printed, String.ofList_toList]
  | other no_flag no_whole no_double =>
    rw [reprinted_of_no_flag no_flag, no_whole, no_double]

theorem kept_of_reprinted (same : reprinted text = text) : Kept text := by
  by_cases spelt : SpellsFlag text
  · unfold reprinted at same
    split at same
    · exact same ▸ .flag true
    · rename_i not_true
      rw [if_pos (spelt.resolve_left not_true)] at same
      exact same ▸ .flag false
  · rw [reprinted_of_no_flag spelt] at same
    cases whole : wholeNumber? text.toList with
    | some n =>
      rw [whole] at same
      obtain ⟨least, most⟩ := range_of_wholeNumber? whole
      exact same ▸ .whole n least most
    | none =>
      cases double : Binary64.ofText? text.toList with
      | some x =>
        rw [whole, double] at same
        exact .double spelt whole double (by rw [← same, String.toList_ofList])
      | none => exact .other spelt whole double

/-- The texts that are kept are those that are printed as they are. -/
theorem kept_iff : Kept text ↔ reprinted text = text := ⟨reprinted_of_kept, kept_of_reprinted⟩

theorem point_not_mem_toString (n : Int) : '.' ∉ (toString n).toList := by
  cases n with
  | ofNat m =>
    exact fun mem ↦ nomatch (Net.digits_toString m).digits '.' mem
  | negSucc m =>
    rw [toList_toString_negSucc]
    rintro (_ | ⟨_, mem⟩)
    exact nomatch (Net.digits_toString (m + 1)).digits '.' mem

/-- A number with a point and a zero at its end does not come back as it was. -/
theorem not_kept_of_last_zero {whole fraction : List Char}
    (whole_digits : ∀ c ∈ whole, c.isDigit = true)
    (digits : ∀ c ∈ fraction, c.isDigit = true) :
    ¬Kept (String.ofList (whole ++ '.' :: (fraction ++ ['0']))) := by
  have point : '.' ∈ (String.ofList (whole ++ '.' :: (fraction ++ ['0']))).toList := by
    simp [String.toList_ofList]
  have last : (String.ofList (whole ++ '.' :: (fraction ++ ['0']))).toList.getLast? = some '0' := by
    rw [String.toList_ofList, ← List.cons_append, ← List.append_assoc, List.getLast?_concat]
  have read : (Binary64.ofText?
      (String.ofList (whole ++ '.' :: (fraction ++ ['0']))).toList).isSome = true := by
    rw [String.toList_ofList]
    refine Binary64.isSome_ofText? whole_digits ?_ (List.append_ne_nil_of_right_ne_nil _ nofun)
    intro c mem
    obtain mem | mem := List.mem_append.1 mem
    · exact digits c mem
    · rw [List.mem_singleton.1 mem]
      rfl
  generalize String.ofList (whole ++ '.' :: (fraction ++ ['0'])) = text at point last read
  intro kept
  cases kept with
  | flag b => cases b <;> exact absurd point (by decide)
  | whole n => exact point_not_mem_toString n point
  | @double _ x no_flag no_whole given printed =>
    rw [printed] at point last
    obtain ⟨c, last', nonzero⟩ := Raw.numberLayout.getLast?_text rfl rfl point
    exact nonzero (Option.some.inj (last'.symm.trans last))
  | other no_flag no_whole no_double => exact nomatch no_double ▸ read

/-! ### Settings that are texts -/

/-- A setting of the steps whose value is a text. -/
structure IsStepText (k : Setting) : Prop where
  steps : k.sec = .steps
  no_list : k.path ≠ listSetting
  told : ∀ v t, v.toText? = some t → k.told? v = some (.string t)

def appVersion : Setting := ⟨.steps, 11, _, rfl⟩

/-- The settings that name the application and the commands of the steps, each with the name of its
variable. -/
def stepTexts : List (String × Setting) :=
  [("CLUSTER_INSTALLER_STEPS__HOST_PREFLIGHTS", hostPreflights),
    ("CLUSTER_INSTALLER_STEPS__APP_PREFLIGHTS", ⟨.steps, 3, _, rfl⟩),
    ("CLUSTER_INSTALLER_STEPS__INFRA_INSTALL", ⟨.steps, 4, _, rfl⟩),
    ("CLUSTER_INSTALLER_STEPS__INFRA_UPGRADE", ⟨.steps, 5, _, rfl⟩),
    ("CLUSTER_INSTALLER_STEPS__AIRGAP_PROCESS", ⟨.steps, 6, _, rfl⟩),
    ("CLUSTER_INSTALLER_STEPS__APP_INSTALL", ⟨.steps, 7, _, rfl⟩),
    ("CLUSTER_INSTALLER_STEPS__APP_UPGRADE", ⟨.steps, 8, _, rfl⟩),
    ("CLUSTER_INSTALLER_STEPS__APP_NAME", appName),
    ("CLUSTER_INSTALLER_STEPS__APP_VERSION", appVersion)]

section Fields

variable {α : Type} {blank : α} {v : Raw} {t field : String}

theorem told?_text {get : α → String} {set : String → α → α} (get_set : ∀ s a, get (set s a) = s)
    (given : v.toText? = some t) :
    (Form.Field.needed field .text get set).told? blank v = some (.string t) := by
  show (v.toText?.map set).map (fun change ↦ Json.string (get (change blank))) = _
  rw [given, Option.map_some, Option.map_some, get_set]

theorem told?_optional_text {get : α → Option String} {set : Option String → α → α}
    (get_set : ∀ s a, get (set s a) = s) (given : v.toText? = some t) :
    (Form.Field.defaulted field (.optional .text) get set).told? blank v = some (.string t) := by
  have some_text : Raw.toOption? Raw.toText? v = some (some t) := by
    cases v with
    | nothing => cases given
    | bool | int | double | text | list | table => exact congrArg (Option.map some) given
  show ((Raw.toOption? Raw.toText? v).map set).map
    (fun change ↦ Json.ofOption Json.string (get (change blank))) = _
  rw [some_text, Option.map_some, Option.map_some, get_set]
  rfl

end Fields

theorem isStepText_of_mem {e : String × Setting} (mem : e ∈ stepTexts) : IsStepText e.2 := by
  simp only [stepTexts, List.mem_cons, List.not_mem_nil, or_false] at mem
  rcases mem with rfl | rfl | rfl | rfl | rfl | rfl | rfl | rfl | rfl
  all_goals
    refine ⟨rfl, by decide, fun v t given ↦ ?_⟩
    first
      | exact told?_text (fun _ _ ↦ rfl) given
      | exact told?_optional_text (fun _ _ ↦ rfl) given

set_option maxRecDepth 8000 in
/-- The variable of each step text is named after its setting. -/
theorem settingOf?_stepTexts {e : String × Setting} (mem : e ∈ stepTexts) :
    settingOf? e.1 = some e.2.path := by
  simp only [stepTexts, List.mem_cons, List.not_mem_nil, or_false] at mem
  rcases mem with rfl | rfl | rfl | rfl | rfl | rfl | rfl | rfl | rfl
  all_goals
    cbv

/-! ### What is loaded -/

/-- What is loaded when a variable for a setting is all that is given. -/
structure Reprints (k : Setting) (name text : String) (s : Settings) : Prop where
  loaded : load [] none [(name, text)] = .ok s
  value : k.value s = .string (reprinted text)
  verbatim : k.value s = .string text ↔ Kept text
  others : ∀ k', k' ≠ k → k'.value s = k'.default
  no_items : s.appConfig = {}

/-- Whatever a variable says of a step text, the settings are loaded with what is printed for it. -/
theorem exists_reprints (step_text : IsStepText k) (named : settingOf? name = some k.path)
    (text : String) : ∃ s, Reprints k name text s := by
  have told : k.told? (ofText k.path text) = some (.string (reprinted text)) :=
    step_text.told _ _ (toText?_ofText step_text.no_list text)
  have fits : (k.field.read (ofText k.path text)).isSome = true := by
    obtain ⟨change, read, -⟩ := Option.map_eq_some_iff.1 told
    rw [read]
    rfl
  obtain ⟨s, loaded⟩ := exists_load named step_text.steps fits
  have comes : ComesOf [] [(name, text)] (.ok s) :=
    ⟨_, _, .nil, overrides_ofEnvironment [(name, text)], loaded⟩
  have comes_nothing : ComesOf [] [] (.ok {}) :=
    ⟨_, _, .nil, overrides_ofEnvironment [], load_nothing⟩
  have value : k.value s = .string (reprinted text) :=
    Option.some.inj <|
      ((layered k).overridden [] [] name text s named (spared_nil k) comes).symm.trans told
  obtain ⟨others, no_items⟩ := (layered k).apart [] [] name text {} s named (spared_nil k)
    (determined_of_clear Raw.clear_nil oneForEach_nil) comes_nothing comes
  refine ⟨s, loaded, value, ?_, others, no_items⟩
  rw [value, Json.string.injEq]
  exact kept_iff.symm

/-- Whatever text a variable gives for the name of the application, its version or a command, the
settings are loaded with it as it is reprinted, and nothing else changes.  It stays as it was
exactly if it is one of the texts that are kept. -/
theorem step_texts_reprinted : ∀ e ∈ stepTexts, settingOf? e.1 = some e.2.path ∧
    ∀ name text, settingOf? name = some e.2.path → ∃ s, Reprints e.2 name text s :=
  fun _ mem ↦ ⟨settingOf?_stepTexts mem, fun _ text named ↦
    exists_reprints (isStepText_of_mem mem) named text⟩

theorem appVersion_mem : ("CLUSTER_INSTALLER_STEPS__APP_VERSION", appVersion) ∈ stepTexts :=
  List.mem_of_getElem? (i := 8) rfl

theorem reprinted_version : reprinted "1.10" = "1.1" := by
  have no_flag : ¬SpellsFlag "1.10" := not_spellsFlag_of_isDigit (c := '1') (by decide) rfl
  have no_whole : wholeNumber? "1.10".toList = none := by decide +kernel
  have printed : (Binary64.ofText? "1.10".toList).map Raw.numberLayout.text =
      some "1.1".toList := by
    decide +kernel
  obtain ⟨x, read, text⟩ := Option.map_eq_some_iff.1 printed
  rw [reprinted_of_no_flag no_flag, no_whole, read]
  exact (congrArg String.ofList text).trans String.ofList_toList

/-- Version 1.10 is loaded as version 1.1. -/
theorem version_loses_zero :
    ("CLUSTER_INSTALLER_STEPS__APP_VERSION", appVersion) ∈ stepTexts ∧
    settingOf? "CLUSTER_INSTALLER_STEPS__APP_VERSION" = some appVersion.path ∧
    ∃ s, load [] none [("CLUSTER_INSTALLER_STEPS__APP_VERSION", "1.10")] = .ok s ∧
      appVersion.value s = .string "1.1" := by
  obtain ⟨named, loads⟩ := step_texts_reprinted _ appVersion_mem
  obtain ⟨s, reprints⟩ := loads _ "1.10" named
  exact ⟨appVersion_mem, named, s, reprints.loaded,
    reprints.value.trans (congrArg Json.string reprinted_version)⟩

/-- Not every text is taken as it is. -/
theorem version_not_verbatim : ¬∀ e ∈ stepTexts, ∀ text, ∃ s, load [] none [(e.1, text)] = .ok s ∧
    e.2.value s = .string text := by
  intro verbatim
  obtain ⟨s, loaded, value⟩ := verbatim _ appVersion_mem "1.10"
  obtain ⟨s', reprints⟩ := exists_reprints (isStepText_of_mem appVersion_mem)
    (settingOf?_stepTexts appVersion_mem) "1.10"
  cases loaded.symm.trans reprints.loaded
  have digits : ∀ c ∈ ['1'], c.isDigit = true := List.forall_mem_singleton.2 rfl
  exact not_kept_of_last_zero digits digits (reprints.verbatim.1 value)

end Settings
end Rollout
