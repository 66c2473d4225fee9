import Rollout.Proofs.Defaults
import Rollout.Proofs.KeyOrder

/-!
# Layers of settings

The defaults, the file and the variables are laid over each other, and what comes out is given its
types and checked as a whole.  Still each setting stands for itself: a variable for it shows in no
other setting and is all there is to its value, and without one the file has its say, or else the
default (`settings_layered`).  This holds for the table of any file, in whichever format it was
written, and for keys that are gone through in any order.

A file names its settings.  It may also write a section as a list, which says what they are by their
places.  Such a list is a single value: it gives way to the first variable for a setting of the
section, and what it said of the other settings is lost.  And a file may name a setting twice, in
two ways; which of them wins is then open whenever the settings are loaded (`list_gives_way`).
-/

namespace Rollout

/-! ### Entries of a dictionary -/

namespace Dict

variable {α : Type} {key : String} {v : α}

/-- An entry whose key no other has may be put in before or after the others. -/
theorem insertMany_insert (d : Dict α) {entries : List (String × α)}
    (absent : ∀ e ∈ entries, e.1 ≠ key) :
    (d.insert key v).insertMany entries = (d.insertMany entries).insert key v := by
  induction entries generalizing d with
  | nil => rfl
  | cons e more ih =>
    obtain ⟨here, others⟩ := List.forall_mem_cons.1 absent
    refine (congrArg (insertMany · more) (d.insert_comm here.symm v e.2)).trans ?_
    exact ih _ others

/-- An entry whose key is none of the others may as well come last. -/
theorem ofList_insert {before after : List (String × α)}
    (absent : ∀ e ∈ after, e.1 ≠ key) :
    ofList (before ++ (key, v) :: after) = (ofList (before ++ after)).insert key v := by
  unfold ofList insertMany
  rw [List.foldl_append, List.foldl_append, List.foldl_cons]
  exact insertMany_insert _ absent

theorem insertEntry_of_absent {l : List (String × α)} (absent : ∀ e ∈ l, e.1 ≠ key) :
    ∃ before after, l = before ++ after ∧ insertEntry key v l = before ++ (key, v) :: after := by
  induction l with
  | nil => exact ⟨[], [], rfl, rfl⟩
  | cons e more ih =>
    obtain ⟨here, others⟩ := List.forall_mem_cons.1 absent
    rw [insertEntry]
    split
    · exact ⟨[], e :: more, rfl, rfl⟩
    · rw [if_neg here.symm]
      obtain ⟨before, after, rfl, inserted⟩ := ih others
      exact ⟨e :: before, after, rfl, congrArg (e :: ·) inserted⟩

theorem isSome_get?_insertMany (d : Dict α) {entries : List (String × α)}
    (given : (d.get? key).isSome ∨ ∃ v, (key, v) ∈ entries) :
    ((d.insertMany entries).get? key).isSome := by
  induction entries generalizing d with
  | nil => exact given.resolve_right fun ⟨_, mem⟩ ↦ nomatch mem
  | cons e more ih =>
    refine ih (d := d.insert e.1 e.2) ?_
    rw [get?_insert]
    by_cases here : e.1 = key
    · exact .inl (by rw [if_pos here]; rfl)
    · rw [if_neg here]
      refine given.imp id fun ⟨v, mem⟩ ↦ ⟨v, ?_⟩
      refine (List.mem_cons.1 mem).resolve_left fun same ↦ here ?_
      rw [← same]

/-- Each key that is given has an entry. -/
theorem exists_mem_ofList {entries : List (String × α)} (given : (key, v) ∈ entries) :
    ∃ w, (key, w) ∈ (ofList entries).entries := by
  obtain ⟨w, found⟩ := Option.isSome_iff_exists.1
    (isSome_get?_insertMany empty (.inr ⟨v, given⟩))
  exact ⟨w, mem_entries_iff.2 found⟩

end Dict

/-! ### Variables -/

/-- A variable overrides a setting of the section. -/
def Section.Overridden (sec : Section) (environment : List (String × String)) : Prop :=
  ∃ e ∈ environment, ∃ setting, Settings.settingOf? e.1 = some setting ∧
    (SettingPath.of setting).place.head? = some (.key sec.name)

/-- No variable bears on the setting.  One for another setting does not; one for the section as a
whole does, one for an item of the section by its index, and one for a part of the setting. -/
def Setting.Spared (k : Setting) (environment : List (String × String)) : Prop :=
  ∀ e ∈ environment, ∀ setting, Settings.settingOf? e.1 = some setting →
    Raw.Apart k.sec.name k.name (SettingPath.of setting).place

namespace Settings

variable {k k' : Setting} {s s' : Settings} {environment before after : List (String × String)}
  {name text : String} {file source first last : List (String × Raw)}

/-- Every override is that of a variable. -/
theorem mem_ofEnvironment {e : String × Raw} (mem : e ∈ ofEnvironment environment) :
    ∃ v ∈ environment, settingOf? v.1 = some e.1 := by
  obtain ⟨v, given, eq⟩ := List.mem_filterMap.1 (Dict.mem_of_mem_ofList mem)
  obtain ⟨setting, named, rfl⟩ := Option.map_eq_some_iff.1 eq
  exact ⟨v, given, named⟩

theorem Overrides.exists_mem (overrides : Overrides environment source) {e : String × Raw}
    (mem : e ∈ source) : ∃ v ∈ environment, settingOf? v.1 = some e.1 := by
  obtain ⟨order, same_order, same_source⟩ := overrides
  obtain ⟨v, given, named⟩ := mem_ofEnvironment (same_source.mem_iff.1 mem)
  exact ⟨v, same_order.mem_iff.1 given, named⟩

/-- What does not bear on a setting in the environment does not in any order of it. -/
theorem apart_of_spared (spared : k.Spared environment)
    (overrides : Overrides environment source) :
    ∀ e ∈ source, Raw.Apart k.sec.name k.name (SettingPath.of e.1).place := by
  intro e mem
  obtain ⟨v, given, named⟩ := overrides.exists_mem mem
  exact spared v given _ named

/-- The overrides in the order of their settings are those of the environment. -/
theorem overrides_ofEnvironment (environment : List (String × String)) :
    Overrides environment (ofEnvironment environment) :=
  ⟨environment, .refl _, .refl _⟩

theorem spared_nil (k : Setting) : k.Spared [] := fun _ mem ↦ nomatch mem

/-- A variable for another setting does not bear on this one. -/
theorem apart_of_ne (differ : k' ≠ k) :
    Raw.Apart k.sec.name k.name (SettingPath.of k'.path).place := by
  rw [place_path]
  by_cases sections : k'.sec = k.sec
  · exact .inr ⟨_, [], rfl, fun names ↦ differ (Setting.eq_of_names sections names)⟩
  · exact .inl fun same ↦ sections (Section.name_inj same)

theorem not_apart_self (k : Setting) :
    ¬Raw.Apart k.sec.name k.name (SettingPath.of k.path).place := by
  rw [place_path]
  rintro (elsewhere | ⟨other, rest, eq, differ⟩)
  · exact elsewhere rfl
  · cases eq
    exact differ rfl

/-- Whether the variables spare a setting does not depend on their order. -/
theorem spared_of_perm {order : List (String × String)} (spared : k.Spared environment)
    (same : order.Perm environment) : k.Spared order :=
  fun e mem ↦ spared e (same.mem_iff.1 mem)

/-- A variable for a setting that no other bears on adds an entry to those of the others. -/
theorem ofEnvironment_insert (named : settingOf? name = some k.path)
    (spared : k.Spared (before ++ after)) (text : String) :
    (ofEnvironment (before ++ (name, text) :: after)).Perm
      ((k.path, ofText k.path text) :: ofEnvironment (before ++ after)) := by
  have absent : ∀ e ∈ ofEnvironment (before ++ after), e.1 ≠ k.path := fun e mem same ↦
    not_apart_self k (same ▸ apart_of_spared spared (overrides_ofEnvironment _) e mem)
  have absent_after : ∀ e ∈ after.filterMap overriding?, e.1 ≠ k.path := by
    rintro e mem same
    obtain ⟨v, given, eq⟩ := List.mem_filterMap.1 mem
    obtain ⟨setting, named, rfl⟩ := Option.map_eq_some_iff.1 eq
    obtain rfl : setting = k.path := same
    exact not_apart_self k (spared v (List.mem_append_right _ given) _ named)
  have entry : overriding? (name, text) = some (k.path, ofText k.path text) := by
    rw [overriding?, named, Option.map_some]
  obtain ⟨first, last, eq, inserted⟩ :=
    Dict.insertEntry_of_absent (v := ofText k.path text) absent
  have with_k : ofEnvironment (before ++ (name, text) :: after) =
      first ++ (k.path, ofText k.path text) :: last := by
    rw [← inserted, ofEnvironment_eq, ofEnvironment_eq, List.filterMap_append,
      List.filterMap_append, List.filterMap_cons_some entry]
    exact congrArg Dict.entries (Dict.ofList_insert absent_after)
  rw [with_k, eq]
  exact List.perm_middle

/-- In whatever order, a variable for a setting that no other bears on stands somewhere among the
others. -/
theorem overrides_cons_iff (named : settingOf? name = some k.path)
    (spared : k.Spared environment) : Overrides ((name, text) :: environment) source ↔
      ∃ first last, source = first ++ (k.path, ofText k.path text) :: last ∧
        Overrides environment (first ++ last) := by
  constructor
  · rintro ⟨order, same_order, same_source⟩
    obtain ⟨before, after, rfl⟩ :=
      List.append_of_mem (same_order.mem_iff.2 List.mem_cons_self)
    have others : (before ++ after).Perm environment :=
      (List.perm_middle.symm.trans same_order).cons_inv
    have entries := same_source.trans
      (ofEnvironment_insert named (spared_of_perm spared others) text)
    obtain ⟨first, last, rfl⟩ := List.append_of_mem (entries.mem_iff.2 List.mem_cons_self)
    exact ⟨first, last, rfl, before ++ after, others,
      (List.perm_middle.symm.trans entries).cons_inv⟩
  · rintro ⟨first, last, rfl, order, same_order, same_source⟩
    have spared_order : k.Spared ([] ++ order) := spared_of_perm spared same_order
    have added := ofEnvironment_insert named spared_order text
    exact ⟨(name, text) :: order, same_order.cons _,
      (List.perm_middle.trans (same_source.cons _)).trans added.symm⟩

/-! ### Loading -/

theorem isTable_layers (file source : List (String × Raw)) :
    ∃ ms, Raw.layOver source (Raw.layOver file defaults) = .table ms :=
  Raw.isTable_layOver source (Raw.isTable_layOver file ⟨_, rfl⟩)

/-- What comes of the layers is read from them, and can be used. -/
theorem read_of_ofLayers (loaded : ofLayers file source = .ok s) :
    ReadFrom (Raw.layOver source (Raw.layOver file defaults)) s ∧ s.validate = .ok () := by
  obtain ⟨ms, is_table⟩ := isTable_layers file source
  unfold ofLayers ofRaw at loaded
  rw [is_table] at loaded ⊢
  split at loaded
  · cases loaded
  · rename_i read
    split at loaded
    · rename_i usable
      cases loaded
      exact ⟨readFrom_of_ofRaw? read, usable⟩
    · cases loaded

/-! ### Other settings -/

theorem isTable_of_get? {v w : Raw} {name : String} (given : v.get? name = some w) :
    ∃ ms, v = .table ms := by
  cases v with
  | table ms => exact ⟨ms, rfl⟩
  | nothing | bool | int | double | text | list => cases given

/-- What stands under a name in a section stands in a table. -/
theorem isTable_of_under {root v : Raw} {sec name : String}
    (given : Raw.under sec name root = some v) : ∃ ms, root.get? sec = some (.table ms) := by
  obtain ⟨w, found, inside⟩ := Option.bind_eq_some_iff.1 given
  obtain ⟨ms, rfl⟩ := isTable_of_get? inside
  exact ⟨ms, found⟩

/-- Sections that are given alike are read alike. -/
theorem ReadFrom.section_eq {x y : Raw} (read : ReadFrom x s') (read' : ReadFrom y s)
    (sec : Section) (given : x.get? sec.name = y.get? sec.name) :
    sec.of s' = sec.of s := by
  obtain ⟨v, found, filled⟩ := read.sections sec
  obtain ⟨w, found', filled'⟩ := read'.sections sec
  cases (found.symm.trans given).trans found'
  exact Option.some.inj (filled.symm.trans filled')

/-- What is given for one setting does not show in the others, as long as its section is a table
where it is given.  Without it the section is no list: a list has no names, so that nothing else
would be given, and each section needs something else. -/
theorem ReadFrom.value_eq {x y : Raw} (read : ReadFrom x s') (read' : ReadFrom y s)
    (same : Raw.SameBut k.sec.name k.name x y)
    (is_table : ∃ ms, x.get? k.sec.name = some (.table ms)) (other : k' ≠ k) :
    k'.value s' = k'.value s := by
  by_cases sections : k'.sec = k.sec
  · have names : k'.name ≠ k.name := fun names ↦ other (Setting.eq_of_names sections names)
    obtain ⟨ms, is_table⟩ := is_table
    have fills' := read.fills_by_name (k := k') (sections ▸ is_table)
    obtain ⟨ms', is_table'⟩ | ⟨items, is_list⟩ := read'.section_cases k.sec
    · have fills := read'.fills_by_name (k := k') (sections ▸ is_table')
      rw [sections, same.values k'.name names] at fills'
      rw [sections] at fills
      exact fills'.unique fills
    · obtain ⟨f, mem, named, required⟩ := k.exists_required sections other
      obtain ⟨i, listed⟩ := List.getElem?_of_mem mem
      have fills_f := read.fills_by_name (k := ⟨k.sec, i, f, listed⟩) is_table
      have nothing : Raw.under k.sec.name f.name y = none := by
        rw [Raw.under, is_list]
        rfl
      have absent : Raw.under k.sec.name f.name x = none := (same.values f.name named).trans nothing
      rw [show Setting.name ⟨k.sec, i, f, listed⟩ = f.name from rfl, absent] at fills_f
      exact absurd required (Bool.eq_false_iff.1 fills_f.1)
  · have given := same.sections k'.sec.name fun names ↦ sections (Section.name_inj names)
    exact congrArg k'.field.write (read.section_eq read' k'.sec given)

theorem ofText_ne_table (setting text : String) : ∀ ms, ofText setting text ≠ .table ms := by
  intro ms
  unfold ofText
  split
  · nofun
  · split
    · nofun
    · split
      · nofun
      · nofun
      · split <;> nofun

/-- What a variable says is found where its setting stands. -/
theorem under_put_path (k : Setting) (text : String) (root : Raw) :
    Raw.under k.sec.name k.name ((SettingPath.of k.path).put (ofText k.path text) root) =
      some (ofText k.path text) := by
  rw [Raw.under_put (place_path k), if_pos rfl]
  exact congrArg some (SettingPath.laid_of_not_table (ofText_ne_table k.path text) _ _)

/-- The layers with what is said of a setting, and without it. -/
theorem layers_with
    (apart : ∀ e ∈ first ++ last, Raw.Apart k.sec.name k.name (SettingPath.of e.1).place)
    (text : String) (root : Raw) :
    Raw.under k.sec.name k.name
        (Raw.layOver (first ++ (k.path, ofText k.path text) :: last) root) =
      some (ofText k.path text) ∧
    Raw.SameBut k.sec.name k.name
      (Raw.layOver (first ++ (k.path, ofText k.path text) :: last) root)
      (Raw.layOver (first ++ last) root) := by
  have apart_last : ∀ e ∈ last, Raw.Apart k.sec.name k.name (SettingPath.of e.1).place :=
    fun e mem ↦ apart e (List.mem_append_right first mem)
  unfold Raw.layOver
  rw [List.foldl_append, List.foldl_append, List.foldl_cons]
  exact ⟨(Raw.under_layOver apart_last).trans (under_put_path k text _),
    (Raw.sameBut_put (place_path k)).layOver apart_last⟩

/-! ### What a file says -/

end Settings

def Raw.isEmptyTable : Raw → Bool
  | table [] => true
  | _ => false

/-- The items of a section, if the file writes it as a list. -/
def Section.items? (sec : Section) (file : List (String × Raw)) : Option (List Raw) :=
  match (Raw.layOver file (.table [])).get? sec.name with
  | some (.list items) => some items
  | _ => none

/-- A file has a section as a list if this is what its keys come to, without the defaults. -/
theorem Section.items?_eq_some_iff {sec : Section} {file : List (String × Raw)}
    {items : List Raw} : sec.items? file = some items ↔
      (Raw.layOver file (.table [])).get? sec.name = some (.list items) := by
  unfold items?
  split <;> simp_all

namespace Setting

/-- What the file says of a setting under its name.  An empty table says nothing. -/
def said? (k : Setting) (file : List (String × Raw)) : Option Raw :=
  (Raw.under k.sec.name k.name (Raw.layOver file (.table []))).filter (!·.isEmptyTable)

/-- The value of the setting is the given one, or the default if none is given. -/
def TakenFrom (k : Setting) (given : Option Raw) (s : Settings) : Prop :=
  given.elim (some k.default) k.told? = some (k.value s)

variable {k : Setting} {s : Settings} {given : Option Raw} {u w : Option Raw}
  {file : List (String × Raw)} {environment : List (String × String)}

theorem Fills.takenFrom (fills : k.Fills given s) : k.TakenFrom given s := by
  cases given with
  | none => exact congrArg some fills.2.symm
  | some v => exact fills

/-- What is said over nothing is what is filled in over the default. -/
theorem takenFrom_of_over (upon : Raw.Over (.ofJson k.default) u w) (fills : k.Fills w s) :
    k.TakenFrom (u.filter (!·.isEmptyTable)) s := by
  obtain ⟨unsaid, rfl⟩ | rfl := upon
  · have filtered : u.filter (!·.isEmptyTable) = none := by
      rcases unsaid with rfl | rfl <;> rfl
    rw [filtered]
    exact k.regular.told.symm.trans fills
  · cases u with
    | none => exact fills.takenFrom
    | some v =>
      have some_value : v.isEmptyTable = false := by
        refine Bool.eq_false_iff.2 fun empty ↦ ?_
        unfold Raw.isEmptyTable at empty
        split at empty
        · exact nomatch k.regular.empty.symm.trans fills
        · cases empty
      rw [Option.filter_some_pos (by rw [some_value]; rfl)]
      exact fills.takenFrom

/-- A file over the defaults, as far as the section of a setting is concerned. -/
theorem beneath (scalar : k.Scalar) (file : List (String × Raw)) :
    Raw.Beneath k.name (.ofJson k.default) ((Raw.layOver file (.table [])).get? k.sec.name)
      ((Raw.layOver file Settings.defaults).get? k.sec.name) := by
  have plain : (Raw.ofJson k.default).Plain := k.regular.plain scalar
  have default : Raw.under k.sec.name k.name Settings.defaults = some (.ofJson k.default) :=
    k.regular.default
  obtain ⟨ms, found⟩ := Settings.isTable_of_under default
  refine Raw.beneath_layOver plain file (.inl ⟨.inl rfl, ⟨ms, found⟩, .inl ⟨.inl rfl, ?_⟩⟩)
  exact default

end Setting

namespace Settings

variable {k : Setting} {s : Settings} {file : List (String × Raw)}
  {environment : List (String × String)} {name : String}

/-- The settings can be used. -/
structure Usable (s : Settings) : Prop where
  address : ∃ a, Net.SocketAddress.parse? s.server.bind = some a
  bundle : ¬(s.workflow.airgap = true ∧ s.workflow.target = .kubernetes)
  named : ∀ i ∈ s.appConfig.items, i.name ≠ ""
  distinct : (s.appConfig.items.map (·.name)).Nodup

/-- The settings that pass their check are the usable ones. -/
theorem validate_eq_ok_iff : s.validate = .ok () ↔ s.Usable := by
  unfold validate address
  cases parsed : Net.SocketAddress.parse? s.server.bind with
  | none =>
    refine ⟨nofun, fun usable ↦ ?_⟩
    obtain ⟨a, parsed'⟩ := usable.address
    cases parsed.symm.trans parsed'
  | some a =>
    show (if (s.workflow.airgap && decide (s.workflow.target = .kubernetes)) = true then
      .error Problem.airgapTarget else checkNames [] (s.appConfig.items.map (·.name))) = .ok () ↔ _
    have bundle_iff : (s.workflow.airgap && decide (s.workflow.target = .kubernetes)) = true ↔
        s.workflow.airgap = true ∧ s.workflow.target = .kubernetes := by simp
    split
    · rename_i bundle
      exact ⟨nofun, fun usable ↦ absurd (bundle_iff.1 bundle) usable.bundle⟩
    · rename_i no_bundle
      rw [checkNames_eq_ok_iff, List.forall_mem_map]
      constructor
      · rintro ⟨named, distinct, -⟩
        exact ⟨⟨a, parsed⟩, mt bundle_iff.2 no_bundle, named, distinct⟩
      · exact fun usable ↦ ⟨usable.named, usable.distinct, by simp⟩

/-- A variable overrides a setting of a section exactly if something is laid over it there. -/
theorem overridden_iff {sec : Section} (overrides : Overrides environment source) :
    sec.Overridden environment ↔
      ∃ e ∈ source, (SettingPath.of e.1).place.head? = some (.key sec.name) := by
  constructor
  · rintro ⟨v, given, setting, named, begins⟩
    obtain ⟨order, same_order, same_source⟩ := overrides
    have entry : (setting, ofText setting v.2) ∈ order.filterMap overriding? :=
      List.mem_filterMap.2
        ⟨v, same_order.mem_iff.2 given, by rw [overriding?, named, Option.map_some]⟩
    obtain ⟨w, mem⟩ := Dict.exists_mem_ofList entry
    exact ⟨_, same_source.mem_iff.2 mem, begins⟩
  · rintro ⟨e, mem, begins⟩
    obtain ⟨v, given, named⟩ := overrides.exists_mem mem
    exact ⟨v, given, _, named, begins⟩

section Sections

variable (overrides : Overrides environment source)

include overrides

/-- A section that a variable overrides a setting of is a table. -/
theorem section_overridden (spared : k.Spared environment)
    (overridden : k.sec.Overridden environment) (root : Raw) :
    ∃ ms, (Raw.layOver source root).get? k.sec.name = some (.table ms) :=
  Raw.section_becomes_table (apart_of_spared spared overrides)
    ((overridden_iff overrides).1 overridden)

/-- A section that no variable overrides is as the layers below have it. -/
theorem section_kept {sec : Section} (untouched : ¬sec.Overridden environment) (root : Raw) :
    (Raw.layOver source root).get? sec.name = root.get? sec.name :=
  Raw.get?_layOver fun e mem begins ↦ untouched ((overridden_iff overrides).2 ⟨e, mem, begins⟩)

end Sections

/-- A section is written as a list by the file or not at all. -/
theorem list_iff (scalar : k.Scalar) {items : List Raw} :
    (Raw.layOver file defaults).get? k.sec.name = some (.list items) ↔
      k.sec.items? file = some items := by
  rw [Section.items?_eq_some_iff]
  obtain ⟨table_file, ⟨ms, is_table⟩, -⟩ | same := k.beneath scalar file
  · rw [is_table]
    rcases table_file with absent | ⟨ms', is_table'⟩
    · simp [absent]
    · simp [is_table']
  · rw [same]

section File

variable (read : ReadFrom (Raw.layOver source (Raw.layOver file defaults)) s)
  (scalar : k.Scalar) (spared : k.Spared environment) (overrides : Overrides environment source)

include read scalar spared overrides

/-- A section that is no list has its values by name. -/
theorem takenFrom_said (no_list : k.sec.items? file = none) : k.TakenFrom (k.said? file) s := by
  obtain ⟨ms, is_table⟩ | ⟨items, is_list⟩ := read.section_cases k.sec
  · have fills := read.fills_by_name is_table
    rw [Raw.under_layOver (apart_of_spared spared overrides)] at fills
    refine Setting.takenFrom_of_over ?_ fills
    obtain ⟨-, -, upon⟩ | same := k.beneath scalar file
    · exact upon
    · exact .inr (congrArg (Option.bind · (Raw.get? k.name)) same)
  · by_cases overridden : k.sec.Overridden environment
    · obtain ⟨ms, is_table⟩ :=
        section_overridden overrides spared overridden (Raw.layOver file defaults)
      cases is_list.symm.trans is_table
    · rw [section_kept overrides overridden, list_iff scalar, no_list] at is_list
      cases is_list

section List

variable {items : List Raw} (is_list : k.sec.items? file = some items)

include is_list

omit spared in
/-- In a list that is still there a setting is taken from the item at its place. -/
theorem takenFrom_item (untouched : ¬k.sec.Overridden environment) :
    k.TakenFrom items[k.index]? s := by
  refine (read.fills_in_place ?_).takenFrom
  rw [section_kept overrides untouched]
  exact (list_iff scalar).2 is_list

/-- A list gives way to the first variable. -/
theorem value_eq_default (overridden : k.sec.Overridden environment) : k.value s = k.default := by
  obtain ⟨ms, is_table⟩ :=
    section_overridden overrides spared overridden (Raw.layOver file defaults)
  have fills := read.fills_by_name is_table
  have nothing : Raw.under k.sec.name k.name (Raw.layOver file defaults) = none := by
    rw [Raw.under, (list_iff scalar).2 is_list]
    rfl
  rw [Raw.under_layOver (apart_of_spared spared overrides), nothing] at fills
  exact fills.2

end List

end File

/-- How the value of a setting comes from the layers, whatever the order of the keys. -/
structure Layered (k : Setting) : Prop where
  /-- In each order, what is said of the setting does not show in the others. -/
  others : ∀ environment file first last text s s', k.Spared environment →
    Overrides environment (first ++ last) → ofLayers file (first ++ last) = .ok s →
    ofLayers file (first ++ (k.path, ofText k.path text) :: last) = .ok s' →
    (∀ k', k' ≠ k → k'.value s' = k'.value s) ∧ s'.appConfig = s.appConfig
  /-- A variable for the setting does not show in the others, in whatever orders the settings are
  loaded with it and without it, unless these do not even without it come out the same. -/
  apart : ∀ environment file name text s s', settingOf? name = some k.path →
    k.Spared environment → Determined file environment → ComesOf file environment (.ok s) →
    ComesOf file ((name, text) :: environment) (.ok s') →
    (∀ k', k' ≠ k → k'.value s' = k'.value s) ∧ s'.appConfig = s.appConfig
  /-- The variable alone says what the value is. -/
  overridden : ∀ environment file name text s, settingOf? name = some k.path →
    k.Spared environment → ComesOf file ((name, text) :: environment) (.ok s) →
    k.told? (ofText k.path text) = some (k.value s)
  /-- Without a variable, the file says it in the order of its keys: by name, or by its place in a
  section that is a list.  Such a list is gone as soon as a variable overrides a setting of the
  section. -/
  filed : k.Scalar → ∀ environment file s, k.Spared environment →
    ComesOf file environment (.ok s) → ∃ layer, Raw.Reordered file layer ∧
      (k.sec.items? layer = none → k.TakenFrom (k.said? layer) s) ∧
      ∀ items, k.sec.items? layer = some items →
        (¬k.sec.Overridden environment → k.TakenFrom items[k.index]? s) ∧
        (k.sec.Overridden environment → k.value s = k.default)

/-- One more override changes no other setting, and not the items of the application. -/
theorem others_same (spared : k.Spared environment)
    (overrides : Overrides environment (first ++ last))
    (loaded : ofLayers file (first ++ last) = .ok s)
    (loaded' : ofLayers file (first ++ (k.path, ofText k.path text) :: last) = .ok s') :
    (∀ k', k' ≠ k → k'.value s' = k'.value s) ∧ s'.appConfig = s.appConfig := by
  obtain ⟨read, -⟩ := read_of_ofLayers loaded
  obtain ⟨read', -⟩ := read_of_ofLayers loaded'
  obtain ⟨given, same⟩ :=
    layers_with (apart_of_spared spared overrides) text (Raw.layOver file defaults)
  refine ⟨fun k' other ↦ read'.value_eq read same (isTable_of_under given) other, ?_⟩
  have items := same.sections "app_config" (by cases k.sec <;> decide)
  rw [read'.app_config, read.app_config, items]

/-- The laws hold of every setting.  If the file determines what is loaded without the variable, the
order of keys that was taken with it comes to that as well. -/
theorem layered (k : Setting) : Layered k where
  others _ _ _ _ _ _ _ := others_same
  apart := by
    intro environment file name text s s' named spared determined loaded loaded'
    obtain ⟨layer, source, reordered, overrides, with_k⟩ := loaded'
    obtain ⟨first, last, rfl, others⟩ := (overrides_cons_iff named spared).1 overrides
    have without : ofLayers layer (first ++ last) = .ok s :=
      determined _ _ ⟨layer, first ++ last, reordered, others, rfl⟩ loaded
    exact others_same spared others without with_k
  overridden := by
    intro environment file name text s named spared loaded
    obtain ⟨layer, source, -, overrides, with_k⟩ := loaded
    obtain ⟨first, last, rfl, others⟩ := (overrides_cons_iff named spared).1 overrides
    obtain ⟨read, -⟩ := read_of_ofLayers with_k
    obtain ⟨given, -⟩ :=
      layers_with (apart_of_spared spared others) text (Raw.layOver layer defaults)
    obtain ⟨ms, is_table⟩ := isTable_of_under given
    have fills := read.fills_by_name is_table
    rw [given] at fills
    exact fills
  filed := by
    intro scalar environment file s spared loaded
    obtain ⟨layer, source, reordered, overrides, loaded⟩ := loaded
    obtain ⟨read, -⟩ := read_of_ofLayers loaded
    refine ⟨layer, reordered, takenFrom_said read scalar spared overrides,
      fun items is_list ↦ ⟨?_, ?_⟩⟩
    · exact takenFrom_item read scalar overrides is_list
    · exact value_eq_default read scalar spared overrides is_list

variable {files : List NamedText} {path : Option String}

/-- The loading of the program is one with the keys in order. -/
theorem load_eq (layer : fileLayer files path = .ok file) :
    load files path environment = ofLayers file (ofEnvironment environment) := by
  rw [load, layer]
  rfl

/-- The first file that is found is among those that may be. -/
theorem fileGives_of_fileLayer (layer : fileLayer files path = .ok file) :
    FileGives .atHand files path file := by
  unfold fileLayer at layer
  unfold FileGives
  split at layer
  · rename_i absent
    cases layer
    rw [if_pos ⟨rfl, absent⟩]
  · rename_i named
    rw [if_neg fun none_found ↦ named none_found.1 none_found.2]
    split at layer
    · rename_i read
      cases layer
      obtain ⟨c, first, read⟩ := Option.bind_eq_some_iff.1 read
      exact ⟨c, List.mem_of_head? first, read⟩
    · cases layer

/-- What is loaded in ascending order is among what may be loaded. -/
theorem loads_of_load (loaded : load files path environment = .ok s) :
    Loads .atHand files path environment s := by
  cases layer : fileLayer files path with
  | error e =>
    rw [load, layer] at loaded
    cases loaded
  | ok file =>
    rw [load_eq layer] at loaded
    exact ⟨file, fileGives_of_fileLayer layer, file, _, .refl file,
      overrides_ofEnvironment environment, loaded⟩

/-- Whatever the format of the file and the order of keys, settings that are loaded are usable. -/
theorem usable_of_loads {readers : Readers} (loads : Loads readers files path environment s) :
    s.Usable := by
  obtain ⟨file, -, layer, source, -, -, loaded⟩ := loads
  exact validate_eq_ok_iff.1 (read_of_ofLayers loaded).2

/-- Every setting comes from the layers, the later over the earlier, and independently of the other
settings; keys that do not compete may come in any order; and whatever may be loaded, from a file in
whatever format, can be used. -/
theorem settings_layered : (∀ k, Layered k) ∧
    (∀ environment file, Raw.Clear file → OneForEach environment → Determined file environment) ∧
    ∀ readers files path environment s, Loads readers files path environment s → s.Usable :=
  ⟨layered, fun _ _ ↦ determined_of_clear, fun _ _ _ _ _ ↦ usable_of_loads⟩

theorem ofEnvironment_single {setting : String} (named : settingOf? name = some setting)
    (text : String) : ofEnvironment [(name, text)] = [(setting, ofText setting text)] := by
  have entry : overriding? (name, text) = some (setting, ofText setting text) := by
    rw [overriding?, named, Option.map_some]
  rw [ofEnvironment_eq, List.filterMap_cons_some entry]
  rfl

/-- A single variable, and no file. -/
theorem load_single {setting : String} (named : settingOf? name = some setting) (text : String) :
    load [] none [(name, text)] =
      ofRaw ((SettingPath.of setting).put (ofText setting text) defaults) := by
  show ofRaw (Raw.layOver (ofEnvironment [(name, text)]) defaults) = _
  rw [ofEnvironment_single named]
  rfl

/-- The layer of a settings file in TOML. -/
theorem fileLayer_toml {text : String}
    (read : (Toml.parse? (withoutMark text)).map Raw.ofTomlMembers = some file) :
    fileLayer [(defaultFile, text)] none = .ok file := by
  have present : textAt? [(defaultFile, text)] defaultFile = some text := by simp [textAt?]
  have format : (FileFormat.all.filter fun f ↦
      (extensionOf? defaultFile).any f.extensions.contains) = [.toml] := by decide +kernel
  have found : (candidates [(defaultFile, text)] defaultFile).head?.bind Readers.atHand.read? =
      some file := by
    unfold candidates
    rw [present]
    simp only [format]
    exact read
  simp only [fileLayer, present, Option.getD_none, found]

/-- The setting of what is done: an installation or an upgrade. -/
def mode : Setting := ⟨.workflow, 0, _, rfl⟩

/-- A file that says that there is a bundle. -/
def bundleText : String := "[workflow]\nairgap = true\n"

def bundleFile : List (String × Raw) := [("workflow", .table [("airgap", .bool true)])]

theorem fileLayer_bundle : fileLayer [(defaultFile, bundleText)] none = .ok bundleFile :=
  fileLayer_toml (by cbv)

set_option maxRecDepth 8000 in
/-- No two keys of this file are for one setting. -/
theorem clear_bundle : Raw.Clear bundleFile where
  names := List.forall_mem_singleton.2 (by cbv)
  distinct := by
    refine .single fun ms eq ↦ ?_
    cases eq
    refine .single fun ms eq ↦ ?_
    cases eq

set_option maxRecDepth 8000 in
/-- A variable makes an upgrade of what the file says, which says nothing else. -/
theorem mode_overridden :
    settingOf? "CLUSTER_INSTALLER_WORKFLOW__MODE" = some mode.path ∧ mode.Spared [] ∧
    Raw.Clear bundleFile ∧ OneForEach [] ∧ Determined bundleFile [] ∧
    ComesOf bundleFile [] (.ok { workflow := { airgap := true } }) ∧
    ComesOf bundleFile [("CLUSTER_INSTALLER_WORKFLOW__MODE", "upgrade")]
      (.ok { workflow := { mode := .upgrade, airgap := true } }) ∧
    (∀ k', k' ≠ mode → k'.value { workflow := { mode := .upgrade, airgap := true } } =
      k'.value { workflow := { airgap := true } }) ∧
    mode.told? (ofText mode.path "upgrade") = some (.string "upgrade") ∧
    Loads .atHand [(defaultFile, bundleText)] none
      [("CLUSTER_INSTALLER_WORKFLOW__MODE", "upgrade")]
      { workflow := { mode := .upgrade, airgap := true } } ∧
    Usable { workflow := { mode := .upgrade, airgap := true } } := by
  have named : settingOf? "CLUSTER_INSTALLER_WORKFLOW__MODE" = some mode.path := by cbv
  have spared : mode.Spared [] := spared_nil mode
  have said : ofText mode.path "upgrade" = .text "upgrade" := by cbv
  have without : ofLayers bundleFile [] = .ok { workflow := { airgap := true } } := by cbv
  have with_mode : ofLayers bundleFile [(mode.path, .text "upgrade")] =
      .ok { workflow := { mode := .upgrade, airgap := true } } := by cbv
  have comes : ComesOf bundleFile [] (.ok { workflow := { airgap := true } }) :=
    ⟨_, _, .refl _, overrides_ofEnvironment [], without⟩
  have loaded : load [(defaultFile, bundleText)] none
      [("CLUSTER_INSTALLER_WORKFLOW__MODE", "upgrade")] =
        .ok { workflow := { mode := .upgrade, airgap := true } } := by
    rw [load_eq fileLayer_bundle, ofEnvironment_single named, said]
    exact with_mode
  have comes_with : ComesOf bundleFile [("CLUSTER_INSTALLER_WORKFLOW__MODE", "upgrade")]
      (.ok { workflow := { mode := .upgrade, airgap := true } }) := by
    refine ⟨_, _, .refl _, overrides_ofEnvironment _, ?_⟩
    rw [ofEnvironment_single named, said]
    exact with_mode
  have loads := loads_of_load loaded
  obtain ⟨layered, determined, usable⟩ := settings_layered
  have one_outcome := determined [] bundleFile clear_bundle oneForEach_nil
  exact ⟨named, spared, clear_bundle, oneForEach_nil, one_outcome, comes, comes_with,
    ((layered mode).apart _ _ _ _ _ _ named spared one_outcome comes comes_with).1,
    (layered mode).overridden _ _ _ _ _ named spared comes_with, loads,
    usable _ _ _ _ _ loads⟩

/-! ### A list that gives way -/

/-- Variables for other settings spare this one. -/
theorem spared_of_others
    (others : ∀ e ∈ environment, ∃ k', k' ≠ k ∧ settingOf? e.1 = some k'.path) :
    k.Spared environment := by
  intro e mem setting named
  obtain ⟨k', differ, named'⟩ := others e mem
  cases named.symm.trans named'
  exact apart_of_ne differ

/-- A value that is loaded with some order of overrides is one that may come of the sources. -/
theorem exists_comesOf_of_value {v : Json}
    (loaded : (ofLayers file source).toOption.map k.value = some v)
    (overrides : Overrides environment source) :
    ∃ s, ComesOf file environment (.ok s) ∧ k.value s = v := by
  obtain ⟨s, given, value⟩ := Option.map_eq_some_iff.1 loaded
  cases result : ofLayers file source with
  | error e =>
    rw [result] at given
    cases given
  | ok s' =>
    rw [result] at given
    cases given
    exact ⟨s, ⟨file, source, .refl file, overrides, result⟩, value⟩

def hostPreflights : Setting := ⟨.steps, 2, _, rfl⟩

def listedText : String :=
  "steps = [\"sh\", \"/srv\", \"./check\", \"\", \"\", \"\", \"\", \"\", \"\", [], \"shop\", \"v1\"]\n"

def listedItems : List Raw :=
  [.text "sh", .text "/srv", .text "./check", .text "", .text "", .text "", .text "", .text "",
    .text "", .list [], .text "shop", .text "v1"]

def neededSteps : List (String × String) :=
  [("CLUSTER_INSTALLER_STEPS__SHELL", "bash"),
    ("CLUSTER_INSTALLER_STEPS__INFRA_COMPONENTS", "node"),
    ("CLUSTER_INSTALLER_STEPS__APP_NAME", "shop"), ("CLUSTER_INSTALLER_STEPS__APP_VERSION", "v2")]

set_option maxRecDepth 8000 in
theorem fileLayer_listed :
    fileLayer [(defaultFile, listedText)] none = .ok [("steps", .list listedItems)] :=
  fileLayer_toml (by cbv)

set_option maxRecDepth 8000 in
theorem ofEnvironment_neededSteps : ofEnvironment neededSteps =
    [("steps.app_name", .text "shop"), ("steps.app_version", .text "v2"),
      ("steps.infra_components", .list [.text "node"]), ("steps.shell", .text "bash")] := by
  have entry (name setting text : String) (v : Raw) (named : settingOf? name = some setting)
      (read : ofText setting text = v) : overriding? (name, text) = some (setting, v) := by
    rw [overriding?, named, Option.map_some, read]
  rw [ofEnvironment_eq, neededSteps,
    List.filterMap_cons_some (entry _ "steps.shell" _ (.text "bash") (by cbv) (by cbv)),
    List.filterMap_cons_some
      (entry _ "steps.infra_components" _ (.list [.text "node"]) (by cbv) (by cbv)),
    List.filterMap_cons_some (entry _ "steps.app_name" _ (.text "shop") (by cbv) (by cbv)),
    List.filterMap_cons_some (entry _ "steps.app_version" _ (.text "v2") (by cbv) (by cbv)),
    List.filterMap_nil]
  cbv

set_option maxRecDepth 8000 in
theorem spared_neededSteps : hostPreflights.Spared neededSteps := by
  have other (i : Nat) (f : Form.Field Section.steps.Values)
      (listed : Section.steps.fields[i]? = some f) (name : String) (differ : i ≠ 2)
      (named : settingOf? name = some ("steps." ++ f.name)) :
      ∃ k', k' ≠ hostPreflights ∧ settingOf? name = some k'.path :=
    ⟨⟨.steps, i, f, listed⟩, fun same ↦ differ (congrArg Setting.index same), named⟩
  refine spared_of_others fun e mem ↦ ?_
  simp only [neededSteps, List.mem_cons, List.not_mem_nil, or_false] at mem
  rcases mem with rfl | rfl | rfl | rfl
  · exact other 0 _ rfl _ (by decide) (by cbv)
  · exact other 9 _ rfl _ (by decide) (by cbv)
  · exact other 10 _ rfl _ (by decide) (by cbv)
  · exact other 11 _ rfl _ (by decide) (by cbv)

/-! ### Keys that compete -/

/-- A file with two keys for one setting. -/
def competingText : String := "[steps]\nAPP_NAME = \"shop\"\napp_name = \"store\"\n"

def competing : List (String × Raw) :=
  [("steps", .table [("APP_NAME", .text "shop"), ("app_name", .text "store")])]

def competingSwapped : List (String × Raw) :=
  [("steps", .table [("app_name", .text "store"), ("APP_NAME", .text "shop")])]

set_option maxRecDepth 8000 in
theorem fileLayer_competing : fileLayer [(defaultFile, competingText)] none = .ok competing :=
  fileLayer_toml (by cbv)

theorem reordered_competing : Raw.Reordered competing competingSwapped :=
  .inside "steps" (.swap _ _ []) .nil

def appName : Setting := ⟨.steps, 10, _, rfl⟩

/-- Keys of the steps that differ only in the case of letters come to the same. -/
theorem ofLayers_steps_of_folded {ms ms' : List (String × Raw)}
    (same : ms.Forall₂ (fun m m' ↦ Raw.folded m.1 = Raw.folded m'.1 ∧ m.2 = m'.2) ms') :
    ofLayers [("steps", .table ms)] source = ofLayers [("steps", .table ms')] source := by
  have path : SettingPath.of "steps" = .name "steps" := by cbv
  unfold ofLayers Raw.layOver
  rw [List.foldl_cons, List.foldl_cons, path, SettingPath.put, SettingPath.put, Raw.put_eq,
    Raw.put_eq]
  have merged : Raw.merged (.table ms) = Raw.merged (.table ms') :=
    funext fun old ↦ Raw.putMembers_of_folded same _
  rw [merged]

/-- Without variables, the later of the two keys says what the name is. -/
theorem comesOf_competing : ComesOf competing [] (.ok { steps := { appName := "store" } }) := by
  have same : Raw.folded "APP_NAME" = Raw.folded "app_name" := by cbv
  refine ⟨_, _, .refl _, overrides_ofEnvironment [], ?_⟩
  have lower : ofLayers competing [] = ofLayers
      [("steps", .table [("app_name", .text "shop"), ("app_name", .text "store")])] [] :=
    ofLayers_steps_of_folded (.cons ⟨same, rfl⟩ (.cons ⟨rfl, rfl⟩ .nil))
  refine lower.trans ?_
  cbv

/-- With a variable for something else, the other key may be the later one. -/
theorem comesOf_competing_mode
    (named : settingOf? "CLUSTER_INSTALLER_WORKFLOW__MODE" = some mode.path) :
    ComesOf competing [("CLUSTER_INSTALLER_WORKFLOW__MODE", "upgrade")]
      (.ok { workflow := { mode := .upgrade }, steps := { appName := "shop" } }) := by
  have same : Raw.folded "APP_NAME" = Raw.folded "app_name" := by cbv
  have said : ofText mode.path "upgrade" = .text "upgrade" := by cbv
  have lower : ofLayers competingSwapped [(mode.path, .text "upgrade")] = ofLayers
      [("steps", .table [("app_name", .text "store"), ("app_name", .text "shop")])]
      [(mode.path, .text "upgrade")] :=
    ofLayers_steps_of_folded (.cons ⟨rfl, rfl⟩ (.cons ⟨same, rfl⟩ .nil))
  refine ⟨_, _, reordered_competing, overrides_ofEnvironment _, ?_⟩
  rw [ofEnvironment_single named, said, lower]
  cbv

set_option maxRecDepth 8000 in
/-- No account of what a file sets settles the values of the settings that no variable overrides:
those that it sets by their places in a list are lost when variables override what else their
section needs.  And where two keys of a file name one setting, a variable for another setting may
seem to change it, as either key may win whenever the settings are loaded. -/
theorem list_gives_way : (¬∀ k : Setting, k.Scalar → ∀ file, ∃ filed : Option Json,
    ∀ environment s, k.Spared environment → ComesOf file environment (.ok s) →
      k.value s = filed.getD k.default) ∧
    (load [(defaultFile, listedText)] none []).toOption.map hostPreflights.value =
      some (.string "./check") ∧
    (load [(defaultFile, listedText)] none neededSteps).toOption.map hostPreflights.value =
      some .null ∧
    ¬∀ (k : Setting) files path environment name text s s', settingOf? name = some k.path →
      k.Spared environment → Loads .atHand files path environment s →
      Loads .atHand files path ((name, text) :: environment) s' →
      ∀ k' : Setting, k' ≠ k → k'.value s' = k'.value s := by
  have listed : (ofLayers [("steps", .list listedItems)] (ofEnvironment [])).toOption.map
      hostPreflights.value = some (.string "./check") := by cbv
  have overridden : (ofLayers [("steps", .list listedItems)]
      (ofEnvironment neededSteps)).toOption.map hostPreflights.value = some .null := by
    rw [ofEnvironment_neededSteps]
    cbv
  refine ⟨fun settled ↦ ?_, ?_, ?_, fun agree ↦ ?_⟩
  · have scalar : hostPreflights.Scalar := fun _ same ↦ by cases same
    obtain ⟨filed, values⟩ := settled hostPreflights scalar [("steps", .list listedItems)]
    obtain ⟨s, loaded, value⟩ := exists_comesOf_of_value listed (overrides_ofEnvironment [])
    obtain ⟨s', loaded', value'⟩ :=
      exists_comesOf_of_value overridden (overrides_ofEnvironment neededSteps)
    have alone := values [] s (spared_nil hostPreflights) loaded
    have beside := values neededSteps s' spared_neededSteps loaded'
    cases value.symm.trans (alone.trans (beside.symm.trans value'))
  · rw [load_eq fileLayer_listed]
    exact listed
  · rw [load_eq fileLayer_listed]
    exact overridden
  · have named : settingOf? "CLUSTER_INSTALLER_WORKFLOW__MODE" = some mode.path := by cbv
    have differ : appName ≠ mode := fun same ↦ by cases congrArg Setting.sec same
    have given := fileGives_of_fileLayer fileLayer_competing
    have names := agree mode _ _ [] _ "upgrade" _ _ named (spared_nil mode)
      ⟨competing, given, comesOf_competing⟩ ⟨competing, given, comesOf_competing_mode named⟩
      appName differ
    exact absurd (Json.string.inj names) (by decide)

end Settings
end Rollout
