import Rollout.Proofs.Sections

/-!
# Keys in any order

The keys of a table are gone through in no fixed order.  Where each of them changes something of its
own the order does not matter: laying values under different keys commutes (`Raw.put_comm`), and so
does laying values at different settings (`Settings.put_path_comm`).  Hence a file in which no two
keys compete (`Raw.Clear`) and variables of which no two override the same setting
(`Settings.OneForEach`) come to the same whatever the order (`Raw.layOver_of_reordered`,
`Settings.layOver_of_overrides`).
-/

namespace Rollout

/-! ### Entries under different keys -/

variable {α : Type} {key key' : String}

/-- Entries with different keys may be put into a list in either order. -/
theorem insertEntry_comm (differ : key ≠ key') (v w : α) (l : List (String × α)) :
    insertEntry key' w (insertEntry key v l) = insertEntry key v (insertEntry key' w l) := by
  induction l with
  | nil => grind [insertEntry, key_lt_of_not, String.lt_asymm]
  | cons e more ih => grind [insertEntry, key_lt_of_not, String.lt_asymm, String.lt_trans]

/-- The later entry with a key replaces the earlier one. -/
theorem insertEntry_again (key : String) (v w : α) (l : List (String × α)) :
    insertEntry key w (insertEntry key v l) = insertEntry key w l := by
  induction l with
  | nil => grind [insertEntry, String.lt_irrefl]
  | cons e more ih => grind [insertEntry, String.lt_irrefl]

namespace Dict

/-- Entries under different keys may be put in either way round. -/
theorem insert_comm (d : Dict α) (differ : key ≠ key') (v w : α) :
    (d.insert key v).insert key' w = (d.insert key' w).insert key v := by
  ext k : 1
  rw [get?_insert, get?_insert, get?_insert, get?_insert]
  by_cases first : key = k
  · rw [if_neg fun same ↦ differ (first.trans same.symm), if_pos first, if_pos first]
  · rw [if_neg first, if_neg first]

/-- Entries with different keys make the same dictionary in whatever order. -/
theorem ofList_perm {l l' : List (String × α)} (same : l.Perm l') (once : (l.map (·.1)).Nodup) :
    ofList l = ofList l' := by
  refine List.Perm.foldl_eq' same (fun a mem_a b mem_b d ↦ ?_) empty
  by_cases keys : a.1 = b.1
  · rw [List.inj_on_of_nodup_map once mem_a mem_b keys]
  · exact d.insert_comm keys a.2 b.2

end Dict

namespace Raw

/-! ### The members of a table -/

variable {root : Raw} {change change' : Option Raw → Raw} {ms ms' : List (String × Raw)}

/-- Members under different keys may be changed either way round. -/
theorem alter_comm (differ : key ≠ key') : (root.alter key change).alter key' change' =
    (root.alter key' change').alter key change := by
  have here : (root.alter key change).get? key' = root.get? key' := by
    rw [get?_alter, if_neg differ]
  have there : (root.alter key' change').get? key = root.get? key := by
    rw [get?_alter, if_neg differ.symm]
  calc (root.alter key change).alter key' change'
    _ = table (insertEntry key' (change' (root.get? key'))
          (insertEntry key (change (root.get? key)) root.members)) := by rw [alter, here]; rfl
    _ = table (insertEntry key (change (root.get? key))
          (insertEntry key' (change' (root.get? key')) root.members)) := by
      rw [insertEntry_comm differ]
    _ = (root.alter key' change').alter key change := by rw [alter.eq_1 key, there]; rfl

theorem alter_alter : (root.alter key change).alter key change' =
    root.alter key fun old ↦ change' (some (change old)) := by
  rw [alter, get?_alter, if_pos rfl]
  exact congrArg table (insertEntry_again key _ _ root.members)

/-- Values under different keys may be laid in either order. -/
theorem put_comm (differ : folded key ≠ folded key') (v w : Raw) :
    (root.put key v).put key' w = (root.put key' w).put key v := by
  rw [put_eq, put_eq, put_eq, put_eq, alter_comm differ]

/-- Keys that are the same but for case lead to the same members. -/
theorem putMembers_of_folded
    (same : ms.Forall₂ (fun m m' ↦ folded m.1 = folded m'.1 ∧ m.2 = m'.2) ms') (root : Raw) :
    root.putMembers ms = root.putMembers ms' := by
  induction same generalizing root with
  | nil => rfl
  | cons here _ ih =>
    obtain ⟨keys, values⟩ := here
    rw [putMembers, putMembers, put_eq, put_eq, keys, values]
    exact ih _

/-- No two keys of a table are the same but for case. -/
inductive Distinct : List (String × Raw) → Prop where
  | nil : Distinct []
  | cons {m : String × Raw} {more : List (String × Raw)} :
      (∀ e ∈ more, folded m.1 ≠ folded e.1) → (∀ ms, m.2 = table ms → Distinct ms) →
      Distinct more → Distinct (m :: more)

theorem Distinct.single {m : String × Raw} (inside : ∀ ms, m.2 = table ms → Distinct ms) :
    Distinct [m] :=
  .cons (fun _ mem ↦ absurd mem List.not_mem_nil) inside .nil

namespace Reordered

variable (same : Reordered ms ms')

theorem refl (ms : List (String × Raw)) : Reordered ms ms := by
  induction ms with
  | nil => exact .nil
  | cons m more ih => exact .keep m ih

include same

/-- Each key is still there. -/
theorem exists_mem : ∀ e' ∈ ms', ∃ e ∈ ms, e.1 = e'.1 := by
  induction same with
  | nil => exact fun _ mem ↦ ⟨_, mem, rfl⟩
  | keep m _ ih =>
    intro e' mem
    obtain rfl | later := List.mem_cons.1 mem
    · exact ⟨_, List.mem_cons_self, rfl⟩
    · obtain ⟨e, given, key⟩ := ih e' later
      exact ⟨e, List.mem_cons_of_mem _ given, key⟩
  | inside key _ _ _ ih =>
    intro e' mem
    obtain rfl | later := List.mem_cons.1 mem
    · exact ⟨_, List.mem_cons_self, rfl⟩
    · obtain ⟨e, given, key⟩ := ih e' later
      exact ⟨e, List.mem_cons_of_mem _ given, key⟩
  | swap m m' more => exact fun e' mem ↦ ⟨e', (List.Perm.swap m m' more).mem_iff.1 mem, rfl⟩
  | trans _ _ first second =>
    intro e'' mem
    obtain ⟨e', mem', key'⟩ := second e'' mem
    obtain ⟨e, mem, key⟩ := first e' mem'
    exact ⟨e, mem, key.trans key'⟩

/-- Keys that compete with none do not compete in another order. -/
theorem distinct (keys : Distinct ms) : Distinct ms' := by
  induction same with
  | nil => exact keys
  | keep m same ih =>
    cases keys with
    | cons elsewhere inner more =>
      refine .cons (fun e' mem ↦ ?_) inner (ih more)
      obtain ⟨e, given, key⟩ := same.exists_mem e' mem
      exact key ▸ elsewhere e given
  | inside key _ same inner_ih ih =>
    cases keys with
    | cons elsewhere inner more =>
      refine .cons (fun e' mem ↦ ?_) (fun ms eq ↦ ?_) (ih more)
      · obtain ⟨e, given, key⟩ := same.exists_mem e' mem
        exact key ▸ elsewhere e given
      · cases eq
        exact inner_ih (inner _ rfl)
  | swap m m' more =>
    cases keys with
    | cons elsewhere inner rest =>
      cases rest with
      | cons elsewhere' inner' rest =>
        obtain ⟨differ, others⟩ := List.forall_mem_cons.1 elsewhere
        exact .cons (List.forall_mem_cons.2 ⟨differ.symm, elsewhere'⟩) inner'
          (.cons others inner rest)
  | trans _ _ first second => exact second (first keys)

/-- Members that do not compete may be laid in any order. -/
theorem putMembers_eq (keys : Distinct ms) (root : Raw) :
    root.putMembers ms = root.putMembers ms' := by
  induction same generalizing root with
  | nil => rfl
  | keep m _ ih =>
    cases keys with
    | cons _ _ more => exact ih more _
  | inside key _ _ inner_ih ih =>
    cases keys with
    | cons _ inner more =>
      rw [putMembers, putMembers, put_eq, put_eq]
      have merged_eq : merged (table _) = merged (table _) :=
        funext fun old ↦ inner_ih (inner _ rfl) (old.getD (table []))
      rw [merged_eq]
      exact ih more _
  | swap m m' more =>
    cases keys with
    | cons elsewhere _ _ =>
      have differ : folded m.1 ≠ folded m'.1 := elsewhere m' List.mem_cons_self
      rw [putMembers, putMembers, putMembers, putMembers, put_comm differ]
  | trans first _ ih ih' => exact (ih keys root).trans (ih' (first.distinct keys) root)

end Reordered

/-- No two keys of a file compete: its top holds names, not paths, and no table has two keys that
are the same but for case. -/
structure Clear (file : List (String × Raw)) : Prop where
  names : ∀ e ∈ file, SettingPath.of e.1 = .name e.1
  distinct : Distinct file

theorem clear_nil : Clear [] := ⟨nofun, .nil⟩

/-- A file whose keys are names is laid over the defaults member by member. -/
theorem layOver_eq_putMembers {file : List (String × Raw)}
    (names : ∀ e ∈ file, SettingPath.of e.1 = .name e.1) (root : Raw) :
    layOver file root = root.putMembers file := by
  induction file generalizing root with
  | nil => rfl
  | cons e more ih =>
    obtain ⟨here, others⟩ := List.forall_mem_cons.1 names
    rw [layOver, List.foldl_cons, here]
    exact ih others _

/-- A file whose keys do not compete may be gone through in any order. -/
theorem layOver_of_reordered {file layer : List (String × Raw)} (clear : Clear file)
    (same : Reordered file layer) (root : Raw) : layOver layer root = layOver file root := by
  have names : ∀ e ∈ layer, SettingPath.of e.1 = .name e.1 := by
    intro e' mem
    obtain ⟨e, given, key⟩ := same.exists_mem e' mem
    exact key ▸ clear.names e given
  rw [layOver_eq_putMembers names, layOver_eq_putMembers clear.names,
    same.putMembers_eq clear.distinct]

end Raw

namespace Settings

/-! ### Variables for different settings -/

variable {k k' : Setting} {environment : List (String × String)}
  {source source' : List (String × Raw)}

/-- The place of a setting. -/
theorem place_path (k : Setting) :
    (SettingPath.of k.path).place = [.key k.sec.name, .key k.name] :=
  k.regular.place

/-- Values may be laid at different settings in either order. -/
theorem put_path_comm (differ : k ≠ k') (v w root : Raw) :
    (SettingPath.of k'.path).put w ((SettingPath.of k.path).put v root) =
      (SettingPath.of k.path).put v ((SettingPath.of k'.path).put w root) := by
  simp only [SettingPath.put_eq, place_path, Raw.changeAt, Raw.Step.change, Option.getD_some]
  by_cases sections : k.sec.name = k'.sec.name
  · have names : k.name ≠ k'.name := fun names ↦
      differ (Setting.eq_of_names (Section.name_inj sections) names)
    rw [sections, Raw.alter_alter, Raw.alter_alter]
    exact congrArg (Raw.alter _ · root) (funext fun old ↦ Raw.alter_comm names)
  · exact Raw.alter_comm sections

/-- What a variable says, if it overrides something. -/
def overriding? (v : String × String) : Option (String × Raw) :=
  (settingOf? v.1).map fun setting ↦ (setting, ofText setting v.2)

/-- What the variables override. -/
def overridden (environment : List (String × String)) : List String :=
  environment.filterMap fun v ↦ settingOf? v.1

/-- The variables override settings, and no two of them the same. -/
structure OneForEach (environment : List (String × String)) : Prop where
  settings : ∀ name ∈ overridden environment, ∃ k : Setting, name = k.path
  once : (overridden environment).Nodup

theorem oneForEach_nil : OneForEach [] := ⟨nofun, .nil⟩

/-- The variables are laid in the order of the settings that they override; of several for one
setting the last one counts. -/
theorem ofEnvironment_eq (environment : List (String × String)) :
    ofEnvironment environment = (Dict.ofList (environment.filterMap overriding?)).entries := rfl

theorem keys_overriding (environment : List (String × String)) :
    (environment.filterMap overriding?).map (·.1) = overridden environment := by
  have entry (v : String × String) : (overriding? v).map (·.1) = settingOf? v.1 := by
    unfold overriding?
    cases settingOf? v.1 <;> rfl
  rw [List.map_filterMap]
  exact congrArg (List.filterMap · environment) (funext entry)

/-- With one variable for each setting, the order of the environment does not matter. -/
theorem ofEnvironment_perm {order : List (String × String)} (one : OneForEach environment)
    (same : order.Perm environment) : ofEnvironment order = ofEnvironment environment := by
  rw [ofEnvironment_eq, ofEnvironment_eq,
    Dict.ofList_perm (same.symm.filterMap overriding?) (keys_overriding environment ▸ one.once)]

/-- Variables that override different settings may be gone through in any order. -/
theorem layOver_of_overrides (one : OneForEach environment) (given : Overrides environment source)
    (root : Raw) : Raw.layOver source root = Raw.layOver (ofEnvironment environment) root := by
  obtain ⟨order, same_order, same_source⟩ := given
  rw [ofEnvironment_perm one same_order] at same_source
  have settings : ∀ e ∈ source, ∃ k : Setting, e.1 = k.path := by
    intro e mem
    have mem' : e ∈ environment.filterMap overriding? :=
      Dict.mem_of_mem_ofList (same_source.mem_iff.1 mem)
    exact one.settings e.1 (keys_overriding environment ▸ List.mem_map_of_mem mem')
  have once : (source.map (·.1)).Nodup :=
    ((same_source.map (·.1)).nodup_iff).2 (Dict.keys_nodup _)
  refine List.Perm.foldl_eq' same_source (fun a mem_a b mem_b root ↦ ?_) root
  by_cases keys : a.1 = b.1
  · rw [List.inj_on_of_nodup_map once mem_a mem_b keys]
  · obtain ⟨k, path⟩ := settings a mem_a
    obtain ⟨k', path'⟩ := settings b mem_b
    rw [path, path'] at keys ⊢
    exact put_path_comm (fun same ↦ keys (congrArg Setting.path same)) a.2 b.2 root

/-! ### One outcome -/

/-- What comes of the file and the environment does not hang on the order of keys. -/
def Determined (file : List (String × Raw)) (environment : List (String × String)) : Prop :=
  ∀ r r', ComesOf file environment r → ComesOf file environment r' → r = r'

/-- A clear file with one variable for each setting is loaded alike in every order of keys. -/
theorem ComesOf.eq_ofLayers {file : List (String × Raw)} {r : Except LoadError Settings}
    (clear : Raw.Clear file) (one : OneForEach environment) (comes : ComesOf file environment r) :
    r = ofLayers file (ofEnvironment environment) := by
  obtain ⟨layer, source, same, given, rfl⟩ := comes
  unfold ofLayers
  rw [layOver_of_overrides one given, Raw.layOver_of_reordered clear same]

/-- A clear file with one variable for each setting determines what is loaded. -/
theorem determined_of_clear {file : List (String × Raw)} (clear : Raw.Clear file)
    (one : OneForEach environment) : Determined file environment :=
  fun _ _ comes comes' ↦ (comes.eq_ofLayers clear one).trans (comes'.eq_ofLayers clear one).symm

end Settings
end Rollout
