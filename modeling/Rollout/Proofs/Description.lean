import Mathlib.Data.List.Basic
import Rollout.Proofs.Arrangement
import Rollout.Text.Front
import Rollout.Workflow.Install
import Rollout.Workflow.Upgrade

/-!
# Reading a description

A description of a table has a line for each target, with the names of its predecessors.  It can be
read back: the text is cut at its line breaks, each line at its first arrow, and what follows the
arrow at the commas (`readDescription?`).  Names without spaces, commas and line breaks contain none
of these marks, not even the beginning of one, so every cut falls where the printer put the mark;
and since no name is empty, a line with nothing behind the arrow is one without predecessors.

What is read depends on the table only, not on how it is arranged, and the table on what is read, if
each target is listed once and states are told apart by their names (`descriptions_determine`).
-/

namespace Rollout
namespace TransitionTable

/-! ### Cutting texts -/

/-- The text before the first `mark`, and the text behind it. -/
def cut? (mark : List Char) : List Char → Option (List Char × List Char)
  | [] => none
  | c :: s =>
    match Text.readWord? mark (c :: s) with
    | some _ => some ([], s.drop (mark.length - 1))
    | none => (cut? mark s).map fun (front, rest) ↦ (c :: front, rest)

theorem length_of_cut? {mark s front rest : List Char} (h : cut? mark s = some (front, rest)) :
    rest.length < s.length := by
  induction s generalizing front with
  | nil => cases h
  | cons c s ih =>
    rw [cut?] at h
    split at h
    · obtain ⟨-, rfl⟩ := Prod.mk.inj (Option.some.inj h)
      simp only [List.length_drop, List.length_cons]
      omega
    · obtain ⟨_, later, eq⟩ := Option.map_eq_some_iff.1 h
      obtain ⟨-, rfl⟩ := Prod.mk.inj eq
      exact Nat.lt_succ_of_lt (ih later)

def pieces (mark s : List Char) : List (List Char) :=
  match _cut : cut? mark s with
  | none => [s]
  | some (front, rest) => front :: pieces mark rest
termination_by s.length
decreasing_by exact length_of_cut? _cut

section Cut

variable {m : Char} {mark front rest : List Char}

theorem readWord?_append (word s : List Char) : Text.readWord? word (word ++ s) = some s := by
  induction word with
  | nil => rfl
  | cons c word ih => simp [Text.readWord?, Text.readChar?, ih]

theorem cut?_cons_of_ne {c : Char} (other : c ≠ m) (s : List Char) :
    cut? (m :: mark) (c :: s) =
      (cut? (m :: mark) s).map fun (front, rest) ↦ (c :: front, rest) := by
  rw [cut?]
  simp [Text.readWord?, Text.readChar?, Ne.symm other]

/-- The cut falls at the mark, if not even its first character comes earlier. -/
theorem cut?_append (free : m ∉ front) (rest : List Char) :
    cut? (m :: mark) (front ++ m :: mark ++ rest) = some (front, rest) := by
  induction front with
  | nil =>
    rw [List.nil_append, List.cons_append, cut?, ← List.cons_append, readWord?_append]
    simp
  | cons c front ih =>
    obtain ⟨other, free⟩ := not_or.1 (List.mem_cons.not.1 free)
    rw [List.cons_append, List.cons_append, cut?_cons_of_ne (Ne.symm other), ih free]
    rfl

theorem cut?_eq_none (free : m ∉ front) : cut? (m :: mark) front = none := by
  induction front with
  | nil => rfl
  | cons c front ih =>
    obtain ⟨other, free⟩ := not_or.1 (List.mem_cons.not.1 free)
    rw [cut?_cons_of_ne (Ne.symm other), ih free, Option.map_none]

/-- Texts that have been put together with marks between them are taken apart again. -/
theorem pieces_intercalate {texts : List (List Char)} (some_text : texts ≠ [])
    (free : ∀ text ∈ texts, m ∉ text) :
    pieces (m :: mark) ((m :: mark).intercalate texts) = texts := by
  induction texts with
  | nil => exact absurd rfl some_text
  | cons text more ih =>
    obtain ⟨first, others⟩ := List.forall_mem_cons.1 free
    unfold pieces
    cases more with
    | nil =>
      rw [List.intercalate_singleton]
      split
      · rfl
      · rename_i cut
        exact nomatch (cut?_eq_none first).symm.trans cut
    | cons next more =>
      rw [List.intercalate_cons_cons]
      split
      · rename_i uncut
        exact nomatch (cut?_append first _).symm.trans uncut
      · rename_i front rest cut
        obtain ⟨rfl, rfl⟩ := Prod.mk.inj (Option.some.inj ((cut?_append first _).symm.trans cut))
        rw [ih (List.cons_ne_nil _ _) others]

end Cut

/-! ### Reading -/

/-- The target that a line names, and the predecessors that it names. -/
def readLine? (line : List Char) : Option (String × List String) :=
  (cut? arrow.toList line).map fun (target, sources) ↦
    (String.ofList target,
      if sources = [] then [] else (pieces comma.toList sources).map String.ofList)

/-- The lines of a description; an empty text has none. -/
def readDescription? (text : String) : Option (List (String × List String)) :=
  if text = "" then some [] else (pieces ['\n'] text.toList).mapM readLine?

/-- A name that may stand in a description. -/
structure Legible (name : String) : Prop where
  nonempty : name ≠ ""
  plain : ∀ c ∈ name.toList, c ≠ ' ' ∧ c ≠ ',' ∧ c ≠ '\n'

/-- The test that a name is legible. -/
theorem Legible.of_all {name : String}
    (h : (name != "" && name.toList.all fun c ↦ c != ' ' && c != ',' && c != '\n') = true) :
    Legible name := by
  obtain ⟨nonempty, plain⟩ := Bool.and_eq_true_iff.1 h
  refine ⟨bne_iff_ne.1 nonempty, fun c mem ↦ ?_⟩
  simpa [and_assoc] using List.all_eq_true.1 plain c mem

section Lines

variable {target : String} {sources : List String}

def lineOf (target : String) (sources : List String) : String :=
  target ++ arrow ++ comma.intercalate sources

theorem intercalate_eq_nil (legible : ∀ name ∈ sources, Legible name) :
    comma.toList.intercalate (sources.map String.toList) = [] ↔ sources = [] := by
  cases sources with
  | nil => simp
  | cons name more =>
    have some_char : name.toList ≠ [] := fun none ↦
      (legible name List.mem_cons_self).nonempty (String.toList_eq_nil_iff.1 none)
    cases more <;> simp [List.intercalate_cons_cons, some_char]

/-- A line is read back as the target and the predecessors that it was written for. -/
theorem readLine?_lineOf (target_legible : Legible target)
    (legible : ∀ name ∈ sources, Legible name) :
    readLine? (lineOf target sources).toList = some (target, sources) := by
  have at_arrow : cut? arrow.toList (lineOf target sources).toList =
      some (target.toList, comma.toList.intercalate (sources.map String.toList)) := by
    rw [lineOf, String.toList_append, String.toList_append, String.toList_intercalate]
    exact cut?_append (fun space ↦ (target_legible.plain _ space).1 rfl) _
  have names : (if comma.toList.intercalate (sources.map String.toList) = [] then []
      else (pieces comma.toList (comma.toList.intercalate (sources.map String.toList))).map
        String.ofList) = sources := by
    by_cases none : sources = []
    · rw [if_pos ((intercalate_eq_nil legible).2 none), none]
    · rw [if_neg (mt (intercalate_eq_nil legible).1 none)]
      have free : ∀ text ∈ sources.map String.toList, ',' ∉ text := by
        intro text mem comma_in
        obtain ⟨name, listed, rfl⟩ := List.mem_map.1 mem
        exact ((legible name listed).plain _ comma_in).2.1 rfl
      have apart : pieces comma.toList (comma.toList.intercalate (sources.map String.toList)) =
          sources.map String.toList :=
        pieces_intercalate (mt List.map_eq_nil_iff.1 none) free
      rw [apart, List.map_map]
      exact (List.map_congr_left fun name _ ↦ String.ofList_toList).trans (List.map_id _)
  rw [readLine?, at_arrow, Option.map_some]
  exact congrArg some (Prod.ext String.ofList_toList names)

/-- A line with legible names stays on its line. -/
theorem line_break_not_mem_lineOf (target_legible : Legible target)
    (legible : ∀ name ∈ sources, Legible name) : '\n' ∉ (lineOf target sources).toList := by
  have in_sources : '\n' ∉ comma.toList.intercalate (sources.map String.toList) := by
    clear target_legible
    induction sources with
    | nil => simp
    | cons name more ih =>
      obtain ⟨first, others⟩ := List.forall_mem_cons.1 legible
      have in_name : '\n' ∉ name.toList := fun mem ↦ (first.plain _ mem).2.2 rfl
      cases more with
      | nil => simpa using in_name
      | cons next more =>
        have in_comma : '\n' ∉ comma.toList := by decide
        rw [List.map_cons, List.map_cons, List.intercalate_cons_cons]
        simp only [List.mem_append, not_or]
        exact ⟨⟨in_name, in_comma⟩, ih others⟩
  have in_arrow : '\n' ∉ arrow.toList := by decide
  rw [lineOf, String.toList_append, String.toList_append, String.toList_intercalate]
  simp only [List.mem_append, not_or]
  exact ⟨⟨fun mem ↦ (target_legible.plain _ mem).2.2 rfl, in_arrow⟩, in_sources⟩

/-- A description is read as the lines that it was put together from. -/
theorem readDescription?_lines {lines : List (String × List String)}
    (legible : ∀ line ∈ lines, Legible line.1 ∧ ∀ name ∈ line.2, Legible name) :
    readDescription? ("\n".intercalate (lines.map fun line ↦ lineOf line.1 line.2)) =
      some lines := by
  have each : (lines.map fun line ↦ (lineOf line.1 line.2).toList).mapM readLine? = some lines := by
    induction lines with
    | nil => rfl
    | cons line lines ih =>
      obtain ⟨⟨first, names⟩, others⟩ := List.forall_mem_cons.1 legible
      rw [List.map_cons, List.mapM_cons, readLine?_lineOf first names, ih others]
      rfl
  cases lines with
  | nil => rfl
  | cons line lines =>
    set text := "\n".intercalate ((line :: lines).map fun line ↦ lineOf line.1 line.2) with is_text
    have chars : text.toList =
        ['\n'].intercalate ((line :: lines).map fun line ↦ (lineOf line.1 line.2).toList) := by
      rw [is_text, String.toList_intercalate, List.map_map]
      rfl
    have apart : pieces ['\n'] text.toList =
        (line :: lines).map fun line ↦ (lineOf line.1 line.2).toList := by
      rw [chars]
      refine pieces_intercalate (List.cons_ne_nil _ _) fun s mem ↦ ?_
      obtain ⟨l, listed, rfl⟩ := List.mem_map.1 mem
      exact line_break_not_mem_lineOf (legible l listed).1 (legible l listed).2
    have some_text : text ≠ "" := by
      intro none
      have alone : pieces ['\n'] (['\n'].intercalate [[]]) = [[]] :=
        pieces_intercalate (List.cons_ne_nil _ _) (by simp)
      have no_char : text.toList = ['\n'].intercalate [[]] := none ▸ rfl
      obtain ⟨first, -⟩ := List.cons.inj (apart.symm.trans (no_char ▸ alone))
      simp [lineOf, arrow] at first
    rw [readDescription?, if_neg some_text, apart, each]

end Lines

/-! ### Descriptions -/

/-- The state is a target of the table or a predecessor in it. -/
def Mentions {S : Type} (t : TransitionTable S) (s : S) : Prop :=
  ∃ e ∈ t.entries, s = e.1 ∨ s ∈ e.2

/-- The lines of a table in some order of its targets: each of these once, with its predecessors in
their order. -/
structure Lines {S : Type} [DecidableEq S] [LE S] (t : TransitionTable S) (order : List S)
    (lines : List (S × List S)) : Prop where
  in_order : lines.map (·.1) = order.filter fun s ↦ (t.predecessors s).isSome
  once : (lines.map (·.1)).Nodup
  target_iff : ∀ target, target ∈ lines.map (·.1) ↔ (t.predecessors target).isSome
  ascending : ∀ line ∈ lines, line.2.Pairwise fun a b ↦ a ≤ b ∧ a ≠ b
  sources : ∀ line ∈ lines, ∃ sources, t.predecessors line.1 = some sources ∧ line.2.Perm sources

/-- The order lists each target of the table once; it may list other states. -/
def ListedOnce {S : Type} [DecidableEq S] (t : TransitionTable S) (order : List S) : Prop :=
  ∀ target, (t.predecessors target).isSome → order.count target = 1

/-- Lists with equal images are equal, if the function tells their members apart. -/
theorem eq_of_map_eq {A B : Type} {f : A → B} {l l' : List A}
    (distinct : ∀ a ∈ l, ∀ b ∈ l', f a = f b → a = b) (same : l.map f = l'.map f) : l = l' := by
  induction l generalizing l' with
  | nil => exact (List.map_eq_nil_iff.1 same.symm).symm
  | cons a l ih =>
    cases l' with
    | nil => cases same
    | cons b l' =>
      obtain ⟨first, rest⟩ := List.cons.inj same
      rw [distinct a List.mem_cons_self b List.mem_cons_self first,
        ih (fun a mem b mem' ↦ distinct a (List.mem_cons_of_mem _ mem) b
          (List.mem_cons_of_mem _ mem')) rest]

section Described

variable {S : Type} [DecidableEq S] [ToString S] [LE S] [DecidableLE S] [Std.IsLinearOrder S]
  {t u : TransitionTable S} {entries entries' : List (S × List S)} {order : List S}

def sorted (sources : List S) : List S := sources.mergeSort fun a b ↦ decide (a ≤ b)

omit [DecidableEq S] [ToString S] in
theorem ascending_sorted (sources : List S) : (sorted sources).Pairwise (· ≤ ·) := by
  have pairwise : (sorted sources).Pairwise fun a b ↦ decide (a ≤ b) = true :=
    List.pairwise_mergeSort
      (fun a b c ab bc ↦ by simp only [decide_eq_true_eq] at *; exact Std.le_trans ab bc)
      (fun a b ↦ by simpa using Std.le_total) sources
  exact pairwise.imp fun h ↦ of_decide_eq_true h

def lines (t : TransitionTable S) (order : List S) : List (S × List S) :=
  order.filterMap fun target ↦ (t.predecessors target).map fun sources ↦ (target, sorted sources)

omit [Std.IsLinearOrder S] in
/-- A description is made up of the lines of the targets that it is asked for. -/
theorem describe_eq (t : TransitionTable S) (order : List S) :
    t.describe order = "\n".intercalate ((t.lines order).map fun line ↦
      lineOf (toString line.1) (line.2.map toString)) := by
  rw [describe, lines, List.map_filterMap]
  refine congrArg _ (List.filterMap_congr fun target _ ↦ ?_)
  rw [Option.map_map]
  rfl

omit [ToString S] [Std.IsLinearOrder S] in
/-- The lines are those of the targets among the states that are asked for. -/
theorem mem_lines {line : S × List S} : line ∈ t.lines order ↔
    line.1 ∈ order ∧ ∃ sources, t.predecessors line.1 = some sources ∧ line.2 = sorted sources := by
  simp only [lines, List.mem_filterMap, Option.map_eq_some_iff]
  constructor
  · rintro ⟨target, listed, sources, found, rfl⟩
    exact ⟨listed, sources, found, rfl⟩
  · rintro ⟨listed, sources, found, is_sorted⟩
    exact ⟨line.1, listed, sources, found, Prod.ext rfl is_sorted.symm⟩

omit [ToString S] [Std.IsLinearOrder S] in
theorem targets_lines (t : TransitionTable S) (order : List S) :
    (t.lines order).map (·.1) = order.filter fun s ↦ (t.predecessors s).isSome := by
  induction order with
  | nil => rfl
  | cons target order ih =>
    rw [lines, List.filterMap_cons]
    cases found : t.predecessors target with
    | none => rw [List.filter_cons_of_neg (by simp [found])]; exact ih
    | some sources =>
      rw [List.filter_cons_of_pos (by simp [found])]
      exact congrArg (target :: ·) ih

omit [ToString S] in
/-- With each target listed once, each has its line, with its predecessors in their order. -/
theorem Holds.lines (holds : t.Holds entries) (listed : t.ListedOnce order) :
    t.Lines order (t.lines order) where
  in_order := t.targets_lines order
  once := by
    rw [targets_lines, List.nodup_iff_count_le_one]
    intro target
    by_cases is_target : (t.predecessors target).isSome
    · refine Nat.le_of_eq ?_
      rw [List.count_filter (p := fun s ↦ (t.predecessors s).isSome) is_target,
        listed target is_target]
    · have absent : target ∉ order.filter fun s ↦ (t.predecessors s).isSome := fun mem ↦
        is_target (List.mem_filter.1 mem).2
      rw [List.count_eq_zero_of_not_mem absent]
      exact Nat.zero_le 1
  target_iff target := by
    rw [targets_lines, List.mem_filter]
    refine ⟨And.right, fun is_target ↦ ⟨?_, is_target⟩⟩
    exact List.count_pos_iff.1 (listed target is_target ▸ Nat.one_pos)
  ascending line mem := by
    obtain ⟨-, sources, found, is_sorted⟩ := mem_lines.1 mem
    have once : (sorted sources).Nodup := (List.mergeSort_perm sources _).nodup_iff.2
      (holds.sources_once _ (holds.predecessors_eq_some_iff.1 found))
    exact is_sorted ▸ (ascending_sorted sources).and once
  sources line mem := by
    obtain ⟨-, sources, found, is_sorted⟩ := mem_lines.1 mem
    exact ⟨sources, found, is_sorted ▸ List.mergeSort_perm sources _⟩

omit [ToString S] in
/-- Lines do not show how the predecessors are arranged. -/
theorem lines_congr (same : ∀ target,
    Option.Rel List.Perm (t.predecessors target) (u.predecessors target)) (order : List S) :
    t.lines order = u.lines order := by
  refine List.filterMap_congr fun target _ ↦ ?_
  have rel := same target
  generalize t.predecessors target = a, u.predecessors target = b at rel
  cases rel with
  | none => rfl
  | some perm =>
    have both : (sorted _).Perm (sorted _) :=
      (List.mergeSort_perm _ _).trans (perm.trans (List.mergeSort_perm _ _).symm)
    rw [Option.map_some, Option.map_some, both.eq_of_pairwise (fun _ _ _ _ ↦ Std.le_antisymm)
      (ascending_sorted _) (ascending_sorted _)]

omit [ToString S] [Std.IsLinearOrder S] in
/-- The states in the lines of a table are mentioned in it. -/
theorem Holds.mentions_of_lines (holds : t.Holds entries) {line : S × List S}
    (mem : line ∈ t.lines order) : t.Mentions line.1 ∧ ∀ s ∈ line.2, t.Mentions s := by
  obtain ⟨-, sources, found, is_sorted⟩ := mem_lines.1 mem
  have entry := holds.predecessors_eq_some_iff.1 found
  refine ⟨⟨_, entry, .inl rfl⟩, fun s listed ↦ ⟨_, entry, .inr ?_⟩⟩
  rw [is_sorted] at listed
  exact (List.mergeSort_perm sources _).mem_iff.1 listed

omit [Std.IsLinearOrder S] in
/-- The lines of a table are read from its description. -/
theorem Holds.read_describe (holds : t.Holds entries)
    (legible : ∀ s, t.Mentions s → Legible (toString s)) (order : List S) :
    readDescription? (t.describe order) =
      some ((t.lines order).map fun line ↦ (toString line.1, line.2.map toString)) := by
  have names : ∀ line ∈ (t.lines order).map fun line ↦ (toString line.1, line.2.map toString),
      Legible line.1 ∧ ∀ name ∈ line.2, Legible name := by
    intro _ mem
    obtain ⟨line, listed, rfl⟩ := List.mem_map.1 mem
    obtain ⟨target, sources⟩ := holds.mentions_of_lines listed
    refine ⟨legible _ target, fun _ mem ↦ ?_⟩
    obtain ⟨s, source, rfl⟩ := List.mem_map.1 mem
    exact legible s (sources s source)
  rw [describe_eq, ← readDescription?_lines names, List.map_map]
  rfl

omit [Std.IsLinearOrder S] in
/-- Tables with legible names that tell their states apart have the same lines if they have the same
description. -/
theorem Holds.lines_eq_of_describe (holds : t.Holds entries) (holds' : u.Holds entries')
    (legible : ∀ s, t.Mentions s ∨ u.Mentions s → Legible (toString s))
    (distinct : ∀ a b, t.Mentions a → u.Mentions b → toString a = toString b → a = b)
    (same : t.describe order = u.describe order) : t.lines order = u.lines order := by
  have read := holds.read_describe (fun s mentioned ↦ legible s (.inl mentioned)) order
  have read' := holds'.read_describe (fun s mentioned ↦ legible s (.inr mentioned)) order
  rw [same] at read
  refine eq_of_map_eq (fun line mem line' mem' names ↦ ?_) (Option.some.inj (read.symm.trans read'))
  obtain ⟨target, sources⟩ := holds.mentions_of_lines mem
  obtain ⟨target', sources'⟩ := holds'.mentions_of_lines mem'
  obtain ⟨same_target, same_sources⟩ := Prod.mk.inj names
  exact Prod.ext (distinct _ _ target target' same_target)
    (eq_of_map_eq (fun a mem b mem' ↦ distinct a b (sources a mem) (sources' b mem')) same_sources)

omit [ToString S] in
/-- Tables with the same lines have the same predecessors for every state. -/
theorem Holds.predecessors_perm_of_lines (holds : t.Holds entries) (holds' : u.Holds entries')
    (listed : t.ListedOnce order) (listed' : u.ListedOnce order)
    (same : t.lines order = u.lines order) (target : S) :
    Option.Rel List.Perm (t.predecessors target) (u.predecessors target) := by
  have all := (holds.lines listed).target_iff target
  have all' := (holds'.lines listed').target_iff target
  rw [same] at all
  cases found : t.predecessors target with
  | none =>
    cases found' : u.predecessors target with
    | none => exact .none
    | some _ => simp [found, found', all'] at all
  | some sources =>
    obtain ⟨line, mem, rfl⟩ := List.mem_map.1 (all.2 (by simp [found]))
    obtain ⟨_, is_some, perm'⟩ := (holds'.lines listed').sources line mem
    obtain ⟨_, is_some', perm⟩ := (holds.lines listed).sources line (same ▸ mem)
    obtain rfl := Option.some.inj (found.symm.trans is_some')
    rw [is_some]
    exact .some (perm.symm.trans perm')

end Described

/-- What descriptions of tables tell, for states of one kind. -/
structure Tells (S : Type) [DecidableEq S] [ToString S] [LE S] [DecidableLE S] : Prop where
  /-- The lines can be read back, line by line. -/
  read : ∀ (t : TransitionTable S) entries order, t.Holds entries → t.ListedOnce order →
    (∀ s, t.Mentions s → Legible (toString s)) →
    ∃ lines, t.Lines order lines ∧ readDescription? (t.describe order) =
      some (lines.map fun line ↦ (toString line.1, line.2.map toString))
  /-- Tables with one description are the same, up to how they are arranged. -/
  determined : ∀ (t u : TransitionTable S) entries entries' order,
    t.Holds entries → u.Holds entries' → t.ListedOnce order → u.ListedOnce order →
    (∀ s, t.Mentions s ∨ u.Mentions s → Legible (toString s)) →
    (∀ a b, t.Mentions a → u.Mentions b → toString a = toString b → a = b) →
    t.describe order = u.describe order →
    ∀ target, Option.Rel List.Perm (t.predecessors target) (u.predecessors target)
  /-- A description does not show how the table is arranged, nor how its entries were given. -/
  arranged : ∀ (t u : TransitionTable S) entries entries' order, Regrouped entries entries' →
    t.Holds entries → u.Holds entries' → t.describe order = u.describe order

/-- States whose tables can be described, in the order of all of them. -/
structure Presentable (S : Type) [DecidableEq S] [ToString S] [LE S] (all : List S) : Prop where
  legible : ∀ s : S, Legible (toString s)
  distinct : ∀ a b : S, toString a = toString b → a = b
  linear : Std.IsLinearOrder S
  once : ∀ s, all.count s = 1

/-- Descriptions tell of their tables whatever the states, as long as these are in a linear order.
-/
theorem tells (S : Type) [DecidableEq S] [ToString S] [LE S] [DecidableLE S]
    [Std.IsLinearOrder S] : Tells S where
  read t _ order holds listed legible :=
    ⟨t.lines order, holds.lines listed, holds.read_describe legible order⟩
  determined _ _ _ _ _ holds holds' listed listed' legible distinct same :=
    holds.predecessors_perm_of_lines holds' listed listed'
      (holds.lines_eq_of_describe holds' legible distinct same)
  arranged t u _ _ order regrouped holds holds' := by
    have same := holds.predecessors_perm (regrouped.holds_iff.2 holds')
    rw [describe_eq, describe_eq, lines_congr same order]

end TransitionTable

/-! ### The workflows -/

open TransitionTable (Legible Presentable)

section Presentable

variable {S : Type} [DecidableEq S] [ToString S] [LE S] {all : List S} {index : S → Nat}

/-- States with distinct names that ascend as they are listed. -/
theorem presentable_of_listed (le_iff : ∀ a b : S, a ≤ b ↔ index a ≤ index b)
    (listed : ∀ s, all[index s]? = some s) (once : ∀ s, all.count s = 1)
    (named : ∀ s, all.find? (toString · == toString s) = some s)
    (legible : ∀ s : S, Legible (toString s)) : Presentable S all where
  legible := legible
  distinct a b same := Option.some.inj ((named a).symm.trans (same ▸ named b))
  linear :=
    { le_refl := fun a ↦ (le_iff a a).2 (Nat.le_refl _)
      le_trans := fun a b c ab bc ↦
        (le_iff a c).2 (Nat.le_trans ((le_iff a b).1 ab) ((le_iff b c).1 bc))
      le_antisymm := fun a b ab ba ↦ by
        have same : index a = index b := Nat.le_antisymm ((le_iff a b).1 ab) ((le_iff b a).1 ba)
        exact Option.some.inj ((listed a).symm.trans (same ▸ listed b))
      le_total := fun a b ↦ (Nat.le_total (index a) (index b)).imp (le_iff a b).2 (le_iff b a).2 }
  once := once

end Presentable

/-- The states of an installation have legible names, no two alike, and are listed once. -/
theorem InstallState.presentable : Presentable InstallState InstallState.all :=
  presentable_of_listed (fun _ _ ↦ Iff.rfl) (fun s ↦ by cases s <;> rfl)
    (fun s ↦ by cases s <;> rfl) (fun s ↦ by cases s <;> rfl)
    fun s ↦ by cases s <;> exact .of_all rfl

theorem UpgradeState.presentable : Presentable UpgradeState UpgradeState.all :=
  presentable_of_listed (fun _ _ ↦ Iff.rfl) (fun s ↦ by cases s <;> rfl)
    (fun s ↦ by cases s <;> rfl) (fun s ↦ by cases s <;> rfl)
    fun s ↦ by cases s <;> exact .of_all rfl

/-- Where states are ordered, descriptions of tables can be read back, determine their tables and do
not show how these are arranged.  The states of both workflows meet what this asks of them. -/
theorem descriptions_determine :
    (∀ (S : Type) [DecidableEq S] [ToString S] [LE S] [DecidableLE S] [Std.IsLinearOrder S],
      TransitionTable.Tells S) ∧
    Presentable InstallState InstallState.all ∧ Presentable UpgradeState UpgradeState.all :=
  ⟨fun S ↦ TransitionTable.tells S, InstallState.presentable, UpgradeState.presentable⟩

/-- The table of an upgrade on Kubernetes is read from its description. -/
theorem kubernetes_upgrade_read :
    Std.IsLinearOrder UpgradeState ∧
    (UpgradeState.table .kubernetes false).ListedOnce UpgradeState.all ∧
    ∃ lines, (UpgradeState.table .kubernetes false).Lines UpgradeState.all lines ∧
      TransitionTable.readDescription?
        ((UpgradeState.table .kubernetes false).describe UpgradeState.all) =
        some (lines.map fun line ↦ (toString line.1, line.2.map toString)) := by
  obtain ⟨tells, -, presentable⟩ := descriptions_determine
  have linear := presentable.linear
  have listed : (UpgradeState.table .kubernetes false).ListedOnce UpgradeState.all :=
    fun s _ ↦ presentable.once s
  exact ⟨linear, listed, (tells UpgradeState).read _ _ _ (TransitionTable.holds_ofList _) listed
    fun s _ ↦ presentable.legible s⟩

/-- An entry without predecessors is a line of its own. -/
example : TransitionTable.readDescription?
    ((TransitionTable.ofList [("b", ["a"]), ("a", []), ("b", ["b"])]).describe ["b", "c", "a"]) =
    some [("b", ["a", "b"]), ("a", [])] := by
  cbv

end Rollout
