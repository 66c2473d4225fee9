import Rollout.Installation
import Rollout.Proofs.BlockText

/-!
# Acceptable settings

Two blocks share an address if and only if their addresses agree in the bits that both of them fix
(`Cidr.overlaps_iff`), and the test of that never leaves the range of its words
(`Cidr.overlaps?_eq`).  So the settings of an installation are accepted if and only if they meet
five conditions, and every condition that they do not meet is reported once, in a fixed order
(`settings_checked`).
-/

namespace Rollout

namespace Net.Cidr

/-! ### Shared addresses -/

/-- The address agrees with that of the block in the bits that the block fixes. -/
def Contains (c : Cidr) (x : Ipv4) : Prop :=
  ∀ i < c.length, x.toBitVec.getMsbD i = c.address.toBitVec.getMsbD i

/-- The mask of a block has its first bits set and no others. -/
theorem getMsbD_mask {n : Nat} (small : n ≤ 32) (i : Nat) :
    (mask n).toBitVec.getMsbD i = decide (i < n) := by
  unfold mask
  split
  · rename_i zero
    simp [zero]
  · rename_i positive
    have amount : ((UInt32.ofNat (32 - n)).toBitVec % 32).toNat = 32 - n := by
      have below : 32 - n < 2 ^ 32 := by omega
      rw [UInt32.toBitVec_ofNat', BitVec.toNat_umod, BitVec.toNat_ofNat, Nat.mod_eq_of_lt below]
      exact Nat.mod_eq_of_lt (show 32 - n < 32 by omega)
    have ones : (0xFFFFFFFF : UInt32).toBitVec = BitVec.allOnes 32 := by decide
    rw [UInt32.toBitVec_shiftLeft, BitVec.shiftLeft_eq', amount, BitVec.getMsbD_shiftLeft, ones,
      BitVec.getMsbD_allOnes, decide_eq_decide]
    omega

/-- Addresses agree under the mask of a block if they agree in its first bits. -/
theorem and_mask_eq_iff {n : Nat} (small : n ≤ 32) (x y : Ipv4) :
    x &&& mask n = y &&& mask n ↔ ∀ i < n, x.toBitVec.getMsbD i = y.toBitVec.getMsbD i := by
  constructor
  · intro same i fixed
    have bit := congrArg (fun z : UInt32 ↦ z.toBitVec.getMsbD i) same
    simpa [getMsbD_mask small, fixed] using bit
  · intro agree
    refine UInt32.toBitVec_inj.1 (BitVec.eq_of_getMsbD_eq fun i _ ↦ ?_)
    rw [UInt32.toBitVec_and, UInt32.toBitVec_and, BitVec.getMsbD_and, BitVec.getMsbD_and,
      getMsbD_mask small]
    by_cases fixed : i < n
    · rw [agree i fixed]
    · simp [fixed]

variable {a b : Cidr}

theorem contains_address (c : Cidr) : c.Contains c.address := fun _ _ ↦ rfl

/-- Blocks overlap if and only if they share an address.  The address of the smaller block lies in
both. -/
theorem overlaps_iff (ha : a.length ≤ 32) :
    a.overlaps b = true ↔ ∃ x, a.Contains x ∧ b.Contains x := by
  have small : min a.length b.length ≤ 32 := Nat.le_trans (Nat.min_le_left _ _) ha
  unfold overlaps
  dsimp only
  rw [beq_iff_eq, and_mask_eq_iff small]
  constructor
  · intro agree
    rcases Nat.le_total a.length b.length with le | le
    · rw [Nat.min_eq_left le] at agree
      exact ⟨b.address, fun i fixed ↦ (agree i fixed).symm, b.contains_address⟩
    · rw [Nat.min_eq_right le] at agree
      exact ⟨a.address, a.contains_address, agree⟩
  · rintro ⟨x, in_a, in_b⟩ i fixed
    rw [← in_a i (Nat.lt_of_lt_of_le fixed (Nat.min_le_left _ _)),
      ← in_b i (Nat.lt_of_lt_of_le fixed (Nat.min_le_right _ _))]

/-! ### Arithmetic in range -/

/-- The difference, if it is not negative. -/
def difference? (m n : Nat) : Option Nat := if n ≤ m then some (m - n) else none

/-- The word shifted to the left, if by less than its width. -/
def shiftLeft? (x : UInt32) (k : Nat) : Option UInt32 :=
  if k < 32 then some (x <<< UInt32.ofNat k) else none

/-- The mask, if all steps to it are in range. -/
def mask? (n : Nat) : Option UInt32 :=
  if n = 0 then some 0 else (difference? 32 n).bind (shiftLeft? 0xFFFFFFFF)

/-- The test for shared addresses, if all its steps are in range. -/
def overlaps? (a b : Cidr) : Option Bool :=
  (mask? (min a.length b.length)).map fun m ↦ a.address &&& m == b.address &&& m

theorem mask?_eq {n : Nat} (small : n ≤ 32) : mask? n = some (mask n) := by
  unfold mask? mask
  split
  · rfl
  · rename_i positive
    have amount : difference? 32 n = some (32 - n) := if_pos small
    have shifted : shiftLeft? 0xFFFFFFFF (32 - n) = some (0xFFFFFFFF <<< UInt32.ofNat (32 - n)) :=
      if_pos (by omega)
    rw [amount, Option.bind_some, shifted]

/-- The test stays in range. -/
theorem overlaps?_eq (ha : a.length ≤ 32) : a.overlaps? b = some (a.overlaps b) := by
  have small : min a.length b.length ≤ 32 := Nat.le_trans (Nat.min_le_left _ _) ha
  rw [overlaps?, mask?_eq small, Option.map_some]
  rfl

/-- Every address is in the block of length 0, and one is in a block of length 32. -/
example : overlaps? ⟨0xFFFFFFFF, 0⟩ ⟨0x0A000001, 32⟩ = some true ∧
    overlaps? ⟨0x0A000002, 32⟩ ⟨0x0A000001, 32⟩ = some false := by decide

end Net.Cidr

/-! ### Conditions -/

namespace InstallationConfig

open Net.Cidr (Spells Rejects)

/-- What is asked of the settings of an installation, in the order in which it is reported. -/
inductive Condition where
  | directory
  | port
  | podBlock
  | serviceBlock
  | disjoint
  deriving DecidableEq

namespace Condition

def all : List Condition := [directory, port, podBlock, serviceBlock, disjoint]

theorem mem_all (k : Condition) : k ∈ all := by cases k <;> decide

/-- The settings meet the condition. -/
def Holds (c : InstallationConfig) : Condition → Prop
  | directory => ∃ rest, c.dataDirectory = "/" ++ rest
  | port => c.adminConsolePort ≠ 0
  | podBlock => ∀ s ∈ c.podCidr, ∃ b, Spells s b
  | serviceBlock => ∀ s ∈ c.serviceCidr, ∃ b, Spells s b
  | disjoint => ∀ s ∈ c.podCidr, ∀ t ∈ c.serviceCidr, ∀ a b, Spells s a → Spells t b →
      ¬∃ x, a.Contains x ∧ b.Contains x

/-- What is reported for a condition that the settings do not meet.  Blocks that share an address
are both well formed. -/
inductive Reports (c : InstallationConfig) : Condition → FieldError → Prop where
  | directory : Reports c .directory ⟨"dataDirectory", "must be an absolute path"⟩
  | port : Reports c .port ⟨"adminConsolePort", "must be greater than 0"⟩
  | podBlock {s m : String} (given : c.podCidr = some s) (rejected : Rejects s m) :
      Reports c .podBlock ⟨"podCidr", m⟩
  | serviceBlock {s m : String} (given : c.serviceCidr = some s) (rejected : Rejects s m) :
      Reports c .serviceBlock ⟨"serviceCidr", m⟩
  | disjoint {s t : String} {a b : Net.Cidr} {x : Net.Ipv4} (pod : c.podCidr = some s)
      (service : c.serviceCidr = some t) (first : Spells s a) (second : Spells t b)
      (in_first : a.Contains x) (in_second : b.Contains x) :
      Reports c .disjoint ⟨"serviceCidr", "overlaps with podCidr"⟩

end Condition

open Condition (Holds Reports)

variable {c : InstallationConfig}

theorem isAbsolute_iff {path : String} : isAbsolute path = true ↔ ∃ rest, path = "/" ++ rest := by
  unfold isAbsolute
  rw [beq_iff_eq, List.head?_eq_some_iff]
  constructor
  · rintro ⟨rest, same⟩
    refine ⟨String.ofList rest, String.toList_inj.1 ?_⟩
    rw [same, String.toList_append, String.toList_ofList (l := rest)]
    rfl
  · rintro ⟨rest, rfl⟩
    exact ⟨rest.toList, String.toList_append⟩

/-- What the check of one condition may add to the report. -/
def Answers (c : InstallationConfig) (k : Condition) (es : List FieldError) : Prop :=
  k.Holds c ∧ es = [] ∨ ¬k.Holds c ∧ ∃ e, Reports c k e ∧ es = [e]

theorem answers_directory : Answers c .directory
    (if isAbsolute c.dataDirectory then []
      else [⟨"dataDirectory", "must be an absolute path"⟩]) := by
  split
  · rename_i absolute
    exact .inl ⟨isAbsolute_iff.1 absolute, rfl⟩
  · rename_i relative
    exact .inr ⟨fun holds ↦ relative (isAbsolute_iff.2 holds), _, .directory, rfl⟩

theorem answers_port : Answers c .port
    (if c.adminConsolePort = 0 then [⟨"adminConsolePort", "must be greater than 0"⟩] else []) := by
  split
  · rename_i zero
    exact .inr ⟨fun holds ↦ holds zero, _, .port, rfl⟩
  · rename_i nonzero
    exact .inl ⟨nonzero, rfl⟩

/-- A block is reported if its text spells none, with the message for the part at fault. -/
theorem answers_block {k : Condition} {field : String} {block : Option String}
    (holds : k.Holds c ↔ ∀ s ∈ block, ∃ b, Spells s b)
    (reports : ∀ s m, block = some s → Rejects s m → Reports c k ⟨field, m⟩) :
    Answers c k (blockErrors field block) := by
  unfold blockErrors
  split
  · exact .inl ⟨holds.2 nofun, rfl⟩
  · rename_i s
    split
    · rename_i b read
      refine .inl ⟨holds.2 ?_, rfl⟩
      rintro _ ⟨⟩
      exact ⟨b, Net.Cidr.parse_eq_ok_iff.1 read⟩
    · rename_i fault read
      refine .inr ⟨fun good ↦ ?_, _, reports s fault.message rfl ?_, rfl⟩
      · obtain ⟨b, spelt⟩ := holds.1 good s rfl
        rw [Net.Cidr.parse_of_spells spelt] at read
        cases read
      · exact Net.Cidr.parse_eq_error_iff.1 (by rw [read]; rfl)

/-- Blocks overlap if some address is in both of them. -/
theorem blocksOverlap_iff : c.blocksOverlap = true ↔
    ∃ s t a b x, c.podCidr = some s ∧ c.serviceCidr = some t ∧ Spells s a ∧ Spells t b ∧
      a.Contains x ∧ b.Contains x := by
  constructor
  · intro overlap
    unfold blocksOverlap at overlap
    split at overlap
    · rename_i a b first second
      obtain ⟨s, pod, read_pod⟩ := Option.map_eq_some_iff.1 first
      obtain ⟨t, service, read_service⟩ := Option.map_eq_some_iff.1 second
      have spelt := Net.Cidr.parse_eq_ok_iff.1 read_pod
      obtain ⟨x, shared⟩ := (Net.Cidr.overlaps_iff spelt.small).1 overlap
      exact ⟨s, t, a, b, x, pod, service, spelt, Net.Cidr.parse_eq_ok_iff.1 read_service, shared⟩
    · cases overlap
  · rintro ⟨s, t, a, b, x, pod, service, first, second, shared⟩
    unfold blocksOverlap
    rw [pod, service, Option.map_some, Option.map_some, Net.Cidr.parse_of_spells first,
      Net.Cidr.parse_of_spells second]
    exact (Net.Cidr.overlaps_iff first.small).2 ⟨x, shared⟩

/-- The second block is reported if it overlaps with the first. -/
theorem answers_disjoint : Answers c .disjoint
    (if c.blocksOverlap then [⟨"serviceCidr", "overlaps with podCidr"⟩] else []) := by
  split
  · rename_i overlap
    obtain ⟨s, t, a, b, x, pod, service, first, second, in_first, in_second⟩ :=
      blocksOverlap_iff.1 overlap
    refine .inr ⟨fun holds ↦ ?_, _, .disjoint pod service first second in_first in_second, rfl⟩
    exact holds s pod t service a b first second ⟨x, in_first, in_second⟩
  · rename_i apart
    refine .inl ⟨fun s pod t service a b first second ⟨x, shared⟩ ↦ apart ?_, rfl⟩
    exact blocksOverlap_iff.2 ⟨s, t, a, b, x, pod, service, first, second, shared⟩

/-- The report is made up of the answers to the conditions, in their order. -/
theorem errors_eq_flatten (c : InstallationConfig) :
    ∃ ess, List.Forall₂ (Answers c) Condition.all ess ∧ c.errors = ess.flatten := by
  have pod : Answers c .podBlock (blockErrors "podCidr" c.podCidr) :=
    answers_block Iff.rfl fun _ _ ↦ .podBlock
  have service : Answers c .serviceBlock (blockErrors "serviceCidr" c.serviceCidr) :=
    answers_block Iff.rfl fun _ _ ↦ .serviceBlock
  refine ⟨_, .cons answers_directory (.cons answers_port (.cons pod (.cons service
    (.cons answers_disjoint .nil)))), ?_⟩
  simp [errors]

/-- A report has one entry for each condition that does not hold, in the order of the
conditions. -/
theorem exists_broken {ks : List Condition} {ess : List (List FieldError)}
    (answers : List.Forall₂ (Answers c) ks ess) :
    ∃ broken, broken.Sublist ks ∧ (∀ k, k ∈ broken ↔ k ∈ ks ∧ ¬k.Holds c) ∧
      List.Forall₂ (Reports c) broken ess.flatten := by
  induction answers with
  | nil => exact ⟨[], List.Sublist.slnil, fun k ↦ by simp, .nil⟩
  | @cons k es ks ess first rest ih =>
    obtain ⟨broken, sub, mem, reports⟩ := ih
    rcases first with ⟨holds, rfl⟩ | ⟨fails, e, report, rfl⟩
    · refine ⟨broken, sub.cons k, fun k' ↦ ?_, reports⟩
      rw [mem, List.mem_cons]
      constructor
      · exact fun ⟨later, fails⟩ ↦ ⟨.inr later, fails⟩
      · rintro ⟨rfl | later, fails⟩
        · exact absurd holds fails
        · exact ⟨later, fails⟩
    · refine ⟨k :: broken, sub.cons_cons k, fun k' ↦ ?_, .cons report reports⟩
      rw [List.mem_cons, mem, List.mem_cons]
      constructor
      · rintro (rfl | ⟨later, fails'⟩)
        · exact ⟨.inl rfl, fails⟩
        · exact ⟨.inr later, fails'⟩
      · rintro ⟨rfl | later, fails'⟩
        · exact .inl rfl
        · exact .inr ⟨later, fails'⟩

/-- Nothing is reported exactly if every condition holds. -/
theorem eq_nil_iff_of_reports {broken : List Condition} {es : List FieldError}
    (mem : ∀ k, k ∈ broken ↔ ¬k.Holds c) (reports : List.Forall₂ (Reports c) broken es) :
    es = [] ↔ ∀ k : Condition, k.Holds c := by
  cases reports with
  | nil =>
    refine ⟨fun _ k ↦ Classical.not_not.1 fun fails ↦ ?_, fun _ ↦ rfl⟩
    exact nomatch (mem k).2 fails
  | @cons k =>
    refine ⟨nofun, fun holds ↦ ?_⟩
    exact absurd (holds k) ((mem k).1 List.mem_cons_self)

/-- How settings are checked. -/
structure Checked (c : InstallationConfig) : Prop where
  accepted : c.validate = .ok () ↔ ∀ k, Holds c k
  /-- One entry for each condition that does not hold, in order. -/
  rejected : (¬∀ k, Holds c k) → ∃ e broken, c.validate = .error e ∧
    broken.Sublist Condition.all ∧ (∀ k, k ∈ broken ↔ ¬k.Holds c) ∧
    List.Forall₂ (Reports c) broken e.errors
  /-- The test for shared addresses stays in range. -/
  in_range : ∀ s ∈ c.podCidr, ∀ t ∈ c.serviceCidr, ∀ a b, Net.Cidr.parse s = .ok a →
    Net.Cidr.parse t = .ok b → a.overlaps? b = some (a.overlaps b)

end InstallationConfig

/-- Settings are accepted if they meet all conditions; otherwise every condition that they do not
meet is reported once. -/
theorem settings_checked (c : InstallationConfig) : c.Checked := by
  obtain ⟨ess, answers, errors⟩ := c.errors_eq_flatten
  obtain ⟨broken, sub, mem, reports⟩ := InstallationConfig.exists_broken answers
  have mem_broken (k : InstallationConfig.Condition) : k ∈ broken ↔ ¬k.Holds c := by
    rw [mem, and_iff_right k.mem_all]
  rw [← errors] at reports
  have none_iff := InstallationConfig.eq_nil_iff_of_reports mem_broken reports
  refine ⟨?accepted, fun fails ↦ ?rejected, ?in_range⟩
  case accepted => exact ValidationError.check_eq_ok_iff.trans none_iff
  case rejected =>
    have some_error : c.errors ≠ [] := fun none ↦ fails (none_iff.1 none)
    exact ⟨_, broken, ValidationError.check_of_ne_nil some_error, sub, mem_broken, reports⟩
  case in_range =>
    intro s _ t _ a b first _
    exact Net.Cidr.overlaps?_eq (Net.Cidr.parse_eq_ok_iff.1 first).small

end Rollout
