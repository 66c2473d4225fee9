import Mathlib.Data.List.TakeWhile
import Rollout.Net.Cidr
import Rollout.Proofs.Spelling

/-!
# The texts of address blocks

The two halves of a block's text have grammars of their own: an octet has no zero in front and is
at most 255 (`Octet`), while a length may have a plus sign and any number of zeros
(`PrefixLength`).  Reading accepts what these grammars spell and nothing else, and a message names
the first part that they do not (`blocks_read`).
-/

namespace Rollout.Net

/-! ### Decimal numbers -/

/-- Decimal digits and the number that they spell.  Zeros may stand in front. -/
structure Digits (ds : List Char) (n : Nat) : Prop where
  nonempty : ds ≠ []
  digits : ∀ c ∈ ds, c.isDigit = true
  value : Nat.ofDigitChars 10 ds 0 = n

theorem digitValue?_of_isDigit {c : Char} (digit : c.isDigit = true) :
    digitValue? 10 c = some (c.toNat - 48) := by
  have bounds : 48 ≤ c.toNat ∧ c.toNat ≤ 57 := Char.isDigit_iff_toNat.1 digit
  have small : c.toNat - 48 < 10 := by omega
  simp [digitValue?, digit, small]

/-- The digits from ten on are no decimal digits. -/
theorem digitValue?_of_not_isDigit {c : Char} (other : c.isDigit = false) :
    digitValue? 10 c = none := by
  unfold digitValue?
  simp only [other, Bool.false_eq_true, if_false, Bool.and_eq_true, decide_eq_true_eq, Char.le_def,
    UInt32.le_iff_toNat_le]
  split
  · rename_i lower
    have large : 97 ≤ c.toNat := lower.1
    exact Option.filter_eq_none_iff.2 fun v value ↦ by
      obtain rfl := Option.some.inj value
      simp only [decide_eq_true_eq]
      omega
  split
  · rename_i upper
    have large : 65 ≤ c.toNat := upper.1
    exact Option.filter_eq_none_iff.2 fun v value ↦ by
      obtain rfl := Option.some.inj value
      simp only [decide_eq_true_eq]
      omega
  · rfl

theorem isDigitIn_ten (c : Char) : isDigitIn 10 c = c.isDigit := by
  unfold isDigitIn
  cases digit : c.isDigit with
  | true => rw [digitValue?_of_isDigit digit]; rfl
  | false => rw [digitValue?_of_not_isDigit digit]; rfl

theorem numeral_eq {ds : List Char} (digits : ∀ c ∈ ds, c.isDigit = true) :
    numeral 10 ds = Nat.ofDigitChars 10 ds 0 := by
  refine List.foldl_ext _ _ 0 fun n c mem ↦ ?_
  rw [digitValue?_of_isDigit (digits c mem), Nat.mul_comm]
  rfl

/-- Nothing at the front of the text goes on with digits. -/
def EndsDigits (rest : List Char) : Prop := ∀ c ∈ rest.head?, c.isDigit = false

/-- The digits before something else are cut off from it. -/
theorem spanDigits_append {ds rest : List Char} (digits : ∀ c ∈ ds, c.isDigit = true)
    (ends : EndsDigits rest) : spanDigits 10 (ds ++ rest) = (ds, rest) := by
  have digits' : ∀ c ∈ ds, isDigitIn 10 c = true := fun c mem ↦
    (isDigitIn_ten c).trans (digits c mem)
  unfold spanDigits
  rw [List.takeWhile_append_of_pos digits', List.dropWhile_append_of_pos digits']
  cases rest with
  | nil => rw [List.takeWhile_nil, List.append_nil, List.dropWhile_nil]
  | cons c rest =>
    have other : ¬isDigitIn 10 c = true := by
      rw [isDigitIn_ten, ends c rfl]
      exact Bool.false_ne_true
    rw [List.takeWhile_cons_of_neg other, List.dropWhile_cons_of_neg other, List.append_nil]

/-- A text is cut into its leading digits and the rest. -/
theorem spanDigits_spec (s : List Char) : s = (spanDigits 10 s).1 ++ (spanDigits 10 s).2 ∧
    (∀ c ∈ (spanDigits 10 s).1, c.isDigit = true) ∧ EndsDigits (spanDigits 10 s).2 := by
  refine ⟨List.takeWhile_append_dropWhile.symm, fun c mem ↦ ?_, fun c mem ↦ ?_⟩
  · exact (isDigitIn_ten c).symm.trans (List.mem_takeWhile_imp mem)
  · have stops := List.head?_dropWhile_not (isDigitIn 10) s
    rw [show (s.dropWhile (isDigitIn 10)).head? = some c from mem] at stops
    exact (isDigitIn_ten c).symm.trans stops

/-! ### Addresses -/

/-- An octet: no zero in front of other digits, and at most 255. -/
structure Octet (ds : List Char) (n : Nat) : Prop extends Digits ds n where
  plain : ds.head? = some '0' → ds = ['0']
  small : n ≤ 255

/-- Four octets between dots, and their address. -/
inductive DottedQuad : List Char → Ipv4 → Prop where
  | mk {a b c d : List Char} {i j k l : Nat} {x : Ipv4} (first : Octet a i) (second : Octet b j)
      (third : Octet c k) (fourth : Octet d l)
      (value : x.toNat = i * 0x1000000 + j * 0x10000 + k * 0x100 + l) :
      DottedQuad (a ++ '.' :: b ++ '.' :: c ++ '.' :: d) x

/-- Four digits without a zero in front spell a number that is not small. -/
theorem le_ofDigitChars {c : Char} {ds : List Char} (digit : c.isDigit = true) (nonzero : c ≠ '0')
    (long : 3 ≤ ds.length) : 1000 ≤ Nat.ofDigitChars 10 (c :: ds) 0 := by
  have least : 48 ≤ c.toNat := (Char.isDigit_iff_toNat.1 digit).1
  have positive : 0 < 10 * 0 + (c.toNat - 48) := by
    have ne : c.toNat ≠ 48 := fun same ↦ nonzero (Char.toNat_inj.1 same)
    omega
  rw [Nat.ofDigitChars_cons, Nat.ofDigitChars_eq_ofDigitChars_zero]
  calc 1000 = 10 ^ 3 := rfl
    _ ≤ 10 ^ ds.length := Nat.pow_le_pow_right (by decide) long
    _ ≤ 10 ^ ds.length * (10 * 0 + (c.toNat - 48)) := Nat.le_mul_of_pos_right _ positive
    _ ≤ _ := Nat.le_add_right _ _

theorem Octet.length_le {ds : List Char} {n : Nat} (h : Octet ds n) : ds.length ≤ 3 := by
  cases ds with
  | nil => exact Nat.zero_le 3
  | cons c ds =>
    by_cases zero : c = '0'
    · subst zero
      rw [h.plain rfl]
      decide
    · refine Nat.not_lt.1 fun long ↦ ?_
      have large := le_ofDigitChars (h.digits c List.mem_cons_self) zero (Nat.le_of_lt_succ long)
      have small := h.small
      rw [h.value] at large
      omega

namespace Ipv4

/-- An octet is read exactly where the grammar has one. -/
theorem readOctet?_iff {s rest : List Char} {n : Nat} :
    readOctet? s = some (n, rest) ↔ ∃ ds, s = ds ++ rest ∧ Octet ds n ∧ EndsDigits rest := by
  constructor
  · intro read
    obtain ⟨split, digits, ends⟩ := spanDigits_spec s
    unfold readOctet? at read
    generalize spanDigits 10 s = span at read split digits ends
    obtain ⟨ds, rest'⟩ := span
    dsimp only at read split digits ends
    split at read
    · cases read
    · rename_i good
      obtain ⟨rfl, rfl⟩ := Prod.mk.inj (Option.some.inj read)
      rw [numeral_eq digits] at good ⊢
      simp only [Bool.or_eq_true, not_or, List.isEmpty_iff, Bool.and_eq_true, decide_eq_true_eq,
        beq_iff_eq, not_and, Nat.not_lt] at good
      obtain ⟨⟨⟨nonempty, -⟩, plain⟩, small⟩ := good
      refine ⟨ds, split, ⟨⟨nonempty, digits, rfl⟩, fun zero ↦ ?_, small⟩, ends⟩
      obtain ⟨more, rfl⟩ := List.head?_eq_some_iff.1 zero
      cases more with
      | nil => rfl
      | cons c more => exact absurd zero (plain (by simp))
  · rintro ⟨ds, rfl, octet, ends⟩
    have long : ¬1 < ds.length ∨ ds.head? ≠ some '0' := by
      by_cases zero : ds.head? = some '0'
      · exact .inl (by rw [octet.plain zero]; decide)
      · exact .inr zero
    have few := octet.length_le
    have small := octet.small
    unfold readOctet?
    rw [spanDigits_append octet.digits ends]
    dsimp only
    rw [numeral_eq octet.digits, octet.value, if_neg]
    simp only [Bool.or_eq_true, not_or, List.isEmpty_iff, Bool.and_eq_true, decide_eq_true_eq,
      beq_iff_eq, not_and_or, Nat.not_lt]
    exact ⟨⟨⟨octet.nonempty, few⟩, long.imp_left Nat.not_lt.1⟩, small⟩

theorem readChar?_iff {c : Char} {s rest : List Char} :
    Text.readChar? c s = some rest ↔ s = c :: rest := by
  refine ⟨Text.eq_cons_of_readChar?, ?_⟩
  rintro rfl
  exact if_pos rfl

theorem endsDigits_dot (rest : List Char) : EndsDigits ('.' :: rest) := by
  rintro _ ⟨⟩
  decide

/-- Four octets are the address whose number they spell in base 256. -/
theorem ofOctets_eq_iff {i j k l : Nat} {x : Ipv4} (hi : i ≤ 255) (hj : j ≤ 255) (hk : k ≤ 255)
    (hl : l ≤ 255) :
    ofOctets i j k l = x ↔ x.toNat = i * 0x1000000 + j * 0x10000 + k * 0x100 + l := by
  have value : (ofOctets i j k l).toNat = ((i * 256 + j) * 256 + k) * 256 + l :=
    UInt32.toNat_ofNat_of_lt' (show _ < 4294967296 by omega)
  rw [← UInt32.toNat_inj, value]
  omega

/-- An address is read exactly where the grammar has one. -/
theorem read?_iff {s rest : List Char} {x : Ipv4} :
    read? s = some (x, rest) ↔
      ∃ quad, s = quad ++ rest ∧ DottedQuad quad x ∧ EndsDigits rest := by
  simp only [read?, Option.bind_eq_bind, Option.bind_eq_some_iff, readOctet?_iff,
    readChar?_iff, Prod.exists]
  constructor
  · rintro ⟨i, _, ⟨a, rfl, first, -⟩, _, rfl, j, _, ⟨b, rfl, second, -⟩, _, rfl, k, _,
      ⟨c, rfl, third, -⟩, _, rfl, l, _, ⟨d, rfl, fourth, ends⟩, same⟩
    obtain ⟨whole, rfl⟩ := Prod.mk.inj (Option.some.inj same)
    have value := (ofOctets_eq_iff first.small second.small third.small fourth.small).1 whole
    exact ⟨_, by simp, .mk first second third fourth value, ends⟩
  · rintro ⟨_, rfl, @⟨a, b, c, d, i, j, k, l, x, first, second, third, fourth, value⟩, ends⟩
    have whole := (ofOctets_eq_iff first.small second.small third.small fourth.small).2 value
    exact ⟨i, _, ⟨a, by simp, first, endsDigits_dot _⟩, _, rfl, j, _,
      ⟨b, rfl, second, endsDigits_dot _⟩, _, rfl, k, _, ⟨c, rfl, third, endsDigits_dot _⟩, _, rfl,
      l, rest, ⟨d, rfl, fourth, ends⟩, by rw [whole]⟩

/-- The texts of addresses are those of the grammar. -/
theorem parse?_iff {s : List Char} {x : Ipv4} : parse? s = some x ↔ DottedQuad s x := by
  have whole : parse? s = some x ↔ read? s = some (x, []) := by
    unfold parse?
    split
    · rename_i read
      simp [read]
    · rename_i other
      refine ⟨nofun, fun read ↦ absurd read (other x)⟩
  rw [whole, read?_iff]
  constructor
  · rintro ⟨quad, rfl, spelt, -⟩
    rwa [List.append_nil]
  · intro spelt
    exact ⟨s, (List.append_nil s).symm, spelt, nofun⟩

end Ipv4

/-! ### Lengths -/

/-- The length of a block: at most 32, with a plus sign or without. -/
inductive PrefixLength : List Char → Nat → Prop where
  | plain {ds : List Char} {n : Nat} (digits : Digits ds n) (small : n ≤ 32) : PrefixLength ds n
  | signed {ds : List Char} {n : Nat} (digits : Digits ds n) (small : n ≤ 32) :
      PrefixLength ('+' :: ds) n

theorem PrefixLength.small {s : List Char} {n : Nat} (h : PrefixLength s n) : n ≤ 32 := by
  cases h with
  | plain digits small => exact small
  | signed digits small => exact small

namespace Cidr

theorem digits_iff {ds : List Char} {n : Nat} :
    Digits ds n ↔ ds ≠ [] ∧ ds.all Char.isDigit = true ∧ numeral 10 ds = n := by
  constructor
  · rintro ⟨nonempty, digits, value⟩
    exact ⟨nonempty, List.all_eq_true.2 digits, (numeral_eq digits).trans value⟩
  · rintro ⟨nonempty, digits, value⟩
    have digits := List.all_eq_true.1 digits
    exact ⟨nonempty, digits, (numeral_eq digits).symm.trans value⟩

theorem parseLength?_iff_unsigned {s : List Char} {n : Nat} :
    parseLength? s = some n ↔ Digits (unsigned s) n ∧ n ≤ 32 := by
  rw [digits_iff]
  unfold parseLength?
  dsimp only
  split
  · rename_i bad
    refine ⟨nofun, ?_⟩
    rintro ⟨⟨nonempty, digits, -⟩, -⟩
    simp [digits, nonempty] at bad
  · rename_i good
    simp only [Bool.or_eq_true, List.isEmpty_iff, Bool.not_eq_true', not_or,
      Bool.not_eq_false] at good
    split
    · rename_i small
      constructor
      · rintro ⟨⟩
        exact ⟨⟨good.1, good.2, rfl⟩, small⟩
      · rintro ⟨⟨-, -, rfl⟩, -⟩
        rfl
    · rename_i large
      refine ⟨nofun, ?_⟩
      rintro ⟨⟨-, -, rfl⟩, small⟩
      exact absurd small large

theorem parseLength?_iff {s : List Char} {n : Nat} :
    parseLength? s = some n ↔ PrefixLength s n := by
  rw [parseLength?_iff_unsigned]
  constructor
  · rintro ⟨digits, small⟩
    unfold unsigned at digits
    split at digits
    · exact .signed digits small
    · exact .plain digits small
  · rintro (⟨digits, small⟩ | ⟨digits, small⟩)
    · have unsigned_eq : unsigned s = s := by
        unfold unsigned
        split
        · exact absurd (digits.digits '+' List.mem_cons_self) (by decide)
        · rfl
      rw [unsigned_eq]
      exact ⟨digits, small⟩
    · exact ⟨digits, small⟩

/-! ### Blocks -/

/-- The text before the first slash of `s`, and the text after it. -/
def Splits (s address length : String) : Prop :=
  s = address ++ "/" ++ length ∧ '/' ∉ address.toList

/-- The block that a text spells. -/
inductive Spells : String → Cidr → Prop where
  | mk {s address length : String} {c : Cidr} (split : Splits s address length)
      (first : DottedQuad address.toList c.address) (second : PrefixLength length.toList c.length) :
      Spells s c

theorem Spells.small {s : String} {c : Cidr} (h : Spells s c) : c.length ≤ 32 := by
  obtain ⟨-, -, second⟩ := h
  exact second.small

/-- The message for a text that spells no block. -/
inductive Rejects : String → String → Prop where
  | form {s : String} (no_slash : '/' ∉ s.toList) :
      Rejects s (Text.quoted s ++ " is not in address/prefix form")
  | address {s address length : String} (split : Splits s address length)
      (first : ∀ a, ¬DottedQuad address.toList a) :
      Rejects s (Text.quoted address ++ " is not an IPv4 address")
  | length {s address length : String} {a : Ipv4} (split : Splits s address length)
      (first : DottedQuad address.toList a) (second : ∀ n, ¬PrefixLength length.toList n) :
      Rejects s (Text.quoted length ++ " is not a prefix length between 0 and 32")

variable {s m : String} {c : Cidr}

theorem split?_append {address length : List Char} (without : '/' ∉ address) :
    split? (address ++ '/' :: length) = some (address, length) := by
  induction address with
  | nil => rfl
  | cons d address ih =>
    have other : d ≠ '/' := fun same ↦ without (same ▸ List.mem_cons_self)
    rw [List.cons_append, split?, if_neg other, ih (List.not_mem_of_not_mem_cons without)]
    rfl

theorem split?_of_not_mem {s : List Char} (without : '/' ∉ s) : split? s = none := by
  induction s with
  | nil => rfl
  | cons d s ih =>
    have other : d ≠ '/' := fun same ↦ without (same ▸ List.mem_cons_self)
    rw [split?, if_neg other, ih (List.not_mem_of_not_mem_cons without)]
    rfl

theorem split?_of_splits {address length : String} (h : Splits s address length) :
    split? s.toList = some (address.toList, length.toList) := by
  obtain ⟨rfl, without⟩ := h
  rw [String.toList_append, String.toList_append, List.append_assoc]
  exact split?_append without

/-- The text of a block is read as this block. -/
theorem parse_of_spells (h : Spells s c) : parse s = .ok c := by
  obtain ⟨split, first, second⟩ := h
  unfold parse
  rw [split?_of_splits split]
  dsimp only
  rw [Ipv4.parse?_iff.2 first]
  dsimp only
  rw [parseLength?_iff.2 second]

/-- The text of no block is refused with the message for the first part that is at fault. -/
theorem parse_of_rejects (h : Rejects s m) : (parse s).mapError Fault.message = .error m := by
  unfold parse
  cases h with
  | form no_slash =>
    rw [split?_of_not_mem no_slash]
    rfl
  | address split first =>
    have unread : Ipv4.parse? _ = none := Option.eq_none_iff_forall_ne_some.2 fun a read ↦
      first a (Ipv4.parse?_iff.1 read)
    rw [split?_of_splits split]
    dsimp only
    rw [unread, String.ofList_toList]
    rfl
  | length split first second =>
    have unread : parseLength? _ = none := Option.eq_none_iff_forall_ne_some.2 fun n read ↦
      second n (parseLength?_iff.1 read)
    rw [split?_of_splits split]
    dsimp only
    rw [Ipv4.parse?_iff.2 first]
    dsimp only
    rw [unread, String.ofList_toList]
    rfl

/-- A text spells a block or fails in one of its parts. -/
theorem spells_or_rejects (s : String) : (∃ c, Spells s c) ∨ ∃ m, Rejects s m := by
  by_cases slash : '/' ∈ s.toList
  · obtain ⟨address, length, whole, without⟩ := List.eq_append_cons_of_mem slash
    have split : Splits s (String.ofList address) (String.ofList length) := by
      refine ⟨String.toList_inj.1 ?_, by rwa [String.toList_ofList]⟩
      rw [whole, String.toList_append, String.toList_append, String.toList_ofList (l := address),
        String.toList_ofList (l := length), List.append_assoc]
      rfl
    by_cases first : ∃ a, DottedQuad (String.ofList address).toList a
    · obtain ⟨a, first⟩ := first
      by_cases second : ∃ n, PrefixLength (String.ofList length).toList n
      · obtain ⟨n, second⟩ := second
        exact .inl ⟨⟨a, n⟩, split, first, second⟩
      · exact .inr ⟨_, .length split first (not_exists.1 second)⟩
    · exact .inr ⟨_, .address split (not_exists.1 first)⟩
  · exact .inr ⟨_, .form slash⟩

theorem parse_eq_ok_iff : parse s = .ok c ↔ Spells s c := by
  refine ⟨fun read ↦ ?_, parse_of_spells⟩
  rcases spells_or_rejects s with ⟨c', spelt⟩ | ⟨m, rejected⟩
  · obtain rfl : c' = c := Except.ok.inj ((parse_of_spells spelt).symm.trans read)
    exact spelt
  · have refused := parse_of_rejects rejected
    rw [read] at refused
    cases refused

theorem parse_eq_error_iff : (parse s).mapError Fault.message = .error m ↔ Rejects s m := by
  refine ⟨fun refused ↦ ?_, parse_of_rejects⟩
  rcases spells_or_rejects s with ⟨c, spelt⟩ | ⟨m', rejected⟩
  · rw [parse_of_spells spelt] at refused
    cases refused
  · obtain rfl : m' = m := Except.error.inj ((parse_of_rejects rejected).symm.trans refused)
    exact rejected

end Cidr

/-! ### Canonical texts -/

theorem digits_toString (n : Nat) : Digits (toString n).toList n := by
  rw [show (toString n).toList = Nat.toDigits 10 n from Nat.toList_repr]
  exact ⟨Nat.toDigits_ne_nil, fun c mem ↦ Nat.isDigit_of_mem_toDigits (by decide) (by decide) mem,
    Nat.ofDigitChars_ten_toDigits⟩

/-- The text of a small number is one of an octet. -/
theorem octet_toString {n : Nat} (small : n ≤ 255) : Octet (toString n).toList n := by
  refine ⟨digits_toString n, fun zero ↦ ?_, small⟩
  rw [show (toString n).toList = Nat.toDigits 10 n from Nat.toList_repr] at zero ⊢
  rcases Nat.eq_zero_or_pos n with rfl | positive
  · rfl
  · obtain ⟨c, cs, split, nonzero⟩ := Json.toDigits_eq_cons positive
    rw [split] at zero
    exact absurd (Option.some.inj zero) nonzero

/-- The text of an address is over before a slash. -/
theorem DottedQuad.no_slash {s : List Char} {x : Ipv4} (h : DottedQuad s x) : '/' ∉ s := by
  obtain ⟨first, second, third, fourth, -⟩ := h
  have outside {ds : List Char} {n : Nat} (octet : Octet ds n) : '/' ∉ ds := fun mem ↦
    absurd (octet.digits '/' mem) (by decide)
  simp [outside first, outside second, outside third, outside fourth]

namespace Ipv4

def quadText (i j k l : Nat) : String :=
  toString i ++ "." ++ toString j ++ "." ++ toString k ++ "." ++ toString l

/-- An address is made up of four octets, and its text is theirs. -/
theorem exists_octets (x : Ipv4) : ∃ i j k l, i ≤ 255 ∧ j ≤ 255 ∧ k ≤ 255 ∧ l ≤ 255 ∧
    x.toNat = i * 0x1000000 + j * 0x10000 + k * 0x100 + l ∧ x.text = quadText i j k l := by
  have bound : x.toNat < 2 ^ 32 := x.toNat_lt
  refine ⟨x.toNat / 0x1000000, x.toNat / 0x10000 % 256, x.toNat / 0x100 % 256, x.toNat % 256,
    by omega, by omega, by omega, by omega, by omega, ?_⟩
  rw [← String.toList_inj]
  simp [text, octets, quadText]

/-- The text of four octets spells the address that they make up. -/
theorem dottedQuad_quadText {i j k l : Nat} {x : Ipv4} (hi : i ≤ 255) (hj : j ≤ 255)
    (hk : k ≤ 255) (hl : l ≤ 255) (value : x.toNat = i * 0x1000000 + j * 0x10000 + k * 0x100 + l) :
    DottedQuad (quadText i j k l).toList x := by
  have quad := DottedQuad.mk (octet_toString hi) (octet_toString hj) (octet_toString hk)
    (octet_toString hl) value
  simpa [quadText] using quad

end Ipv4

namespace Cidr

/-- The canonical text of a block spells it. -/
theorem spells_text {c : Cidr} (small : c.length ≤ 32) : Spells c.text c := by
  obtain ⟨i, j, k, l, hi, hj, hk, hl, value, text⟩ := c.address.exists_octets
  have quad := Ipv4.dottedQuad_quadText hi hj hk hl value
  rw [← text] at quad
  exact .mk ⟨rfl, quad.no_slash⟩ quad (.plain (digits_toString c.length) small)

/-- How a text is read as a block. -/
structure Reads (s : String) : Prop where
  accepted : ∀ c, parse s = .ok c ↔ Spells s c
  /-- The canonical text of what was read is read as the same. -/
  canonical : ∀ c, parse s = .ok c → ∃ i j k l, i ≤ 255 ∧ j ≤ 255 ∧ k ≤ 255 ∧ l ≤ 255 ∧
    c.address.toNat = i * 0x1000000 + j * 0x10000 + k * 0x100 + l ∧
    c.text = Ipv4.quadText i j k l ++ "/" ++ toString c.length ∧ parse c.text = .ok c
  rejected : ∀ m, (parse s).mapError Fault.message = .error m ↔ Rejects s m

end Cidr

/-- Reading accepts what the grammar spells, and a message names the first part that is at
fault. -/
theorem blocks_read (s : String) : Cidr.Reads s where
  accepted c := Cidr.parse_eq_ok_iff
  canonical c read := by
    have small : c.length ≤ 32 := (Cidr.parse_eq_ok_iff.1 read).small
    obtain ⟨i, j, k, l, hi, hj, hk, hl, value, text⟩ := c.address.exists_octets
    exact ⟨i, j, k, l, hi, hj, hk, hl, value, by rw [Cidr.text, text],
      Cidr.parse_of_spells (Cidr.spells_text small)⟩
  rejected m := Cidr.parse_eq_error_iff

end Rollout.Net
