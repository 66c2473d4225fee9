import Mathlib.Data.List.Basic
import Rollout.Number.Reading
import Rollout.Number.Shortest
import Rollout.Proofs.BlockText

/-!
# Numbers as they are printed

A whole number is read from what is printed for it (`wholeNumber?_toString`).  A decimal is printed
with no more digits than it needs, so that nothing that is printed has a point and a zero at its end
(`Layout.getLast?_text`), while such texts are read as well as any others
(`Binary64.isSome_ofText?`).
-/

namespace Rollout

open Net (Digits)

/-! ### Whole numbers -/

/-- A text that begins with no sign is taken for a positive number. -/
theorem readSign_of_head {s : List Char} (plus : s.head? ≠ some '+') (minus : s.head? ≠ some '-') :
    readSign s = (false, s) := by
  unfold readSign
  split
  · exact absurd rfl plus
  · exact absurd rfl minus
  · rfl

theorem head?_ne_of_digits {s : List Char} (digits : ∀ c ∈ s, c.isDigit = true) {c : Char}
    (other : c.isDigit = false) : s.head? ≠ some c := by
  intro first
  exact absurd (digits c (List.mem_of_head? first)) (Bool.eq_false_iff.1 other)

/-- Digits behind a sign are a whole number if it fits 64 bits. -/
theorem wholeNumber?_of_digits {s ds : List Char} {negative : Bool} {n : Nat}
    (sign : readSign s = (negative, ds)) (digits : Digits ds n)
    (least : -0x8000000000000000 ≤ signed negative n)
    (most : signed negative n < 0x8000000000000000) :
    wholeNumber? s = some (signed negative n) := by
  have all : ds.all (isDigitIn 10) = true := by
    rw [List.all_eq_true]
    exact fun c mem ↦ (Net.isDigitIn_ten c).trans (digits.digits c mem)
  have value : numeral 10 ds = n := (Net.numeral_eq digits.digits).trans digits.value
  have some_digit : ds.isEmpty = false := List.isEmpty_eq_false_iff.2 digits.nonempty
  unfold wholeNumber?
  simp [sign, all, value, some_digit, least, most]

theorem range_of_wholeNumber? {s : List Char} {n : Int} (read : wholeNumber? s = some n) :
    -0x8000000000000000 ≤ n ∧ n < 0x8000000000000000 := by
  unfold wholeNumber? at read
  dsimp only at read
  split at read
  · rename_i valid
    cases read
    simp only [Bool.and_eq_true, decide_eq_true_eq] at valid
    exact ⟨valid.1.2, valid.2⟩
  · cases read

theorem toList_toString_negSucc (m : Nat) :
    (toString (Int.negSucc m)).toList = '-' :: (toString (m + 1)).toList := by
  show ("-" ++ toString (m + 1)).toList = _
  rw [String.toList_append]
  rfl

/-- A whole number of 64 bits is read from what is printed for it. -/
theorem wholeNumber?_toString {n : Int} (least : -0x8000000000000000 ≤ n)
    (most : n < 0x8000000000000000) : wholeNumber? (toString n).toList = some n := by
  cases n with
  | ofNat m =>
    have digits := Net.digits_toString m
    have sign : readSign (toString m).toList = (false, (toString m).toList) :=
      readSign_of_head (head?_ne_of_digits digits.digits rfl) (head?_ne_of_digits digits.digits rfl)
    exact wholeNumber?_of_digits sign digits least most
  | negSucc m =>
    have digits := Net.digits_toString (m + 1)
    have sign : readSign ('-' :: (toString (m + 1)).toList) = (true, (toString (m + 1)).toList) :=
      rfl
    rw [toList_toString_negSucc]
    exact wholeNumber?_of_digits sign digits least most

/-! ### Decimals -/

namespace Decimal

/-- The digits of a decimal are trimmed: it is zero, or its last digit is not. -/
structure Trimmed (d : Decimal) : Prop where
  digits : ∀ c ∈ d.digits, c.isDigit = true
  last : d = ⟨['0'], 1⟩ ∨ ∃ c, d.digits.getLast? = some c ∧ c ≠ '0'

end Decimal

namespace Binary64

theorem trimmed_zero : Decimal.Trimmed ⟨['0'], 1⟩ where
  digits c mem := by
    rw [List.mem_singleton.1 mem]
    rfl
  last := .inl rfl

/-- What is left of the digits of a positive number is trimmed: they do not begin with a zero, so
that not all of them are dropped. -/
theorem trimmed_of_ne_zero {n : Nat} (positive : n ≠ 0) (point : Int) :
    Decimal.Trimmed ⟨((decimalDigits n).reverse.dropWhile (· == '0')).reverse, point⟩ where
  digits c mem := by
    have mem' : c ∈ decimalDigits n :=
      List.mem_reverse.1 ((List.dropWhile_sublist _).mem (List.mem_reverse.1 mem))
    exact Nat.isDigit_of_mem_toDigits (by decide) (by decide) mem'
  last := by
    right
    rw [List.getLast?_reverse]
    cases trimmed : (decimalDigits n).reverse.dropWhile (· == '0') with
    | nil =>
      obtain ⟨c, cs, digits, nonzero⟩ := Json.toDigits_eq_cons (Nat.pos_of_ne_zero positive)
      have zeros := List.dropWhile_eq_nil_iff.1 trimmed
      have mem : c ∈ decimalDigits n := by
        rw [decimalDigits, digits]
        exact List.mem_cons_self
      have zero := zeros c (List.mem_reverse.2 mem)
      exact absurd (beq_iff_eq.1 zero) nonzero
    | cons c more =>
      refine ⟨c, rfl, fun zero ↦ ?_⟩
      have stops := List.head?_dropWhile_not (· == '0') (decimalDigits n).reverse
      rw [trimmed] at stops
      simp [zero] at stops

/-- The search yields trimmed digits, whichever candidate it takes. -/
theorem trimmed_shortestFrom (tie : Tie) (x : Binary64) (num den : Nat) (point : Int)
    (fuel count : Nat) : (shortestFrom tie x num den point fuel count).Trimmed := by
  induction fuel generalizing count with
  | zero => exact trimmed_zero
  | succ fuel ih =>
    rw [shortestFrom]
    split
    · rename_i c more found
      have mem : c ∈ candidates tie x num den point count := found ▸ List.mem_cons_self
      refine trimmed_of_ne_zero ?_ _
      obtain ⟨-, kept⟩ := List.mem_filter.1 mem
      exact bne_iff_ne.1 (Bool.and_eq_true_iff.1 kept).1
    · exact ih (count + 1)

theorem trimmed_shortest (tie : Tie) (x : Binary64) : (x.shortest tie).Trimmed := by
  unfold shortest
  split
  · exact trimmed_zero
  · exact trimmed_shortestFrom ..

end Binary64

namespace Layout

variable {l : Layout} {d : Decimal} {x : Binary64}

/-- Nothing is printed with a point and a zero at its end: a whole number has no point. -/
theorem getLast?_positionalText (plain : l.wholeSuffix = []) (trimmed : d.Trimmed)
    (point : '.' ∈ l.positionalText d) :
    ∃ c, (l.positionalText d).getLast? = some c ∧ c ≠ '0' := by
  have no_point : '.' ∉ d.digits := fun mem ↦ nomatch trimmed.digits _ mem
  unfold positionalText at point ⊢
  obtain rfl | ⟨c, last, nonzero⟩ := trimmed.last
  · simp [plain] at point
  · dsimp only at point ⊢
    split at point
    · rename_i below
      rw [if_pos below]
      refine ⟨c, ?_, nonzero⟩
      rw [List.getLast?_append, last, Option.some_or]
    · rename_i above
      rw [if_neg above]
      split at point
      · simp [plain, no_point] at point
      · rename_i inside
        rw [if_neg inside]
        refine ⟨c, ?_, nonzero⟩
        have more : d.point.toNat < d.digits.length := by omega
        rw [List.getLast?_append, List.getLast?_drop, if_neg (Nat.not_le.2 more), last,
          Option.some_or]

/-- In a layout that adds nothing to whole numbers, a text with a point in it does not end in a
zero. -/
theorem getLast?_text (plain : l.wholeSuffix = []) (positional : l.positional = none)
    (point : '.' ∈ l.text x) : ∃ c, (l.text x).getLast? = some c ∧ c ≠ '0' := by
  unfold text at point ⊢
  split at point
  · simp at point
  · rename_i number
    rw [if_neg number]
    dsimp only at point ⊢
    split at point
    · cases x.isNegative <;> simp at point
    · rename_i finite
      rw [if_neg finite]
      rw [positional] at point ⊢
      simp only [if_true] at point ⊢
      have inside : '.' ∈ l.positionalText (x.shortest l.tie) := by
        cases x.isNegative <;> simpa using point
      obtain ⟨c, last, nonzero⟩ :=
        getLast?_positionalText plain (Binary64.trimmed_shortest l.tie x) inside
      exact ⟨c, by rw [List.getLast?_append, last, Option.some_or], nonzero⟩

end Layout

/-! ### Reading -/

namespace Binary64

variable {whole fraction : List Char}

/-- A word without a point is no text with one. -/
theorem ofList_ne_of_point {s : List Char} {word : String} (point : '.' ∈ s)
    (no_point : '.' ∉ word.toList) : String.ofList (s.map Char.toLower) ≠ word := by
  rintro rfl
  rw [String.toList_ofList] at no_point
  exact no_point (List.mem_map.2 ⟨'.', point, rfl⟩)

/-- Digits with a point among them are a number. -/
theorem isSome_ofText? (whole_digits : ∀ c ∈ whole, c.isDigit = true)
    (digits : ∀ c ∈ fraction, c.isDigit = true) (some_digit : fraction ≠ []) :
    (ofText? (whole ++ '.' :: fraction)).isSome = true := by
  have head (c : Char) (digit : c.isDigit = false) (no_point : c ≠ '.') :
      (whole ++ '.' :: fraction).head? ≠ some c := by
    cases whole with
    | nil => simpa using no_point.symm
    | cons d more => exact head?_ne_of_digits (s := d :: more) whole_digits digit
  have sign : readSign (whole ++ '.' :: fraction) = (false, whole ++ '.' :: fraction) :=
    readSign_of_head (head '+' rfl (by decide)) (head '-' rfl (by decide))
  have point : '.' ∈ whole ++ '.' :: fraction := by simp
  have front : spanDigits 10 (whole ++ '.' :: fraction) = (whole, '.' :: fraction) :=
    Net.spanDigits_append whole_digits fun c first ↦ by cases first; rfl
  have back : spanDigits 10 fraction = (fraction, []) := by
    have all : spanDigits 10 (fraction ++ []) = (fraction, []) :=
      Net.spanDigits_append digits fun _ first ↦ nomatch first
    rwa [List.append_nil] at all
  have no_word (word : String) (no_point : '.' ∉ word.toList) :
      String.ofList ((whole ++ '.' :: fraction).map Char.toLower) ≠ word :=
    ofList_ne_of_point point no_point
  generalize whole ++ '.' :: fraction = s at sign front no_word ⊢
  unfold ofText?
  rw [sign]
  simp [no_word "inf" (by decide), no_word "infinity" (by decide), no_word "nan" (by decide), front,
    back, exponentAtEnd?, some_digit]

end Binary64
end Rollout
