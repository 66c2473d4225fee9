import Mathlib.Data.List.Forall2
import Rollout.Json.Tree

/-!
# Printed values are read as they are

The text of a value without floating-point numbers is cut into the tokens that the value consists
of, and these are put together to the value again (`Document.ofString_text`).  Each piece is read
whatever text follows it, with one exception: a number ends only where nothing follows that goes on
with it (`EndsNumber`).
-/

namespace Rollout.Json

/-! ### The numbers in a value -/

/-- All numbers in a value are such. -/
inductive EachNumber (P : Number → Prop) : Json → Prop
  | null : EachNumber P .null
  | bool (b : Bool) : EachNumber P (.bool b)
  | number {n : Number} (h : P n) : EachNumber P (.number n)
  | string (s : String) : EachNumber P (.string s)
  | array {items : List Json} (each : ∀ v ∈ items, EachNumber P v) : EachNumber P (.array items)
  | object {members : List (String × Json)} (each : ∀ m ∈ members, EachNumber P m.2) :
      EachNumber P (.object members)

theorem EachNumber.and {P Q : Number → Prop} {v : Json} (h : v.EachNumber P)
    (h' : v.EachNumber Q) : v.EachNumber fun n ↦ P n ∧ Q n := by
  induction h with
  | null => exact .null
  | bool b => exact .bool b
  | number h =>
    cases h' with
    | number h' => exact .number ⟨h, h'⟩
  | string s => exact .string s
  | array _ ih =>
    cases h' with
    | array each => exact .array fun v mem ↦ ih v mem (each v mem)
  | object _ ih =>
    cases h' with
    | object each => exact .object fun m mem ↦ ih m mem (each m mem)

/-- It is a whole number. -/
def Number.IsWhole : Number → Prop
  | int _ => True
  | double _ => False

/-- It takes up one word of 64 bits, signed or not. -/
def Number.FitsWord : Number → Prop
  | int n => -0x8000000000000000 ≤ n ∧ n ≤ 0xFFFFFFFFFFFFFFFF
  | double _ => True

/-- The value holds no floating-point number. -/
def Whole (v : Json) : Prop := v.EachNumber Number.IsWhole

/-- All whole numbers in a value fit. -/
def FitsWords (v : Json) : Prop := v.EachNumber Number.FitsWord

/-! ### Numbers -/

/-- Nothing at the front of the text goes on with a number. -/
def EndsNumber (k : List Char) : Prop :=
  ∀ c ∈ k.head?, c.isDigit = false ∧ c ≠ '.' ∧ c ≠ 'e' ∧ c ≠ 'E'

def digitValues (cs : List Char) : List Nat := cs.map fun c ↦ c.toNat - 48

section Digits

variable {cs k : List Char} (digits : ∀ c ∈ cs, c.isDigit = true) (ends : EndsNumber k)

theorem digit?_char {c : Char} (h : c.isDigit = true) : digit? (.char c) = some (c.toNat - 48) :=
  if_pos h

theorem no_digit?_char {c : Char} (h : c.isDigit = false) : digit? (.char c) = none :=
  if_neg (Bool.eq_false_iff.1 h)

include digits

omit ends in
theorem isSome_digit?_map : ∀ s ∈ cs.map Text.Symbol.char, (digit? s).isSome = true := by
  intro s mem
  obtain ⟨c, inside, rfl⟩ := List.mem_map.1 mem
  rw [digit?_char (digits c inside)]
  rfl

include ends

theorem leadingDigits_append :
    leadingDigits ((cs ++ k).map Text.Symbol.char) = digitValues cs := by
  unfold leadingDigits
  have stops : (k.map Text.Symbol.char).takeWhile (fun s ↦ (digit? s).isSome) = [] := by
    cases k with
    | nil => rfl
    | cons c k =>
      rw [List.map_cons, List.takeWhile_cons, no_digit?_char (ends c rfl).1]
      rfl
  rw [List.map_append, List.takeWhile_append_of_pos (isSome_digit?_map digits), stops,
    List.append_nil]
  clear stops ends
  induction cs with
  | nil => rfl
  | cons c cs ih =>
    rw [List.map_cons, List.filterMap_cons, digit?_char (digits c List.mem_cons_self)]
    exact congrArg _ (ih fun c mem ↦ digits c (List.mem_cons_of_mem _ mem))

theorem afterDigits_append :
    afterDigits ((cs ++ k).map Text.Symbol.char) = k.map Text.Symbol.char := by
  unfold afterDigits
  rw [List.map_append, List.dropWhile_append_of_pos (isSome_digit?_map digits)]
  cases k with
  | nil => rfl
  | cons c k =>
    rw [List.map_cons, List.dropWhile_cons, no_digit?_char (ends c rfl).1]
    rfl

end Digits

/-- Put one more digit behind. -/
def shiftIn (n d : Nat) : Nat := n * 10 + d

theorem le_foldl_shiftIn (n : Nat) (ds : List Nat) : n ≤ ds.foldl shiftIn n := by
  induction ds generalizing n with
  | nil => exact Nat.le_refl n
  | cons d ds ih =>
    refine Nat.le_trans ?_ (ih (shiftIn n d))
    unfold shiftIn
    omega

/-- A significand that fits is collected in full. -/
theorem collect_eq {n : Nat} {l : List Nat} (fits : l.foldl shiftIn n ≤ maxSignificand)
    (count : Nat) : collect n count l = (l.foldl shiftIn n, count + l.length) := by
  induction l generalizing n count with
  | nil => rfl
  | cons d ds ih =>
    have here : n * 10 + d ≤ maxSignificand := Nat.le_trans (le_foldl_shiftIn _ ds) fits
    rw [collect, if_pos here]
    exact (ih fits (count + 1)).trans (by rw [List.length_cons, Nat.add_right_comm]; rfl)

/-- The digits of a number come to this number. -/
theorem foldl_digitValues (m : Nat) : (digitValues (Nat.toDigits 10 m)).foldl shiftIn 0 = m := by
  have same : shiftIn = fun n d ↦ 10 * n + d := by
    funext n d
    rw [shiftIn, Nat.mul_comm]
  rw [digitValues, List.foldl_map, same]
  exact Nat.ofDigitChars_ten_toDigits

theorem digitChar_ne_zero : ∀ m < 10, 0 < m → m.digitChar ≠ '0' := by decide

/-- Only the number zero begins with the digit zero. -/
theorem toDigits_eq_cons {m : Nat} (h : 0 < m) :
    ∃ c cs, Nat.toDigits 10 m = c :: cs ∧ c ≠ '0' := by
  induction m using Nat.strongRecOn with
  | ind m ih =>
    by_cases small : m < 10
    · refine ⟨m.digitChar, [], Nat.toDigits_of_lt_base small, ?_⟩
      exact digitChar_ne_zero m small h
    · obtain ⟨c, cs, split, nonzero⟩ := ih (m / 10) (by omega) (by omega)
      refine ⟨c, cs ++ [(m % 10).digitChar], ?_, nonzero⟩
      rw [Nat.toDigits_of_base_le (by omega) (by omega), split]
      rfl

theorem digitValues_ne_zero_cons (m d : Nat) (ds : List Nat) :
    digitValues (Nat.toDigits 10 m) ≠ 0 :: d :: ds := by
  intro same
  by_cases zero : m = 0
  · rw [zero] at same
    cases same
  · obtain ⟨c, cs, split, nonzero⟩ := toDigits_eq_cons (Nat.pos_of_ne_zero zero)
    have digit : c.isDigit = true := by
      refine Nat.isDigit_of_mem_toDigits (b := 10) (n := m) (by omega) (by omega) ?_
      rw [split]
      exact List.mem_cons_self
    rw [split] at same
    have value : c.toNat - 48 = 0 := (List.cons.inj same).1
    have least : 48 ≤ c.toNat := (Char.isDigit_iff_toNat.1 digit).1
    exact nonzero (Char.toNat_inj.1 (by rw [show ('0' : Char).toNat = 48 from rfl]; omega))

theorem readExponent_of_ends (negative : Bool) (l : Literal) {k : List Char}
    (ends : EndsNumber k) :
    readExponent negative l (k.map .char) = (⟨l.value negative, none⟩, k.map .char) := by
  cases k with
  | nil => rfl
  | cons c k =>
    obtain ⟨-, -, lower, upper⟩ := ends c rfl
    show (if c = 'e' || c = 'E' then _ else _) = _
    rw [if_neg (by simp [lower, upper])]
    rfl

/-- The digits of a number are read as far as they go. -/
theorem readNumber_toDigits (negative : Bool) (m : Nat) {k : List Char} (ends : EndsNumber k) :
    readNumber negative ((Nat.toDigits 10 m ++ k).map .char) =
      (⟨Literal.value negative ⟨digitValues (Nat.toDigits 10 m), none, none⟩, none⟩,
        k.map .char) := by
  have digits : ∀ c ∈ Nat.toDigits 10 m, c.isDigit = true := fun c mem ↦
    Nat.isDigit_of_mem_toDigits (by omega) (by omega) mem
  have nonempty : digitValues (Nat.toDigits 10 m) ≠ [] := fun h ↦
    Nat.toDigits_ne_nil (List.map_eq_nil_iff.1 h)
  unfold readNumber
  rw [leadingDigits_append digits ends, afterDigits_append digits ends]
  split
  · rename_i h
    exact absurd h nonempty
  · rename_i h
    exact absurd h (digitValues_ne_zero_cons m _ _)
  · split
    · rename_i r point
      cases k with
      | nil => cases point
      | cons c k =>
        obtain ⟨same, -⟩ := List.cons.inj point
        exact absurd (Text.Symbol.char.inj same) (ends c rfl).2.1
    · exact readExponent_of_ends negative _ ends

/-- A natural number of 64 bits is read as it is. -/
theorem value_natural {m : Nat} (fits : m ≤ 0xFFFFFFFFFFFFFFFF) :
    Literal.value false ⟨digitValues (Nat.toDigits 10 m), none, none⟩ = .ok (.int m) := by
  have collected := collect_eq (n := 0) (l := digitValues (Nat.toDigits 10 m))
    (by rw [foldl_digitValues]; exact fits) 0
  rw [foldl_digitValues, Nat.zero_add] at collected
  unfold Literal.value
  simp [collected]

theorem value_negative {m : Nat} (positive : 0 < m) (fits : m ≤ 0x8000000000000000) :
    Literal.value true ⟨digitValues (Nat.toDigits 10 m), none, none⟩ = .ok (.int (-m)) := by
  have collected := collect_eq (n := 0) (l := digitValues (Nat.toDigits 10 m))
    (by rw [foldl_digitValues]; unfold maxSignificand; omega) 0
  rw [foldl_digitValues, Nat.zero_add] at collected
  unfold Literal.value
  simp [collected, Nat.pos_iff_ne_zero.1 positive, Nat.not_lt.2 fits]

/-! ### Strings -/

/-- The unit stands for the character: it is the character, or the code of a control. -/
def StringUnit.Spells (u : StringUnit) (c : Char) : Prop :=
  u = .char c ∨ u = .code c.toNat ∧ c.toNat < 0x20

theorem hexCode?_controlDigits : ∀ n < 0x20,
    hexCode? (.char '0') (.char '0') (.char (Char.ofNat (48 + n / 16)))
      (.char (if n % 16 < 10 then Char.ofNat (48 + n % 16) else Char.ofNat (87 + n % 16))) =
        some n := by
  decide

/-- An escaped character is read as one unit. -/
theorem stringUnits_escapedChar (c : Char) : ∃ u : StringUnit, u.Spells c ∧ ∀ acc rest,
    stringUnits acc ((escapedChar c ++ rest).map .char) =
      stringUnits (u :: acc) (rest.map .char) := by
  unfold escapedChar
  split
  case isTrue quote => exact ⟨.char '"', .inl (by rw [quote]), fun acc rest ↦ rfl⟩
  split
  case isTrue backslash => exact ⟨.char '\\', .inl (by rw [backslash]), fun acc rest ↦ rfl⟩
  split
  case isTrue same => exact ⟨.char '\x08', .inl (by rw [same]), fun acc rest ↦ rfl⟩
  split
  case isTrue same => exact ⟨.char '\x0c', .inl (by rw [same]), fun acc rest ↦ rfl⟩
  split
  case isTrue same => exact ⟨.char '\n', .inl (by rw [same]), fun acc rest ↦ rfl⟩
  split
  case isTrue same => exact ⟨.char '\r', .inl (by rw [same]), fun acc rest ↦ rfl⟩
  split
  case isTrue same => exact ⟨.char '\t', .inl (by rw [same]), fun acc rest ↦ rfl⟩
  split
  case isTrue control =>
    refine ⟨.code c.toNat, .inr ⟨rfl, control⟩, fun acc rest ↦ ?_⟩
    show stringUnits acc (.char '\\' :: .char 'u' :: .char '0' :: .char '0' :: _ :: _ :: _) = _
    rw [stringUnits, hexCode?_controlDigits _ control]
    rfl
  case isFalse quote backslash _ _ _ _ _ plain =>
    refine ⟨.char c, .inl rfl, fun acc rest ↦ ?_⟩
    show stringUnits acc (.char c :: rest.map .char) = _
    rw [stringUnits, if_neg quote, if_neg plain]
    case x_1 => exact fun _ ↦ backslash
    case x_2 => exact fun _ _ _ ↦ backslash
    case x_3 => exact fun _ _ _ _ _ _ ↦ backslash
    case x_4 => exact fun _ _ _ ↦ backslash

/-- A printed string is read up to its closing quote. -/
theorem stringUnits_printed (cs k : List Char) (acc : List StringUnit) : ∃ us,
    List.Forall₂ StringUnit.Spells us cs ∧
      stringUnits acc ((cs.flatMap escapedChar ++ '"' :: k).map .char) =
        (us.reverse ++ acc, none, k.map .char) := by
  induction cs generalizing acc with
  | nil => exact ⟨[], .nil, rfl⟩
  | cons c cs ih =>
    obtain ⟨u, spells, read⟩ := stringUnits_escapedChar c
    obtain ⟨us, all, rest⟩ := ih (u :: acc)
    refine ⟨u :: us, .cons spells all, ?_⟩
    rw [List.flatMap_cons, List.append_assoc, read, rest, List.reverse_cons, List.append_assoc]
    rfl

/-- Units that spell characters are put together to these. -/
theorem joinUnits_spells {us : List StringUnit} {cs : List Char}
    (all : List.Forall₂ StringUnit.Spells us cs) (acc : List Char) :
    joinUnits none false acc us = .ok (String.ofList (acc.reverse ++ cs)) := by
  induction all generalizing acc with
  | nil => rw [List.append_nil]; rfl
  | @cons u c us cs spells _ ih =>
    have one : joinUnits none false acc (u :: us) = joinUnits none false (c :: acc) us := by
      rcases spells with rfl | ⟨rfl, control⟩
      · rfl
      · have low : isLowSurrogate c.toNat = false := by unfold isLowSurrogate; simp; omega
        have high : isHighSurrogate c.toNat = false := by unfold isHighSurrogate; simp; omega
        rw [joinUnits.eq_def]
        dsimp only
        rw [low, high, Char.ofNat_toNat]
        rfl
    rw [one, ih, List.reverse_cons, List.append_assoc]
    rfl

/-- A printed string is read as it is. -/
theorem readString_printed (s : String) (k : List Char) :
    readString ((s.toList.flatMap escapedChar ++ '"' :: k).map .char) =
      (⟨.ok s, none⟩, k.map .char) := by
  obtain ⟨us, all, read⟩ := stringUnits_printed s.toList k []
  unfold readString
  rw [read, List.append_nil]
  dsimp only
  rw [List.reverse_reverse, joinUnits_spells all, List.reverse_nil, List.nil_append,
    String.ofList_toList]

/-! ### Tokens -/

theorem ne_of_isDigit {c d : Char} (digit : c.isDigit = true) (h : d.isDigit = false) : c ≠ d := by
  rintro rfl
  exact absurd digit (Bool.eq_false_iff.1 h)

theorem isSpace_of_isDigit {c : Char} (digit : c.isDigit = true) : isSpace c = false := by
  have ne {d : Char} (h : d.isDigit = false) : c ≠ d := ne_of_isDigit digit h
  unfold isSpace
  rw [decide_eq_false (ne rfl), decide_eq_false (ne rfl), decide_eq_false (ne rfl),
    decide_eq_false (ne rfl)]
  rfl

theorem tokenAt_digit {c : Char} (digit : c.isDigit = true) (rest : List Text.Symbol) :
    tokenAt c rest =
      (.number (readNumber false (.char c :: rest)).1,
        (readNumber false (.char c :: rest)).1.after (readNumber false (.char c :: rest)).2) := by
  have ne {d : Char} (h : d.isDigit = false) : c ≠ d := ne_of_isDigit digit h
  have no_mark : mark? c = none := by
    unfold mark?
    rw [if_neg (ne rfl), if_neg (ne rfl), if_neg (ne rfl), if_neg (ne rfl), if_neg (ne rfl),
      if_neg (ne rfl)]
  have no_word : word? c = none := by
    unfold word?
    rw [if_neg (ne rfl), if_neg (ne rfl), if_neg (ne rfl)]
  unfold tokenAt lexemeAt
  rw [no_mark, no_word]
  dsimp only
  rw [if_neg (ne rfl), if_neg (ne rfl), if_pos digit]

/-- A natural number that begins a text. -/
theorem tokenAt_natural {m : Nat} (fits : m ≤ 0xFFFFFFFFFFFFFFFF) : ∃ c cs,
    Nat.toDigits 10 m = c :: cs ∧ c.isDigit = true ∧ ∀ k, EndsNumber k →
      tokenAt c ((cs ++ k).map .char) = (.number ⟨.ok (.int m), none⟩, k.map .char) := by
  cases split : Nat.toDigits 10 m with
  | nil => exact absurd split Nat.toDigits_ne_nil
  | cons c cs =>
    have digit : c.isDigit = true := by
      refine Nat.isDigit_of_mem_toDigits (b := 10) (n := m) (by omega) (by omega) ?_
      rw [split]
      exact List.mem_cons_self
    refine ⟨c, cs, rfl, digit, fun k ends ↦ ?_⟩
    have read := readNumber_toDigits false m ends
    rw [value_natural fits, split] at read
    rw [tokenAt_digit digit, show Text.Symbol.char c :: (cs ++ k).map .char =
      (c :: cs ++ k).map .char from rfl, read]
    rfl

/-- A number that begins a text. -/
theorem tokenAt_number {n : Number} (whole : n.IsWhole) (fits : n.FitsWord) : ∃ c cs,
    n.chars = c :: cs ∧ isSpace c = false ∧ ∀ k, EndsNumber k →
      tokenAt c ((cs ++ k).map .char) = (.number ⟨.ok n, none⟩, k.map .char) := by
  cases n with
  | double x => exact whole.elim
  | int n =>
    obtain ⟨least, greatest⟩ := fits
    cases n with
    | ofNat m =>
      have fits : m ≤ 0xFFFFFFFFFFFFFFFF := Int.ofNat_le.1 greatest
      obtain ⟨c, cs, split, digit, read⟩ := tokenAt_natural fits
      refine ⟨c, cs, ?_, isSpace_of_isDigit digit, read⟩
      show (toString m).toList = _
      rw [Nat.toString_eq_ofList_toDigits, String.toList_ofList, split]
    | negSucc m =>
      refine ⟨'-', Nat.toDigits 10 (m + 1), ?_, rfl, fun k ends ↦ ?_⟩
      · show ("-" ++ toString (m + 1)).toList = _
        rw [Nat.toString_eq_ofList_toDigits, String.toList_append,
          String.toList_ofList (l := Nat.toDigits ..)]
        rfl
      · have read := readNumber_toDigits true (m + 1) ends
        rw [value_negative (Nat.succ_pos m) (by omega)] at read
        show (Token.number (readNumber true _).1, (readNumber true _).1.after _) = _
        rw [read]
        rfl

/-! ### Documents -/

def Assembly.read (a : Assembly) (text : List Char) : Assembly :=
  (tokens (text.map .char)).foldl step a

/-- Tokens that have been read before do not affect the next ones. -/
theorem tokensFrom_append (acc before : List Token) (text : List Text.Symbol) :
    tokensFrom (acc ++ before) text = tokensFrom acc text ++ before := by
  fun_induction tokensFrom acc text with
  | case1 acc => rw [tokensFrom]
  | case2 acc bytes rest => rw [tokensFrom]; rfl
  | case3 acc c rest space ih => rw [tokensFrom, if_pos space, ih]
  | case4 acc c rest space ih =>
    rw [tokensFrom, if_neg space]
    exact ih

/-- A token is cut off the front of a text. -/
theorem Assembly.read_cons (a : Assembly) {c : Char} {cs k : List Char} {t : Token}
    (space : isSpace c = false) (next : tokenAt c (cs.map .char) = (t, k.map .char)) :
    a.read (c :: cs) = (a.step t).read k := by
  have tokens_eq : tokens ((c :: cs).map .char) = t :: tokens (k.map .char) := by
    unfold tokens
    rw [List.map_cons, tokensFrom, if_neg (Bool.eq_false_iff.1 space), next,
      show [t] = [] ++ [t] from rfl, tokensFrom_append, List.reverse_append]
    rfl
  unfold read
  rw [tokens_eq, List.foldl_cons]

theorem Assembly.read_nil (a : Assembly) : a.read [] = a := by
  unfold read tokens
  rw [List.map_nil, tokensFrom]
  rfl

namespace Assembly

variable {stack : List Frame} {k : List Char}

/-- A mark at the front of a text. -/
theorem read_mark (a : Assembly) {c : Char} {t : Token} (mark : mark? c = some t)
    (space : isSpace c = false) (k : List Char) : a.read (c :: k) = (a.step t).read k := by
  refine a.read_cons space ?_
  unfold tokenAt
  rw [mark]

/-- A printed string is read as one token. -/
theorem read_string (a : Assembly) (s : String) (k : List Char) :
    a.read (stringChars s ++ k) = (a.step (.string ⟨.ok s, none⟩)).read k := by
  have split : stringChars s ++ k = '"' :: (s.toList.flatMap escapedChar ++ '"' :: k) := by
    unfold stringChars
    rw [List.append_assoc, List.cons_append]
    rfl
  rw [split]
  refine a.read_cons rfl ?_
  show (Token.string (readString _).1, (readString _).1.after (readString _).2) = _
  rw [readString_printed]
  rfl

/-- A printed whole number is read as one token. -/
theorem read_number (a : Assembly) {n : Number} (whole : n.IsWhole) (fits : n.FitsWord)
    (ends : EndsNumber k) : a.read (n.chars ++ k) = (a.step (.number ⟨.ok n, none⟩)).read k := by
  obtain ⟨c, cs, split, space, read⟩ := tokenAt_number whole fits
  rw [split]
  exact a.read_cons space (read k ends)

end Assembly

/-- A value is due, or the end of an array. -/
def Expected.AwaitsValue (e : Expected) : Prop := e = .value ∨ e = .itemOrEnd

/-- The text of the value is read as the value, wherever one is due. -/
def ReadsAsIs (v : Json) : Prop := ∀ (e : Expected) (stack : List Frame) (k : List Char),
  e.AwaitsValue → EndsNumber k → (Assembly.mk e stack none false).read (charsThen k v) =
    (Assembly.deliver (.ofJson v) stack).read k

namespace Tree

@[simp] theorem skip_ofJson (v : Json) : (ofJson v).skip = none := by
  cases v <;> rfl

theorem firstFault_replicate (n : Nat) : firstFault (List.replicate n none) = none := by
  induction n with
  | zero => rfl
  | succ n ih => exact ih

theorem firstFault_of_none {fs : List (Option Fault)} (h : ∀ f ∈ fs, f = none) :
    firstFault fs = none := by
  rw [List.eq_replicate_iff.2 ⟨rfl, h⟩]
  exact firstFault_replicate _

theorem ofJsonItems_eq (items : List Json) : ofJsonItems items = items.map ofJson := by
  induction items with
  | nil => rfl
  | cons v more ih => exact congrArg (ofJson v :: ·) ih

theorem ofJsonMembers_eq (members : List (String × Json)) :
    ofJsonMembers members = members.map fun m ↦ (⟨.ok m.1, none⟩, ofJson m.2) := by
  induction members with
  | nil => rfl
  | cons m more ih => exact congrArg ((⟨.ok m.1, none⟩, ofJson m.2) :: ·) ih

/-- There is nothing wrong with an array of values. -/
theorem ofItems_ofJson (items : List Json) :
    ofItems (items.map ofJson) .closed = ofJson (.array items) := by
  unfold ofItems
  rw [firstFault_of_none]
  · rw [ofJson, ofJsonItems_eq]
  · intro f mem
    rcases List.mem_append.1 mem with mem | mem
    · obtain ⟨t, inside, rfl⟩ := List.mem_map.1 mem
      obtain ⟨v, -, rfl⟩ := List.mem_map.1 inside
      exact skip_ofJson v
    · exact List.mem_singleton.1 mem

theorem ofMembers_ofJson (members : List (String × Json)) :
    ofMembers (members.map fun m ↦ (⟨.ok m.1, none⟩, ofJson m.2)) .closed =
      ofJson (.object members) := by
  unfold ofMembers
  rw [firstFault_of_none]
  · rw [ofJson, ofJsonMembers_eq]
  · intro f mem
    rcases List.mem_append.1 mem with mem | mem
    · obtain ⟨t, inside, two⟩ := List.mem_flatMap.1 mem
      obtain ⟨m, -, rfl⟩ := List.mem_map.1 inside
      simpa using two
    · exact List.mem_singleton.1 mem

end Tree

/-! ### Values -/

theorem ends_items (k : List Char) (more : List Json) : EndsNumber (itemsThen k more) := by
  cases more <;> rintro c ⟨⟩ <;> decide

theorem ends_members (k : List Char) (more : List (String × Json)) :
    EndsNumber (membersThen k more) := by
  cases more <;> rintro c ⟨⟩ <;> decide

section Contents

variable (stack : List Frame) (k : List Char)

/-- The rest of an array, from behind the items that are done. -/
theorem read_items {more : List Json} (each : ∀ v ∈ more, v.ReadsAsIs) (done : List Json) :
    (Assembly.mk .commaOrEnd (.array (done.map Tree.ofJson).reverse :: stack) none false).read
        (itemsThen k more) =
      (Assembly.deliver (.ofJson (.array (done ++ more))) stack).read k := by
  induction more generalizing done with
  | nil =>
    rw [itemsThen, Assembly.read_mark _ (t := .endArray) rfl rfl, List.append_nil,
      ← Tree.ofItems_ofJson]
    show (Assembly.deliver (.ofItems (done.map Tree.ofJson).reverse.reverse .closed) stack).read k =
      _
    rw [List.reverse_reverse]
  | cons v more ih =>
    rw [itemsThen, Assembly.read_mark _ (t := .comma) rfl rfl]
    refine (each v List.mem_cons_self .value _ _ (.inl rfl) (ends_items k more)).trans ?_
    have rest := ih (fun v mem ↦ each v (List.mem_cons_of_mem _ mem)) (done ++ [v])
    rw [List.map_append, List.reverse_append, List.append_assoc] at rest
    exact rest

/-- A member, from its key on. -/
theorem read_member {m : String × Json} (reads : m.2.ReadsAsIs) (done : List (Lexeme String × Tree))
    {e : Expected} (key : e = .key ∨ e = .keyOrEnd) {k : List Char} (ends : EndsNumber k) :
    (Assembly.mk e (.object done :: stack) none false).read
        (stringChars m.1 ++ ':' :: charsThen k m.2) =
      (Assembly.mk .commaOrEnd (.object ((⟨.ok m.1, none⟩, .ofJson m.2) :: done) :: stack) none
        false).read k := by
  have step_key : (Assembly.mk e (.object done :: stack) none false).step
      (.string ⟨.ok m.1, none⟩) =
        ⟨.colon, .entry ⟨.ok m.1, none⟩ :: .object done :: stack, none, false⟩ := by
    rcases key with rfl | rfl <;> rfl
  rw [Assembly.read_string, step_key, Assembly.read_mark _ (t := .colon) rfl rfl]
  exact reads .value _ _ (.inl rfl) ends

/-- The rest of an object, from behind the members that are done. -/
theorem read_members {more : List (String × Json)} (each : ∀ m ∈ more, m.2.ReadsAsIs)
    (done : List (String × Json)) :
    (Assembly.mk .commaOrEnd
          (.object (done.map fun m ↦ (⟨.ok m.1, none⟩, Tree.ofJson m.2)).reverse :: stack) none
          false).read
        (membersThen k more) =
      (Assembly.deliver (.ofJson (.object (done ++ more))) stack).read k := by
  induction more generalizing done with
  | nil =>
    rw [membersThen, Assembly.read_mark _ (t := .endObject) rfl rfl, List.append_nil,
      ← Tree.ofMembers_ofJson]
    show (Assembly.deliver (.ofMembers
      (done.map fun m ↦ (⟨.ok m.1, none⟩, Tree.ofJson m.2)).reverse.reverse .closed) stack).read k =
        _
    rw [List.reverse_reverse]
  | cons m more ih =>
    rw [membersThen, List.cons_append, Assembly.read_mark _ (t := .comma) rfl rfl]
    refine (read_member stack (each m List.mem_cons_self) _ (.inl rfl) (ends_members k more)).trans
      ?_
    have rest := ih (fun m mem ↦ each m (List.mem_cons_of_mem _ mem)) (done ++ [m])
    rw [List.map_append, List.reverse_append, List.append_assoc] at rest
    exact rest

end Contents

/-- Arrays are read as they are printed if their items are. -/
theorem readsAsIs_array {items : List Json} (each : ∀ v ∈ items, v.ReadsAsIs) :
    (Json.array items).ReadsAsIs := by
  intro e stack k awaits ends
  have opens (text : List Char) : (Assembly.mk e stack none false).read ('[' :: text) =
      (Assembly.mk .itemOrEnd (.array [] :: stack) none false).read text := by
    rw [Assembly.read_mark _ (t := .beginArray) rfl rfl]
    rcases awaits with rfl | rfl <;> rfl
  cases items with
  | nil =>
    rw [charsThen, opens, Assembly.read_mark _ (t := .endArray) rfl rfl]
    rfl
  | cons v more =>
    rw [charsThen, opens]
    refine (each v List.mem_cons_self .itemOrEnd _ _ (.inr rfl) (ends_items k more)).trans ?_
    exact read_items stack k (fun v mem ↦ each v (List.mem_cons_of_mem _ mem)) [v]

theorem readsAsIs_object {members : List (String × Json)} (each : ∀ m ∈ members, m.2.ReadsAsIs) :
    (Json.object members).ReadsAsIs := by
  intro e stack k awaits ends
  have opens (text : List Char) : (Assembly.mk e stack none false).read ('\x7b' :: text) =
      (Assembly.mk .keyOrEnd (.object [] :: stack) none false).read text := by
    rw [Assembly.read_mark _ (t := .beginObject) rfl rfl]
    rcases awaits with rfl | rfl <;> rfl
  cases members with
  | nil =>
    rw [charsThen, opens, Assembly.read_mark _ (t := .endObject) rfl rfl]
    rfl
  | cons m more =>
    rw [charsThen, List.cons_append, opens]
    refine (read_member stack (each m List.mem_cons_self) [] (.inr rfl)
      (ends_members k more)).trans ?_
    exact read_members stack k (fun m mem ↦ each m (List.mem_cons_of_mem _ mem)) [m]

/-- The text of a value without floating-point numbers is read as the value. -/
theorem readsAsIs {v : Json} (whole : v.Whole) (fits : v.FitsWords) : v.ReadsAsIs := by
  have each := whole.and fits
  clear whole fits
  induction each with
  | null =>
    intro e stack k awaits ends
    rw [charsThen, Assembly.read_cons _ (t := .null) (k := k) rfl rfl]
    rcases awaits with rfl | rfl <;> rfl
  | bool b =>
    intro e stack k awaits ends
    cases b with
    | false =>
      rw [charsThen, Assembly.read_cons _ (t := .bool false) (k := k) rfl rfl]
      rcases awaits with rfl | rfl <;> rfl
    | true =>
      rw [charsThen, Assembly.read_cons _ (t := .bool true) (k := k) rfl rfl]
      rcases awaits with rfl | rfl <;> rfl
  | number h =>
    intro e stack k awaits ends
    rw [charsThen, Assembly.read_number _ h.1 h.2 ends]
    rcases awaits with rfl | rfl <;> rfl
  | string s =>
    intro e stack k awaits ends
    rw [charsThen, Assembly.read_string]
    rcases awaits with rfl | rfl <;> rfl
  | array _ ih => exact readsAsIs_array ih
  | object _ ih => exact readsAsIs_object ih

/-- Printed values are read as they are. -/
theorem Document.ofString_text {v : Json} (whole : v.Whole) (fits : v.FitsWords) :
    Document.ofString v.text = ⟨.ofJson v, false⟩ := by
  have read := readsAsIs whole fits .value [] [] (.inl rfl) (by rintro c ⟨⟩)
  rw [Assembly.read_nil] at read
  have assembled : (tokens (Text.Symbol.ofString v.text)).foldl Assembly.step {} =
      Assembly.deliver (.ofJson v) [] := by
    rw [← read]
    unfold Text.Symbol.ofString Json.text Json.chars
    rw [String.toList_ofList]
    rfl
  unfold Document.ofString Document.ofSymbols Document.ofTokens
  rw [assembled]
  rfl

end Rollout.Json
