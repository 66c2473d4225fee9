import Rollout.Text.Utf8

/-!
# The bytes of a text are read as its characters

Reading the bytes of a character from a character boundary adds that character to what has been
read and ends at a boundary again (`Reading.foldl_character`).  So a text is read from its bytes
as it is (`ofBytes_bytes`), and from a stream that begins with them in two parts.
-/

namespace Rollout.Text

/-! ### The bytes of a text -/

theorem toList_loop_eq (b : ByteArray) (i : Nat) (l : List UInt8) :
    ByteArray.toList.loop b i l = l.reverse ++ b.data.toList.drop i := by
  fun_induction ByteArray.toList.loop b i l with
  | case1 i l lt ih =>
    have lt' : i < b.data.toList.length := by simpa using lt
    rw [ih, List.drop_eq_getElem_cons lt']
    simp [ByteArray.get!, lt]
  | case2 i l ge =>
    rw [List.drop_eq_nil_of_le (by simpa using Nat.le_of_not_lt ge), List.append_nil]

/-- The bytes of a text are those of its characters. -/
theorem bytes_eq_flatMap (s : String) : bytes s = s.toList.flatMap String.utf8EncodeChar := by
  have same : s.toByteArray = (s.toList.flatMap String.utf8EncodeChar).toByteArray :=
    String.utf8Encode_toList.symm
  rw [bytes, String.toUTF8_eq_toByteArray, same, ByteArray.toList, toList_loop_eq, List.drop_zero,
    List.toList_data_toByteArray]
  rfl

/-! ### One character -/

/-- The length of a character by its first byte. -/
theorem charLength_eq (b : UInt8) :
    charLength b =
      if b.toNat < 0x80 then 1
      else if 0xC2 ≤ b.toNat ∧ b.toNat ≤ 0xDF then 2
      else if 0xE0 ≤ b.toNat ∧ b.toNat ≤ 0xEF then 3
      else if 0xF0 ≤ b.toNat ∧ b.toNat ≤ 0xF4 then 4
      else 0 := by
  simp [charLength, UInt8.lt_iff_toNat_lt, UInt8.le_iff_toNat_le]

/-- When a byte may follow the first one of a character. -/
theorem continues_lead {lead b : UInt8} (low : 0x80 ≤ b.toNat) (high : b.toNat ≤ 0xBF)
    (long₃ : lead.toNat = 0xE0 → 0xA0 ≤ b.toNat) (scalar : lead.toNat = 0xED → b.toNat ≤ 0x9F)
    (long₄ : lead.toNat = 0xF0 → 0x90 ≤ b.toNat) (small : lead.toNat = 0xF4 → b.toNat ≤ 0x8F) :
    continues [lead] b = true := by
  unfold continues
  split
  all_goals simp_all [UInt8.le_iff_toNat_le]

theorem continues_later {first second b : UInt8} {more : List UInt8} (low : 0x80 ≤ b.toNat)
    (high : b.toNat ≤ 0xBF) : continues (first :: second :: more) b = true := by
  unfold continues
  simp [UInt8.le_iff_toNat_le, low, high]

namespace Reading

variable {symbols : List Symbol} {lead b : UInt8} {more : List UInt8}

theorem step_lead (h : 2 ≤ charLength lead) : step ⟨symbols, []⟩ lead = ⟨symbols, [lead]⟩ := by
  show start _ _ = _
  unfold start
  split
  · omega
  · omega
  · rfl

theorem step_middle (ok : continues (lead :: more) b = true)
    (short : more.length + 2 < charLength lead) :
    step ⟨symbols, lead :: more⟩ b = ⟨symbols, lead :: more ++ [b]⟩ := by
  unfold step
  dsimp only
  rw [if_pos ok, if_neg (by simp; omega)]

/-- The last byte of a character completes it. -/
theorem step_last (ok : continues (lead :: more) b = true)
    (full : more.length + 2 = charLength lead) :
    step ⟨symbols, lead :: more⟩ b =
      ⟨.char (Char.ofNat (codePoint (lead :: more ++ [b]))) :: symbols, []⟩ := by
  unfold step
  dsimp only
  rw [if_pos ok, if_pos (by simp; omega)]

/-! The bytes of a character carry the digits of its code point to the base 64, of which the first
one, `x`, is smaller. -/

section Digits

variable {x y z u : Nat}

theorem toNat_byte {n : Nat} (h : n < 256) : (UInt8.ofNat n).toNat = n :=
  UInt8.toNat_ofNat_of_lt' h

theorem foldl_two (two : 2 ≤ x) (hx : x < 32) (hy : y < 64) :
    [UInt8.ofNat (x + 0xC0), UInt8.ofNat (y + 0x80)].foldl step ⟨symbols, []⟩ =
      ⟨.char (Char.ofNat (x * 64 + y)) :: symbols, []⟩ := by
  have first := toNat_byte (n := x + 0xC0) (by omega)
  have second := toNat_byte (n := y + 0x80) (by omega)
  generalize UInt8.ofNat (x + 0xC0) = a at first
  generalize UInt8.ofNat (y + 0x80) = b at second
  have length : charLength a = 2 := by
    rw [charLength_eq, if_neg (by omega), if_pos (by omega)]
  have ok₂ : continues [a] b = true := by
    apply continues_lead <;> omega
  have spelt : codePoint [a, b] = x * 64 + y := by
    rw [codePoint]
    omega
  rw [List.foldl_cons, step_lead (by omega), List.foldl_cons, step_last ok₂ length.symm, ← spelt]
  rfl

/-- Three bytes of the right ranges are a character. -/
theorem foldl_three (hx : x < 16) (hy : y < 64) (hz : z < 64) (long : x = 0 → 32 ≤ y)
    (scalar : x = 13 → y < 32) :
    [UInt8.ofNat (x + 0xE0), UInt8.ofNat (y + 0x80), UInt8.ofNat (z + 0x80)].foldl step
        ⟨symbols, []⟩ =
      ⟨.char (Char.ofNat ((x * 64 + y) * 64 + z)) :: symbols, []⟩ := by
  have first := toNat_byte (n := x + 0xE0) (by omega)
  have second := toNat_byte (n := y + 0x80) (by omega)
  have third := toNat_byte (n := z + 0x80) (by omega)
  generalize UInt8.ofNat (x + 0xE0) = a at first
  generalize UInt8.ofNat (y + 0x80) = b at second
  generalize UInt8.ofNat (z + 0x80) = c at third
  have length : charLength a = 3 := by
    rw [charLength_eq, if_neg (by omega), if_neg (by omega), if_pos (by omega)]
  have ok₂ : continues [a] b = true := by
    apply continues_lead <;> omega
  have ok₃ : continues [a, b] c = true := continues_later (by omega) (by omega)
  have spelt : codePoint [a, b, c] = (x * 64 + y) * 64 + z := by
    rw [codePoint]
    omega
  rw [List.foldl_cons, step_lead (by omega), List.foldl_cons,
    step_middle ok₂ (by simp [length]), List.foldl_cons, List.singleton_append,
    step_last ok₃ length.symm, ← spelt]
  rfl

theorem foldl_four (hx : x < 5) (hy : y < 64) (hz : z < 64) (hu : u < 64) (long : x = 0 → 16 ≤ y)
    (small : x = 4 → y < 16) :
    [UInt8.ofNat (x + 0xF0), UInt8.ofNat (y + 0x80), UInt8.ofNat (z + 0x80),
        UInt8.ofNat (u + 0x80)].foldl step ⟨symbols, []⟩ =
      ⟨.char (Char.ofNat (((x * 64 + y) * 64 + z) * 64 + u)) :: symbols, []⟩ := by
  have first := toNat_byte (n := x + 0xF0) (by omega)
  have second := toNat_byte (n := y + 0x80) (by omega)
  have third := toNat_byte (n := z + 0x80) (by omega)
  have fourth := toNat_byte (n := u + 0x80) (by omega)
  generalize UInt8.ofNat (x + 0xF0) = a at first
  generalize UInt8.ofNat (y + 0x80) = b at second
  generalize UInt8.ofNat (z + 0x80) = c at third
  generalize UInt8.ofNat (u + 0x80) = d at fourth
  have length : charLength a = 4 := by
    rw [charLength_eq, if_neg (by omega), if_neg (by omega), if_neg (by omega),
      if_pos (by omega)]
  have ok₂ : continues [a] b = true := by
    apply continues_lead <;> omega
  have ok₃ : continues [a, b] c = true := continues_later (by omega) (by omega)
  have ok₄ : continues [a, b, c] d = true := continues_later (by omega) (by omega)
  have spelt : codePoint [a, b, c, d] = ((x * 64 + y) * 64 + z) * 64 + u := by
    rw [codePoint]
    omega
  rw [List.foldl_cons, step_lead (by omega), List.foldl_cons,
    step_middle ok₂ (by simp [length]), List.foldl_cons, List.singleton_append,
    step_middle ok₃ (by simp [length]), List.foldl_cons, List.cons_append,
    List.singleton_append, step_last ok₄ length.symm, ← spelt]
  rfl

end Digits

theorem step_ascii {n : Nat} (h : n < 128) :
    step ⟨symbols, []⟩ (UInt8.ofNat n) = ⟨.char (Char.ofNat n) :: symbols, []⟩ := by
  have value := toNat_byte (n := n) (by omega)
  show start _ _ = _
  unfold start
  rw [charLength_eq, value, if_pos h]
  rfl

/-- Reading the bytes of one character.  Surrogates, which the second of three bytes must not begin,
are not characters. -/
theorem foldl_character (c : Char) :
    (String.utf8EncodeChar c).foldl step ⟨symbols, []⟩ = ⟨.char c :: symbols, []⟩ := by
  have scalar : c.val.toNat < 0xD800 ∨ 0xDFFF < c.val.toNat ∧ c.val.toNat < 0x110000 := c.valid
  have back : Char.ofNat c.val.toNat = c := Char.ofNat_toNat c
  unfold String.utf8EncodeChar
  generalize c.val.toNat = v at scalar back
  dsimp only
  split
  · exact (step_ascii (by omega)).trans (by rw [back])
  split
  · rw [foldl_two (by omega) (by omega) (by omega),
      show v / 64 % 0x20 * 64 + v % 0x40 = v by omega, back]
  split
  · rw [foldl_three (by omega) (by omega) (by omega) (by omega) (by omega),
      show (v / 4096 % 0x10 * 64 + v / 64 % 0x40) * 64 + v % 0x40 = v by omega, back]
  · rw [foldl_four (by omega) (by omega) (by omega) (by omega) (by omega) (by omega),
      show ((v / 262144 % 0x08 * 64 + v / 4096 % 0x40) * 64 + v / 64 % 0x40) * 64 + v % 0x40 = v
        by omega,
      back]

/-- Reading the bytes of a text. -/
theorem foldl_bytes (s : String) :
    (bytes s).foldl step ⟨symbols, []⟩ = ⟨(Symbol.ofString s).reverse ++ symbols, []⟩ := by
  rw [bytes_eq_flatMap, Symbol.ofString]
  induction s.toList generalizing symbols with
  | nil => rfl
  | cons c cs ih =>
    rw [List.flatMap_cons, List.foldl_append, foldl_character, ih, List.map_cons,
      List.reverse_cons, List.append_assoc, List.singleton_append]

end Reading

/-- A text is read from its bytes as it is. -/
theorem ofBytes_bytes (s : String) : Symbol.ofBytes (bytes s) = Symbol.ofString s := by
  show ((bytes s).foldl Reading.step ⟨[], []⟩).flush.symbols.reverse = _
  rw [Reading.foldl_bytes, List.append_nil]
  exact List.reverse_reverse _

/-- The bytes of a text are read back as the text. -/
theorem lossy_bytes (s : String) : lossy (bytes s) = s := by
  rw [lossy, ofBytes_bytes, Symbol.ofString, List.map_map]
  exact (congrArg String.ofList (List.map_id' s.toList)).trans String.ofList_toList

end Rollout.Text
