import Mathlib.Data.List.Lemmas
import Rollout.Proofs.Utf8
import Rollout.Steps.Output

/-!
# Line feeds are between characters

A line feed continues no character.  So all that has been read is settled when one comes, and a
stream is read in parts that end in line feeds as it is read in one (`ofBytes_lineFeed`).  No other
byte contributes to a line break either, and so these parts show the parts of the text that are
between its line breaks (`splitAfter_lossy`).
-/

namespace Rollout

/-! ### Splitting -/

/-- A list is split after each `x`: a part ends in its only `x`, or it is the last one and has
none.  No part is empty. -/
inductive SplitAfter {α : Type} (x : α) : List α → List (List α) → Prop where
  | nil : SplitAfter x [] []
  | last {part : List α} (nonempty : part ≠ []) (without : x ∉ part) : SplitAfter x part [part]
  | cons {front rest : List α} {parts : List (List α)} (without : x ∉ front)
      (more : SplitAfter x rest parts) : SplitAfter x (front ++ x :: rest) ((front ++ [x]) :: parts)

namespace SplitAfter

variable {α : Type} {x : α} {whole part : List α} {parts parts' : List (List α)}

theorem append_cons_inj {front front' rest rest' : List α} (without : x ∉ front)
    (without' : x ∉ front') (same : front ++ x :: rest = front' ++ x :: rest') :
    front = front' ∧ rest = rest' := by
  induction front generalizing front' with
  | nil =>
    cases front' with
    | nil => exact ⟨rfl, List.tail_eq_of_cons_eq same⟩
    | cons a front' => exact absurd (List.head_eq_of_cons_eq same ▸ List.mem_cons_self) without'
  | cons a front ih =>
    cases front' with
    | nil => exact absurd (List.head_eq_of_cons_eq same ▸ List.mem_cons_self) without
    | cons a' front' =>
      obtain ⟨rfl, behind⟩ := List.cons.inj same
      obtain ⟨rfl, rfl⟩ := ih (List.not_mem_of_not_mem_cons without)
        (List.not_mem_of_not_mem_cons without') behind
      exact ⟨rfl, rfl⟩

/-- A whole is split after each mark in one way only. -/
theorem unique (h : SplitAfter x whole parts) (h' : SplitAfter x whole parts') :
    parts = parts' := by
  induction h generalizing parts' with
  | nil =>
    generalize nothing : [] = whole at h'
    cases h' with
    | nil => rfl
    | last nonempty without => exact absurd nothing.symm nonempty
    | cons without more => simp at nothing
  | @last part nonempty without =>
    generalize same : part = whole at h'
    cases h' with
    | nil => exact absurd same nonempty
    | last nonempty' without' => rfl
    | cons without' more' => simp [same] at without
  | @cons front rest parts without more ih =>
    generalize same : front ++ x :: rest = whole at h'
    cases h' with
    | nil => simp at same
    | last nonempty' without' => simp [← same] at without'
    | @cons front' rest' parts' without' more' =>
      obtain ⟨rfl, rfl⟩ := append_cons_inj without without' same
      rw [ih more']

theorem flatten (h : SplitAfter x whole parts) : parts.flatten = whole := by
  induction h with
  | nil => rfl
  | last nonempty without => exact List.append_nil _
  | cons without more ih => rw [List.flatten_cons, ih, List.append_assoc, List.singleton_append]

/-- A part has no `x` but at its end. -/
theorem of_mem (h : SplitAfter x whole parts) (mem : part ∈ parts) :
    ∃ front, x ∉ front ∧ (part = front ∨ part = front ++ [x]) := by
  induction h with
  | nil => nomatch mem
  | last nonempty without => exact ⟨_, without, .inl (List.mem_singleton.1 mem)⟩
  | cons without more ih =>
    rcases List.mem_cons.1 mem with rfl | later
    · exact ⟨_, without, .inr rfl⟩
    · exact ih later

/-- If the list ends in `x`, each part does. -/
theorem of_mem_of_ends (h : SplitAfter x whole parts) (ends : whole = [] ∨ [x] <:+ whole)
    (mem : part ∈ parts) : ∃ front, x ∉ front ∧ part = front ++ [x] := by
  induction h with
  | nil => nomatch mem
  | last nonempty without =>
    rcases ends with rfl | ends
    · exact absurd rfl nonempty
    · exact absurd (ends.subset (List.mem_singleton_self x)) without
  | @cons front rest parts without more ih =>
    rcases List.mem_cons.1 mem with rfl | later
    · exact ⟨front, without, rfl⟩
    · refine ih ?_ later
      rcases ends with nothing | ⟨front', same⟩
      · simp at nothing
      · rcases List.eq_nil_or_concat' rest with rfl | ⟨init, last, rfl⟩
        · exact .inl rfl
        · rw [← List.cons_append, ← List.append_assoc] at same
          have same_last := (List.append_inj' same rfl).2
          exact .inr (same_last ▸ List.suffix_append init [last])

end SplitAfter

/-- Lines without `x`, each with one behind it, are the parts of what they make up. -/
theorem splitAfter_flatMap {α : Type} {x : α} {lines : List (List α)}
    (without : ∀ line ∈ lines, x ∉ line) :
    SplitAfter x (lines.flatMap (· ++ [x])) (lines.map (· ++ [x])) := by
  induction lines with
  | nil => exact .nil
  | cons line lines ih =>
    rw [List.flatMap_cons, List.append_assoc, List.singleton_append]
    exact .cons (without line List.mem_cons_self)
      (ih fun line' mem ↦ without line' (List.mem_cons_of_mem line mem))

namespace Steps

/-- A stream is split after its line feeds. -/
theorem splitAfter_pieces (stream : List UInt8) : SplitAfter lineFeed stream (pieces stream) := by
  induction stream with
  | nil => exact .nil
  | cons b stream ih =>
    show SplitAfter lineFeed (b :: stream) (addByte b (pieces stream))
    by_cases feed : b = lineFeed
    · subst feed
      have alone : addByte lineFeed (pieces stream) = ([] ++ [lineFeed]) :: pieces stream := by
        cases pieces stream with
        | nil => rfl
        | cons piece more => rfl
      rw [alone]
      exact .cons List.not_mem_nil ih
    · have without_cons {front : List UInt8} (without : lineFeed ∉ front) :
          lineFeed ∉ b :: front := fun mem ↦
        (List.mem_cons.1 mem).elim (fun same ↦ feed same.symm) without
      generalize pieces stream = ps at ih
      cases ih with
      | nil => exact .last (List.cons_ne_nil b []) (without_cons List.not_mem_nil)
      | last nonempty without =>
        rw [addByte, if_neg feed]
        exact .last (List.cons_ne_nil b stream) (without_cons without)
      | cons without split =>
        rw [addByte, if_neg feed]
        exact .cons (without_cons without) split

end Steps

/-! ### Reading up to a line feed -/

namespace Text

open Steps (lineFeed)

namespace Reading

/-- A reading with more symbols before it. -/
def after (older : List Symbol) (r : Reading) : Reading := ⟨r.symbols ++ older, r.pending⟩

variable {older : List Symbol} {r : Reading} {b : UInt8}

theorem flush_after : (r.after older).flush = r.flush.after older := by
  obtain ⟨symbols, pending⟩ := r
  cases pending <;> rfl

theorem start_after : (r.after older).start b = (r.start b).after older := by
  unfold start
  split <;> rfl

/-- What has been read before does not affect how a byte is read. -/
theorem step_after : (r.after older).step b = (r.step b).after older := by
  obtain ⟨symbols, pending⟩ := r
  cases pending with
  | nil => exact start_after
  | cons lead more =>
    unfold step
    dsimp only [after]
    split
    · split <;> rfl
    · exact start_after (r := flush ⟨symbols, lead :: more⟩)

/-- What has been read does not matter to what follows a character boundary. -/
theorem foldl_after (bytes : List UInt8) :
    bytes.foldl step (r.after older) = (bytes.foldl step r).after older := by
  induction bytes generalizing r with
  | nil => rfl
  | cons b bytes ih => rw [List.foldl_cons, List.foldl_cons, step_after, ih]

/-- A line feed ends a character in progress and is read as itself. -/
theorem step_lineFeed : r.step lineFeed = ⟨.char '\n' :: r.flush.symbols, []⟩ := by
  obtain ⟨symbols, pending⟩ := r
  cases pending with
  | nil => rfl
  | cons lead more =>
    have refused : continues (lead :: more) lineFeed = false := by
      unfold continues
      split <;> rfl
    unfold step
    dsimp only
    rw [refused]
    rfl

end Reading

/-- A stream is read up to a line feed and from there on. -/
theorem ofBytes_lineFeed (front rest : List UInt8) :
    Symbol.ofBytes (front ++ lineFeed :: rest) =
      Symbol.ofBytes front ++ .char '\n' :: Symbol.ofBytes rest := by
  unfold Symbol.ofBytes
  rw [List.foldl_append, List.foldl_cons, Reading.step_lineFeed]
  generalize (front.foldl Reading.step {}).flush.symbols = before
  show (rest.foldl Reading.step (Reading.after (.char '\n' :: before) {})).flush.symbols.reverse = _
  rw [Reading.foldl_after, Reading.flush_after]
  simp [Reading.after]

/-! ### Only line feeds are read as line breaks -/

/-- The bytes so far of one character: its first one, and then bytes that may follow it. -/
def Begun : List UInt8 → Prop
  | [] => True
  | [lead] => 2 ≤ charLength lead
  | lead :: second :: more => continues [lead] second = true ∧ more.length + 2 < charLength lead

/-- The range of the first byte for each length of a character. -/
theorem charLength_spec (lead : UInt8) :
    (charLength lead = 2 → 0xC2 ≤ lead.toNat ∧ lead.toNat ≤ 0xDF) ∧
      (charLength lead = 3 → 0xE0 ≤ lead.toNat ∧ lead.toNat ≤ 0xEF) ∧
      (charLength lead = 4 → 0xF0 ≤ lead.toNat ∧ lead.toNat ≤ 0xF4) ∧ charLength lead ≤ 4 := by
  rw [charLength_eq]
  split
  · omega
  split
  · omega
  split
  · omega
  split <;> omega

/-- A character of several bytes is none of ASCII: the second byte rules out the forms that spell a
small number in many bytes. -/
theorem le_codePoint {lead second : UInt8} {more : List UInt8}
    (ok : continues [lead] second = true) (full : more.length + 2 = charLength lead) :
    0x80 ≤ codePoint (lead :: second :: more) := by
  obtain ⟨two, three, four, le_four⟩ := charLength_spec lead
  have bounds : 0x80 ≤ second.toNat ∧ second.toNat ≤ 0xBF ∧
      (lead.toNat = 0xE0 → 0xA0 ≤ second.toNat) ∧ (lead.toNat = 0xF0 → 0x90 ≤ second.toNat) := by
    unfold continues at ok
    split at ok
    all_goals simp_all [UInt8.le_iff_toNat_le, ← UInt8.toNat_inj]
    all_goals omega
  match more with
  | [] =>
    have range := two full.symm
    rw [codePoint]
    omega
  | [c] =>
    have range := three full.symm
    rw [codePoint]
    omega
  | [c, d] =>
    have range := four full.symm
    rw [codePoint]
    omega
  | c :: d :: e :: more =>
    simp only [List.length_cons] at full
    omega

theorem eq_of_ofNat_break {n : Nat} (same : Char.ofNat n = '\n') : n = 10 := by
  by_cases valid : n.isValidChar
  · have read : Char.ofNatAux n valid = '\n' := (dif_pos valid).symm.trans same
    exact congrArg Char.toNat read
  · exact absurd ((dif_neg valid).symm.trans same) (by decide)

/-- With one more byte that may follow, there is a second one. -/
theorem Begun.follow {lead b : UInt8} {more : List UInt8} (h : Begun (lead :: more))
    (ok : continues (lead :: more) b = true) :
    ∃ second later, more ++ [b] = second :: later ∧ continues [lead] second = true ∧
      later.length + 2 ≤ charLength lead := by
  cases more with
  | nil => exact ⟨b, [], rfl, ok, h⟩
  | cons second more =>
    refine ⟨second, more ++ [b], rfl, h.1, ?_⟩
    rw [List.length_append]
    exact h.2

namespace Reading

/-- No line break has been read. -/
structure Plain (r : Reading) : Prop where
  begun : Begun r.pending
  without : .char '\n' ∉ r.symbols

variable {r : Reading} {b : UInt8}

theorem Plain.flush (h : r.Plain) : r.flush.Plain := by
  obtain ⟨symbols, pending⟩ := r
  cases pending with
  | nil => exact h
  | cons lead more => exact ⟨trivial, by simpa [Reading.flush] using h.without⟩

theorem Plain.start (h : r.Plain) (other : b ≠ lineFeed) : (r.start b).Plain := by
  unfold Reading.start
  split
  · exact ⟨trivial, by simpa using h.without⟩
  · have no_break : Char.ofNat b.toNat ≠ '\n' := fun same ↦
      other (UInt8.toNat_inj.1 (eq_of_ofNat_break same))
    exact ⟨trivial, by simpa using ⟨no_break.symm, h.without⟩⟩
  · rename_i none one
    refine ⟨?_, h.without⟩
    have two : charLength b ≠ 0 ∧ charLength b ≠ 1 := ⟨none, one⟩
    show 2 ≤ charLength b
    omega

theorem Plain.step (h : r.Plain) (other : b ≠ lineFeed) : (r.step b).Plain := by
  obtain ⟨symbols, pending⟩ := r
  cases pending with
  | nil => exact h.start other
  | cons lead more =>
    unfold Reading.step
    dsimp only
    split
    · rename_i ok
      obtain ⟨second, later, same, ok₂, le⟩ := h.begun.follow ok
      rw [List.cons_append, same]
      split
      · rename_i full
        have no_break : Char.ofNat (codePoint (lead :: second :: later)) ≠ '\n' := fun same ↦ by
          have large := le_codePoint ok₂ full
          rw [eq_of_ofNat_break same] at large
          omega
        exact ⟨trivial, by simpa using ⟨no_break.symm, h.without⟩⟩
      · rename_i short
        rw [List.length_cons, List.length_cons] at short
        exact ⟨⟨ok₂, by omega⟩, h.without⟩
    · exact h.flush.start other

/-- Bytes without a line feed bring in no line break. -/
theorem Plain.foldl (h : r.Plain) {bytes : List UInt8} (without : lineFeed ∉ bytes) :
    (bytes.foldl Reading.step r).Plain := by
  induction bytes generalizing r with
  | nil => exact h
  | cons b bytes ih =>
    refine ih (h.step ?_) (List.not_mem_of_not_mem_cons without)
    rintro rfl
    exact without List.mem_cons_self

/-- Something has been read. -/
def Nonempty (r : Reading) : Prop := r.flush.symbols ≠ []

theorem nonempty_start : (r.start b).Nonempty := by
  unfold start
  split <;> exact List.cons_ne_nil _ _

theorem nonempty_step : (r.step b).Nonempty := by
  obtain ⟨symbols, pending⟩ := r
  cases pending with
  | nil => exact nonempty_start
  | cons lead more =>
    unfold step
    dsimp only
    split
    · split <;> exact List.cons_ne_nil _ _
    · exact nonempty_start

end Reading

variable {bytes : List UInt8}

/-- Where there are bytes, something is shown for them. -/
theorem ofBytes_ne_nil (some_byte : bytes ≠ []) : Symbol.ofBytes bytes ≠ [] := by
  obtain rfl | ⟨before, b, rfl⟩ := List.eq_nil_or_concat' bytes
  · exact absurd rfl some_byte
  · unfold Symbol.ofBytes
    rw [List.foldl_append, Ne, List.reverse_eq_nil_iff]
    exact Reading.nonempty_step

/-- Bytes without a line feed show a text without a line break. -/
theorem break_not_mem_lossy (without : lineFeed ∉ bytes) : '\n' ∉ (lossy bytes).toList := by
  have at_start : Reading.Plain {} := ⟨trivial, List.not_mem_nil⟩
  have plain := (at_start.foldl without).flush.without
  rw [lossy, String.toList_ofList]
  intro mem
  obtain ⟨s, read, shown⟩ := List.mem_map.1 mem
  cases s with
  | char c =>
    obtain rfl : c = '\n' := shown
    exact plain (List.mem_reverse.1 read)
  | stray run =>
    have other : '\ufffd' ≠ '\n' := by decide
    exact absurd shown other

/-- The pieces of a stream are read as the stream is. -/
theorem flatMap_ofBytes {stream : List UInt8} {pieces : List (List UInt8)}
    (h : SplitAfter lineFeed stream pieces) :
    pieces.flatMap Symbol.ofBytes = Symbol.ofBytes stream := by
  induction h with
  | nil => rfl
  | last nonempty without => exact List.append_nil _
  | cons without more ih =>
    rw [List.flatMap_cons, ih, ofBytes_lineFeed, ofBytes_lineFeed, List.append_assoc]
    rfl

/-- A line feed ends whatever character is in progress, so that both sides of it are read on their
own. -/
theorem lossy_lineFeed (front rest : List UInt8) :
    (lossy (front ++ lineFeed :: rest)).toList =
      (lossy front).toList ++ '\n' :: (lossy rest).toList := by
  simp only [lossy, String.toList_ofList, ofBytes_lineFeed, List.map_append, List.map_cons]
  rfl

/-- The pieces of a stream show the parts of the text that the stream shows. -/
theorem splitAfter_lossy {stream : List UInt8} {pieces : List (List UInt8)}
    (h : SplitAfter lineFeed stream pieces) :
    SplitAfter '\n' (lossy stream).toList ((pieces.map lossy).map String.toList) := by
  induction h with
  | nil => exact .nil
  | last nonempty without =>
    refine .last ?_ (break_not_mem_lossy without)
    rw [lossy, String.toList_ofList, Ne, List.map_eq_nil_iff]
    exact ofBytes_ne_nil nonempty
  | @cons front rest pieces without more ih =>
    have ended : (lossy (front ++ [lineFeed])).toList = (lossy front).toList ++ ['\n'] :=
      lossy_lineFeed front []
    rw [List.map_cons, List.map_cons, ended, lossy_lineFeed]
    exact .cons (break_not_mem_lossy without) ih

end Text

end Rollout
