import Mathlib.Data.List.Forall2
import Rollout.Proofs.LineFeed
import Rollout.Proofs.LogTail
import Rollout.Steps.Command

/-!
# Draining line by line

Output is decoded one line at a time, although a character may take up several bytes and some bytes
belong to none.  All the same the lines are those of the text that the stream shows as a whole
(`shows_iff`).  The rest is read off that text: draining once more changes nothing, neither does
draining a text whose lines end in a line feed alone, and a log of the lines keeps the end of what
is returned.
-/

namespace Rollout

/-! ### Lines -/

/-- The line that a part of a text shows: what stands before the carriage returns and line feeds at
its end. -/
structure Strips (part line : String) : Prop where
  ends : ∃ ends : String, part = line ++ ends ∧ ∀ c ∈ ends.toList, c = '\r' ∨ c = '\n'
  last : ∀ c ∈ line.toList.getLast?, c ≠ '\r' ∧ c ≠ '\n'

namespace Strips

variable {part line : String}

theorem ended (h : Strips part line) : Strips (line ++ "\n") line :=
  ⟨⟨"\n", rfl, by simp⟩, h.last⟩

theorem break_not_mem (h : Strips part line) {front : List Char} (without : '\n' ∉ front)
    (whole : part.toList = front ∨ part.toList = front ++ ['\n']) : '\n' ∉ line.toList := by
  obtain ⟨⟨ends, rfl, -⟩, last⟩ := h
  intro mem
  rw [String.toList_append] at whole
  rcases whole with rfl | same
  · exact without (List.mem_append_left _ mem)
  · rcases List.eq_nil_or_concat' ends.toList with nothing | ⟨init, final, more⟩
    · rw [nothing, List.append_nil] at same
      exact (last '\n' (by simp [same])).2 rfl
    · rw [more, ← List.append_assoc] at same
      rw [← (List.append_inj' same rfl).1] at without
      exact without (List.mem_append_left _ mem)

end Strips

/-- The lines that a text shows as a whole: it is split after each line feed, and a last part
without one counts. -/
def Shows (text : String) (lines : List String) : Prop :=
  ∃ parts : List String, SplitAfter '\n' text.toList (parts.map String.toList) ∧
    List.Forall₂ Strips parts lines

namespace Steps

theorem isLineEnd_iff {c : Char} : isLineEnd c = true ↔ c = '\r' ∨ c = '\n' := by
  simp [isLineEnd, or_comm]

theorem trimRight_toList (s : String) :
    (Text.trimRight isLineEnd s).toList = s.toList.rdropWhile isLineEnd := String.toList_ofList

theorem strips_iff {part line : String} :
    Strips part line ↔ line = Text.trimRight isLineEnd part := by
  constructor
  · rintro ⟨⟨ends, rfl, line_ends⟩, last⟩
    have dropped : ∀ c ∈ ends.toList.reverse, isLineEnd c = true := fun c mem ↦
      isLineEnd_iff.2 (line_ends c (List.mem_reverse.1 mem))
    have kept : line.toList.rdropWhile isLineEnd = line.toList :=
      List.rdropWhile_eq_self_iff.2 fun nonempty is_end ↦ by
        obtain ⟨no_return, no_feed⟩ := last _ (List.getLast?_eq_some_getLast nonempty)
        exact (isLineEnd_iff.1 is_end).elim no_return no_feed
    rw [← String.toList_inj, trimRight_toList, String.toList_append, List.rdropWhile,
      List.reverse_append, List.dropWhile_append_of_pos dropped]
    exact kept.symm
  · rintro rfl
    refine ⟨⟨String.ofList (part.toList.rtakeWhile isLineEnd), ?_, fun c mem ↦ ?_⟩, fun c mem ↦ ?_⟩
    · rw [← String.toList_inj, String.toList_append, trimRight_toList, String.toList_ofList]
      exact List.rdropWhile_append_rtakeWhile.symm
    · rw [String.toList_ofList] at mem
      exact isLineEnd_iff.1 (List.mem_rtakeWhile_imp mem)
    · rw [trimRight_toList] at mem
      have nonempty : part.toList.rdropWhile isLineEnd ≠ [] := by
        intro nothing
        rw [nothing] at mem
        cases mem
      have no_end := List.rdropWhile_last_not isLineEnd part.toList nonempty
      rw [List.getLast?_eq_some_getLast nonempty] at mem
      obtain rfl := Option.some.inj mem
      rwa [isLineEnd_iff, not_or] at no_end

theorem forall₂_strips_iff {parts lines : List String} :
    List.Forall₂ Strips parts lines ↔ lines = parts.map (Text.trimRight isLineEnd) := by
  constructor
  · intro strips
    induction strips with
    | nil => rfl
    | cons first _ ih => rw [List.map_cons, ih, strips_iff.1 first]
  · rintro rfl
    exact List.forall₂_map_right_iff.2 (List.forall₂_same.2 fun _ _ ↦ strips_iff.2 rfl)

/-- The lines of a stream are those that the stream shows as a whole. -/
theorem shows_iff {stream : List UInt8} {ls : List String} :
    Shows (Text.lossy stream) ls ↔ ls = lines stream := by
  have split := Text.splitAfter_lossy (splitAfter_pieces stream)
  have shown : lines stream = ((pieces stream).map Text.lossy).map (Text.trimRight isLineEnd) :=
    (List.map_map ..).symm
  constructor
  · rintro ⟨parts, split', strips⟩
    obtain rfl := List.map_injective_iff.2 (fun _ _ ↦ String.toList_inj.1) (split'.unique split)
    rw [forall₂_strips_iff.1 strips, shown]
  · rintro rfl
    exact ⟨_, split, forall₂_strips_iff.2 shown⟩

/-- A line has no line feed, and it is the line of itself with one. -/
theorem of_mem_lines {stream : List UInt8} {line : String} (mem : line ∈ lines stream) :
    '\n' ∉ line.toList ∧ Strips (line ++ "\n") line := by
  obtain ⟨piece, is_piece, rfl⟩ := List.mem_map.1 mem
  have is_part := List.mem_map_of_mem (f := String.toList)
    (List.mem_map_of_mem (f := Text.lossy) is_piece)
  obtain ⟨front, without, part⟩ :=
    (Text.splitAfter_lossy (splitAfter_pieces stream)).of_mem is_part
  have strips : Strips (Text.lossy piece) (lineOf piece) := strips_iff.2 rfl
  exact ⟨strips.break_not_mem without part, strips.ended⟩

/-- What has been drained is the lines, each with a line feed behind it. -/
theorem toList_drained (stream : List UInt8) :
    (drained stream).toList = ((lines stream).map String.toList).flatMap (· ++ ['\n']) := by
  rw [drained, String.toList_join, List.flatMap_map, List.flatMap_map]
  simp only [String.toList_append]
  rfl

/-- What is drained shows the lines that it was made of. -/
theorem shows_drained (stream : List UInt8) : Shows (drained stream) (lines stream) := by
  refine ⟨(lines stream).map (· ++ "\n"), ?_, ?_⟩
  · have without : ∀ line ∈ (lines stream).map String.toList, '\n' ∉ line := by
      intro _ mem
      obtain ⟨line, is_line, rfl⟩ := List.mem_map.1 mem
      exact (of_mem_lines is_line).1
    have parts : ((lines stream).map (· ++ "\n")).map String.toList =
        ((lines stream).map String.toList).map (· ++ ['\n']) := by
      rw [List.map_map, List.map_map]
      exact List.map_congr_left fun line _ ↦ String.toList_append
    rw [toList_drained, parts]
    exact splitAfter_flatMap without
  · exact List.forall₂_map_left_iff.2 (List.forall₂_same.2 fun line mem ↦ (of_mem_lines mem).2)

/-- Draining what has been drained changes nothing: its lines are the same. -/
theorem lines_drained (stream : List UInt8) :
    lines (Text.bytes (drained stream)) = lines stream := by
  have shown := shows_drained stream
  rw [← Text.lossy_bytes (drained stream)] at shown
  exact (shows_iff.1 shown).symm

/-- A part that ends in a line feed alone shows what stands before it. -/
theorem strips_of_concat {part : String} {front : List Char} (same : part.toList = front ++ ['\n'])
    (without : '\n' ∉ front) (no_return : ¬['\r', '\n'] <:+: part.toList) :
    Strips part (String.ofList front) := by
  refine ⟨⟨"\n", ?_, by simp⟩, fun c last ↦ ⟨?_, ?_⟩⟩
  · rw [← String.toList_inj, same, String.toList_append, String.toList_ofList]
    rfl
  · rintro rfl
    rw [String.toList_ofList] at last
    obtain ⟨before, rfl⟩ := List.getLast?_eq_some_iff.1 last
    refine no_return ⟨before, [], ?_⟩
    rw [same, List.append_nil, List.append_assoc]
    rfl
  · rintro rfl
    rw [String.toList_ofList] at last
    exact without (List.mem_of_getLast? last)

/-- A text whose lines all end in a line feed alone is made of its lines. -/
theorem join_of_shows {text : String} {ls : List String} (shown : Shows text ls)
    (ends : text.toList = [] ∨ ['\n'] <:+ text.toList)
    (no_return : ¬['\r', '\n'] <:+: text.toList) : String.join (ls.map (· ++ "\n")) = text := by
  obtain ⟨parts, split, strips⟩ := shown
  have kept : ∀ part ∈ parts, Text.trimRight isLineEnd part ++ "\n" = part := by
    intro part mem
    have is_part := List.mem_map_of_mem (f := String.toList) mem
    obtain ⟨front, without, same⟩ := split.of_mem_of_ends ends is_part
    have within : part.toList <:+: text.toList := split.flatten ▸ List.infix_of_mem_flatten is_part
    have line := strips_of_concat same without fun inside ↦ no_return (inside.trans within)
    rw [← strips_iff.1 line, ← String.toList_inj, same, String.toList_append, String.toList_ofList]
    rfl
  have rejoined : ls.map (· ++ "\n") = parts := by
    rw [forall₂_strips_iff.1 strips, List.map_map]
    exact (List.map_congr_left kept).trans (List.map_id' parts)
  rw [rejoined, ← String.toList_inj, String.toList_join, ← split.flatten]
  rfl

/-! ### The log -/

/-- What has been drained is what the log is given. -/
theorem toList_drained_eq_logged (stream : List UInt8) :
    (drained stream).toList = (lines stream).flatMap logLine := by
  rw [toList_drained, List.flatMap_map]
  refine List.flatMap_congr fun line mem ↦ ?_
  have stripped : line.toList.getLast? ≠ some '\n' := fun last ↦
    ((of_mem_lines mem).2.last '\n' last).2 rfl
  have logged := logLine_stripped 0 stripped
  rw [List.replicate_zero, String.ofList_nil, String.append_empty] at logged
  rw [logged, String.toList_append]
  rfl

end Steps

/-- A log that is given lines one by one holds the whole of them as far as they fit. -/
theorem Log.Holds.foldl_add {l : Log} {whole : List Char} (h : l.Holds whole)
    (lines : List String) : (lines.foldl Log.add l).Holds (whole ++ lines.flatMap logLine) := by
  induction lines generalizing l whole with
  | nil => exact (List.append_nil whole).symm ▸ h
  | cons line lines ih =>
    rw [List.flatMap_cons, ← List.append_assoc]
    exact ih (h.add line)

theorem StoreCall.log?_lines {S : Type} (s : Site S) (t : Task) (lines : List String) :
    (after s (lines.map fun line ↦ .note t (.line line))).payload.log? t =
      (s.payload.log? t).map (lines.foldl Log.add) := by
  induction lines generalizing s with
  | nil => exact Option.map_id'.symm
  | cons line lines ih =>
    refine (ih _).trans ?_
    rw [log?_run, Option.map_map]
    refine congrArg (Option.map · _) (funext fun l ↦ ?_)
    rw [Function.comp, logAfter, if_pos rfl]
    rfl

namespace Steps

/-- What comes of draining a stream. -/
structure Drains (stream : List UInt8) : Prop where
  /-- The lines, and the text that they make up, are those of the text that the stream shows as a
  whole. -/
  whole : ∀ ls text, Shows (Text.lossy stream) ls ∧ text = String.join (ls.map (· ++ "\n")) ↔
    ls = lines stream ∧ text = drained stream
  /-- What is decoded at a time goes up to a line feed, and in all the same characters and the same
  stray bytes are read. -/
  pieces : SplitAfter lineFeed stream (pieces stream)
  symbols : (Steps.pieces stream).flatMap Text.Symbol.ofBytes = Text.Symbol.ofBytes stream
  again : drained (Text.bytes (drained stream)) = drained stream
  unchanged : ∀ text, Text.bytes text = stream → (text = "" ∨ ∃ front, front ++ "\n" = text) →
    (∀ front rest, front ++ "\r\n" ++ rest ≠ text) → drained stream = text
  /-- A command that writes only this logs the lines. -/
  logged : ∀ status, (Run.ended ⟨status, stream, []⟩).logged = lines stream
  one_line : ∀ line ∈ lines stream, '\n' ∉ line.toList
  /-- An empty log then holds the longest end that fits of what is returned. -/
  kept : ∀ {S : Type} (s : Site S) (t : Task), s.payload.log? t = some {} →
    ∃ l, (StoreCall.after s ((lines stream).map fun line ↦ .note t (.line line))).payload.log? t =
      some l ∧ l.KeepsEnd (lines stream) (drained stream)

/-- Draining a stream line by line yields what decoding it as a whole would. -/
theorem drained_whole (stream : List UInt8) : Drains stream where
  whole ls text := by
    rw [shows_iff]
    constructor
    · rintro ⟨rfl, rfl⟩
      exact ⟨rfl, rfl⟩
    · rintro ⟨rfl, rfl⟩
      exact ⟨rfl, rfl⟩
  pieces := splitAfter_pieces stream
  symbols := Text.flatMap_ofBytes (splitAfter_pieces stream)
  again := congrArg (fun ls : List String ↦ String.join (ls.map (· ++ "\n"))) (lines_drained stream)
  unchanged := by
    rintro text rfl ends no_return
    have shown : Shows text (lines (Text.bytes text)) := by
      have shown := shows_iff.2 (rfl : lines (Text.bytes text) = lines (Text.bytes text))
      rwa [Text.lossy_bytes] at shown
    refine join_of_shows shown ?_ ?_
    · rcases ends with rfl | ends
      · exact .inl rfl
      · exact .inr (exists_append_iff.1 ends)
    · rintro ⟨front, rest, same⟩
      refine no_return (String.ofList front) (String.ofList rest) (String.toList_inj.1 ?_)
      rw [← same, String.toList_append, String.toList_append, String.toList_ofList (l := front),
        String.toList_ofList (l := rest)]
      rfl
  logged _ := List.append_nil _
  one_line line mem := (of_mem_lines mem).1
  kept s t empty := by
    have holds := Log.holds_empty.foldl_add (lines stream)
    refine ⟨(lines stream).foldl Log.add {}, ?_, holds.keepsEnd (toList_drained_eq_logged stream)⟩
    rw [StoreCall.log?_lines, empty, Option.map_some]

/-- A line feed that cuts a character, carriage returns before one, and a last line without one. -/
example : lines [0xE2, 0x82, 10, 0xAC, 13, 13, 10, 97] = ["\ufffd", "\ufffd", "a"] := by rfl

end Steps
end Rollout
