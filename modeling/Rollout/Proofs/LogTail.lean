import Mathlib.Data.List.DropRight
import Rollout.Proofs.Action

/-!
# Logs keep the end

A log is cut after every line, and the cut is moved forward to the next character.  All the same it
holds what a single cut through everything logged would leave: the longest end of the full text that
begins with a character and fits.  The reason is that what does not fit now does not fit later
either (`LongestEnd.append`), so that a cut never takes away what a later one would keep.
-/

namespace Rollout

/-! ### Sizes -/

@[simp] theorem utf8Size_append (cs ds : List Char) :
    utf8Size (cs ++ ds) = utf8Size cs + utf8Size ds := by
  induction cs with
  | nil => simp [utf8Size]
  | cons c cs ih => simp [utf8Size, ih, Nat.add_assoc]

theorem utf8Size_toList (s : String) : utf8Size s.toList = s.utf8ByteSize := by
  have of_list (cs : List Char) : utf8Size cs = (String.ofList cs).utf8ByteSize := by
    induction cs with
    | nil => rfl
    | cons c cs ih =>
      rw [← List.singleton_append, String.ofList_append, String.utf8ByteSize_append, ← ih,
        utf8Size_append, ← String.singleton_eq_ofList, String.utf8ByteSize_singleton]
      rfl
  rw [of_list, String.ofList_toList]

/-! ### Longest ends -/

/-- `tail` is the longest end of `whole` that takes up at most `n` bytes. -/
structure LongestEnd (n : Nat) (whole tail : List Char) : Prop where
  ends : tail <:+ whole
  fits : utf8Size tail ≤ n
  longest : ∀ other, other <:+ whole → utf8Size other ≤ n → other <:+ tail

namespace LongestEnd

variable {n : Nat} {whole tail tail' more : List Char}

/-- There is one longest end of a text that fits. -/
theorem unique (h : LongestEnd n whole tail) (h' : LongestEnd n whole tail') : tail = tail' :=
  (h'.longest _ h.ends h.fits).eq_of_length_le (h.longest _ h'.ends h'.fits).length_le

theorem of_fits (fits : utf8Size whole ≤ n) : LongestEnd n whole whole :=
  ⟨List.suffix_refl _, fits, fun _ ends _ ↦ ends⟩

/-- What was cut off does not come into the longest end of a longer text: the part of such an end
that lies in `whole` fits by itself. -/
theorem append (h : LongestEnd n whole tail) (h' : LongestEnd n (tail ++ more) tail') :
    LongestEnd n (whole ++ more) tail' where
  ends := h'.ends.trans ((List.suffix_append_self_iff).2 h.ends)
  fits := h'.fits
  longest other ends fits := by
    refine h'.longest other ?_ fits
    rcases List.suffix_or_suffix_of_suffix ends (List.suffix_append whole more) with
      within | ⟨front, rfl⟩
    · exact List.suffix_append_of_suffix within
    · rw [List.suffix_append_self_iff] at ends ⊢
      rw [utf8Size_append] at fits
      exact h.longest front ends (by omega)

/-- A longest end that is not all leaves no room for another character. -/
theorem lt_of_lt (h : LongestEnd n whole tail) (big : n < utf8Size whole) :
    n < utf8Size tail + 4 := by
  obtain ⟨front, rfl⟩ := h.ends
  rcases List.eq_nil_or_concat' front with rfl | ⟨front, c, rfl⟩
  · exact absurd h.fits (Nat.not_le.2 big)
  · refine Nat.not_le.1 fun room ↦ ?_
    have at_most := c.utf8Size_le_four
    have ends : c :: tail <:+ front ++ [c] ++ tail := by simp
    have fits : utf8Size (c :: tail) ≤ n := by
      show c.utf8Size + utf8Size tail ≤ n
      omega
    exact absurd (h.longest _ ends fits).length_le (Nat.not_succ_le_self _)

end LongestEnd

/-! ### Cuts -/

/-- What is dropped reaches `n` bytes with its last character, unless all is dropped. -/
theorem dropBytes_spec (n gone : Nat) (cs : List Char) :
    ∃ front, cs = front ++ (dropBytes n gone cs).2 ∧
      (dropBytes n gone cs).1 = gone + utf8Size front ∧
      ((dropBytes n gone cs).2 = [] ∨ n ≤ gone + utf8Size front) ∧
      ∀ front' rest, cs = front' ++ rest → n ≤ gone + utf8Size front' →
        rest <:+ (dropBytes n gone cs).2 := by
  induction cs generalizing gone with
  | nil =>
    refine ⟨[], rfl, rfl, .inl rfl, fun front' rest split _ ↦ ?_⟩
    rw [(List.append_eq_nil_iff.1 split.symm).2]
    exact List.suffix_refl _
  | cons c cs ih =>
    unfold dropBytes
    split
    · rename_i enough
      refine ⟨[], rfl, rfl, .inr enough, fun front' rest split _ ↦ ?_⟩
      exact ⟨front', split.symm⟩
    · rename_i short
      obtain ⟨front, split, gone_eq, reaches, least⟩ := ih (gone + c.utf8Size)
      refine ⟨c :: front, congrArg (c :: ·) split, ?_, ?_, fun front' rest split' enough ↦ ?_⟩
      · rw [gone_eq, utf8Size, Nat.add_assoc]
      · rwa [utf8Size, ← Nat.add_assoc]
      · cases front' with
        | nil => exact absurd enough short
        | cons d front' =>
          obtain ⟨rfl, behind⟩ := List.cons.inj split'
          refine least front' rest behind ?_
          rwa [Nat.add_assoc]

/-- Dropping goes on behind the first part if that is not enough. -/
theorem dropBytes_append (n gone : Nat) (cs ds : List Char) :
    dropBytes n gone (cs ++ ds) =
      if n ≤ (dropBytes n gone cs).1 then
        ((dropBytes n gone cs).1, (dropBytes n gone cs).2 ++ ds)
      else dropBytes n (dropBytes n gone cs).1 ds := by
  induction cs generalizing gone with
  | nil =>
    show dropBytes n gone ds = if n ≤ gone then (gone, ds) else dropBytes n gone ds
    split
    · rename_i enough
      cases ds with
      | nil => rfl
      | cons d ds => exact if_pos enough
    · rfl
  | cons c cs ih =>
    show dropBytes n gone (c :: (cs ++ ds)) = _
    by_cases enough : n ≤ gone
    · simp [dropBytes, enough]
    · simp only [dropBytes, enough, if_false]
      exact ih _

namespace Log

variable {l : Log}

/-- The size of a log is that of its text. -/
def Counted (l : Log) : Prop := l.size = utf8Size l.chars

theorem chars_push (l : Log) (cs : List Char) : (l.push cs).chars = l.chars ++ cs := by
  simp [chars, push]

theorem Counted.push (h : l.Counted) (cs : List Char) : (l.push cs).Counted := by
  unfold Counted
  rw [chars_push, utf8Size_append, ← h]
  rfl

/-- The two lists of a log are cut like one. -/
theorem drop_eq (l : Log) (n : Nat) :
    (l.drop n).chars = (dropBytes n 0 l.chars).2 ∧
      (l.drop n).size = l.size - (dropBytes n 0 l.chars).1 := by
  unfold drop
  simp only [chars, dropBytes_append]
  split
  · exact ⟨rfl, rfl⟩
  · exact ⟨List.append_nil _, rfl⟩

/-- The size is kept right when characters are dropped. -/
theorem Counted.drop (h : l.Counted) (n : Nat) : (l.drop n).Counted := by
  obtain ⟨front, split, gone_eq, -⟩ := dropBytes_spec n 0 l.chars
  obtain ⟨chars_eq, size_eq⟩ := l.drop_eq n
  unfold Counted
  rw [chars_eq, size_eq, gone_eq, h]
  have total : utf8Size l.chars = utf8Size front + utf8Size (dropBytes n 0 l.chars).2 := by
    rw [← utf8Size_append, ← split]
  omega

theorem Counted.trim (h : l.Counted) : l.trim.Counted := by
  unfold Log.trim
  split
  · exact h.drop _
  · exact h

/-- A single cut leaves the longest end that fits. -/
theorem Counted.trim_longest (h : l.Counted) : LongestEnd maxLogBytes l.chars l.trim.chars := by
  unfold Log.trim
  split
  · rename_i big
    obtain ⟨front, split, -, reaches, least⟩ :=
      dropBytes_spec (l.size - maxLogBytes) 0 l.chars
    rw [(l.drop_eq _).1]
    have total : l.size =
        utf8Size front + utf8Size (dropBytes (l.size - maxLogBytes) 0 l.chars).2 := by
      rw [← utf8Size_append, ← split]
      exact h
    refine ⟨⟨front, split.symm⟩, ?_, fun other ⟨front', split'⟩ fits ↦ ?_⟩
    · rcases reaches with nothing | enough
      · rw [nothing]
        exact Nat.zero_le _
      · omega
    · refine least front' other split'.symm ?_
      have total' : l.size = utf8Size front' + utf8Size other := by
        rw [← utf8Size_append, split']
        exact h
      omega
  · rename_i small
    refine .of_fits ?_
    rw [← h]
    exact Nat.not_lt.1 small

/-- The log holds what remains of a text. -/
structure Holds (l : Log) (whole : List Char) : Prop where
  counted : l.Counted
  longest : LongestEnd maxLogBytes whole l.chars

theorem holds_empty : ({} : Log).Holds [] := ⟨rfl, .of_fits (Nat.zero_le _)⟩

/-- A log that holds the end of what it has been given does so with one line more. -/
theorem Holds.add {whole : List Char} (h : l.Holds whole) (line : String) :
    (l.add line).Holds (whole ++ logLine line) where
  counted := (h.counted.push _).trim
  longest := h.longest.append (l.chars_push _ ▸ (h.counted.push _).trim_longest)

end Log

/-! ### Lines -/

/-- What lines make up in full: each without the line breaks at its end, and with one. -/
inductive Recorded : List String → String → Prop
  | nil : Recorded [] ""
  | snoc {lines : List String} {whole body : String} (breaks : Nat)
    (recorded : Recorded lines whole)
      (stripped : body.toList.getLast? ≠ some '\n') :
      Recorded (lines ++ [body ++ String.ofList (List.replicate breaks '\n')])
        (whole ++ (body ++ "\n"))

/-- A line is logged with one break at its end, however many it has. -/
theorem logLine_stripped {body : String} (breaks : Nat)
    (stripped : body.toList.getLast? ≠ some '\n') :
    logLine (body ++ String.ofList (List.replicate breaks '\n')) = (body ++ "\n").toList := by
  have all_breaks : ∀ c ∈ List.replicate breaks '\n', (c == '\n') = true := fun c mem ↦ by
    rw [List.eq_of_mem_replicate mem]
    rfl
  have kept : body.toList.reverse.dropWhile (· == '\n') = body.toList.reverse := by
    refine List.dropWhile_eq_self_iff.2 fun nonempty last ↦ stripped ?_
    rw [← List.head?_reverse, List.head?_eq_getElem?, List.getElem?_eq_getElem nonempty,
      beq_iff_eq.1 last]
  rw [logLine, String.toList_append, String.toList_ofList, List.reverse_append,
    List.reverse_replicate, List.dropWhile_append_of_pos all_breaks, kept, List.reverse_reverse,
    String.toList_append]
  rfl

theorem exists_stripped (line : String) : ∃ body breaks,
    line = body ++ String.ofList (List.replicate breaks '\n') ∧
      body.toList.getLast? ≠ some '\n' := by
  have all_breaks : ∀ c ∈ line.toList.rtakeWhile (· == '\n'), c = '\n' := fun c mem ↦
    beq_iff_eq.1 (List.mem_rtakeWhile_imp (p := (· == '\n')) mem)
  refine ⟨String.ofList (line.toList.rdropWhile (· == '\n')),
    (line.toList.rtakeWhile (· == '\n')).length, ?_, ?_⟩
  · rw [← List.eq_replicate_iff.2 ⟨rfl, all_breaks⟩, ← String.ofList_append, List.rdropWhile,
      List.rtakeWhile, ← List.reverse_append, List.takeWhile_append_dropWhile,
      List.reverse_reverse, String.ofList_toList]
  · rw [String.toList_ofList]
    intro last
    have nonempty : line.toList.rdropWhile (· == '\n') ≠ [] := by
      intro nothing
      rw [nothing] at last
      cases last
    rw [List.getLast?_eq_some_getLast nonempty] at last
    exact List.rdropWhile_last_not _ _ nonempty (beq_iff_eq.2 (Option.some.inj last))

/-- What has been recorded are the lines as they are logged, one after the other. -/
theorem recorded_iff {lines : List String} {whole : String} :
    Recorded lines whole ↔ whole.toList = lines.flatMap logLine := by
  constructor
  · intro recorded
    induction recorded with
    | nil => rfl
    | snoc breaks recorded stripped ih =>
      rw [String.toList_append, ih, List.flatMap_append, List.flatMap_singleton,
        logLine_stripped breaks stripped]
  · intro same
    induction lines using List.reverseRecOn generalizing whole with
    | nil => rw [String.toList_eq_nil_iff.1 same]; exact .nil
    | append_singleton lines line ih =>
      obtain ⟨body, breaks, rfl, stripped⟩ := exists_stripped line
      rw [List.flatMap_append, List.flatMap_singleton, logLine_stripped breaks stripped] at same
      have recorded := ih (String.toList_ofList (l := lines.flatMap logLine))
      have split : whole = String.ofList (lines.flatMap logLine) ++ (body ++ "\n") := by
        rw [← String.toList_inj, same, String.toList_append (s := String.ofList _),
          String.toList_ofList]
      exact split ▸ .snoc breaks recorded stripped

/-- A log after lines. -/
structure Log.KeepsEnd (l : Log) (lines : List String) (whole : String) : Prop where
  recorded : ∀ text, Recorded lines text ↔ text = whole
  /-- The text is an end of the full text that begins with a character and takes up at most 65536
  bytes, and the longest such end. -/
  ends : ∃ front, front ++ l.text = whole
  fits : l.text.utf8ByteSize ≤ 65536
  longest : ∀ front other, front ++ other = whole → other.utf8ByteSize ≤ 65536 →
    ∃ between, between ++ other = l.text
  valid : l.text.toByteArray.IsValidUTF8
  /-- A single cut in the end leaves the same. -/
  once : (({} : Log).push whole.toList).trim.text = l.text
  whole_of_fits : whole.utf8ByteSize ≤ 65536 → l.text = whole
  full_of_cut : 65536 < whole.utf8ByteSize → 65533 ≤ l.text.utf8ByteSize
  line_break : lines ≠ [] → ∃ front, front ++ "\n" = l.text

/-- Ends of texts are ends of their characters. -/
theorem exists_append_iff {whole tail : String} :
    (∃ front, front ++ tail = whole) ↔ tail.toList <:+ whole.toList := by
  constructor
  · rintro ⟨front, rfl⟩
    rw [String.toList_append]
    exact List.suffix_append ..
  · rintro ⟨front, same⟩
    refine ⟨String.ofList front, String.toList_inj.1 ?_⟩
    rw [String.toList_append, String.toList_ofList, same]

/-- Behind some lines there is a line break. -/
theorem line_break_of_lines {lines : List String} (some_line : lines ≠ []) :
    ['\n'] <:+ lines.flatMap logLine := by
  obtain rfl | ⟨before, last, rfl⟩ := List.eq_nil_or_concat' lines
  · exact absurd rfl some_line
  · rw [List.flatMap_append, List.flatMap_singleton, logLine, ← List.append_assoc]
    exact List.suffix_append ..

/-- A log that holds what fits keeps the end of what has been recorded. -/
theorem Log.Holds.keepsEnd {l : Log} {lines : List String} {whole : String}
    (h : l.Holds (lines.flatMap logLine)) (recorded : whole.toList = lines.flatMap logLine) :
    l.KeepsEnd lines whole := by
  have chars_eq : l.text.toList = l.chars := String.toList_ofList
  have longest := h.longest
  rw [← chars_eq, ← recorded] at longest
  refine
    { recorded := ?recorded
      ends := exists_append_iff.2 longest.ends
      fits := ?fits
      longest := ?longest
      valid := l.text.isValidUTF8
      once := ?once
      whole_of_fits := ?whole
      full_of_cut := ?full
      line_break := ?line_break }
  case recorded =>
    intro text
    rw [recorded_iff, ← recorded, String.toList_inj]
  case fits =>
    rw [← utf8Size_toList]
    exact longest.fits
  case longest =>
    intro front other split fits
    rw [← utf8Size_toList] at fits
    exact exists_append_iff.2 (longest.longest _ (exists_append_iff.1 ⟨front, split⟩) fits)
  case once =>
    have empty : ({} : Log).Counted := rfl
    have cut := (empty.push whole.toList).trim_longest
    rw [Log.chars_push, recorded] at cut
    rw [recorded]
    exact congrArg String.ofList (cut.unique h.longest)
  case whole =>
    intro fits
    rw [← utf8Size_toList] at fits
    exact String.toList_inj.1 (longest.unique (.of_fits fits))
  case full =>
    intro big
    rw [← utf8Size_toList] at big ⊢
    have room : maxLogBytes < utf8Size l.text.toList + 4 := longest.lt_of_lt big
    rw [show maxLogBytes = 65536 from rfl] at room
    omega
  case line_break =>
    intro some_line
    have ends := line_break_of_lines some_line
    rw [← recorded] at ends
    exact exists_append_iff.2 (longest.longest ['\n'] ends (by decide))

/-! ### Stores -/

variable {S : Type}

namespace Stores

/-- The log of a task; checks have none. -/
def log? (s : Stores) : Task → Option Log
  | .preflights _ => none
  | .infrastructure => some s.infra.logs
  | .airgap => some s.airgap.logs
  | .deployment => some s.app.logs

variable (s : Stores) (t : Task)

theorem log?_modifyLog (f : Log → Log) (t' : Task) :
    (s.modifyLog f t').log? t = (s.log? t).map fun l ↦ if t' = t then f l else l := by
  rcases t' with ⟨⟨⟩⟩ | _ | _ | _ <;> rcases t with ⟨⟨⟩⟩ | _ | _ | _ <;> rfl

theorem log?_modifyPreflights (f : PreflightStore → PreflightStore) (scope : PreflightScope) :
    (s.modifyPreflights f scope).log? t = s.log? t := by
  cases scope <;> cases t <;> rfl

theorem log?_setStatus (r : StatusRecord) (a : Activity) : (s.setStatus r a).log? t = s.log? t := by
  rcases a with _ | _ | ⟨scope | _ | _ | _⟩
  case task.preflights => exact s.log?_modifyPreflights t _ scope
  all_goals cases t <;> rfl

end Stores

/-- A call that changes the stores. -/
inductive StoreCall where
  | note (t : Task) (p : Progress)
  | clear (t : Task)
  | mark (a : Activity) (state : Status) (text : String)
  | keep (t : Task) (outcome : Outcome t.Value)

namespace StoreCall

def program : StoreCall → Proc (Site S) Unit
  | note t p => Workflow.note t p
  | clear t => Site.clear t
  | mark a state text => Site.mark a state text
  | keep t outcome => Workflow.keep t outcome

def after (s : Site S) (calls : List StoreCall) : Site S :=
  calls.foldl (fun s c ↦ (c.program.run s).2) s

/-- The log of a task after a call. -/
def logAfter (t : Task) (l : Log) : StoreCall → Log
  | note t' (.line text) => if t' = t then l.add text else l
  | clear t' => if t' = t then {} else l
  | note _ _ | mark .. | keep .. => l

/-- The lines that a log has been given since it was cleared, after a call. -/
def linesAfter (t : Task) (lines : List String) : StoreCall → List String
  | note t' (.line text) => if t' = t then lines ++ [text] else lines
  | clear t' => if t' = t then [] else lines
  | note _ _ | mark .. | keep .. => lines

/-- The lines that the log of a task has been given since it was last cleared. -/
def lines (t : Task) (calls : List StoreCall) : List String := calls.foldl (linesAfter t) []

variable (c : StoreCall) (s : Site S) (t : Task)

/-- What a report does to the log of a task. -/
theorem log?_note (t' : Task) (p : Progress) :
    ((note t' p).program.run s).2.payload.log? t =
      (s.payload.log? t).map ((note t' p).logAfter t) := by
  cases p with
  | line text => exact s.payload.log?_modifyLog t (·.add text) t'
  | components names => cases t' <;> cases t <;> rfl
  | component name state text => cases t' <;> cases t <;> rfl

theorem log?_clear (t' : Task) :
    ((clear t').program.run s).2.payload.log? t =
      (s.payload.log? t).map ((clear t').logAfter t) := by
  rcases t' with ⟨⟨⟩⟩ | _ | _ | _ <;> rcases t with ⟨⟨⟩⟩ | _ | _ | _ <;> rfl

/-- What a call does to the log of a task. -/
theorem log?_run :
    (c.program.run s).2.payload.log? t = (s.payload.log? t).map (c.logAfter t) := by
  cases c with
  | note t' p => exact log?_note s t t' p
  | clear t' => exact log?_clear s t t'
  | mark a state text =>
    exact (s.payload.log?_setStatus t _ a).trans Option.map_id'.symm
  | keep t' outcome =>
    refine Eq.trans ?_ Option.map_id'.symm
    cases outcome with
    | returned value =>
      cases t' with
      | preflights scope => exact s.payload.log?_modifyPreflights t _ scope
      | infrastructure => rfl
      | airgap => rfl
      | deployment => cases t <;> rfl
    | failed f => cases t' <;> rfl
    | panicked p => cases t' <;> rfl

/-- A call leaves in the log what remains of the lines. -/
theorem holds_logAfter {l : Log} {lines : List String} (h : l.Holds (lines.flatMap logLine)) :
    (c.logAfter t l).Holds ((c.linesAfter t lines).flatMap logLine) := by
  cases c with
  | note t' p =>
    cases p with
    | line text =>
      by_cases same : t' = t
      · rw [logAfter, linesAfter, if_pos same, if_pos same, List.flatMap_append,
          List.flatMap_singleton]
        exact h.add text
      · rwa [logAfter, linesAfter, if_neg same, if_neg same]
    | components names => exact h
    | component name state text => exact h
  | clear t' =>
    by_cases same : t' = t
    · rw [logAfter, linesAfter, if_pos same, if_pos same]
      exact Log.holds_empty
    · rwa [logAfter, linesAfter, if_neg same, if_neg same]
  | mark a state text => exact h
  | keep t' outcome => exact h

/-- So it is after any calls. -/
theorem holds_after (calls : List StoreCall) {s : Site S}
    {before : List String} (h : ∀ l ∈ s.payload.log? t, l.Holds (before.flatMap logLine)) :
    ∀ l ∈ (after s calls).payload.log? t,
      l.Holds ((calls.foldl (linesAfter t) before).flatMap logLine) := by
  induction calls generalizing s before with
  | nil => exact h
  | cons c calls ih =>
    refine ih fun l mem ↦ ?_
    rw [log?_run] at mem
    obtain ⟨l', mem', rfl⟩ := Option.map_eq_some_iff.1 mem
    exact c.holds_logAfter t (h l' mem')

/-- After any calls the log of a task keeps the end of its lines. -/
theorem keepsEnd_after (w : Workflow S) (values : Option ConfigValues) (now : Timestamp)
    (calls : List StoreCall) :
    ∀ l ∈ (after (w.start values now) calls).payload.log? t,
      ∃ whole, l.KeepsEnd (lines t calls) whole := by
  have at_start : ∀ l ∈ (w.start values now).payload.log? t,
      l.Holds (([] : List String).flatMap logLine) := by
    cases t with
    | preflights scope => rintro _ ⟨⟩
    | infrastructure => rintro _ ⟨⟩; exact Log.holds_empty
    | airgap => rintro _ ⟨⟩; exact Log.holds_empty
    | deployment => rintro _ ⟨⟩; exact Log.holds_empty
  intro l mem
  exact ⟨String.ofList ((lines t calls).flatMap logLine),
    (holds_after t calls at_start l mem).keepsEnd String.toList_ofList⟩

end StoreCall

/-- After any calls every log holds the longest end that fits of all that was logged since it was
last cleared. -/
theorem logs_keep_end (w : Workflow S) (values : Option ConfigValues) (now : Timestamp)
    (calls : List StoreCall) :
    let stores := (StoreCall.after (w.start values now) calls).payload
    (∃ whole, stores.infra.logs.KeepsEnd (StoreCall.lines .infrastructure calls) whole) ∧
      (∃ whole, stores.airgap.logs.KeepsEnd (StoreCall.lines .airgap calls) whole) ∧
      ∃ whole, stores.app.logs.KeepsEnd (StoreCall.lines .deployment calls) whole :=
  ⟨StoreCall.keepsEnd_after .infrastructure w values now calls _ rfl,
    StoreCall.keepsEnd_after .airgap w values now calls _ rfl,
    StoreCall.keepsEnd_after .deployment w values now calls _ rfl⟩

end Rollout
