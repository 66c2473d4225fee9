import Rollout.Json.Decoder
import Rollout.Proofs.Spelling

/-!
# What a decoder makes of a text

Whatever a text says, the whole numbers in it fit 64 bits (`Document.fits_ofSymbols`), and a value
decoded from it is nested no deeper than the decoder allows, with the keys of its objects in order
(`Json.Nests`).  Such a value is decoded from itself again (`decode_ofJson`).
-/

namespace Rollout.Json

/-! ### Numbers of a text -/

/-- If it reads as a whole number, that fits. -/
def Lexeme.Fits (l : Lexeme Number) : Prop := ∀ n, l.value = .ok n → n.FitsWord

theorem collect_le {n : Nat} (h : n ≤ maxSignificand) (count : Nat) (ds : List Nat) :
    (collect n count ds).1 ≤ maxSignificand := by
  induction ds generalizing n count with
  | nil => exact h
  | cons d ds ih =>
    unfold collect
    split
    · rename_i fits
      exact ih fits _
    · exact h

theorem fits_double {x : Option Binary64} {negative : Bool} {n : Number}
    (h : (match x with
      | some x => .ok (.double (if negative then x.neg else x))
      | none => .error .malformed : Except Fault Number) = .ok n) : n.FitsWord := by
  cases x with
  | none => cases h
  | some x =>
    cases h
    trivial

/-- Whole numbers that are read fit 64 bits: one that does not is read as a double. -/
theorem Literal.fits_value (negative : Bool) (l : Literal) {n : Number}
    (h : l.value negative = .ok n) : n.FitsWord := by
  have bound := collect_le (Nat.zero_le maxSignificand) 0 l.whole
  rw [show maxSignificand = 0xFFFFFFFFFFFFFFFF from rfl] at bound
  unfold Literal.value at h
  dsimp only at h
  split at h
  · split at h
    · split at h
      · split at h
        · cases h
          trivial
        · rename_i small
          cases h
          simp only [Bool.or_eq_true, decide_eq_true_eq, not_or, Nat.not_lt] at small
          exact ⟨by omega, by omega⟩
      · cases h
        exact ⟨by omega, by omega⟩
    · exact fits_double h
  · split at h
    · exact fits_double h
    · split at h
      · cases h
        trivial
      · exact fits_double h

theorem fits_error (f : Fault) (skip : Option Fault) : (⟨.error f, skip⟩ : Lexeme Number).Fits :=
  fun _ h ↦ by cases h

theorem fits_endingInDigits {value : List Nat → Except Fault Number}
    (fits : ∀ ds n, value ds = .ok n → n.FitsWord) (rest : List Text.Symbol) :
    (endingInDigits value rest).1.Fits := by
  unfold endingInDigits
  split
  · exact fits_error _ _
  · exact fits _

theorem fits_readExponent (negative : Bool) (l : Literal) (text : List Text.Symbol) :
    (readExponent negative l text).1.Fits := by
  unfold readExponent
  split
  · dsimp only
    split
    · split <;> exact fits_endingInDigits (fun ds n ↦ Literal.fits_value negative _) _
    · exact fun n ↦ Literal.fits_value negative l
  · exact fun n ↦ Literal.fits_value negative l

theorem fits_readNumber (negative : Bool) (text : List Text.Symbol) :
    (readNumber negative text).1.Fits := by
  unfold readNumber
  split
  · exact fits_error _ _
  · exact fits_error _ _
  · split
    · split
      · exact fits_error _ _
      · exact fits_readExponent negative _ _
    · exact fits_readExponent negative _ _

/-- A number among the tokens. -/
def Token.Fits : Token → Prop
  | number n => n.Fits
  | _ => True

theorem fits_word {t : Token} (fits : t.Fits) (letters : List Char) (rest : List Text.Symbol) :
    (word letters t rest).1.Fits := by
  unfold word
  split
  · exact fits
  · trivial

theorem fits_lexemeAt (c : Char) (rest : List Text.Symbol) : (lexemeAt c rest).1.Fits := by
  unfold lexemeAt
  split
  · trivial
  split
  · exact fits_readNumber true rest
  split
  · exact fits_readNumber false _
  · trivial

theorem fits_mark {c : Char} {t : Token} (h : mark? c = some t) : t.Fits := by
  unfold mark? at h
  repeat' split at h
  all_goals cases h
  all_goals trivial

theorem fits_tokenAt (c : Char) (rest : List Text.Symbol) : (tokenAt c rest).1.Fits := by
  unfold tokenAt
  split
  · rename_i mark
    exact fits_mark mark
  · rename_i letters t no_mark found
    refine fits_word ?_ letters rest
    unfold word? at found
    repeat' split at found
    all_goals cases found
    all_goals trivial
  · exact fits_lexemeAt c rest

/-- The whole numbers among the tokens of a text fit 64 bits. -/
theorem fits_tokens (text : List Text.Symbol) : ∀ t ∈ tokens text, t.Fits := by
  have from_fits (acc : List Token) (fits : ∀ t ∈ acc, t.Fits) :
      ∀ t ∈ tokensFrom acc text, t.Fits := by
    fun_induction tokensFrom acc text with
    | case1 acc => exact fits
    | case2 acc bytes rest => exact List.forall_mem_cons.2 ⟨trivial, fits⟩
    | case3 acc c rest space ih => exact ih fits
    | case4 acc c rest space ih => exact ih (List.forall_mem_cons.2 ⟨fits_tokenAt c rest, fits⟩)
  intro t mem
  exact from_fits [] (by simp) t (List.mem_reverse.1 mem)

/-! ### Trees of a text -/

/-- The whole numbers of a tree fit. -/
inductive Tree.Fits : Tree → Prop
  | null : Fits .null
  | bool (b : Bool) : Fits (.bool b)
  | number {n : Lexeme Number} (fits : n.Fits) : Fits (.number n)
  | string (s : Lexeme String) : Fits (.string s)
  | array {items : List Tree} (ending : Ending) (skip : Option Fault)
      (each : ∀ t ∈ items, t.Fits) : Fits (.array items ending skip)
  | object {members : List (Lexeme String × Tree)} (ending : Ending) (skip : Option Fault)
      (each : ∀ m ∈ members, m.2.Fits) : Fits (.object members ending skip)
  | brokenWord (f : Fault) : Fits (.brokenWord f)
  | missing (f : Fault) : Fits (.missing f)

theorem Tree.fits_ofItems {items : List Tree} (each : ∀ t ∈ items, t.Fits) (ending : Ending) :
    (ofItems items.reverse ending).Fits :=
  .array _ _ fun t mem ↦ each t (List.mem_reverse.1 mem)

theorem Tree.fits_ofMembers {members : List (Lexeme String × Tree)}
    (each : ∀ m ∈ members, m.2.Fits) (ending : Ending) :
    (ofMembers members.reverse ending).Fits :=
  .object _ _ fun m mem ↦ each m (List.mem_reverse.1 mem)

/-- So do those of what is open. -/
def Frame.Fits : Frame → Prop
  | array items => ∀ t ∈ items, t.Fits
  | object members => ∀ m ∈ members, m.2.Fits
  | entry _ => True

namespace Assembly

/-- So do those of a document in the making. -/
structure Fits (a : Assembly) : Prop where
  stack : ∀ f ∈ a.stack, f.Fits
  result : ∀ t ∈ a.result, t.Fits

section Stack

variable {k : List Frame} (below : ∀ f ∈ k, f.Fits)

include below

theorem fits_expecting (e : Expected) : (Assembly.mk e k none false).Fits :=
  ⟨below, by rintro t ⟨⟩⟩

theorem fits_entry (key : Lexeme String) : ∀ f ∈ Frame.entry key :: k, f.Fits :=
  List.forall_mem_cons.2 ⟨trivial, below⟩

theorem fits_deliver {t : Tree} (fits : t.Fits) : (deliver t k).Fits := by
  unfold deliver
  split
  · obtain ⟨items, rest⟩ := List.forall_mem_cons.1 below
    have grown : Frame.Fits (.array (t :: _)) := List.forall_mem_cons.2 ⟨fits, items⟩
    exact fits_expecting (List.forall_mem_cons.2 ⟨grown, rest⟩) _
  · rename_i key members k
    obtain ⟨-, rest⟩ := List.forall_mem_cons.1 below
    obtain ⟨each, rest⟩ := List.forall_mem_cons.1 rest
    have grown : Frame.Fits (.object ((key, t) :: members)) :=
      List.forall_mem_cons.2 ⟨fits, each⟩
    exact fits_expecting (List.forall_mem_cons.2 ⟨grown, rest⟩) _
  · exact ⟨by simp, by rintro t ⟨⟩; exact fits⟩

/-- A document that breaks off keeps whole numbers that fit. -/
theorem fits_collapse {t : Tree} (fits : t.Fits) : (collapse t k).Fits := by
  fun_induction collapse t k with
  | case1 t => exact fits
  | case2 t items k ih =>
    obtain ⟨items, rest⟩ := List.forall_mem_cons.1 below
    exact ih rest (Tree.fits_ofItems (List.forall_mem_cons.2 ⟨fits, items⟩) _)
  | case3 t key members k ih =>
    obtain ⟨-, rest⟩ := List.forall_mem_cons.1 below
    obtain ⟨members, rest⟩ := List.forall_mem_cons.1 rest
    exact ih rest (Tree.fits_ofMembers (List.forall_mem_cons.2 ⟨fits, members⟩) _)
  | case4 t key k _ ih => exact ih (List.forall_mem_cons.1 below).2 fits
  | case5 t members k ih =>
    obtain ⟨members, rest⟩ := List.forall_mem_cons.1 below
    exact ih rest (Tree.fits_ofMembers members _)

theorem fits_stop {t : Tree} (fits : t.Fits) : (stop t k).Fits :=
  ⟨by rintro f ⟨⟩, by rintro t ⟨⟩; exact fits_collapse below fits⟩

theorem fits_breakOff (f asKey : Fault) : (breakOff f asKey k).Fits := by
  unfold breakOff
  split
  · obtain ⟨items, rest⟩ := List.forall_mem_cons.1 below
    exact fits_stop rest (Tree.fits_ofItems items _)
  · obtain ⟨members, rest⟩ := List.forall_mem_cons.1 below
    exact fits_stop rest (Tree.fits_ofMembers members _)
  · exact fits_stop below (.missing _)

theorem fits_close : (close k).Fits := by
  unfold close
  split
  · obtain ⟨items, rest⟩ := List.forall_mem_cons.1 below
    exact fits_deliver rest (Tree.fits_ofItems items _)
  · obtain ⟨members, rest⟩ := List.forall_mem_cons.1 below
    exact fits_deliver rest (Tree.fits_ofMembers members _)
  · exact fits_stop below (.missing _)

theorem fits_value {t : Token} (fits : t.Fits) : (value k t).Fits := by
  unfold value
  split
  · exact fits_expecting (List.forall_mem_cons.2 ⟨by rintro t ⟨⟩, below⟩) _
  · exact fits_expecting (List.forall_mem_cons.2 ⟨by rintro m ⟨⟩, below⟩) _
  · exact fits_deliver below .null
  · exact fits_deliver below (.bool _)
  · split
    · exact fits_deliver below (.number fits)
    · exact fits_stop below (.number fits)
  · split
    · exact fits_deliver below (.string _)
    · exact fits_stop below (.string _)
  · exact fits_stop below (.brokenWord _)
  all_goals exact fits_stop below (.missing _)

theorem fits_key (t : Token) : (key k t).Fits := by
  unfold key
  split
  · split
    · exact fits_expecting (fits_entry below _) _
    · exact fits_stop (fits_entry below _) (.missing _)
  · exact fits_stop (fits_entry below _) (.missing _)

end Stack

/-- One more token keeps whole numbers that fit. -/
theorem Fits.step {a : Assembly} (h : a.Fits) {t : Token} (fits : t.Fits) : (a.step t).Fits := by
  unfold Assembly.step
  split
  · exact ⟨h.stack, h.result⟩
  · exact fits_value h.stack fits
  · split
    · exact fits_close h.stack
    · exact fits_value h.stack fits
  · split
    · exact fits_close h.stack
    · exact fits_key h.stack _
    · exact fits_breakOff h.stack _ _
  · exact fits_key h.stack _
  · split
    · exact ⟨h.stack, h.result⟩
    · exact fits_stop h.stack (.missing _)
  · split
    · exact ⟨h.stack, h.result⟩
    · exact ⟨h.stack, h.result⟩
    · rename_i same
      exact fits_close (same ▸ h.stack)
    · rename_i same
      exact fits_close (same ▸ h.stack)
    · exact fits_breakOff h.stack _ _

theorem Fits.finish {a : Assembly} (h : a.Fits) : a.finish.Fits := by
  unfold Assembly.finish
  split
  · exact h
  · exact fits_stop h.stack (.missing _)
  · exact fits_stop h.stack (.missing _)
  · exact fits_stop (fits_entry h.stack _) (.missing _)
  all_goals exact fits_breakOff h.stack _ _

theorem Fits.foldl {a : Assembly} (h : a.Fits) {ts : List Token} (fits : ∀ t ∈ ts, t.Fits) :
    (ts.foldl Assembly.step a).Fits := by
  induction ts generalizing a with
  | nil => exact h
  | cons t ts ih =>
    obtain ⟨here, rest⟩ := List.forall_mem_cons.1 fits
    exact ih (h.step here) rest

end Assembly

/-- The whole numbers of a text fit 64 bits. -/
theorem Document.fits_ofSymbols (text : List Text.Symbol) :
    (Document.ofSymbols text).root.Fits := by
  have start : ({} : Assembly).Fits := ⟨by rintro f ⟨⟩, by rintro t ⟨⟩⟩
  have done := (start.foldl (fits_tokens text)).finish
  unfold Document.ofSymbols Document.ofTokens
  dsimp only
  cases found : ((tokens text).foldl Assembly.step {}).finish.result with
  | none => exact .missing _
  | some t => exact done.result t found

/-! ### Values of a tree -/

theorem of_bind_ok {ε α β : Type} {x : Except ε α} {k : α → Except ε β} {b : β}
    (h : (x >>= k) = .ok b) : ∃ a, x = .ok a ∧ k a = .ok b := by
  cases x with
  | error e => cases h
  | ok a => exact ⟨a, rfl, h⟩

theorem bind_eq_ok_iff {ε α β : Type} {x : Except ε α} {k : α → Except ε β} {b : β} :
    (x >>= k) = .ok b ↔ ∃ a, x = .ok a ∧ k a = .ok b := by
  refine ⟨of_bind_ok, ?_⟩
  rintro ⟨a, rfl, next⟩
  exact next

theorem of_map_ok {ε α β : Type} {x : Except ε α} {f : α → β} {b : β} (h : x.map f = .ok b) :
    ∃ a, x = .ok a ∧ f a = b := by
  cases x with
  | error e => cases h
  | ok a => exact ⟨a, rfl, Except.ok.inj h⟩

/-- The value is nested so deeply at most, and the keys of its objects ascend. -/
inductive Nests : Nat → Json → Prop
  | null (depth : Nat) : Nests depth .null
  | bool (depth : Nat) (b : Bool) : Nests depth (.bool b)
  | number (depth : Nat) (n : Number) : Nests depth (.number n)
  | string (depth : Nat) (s : String) : Nests depth (.string s)
  | array {depth : Nat} {items : List Json} (each : ∀ v ∈ items, Nests (depth + 1) v) :
      Nests (depth + 2) (.array items)
  | object {depth : Nat} {members : List (String × Json)} (ascending : Ascending members)
      (each : ∀ m ∈ members, Nests (depth + 1) m.2) : Nests (depth + 2) (.object members)

/-- An array or object is entered only where the nesting leaves room for it. -/
theorem Decoder.enter_ok {depth depth' : Nat} (h : enter depth = .ok depth') :
    ∃ d, depth = d + 2 ∧ depth' = d + 1 := by
  unfold enter at h
  split at h
  · cases h
  · cases h
    exact ⟨depth - 2, by omega, by omega⟩

theorem Decoder.ended_eq_ok_iff {ending : Ending} {u : Unit} :
    ended ending = .ok u ↔ ending = .closed := by
  cases ending with
  | closed => exact ⟨fun _ ↦ rfl, fun _ ↦ rfl⟩
  | fault => exact ⟨nofun, nofun⟩

/-- Below the limit an array or object is entered. -/
theorem Decoder.of_entered {β : Type} {depth : Nat} {k : Nat → Except Fault β} {b : β}
    (h : (enter (depth + 2) >>= k) = .ok b) : k (depth + 1) = .ok b := h

/-- A text is decoded if its document is, and nothing follows it. -/
theorem Decoder.fromText_eq_ok_iff {d : Decoder α} {text : String} {a : α} :
    d.fromText text = .ok a ↔ d nestingLimit (Document.ofString text).root = .ok a ∧
      (Document.ofString text).trailing = false := by
  unfold fromText
  rw [bind_eq_ok_iff]
  cases (Document.ofString text).trailing <;> simp

/-- A key behind all others is put at the end. -/
theorem insertEntry_of_lt {key : String} {v : Json} {l : List (String × Json)}
    (last : ∀ e ∈ l, e.1 < key) : insertEntry key v l = l ++ [(key, v)] := by
  induction l with
  | nil => rfl
  | cons e more ih =>
    obtain ⟨here, rest⟩ := List.forall_mem_cons.1 last
    have ne : key ≠ e.1 := fun same ↦ String.lt_irrefl key (same ▸ here)
    rw [insertEntry, if_neg (String.lt_asymm here), if_neg ne, ih rest]
    rfl

theorem entries_insertMany {d : Dict Json} {entries : List (String × Json)}
    (ascending : Ascending (d.entries ++ entries)) :
    (d.insertMany entries).entries = d.entries ++ entries := by
  induction entries generalizing d with
  | nil => exact (List.append_nil _).symm
  | cons m more ih =>
    have last : ∀ e ∈ d.entries, e.1 < m.1 := fun e mem ↦
      (List.pairwise_append.1 ascending).2.2 e mem m List.mem_cons_self
    have inserted : (d.insert m.1 m.2).entries = d.entries ++ [m] := insertEntry_of_lt last
    have rest := ih (d := d.insert m.1 m.2) (by rw [inserted, List.append_assoc]; exact ascending)
    rw [inserted, List.append_assoc] at rest
    exact rest

/-- Entries in order are kept as they are. -/
theorem entries_ofList {entries : List (String × Json)} (ascending : Ascending entries) :
    (Dict.ofList entries).entries = entries :=
  entries_insertMany (d := .empty) ascending

/-- A value that a decoder has accepted. -/
def Decodes (depth : Nat) (v : Json) : Prop := v.Nests depth ∧ v.FitsWords

section Contents

variable {P : Json → Prop}

theorem forall_of_decodeItems {depth : Nat} {items : List Tree} {vs : List Json}
    (h : decodeItems items depth = .ok vs)
    (each : ∀ t ∈ items, ∀ v, decode t depth = .ok v → P v) : ∀ v ∈ vs, P v := by
  induction items generalizing vs with
  | nil =>
    cases h
    rintro v ⟨⟩
  | cons t more ih =>
    obtain ⟨here, rest⟩ := List.forall_mem_cons.1 each
    rw [decodeItems] at h
    obtain ⟨v, first, h⟩ := of_bind_ok h
    obtain ⟨vs, others, h⟩ := of_bind_ok h
    cases h
    exact List.forall_mem_cons.2 ⟨here v first, ih others rest⟩

theorem forall_of_decodeMembers {depth : Nat} {members : List (Lexeme String × Tree)}
    {ms : List (String × Json)} (h : decodeMembers members depth = .ok ms)
    (each : ∀ m ∈ members, ∀ v, decode m.2 depth = .ok v → P v) : ∀ m ∈ ms, P m.2 := by
  induction members generalizing ms with
  | nil =>
    cases h
    rintro m ⟨⟩
  | cons m more ih =>
    obtain ⟨here, rest⟩ := List.forall_mem_cons.1 each
    obtain ⟨key, t⟩ := m
    rw [decodeMembers] at h
    obtain ⟨name, -, h⟩ := of_bind_ok h
    obtain ⟨v, first, h⟩ := of_bind_ok h
    obtain ⟨ms, others, h⟩ := of_bind_ok h
    cases h
    exact List.forall_mem_cons.2 ⟨here v first, ih others rest⟩

end Contents

/-- The members of a decoded object. -/
theorem decodes_members {depth : Nat} {members : List (Lexeme String × Tree)}
    {ms : List (String × Json)} (h : decodeMembers members depth = .ok ms)
    (each : ∀ m ∈ members, ∀ v, decode m.2 depth = .ok v → v.Decodes depth) :
    ∀ m ∈ (Dict.ofList ms).entries, m.2.Decodes depth :=
  fun m mem ↦ forall_of_decodeMembers h each m (Dict.mem_of_mem_ofList mem)

theorem decodes_of_decode {t : Tree} (fits : t.Fits) {depth : Nat} {v : Json}
    (h : decode t depth = .ok v) : v.Decodes depth := by
  induction fits generalizing depth v with
  | null =>
    cases h
    exact ⟨.null depth, .null⟩
  | bool b =>
    cases h
    exact ⟨.bool depth b, .bool b⟩
  | number fits =>
    rw [decode] at h
    obtain ⟨n, read, rfl⟩ := of_map_ok h
    exact ⟨.number depth n, .number (fits n read)⟩
  | string s =>
    rw [decode] at h
    obtain ⟨text, -, rfl⟩ := of_map_ok h
    exact ⟨.string depth text, .string text⟩
  | array ending skip _ ih =>
    rw [decode] at h
    obtain ⟨depth', entered, h⟩ := of_bind_ok h
    obtain ⟨items, read, h⟩ := of_bind_ok h
    obtain ⟨-, -, h⟩ := of_bind_ok h
    cases h
    obtain ⟨d, rfl, rfl⟩ := Decoder.enter_ok entered
    have each := forall_of_decodeItems read fun t mem v ↦ ih t mem
    exact ⟨.array fun v mem ↦ (each v mem).1, .array fun v mem ↦ (each v mem).2⟩
  | object ending skip _ ih =>
    rw [decode] at h
    obtain ⟨depth', entered, h⟩ := of_bind_ok h
    obtain ⟨ms, read, h⟩ := of_bind_ok h
    obtain ⟨-, -, h⟩ := of_bind_ok h
    cases h
    obtain ⟨d, rfl, rfl⟩ := Decoder.enter_ok entered
    have each := decodes_members read fun m mem v ↦ ih m mem
    exact ⟨.object (Dict.ofList ms).ascending fun m mem ↦ (each m mem).1,
      .object fun m mem ↦ (each m mem).2⟩
  | brokenWord f => cases h
  | missing f => cases h

/-- A null is decoded from a null only. -/
theorem eq_null_of_decode {t : Tree} {depth : Nat} (h : decode t depth = .ok .null) :
    t = .null := by
  cases t with
  | null => rfl
  | number n =>
    obtain ⟨_, _, ⟨⟩⟩ := of_map_ok h
  | string s =>
    obtain ⟨_, _, ⟨⟩⟩ := of_map_ok h
  | array items ending skip =>
    rw [decode] at h
    obtain ⟨_, -, h⟩ := of_bind_ok h
    obtain ⟨_, -, h⟩ := of_bind_ok h
    obtain ⟨_, -, ⟨⟩⟩ := of_bind_ok h
  | object members ending skip =>
    rw [decode] at h
    obtain ⟨_, -, h⟩ := of_bind_ok h
    obtain ⟨_, -, h⟩ := of_bind_ok h
    obtain ⟨_, -, ⟨⟩⟩ := of_bind_ok h
  | _ => cases h

theorem decodeItems_ofJson {depth : Nat} {items : List Json}
    (each : ∀ v ∈ items, decode (.ofJson v) depth = .ok v) :
    decodeItems (Tree.ofJsonItems items) depth = .ok items := by
  induction items with
  | nil => rfl
  | cons v more ih =>
    obtain ⟨here, rest⟩ := List.forall_mem_cons.1 each
    rw [Tree.ofJsonItems, decodeItems, here, ih rest]
    rfl

theorem decodeMembers_ofJson {depth : Nat} {members : List (String × Json)}
    (each : ∀ m ∈ members, decode (.ofJson m.2) depth = .ok m.2) :
    decodeMembers (Tree.ofJsonMembers members) depth = .ok members := by
  induction members with
  | nil => rfl
  | cons m more ih =>
    obtain ⟨here, rest⟩ := List.forall_mem_cons.1 each
    rw [Tree.ofJsonMembers, decodeMembers, here, ih rest]
    rfl

/-- A value that has been decoded is decoded from itself again. -/
theorem decode_ofJson {depth : Nat} {v : Json} (nests : v.Nests depth) :
    decode (.ofJson v) depth = .ok v := by
  induction nests with
  | null depth => rfl
  | bool depth b => rfl
  | number depth n => rfl
  | string depth s => rfl
  | @array depth items _ ih =>
    show (do
      let items ← decodeItems (Tree.ofJsonItems items) (depth + 1)
      Decoder.ended .closed
      .ok (.array items) : Except Fault Json) = _
    rw [decodeItems_ofJson ih]
    rfl
  | @object depth members ascending _ ih =>
    show (do
      let members ← decodeMembers (Tree.ofJsonMembers members) (depth + 1)
      Decoder.ended .closed
      .ok (.object (Dict.ofList members).entries) : Except Fault Json) = _
    rw [decodeMembers_ofJson ih]
    show Except.ok (Json.object (Dict.ofList members).entries) = _
    rw [entries_ofList ascending]

end Rollout.Json
