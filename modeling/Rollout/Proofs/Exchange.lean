import Rollout.Api.Message
import Rollout.Installation
import Rollout.Preflight
import Rollout.Proofs.Decoding
import Rollout.Proofs.Utf8

/-!
# Exchanged values survive the exchange

A value that was decoded from any text or body is encoded to a text that is decoded to the same
value (`Json.Exchanges`), unless it holds floating-point numbers.  What has to be known of a decoder
and its encoder is said in terms of trees (`Json.Transcribes`), where it can be put together along
the structure of a type: for lists, options and records from their parts.

A decoder may accept values that are not encoded to what it accepts, such as an option of a null.
The values that it really yields are therefore described along with it.
-/

namespace Rollout.Json

variable {α β : Type}

/-- A decoder and an encoder that belong together.  `Good` holds of all values that come out of
trees of texts, and `Floatless` of those without floating-point numbers. -/
structure Transcribes (depth : Nat) (d : Decoder α) (encode : α → Json)
    (Good Floatless : α → Prop) : Prop where
  yields : ∀ {t a}, t.Fits → d depth t = .ok a → Good a
  reads : ∀ {a}, Good a → d depth (.ofJson (encode a)) = .ok a
  fits : ∀ {a}, Good a → (encode a).FitsWords
  whole : ∀ {a}, Floatless a → (encode a).Whole

abbrev Any (_ : α) : Prop := True

namespace Transcribes

variable {depth : Nat}

/-- A transcription without conditions. -/
theorem of_forall {d : Decoder α} {encode : α → Json} {Good Floatless : α → Prop}
    (h : Transcribes depth d encode Good Floatless) (good : ∀ a, Good a)
    (floatless : ∀ a, Floatless a) : Transcribes depth d encode Any Any where
  yields _ _ := trivial
  reads _ := h.reads (good _)
  fits _ := h.fits (good _)
  whole _ := h.whole (floatless _)

/-! ### Simple values -/

theorem text : Transcribes depth .text .string Any Any where
  yields _ _ := trivial
  reads _ := rfl
  fits _ := .string _
  whole _ := .string _

theorem flag : Transcribes depth .flag .bool Any Any where
  yields _ _ := trivial
  reads _ := rfl
  fits _ := .bool _
  whole _ := .bool _

theorem natUpTo {greatest : Nat} (small : greatest ≤ 0xFFFFFFFFFFFFFFFF) :
    Transcribes depth (.natUpTo greatest) (fun n ↦ .int n) (· ≤ greatest) Any where
  yields := by
    intro t a fits h
    cases t with
    | number n =>
      obtain ⟨m, -, h⟩ := of_bind_ok h
      cases m with
      | double x => cases h
      | int i =>
        dsimp only at h
        split at h
        · rename_i bounds
          cases h
          simp only [Bool.and_eq_true, decide_eq_true_eq] at bounds
          omega
        · cases h
    | _ => cases h
  reads := by
    intro n le
    show (if (0 : Int) ≤ n && (n : Int) ≤ greatest then Except.ok (n : Int).toNat
      else Except.error Fault.data) = _
    rw [if_pos (by simp [le])]
    rfl
  fits := by
    intro n le
    exact .number ⟨by omega, by omega⟩
  whole _ := .number trivial

/-- Names from a list are transcribed if each is found there under what it stands for. -/
theorem oneOf {name : α → String} {names : List (String × α)}
    (found : ∀ a, names.find? (·.1 == name a) = some (name a, a)) :
    Transcribes depth (.oneOf names) (fun a ↦ .string (name a)) Any Any where
  yields _ _ := trivial
  reads {a} _ := by
    simp only [Decoder.oneOf, Tree.ofJson, bind, Except.bind, found]
  fits _ := .string _
  whole _ := .string _

/-- Values are transcribed if they hold no floating-point number. -/
theorem value : Transcribes depth .value id (Decodes depth) Whole where
  yields fits h := decodes_of_decode fits h
  reads good := decode_ofJson good.1
  fits good := good.2
  whole h := h

/-! ### Options, lists, dictionaries -/

/-- Anything but null is read as a value that is there. -/
theorem optional_of_ne {d : Decoder α} {t : Tree} (h : t ≠ .null) :
    Decoder.optional d depth t = (d depth t).map some := by
  cases t with
  | null => exact absurd rfl h
  | _ => rfl

theorem ofJson_ne_null {v : Json} (h : v ≠ .null) : Tree.ofJson v ≠ .null := by
  cases v with
  | null => exact absurd rfl h
  | _ => nofun

/-- Optional values are transcribed, absent ones as null, if no value that is there is written as
null. -/
theorem optional {d : Decoder α} {encode : α → Json} {Good Floatless : α → Prop}
    (h : Transcribes depth d encode Good Floatless)
    (not_null : ∀ t a, t ≠ .null → d depth t = .ok a → encode a ≠ .null) :
    Transcribes depth (.optional d) (.ofOption encode)
      (fun o ↦ ∀ a ∈ o, Good a ∧ encode a ≠ .null) (fun o ↦ ∀ a ∈ o, Floatless a) where
  yields := by
    intro t o fits read
    by_cases null : t = .null
    · subst null
      cases read
      rintro a ⟨⟩
    · rw [optional_of_ne null] at read
      obtain ⟨a, decoded, rfl⟩ := of_map_ok read
      rintro _ ⟨⟩
      exact ⟨h.yields fits decoded, not_null t a null decoded⟩
  reads := by
    intro o good
    cases o with
    | none => rfl
    | some a =>
      obtain ⟨good, ne⟩ := good a rfl
      rw [ofOption, optional_of_ne (ofJson_ne_null ne), h.reads good]
      rfl
  fits := by
    intro o good
    cases o with
    | none => exact .null
    | some a => exact h.fits (good a rfl).1
  whole := by
    intro o floatless
    cases o with
    | none => exact .null
    | some a => exact h.whole (floatless a rfl)

theorem forall_of_mapM {f : α → Except Fault β} {P : β → Prop} {as : List α} {bs : List β}
    (h : as.mapM f = .ok bs) (each : ∀ a ∈ as, ∀ b, f a = .ok b → P b) : ∀ b ∈ bs, P b := by
  induction as generalizing bs with
  | nil =>
    cases h
    rintro b ⟨⟩
  | cons a more ih =>
    obtain ⟨here, rest⟩ := List.forall_mem_cons.1 each
    rw [List.mapM_cons] at h
    obtain ⟨b, first, h⟩ := of_bind_ok h
    obtain ⟨bs, others, h⟩ := of_bind_ok h
    cases h
    exact List.forall_mem_cons.2 ⟨here b first, ih others rest⟩

theorem mapM_map {f : β → Except Fault α} {g : α → β} {as : List α}
    (each : ∀ a ∈ as, f (g a) = .ok a) : (as.map g).mapM f = .ok as := by
  induction as with
  | nil => rfl
  | cons a more ih =>
    obtain ⟨here, rest⟩ := List.forall_mem_cons.1 each
    rw [List.map_cons, List.mapM_cons, here, ih rest]
    rfl

/-- Lists are transcribed item by item. -/
theorem list {d : Decoder α} {encode : α → Json} {Good Floatless : α → Prop}
    (h : Transcribes (depth + 1) d encode Good Floatless) :
    Transcribes (depth + 2) (.list d) (fun l ↦ .array (l.map encode)) (fun l ↦ ∀ a ∈ l, Good a)
      (fun l ↦ ∀ a ∈ l, Floatless a) where
  yields := by
    intro t l fits read
    cases fits with
    | array ending skip each =>
      obtain ⟨items, decoded, read⟩ := of_bind_ok (Decoder.of_entered read)
      obtain ⟨-, -, read⟩ := of_bind_ok read
      cases read
      exact forall_of_mapM decoded fun t mem a ↦ h.yields (each t mem)
    | _ => cases read
  reads := by
    intro l good
    have items : (l.map fun a ↦ Tree.ofJson (encode a)).mapM (d (depth + 1)) = .ok l :=
      mapM_map fun a mem ↦ h.reads (good a mem)
    have same : Tree.ofJsonItems (l.map encode) = l.map fun a ↦ Tree.ofJson (encode a) := by
      rw [Tree.ofJsonItems_eq, List.map_map]
      rfl
    show (do
      let items ← (Tree.ofJsonItems (l.map encode)).mapM (d (depth + 1))
      Decoder.ended .closed
      .ok items : Except Fault (List α)) = _
    rw [same, items]
    rfl
  fits := by
    intro l good
    refine .array fun v mem ↦ ?_
    obtain ⟨a, inside, rfl⟩ := List.mem_map.1 mem
    exact h.fits (good a inside)
  whole := by
    intro l floatless
    refine .array fun v mem ↦ ?_
    obtain ⟨a, inside, rfl⟩ := List.mem_map.1 mem
    exact h.whole (floatless a inside)

theorem dict : Transcribes (depth + 2) .dict ConfigValues.toJson
    (fun d ↦ ∀ e ∈ d.entries, e.2.Decodes (depth + 1)) (fun d ↦ ∀ e ∈ d.entries, e.2.Whole) where
  yields := by
    intro t d fits read
    cases fits with
    | object ending skip each =>
      obtain ⟨members, decoded, read⟩ := of_bind_ok (Decoder.of_entered read)
      obtain ⟨-, -, read⟩ := of_bind_ok read
      cases read
      exact decodes_members decoded fun m mem v ↦ decodes_of_decode (each m mem)
    | _ => cases read
  reads := by
    intro d good
    show (do
      let members ← decodeMembers (Tree.ofJsonMembers d.entries) (depth + 1)
      Decoder.ended .closed
      .ok (Dict.ofList members) : Except Fault (Dict Json)) = _
    rw [decodeMembers_ofJson fun m mem ↦ decode_ofJson (good m mem).1]
    show Except.ok (Dict.ofList d.entries) = _
    have entries := entries_ofList d.ascending
    cases made : Dict.ofList d.entries
    rw [made] at entries
    cases entries
    rfl
  fits good := .object fun m mem ↦ (good m mem).2
  whole floatless := .object floatless

end Transcribes

/-! ### Records -/

/-- A field keeps what is good. -/
def Field.Keeps (depth : Nat) (Good : α → Prop) (f : Field α) : Prop :=
  ∀ t set a, t.Fits → f.read depth t = .ok set → Good a → Good (set a)

section Keeping

variable {depth : Nat} {Good : α → Prop} {ending : Ending}

/-- Fields that keep what is good do so when they are filled in order. -/
theorem good_of_fillInOrder {fields : List (Field α)} (keeps : ∀ f ∈ fields, f.Keeps depth Good)
    {items : List Tree} (fits : ∀ t ∈ items, t.Fits) {a b : α} (good : Good a)
    (h : Decoder.fillInOrder depth ending fields items a = .ok b) : Good b := by
  induction fields generalizing items a with
  | nil =>
    cases items with
    | nil =>
      obtain ⟨-, -, h⟩ := of_bind_ok h
      cases h
      exact good
    | cons t more => cases h
  | cons f fields ih =>
    obtain ⟨here, rest⟩ := List.forall_mem_cons.1 keeps
    cases items with
    | nil =>
      obtain ⟨-, -, h⟩ := of_bind_ok h
      split at h
      · cases h
      · exact ih rest fits good h
    | cons t more =>
      obtain ⟨first, others⟩ := List.forall_mem_cons.1 fits
      obtain ⟨set, read, h⟩ := of_bind_ok h
      exact ih rest others (here t set a first read good) h

/-- Fields that keep what is good do so when they are filled by name. -/
theorem good_of_fillByName {fields : List (Field α)} (keeps : ∀ f ∈ fields, f.Keeps depth Good)
    {members : List (Lexeme String × Tree)} (fits : ∀ m ∈ members, m.2.Fits) {seen : List Nat}
    {a b : α} (good : Good a)
    (h : Decoder.fillByName depth fields ending members seen a = .ok b) : Good b := by
  induction members generalizing seen a with
  | nil =>
    obtain ⟨-, -, h⟩ := of_bind_ok h
    split at h
    · cases h
    · cases h
      exact good
  | cons m more ih =>
    obtain ⟨first, others⟩ := List.forall_mem_cons.1 fits
    obtain ⟨name, -, h⟩ := of_bind_ok h
    split at h
    · rename_i f i found
      split at h
      · cases h
      · obtain ⟨set, read, h⟩ := of_bind_ok h
        have mem : f ∈ fields := List.fst_mem_of_mem_zipIdx (List.mem_of_find?_eq_some found)
        exact ih others (keeps f mem m.2 set a first read good) h
    · split at h
      · cases h
      · exact ih others good h

end Keeping

/-- The fields of a record, the members that they are written as, and the way back: `fill a b` is
`b` with the fields of `a`. -/
inductive Columns (depth : Nat) (Good Floatless : α → Prop) :
    List (Field α) → (α → List (String × Json)) → (α → α → α) → Prop
  | nil : Columns depth Good Floatless [] (fun _ ↦ []) fun _ b ↦ b
  | cons {β : Type} {d : Decoder β} {encode : β → Json} {G F : β → Prop} {set : β → α → α}
      {name : String} {aliases : List String} {required : Bool} {fields : List (Field α)}
      {members : α → List (String × Json)} {fill : α → α → α} (get : α → β)
      (field : Transcribes depth d encode G F) (good : ∀ a, Good a → G (get a))
      (floatless : ∀ a, Floatless a → F (get a)) (kept : ∀ v a, G v → Good a → Good (set v a))
      (rest : Columns depth Good Floatless fields members fill) :
      Columns depth Good Floatless (⟨name :: aliases, required, d.map set⟩ :: fields)
        (fun a ↦ (name, encode (get a)) :: members a) fun a b ↦ fill a (set (get a) b)

namespace Columns

variable {depth : Nat} {Good Floatless : α → Prop} {fields : List (Field α)}
  {members : α → List (String × Json)} {fill : α → α → α}

/-- A field about whose values there is nothing to say. -/
theorem plain {d : Decoder β} {encode : β → Json} {set : β → α → α} {name : String}
    {aliases : List String} {required : Bool} (get : α → β)
    (field : Transcribes depth d encode Any Any) (kept : ∀ v a, Good a → Good (set v a))
    (rest : Columns depth Good Floatless fields members fill) :
    Columns depth Good Floatless (⟨name :: aliases, required, d.map set⟩ :: fields)
      (fun a ↦ (name, encode (get a)) :: members a) fun a b ↦ fill a (set (get a) b) :=
  .cons get field (fun _ _ ↦ trivial) (fun _ _ ↦ trivial) (fun v a _ ↦ kept v a) rest

section Members

variable (h : Columns depth Good Floatless fields members fill)

include h

theorem keeps : ∀ f ∈ fields, f.Keeps depth Good := by
  induction h with
  | nil => rintro f ⟨⟩
  | cons get field good floatless kept _ ih =>
    refine List.forall_mem_cons.2 ⟨fun t set a fits read good ↦ ?_, ih⟩
    obtain ⟨v, decoded, rfl⟩ := of_map_ok read
    exact kept v a (field.yields fits decoded) good

theorem fits {a : α} (good : Good a) : ∀ m ∈ members a, m.2.FitsWords := by
  induction h with
  | nil => rintro m ⟨⟩
  | cons get field good' floatless kept _ ih =>
    exact List.forall_mem_cons.2 ⟨field.fits (good' a good), ih⟩

theorem whole {a : α} (floatless : Floatless a) : ∀ m ∈ members a, m.2.Whole := by
  induction h with
  | nil => rintro m ⟨⟩
  | cons get field good floatless' kept _ ih =>
    exact List.forall_mem_cons.2 ⟨field.whole (floatless' a floatless), ih⟩

omit h

/-- What a member does that belongs to a field. -/
theorem fillByName_found {ending : Ending} {key : Lexeme String} {name : String} {t : Tree}
    {more : List (Lexeme String × Tree)} {seen : List Nat} {f : Field α} {i : Nat} {b : α}
    (named : key.value = .ok name)
    (found : fields.zipIdx.find? (·.1.names.contains name) = some (f, i))
    (new : seen.contains i = false) :
    Decoder.fillByName depth fields ending ((key, t) :: more) seen b =
      f.read depth t >>= fun set ↦
        Decoder.fillByName depth fields ending more (i :: seen) (set b) := by
  rw [Decoder.fillByName, named]
  simp only [bind, Except.bind, found, new, Bool.false_eq_true, if_false]

/-- A field is found under its name behind fields of other names. -/
theorem find?_field {done : List (Field α)} {f : Field α}
    (distinct : ((done ++ f :: fields).flatMap (·.names)).Nodup) {name : String}
    (named : name ∈ f.names) :
    (done ++ f :: fields).zipIdx.find? (·.1.names.contains name) = some (f, done.length) := by
  have none : done.zipIdx.find? (·.1.names.contains name) = none := by
    refine List.find?_eq_none.2 fun x mem found ↦ ?_
    rw [List.flatMap_append] at distinct
    refine (List.nodup_append.1 distinct).2.2 name ?_ name ?_ rfl
    · exact List.mem_flatMap.2
        ⟨x.1, List.fst_mem_of_mem_zipIdx mem, List.contains_iff_mem.1 found⟩
    · exact List.mem_flatMap.2 ⟨f, List.mem_cons_self, named⟩
  have here : f.names.contains name = true := List.contains_iff_mem.2 named
  rw [List.zipIdx_append, List.find?_append, none, Option.none_or, List.zipIdx_cons,
    List.find?_cons, here, Nat.zero_add]

include h

/-- The members of a good record fill a blank one in order.  The fields `done` are those whose
members have been read, and the next one stands right behind them. -/
theorem fillByName_eq (done : List (Field α))
    (distinct : ((done ++ fields).flatMap (·.names)).Nodup) {a : α} (good : Good a)
    (seen : List Nat) (all_seen : ∀ i, i ∈ seen ↔ i < done.length) (b : α) :
    Decoder.fillByName depth (done ++ fields) .closed (Tree.ofJsonMembers (members a)) seen b =
      .ok (fill a b) := by
  induction h generalizing done seen b with
  | nil =>
    have nothing_missing :
        (done ++ []).zipIdx.any (fun f ↦ f.1.required && !seen.contains f.2) = false := by
      refine List.any_eq_false.2 fun x mem missing ↦ ?_
      rw [List.append_nil] at mem
      have lt := List.snd_lt_of_mem_zipIdx mem
      have known := List.contains_iff_mem.2 ((all_seen x.2).2 (by simpa using lt))
      rw [known] at missing
      simp at missing
    show (if _ then Except.error Fault.data else Except.ok b) = _
    rw [nothing_missing]
    rfl
  | @cons β d encode G F set name aliases required fields members fill get field good' floatless
      kept _ ih =>
    have found := find?_field distinct List.mem_cons_self
    have new : seen.contains done.length = false :=
      Bool.eq_false_iff.2 fun known ↦
        Nat.lt_irrefl _ ((all_seen _).1 (List.contains_iff_mem.1 known))
    have read : (d.map set) depth (.ofJson (encode (get a))) = .ok (set (get a)) := by
      show (d depth _).map set = _
      rw [field.reads (good' a good)]
      rfl
    have rest := ih (done ++ [⟨name :: aliases, required, d.map set⟩])
      (by rw [List.append_assoc]; exact distinct) (done.length :: seen)
      (fun i ↦ by rw [List.mem_cons, all_seen, List.length_append, List.length_singleton]; omega)
      (set (get a) b)
    rw [List.append_assoc] at rest
    rw [Tree.ofJsonMembers, fillByName_found rfl found new]
    show ((d.map set) depth (.ofJson (encode (get a))) >>= _) = _
    rw [read]
    exact rest

end Members

/-- A record with these fields. -/
theorem transcribes {blank : α} {encode : α → Json}
    (h : Columns (depth + 1) Good Floatless fields members fill)
    (encoded : ∀ a, encode a = .object (members a)) (good : Good blank)
    (filled : ∀ a, fill a blank = a) (distinct : (fields.flatMap (·.names)).Nodup) :
    Transcribes (depth + 2) (.record blank fields) encode Good Floatless where
  yields := by
    intro t a fits read
    cases fits with
    | array ending skip each =>
      exact good_of_fillInOrder h.keeps each good (Decoder.of_entered read)
    | object ending skip each =>
      exact good_of_fillByName h.keeps each good (Decoder.of_entered read)
    | _ => cases read
  reads := by
    intro a good
    rw [encoded]
    show Decoder.fillByName (depth + 1) fields .closed (Tree.ofJsonMembers (members a)) [] blank = _
    have read := h.fillByName_eq [] distinct good [] (by simp) blank
    rw [filled] at read
    exact read
  fits := by
    intro a good
    rw [encoded]
    exact .object (h.fits good)
  whole := by
    intro a floatless
    rw [encoded]
    exact .object (h.whole floatless)

end Columns
end Rollout.Json

namespace Rollout

open Json

/-! ### The exchanged types -/

section Types

variable {depth : Nat}

theorem ItemKind.find?_name (k : ItemKind) :
    ItemKind.names.find? (·.1 == k.name) = some (k.name, k) := by
  cases k <;> decide

theorem PreflightRecord.transcribes :
    Transcribes (depth + 2) PreflightRecord.decoder PreflightRecord.toJson Any Any :=
  Columns.transcribes
    (.plain (·.title) .text (fun _ _ _ ↦ trivial) <|
      .plain (·.message) .text (fun _ _ _ ↦ trivial) .nil)
    (fun _ ↦ rfl) trivial (fun _ ↦ rfl) (by decide)

/-- Reports of checks are transcribed. -/
theorem PreflightOutput.transcribes :
    Transcribes (depth + 4) PreflightOutput.decoder PreflightOutput.toJson Any Any := by
  have records : Transcribes (depth + 3) (.list PreflightRecord.decoder)
      (fun l ↦ .array (l.map PreflightRecord.toJson)) Any Any :=
    PreflightRecord.transcribes.list.of_forall (fun _ _ _ ↦ trivial) fun _ _ _ ↦ trivial
  exact Columns.transcribes
    (.plain (·.pass) records (fun _ _ _ ↦ trivial) <|
      .plain (·.warn) records (fun _ _ _ ↦ trivial) <|
      .plain (·.fail) records (fun _ _ _ ↦ trivial) .nil)
    (fun _ ↦ rfl) trivial (fun _ ↦ rfl) (by decide)

/-- Settings of an installation are transcribed: their port fits 16 bits. -/
theorem InstallationConfig.transcribes :
    Transcribes (depth + 2) InstallationConfig.decoder InstallationConfig.toJson
      (fun c ↦ c.adminConsolePort ≤ 65535) Any := by
  have optional : Transcribes (depth + 1) (.optional .text) (.ofOption .string) Any Any :=
    (Transcribes.text.optional fun _ _ _ _ ↦ nofun).of_forall
      (fun _ _ _ ↦ ⟨trivial, nofun⟩) fun _ _ _ ↦ trivial
  exact Columns.transcribes
    (.plain (·.dataDirectory) .text (fun _ _ good ↦ good) <|
      .cons (·.adminConsolePort) (.natUpTo (by decide)) (fun _ good ↦ good) (fun _ _ ↦ trivial)
        (fun _ _ small _ ↦ small) <|
      .plain (·.podCidr) optional (fun _ _ good ↦ good) <|
      .plain (·.serviceCidr) optional (fun _ _ good ↦ good) <|
      .plain (·.httpProxy) optional (fun _ _ good ↦ good) <|
      .plain (·.httpsProxy) optional (fun _ _ good ↦ good) <|
      .plain (·.noProxy) optional (fun _ _ good ↦ good) .nil)
    (fun _ ↦ rfl) (by decide) (fun _ ↦ rfl) (by decide)

/-- Items are transcribed if their default holds no floating-point number. -/
theorem AppConfigItem.transcribes :
    Transcribes (depth + 2) AppConfigItem.decoder AppConfigItem.toJson
      (fun i ↦ ∀ v ∈ i.default, v.Decodes (depth + 1) ∧ v ≠ .null)
      (fun i ↦ ∀ v ∈ i.default, v.Whole) := by
  have value : Transcribes (depth + 1) (.optional .value) (.ofOption id)
      (fun o ↦ ∀ v ∈ o, v.Decodes (depth + 1) ∧ v ≠ .null) (fun o ↦ ∀ v ∈ o, v.Whole) :=
    Transcribes.value.optional fun _ _ ne read same ↦
      ne (eq_null_of_decode (read.trans (congrArg Except.ok same)))
  exact Columns.transcribes
    (.plain (·.name) .text (fun _ _ good ↦ good) <|
      .plain (·.kind) (.oneOf ItemKind.find?_name) (fun _ _ good ↦ good) <|
      .plain (·.required) .flag (fun _ _ good ↦ good) <|
      .cons (·.default) value (fun _ good ↦ good) (fun _ whole ↦ whole)
        (fun _ _ good _ ↦ good) .nil)
    (fun _ ↦ rfl) nofun (fun _ ↦ rfl) (by decide)

/-- Schemas are transcribed item by item. -/
theorem AppConfigSchema.transcribes :
    Transcribes (depth + 4) AppConfigSchema.decoder AppConfigSchema.toJson
      (fun s ↦ ∀ i ∈ s.items, ∀ v ∈ i.default, v.Decodes (depth + 1) ∧ v ≠ .null)
      (fun s ↦ ∀ i ∈ s.items, ∀ v ∈ i.default, v.Whole) :=
  Columns.transcribes
    (.cons (·.items) AppConfigItem.transcribes.list (fun _ good ↦ good) (fun _ whole ↦ whole)
      (fun _ _ good _ ↦ good) .nil)
    (fun _ ↦ rfl) nofun (fun _ ↦ rfl) (by decide)

theorem Api.transcribes_values :
    Transcribes (depth + 3) Api.valuesDecoder Api.valuesBody
      (fun d ↦ ∀ e ∈ d.entries, e.2.Decodes (depth + 1)) (fun d ↦ ∀ e ∈ d.entries, e.2.Whole) :=
  Columns.transcribes
    (.cons id .dict (fun _ good ↦ good) (fun _ whole ↦ whole) (fun _ _ good _ ↦ good) .nil)
    (fun _ ↦ rfl) nofun (fun _ ↦ rfl) (by decide)

theorem Api.transcribes_ignore :
    Transcribes (depth + 2) Api.ignoreDecoder Api.ignoreBody Any Any :=
  Columns.transcribes (.plain id .flag (fun _ _ _ ↦ trivial) .nil) (fun _ ↦ rfl) trivial
    (fun _ ↦ rfl) (by decide)

end Types

/-! ### Exchanged texts -/

namespace Json

variable {α : Type}

/-- The text of the value that a text is decoded to. -/
def Decoder.normalize (d : Decoder α) (encode : α → Json) (text : String) : Except Fault String :=
  (d.fromText text).map fun a ↦ (encode a).text

/-- Decoded values survive being encoded, so they may be told by the texts that they are encoded
to. -/
structure Exchanges (d : Decoder α) (encode : α → Json) (Floatless : α → Prop) : Prop where
  reads_back : ∀ {text a}, d.fromText text = .ok a → Floatless a →
    d.fromText (encode a).text = .ok a
  /-- So do those that are decoded from the body of a request. -/
  sends_back : ∀ {body a}, d.fromBytes body = .ok a → Floatless a →
    d.fromBytes (Text.bytes (encode a).text) = .ok a
  normalize_eq_iff : ∀ {t t' a a'}, d.fromText t = .ok a → d.fromText t' = .ok a' →
    Floatless a → Floatless a' →
    (d.normalize encode t = d.normalize encode t' ↔ a = a')
  normalize_normalize : ∀ {text a}, d.fromText text = .ok a → Floatless a →
    ∃ text', d.normalize encode text = .ok text' ∧ d.normalize encode text' = .ok text'

namespace Transcribes

variable {d : Decoder α} {encode : α → Json} {Good Floatless : α → Prop}
  (h : Transcribes nestingLimit d encode Good Floatless) {a : α}

include h

theorem good_of_fromText {text : String} (read : d.fromText text = .ok a) : Good a :=
  h.yields (Document.fits_ofSymbols _) (Decoder.fromText_eq_ok_iff.1 read).1

/-- A good value is read back from its text. -/
theorem fromText_text (good : Good a) (floatless : Floatless a) :
    d.fromText (encode a).text = .ok a := by
  unfold Decoder.fromText
  dsimp only
  rw [Document.ofString_text (h.whole floatless) (h.fits good), h.reads good]
  rfl

/-- Whatever is transcribed can be exchanged as text. -/
theorem exchanges : Exchanges d encode Floatless where
  reads_back read floatless := h.fromText_text (h.good_of_fromText read) floatless
  sends_back := by
    intro body a read floatless
    have good : Good a := h.yields (Document.fits_ofSymbols _) read
    have same := Document.ofString_text (h.whole floatless) (h.fits good)
    rw [Decoder.fromBytes, Text.ofBytes_bytes]
    show d nestingLimit (Document.ofString (encode a).text).root = _
    rw [same]
    exact h.reads good
  normalize_eq_iff := by
    intro t t' a a' read read' floatless floatless'
    rw [Decoder.normalize, Decoder.normalize, read, read']
    refine ⟨fun same ↦ ?_, fun same ↦ by rw [same]⟩
    have same : (encode a).text = (encode a').text := Except.ok.inj same
    have back := h.fromText_text (h.good_of_fromText read) floatless
    rw [same, h.fromText_text (h.good_of_fromText read') floatless'] at back
    exact (Except.ok.inj back).symm
  normalize_normalize := by
    intro text a read floatless
    have back := h.fromText_text (h.good_of_fromText read) floatless
    refine ⟨(encode a).text, by rw [Decoder.normalize, read]; rfl, ?_⟩
    rw [Decoder.normalize, back]
    rfl

end Transcribes
end Json

/-- The values that are exchanged survive it: each is encoded to a text that is decoded to it. -/
theorem exchanged_values_survive :
    Exchanges InstallationConfig.decoder InstallationConfig.toJson Any ∧
    Exchanges PreflightRecord.decoder PreflightRecord.toJson Any ∧
    Exchanges PreflightOutput.decoder PreflightOutput.toJson Any ∧
    Exchanges AppConfigItem.decoder AppConfigItem.toJson (fun i ↦ ∀ v ∈ i.default, v.Whole) ∧
    Exchanges AppConfigSchema.decoder AppConfigSchema.toJson
      (fun s ↦ ∀ i ∈ s.items, ∀ v ∈ i.default, v.Whole) ∧
    Exchanges .dict ConfigValues.toJson (fun d ↦ ∀ e ∈ d.entries, e.2.Whole) ∧
    Exchanges Api.valuesDecoder Api.valuesBody (fun d ↦ ∀ e ∈ d.entries, e.2.Whole) ∧
    Exchanges Api.ignoreDecoder Api.ignoreBody Any :=
  ⟨InstallationConfig.transcribes.exchanges, PreflightRecord.transcribes.exchanges,
    PreflightOutput.transcribes.exchanges, AppConfigItem.transcribes.exchanges,
    AppConfigSchema.transcribes.exchanges, Transcribes.dict.exchanges,
    Api.transcribes_values.exchanges, Api.transcribes_ignore.exchanges⟩

example : AppConfigItem.decoder.normalize AppConfigItem.toJson
    " [\"\\u0061\", \x7b\"bool\": null\x7d]" =
      .ok "\x7b\"name\":\"a\",\"kind\":\"bool\",\"required\":false,\"default\":null\x7d" := by
  decide +kernel

end Rollout
