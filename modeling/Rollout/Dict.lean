/-!
# Dictionaries

Values under text keys, kept in ascending order of the keys.  Two dictionaries with the same
contents are equal, so laws about them are equations.

* `get?_insert`, `get?_erase`: what an update changes and what it leaves.
* `ext`: dictionaries that answer every look-up alike are equal.
-/

namespace Rollout

/-- The keys of the list ascend. -/
def Ascending (l : List (String × α)) : Prop := l.Pairwise fun a b ↦ a.1 < b.1

/-- Put an entry into a list whose keys ascend; an entry with that key is replaced. -/
def insertEntry (key : String) (v : α) : List (String × α) → List (String × α)
  | [] => [(key, v)]
  | e :: more =>
    if key < e.1 then (key, v) :: e :: more
    else if key = e.1 then (key, v) :: more
    else e :: insertEntry key v more

def lookUp? (key : String) : List (String × α) → Option α
  | [] => none
  | e :: more => if e.1 = key then some e.2 else lookUp? key more

/-- An insertion brings in no entry but its own. -/
theorem mem_insertEntry {key : String} {v : α} {l : List (String × α)} {e : String × α}
    (h : e ∈ insertEntry key v l) : e = (key, v) ∨ e ∈ l := by
  fun_induction insertEntry key v l with
  | case1 => simpa using h
  | case2 e' more _ =>
    rcases List.mem_cons.1 h with rfl | h
    · exact .inl rfl
    · exact .inr h
  | case3 e' more _ _ =>
    rcases List.mem_cons.1 h with rfl | h
    · exact .inl rfl
    · exact .inr (List.mem_cons_of_mem _ h)
  | case4 e' more _ _ ih =>
    rcases List.mem_cons.1 h with rfl | h
    · exact .inr List.mem_cons_self
    · exact (ih h).imp id (List.mem_cons_of_mem _)

theorem key_lt_of_not {a b : String} (h₁ : ¬a < b) (h₂ : a ≠ b) : b < a :=
  String.not_le.1 fun h ↦ h₂ (String.le_antisymm h (String.not_lt.1 h₁))

/-- An insertion keeps the keys in order, so that a dictionary remains one. -/
theorem ascending_insertEntry {key : String} {v : α} {l : List (String × α)} (h : Ascending l) :
    Ascending (insertEntry key v l) := by
  fun_induction insertEntry key v l with
  | case1 => exact List.pairwise_singleton _ _
  | case2 e more lt =>
    refine List.pairwise_cons.2 ⟨fun a ha ↦ ?_, h⟩
    rcases List.mem_cons.1 ha with rfl | ha
    · exact lt
    · exact String.lt_trans lt ((List.pairwise_cons.1 h).1 a ha)
  | case3 e more _ eq =>
    exact List.pairwise_cons.2
      ⟨fun a ha ↦ eq ▸ (List.pairwise_cons.1 h).1 a ha, (List.pairwise_cons.1 h).2⟩
  | case4 e more lt ne ih =>
    refine List.pairwise_cons.2 ⟨fun a ha ↦ ?_, ih (List.pairwise_cons.1 h).2⟩
    rcases mem_insertEntry ha with rfl | ha
    · exact key_lt_of_not lt ne
    · exact (List.pairwise_cons.1 h).1 a ha

/-- Values under text keys. -/
structure Dict (α : Type) where
  entries : List (String × α)
  ascending : Ascending entries

namespace Dict

variable {α β : Type}

def empty : Dict α := ⟨[], List.Pairwise.nil⟩

instance : Inhabited (Dict α) := ⟨empty⟩

instance [Repr α] : Repr (Dict α) := ⟨fun d n ↦ reprPrec d.entries n⟩

instance [BEq α] : BEq (Dict α) := ⟨fun a b ↦ a.entries == b.entries⟩

def get? (d : Dict α) (key : String) : Option α := lookUp? key d.entries

def insert (d : Dict α) (key : String) (v : α) : Dict α :=
  ⟨insertEntry key v d.entries, ascending_insertEntry d.ascending⟩

def erase (d : Dict α) (key : String) : Dict α :=
  ⟨d.entries.filter (·.1 ≠ key), d.ascending.filter _⟩

/-- Put the entries of a list in, one after the other. -/
def insertMany (d : Dict α) (entries : List (String × α)) : Dict α :=
  entries.foldl (fun d e ↦ d.insert e.1 e.2) d

/-- The entries of a list; of those with one key the last. -/
def ofList (entries : List (String × α)) : Dict α := empty.insertMany entries

/-- No key stands twice. -/
theorem keys_nodup (d : Dict α) : (d.entries.map (·.1)).Nodup :=
  List.pairwise_map.2 (d.ascending.imp String.ne_of_lt)

@[simp]
theorem get?_empty (key : String) : (empty : Dict α).get? key = none := rfl

/-- What a key finds after an insertion. -/
theorem lookUp?_insertEntry (key k : String) (v : α) (l : List (String × α)) :
    lookUp? k (insertEntry key v l) = if key = k then some v else lookUp? k l := by
  fun_induction insertEntry key v l with
  | case1 => simp [lookUp?]
  | case2 e more lt => simp [lookUp?]
  | case3 e more _ eq => subst eq; by_cases h : e.1 = k <;> simp [lookUp?, h]
  | case4 e more _ ne ih =>
    by_cases h : e.1 = k
    · simp only [lookUp?, h, if_true]
      rw [if_neg fun eq ↦ ne (eq.trans h.symm)]
    · simp only [lookUp?, h, if_false, ih]

/-- A look-up after an insertion. -/
theorem get?_insert (d : Dict α) (key k : String) (v : α) :
    (d.insert key v).get? k = if key = k then some v else d.get? k :=
  lookUp?_insertEntry key k v d.entries

theorem lookUp?_filter (key k : String) (l : List (String × α)) :
    lookUp? k (l.filter (·.1 ≠ key)) = if key = k then none else lookUp? k l := by
  induction l with
  | nil => simp [lookUp?]
  | cons e more ih =>
    by_cases h : e.1 = key
    · rw [List.filter_cons_of_neg (by simp [h]), ih]
      by_cases hk : key = k
      · simp [hk]
      · simp [hk, lookUp?, h]
    · rw [List.filter_cons_of_pos (by simp [h])]
      by_cases hk : e.1 = k
      · have : ¬key = k := fun eq ↦ h (hk.trans eq.symm)
        simp [lookUp?, hk, this]
      · simp only [lookUp?, hk, if_false, ih]

/-- A look-up after a removal. -/
theorem get?_erase (d : Dict α) (key k : String) :
    (d.erase key).get? k = if key = k then none else d.get? k :=
  lookUp?_filter key k d.entries

theorem lookUp?_eq_none_of_lt {k : String} {l : List (String × α)}
    (h : ∀ e ∈ l, k < e.1) : lookUp? k l = none := by
  induction l with
  | nil => rfl
  | cons e more ih =>
    have ne : e.1 ≠ k := fun eq ↦ String.lt_irrefl k (eq ▸ h e List.mem_cons_self)
    simp [lookUp?, ne, ih fun e he ↦ h e (List.mem_cons_of_mem _ he)]

/-- Ascending lists in which every key finds the same are equal: a dictionary is what is found in
it. -/
theorem entries_eq_of_lookUp? {l m : List (String × α)} (hl : Ascending l) (hm : Ascending m)
    (h : ∀ k, lookUp? k l = lookUp? k m) : l = m := by
  induction l generalizing m with
  | nil =>
    cases m with
    | nil => rfl
    | cons e more => simpa [lookUp?] using h e.1
  | cons e l ih =>
    cases m with
    | nil => simpa [lookUp?] using h e.1
    | cons f m =>
      have hl' := List.pairwise_cons.1 hl
      have hm' := List.pairwise_cons.1 hm
      have keys : e.1 = f.1 := by
        refine Classical.byContradiction fun ne ↦ ?_
        by_cases lt : e.1 < f.1
        · have none : lookUp? e.1 (f :: m) = none := lookUp?_eq_none_of_lt fun g hg ↦ by
            rcases List.mem_cons.1 hg with rfl | hg
            · exact lt
            · exact String.lt_trans lt (hm'.1 g hg)
          simpa [lookUp?, none] using (h e.1).trans none
        · have lt' := key_lt_of_not lt ne
          have none : lookUp? f.1 (e :: l) = none := lookUp?_eq_none_of_lt fun g hg ↦ by
            rcases List.mem_cons.1 hg with rfl | hg
            · exact lt'
            · exact String.lt_trans lt' (hl'.1 g hg)
          simpa [lookUp?, none] using (h f.1).symm.trans none
      have values : e.2 = f.2 := by simpa [lookUp?, keys] using h e.1
      have rest : l = m := ih hl'.2 hm'.2 fun k ↦ by
        by_cases hk : e.1 = k
        · rw [lookUp?_eq_none_of_lt fun g hg ↦ hk ▸ hl'.1 g hg,
            lookUp?_eq_none_of_lt fun g hg ↦ hk ▸ keys ▸ hm'.1 g hg]
        · simpa [lookUp?, hk, keys ▸ hk] using h k
      rw [rest, Prod.ext keys values]

theorem mem_insertMany {d : Dict α} {entries : List (String × α)} {e : String × α}
    (h : e ∈ (d.insertMany entries).entries) : e ∈ d.entries ∨ e ∈ entries := by
  induction entries generalizing d with
  | nil => exact .inl h
  | cons m more ih =>
    rcases ih (d := d.insert m.1 m.2) h with inserted | later
    · rcases mem_insertEntry inserted with rfl | before
      · exact .inr List.mem_cons_self
      · exact .inl before
    · exact .inr (List.mem_cons_of_mem _ later)

/-- A dictionary has no entry that was not given. -/
theorem mem_of_mem_ofList {entries : List (String × α)} {e : String × α}
    (h : e ∈ (ofList entries).entries) : e ∈ entries := by
  rcases mem_insertMany h with nowhere | given
  · cases nowhere
  · exact given

/-- Dictionaries that answer every look-up alike are equal. -/
@[ext]
theorem ext {a b : Dict α} (h : ∀ k, a.get? k = b.get? k) : a = b := by
  have := entries_eq_of_lookUp? a.ascending b.ascending h
  cases a
  cases b
  simp_all

end Dict
end Rollout
