import Rollout.Proofs.EngineCalls

/-!
# One client at a time

Several clients of one engine enter their deeds into one ledger.  `Deed.Fits` says which deeds fit a
lock that is in one hand at a time, and `Ledger.Exclusive` which ledgers are made of such deeds
only.  In these ledgers every client takes the lock once at most and gives it back before another
one takes it, so that the transitions of all clients together are those of one client after the
other (`Exclusive.serial`).
-/

namespace Rollout

variable {S : Type}

namespace Deed

def lock? : Deed S → Option Lock
  | acquired _ | busy => none
  | entered lock _ | refused lock _ | released lock | ignored lock => some lock

def released? : Deed S → Option Lock
  | released lock => some lock
  | _ => none

/-- What the client `i` may do, whose own deeds are given.  The lock and who has it are given for
before the deed and for after it. -/
inductive Fits (own : List (Deed S)) (i : Nat) :
    Option (Nat × Lock) → Deed S → Option (Nat × Lock) → Prop
  | busy {hand : Option (Nat × Lock)} (fresh : own = []) : Fits own i hand .busy hand
  | acquired (fresh : own = []) (lock : Lock) : Fits own i none (.acquired lock) (some (i, lock))
  | entered {lock : Lock} (t : Transition S) :
      Fits own i (some (i, lock)) (.entered lock t) (some (i, lock))
  | refused {lock : Lock} (source target : S) :
      Fits own i (some (i, lock)) (.refused lock (.invalidTransition source target))
        (some (i, lock))
  | released {lock : Lock} : Fits own i (some (i, lock)) (.released lock) none

end Deed

def givenBack (deeds : List (Deed S)) : List Lock := deeds.filterMap Deed.released?

@[simp] theorem givenBack_snoc (deeds : List (Deed S)) (d : Deed S) :
    givenBack (deeds ++ [d]) = givenBack deeds ++ d.released?.toList := by
  cases d <;> simp [givenBack, Deed.released?]

namespace Ledger

/-- Who took a lock, and which one, in order. -/
def acquisitions (l : Ledger S) : List (Nat × Lock) :=
  l.filterMap fun x ↦ x.2.acquired?.map (x.1, ·)

@[simp] theorem acquisitions_snoc (l : Ledger S) (i : Nat) (d : Deed S) :
    acquisitions (l ++ [(i, d)]) = acquisitions l ++ (d.acquired?.map (i, ·)).toList := by
  cases d <;> simp [acquisitions, Deed.acquired?]

theorem map_acquisitions (l : Ledger S) : l.acquisitions.map (·.2) = handedOut l.deeds := by
  unfold acquisitions handedOut deeds
  rw [List.map_filterMap, List.filterMap_map]
  refine congrArg (List.filterMap · l) (funext fun x ↦ ?_)
  simp [Function.comp_def]

theorem mem_acquisitions {l : Ledger S} {i : Nat} {lock : Lock} :
    (i, lock) ∈ l.acquisitions ↔ lock ∈ handedOut (l.of i) := by
  unfold acquisitions handedOut
  simp only [List.mem_filterMap, mem_of, Option.map_eq_some_iff, Prod.mk.injEq]
  constructor
  · rintro ⟨x, mem, lock, taken, rfl, rfl⟩
    exact ⟨x.2, mem, taken⟩
  · rintro ⟨d, mem, taken⟩
    exact ⟨(i, d), mem, lock, taken, rfl, rfl⟩

/-- The deeds of one client after a deed of any client. -/
theorem of_snoc (l : Ledger S) (i j : Nat) (d : Deed S) :
    of (l ++ [(i, d)]) j = of l j ++ if i = j then [d] else [] := by
  split
  · rename_i same
    rw [same, of_snoc_self]
  · rename_i other
    rw [of_snoc_ne l other, List.append_nil]

/-- All deeds fit: the lock is in one hand at a time. -/
inductive Exclusive : Ledger S → Option (Nat × Lock) → Prop
  | nil : Exclusive [] none
  | snoc {l : Ledger S} {hand hand' : Option (Nat × Lock)} {i : Nat} {d : Deed S}
      (before : Exclusive l hand) (fits : d.Fits (l.of i) i hand hand') :
      Exclusive (l ++ [(i, d)]) hand'

namespace Exclusive

variable {l : Ledger S} {hand : Option (Nat × Lock)}

/-! ### What was before -/

/-- The ledger before the last deed is exclusive, and the deed fits it. -/
theorem last {i : Nat} {d : Deed S} (h : Exclusive (l ++ [(i, d)]) hand) :
    ∃ hand', Exclusive l hand' ∧ d.Fits (l.of i) i hand' hand := by
  generalize same : l ++ [(i, d)] = l' at h
  cases h with
  | nil => simp at same
  | snoc before fits =>
    obtain ⟨rfl, entry⟩ := List.append_inj' same rfl
    obtain ⟨rfl, rfl⟩ := Prod.mk.inj (List.singleton_inj.1 entry)
    exact ⟨_, before, fits⟩

theorem earlier (later : Ledger S) (h : Exclusive (l ++ later) hand) :
    ∃ hand', Exclusive l hand' := by
  induction later generalizing l with
  | nil => exact ⟨hand, by rwa [List.append_nil] at h⟩
  | cons x more ih =>
    rw [List.append_cons] at h
    obtain ⟨_, h'⟩ := ih h
    obtain ⟨hand', before, -⟩ := h'.last
    exact ⟨hand', before⟩

/-- Every deed was done as it fits. -/
theorem deed {i : Nat} {d : Deed S} {later : Ledger S}
    (h : Exclusive (l ++ (i, d) :: later) hand) :
    ∃ hand' hand'', Exclusive l hand' ∧ d.Fits (l.of i) i hand' hand'' := by
  rw [List.append_cons] at h
  obtain ⟨hand'', h'⟩ := h.earlier
  obtain ⟨hand', before, fits⟩ := h'.last
  exact ⟨hand', hand'', before, fits⟩

/-! ### Who has the lock -/

/-- The lock that is out is the one that the ledger has in somebody's hand. -/
theorem holder_eq (h : Exclusive l hand) : holder l.deeds = hand.map (·.2) := by
  induction h with
  | nil => rfl
  | snoc before fits ih =>
    rw [deeds_snoc, holder_snoc]
    cases fits with
    | busy | entered | refused => exact ih
    | acquired | released => rfl

/-- A client holds a lock exactly if the ledger has it in the hand of this client. -/
theorem holder_of_iff (h : Exclusive l hand) {j : Nat} {lock : Lock} :
    holder (l.of j) = some lock ↔ hand = some (j, lock) := by
  induction h with
  | nil => exact ⟨nofun, nofun⟩
  | @snoc l hand hand' i d before fits ih =>
    by_cases same : i = j
    · subst same
      rw [of_snoc_self, holder_snoc]
      cases fits with
      | busy | entered | refused => exact ih
      | acquired | released => simp [Deed.holder]
    · rw [of_snoc_ne l same, ih]
      cases fits with
      | busy | entered | refused => rfl
      | acquired | released => simp [same]

/-- Whoever shows a lock has it. -/
theorem own {i : Nat} {d : Deed S} {later : Ledger S}
    (h : Exclusive (l ++ (i, d) :: later) hand) {lock : Lock} (shown : d.lock? = some lock) :
    holder (l.of i) = some lock := by
  obtain ⟨hand', hand'', before, fits⟩ := h.deed
  rw [before.holder_of_iff]
  cases fits with
  | busy | acquired => nomatch shown
  | entered | refused | released => rw [← Option.some.inj shown]

/-- No call is made with a lock that is not current. -/
theorem valid (h : Exclusive l hand) {i : Nat} {d : Deed S} (mem : (i, d) ∈ l) (lock : Lock) :
    d ≠ .refused lock .invalidLock ∧ d ≠ .ignored lock := by
  obtain ⟨earlier, later, rfl⟩ := List.append_of_mem mem
  obtain ⟨_, _, -, fits⟩ := h.deed
  cases fits <;> exact ⟨nofun, nofun⟩

/-! ### Once each -/

/-- No client takes the lock twice. -/
theorem once (h : Exclusive l hand) (j : Nat) : (handedOut (l.of j)).length ≤ 1 := by
  induction h with
  | nil => exact Nat.zero_le 1
  | @snoc l hand hand' i d before fits ih =>
    by_cases same : i = j
    · subst same
      cases fits with
      | busy | entered | refused | released => simpa [Deed.acquired?] using ih
      | acquired fresh lock =>
        rw [of_snoc_self, fresh]
        exact Nat.le_refl 1
    · rwa [of_snoc_ne l same]

/-- What a client has taken it has given back, unless it still has it. -/
theorem balanced (h : Exclusive l hand) (j : Nat) :
    handedOut (l.of j) = givenBack (l.of j) ++ (holder (l.of j)).toList := by
  induction h with
  | nil => rfl
  | @snoc l hand hand' i d before fits ih =>
    by_cases same : i = j
    · subst same
      rw [of_snoc_self, handedOut_snoc, givenBack_snoc, holder_snoc]
      cases fits with
      | busy | entered | refused => simpa [Deed.acquired?, Deed.released?, Deed.holder] using ih
      | acquired fresh lock =>
        rw [fresh]
        rfl
      | @released lock =>
        have has : holder (l.of i) = some lock := before.holder_of_iff.2 rfl
        rw [has] at ih
        simpa [Deed.acquired?, Deed.released?, Deed.holder] using ih
    · rwa [of_snoc_ne l same]

/-! ### One after the other -/

/-- Whoever has the lock was the last to take it. -/
theorem hand_last (h : Exclusive l hand) {x : Nat × Lock} (has : hand = some x) :
    l.acquisitions.getLast? = some x := by
  induction h with
  | nil => nomatch has
  | snoc before fits ih =>
    cases fits with
    | busy | entered | refused => simpa [Deed.acquired?] using ih has
    | acquired fresh lock => simpa [Deed.acquired?] using has
    | released => nomatch has

/-- Each client is at most once among those that have taken the lock. -/
theorem nodup_clients (h : Exclusive l hand) : (l.acquisitions.map (·.1)).Nodup := by
  induction h with
  | nil => exact .nil
  | @snoc l hand hand' i d before fits ih =>
    cases fits with
    | busy | entered | refused | released => simpa [Deed.acquired?] using ih
    | acquired fresh lock =>
      have new : i ∉ l.acquisitions.map (·.1) := by
        intro mem
        obtain ⟨x, taken, rfl⟩ := List.mem_map.1 mem
        have mem_taken := mem_acquisitions.1 taken
        rw [fresh] at mem_taken
        exact List.not_mem_nil mem_taken
      rw [acquisitions_snoc, List.map_append]
      refine List.nodup_append.2 ⟨ih, by simp [Deed.acquired?], ?_⟩
      rintro a old b only rfl
      obtain rfl : a = i := by simpa [Deed.acquired?] using only
      exact new old

/-- A deed that is no transition adds none to those of any client. -/
theorem moves_of_snoc (l : Ledger S) (i : Nat) {d : Deed S} (h : d.entered? = none) :
    (fun x : Nat × Lock ↦ moves (Ledger.of (l ++ [(i, d)]) x.1)) = fun x ↦ moves (l.of x.1) := by
  funext x
  rw [of_snoc]
  split
  · simp [h]
  · rw [List.append_nil]

/-- The transitions of all clients are those of one client after the other, in the order in which
they took the lock: a new transition is one of the client that was the last to take it. -/
theorem serial (h : Exclusive l hand) :
    moves l.deeds = l.acquisitions.flatMap fun x ↦ moves (l.of x.1) := by
  induction h with
  | nil => rfl
  | @snoc l hand hand' i d before fits ih =>
    cases fits with
    | busy | refused | released =>
      rw [moves_of_snoc l i (by rfl)]
      simpa [Deed.acquired?, Deed.entered?] using ih
    | acquired fresh lock =>
      have none_yet : moves (l.of i) = [] := by rw [fresh]; rfl
      rw [moves_of_snoc l i (by rfl)]
      simpa [Deed.acquired?, Deed.entered?, none_yet] using ih
    | @entered lock t =>
      obtain ⟨earlier, split⟩ := List.getLast?_eq_some_iff.1 (before.hand_last rfl)
      have distinct := before.nodup_clients
      rw [split, List.map_append] at distinct
      have others :
          (earlier.flatMap fun x ↦ moves (Ledger.of (l ++ [(i, Deed.entered lock t)]) x.1)) =
            earlier.flatMap fun x ↦ moves (l.of x.1) := by
        rw [List.flatMap_def, List.flatMap_def]
        refine congrArg _ (List.map_congr_left fun x mem ↦ ?_)
        have other : i ≠ x.1 := fun same ↦
          (List.nodup_append.1 distinct).2.2 x.1 (List.mem_map_of_mem mem) i
            (List.mem_singleton_self i) same.symm
        rw [of_snoc_ne l other]
      have taken : Ledger.acquisitions (l ++ [(i, Deed.entered lock t)]) =
          earlier ++ [(i, lock)] := by
        rw [acquisitions_snoc, split]
        exact List.append_nil _
      rw [split, List.flatMap_append] at ih
      rw [deeds_snoc, moves_snoc, ih, taken, List.flatMap_append, others, List.append_assoc]
      simp [Deed.entered?]

end Exclusive
end Ledger
end Rollout
