import Nachos.Userprog.Syscalls

/-!
# The operations of `Table`

A table is seen through its bits and its entries: `Get` answers the entry if the bit
is set.  Every operation changes the bit or the entry of one index at most.
-/

namespace Nachos
namespace Userprog
namespace Table

variable {α : Type} {t : Table α} {i j : Int} {f : Option α}

/-- `map.Test(i)`, for an `i` in range. -/
def bit (t : Table α) (i : Int) : Bool := (index? t.map i).getD false

/-- `table[i]`, for an `i` in range. -/
def entry (t : Table α) (i : Int) : Option α := (index? t.table i).join

/-- There is an entry for every bit. -/
def Fits (t : Table α) : Prop := t.table.length = t.map.length

theorem index?_set {β : Type} {l : List β} (hi : 0 ≤ i) (b : β) (j : Int) :
    index? (l.set i.toNat b) j =
      if i = j then (index? l i).map fun _ => b else index? l j := by
  unfold index?
  by_cases hj : j < 0
  · have hne : i ≠ j := by omega
    rw [if_pos hj, if_neg hne, if_pos hj]
  · rw [if_neg hj, if_neg hj, if_neg (Int.not_lt.mpr hi), List.getElem?_set]
    by_cases heq : i = j
    · subst heq
      rw [if_pos rfl, if_pos rfl]
      split
      · rename_i hlt
        rw [List.getElem?_eq_getElem hlt]
        rfl
      · rename_i hge
        rw [List.getElem?_eq_none (Nat.le_of_not_lt hge)]
        rfl
    · have hne : i.toNat ≠ j.toNat := by omega
      rw [if_neg hne, if_neg heq]

theorem index?_isSome {β : Type} {l : List β} :
    (index? l i).isSome = true ↔ 0 ≤ i ∧ i < l.length := by
  unfold index?
  by_cases hi : i < 0
  · rw [if_pos hi]
    simp
    omega
  · rw [if_neg hi]
    simp
    omega

theorem get_eq (t : Table α) (i : Int) : t.get i = if t.bit i then t.entry i else none := by
  unfold get bit entry
  cases index? t.map i with
  | none => rfl
  | some b =>
      cases b with
      | true => rfl
      | false => rfl

theorem bit_range (h : t.bit i = true) : 0 ≤ i ∧ i < t.size := by
  have hsome : (index? t.map i).isSome = true := by
    unfold bit at h
    cases hget : index? t.map i with
    | none => simp [hget] at h
    | some b => rfl
  exact index?_isSome.mp hsome

theorem bit_of_get {a : α} (h : t.get i = some a) : t.bit i = true ∧ t.entry i = some a := by
  rw [get_eq] at h
  split at h
  · rename_i hbit
    exact ⟨hbit, h⟩
  · exact absurd h (by simp)

/-- `Find` answers -1 or a clear bit. -/
theorem firstClear_cases (t : Table α) :
    t.firstClear = -1 ∨
      0 ≤ t.firstClear ∧ t.firstClear < t.size ∧ t.bit t.firstClear = false := by
  unfold firstClear
  cases hfind : t.map.findIdx? (· = false) with
  | none => exact Or.inl rfl
  | some n =>
      obtain ⟨hlt, hclear, -⟩ := List.findIdx?_eq_some_iff_getElem.mp hfind
      refine Or.inr ⟨Int.natCast_nonneg n, Int.ofNat_lt.mpr hlt, ?_⟩
      show t.bit (n : Int) = false
      unfold bit index?
      rw [if_neg (Int.not_lt.mpr (Int.natCast_nonneg n)), Int.toNat_natCast,
        List.getElem?_eq_getElem hlt]
      simpa using hclear

theorem mark_bit (hi : 0 ≤ i) (hlt : i < t.size) (j : Int) :
    (t.mark i).bit j = if i = j then true else t.bit j := by
  unfold mark bit
  rw [if_neg (Int.not_lt.mpr hi), index?_set hi]
  by_cases heq : i = j
  · obtain ⟨b, hb⟩ := Option.isSome_iff_exists.mp (index?_isSome.mpr ⟨hi, hlt⟩)
    rw [if_pos heq, if_pos heq, hb]
    rfl
  · rw [if_neg heq, if_neg heq]

theorem mark_entry (t : Table α) (i j : Int) : (t.mark i).entry j = t.entry j := by
  unfold mark
  split
  · rfl
  · rfl

theorem mark_neg (t : Table α) (hi : i < 0) : t.mark i = t := if_pos hi

theorem store_bit (t : Table α) (i : Int) (f : Option α) (j : Int) :
    (t.store i f).bit j = t.bit j := by
  unfold store
  split
  · rfl
  · rfl

theorem store_entry (ht : t.Fits) (hi : 0 ≤ i) (hlt : i < t.size) (f : Option α) (j : Int) :
    (t.store i f).entry j = if i = j then f else t.entry j := by
  unfold store entry
  rw [if_neg (Int.not_lt.mpr hi), index?_set hi]
  by_cases heq : i = j
  · have hlt' : i < t.table.length := by
      rw [ht]
      exact hlt
    obtain ⟨b, hb⟩ := Option.isSome_iff_exists.mp (index?_isSome.mpr ⟨hi, hlt'⟩)
    rw [if_pos heq, if_pos heq, hb]
    rfl
  · rw [if_neg heq, if_neg heq]

theorem store_neg (t : Table α) (hi : i < 0) (f : Option α) : t.store i f = t := if_pos hi

/-- `Remove` has no effect on a clear bit. -/
theorem clear_of_not_bit (h : t.bit i = false) : t.clear i = t := by
  unfold clear
  rw [if_neg]
  intro hset
  simp [bit, hset] at h

theorem clear_eq (h : t.bit i = true) :
    t.clear i = { t with map := t.map.set i.toNat false, table := t.table.set i.toNat none } := by
  unfold clear
  rw [if_pos]
  unfold bit at h
  cases hget : index? t.map i with
  | none => simp [hget] at h
  | some b => simpa [hget] using h

theorem clear_bit (t : Table α) (i j : Int) :
    (t.clear i).bit j = if i = j then false else t.bit j := by
  cases hbit : t.bit i with
  | false =>
      rw [clear_of_not_bit hbit]
      split
      · rename_i heq
        rw [← heq]
        exact hbit
      · rfl
  | true =>
      have hi := (bit_range hbit).1
      rw [clear_eq hbit]
      unfold bit
      rw [index?_set hi]
      by_cases heq : i = j
      · rw [if_pos heq, if_pos heq]
        cases index? t.map i with
        | none => rfl
        | some b => rfl
      · rw [if_neg heq, if_neg heq]

theorem clear_entry (h : t.bit i = true) (j : Int) :
    (t.clear i).entry j = if i = j then none else t.entry j := by
  have hi := (bit_range h).1
  rw [clear_eq h]
  unfold entry
  rw [index?_set hi]
  by_cases heq : i = j
  · rw [if_pos heq, if_pos heq]
    cases index? t.table i with
    | none => rfl
    | some b => rfl
  · rw [if_neg heq, if_neg heq]

theorem mark_size (t : Table α) (i : Int) : (t.mark i).size = t.size := by
  unfold mark size
  split
  · rfl
  · simp

theorem store_size (t : Table α) (i : Int) (f : Option α) : (t.store i f).size = t.size := by
  unfold store size
  split
  · rfl
  · rfl

theorem clear_size (t : Table α) (i : Int) : (t.clear i).size = t.size := by
  unfold clear size
  split
  · simp
  · rfl

theorem Fits.mark (h : t.Fits) (i : Int) : (t.mark i).Fits := by
  unfold Fits Table.mark at *
  split
  · exact h
  · simpa using h

theorem Fits.store (h : t.Fits) (i : Int) (f : Option α) : (t.store i f).Fits := by
  unfold Fits Table.store at *
  split
  · exact h
  · simpa using h

theorem Fits.clear (h : t.Fits) (i : Int) : (t.clear i).Fits := by
  unfold Fits Table.clear at *
  split
  · simpa using h
  · exact h

theorem fits_new (size : Nat) (lock : Threads.LockId) : (new size lock : Table α).Fits := by
  simp [Fits, new]

theorem bit_new (size : Nat) (lock : Threads.LockId) (i : Int) :
    (new size lock : Table α).bit i = false := by
  unfold bit index? new
  split
  · rfl
  · cases hget : (List.replicate size false)[i.toNat]? with
    | none => rfl
    | some b =>
        rw [List.getElem?_replicate] at hget
        split at hget
        · exact (Option.some.inj hget).symm
        · simp at hget

end Table
end Userprog
end Nachos
