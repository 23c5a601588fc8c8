import Nachos.Userprog.BitMapSets
import Nachos.Userprog.FileTables

/-!
# A table is a partial map

`class Table` as it lies in memory: which entries are in use is in the words of a `BitMap`, and the
array of pointers is not initialised.  The lock is held by the one call in progress, and is not
modelled here.  A null pointer is `none`; it can be put into a table like any other.

The tables of the system calls, which have a list of bits, are for the same partial map.
-/

namespace Nachos
namespace Userprog

open Threads Lib

/-- The members of `class Table`. -/
structure PackedTable (α : Type) where
  map : BitMap
  table : List (Option α)
  size : Nat

namespace PackedTable

variable {α : Type}

/-- `Table::Table`, with what is in the new words and the new array. -/
def construct (words : Nat → Word) (pointers : Nat → Option α) (s : Nat) : PackedTable α where
  map := BitMap.construct words s
  table := (List.range s).map pointers
  size := s

/-- `table[i]`. -/
def pointer (t : PackedTable α) (i : Int) : Option α := t.table.getD i.toNat none

/-- `Table::Get`. -/
def get (t : PackedTable α) (i : Int) : Option α :=
  if 0 ≤ i ∧ i < t.size ∧ t.map.test i.toNat = true then t.pointer i else none

/-- `Table::Put`. -/
def put (t : PackedTable α) (f : Option α) : Int × PackedTable α :=
  let (i, map) := t.map.find
  let found := { t with map := map }
  (i, if i ≠ -1 then { found with table := t.table.set i.toNat f } else found)

/-- `Table::Remove`. -/
def remove (t : PackedTable α) (i : Int) : Option α × PackedTable α :=
  if 0 ≤ i ∧ i < t.size then
    if t.map.test i.toNat = true then
      (t.pointer i, { t with map := t.map.clear i.toNat, table := t.table.set i.toNat none })
    else (none, t)
  else (none, t)

end PackedTable

/-- The calls of a table. -/
inductive EntryCall (α : Type)
  | put (f : Option α)
  | get (i : Int)
  | remove (i : Int)
  deriving DecidableEq, Repr

inductive EntryAnswer (α : Type)
  | index (i : Int)
  | pointer (f : Option α)
  deriving DecidableEq, Repr

/-- A partial map from numbers to pointers. -/
abbrev PointerMap (α : Type) := Nat → Option (Option α)

namespace PointerMap

variable {α : Type}

/-- The pointer at an index, or null if there is none. -/
def lookup (size : Nat) (M : PointerMap α) (i : Int) : Option α :=
  if 0 ≤ i ∧ i < size then (M i.toNat).join else none

/-- What the calls of a table are for, on a partial map from the numbers below `size`. -/
inductive Allows (size : Nat) :
    EntryCall α → PointerMap α → EntryAnswer α → PointerMap α → Prop
  | put {M : PointerMap α} (f : Option α) (i : Nat) (hi : i < size) (hfree : M i = none)
      (hleast : ∀ j < i, M j ≠ none) :
      Allows size (.put f) M (.index i) (Function.update M i (some f))
  | full {M : PointerMap α} (f : Option α) (hfull : ∀ j < size, M j ≠ none) :
      Allows size (.put f) M (.index (-1)) M
  | get {M : PointerMap α} (i : Int) : Allows size (.get i) M (.pointer (lookup size M i)) M
  | remove {M : PointerMap α} (i : Nat) (hi : i < size) :
      Allows size (.remove i) M (.pointer (lookup size M i)) (Function.update M i none)
  | outside {M : PointerMap α} (i : Int) (hi : i < 0 ∨ (size : Int) ≤ i) :
      Allows size (.remove i) M (.pointer none) M

end PointerMap

namespace PackedTable

variable {α : Type} {t : PackedTable α} {n : Nat} {i : Int} {f : Option α}

def perform (call : EntryCall α) (t : PackedTable α) :
    Except Stop (EntryAnswer α × PackedTable α) :=
  .ok (match call with
    | .put f => (.index (t.put f).1, (t.put f).2)
    | .get i => (.pointer (t.get i), t)
    | .remove i => (.pointer (t.remove i).1, (t.remove i).2))

/-- The partial map that a table stands for. -/
def entries (t : PackedTable α) : PointerMap α := fun j =>
  if j ∈ t.map.marked then some (t.pointer j) else none

/-- A table of some size. -/
structure Sized (n : Nat) (t : PackedTable α) : Prop where
  size : t.size = n
  map : t.map.Sized n
  table : t.table.length = n

/-- `Get` looks the pointer up. -/
theorem Sized.get (h : t.Sized n) (i : Int) : t.get i = PointerMap.lookup n t.entries i := by
  unfold PackedTable.get PointerMap.lookup entries
  rw [h.size]
  by_cases hi : 0 ≤ i ∧ i < n
  · rw [if_pos hi]
    have hlt : i.toNat < n := by omega
    by_cases htest : t.map.test i.toNat = true
    · rw [if_pos ⟨hi.1, hi.2, htest⟩, if_pos (BitMap.mem_marked.mpr ⟨h.map.numBits ▸ hlt, htest⟩)]
      unfold pointer
      rw [Int.toNat_natCast]
      rfl
    · rw [if_neg fun hall => htest hall.2.2,
        if_neg fun hmem => htest (BitMap.mem_marked.mp hmem).2]
      rfl
  · rw [if_neg hi, if_neg fun hall => hi ⟨hall.1, hall.2.1⟩]

/-- An entry is written after its bit. -/
theorem Sized.entries_store (h : t.Sized n) {j : Nat} (hj : j < n) (f : Option α) :
    entries { t with map := t.map.mark j, table := t.table.set j f } =
      Function.update t.entries j (some f) := by
  have hbits : j < t.map.numBits := h.map.numBits ▸ hj
  funext k
  unfold entries pointer
  simp only [BitMap.marked_mark hbits, Finset.mem_insert, Int.toNat_natCast,
    List.getD_eq_getElem?_getD, List.getElem?_set]
  by_cases hk : k = j
  · subst hk
    rw [if_pos (Or.inl rfl), if_pos rfl, if_pos (by rw [h.table]; exact hj), Function.update_self]
    rfl
  · rw [Function.update_of_ne hk, if_neg (Ne.symm hk)]
    simp only [hk, false_or]

theorem Sized.entries_clear (h : t.Sized n) {j : Nat} (hj : j < n) :
    entries { t with map := t.map.clear j, table := t.table.set j none } =
      Function.update t.entries j none := by
  have hbits : j < t.map.numBits := h.map.numBits ▸ hj
  funext k
  unfold entries pointer
  simp only [BitMap.marked_clear hbits, Finset.mem_erase, Int.toNat_natCast,
    List.getD_eq_getElem?_getD, List.getElem?_set]
  by_cases hk : k = j
  · subst hk
    rw [if_neg fun hall => hall.1 rfl, Function.update_self]
  · rw [Function.update_of_ne hk, if_neg (Ne.symm hk)]
    simp only [hk, ne_eq, not_false_eq_true, true_and]

/-- `Put` takes the first free index. -/
theorem Sized.put (h : t.Sized n) (f : Option α) :
    (t.put f).2.Sized n ∧
      PointerMap.Allows n (.put f) t.entries (.index (t.put f).1) (t.put f).2.entries := by
  unfold PackedTable.put
  rcases t.map.find_spec with ⟨j, hj, hclear, hleast, hfind⟩ | ⟨hall, hfind⟩
  · rw [hfind]
    have hlt : j < n := h.map.numBits ▸ hj
    have hne : (j : Int) ≠ -1 := by omega
    simp only [if_pos hne, Int.toNat_natCast]
    refine ⟨⟨h.size, h.map.setWord _ _, (List.length_set ..).trans h.table⟩, ?_⟩
    rw [h.entries_store hlt]
    refine .put f j hlt (if_neg fun hmem => ?_) fun k hk => ?_
    · rw [(BitMap.mem_marked.mp hmem).2] at hclear
      simp at hclear
    · unfold entries
      rw [if_pos (BitMap.mem_marked.mpr ⟨by omega, hleast k hk⟩)]
      simp
  · rw [hfind]
    refine ⟨h, .full f fun k hk => ?_⟩
    unfold entries
    have hbits : k < t.map.numBits := h.map.numBits ▸ hk
    rw [if_pos (BitMap.mem_marked.mpr ⟨hbits, hall k hbits⟩)]
    simp

/-- `Remove` frees its index. -/
theorem Sized.remove (h : t.Sized n) (i : Int) :
    (t.remove i).2.Sized n ∧
      PointerMap.Allows n (.remove i) t.entries (.pointer (t.remove i).1) (t.remove i).2.entries := by
  unfold PackedTable.remove
  obtain rfl := h.size
  by_cases hi : 0 ≤ i ∧ i < t.size
  · rw [if_pos hi]
    obtain ⟨j, rfl⟩ := Int.eq_ofNat_of_zero_le hi.1
    have hj : j < t.size := Int.ofNat_lt.mp hi.2
    have hbits : j < t.map.numBits := h.map.numBits ▸ hj
    have hlookup : PointerMap.lookup t.size t.entries j = (t.entries j).join := if_pos hi
    simp only [Int.toNat_natCast]
    by_cases htest : t.map.test j = true
    · rw [if_pos htest]
      have hentry : t.entries j = some (t.pointer j) :=
        if_pos (BitMap.mem_marked.mpr ⟨hbits, htest⟩)
      refine ⟨⟨h.size, h.map.setWord _ _, (List.length_set ..).trans h.table⟩, ?_⟩
      have hallows := PointerMap.Allows.remove (M := t.entries) j hj
      rw [hlookup, hentry] at hallows
      rw [h.entries_clear hj]
      exact hallows
    · rw [if_neg htest]
      have hentry : t.entries j = none := if_neg fun hmem => htest (BitMap.mem_marked.mp hmem).2
      refine ⟨h, ?_⟩
      have hallows := PointerMap.Allows.remove (M := t.entries) j hj
      rw [hlookup, hentry, ← hentry, Function.update_eq_self, hentry] at hallows
      exact hallows
  · rw [if_neg hi]
    exact ⟨h, .outside i (by omega)⟩

/-- A table implements a partial map. -/
theorem implements_map (n : Nat) :
    Implements (PointerMap.Allows n) (Sized n) entries (perform (α := α)) := by
  rintro call t answer t' h hperform
  obtain ⟨rfl, rfl⟩ := Prod.mk.inj (Except.ok.inj hperform)
  cases call with
  | put f => exact h.put f
  | get i =>
      refine ⟨h, ?_⟩
      show PointerMap.Allows n _ _ (.pointer (t.get i)) _
      rw [h.get]
      exact .get i
  | remove i => exact h.remove i

theorem construct_sized (words : Nat → Word) (pointers : Nat → Option α) (s : Nat) :
    (construct words pointers s).Sized s := by
  refine ⟨rfl, BitMap.construct_sized words s, ?_⟩
  unfold construct
  rw [List.length_map, List.length_range]

/-- A new table is empty, whatever was in the new words and the new array. -/
theorem construct_entries (words : Nat → Word) (pointers : Nat → Option α) (s : Nat) :
    (construct words pointers s).entries = fun _ => none := by
  funext j
  unfold entries
  rw [if_neg]
  unfold construct
  rw [BitMap.construct_marked]
  exact Finset.notMem_empty j

/-- A table behaves as a partial map, which is empty at first, whatever it is asked for. -/
theorem table_is_map (words : Nat → Word) (pointers : Nat → Option α) (size : Nat)
    (calls : List (EntryCall α)) :
    ∃ answers t, history perform calls (construct words pointers size) = .ok (answers, t) ∧
      PackedTable.size t = size ∧
      Follows (PointerMap.Allows size) (fun _ => none) calls answers t.entries := by
  have hsized := construct_sized words pointers size
  have hcalls : ∀ call ∈ calls, ∀ u : PackedTable α, Sized size u →
      ∃ answer u', perform call u = .ok (answer, u') := fun call _ u _ => ⟨_, _, rfl⟩
  obtain ⟨answers, t, hrun⟩ := (implements_map size).exists_history hsized hcalls
  obtain ⟨ht, hfollows⟩ := (implements_map size).history hsized hrun
  rw [construct_entries] at hfollows
  exact ⟨answers, t, hrun, ht.size, hfollows⟩

end PackedTable

namespace Table

variable {α : Type} {t : Table α} {n : Nat}

/-- The calls of a table, without a break between their steps. -/
def perform (call : EntryCall α) (t : Table α) : Except Stop (EntryAnswer α × Table α) :=
  .ok (match call with
    | .put f => (.index (t.put f).1, (t.put f).2)
    | .get i => (.pointer (t.get i), t)
    | .remove i => (.pointer (t.remove i).1, (t.remove i).2))

/-- The partial map that a table stands for. -/
def entries (t : Table α) : PointerMap α := fun j => if t.bit j then some (t.entry j) else none

theorem entries_eq_none {j : Nat} : t.entries j = none ↔ t.bit j = false := by
  unfold entries
  cases t.bit j with
  | true => simp
  | false => simp

theorem lookup_entries (i : Int) : PointerMap.lookup t.size t.entries i = t.get i := by
  unfold PointerMap.lookup
  rw [get_eq]
  by_cases hi : 0 ≤ i ∧ i < t.size
  · obtain ⟨j, rfl⟩ := Int.eq_ofNat_of_zero_le hi.1
    rw [if_pos hi, Int.toNat_natCast]
    unfold entries
    cases t.bit (j : Int) with
    | true => rfl
    | false => rfl
  · rw [if_neg hi, if_neg fun hbit => hi (bit_range hbit)]

/-- `Find` answers the first clear bit. -/
theorem firstClear_least {j : Nat} (hj : (j : Int) < t.firstClear) : t.bit j = true := by
  unfold firstClear at hj
  cases hfind : t.map.findIdx? (· = false) with
  | none =>
      rw [hfind] at hj
      simp only at hj
      omega
  | some k =>
      rw [hfind] at hj
      obtain ⟨hlt, -, hleast⟩ := List.findIdx?_eq_some_iff_getElem.mp hfind
      have hjk : j < k := Int.ofNat_lt.mp hj
      have hset := hleast j hjk
      unfold bit index?
      rw [if_neg (Int.not_lt.mpr (Int.natCast_nonneg j)), Int.toNat_natCast,
        List.getElem?_eq_getElem (by omega)]
      simpa using hset

theorem bit_of_full (hfull : t.firstClear = -1) {j : Nat} (hj : j < t.size) : t.bit j = true := by
  unfold firstClear at hfull
  cases hfind : t.map.findIdx? (· = false) with
  | none =>
      have hlt : j < t.map.length := hj
      have hset := List.findIdx?_eq_none_iff.mp hfind t.map[j] (List.getElem_mem hlt)
      unfold bit index?
      rw [if_neg (Int.not_lt.mpr (Int.natCast_nonneg j)), Int.toNat_natCast,
        List.getElem?_eq_getElem hlt]
      simpa using hset
  | some k =>
      rw [hfind] at hfull
      simp only at hfull
      omega

/-- The tables of the system calls implement the same partial map. -/
theorem implements_map (n : Nat) :
    Implements (PointerMap.Allows n) (fun t => t.Fits ∧ t.size = n) entries
      (perform (α := α)) := by
  rintro call t answer t' ⟨hfits, rfl⟩ hperform
  obtain ⟨rfl, rfl⟩ := Prod.mk.inj (Except.ok.inj hperform)
  cases call with
  | put f =>
      refine ⟨⟨(hfits.mark _).store _ _, (store_size _ _ _).trans (mark_size _ _)⟩, ?_⟩
      show PointerMap.Allows t.size _ _ (.index t.firstClear) (entries ((t.mark _).store _ f))
      rcases t.firstClear_cases with hfull | ⟨hlow, hhigh, hclear⟩
      · rw [hfull, mark_neg _ (by decide), store_neg _ (by decide)]
        refine .full f fun j hj hnone => ?_
        rw [entries_eq_none, bit_of_full hfull hj] at hnone
        simp at hnone
      · obtain ⟨k, hk⟩ := Int.eq_ofNat_of_zero_le hlow
        have hleast : ∀ j < k, t.entries j ≠ none := by
          intro j hj hnone
          rw [entries_eq_none, firstClear_least (hk ▸ Int.ofNat_lt.mpr hj)] at hnone
          simp at hnone
        rw [hk] at hlow hhigh hclear ⊢
        have hstored : entries ((t.mark k).store k f) = Function.update t.entries k (some f) := by
          funext j
          unfold entries
          have hsize : (k : Int) < (t.mark k).size := by
            rw [mark_size]
            exact hhigh
          rw [store_bit, mark_bit hlow hhigh, store_entry (hfits.mark _) hlow hsize, mark_entry,
            Function.update_apply]
          by_cases hj : j = k
          · subst hj
            simp
          · rw [if_neg hj, if_neg fun h => hj (Int.ofNat_inj.mp h).symm,
              if_neg fun h => hj (Int.ofNat_inj.mp h).symm]
        rw [hstored]
        exact .put f k (Int.ofNat_lt.mp hhigh) (entries_eq_none.mpr hclear) hleast
  | get i =>
      refine ⟨⟨hfits, rfl⟩, ?_⟩
      show PointerMap.Allows t.size _ _ (.pointer (t.get i)) _
      rw [← lookup_entries]
      exact .get i
  | remove i =>
      refine ⟨⟨hfits.clear i, clear_size t i⟩, ?_⟩
      show PointerMap.Allows t.size _ _ (.pointer (t.get i)) (t.clear i).entries
      by_cases hi : 0 ≤ i ∧ i < t.size
      · obtain ⟨j, rfl⟩ := Int.eq_ofNat_of_zero_le hi.1
        have hcleared : (t.clear j).entries = Function.update t.entries j none := by
          funext k
          unfold entries
          rw [clear_bit, Function.update_apply]
          by_cases hk : k = j
          · subst hk
            simp
          · rw [if_neg hk, if_neg fun h => hk (Int.ofNat_inj.mp h).symm]
            cases hbit : t.bit (j : Int) with
            | true =>
                rw [clear_entry hbit, if_neg fun h => hk (Int.ofNat_inj.mp h).symm]
            | false => rw [clear_of_not_bit hbit]
        rw [hcleared, ← lookup_entries]
        exact .remove j (Int.ofNat_lt.mp hi.2)
      · have hbit : t.bit i = false := by
          by_contra hset
          exact hi (bit_range (by simpa using hset))
        rw [clear_of_not_bit hbit, get_eq, hbit]
        exact .outside i (by omega)

end Table

end Userprog
end Nachos
