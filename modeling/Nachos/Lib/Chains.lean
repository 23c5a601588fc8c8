import Mathlib.Data.List.Nodup
import Mathlib.Logic.Function.Basic

/-!
# Chains of cells

A heap maps addresses to cells, each with a content and a link, and a chain follows the links from a
pointer up to the null pointer.  A chain visits no address twice; it depends on its own cells only;
a new cell can be linked in behind any of its cells; and it can be walked.
-/

namespace Nachos
namespace Lib

section Chains

variable {A B : Type}

/-- A cell with its link. -/
structure Cell (A B : Type) where
  next : Option A
  content : B

/-- A heap of cells. -/
abbrev CellHeap (A B : Type) := A → Option (Cell A B)

/-- The cells from a pointer up to the null pointer, with their addresses. -/
inductive Chain (heap : CellHeap A B) : Option A → List (A × B) → Prop
  | nil : Chain heap none []
  | cons {a : A} {next : Option A} {b : B} {rest : List (A × B)} (hcell : heap a = some ⟨next, b⟩)
      (hrest : Chain heap next rest) : Chain heap (some a) ((a, b) :: rest)

/-- Follow the links, for so many cells at most. -/
def walk (heap : CellHeap A B) : Nat → Option A → List (A × B)
  | 0, _ => []
  | _ + 1, none => []
  | fuel + 1, some a =>
      match heap a with
      | none => []
      | some cell => (a, cell.content) :: walk heap fuel cell.next

variable {heap heap' : CellHeap A B} {p : Option A} {a q : A} {b c : B} {xs ys : List (A × B)}

/-- A chain starts at its first cell. -/
theorem Chain.head (h : Chain heap p xs) : p = xs.head?.map Prod.fst := by
  cases h with
  | nil => rfl
  | cons hcell hrest => rfl

theorem Chain.unique (h : Chain heap p xs) (h' : Chain heap p ys) : xs = ys := by
  induction h generalizing ys with
  | nil =>
      cases h' with
      | nil => rfl
  | cons hcell _ ih =>
      cases h' with
      | cons hcell' hrest' =>
          obtain ⟨rfl, rfl⟩ := Cell.mk.inj (Option.some.inj (hcell.symm.trans hcell'))
          rw [ih hrest']

theorem Chain.walk (h : Chain heap p xs) {fuel : Nat} (hfuel : xs.length ≤ fuel) :
    walk heap fuel p = xs := by
  induction h generalizing fuel with
  | nil =>
      cases fuel with
      | zero => rfl
      | succ fuel => rfl
  | @cons a next b rest hcell _ ih =>
      cases fuel with
      | zero => simp at hfuel
      | succ fuel =>
          rw [Lib.walk, hcell]
          simp only
          rw [ih (Nat.le_of_succ_le_succ hfuel)]

/-- The first cell of a chain, and the rest. -/
theorem Chain.cell (h : Chain heap p ((q, b) :: ys)) :
    ∃ next, heap q = some ⟨next, b⟩ ∧ Chain heap next ys := by
  cases h with
  | cons hcell hrest => exact ⟨_, hcell, hrest⟩

/-- Behind every cell of a chain there is a chain. -/
theorem Chain.split (h : Chain heap p (xs ++ (q, b) :: ys)) :
    ∃ next, heap q = some ⟨next, b⟩ ∧ Chain heap next ys := by
  induction xs generalizing p with
  | nil => exact h.cell
  | cons x xs ih =>
      cases h with
      | cons hcell hrest => exact ih hrest

theorem Chain.mem (h : Chain heap p xs) (ha : a ∈ xs.map Prod.fst) :
    ∃ cell, heap a = some cell := by
  obtain ⟨⟨a, b⟩, hmem, rfl⟩ := List.mem_map.mp ha
  obtain ⟨before, after, rfl⟩ := List.append_of_mem hmem
  obtain ⟨next, hcell, -⟩ := h.split
  exact ⟨_, hcell⟩

/-- An address that came again would have to lead to the same cells, of which there would be fewer. -/
theorem Chain.nodup (h : Chain heap p xs) : (xs.map Prod.fst).Nodup := by
  induction h with
  | nil => exact List.nodup_nil
  | @cons a next b rest hcell hrest ih =>
      refine List.nodup_cons.mpr ⟨fun hmem => ?_, ih⟩
      obtain ⟨⟨a', b'⟩, hpair, rfl⟩ := List.mem_map.mp hmem
      obtain ⟨before, after, rfl⟩ := List.append_of_mem hpair
      obtain ⟨next', hcell', hafter⟩ := hrest.split
      obtain ⟨rfl, rfl⟩ := Cell.mk.inj (Option.some.inj (hcell.symm.trans hcell'))
      have hlength := congrArg List.length (hrest.unique hafter)
      rw [List.length_append, List.length_cons] at hlength
      omega

/-- A chain depends on its own cells. -/
theorem Chain.congr (h : Chain heap p xs) (hsame : ∀ a ∈ xs.map Prod.fst, heap' a = heap a) :
    Chain heap' p xs := by
  induction h with
  | nil => exact .nil
  | cons hcell _ ih =>
      refine .cons ((hsame _ List.mem_cons_self).trans hcell) (ih fun a ha => ?_)
      exact hsame a (List.mem_cons_of_mem _ ha)

/-- A cell is linked in behind another one. -/
theorem Chain.link {next : Option A} (h : Chain heap p (xs ++ (q, b) :: ys))
    (hcell : heap q = some ⟨next, b⟩) (hq : heap' q = some ⟨some a, b⟩)
    (ha : heap' a = some ⟨next, c⟩)
    (hsame : ∀ d ∈ (xs ++ (q, b) :: ys).map Prod.fst, d ≠ q → heap' d = heap d) :
    Chain heap' p (xs ++ (q, b) :: (a, c) :: ys) := by
  have hnodup := h.nodup
  induction xs generalizing p with
  | nil =>
      cases h with
      | cons hcell' hrest =>
          obtain ⟨rfl, -⟩ := Cell.mk.inj (Option.some.inj (hcell.symm.trans hcell'))
          obtain ⟨hnotMem, -⟩ := List.nodup_cons.mp hnodup
          refine .cons hq (.cons ha (hrest.congr fun d hd => hsame d (List.mem_cons_of_mem _ hd) ?_))
          rintro rfl
          exact hnotMem hd
  | cons x xs ih =>
      obtain ⟨hnotMem, hnodup'⟩ := List.nodup_cons.mp hnodup
      cases h with
      | @cons d next' content rest hfirst hrest =>
          have hne : d ≠ q := by
            rintro rfl
            exact hnotMem (List.mem_map.mpr ⟨_, List.mem_append_right _ List.mem_cons_self, rfl⟩)
          refine .cons ((hsame d List.mem_cons_self hne).trans hfirst) (ih hrest ?_ hnodup')
          exact fun d' hd' => hsame d' (List.mem_cons_of_mem _ hd')

end Chains

end Lib
end Nachos
