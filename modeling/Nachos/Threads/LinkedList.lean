import Nachos.Lib.Chains
import Nachos.Lib.Objects
import Nachos.Threads.Kernel

/-!
# The linked list

This module embeds `threads/list.cc`.  An element is a cell of the heap, with its key and its item;
an item is a pointer, `none` the null pointer.  Which free address `new` hands out is part of a call.
The loop of `SortedInsert` makes no more rounds than there are elements in use, which `used` counts;
it is a ghost.
-/

namespace Nachos
namespace Threads

open Lib

/-- Addresses of list elements. -/
abbrev Address := Nat

/-- `class ListElement`, with the key and the item as its content. -/
abbrev ListElement (α : Type) := Cell Address (Int × Option α)

/-- `class List`, and the heap. -/
structure LinkedList (α : Type) where
  heap : CellHeap Address (Int × Option α)
  first : Option Address
  last : Option Address
  used : Nat

namespace LinkedList

variable {α : Type}

/-- `List::List`. -/
def new (heap : CellHeap Address (Int × Option α)) : LinkedList α := ⟨heap, none, none, 0⟩

/-- What a pointer points to. -/
def element (l : LinkedList α) (ptr : Option Address) :
    Except Stop (Address × ListElement α) :=
  match ptr with
  | none => .error .nullDereference
  | some a =>
      match l.heap a with
      | none => .error .outOfBounds
      | some e => .ok (a, e)

/-- `ptr->next = next`. -/
def setNext (l : LinkedList α) (ptr next : Option Address) : Except Stop (LinkedList α) := do
  let (a, e) ← l.element ptr
  .ok { l with heap := Function.update l.heap a (some { e with next := next }) }

/-- `new ListElement(item, sortKey)`. -/
def allocate (l : LinkedList α) (a : Address) (item : Option α) (sortKey : Int) :
    Except Stop (LinkedList α) :=
  match l.heap a with
  | some _ => .error .badAlloc
  | none => .ok { l with
      heap := Function.update l.heap a (some ⟨none, sortKey, item⟩)
      used := l.used + 1 }

/-- The new element is the only one. -/
def linkOnly (l : LinkedList α) (a : Address) : LinkedList α :=
  { l with first := some a, last := some a }

/-- `last->next = element; last = element`. -/
def linkLast (l : LinkedList α) (a : Address) : Except Stop (LinkedList α) := do
  let l ← l.setNext l.last (some a)
  .ok { l with last := some a }

/-- `element->next = first; first = element`. -/
def linkFirst (l : LinkedList α) (a : Address) : Except Stop (LinkedList α) := do
  let l ← l.setNext (some a) l.first
  .ok { l with first := some a }

/-- `List::Append`. -/
def append (l : LinkedList α) (item : Option α) (a : Address) : Except Stop (LinkedList α) := do
  let l ← l.allocate a item 0
  if l.first = none then .ok (l.linkOnly a) else l.linkLast a

/-- `List::Prepend`. -/
def prepend (l : LinkedList α) (item : Option α) (a : Address) : Except Stop (LinkedList α) := do
  let l ← l.allocate a item 0
  if l.first = none then .ok (l.linkOnly a) else l.linkFirst a

/-- The loop of `SortedInsert` and the code behind it, with so many rounds to go at most. -/
def insertLoop (a : Address) (sortKey : Int) :
    Nat → Option Address → LinkedList α → Except Stop (LinkedList α)
  | 0, _, _ => .error .noCode
  | rounds + 1, ptr, l => do
      let (_, here) ← l.element ptr
      if here.next = none then l.linkLast a
      else
        let (_, after) ← l.element here.next
        if sortKey < after.content.1 then
          let l ← l.setNext (some a) here.next
          l.setNext ptr (some a)
        else insertLoop a sortKey rounds here.next l

/-- `List::SortedInsert`. -/
def sortedInsert (l : LinkedList α) (item : Option α) (sortKey : Int) (a : Address) :
    Except Stop (LinkedList α) := do
  let l ← l.allocate a item sortKey
  if l.first = none then .ok (l.linkOnly a)
  else
    let (_, head) ← l.element l.first
    if sortKey < head.content.1 then l.linkFirst a
    else insertLoop a sortKey l.used l.first l

/-- `List::SortedRemove`: the item, the key, if there is one, and the list. -/
def sortedRemove (l : LinkedList α) : Except Stop ((Option α × Option Int) × LinkedList α) :=
  if l.first = none then .ok ((none, none), l)
  else do
    let (a, e) ← l.element l.first
    let rest := if l.first = l.last then { l with first := none, last := none }
      else { l with first := e.next }
    .ok ((e.content.2, some e.content.1),
      { rest with heap := Function.update rest.heap a none, used := rest.used - 1 })

/-- The calls of a list; a new element is at `element`. -/
inductive Call (α : Type)
  | append (item : Option α) (element : Address)
  | prepend (item : Option α) (element : Address)
  | remove
  | sortedInsert (item : Option α) (sortKey : Int) (element : Address)
  | sortedRemove
  deriving DecidableEq, Repr

inductive Answer (α : Type)
  | done
  | item (item : Option α)
  | entry (item : Option α) (key : Option Int)
  deriving DecidableEq, Repr

def perform (call : Call α) (l : LinkedList α) : Except Stop (Answer α × LinkedList α) :=
  match call with
  | .append item a => (l.append item a).map fun l' => (.done, l')
  | .prepend item a => (l.prepend item a).map fun l' => (.done, l')
  | .remove => l.sortedRemove.map fun r => (.item r.1.1, r.2)
  | .sortedInsert item sortKey a => (l.sortedInsert item sortKey a).map fun l' => (.done, l')
  | .sortedRemove => l.sortedRemove.map fun r => (.entry r.1.1 r.1.2, r.2)

/-- What the calls are for, on a sequence of keys and items. -/
inductive Allows : Call α → List (Int × Option α) → Answer α → List (Int × Option α) → Prop
  | append {S : List (Int × Option α)} (item : Option α) (a : Address) :
      Allows (.append item a) S .done (S ++ [(0, item)])
  | prepend {S : List (Int × Option α)} (item : Option α) (a : Address) :
      Allows (.prepend item a) S .done ((0, item) :: S)
  | removeNone : Allows .remove [] (.item none) []
  | remove {S : List (Int × Option α)} (key : Int) (item : Option α) :
      Allows .remove ((key, item) :: S) (.item item) S
  | sortedInsert {before after : List (Int × Option α)} (item : Option α) (key : Int) (a : Address)
      (hbefore : ∀ e ∈ before, e.1 ≤ key) (hafter : ∀ e ∈ after.head?, key < e.1) :
      Allows (.sortedInsert item key a) (before ++ after) .done (before ++ (key, item) :: after)
  | sortedRemoveNone : Allows .sortedRemove [] (.entry none none) []
  | sortedRemove {S : List (Int × Option α)} (key : Int) (item : Option α) :
      Allows .sortedRemove ((key, item) :: S) (.entry item (some key)) S

/-- The elements that are met on the way from `first`. -/
def elements (l : LinkedList α) : List (Address × Int × Option α) := walk l.heap l.used l.first

/-- The keys and items of a list. -/
def contents (l : LinkedList α) : List (Int × Option α) := l.elements.map Prod.snd

/-- The list is made of these elements. -/
structure Holds (l : LinkedList α) (xs : List (Address × Int × Option α)) : Prop where
  chain : Chain l.heap l.first xs
  last : l.last = xs.getLast?.map Prod.fst
  used : l.used = xs.length

/-- The list is made of these elements, and there is a new one that is not linked in yet. -/
structure HoldsNew (l : LinkedList α) (xs : List (Address × Int × Option α)) (a : Address)
    (e : Int × Option α) : Prop where
  chain : Chain l.heap l.first xs
  last : l.last = xs.getLast?.map Prod.fst
  used : l.used = xs.length + 1
  cell : l.heap a = some ⟨none, e⟩
  fresh : a ∉ xs.map Prod.fst

section Links

variable {l : LinkedList α} {xs ys : List (Address × Int × Option α)} {a q : Address}
  {b e : Int × Option α} {item : Option α} {key : Int}

theorem Holds.elements (h : l.Holds xs) : l.elements = xs := by
  unfold LinkedList.elements
  rw [h.used]
  exact h.chain.walk (Nat.le_refl _)

theorem element_eq {c : ListElement α} (h : l.heap a = some c) :
    l.element (some a) = .ok (a, c) := by
  unfold element
  simp only
  rw [h]

theorem setNext_eq {c : ListElement α} (h : l.heap a = some c) (next : Option Address) :
    l.setNext (some a) next =
      .ok { l with heap := Function.update l.heap a (some { c with next := next }) } := by
  unfold setNext
  rw [element_eq h]
  rfl

theorem Holds.allocate (h : l.Holds xs) (hfree : l.heap a = none) (item : Option α) (key : Int) :
    ∃ l', l.allocate a item key = .ok l' ∧ l'.HoldsNew xs a (key, item) := by
  have hfresh : a ∉ xs.map Prod.fst := by
    intro hmem
    obtain ⟨c, hc⟩ := h.chain.mem hmem
    exact absurd (hfree.symm.trans hc) (by simp)
  refine ⟨_, by unfold LinkedList.allocate; rw [hfree], ?_⟩
  refine ⟨h.chain.congr fun d hd => ?_, h.last, congrArg (· + 1) h.used,
    Function.update_self _ _ _, hfresh⟩
  refine Function.update_of_ne ?_ _ _
  rintro rfl
  exact hfresh hd

theorem HoldsNew.linkOnly (h : l.HoldsNew [] a e) : (l.linkOnly a).Holds [(a, e)] :=
  ⟨.cons h.cell .nil, rfl, h.used⟩

theorem HoldsNew.linkFirst (h : l.HoldsNew xs a e) (hne : xs ≠ []) :
    ∃ l', l.linkFirst a = .ok l' ∧ l'.Holds ((a, e) :: xs) := by
  refine ⟨_, by unfold LinkedList.linkFirst; rw [setNext_eq h.cell]; rfl, ?_⟩
  refine ⟨.cons (Function.update_self _ _ _) (h.chain.congr fun d hd => ?_), ?_, h.used⟩
  · refine Function.update_of_ne ?_ _ _
    rintro rfl
    exact h.fresh hd
  · rw [List.getLast?_cons_of_ne_nil hne]
    exact h.last

theorem HoldsNew.linkLast (h : l.HoldsNew (xs ++ [(q, b)]) a e) :
    ∃ l', l.linkLast a = .ok l' ∧ l'.Holds (xs ++ [(q, b)] ++ [(a, e)]) := by
  have hlast : l.last = some q := by
    rw [h.last, List.getLast?_concat]
    rfl
  obtain ⟨next, hcell, hrest⟩ := h.chain.split
  obtain rfl : next = none := by
    cases hrest
    rfl
  have hne : a ≠ q := by
    rintro rfl
    exact h.fresh (by simp)
  refine ⟨_, by unfold LinkedList.linkLast; rw [hlast, setNext_eq hcell]; rfl, ?_⟩
  refine ⟨?_, ?_, ?_⟩
  · show Chain (Function.update l.heap q (some ⟨some a, b⟩)) l.first _
    rw [List.append_assoc]
    refine h.chain.link hcell (Function.update_self _ _ _) ?_ ?_
    · rw [Function.update_of_ne hne]
      exact h.cell
    · exact fun d _ hd => Function.update_of_ne hd _ _
  · rw [List.getLast?_concat]
    rfl
  · rw [List.length_append]
    exact h.used

/-- The new element goes between two others. -/
theorem HoldsNew.linkBetween {r : Address} {c : Int × Option α}
    (h : l.HoldsNew (xs ++ (q, b) :: (r, c) :: ys) a e) (hcell : l.heap q = some ⟨some r, b⟩) :
    ∃ l₁ l', l.setNext (some a) (some r) = .ok l₁ ∧ l₁.setNext (some q) (some a) = .ok l' ∧
      l'.Holds (xs ++ (q, b) :: (a, e) :: (r, c) :: ys) := by
  have hne : q ≠ a := by
    rintro rfl
    exact h.fresh (by simp)
  have hcell' : Function.update l.heap a (some ⟨some r, e⟩) q = some ⟨some r, b⟩ := by
    rw [Function.update_of_ne hne]
    exact hcell
  refine ⟨_, _, setNext_eq h.cell _, setNext_eq hcell' _, ?_⟩
  refine ⟨?_, ?_, ?_⟩
  · refine h.chain.link hcell (Function.update_self _ _ _) ?_ ?_
    · exact (Function.update_of_ne hne.symm _ _).trans (Function.update_self _ _ _)
    · intro d hd hdq
      refine (Function.update_of_ne hdq _ _).trans (Function.update_of_ne ?_ _ _)
      rintro rfl
      exact h.fresh hd
  · show l.last = _
    rw [h.last]
    simp
  · show l.used = _
    rw [h.used]
    simp only [List.length_append, List.length_cons]
    omega

/-- A round of the loop at the last element. -/
theorem insertLoop_last (hcell : l.heap q = some ⟨none, b⟩) (rounds : Nat) :
    insertLoop a key (rounds + 1) (some q) l = l.linkLast a := by
  simp only [insertLoop, element_eq hcell, bind, Except.bind, if_true]

/-- A round of the loop at another element. -/
theorem insertLoop_next {r : Address} {c : ListElement α} (hcell : l.heap q = some ⟨some r, b⟩)
    (hafter : l.heap r = some c) (rounds : Nat) :
    insertLoop a key (rounds + 1) (some q) l =
      if key < c.content.1 then (do
        let l ← l.setNext (some a) (some r)
        l.setNext (some q) (some a))
      else insertLoop a key rounds (some r) l := by
  simp only [insertLoop, element_eq hcell, element_eq hafter, bind, Except.bind, reduceCtorEq,
    if_false]

/-- The loop finds the place behind all elements whose keys are not greater. -/
theorem HoldsNew.insertLoop {rounds : Nat} (h : l.HoldsNew (xs ++ (q, b) :: ys) a (key, item))
    (hbefore : ∀ x ∈ xs ++ [(q, b)], x.2.1 ≤ key) (hrounds : ys.length < rounds) :
    ∃ l' before after, insertLoop a key rounds (some q) l = .ok l' ∧
      before ++ after = xs ++ (q, b) :: ys ∧ l'.Holds (before ++ (a, key, item) :: after) ∧
      (∀ x ∈ before, x.2.1 ≤ key) ∧ ∀ x ∈ after.head?, key < x.2.1 := by
  induction rounds generalizing xs q b ys with
  | zero => exact absurd hrounds (Nat.not_lt_zero _)
  | succ rounds ih =>
      obtain ⟨next, hcell, hrest⟩ := h.chain.split
      cases hrest with
      | nil =>
          obtain ⟨l', hlink, hholds⟩ := h.linkLast
          exact ⟨l', xs ++ [(q, b)], [], (insertLoop_last hcell rounds).trans hlink,
            List.append_nil _, hholds, hbefore, by simp⟩
      | @cons r next c rest hafter _ =>
          rw [insertLoop_next hcell hafter]
          by_cases hlt : key < c.1
          · obtain ⟨l₁, l', hfirst, hsecond, hholds⟩ := h.linkBetween hcell
            refine ⟨l', xs ++ [(q, b)], (r, c) :: rest, ?_, by simp, ?_, hbefore, ?_⟩
            · rw [if_pos hlt, hfirst]
              exact hsecond
            · rw [List.append_assoc]
              exact hholds
            · intro x hx
              obtain rfl := Option.some.inj hx
              exact hlt
          · have hsame : xs ++ (q, b) :: (r, c) :: rest = (xs ++ [(q, b)]) ++ (r, c) :: rest := by
              simp
            rw [hsame] at h
            have hlow : ∀ x ∈ (xs ++ [(q, b)]) ++ [(r, c)], x.2.1 ≤ key := by
              intro x hx
              rcases List.mem_append.mp hx with hold | hnew
              · exact hbefore x hold
              · obtain rfl := List.mem_singleton.mp hnew
                exact Int.not_lt.mp hlt
            obtain ⟨l', before, after, hloop, hparts, hholds, hbefore', hafter'⟩ :=
              ih h hlow (by rw [List.length_cons] at hrounds; omega)
            exact ⟨l', before, after, (if_neg hlt).trans hloop, hparts.trans hsame.symm, hholds,
              hbefore', hafter'⟩

theorem HoldsNew.first (h : l.HoldsNew xs a e) : l.first = none ↔ xs = [] := by
  rw [h.chain.head]
  simp

theorem Holds.append (h : l.Holds xs) (hfree : l.heap a = none) (item : Option α) :
    ∃ l', l.append item a = .ok l' ∧ l'.Holds (xs ++ [(a, 0, item)]) := by
  obtain ⟨l₁, hallocate, hnew⟩ := h.allocate hfree item 0
  unfold LinkedList.append
  rw [hallocate]
  rcases List.eq_nil_or_concat' xs with rfl | ⟨before, x, rfl⟩
  · exact ⟨_, if_pos (hnew.first.mpr rfl), hnew.linkOnly⟩
  · obtain ⟨l', hlink, hholds⟩ := hnew.linkLast
    exact ⟨l', (if_neg (mt hnew.first.mp (by simp))).trans hlink, hholds⟩

theorem Holds.prepend (h : l.Holds xs) (hfree : l.heap a = none) (item : Option α) :
    ∃ l', l.prepend item a = .ok l' ∧ l'.Holds ((a, 0, item) :: xs) := by
  obtain ⟨l₁, hallocate, hnew⟩ := h.allocate hfree item 0
  unfold LinkedList.prepend
  rw [hallocate]
  by_cases hxs : xs = []
  · subst hxs
    exact ⟨_, if_pos (hnew.first.mpr rfl), hnew.linkOnly⟩
  · obtain ⟨l', hlink, hholds⟩ := hnew.linkFirst hxs
    exact ⟨l', (if_neg (mt hnew.first.mp hxs)).trans hlink, hholds⟩

/-- `SortedInsert` puts an element behind those whose keys are not greater, and before one whose key
is greater. -/
theorem Holds.sortedInsert (h : l.Holds xs) (hfree : l.heap a = none) (item : Option α) (key : Int) :
    ∃ l' before after, l.sortedInsert item key a = .ok l' ∧ before ++ after = xs ∧
      l'.Holds (before ++ (a, key, item) :: after) ∧ (∀ x ∈ before, x.2.1 ≤ key) ∧
      ∀ x ∈ after.head?, key < x.2.1 := by
  obtain ⟨l₁, hallocate, hnew⟩ := h.allocate hfree item key
  unfold LinkedList.sortedInsert
  rw [hallocate]
  cases xs with
  | nil => exact ⟨_, [], [], if_pos (hnew.first.mpr rfl), rfl, hnew.linkOnly, by simp, by simp⟩
  | cons x rest =>
      obtain ⟨q, c⟩ := x
      have hfirst : l₁.first = some q := hnew.chain.head
      obtain ⟨next, hcell, -⟩ := hnew.chain.cell
      have hcode : (if l₁.first = none then .ok (l₁.linkOnly a) else (do
          let (_, head) ← l₁.element l₁.first
          if key < head.content.1 then l₁.linkFirst a
          else LinkedList.insertLoop a key l₁.used l₁.first l₁)) =
            if key < c.1 then l₁.linkFirst a
            else LinkedList.insertLoop a key l₁.used (some q) l₁ := by
        rw [hfirst, if_neg (by simp), element_eq hcell]
        rfl
      by_cases hlt : key < c.1
      · obtain ⟨l', hlink, hholds⟩ := hnew.linkFirst (by simp)
        refine ⟨l', [], (q, c) :: rest, ?_, rfl, hholds, by simp, ?_⟩
        · exact hcode.trans ((if_pos hlt).trans hlink)
        · intro x hx
          obtain rfl := Option.some.inj hx
          exact hlt
      · have hlow : ∀ x ∈ ([] : List (Address × Int × Option α)) ++ [(q, c)], x.2.1 ≤ key := by
          intro x hx
          obtain rfl := List.mem_singleton.mp hx
          exact Int.not_lt.mp hlt
        have hrounds : rest.length < l₁.used := by
          rw [hnew.used, List.length_cons]
          omega
        rw [← List.nil_append ((q, c) :: rest)] at hnew
        obtain ⟨l', before, after, hloop, hparts, hholds, hbefore, hafter⟩ :=
          hnew.insertLoop hlow hrounds
        exact ⟨l', before, after, hcode.trans ((if_neg hlt).trans hloop), hparts, hholds, hbefore,
          hafter⟩

/-- `SortedRemove` takes the first element off. -/
theorem Holds.sortedRemove (h : l.Holds ((a, e) :: xs)) :
    ∃ l', l.sortedRemove = .ok ((e.2, some e.1), l') ∧ l'.Holds xs := by
  have hfirst : l.first = some a := h.chain.head
  obtain ⟨next, hcell, hrest⟩ := h.chain.cell
  obtain ⟨hnotMem, -⟩ := List.nodup_cons.mp h.chain.nodup
  have hlast : l.first = l.last ↔ xs = [] := by
    rw [hfirst, h.last]
    constructor
    · intro heq
      by_contra hne
      rw [List.getLast?_cons_of_ne_nil hne, List.getLast?_eq_some_getLast hne] at heq
      have hmem := List.mem_map_of_mem (f := Prod.fst) (List.getLast_mem hne)
      rw [← Option.some.inj heq] at hmem
      exact hnotMem hmem
    · rintro rfl
      rfl
  unfold LinkedList.sortedRemove
  rw [hfirst, if_neg (by simp), element_eq hcell, ← hfirst]
  refine ⟨_, rfl, ?_⟩
  have hheap : Chain (Function.update l.heap a none) next xs := by
    refine hrest.congr fun d hd => Function.update_of_ne ?_ _ _
    rintro rfl
    exact hnotMem hd
  by_cases hxs : xs = []
  · subst hxs
    rw [if_pos (hlast.mpr rfl)]
    exact ⟨.nil, rfl, by show l.used - 1 = 0; rw [h.used]; rfl⟩
  · rw [if_neg (mt hlast.mp hxs)]
    refine ⟨hheap, ?_, by show l.used - 1 = _; rw [h.used]; rfl⟩
    show l.last = _
    rw [h.last, List.getLast?_cons_of_ne_nil hxs]

end Links

section Sequences

variable {l l' : LinkedList α} {call : Call α} {calls : List (Call α)}
  {answers : List (Answer α)} {S S' : List (Int × Option α)} {key : Int} {item : Option α}

/-- The address at which a call has its new element. -/
def Call.element : Call α → Option Address
  | .append _ a | .prepend _ a | .sortedInsert _ _ a => some a
  | .remove | .sortedRemove => none

/-- `new` hands out an address that is free. -/
def Call.Fresh (l : LinkedList α) (call : Call α) : Prop := ∀ a ∈ call.element, l.heap a = none

/-- The links are in order: both ends are null or none is, the way from `first` meets each element
once and comes to the null pointer, and `last` is the last element on it. -/
structure WellFormed (l : LinkedList α) : Prop where
  ends : l.first = none ↔ l.last = none
  chain : Chain l.heap l.first l.elements
  once : (l.elements.map Prod.fst).Nodup
  last : l.last = l.elements.getLast?.map Prod.fst
  next : ∀ a, l.last = some a → ∃ e : ListElement α, l.heap a = some e ∧ e.next = none

theorem Holds.wellFormed {xs : List (Address × Int × Option α)} (h : l.Holds xs) :
    l.WellFormed := by
  have hxs := h.elements
  constructor
  case ends =>
    rw [h.chain.head, h.last]
    simp
  case chain => exact hxs.symm ▸ h.chain
  case once => exact hxs.symm ▸ h.chain.nodup
  case last => exact hxs.symm ▸ h.last
  case next =>
    intro a ha
    rcases List.eq_nil_or_concat' xs with rfl | ⟨before, x, rfl⟩
    · rw [h.last] at ha
      simp at ha
    · obtain ⟨q, c⟩ := x
      rw [h.last, List.getLast?_concat] at ha
      obtain rfl := Option.some.inj ha
      obtain ⟨next, hcell, hrest⟩ := h.chain.split
      cases hrest
      exact ⟨_, hcell, rfl⟩

/-- What a call does. -/
theorem Holds.perform {xs : List (Address × Int × Option α)} (h : l.Holds xs)
    (hfresh : call.Fresh l) : ∃ answer l' ys, perform call l = .ok (answer, l') ∧ l'.Holds ys ∧
      Allows call (xs.map Prod.snd) answer (ys.map Prod.snd) := by
  have hremoveNone : xs = [] → l.sortedRemove = .ok ((none, none), l) := by
    rintro rfl
    exact if_pos h.chain.head
  cases call with
  | append item a =>
      obtain ⟨l', hcall, hholds⟩ := h.append (hfresh a rfl) item
      refine ⟨.done, l', _, by rw [LinkedList.perform, hcall]; rfl, hholds, ?_⟩
      rw [List.map_append]
      exact .append item a
  | prepend item a =>
      obtain ⟨l', hcall, hholds⟩ := h.prepend (hfresh a rfl) item
      exact ⟨.done, l', _, by rw [LinkedList.perform, hcall]; rfl, hholds, .prepend item a⟩
  | sortedInsert item key a =>
      obtain ⟨l', before, after, hcall, rfl, hholds, hbefore, hafter⟩ :=
        h.sortedInsert (hfresh a rfl) item key
      refine ⟨.done, l', _, by rw [LinkedList.perform, hcall]; rfl, hholds, ?_⟩
      rw [List.map_append, List.map_append]
      refine .sortedInsert item key a ?_ ?_
      · intro e he
        obtain ⟨x, hx, rfl⟩ := List.mem_map.mp he
        exact hbefore x hx
      · intro e he
        rw [List.head?_map] at he
        obtain ⟨x, hx, rfl⟩ := Option.map_eq_some_iff.mp he
        exact hafter x hx
  | remove =>
      cases xs with
      | nil => exact ⟨.item none, l, [], by rw [LinkedList.perform, hremoveNone rfl]; rfl, h, .removeNone⟩
      | cons x rest =>
          obtain ⟨a, key, item⟩ := x
          obtain ⟨l', hcall, hholds⟩ := h.sortedRemove
          exact ⟨.item item, l', rest, by rw [LinkedList.perform, hcall]; rfl, hholds, .remove key item⟩
  | sortedRemove =>
      cases xs with
      | nil =>
          exact ⟨.entry none none, l, [], by rw [LinkedList.perform, hremoveNone rfl]; rfl, h,
            .sortedRemoveNone⟩
      | cons x rest =>
          obtain ⟨a, key, item⟩ := x
          obtain ⟨l', hcall, hholds⟩ := h.sortedRemove
          exact ⟨.entry item (some key), l', rest, by rw [LinkedList.perform, hcall]; rfl, hholds,
            .sortedRemove key item⟩

/-- A call that is answered has been given a free address. -/
theorem fresh_of_perform {answer : Answer α} (h : perform call l = .ok (answer, l')) :
    call.Fresh l := by
  have hallocate : ∀ (a : Address) (item : Option α) (key : Int), l.heap a ≠ none →
      l.allocate a item key = .error .badAlloc := by
    intro a item key hused
    obtain ⟨e, he⟩ := Option.ne_none_iff_exists'.mp hused
    unfold allocate
    rw [he]
  intro a ha
  by_contra hused
  cases call with
  | append item b =>
      obtain rfl := Option.some.inj ha
      rw [perform, LinkedList.append, hallocate _ _ _ hused] at h
      exact absurd h (by simp [bind, Except.bind, Except.map])
  | prepend item b =>
      obtain rfl := Option.some.inj ha
      rw [perform, LinkedList.prepend, hallocate _ _ _ hused] at h
      exact absurd h (by simp [bind, Except.bind, Except.map])
  | sortedInsert item key b =>
      obtain rfl := Option.some.inj ha
      rw [perform, LinkedList.sortedInsert, hallocate _ _ _ hused] at h
      exact absurd h (by simp [bind, Except.bind, Except.map])
  | remove => simp [Call.element] at ha
  | sortedRemove => simp [Call.element] at ha

/-- The linked representation implements a sequence. -/
theorem implements_sequence :
    Implements Allows (fun l : LinkedList α => ∃ xs, l.Holds xs) contents perform := by
  rintro call l answer l' ⟨xs, h⟩ hperform
  obtain ⟨answer', l'', ys, hperform', hholds, hallowed⟩ := h.perform (fresh_of_perform hperform)
  obtain ⟨rfl, rfl⟩ := Prod.mk.inj (Except.ok.inj (hperform.symm.trans hperform'))
  refine ⟨⟨ys, hholds⟩, ?_⟩
  unfold contents
  rw [h.elements, hholds.elements]
  exact hallowed

/-- On a sorted sequence the new element comes behind all that have its key. -/
theorem Allows.sorted {a : Address} (h : Allows (.sortedInsert item key a) S .done S')
    (hsorted : S.Pairwise fun d e => d.1 ≤ e.1) :
    (S'.Pairwise fun d e => d.1 ≤ e.1) ∧ ∃ before after, S = before ++ after ∧
      S' = before ++ (key, item) :: after ∧ (∀ e ∈ before, e.1 ≤ key) ∧ ∀ e ∈ after, key < e.1 := by
  cases h with
  | @sortedInsert before after _ _ _ hbefore hafter =>
      obtain ⟨hfirst, hrest, hacross⟩ := List.pairwise_append.mp hsorted
      have hall : ∀ e ∈ after, key < e.1 := by
        cases after with
        | nil => simp
        | cons d after =>
            have hd := hafter d rfl
            intro e he
            rcases List.mem_cons.mp he with rfl | he
            · exact hd
            · exact Int.lt_of_lt_of_le hd ((List.pairwise_cons.mp hrest).1 e he)
      refine ⟨List.pairwise_append.mpr ⟨hfirst, ?_, ?_⟩, before, after, rfl, rfl, hbefore, hall⟩
      · exact List.pairwise_cons.mpr ⟨fun e he => Int.le_of_lt (hall e he), hrest⟩
      · intro d hd e he
        rcases List.mem_cons.mp he with rfl | he
        · exact hbefore d hd
        · exact hacross d hd e he

/-- A list behaves as a sequence of keys and items, with its links in order; no call fails that is
given a free address; and on a sorted list `SortedInsert` keeps the order. -/
theorem list_is_sequence {heap : CellHeap Address (Int × Option α)}
    (hrun : history perform calls (new heap) = .ok (answers, l)) :
    l.WellFormed ∧ Follows Allows [] calls answers l.contents ∧
      (∀ call : Call α, call.Fresh l → ∃ answer l', perform call l = .ok (answer, l')) ∧
      ∀ item key a l', perform (.sortedInsert item key a) l = .ok (.done, l') →
        (l.contents.Pairwise fun d e => d.1 ≤ e.1) →
        (l'.contents.Pairwise fun d e => d.1 ≤ e.1) ∧ ∃ before after,
          l.contents = before ++ after ∧ l'.contents = before ++ (key, item) :: after ∧
          (∀ e ∈ before, e.1 ≤ key) ∧ ∀ e ∈ after, key < e.1 := by
  obtain ⟨⟨xs, h⟩, hfollows⟩ := implements_sequence.history ⟨[], .nil, rfl, rfl⟩ hrun
  refine ⟨h.wellFormed, hfollows, fun call hfresh => ?_, fun item key a l' hcall hsorted => ?_⟩
  · obtain ⟨answer, l', ys, hperform, -⟩ := h.perform hfresh
    exact ⟨answer, l', hperform⟩
  · exact (implements_sequence _ _ _ _ ⟨xs, h⟩ hcall).2.sorted hsorted

/-- Elements with keys 5, 3 and 5, of which the first two are removed again. -/
theorem list_is_sequence_ties :
    ∃ answers l, history perform [.sortedInsert (some 0) 5 10, .sortedInsert (some 1) 3 11,
        .sortedInsert (some 2) 5 12, .sortedRemove, .sortedRemove]
        (new fun _ => none : LinkedList Nat) = .ok (answers, l) ∧
      answers = [.done, .done, .done, .entry (some 1) (some 3), .entry (some 0) (some 5)] ∧
      l.WellFormed := by
  have hanswers : ((history perform [.sortedInsert (some 0) 5 10, .sortedInsert (some 1) 3 11,
      .sortedInsert (some 2) 5 12, .sortedRemove, .sortedRemove]
      (new fun _ => none : LinkedList Nat)).toOption.map Prod.fst) =
        some [.done, .done, .done, .entry (some 1) (some 3), .entry (some 0) (some 5)] := by
    decide +kernel
  cases hrun : history perform [.sortedInsert (some 0) 5 10, .sortedInsert (some 1) 3 11,
      .sortedInsert (some 2) 5 12, .sortedRemove, .sortedRemove]
      (new fun _ => none : LinkedList Nat) with
  | error stop =>
      rw [hrun] at hanswers
      exact absurd hanswers (by simp [Except.toOption])
  | ok r =>
      obtain ⟨answers, l⟩ := r
      rw [hrun] at hanswers
      exact ⟨answers, l, rfl, Option.some.inj hanswers, (list_is_sequence hrun).1⟩

end Sequences

end LinkedList

end Threads
end Nachos
