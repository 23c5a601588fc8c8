import Mathlib.Algebra.BigOperators.Group.Finset.Basic
import Nachos.Lib.Extents

/-!
# A store of named files

A file system as its callers see it.  Names lead to arrays of bytes, each as long as it was
when it was created, and a file that was opened is read and written at a position.  The store
has room for so many files, and for so many blocks: a file takes one block, and those of its
bytes.

A file that is removed stays open for those who opened it, but then it is no longer a file of
the store: nothing is said about what they read, and they are not to write.
-/

namespace Nachos
namespace Lib

section Arrays

variable {B : Type} {content data data' : List B} {count position : Int} {p k : Nat}

/-- The part of an array that a request reads. -/
def portion (content : List B) (count position : Int) : List B :=
  if 0 ≤ position then (content.drop position.toNat).take count.toNat else []

/-- An array with `data` put at `p`, as far as it goes. -/
def splice (content data : List B) (p : Nat) : List B :=
  content.mapIdx fun k b => if p ≤ k then data.getD (k - p) b else b

/-- How much of a request to write is done. -/
def fits (content data : List B) (position : Int) : Nat :=
  if 0 ≤ position then min data.length (content.length - position.toNat) else 0

@[simp]
theorem splice_length : (splice content data p).length = content.length := List.length_mapIdx

theorem splice_getElem? :
    (splice content data p)[k]? =
      content[k]?.map fun b => if p ≤ k then data.getD (k - p) b else b :=
  List.getElem?_mapIdx

@[simp]
theorem splice_nil : splice content [] p = content := by
  apply List.ext_getElem?
  intro k
  rw [splice_getElem?]
  cases content[k]? with
  | none => rfl
  | some b => simp

theorem portion_length (hposition : 0 ≤ position) :
    (portion content count position).length =
      min count.toNat (content.length - position.toNat) := by
  rw [portion, if_pos hposition, List.length_take, List.length_drop]

end Arrays

section Requests

variable (N B : Type)

/-- What the store is asked for.  Files are numbered as they were opened. -/
inductive StoreCall
  | create (name : N) (size : Int)
  | openFile (name : N)
  | remove (name : N)
  | length (file : Nat)
  | seek (file : Nat) (position : Int)
  | read (file : Nat) (count : Int)
  | readAt (file : Nat) (count position : Int)
  | write (file : Nat) (data : List B)
  | writeAt (file : Nat) (data : List B) (position : Int)
  deriving DecidableEq

/-- What it answers. -/
inductive StoreAnswer
  | done (ok : Bool)
  | sought
  | data (bytes : List B)
  | count (n : Int)
  deriving DecidableEq

/-- What happens to the store: a call with its answer, or the store is started again. -/
inductive StoreEvent
  | call (call : StoreCall N B) (answer : StoreAnswer B)
  | restart
  deriving DecidableEq

end Requests

/-- A file that was opened: under which name, where it is read and written next, and whether
it is still the file of this name. -/
structure Grip (N : Type) where
  name : N
  position : Int
  live : Bool

/-- The store.  A file has the size that it was made with, and no bytes if that is negative. -/
structure FileStore (N B : Type) where
  names : Finset N
  size : N → Int
  content : N → List B
  opened : List (Grip N)

/-- What the store has room for. -/
structure Capacity where
  files : Nat
  blocks : Nat
  blockSize : Nat

/-- The blocks of a file of this size. -/
def Capacity.blocksOf (cap : Capacity) (size : Nat) : Nat :=
  1 + (size + cap.blockSize - 1) / cap.blockSize

namespace FileStore

variable {N B : Type}

/-- The store behind formatting. -/
def empty : FileStore N B := ⟨∅, fun _ => 0, fun _ => [], []⟩

/-- The store when it is started again: no file is open. -/
def restart (s : FileStore N B) : FileStore N B := { s with opened := [] }

/-- The blocks that are taken. -/
def taken (cap : Capacity) (s : FileStore N B) : Nat :=
  ∑ name ∈ s.names, cap.blocksOf (s.content name).length

/-- There is room for a file of this size. -/
def Room (cap : Capacity) (s : FileStore N B) (size : Nat) : Prop :=
  s.names.card < cap.files ∧ s.taken cap + cap.blocksOf size ≤ cap.blocks

/-- Set the position of an open file. -/
def move (s : FileStore N B) (n : Nat) (position : Int) : FileStore N B :=
  { s with opened := s.opened.modify n fun g => { g with position := position } }

variable [DecidableEq N]

/-- A new file. -/
def insert (s : FileStore N B) (name : N) (size : Int) (bytes : List B) : FileStore N B :=
  { s with
    names := Insert.insert name s.names
    size := Function.update s.size name size
    content := Function.update s.content name bytes }

/-- A file is removed. -/
def erase (s : FileStore N B) (name : N) : FileStore N B :=
  { s with
    names := s.names.erase name
    opened := s.opened.map fun g => if g.name = name then { g with live := false } else g }

/-- Bytes of a file are replaced. -/
def put (s : FileStore N B) (name : N) (data : List B) (position : Int) : FileStore N B :=
  { s with
    content := Function.update s.content name
      (if 0 ≤ position then splice (s.content name) data position.toNat else s.content name) }

section Contents

variable {s : FileStore N B} {name other : N} {size : Int} {bytes data : List B}

theorem mem_insert : other ∈ (s.insert name size bytes).names ↔ other = name ∨ other ∈ s.names :=
  Finset.mem_insert

@[simp]
theorem insert_content : (s.insert name size bytes).content name = bytes := Function.update_self ..

theorem insert_content_of_ne (h : other ≠ name) :
    (s.insert name size bytes).content other = s.content other := Function.update_of_ne h ..

/-- A file whose bytes are all replaced is one of the new bytes. -/
theorem insert_put (h : data.length = bytes.length) :
    (s.insert name size bytes).put name data 0 = s.insert name size data := by
  have hall : splice bytes data 0 = data := by
    apply List.ext_getElem?
    intro k
    rw [splice_getElem?]
    by_cases hk : k < bytes.length
    · rw [List.getElem?_eq_getElem hk, Option.map_some, if_pos (Nat.zero_le k), Nat.sub_zero,
        List.getD_eq_getElem?_getD, List.getElem?_eq_getElem (h ▸ hk), Option.getD_some]
    · rw [List.getElem?_eq_none (by omega), List.getElem?_eq_none (by omega), Option.map_none]
  unfold put
  rw [insert_content, if_pos (Int.le_refl 0), Int.toNat_zero, hall]
  unfold insert
  rw [Function.update_idem]

end Contents

/-- What the store does. -/
inductive Does (cap : Capacity) (s : FileStore N B) :
    StoreCall N B → StoreAnswer B → FileStore N B → Prop
  | created {name size bytes} (hnew : name ∉ s.names) (hroom : s.Room cap size.toNat)
      (hsize : bytes.length = size.toNat) :
      Does cap s (.create name size) (.done true) (s.insert name size bytes)
  | refused {name size} (h : name ∈ s.names ∨ ¬ s.Room cap size.toNat) :
      Does cap s (.create name size) (.done false) s
  | opened {name} (h : name ∈ s.names) :
      Does cap s (.openFile name) (.done true) { s with opened := s.opened ++ [⟨name, 0, true⟩] }
  | missing {name} (h : name ∉ s.names) : Does cap s (.openFile name) (.done false) s
  | removed {name} (h : name ∈ s.names) : Does cap s (.remove name) (.done true) (s.erase name)
  | unknown {name} (h : name ∉ s.names) : Does cap s (.remove name) (.done false) s
  | length {n g size} (hn : s.opened[n]? = some g) (hsize : g.live = true → size = s.size g.name) :
      Does cap s (.length n) (.count size) s
  | sought {n g position} (hn : s.opened[n]? = some g) :
      Does cap s (.seek n position) .sought (s.move n position)
  | read {n g count bytes} (hn : s.opened[n]? = some g)
      (hbytes : g.live = true → bytes = portion (s.content g.name) count g.position) :
      Does cap s (.read n count) (.data bytes) (s.move n (g.position + bytes.length))
  | readAt {n g count position bytes} (hn : s.opened[n]? = some g)
      (hbytes : g.live = true → bytes = portion (s.content g.name) count position) :
      Does cap s (.readAt n count position) (.data bytes) s
  | write {n g data} (hn : s.opened[n]? = some g) (hlive : g.live = true) :
      Does cap s (.write n data) (.count (fits (s.content g.name) data g.position))
        ((s.put g.name data g.position).move n
          (g.position + fits (s.content g.name) data g.position))
  | writeAt {n g data position} (hn : s.opened[n]? = some g) (hlive : g.live = true) :
      Does cap s (.writeAt n data position) (.count (fits (s.content g.name) data position))
        (s.put g.name data position)

/-- What happens to the store. -/
inductive Step (cap : Capacity) (s : FileStore N B) : StoreEvent N B → FileStore N B → Prop
  | call {call answer t} (h : s.Does cap call answer t) : Step cap s (.call call answer) t
  | restart : Step cap s .restart s.restart

end FileStore

end Lib
end Nachos
