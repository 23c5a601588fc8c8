import Mathlib.Data.List.Sort

/-!
# Agendas: items with a due time and a clock

An agenda holds items that are due at some time.  Items are put on it ahead of their
time, the clock runs on, and the item that is due first is taken off once its time
has come.  An item that was taken off may be put back; it then stands behind the
items with the same due time.

`Sound` says what an agenda is for: it is sorted, each item is on it or was taken off
once, in its time, and in the order of the due times.
-/

namespace Nachos
namespace Lib

variable {α : Type}

/-- Insert an item behind those that are due no later. -/
def insertDue (due : α → Nat) (a : α) (items : List α) : List α :=
  items.orderedInsert (fun b c => due b < due c) a

/-- Items stand in the order of their due times. -/
def DueOrder (due : α → Nat) (items : List α) : Prop :=
  items.Pairwise fun a b => due a ≤ due b

section Insert

variable {due : α → Nat} {a : α} {items : List α}

theorem insertDue_perm : (insertDue due a items).Perm (a :: items) :=
  List.perm_orderedInsert _ a items

theorem mem_insertDue {b : α} : b ∈ insertDue due a items ↔ b = a ∨ b ∈ items := by
  rw [insertDue_perm.mem_iff, List.mem_cons]

theorem DueOrder.insert (h : DueOrder due items) : DueOrder due (insertDue due a items) := by
  induction items with
  | nil => exact List.pairwise_singleton _ a
  | cons b items ih =>
      obtain ⟨hhead, htail⟩ := List.pairwise_cons.mp h
      unfold insertDue
      rw [List.orderedInsert]
      split
      · rename_i hlt
        refine List.pairwise_cons.mpr ⟨?_, h⟩
        intro c hc
        rcases List.mem_cons.mp hc with rfl | hc
        · omega
        · have := hhead c hc
          omega
      · rename_i hge
        refine List.pairwise_cons.mpr ⟨?_, ih htail⟩
        intro c hc
        rcases mem_insertDue.mp hc with rfl | hc
        · omega
        · exact hhead c hc

/-- The first item goes back to its place if and only if no other item has its due time. -/
theorem insertDue_first_iff (h : DueOrder due (a :: items)) :
    insertDue due a items = a :: items ↔ ∀ b ∈ items, due b = due a → b = a := by
  induction items with
  | nil => simp [insertDue]
  | cons b items ih =>
      obtain ⟨hhead, htail⟩ := List.pairwise_cons.mp h
      have hle := hhead b List.mem_cons_self
      unfold insertDue
      rw [List.orderedInsert]
      split
      · rename_i hlt
        refine iff_of_true rfl fun c hc heq => ?_
        have hge : due b ≤ due c := by
          rcases List.mem_cons.mp hc with rfl | hc
          · exact Nat.le_refl _
          · exact (List.pairwise_cons.mp htail).1 c hc
        omega
      · rename_i hge
        have hsame : due b = due a := by omega
        constructor
        · intro heq
          obtain ⟨rfl, hrest⟩ := List.cons.inj heq
          intro c hc hdue
          rcases List.mem_cons.mp hc with rfl | hc
          · rfl
          · exact (ih htail).mp hrest c hc hdue
        · intro hall
          obtain rfl := hall b List.mem_cons_self hsame
          refine congrArg (b :: ·) ((ih htail).mpr fun c hc => ?_)
          exact hall c (List.mem_cons_of_mem b hc)

/-- A new item comes behind those that are to come before it. -/
theorem pairwise_insertDue {R : α → α → Prop} (hall : items.Pairwise R) (hsorted : DueOrder due items)
    (hbefore : ∀ b ∈ items, R b a) (hafter : ∀ b ∈ items, due a < due b → R a b) :
    (insertDue due a items).Pairwise R := by
  induction items with
  | nil => exact List.pairwise_singleton _ a
  | cons b items ih =>
      obtain ⟨hhead, htail⟩ := List.pairwise_cons.mp hall
      obtain ⟨hfirst, hsorted'⟩ := List.pairwise_cons.mp hsorted
      unfold insertDue
      rw [List.orderedInsert]
      split
      · rename_i hlt
        refine List.pairwise_cons.mpr ⟨?_, hall⟩
        intro c hc
        refine hafter c hc ?_
        rcases List.mem_cons.mp hc with rfl | hc
        · exact hlt
        · exact Nat.lt_of_lt_of_le hlt (hfirst c hc)
      · refine List.pairwise_cons.mpr ⟨?_, ?_⟩
        · intro c hc
          rcases mem_insertDue.mp hc with rfl | hc
          · exact hbefore b List.mem_cons_self
          · exact hhead c hc
        · exact ih htail hsorted' (fun c hc => hbefore c (List.mem_cons_of_mem b hc))
            fun c hc => hafter c (List.mem_cons_of_mem b hc)

end Insert

/-- An agenda: the time, the items that wait, all items that were ever put on it, and
those that were taken off with the time at which that happened. -/
structure Agenda (α : Type) where
  now : Nat
  waiting : List α
  entered : List α
  done : List (α × Nat)

namespace Agenda

/-- What may happen to an agenda. -/
inductive Move (due : α → Nat) : Agenda α → Agenda α → Prop
  /-- An item is put on it ahead of its time. -/
  | enter {g : Agenda α} (a : α) (hdue : g.now < due a) (hnew : a ∉ g.entered) :
      Move due g { g with waiting := insertDue due a g.waiting, entered := g.entered ++ [a] }
  /-- The clock runs on. -/
  | pass {g : Agenda α} (ticks : Nat) : Move due g { g with now := g.now + ticks }
  /-- The first item has been looked at, and is put back. -/
  | putBack {g : Agenda α} {a : α} {rest : List α} (hfirst : g.waiting = a :: rest) :
      Move due g { g with waiting := insertDue due a rest }
  /-- The first item is taken off. -/
  | finish {g : Agenda α} {a : α} {rest : List α} (hfirst : g.waiting = a :: rest)
      (hdue : due a ≤ g.now) :
      Move due g { g with waiting := rest, done := g.done ++ [(a, g.now)] }

/-- Some moves. -/
abbrev Moves (due : α → Nat) : Agenda α → Agenda α → Prop :=
  Relation.ReflTransGen (Move due)

/-- What an agenda is for. -/
structure Sound (due : α → Nat) (g : Agenda α) : Prop where
  order : DueOrder due g.waiting
  /-- Items are told apart. -/
  nodup : g.entered.Nodup
  /-- Each item waits or was taken off, once. -/
  once : (g.waiting ++ g.done.map Prod.fst).Perm g.entered
  onTime : ∀ d ∈ g.done, due d.1 ≤ d.2 ∧ d.2 ≤ g.now
  inOrder : DueOrder due (g.done.map Prod.fst)
  /-- No item waits that should have come before one that was taken off. -/
  ahead : ∀ d ∈ g.done, ∀ a ∈ g.waiting, due d.1 ≤ due a

variable {due : α → Nat} {g g' : Agenda α}

theorem Move.sound (hmove : Move due g g') (h : g.Sound due) : g'.Sound due := by
  cases hmove with
  | enter a hdue hnew =>
      constructor
      case order => exact h.order.insert
      case nodup =>
        refine List.nodup_append.mpr ⟨h.nodup, List.nodup_singleton a, ?_⟩
        rintro b hb c hc rfl
        exact hnew (List.mem_singleton.mp hc ▸ hb)
      case once =>
        calc insertDue due a g.waiting ++ g.done.map Prod.fst
            |>.Perm (a :: (g.waiting ++ g.done.map Prod.fst)) :=
              insertDue_perm.append_right _
          _ |>.Perm (a :: g.entered) := h.once.cons a
          _ |>.Perm (g.entered ++ [a]) := (List.perm_append_singleton a g.entered).symm
      case onTime => exact h.onTime
      case inOrder => exact h.inOrder
      case ahead =>
        intro d hd b hb
        rcases mem_insertDue.mp hb with rfl | hb
        · obtain ⟨hearly, hpast⟩ := h.onTime d hd
          show due d.1 ≤ due b
          omega
        · exact h.ahead d hd b hb
  | pass ticks =>
      refine ⟨h.order, h.nodup, h.once, ?_, h.inOrder, h.ahead⟩
      intro d hd
      obtain ⟨hearly, hpast⟩ := h.onTime d hd
      exact ⟨hearly, Nat.le_add_right_of_le hpast⟩
  | @putBack a rest hfirst =>
      have horder := h.order
      rw [hfirst] at horder
      constructor
      case order => exact DueOrder.insert (List.pairwise_cons.mp horder).2
      case nodup => exact h.nodup
      case once =>
        have honce := h.once
        rw [hfirst] at honce
        exact (insertDue_perm.append_right _).trans honce
      case onTime => exact h.onTime
      case inOrder => exact h.inOrder
      case ahead =>
        intro d hd b hb
        refine h.ahead d hd b ?_
        rw [hfirst]
        exact List.mem_cons.mpr (mem_insertDue.mp hb)
  | @finish a rest hfirst hdue =>
      have horder := h.order
      rw [hfirst] at horder
      obtain ⟨hhead, htail⟩ := List.pairwise_cons.mp horder
      have hmem : a ∈ g.waiting := hfirst ▸ List.mem_cons_self
      have hdone : ∀ d ∈ g.done ++ [(a, g.now)], d ∈ g.done ∨ d = (a, g.now) := by
        intro d hd
        simpa using hd
      constructor
      case order => exact htail
      case nodup => exact h.nodup
      case once =>
        have honce := h.once
        rw [hfirst] at honce
        refine List.Perm.trans ?_ honce
        rw [List.map_append, ← List.append_assoc]
        exact List.perm_append_singleton a _
      case onTime =>
        intro d hd
        rcases hdone d hd with hold | rfl
        · exact h.onTime d hold
        · exact ⟨hdue, Nat.le_refl _⟩
      case inOrder =>
        rw [List.map_append]
        refine List.pairwise_append.mpr ⟨h.inOrder, List.pairwise_singleton _ _, ?_⟩
        intro b hb c hc
        obtain ⟨d, hd, rfl⟩ := List.mem_map.mp hb
        obtain rfl : c = a := by simpa using hc
        exact h.ahead d hd c hmem
      case ahead =>
        intro d hd b hb
        rcases hdone d hd with hold | rfl
        · exact h.ahead d hold b (hfirst ▸ List.mem_cons_of_mem a hb)
        · exact hhead b hb

theorem Moves.sound (hmoves : Moves due g g') (h : g.Sound due) : g'.Sound due := by
  induction hmoves with
  | refl => exact h
  | tail _ hmove ih => exact hmove.sound ih

theorem Move.now_le (hmove : Move due g g') : g.now ≤ g'.now := by
  cases hmove with
  | pass ticks => exact Nat.le_add_right _ _
  | _ => exact Nat.le_refl _

theorem Moves.now_le (hmoves : Moves due g g') : g.now ≤ g'.now := by
  induction hmoves with
  | refl => exact Nat.le_refl _
  | tail _ hmove ih => exact Nat.le_trans ih hmove.now_le

/-- Items with the same due time are taken off in the order in which they were put on. -/
structure Fair (due : α → Nat) (g : Agenda α) : Prop where
  order : DueOrder due g.waiting
  known : ∀ a ∈ g.done.map Prod.fst ++ g.waiting, a ∈ g.entered
  turns : (g.done.map Prod.fst ++ g.waiting).Pairwise fun a b =>
    due a = due b → [a, b].Sublist g.entered

/-- A new item has to wait for those that have its due time. -/
theorem Fair.enter (h : g.Fair due) (a : α) :
    Fair due { g with waiting := insertDue due a g.waiting, entered := g.entered ++ [a] } := by
  have hgrow : (g.done.map Prod.fst ++ g.waiting).Pairwise fun b c =>
      due b = due c → [b, c].Sublist (g.entered ++ [a]) :=
    h.turns.imp fun hturn heq => (hturn heq).trans (List.sublist_append_left _ _)
  have hbehind : ∀ b ∈ g.done.map Prod.fst ++ g.waiting, [b, a].Sublist (g.entered ++ [a]) :=
    fun b hb => (List.singleton_sublist.mpr (h.known b hb)).append (List.Sublist.refl [a])
  obtain ⟨hdone, hwaiting, hacross⟩ := List.pairwise_append.mp hgrow
  constructor
  case order => exact h.order.insert
  case known =>
    intro b hb
    rcases List.mem_append.mp hb with hold | hb
    · exact List.mem_append_left _ (h.known b (List.mem_append_left _ hold))
    · rcases mem_insertDue.mp hb with rfl | hold
      · exact List.mem_append_right _ (List.mem_singleton_self b)
      · exact List.mem_append_left _ (h.known b (List.mem_append_right _ hold))
  case turns =>
    refine List.pairwise_append.mpr ⟨hdone, ?_, ?_⟩
    · refine pairwise_insertDue hwaiting h.order ?_ ?_
      · exact fun b hb _ => hbehind b (List.mem_append_right _ hb)
      · exact fun b _ hlt heq => absurd heq (Nat.ne_of_lt hlt)
    · intro b hb c hc
      rcases mem_insertDue.mp hc with rfl | hold
      · exact fun _ => hbehind b (List.mem_append_left _ hb)
      · exact hacross b hb c hold

/-- Taking the first item off does not change the order. -/
theorem Fair.finish (h : g.Fair due) {a : α} {rest : List α} (hfirst : g.waiting = a :: rest)
    (now : Nat) : Fair due { g with waiting := rest, done := g.done ++ [(a, now)] } := by
  have hsame : (g.done ++ [(a, now)]).map Prod.fst ++ rest = g.done.map Prod.fst ++ g.waiting := by
    rw [hfirst, List.map_append, List.append_assoc]
    rfl
  constructor
  case order => exact (List.pairwise_cons.mp (hfirst ▸ h.order)).2
  case known =>
    intro b hb
    exact h.known b (hsame ▸ hb)
  case turns =>
    show ((g.done ++ [(a, now)]).map Prod.fst ++ rest).Pairwise _
    rw [hsame]
    exact h.turns

/-- When the first item is not due, none is. -/
theorem Sound.none_due (h : g.Sound due) {a : α} {rest : List α} (hfirst : g.waiting = a :: rest)
    (hlate : g.now < due a) : ∀ b ∈ g.waiting, g.now < due b := by
  intro b hb
  have horder := h.order
  rw [hfirst] at horder hb
  rcases List.mem_cons.mp hb with rfl | hb
  · exact hlate
  · exact Nat.lt_of_lt_of_le hlate ((List.pairwise_cons.mp horder).1 b hb)

end Agenda

end Lib
end Nachos
