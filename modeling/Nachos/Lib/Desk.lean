import Mathlib.Logic.Function.Basic

/-!
# A clerk at a desk

A clerk serves guests one by one, and they talk by means of one lock and one condition.
The clerk calls a guest and waits for it; the guest comes, hands something over, signals
and waits; the clerk serves it, signals and waits; the guest takes what it has been given,
signals and leaves.  At some desks the guest waits once more until the clerk lets it go.

Clerk and guest wait on the same condition, so that a signal could wake the wrong one.
`Stage` says who is in the queue at every stage of a round, and each move has a lemma that it
goes from stage to stage.  Where a move relies on a lock, the lemma has a hypothesis that the
other party is not at a point with that lock.

Guests are of any type.
-/

namespace Nachos
namespace Lib

/-- Where the clerk is. -/
inductive Clerk
  /-- Between two rounds. -/
  | away
  /-- It has called a guest, and has not got the lock of its desk. -/
  | calling
  /-- It has the lock. -/
  | opened
  /-- In its first wait. -/
  | expecting
  /-- It has the lock again. -/
  | serving
  /-- It has signalled the guest. -/
  | dismissing
  /-- In its second wait, and behind it. -/
  | parting
  | closing
  deriving DecidableEq, Repr

/-- Where somebody is with respect to a desk. -/
inductive Guest
  | outside
  /-- It has been called and has not noticed. -/
  | called
  | coming
  /-- It has signalled the clerk. -/
  | greeted
  /-- In its first wait, and behind it. -/
  | waiting
  | directed
  /-- It has signalled that it leaves, and means to wait once more. -/
  | thanking
  deriving DecidableEq, Repr

/-- A desk; in the queue of the condition, the clerk is `none`. -/
@[ext]
structure Desk (T : Type) where
  clerk : Clerk
  guest : T → Guest
  queue : List (Option T)

namespace Desk

variable {T : Type} {d : Desk T} {p : T} {lingers : Prop}

/-- Nobody but `p` is at the desk. -/
def Only (d : Desk T) (p : T) : Prop := ∀ q, d.guest q ≠ .outside → q = p

/-- Nobody is at the desk. -/
def Deserted (d : Desk T) : Prop := ∀ q, d.guest q = .outside

/-- The clerk is before its first wait, or in it. -/
def Expects (d : Desk T) : Prop :=
  ((d.clerk = .calling ∨ d.clerk = .opened) ∧ d.queue = []) ∨
    (d.clerk = .expecting ∧ d.queue = [none])

/-- The stages of a round; `lingers` says whether guests wait to be let go. -/
inductive Stage (lingers : Prop) (d : Desk T) : Prop
  /-- Nobody is there; the clerk can still be in its second wait, when its guest has gone. -/
  | alone (hclerk : d.clerk = .away ∨ d.clerk = .parting ∨ d.clerk = .closing)
      (hguest : d.Deserted) (hqueue : d.queue = [])
  /-- The clerk has called, and there was nobody to hear it. -/
  | vacant (hclerk : d.Expects) (hguest : d.Deserted)
  /-- A guest has been called. -/
  | coming (p : T) (hclerk : d.Expects) (hguest : d.Only p)
      (hat : d.guest p = .called ∨ (d.guest p = .coming ∧ d.clerk ≠ .calling))
  /-- The guest has handed over what it has. -/
  | served (p : T) (hclerk : d.clerk = .expecting ∨ d.clerk = .serving) (hguest : d.Only p)
      (hat : (d.guest p = .greeted ∧ d.queue = []) ∨
        (d.guest p = .waiting ∧ d.queue = [some p]))
  /-- The clerk has done with it. -/
  | told (p : T) (hclerk : (d.clerk = .dismissing ∧ d.queue = []) ∨
        (d.clerk = .parting ∧ d.queue = [none])) (hguest : d.Only p)
      (hat : d.guest p = .waiting ∨ d.guest p = .directed)
  /-- The guest is to wait until it is let go. -/
  | thanked (hlingers : lingers) (p : T) (hclerk : d.clerk = .parting ∨ d.clerk = .closing)
      (hguest : d.Only p) (hat : d.guest p = .thanking) (hqueue : d.queue = [])
  /-- The guest waits until it is let go. -/
  | lingered (hlingers : lingers) (p : T) (hclerk : d.clerk = .parting ∨ d.clerk = .closing)
      (hguest : d.Deserted) (hqueue : d.queue = [some p])

section Inversion

/-- The guest of a clerk that serves, or has been woken to serve. -/
theorem Stage.of_serving (h : d.Stage lingers)
    (hclerk : (d.clerk = .expecting ∧ none ∉ d.queue) ∨ d.clerk = .serving) :
    ∃ p, d.Only p ∧ ((d.guest p = .greeted ∧ d.queue = []) ∨
      (d.guest p = .waiting ∧ d.queue = [some p])) := by
  have hnot : ¬ d.Expects := by
    rintro (⟨hc | hc, -⟩ | ⟨hc, hqueue⟩)
    · simp [hc] at hclerk
    · simp [hc] at hclerk
    · simp [hc, hqueue] at hclerk
  cases h with
  | alone hc hguest hqueue =>
      rcases hc with hc | hc | hc
      all_goals simp [hc] at hclerk
  | vacant hc hguest => exact absurd hc hnot
  | coming p hc hguest hat => exact absurd hc hnot
  | served p hc hguest hat => exact ⟨p, hguest, hat⟩
  | told p hc hguest hat =>
      rcases hc with ⟨hc, -⟩ | ⟨hc, -⟩
      all_goals simp [hc] at hclerk
  | thanked hl p hc hguest hat hqueue =>
      rcases hc with hc | hc
      all_goals simp [hc] at hclerk
  | lingered hl p hc hguest hqueue =>
      rcases hc with hc | hc
      all_goals simp [hc] at hclerk

/-- A clerk between two rounds. -/
theorem Stage.of_away (h : d.Stage lingers) (hclerk : d.clerk = .away) :
    d.Deserted ∧ d.queue = [] := by
  cases h with
  | alone hc hguest hqueue => exact ⟨hguest, hqueue⟩
  | vacant hc hguest => simp [Expects, hclerk] at hc
  | coming p hc hguest hat => simp [Expects, hclerk] at hc
  | served p hc hguest hat => simp [hclerk] at hc
  | told p hc hguest hat => simp [hclerk] at hc
  | thanked hl p hc hguest hat hqueue => simp [hclerk] at hc
  | lingered hl p hc hguest hqueue => simp [hclerk] at hc

/-- A clerk that is done with its second wait. -/
theorem Stage.of_closing (h : d.Stage lingers) (hclerk : d.clerk = .closing) :
    (∃ p, d.guest p = .thanking) ∨
      (d.Deserted ∧ (d.queue = [] ∨ lingers ∧ ∃ p, d.queue = [some p])) := by
  cases h with
  | alone hc hguest hqueue => exact Or.inr ⟨hguest, Or.inl hqueue⟩
  | vacant hc hguest => simp [Expects, hclerk] at hc
  | coming p hc hguest hat => simp [Expects, hclerk] at hc
  | served p hc hguest hat => simp [hclerk] at hc
  | told p hc hguest hat => simp [hclerk] at hc
  | thanked hl p hc hguest hat hqueue => exact Or.inl ⟨p, hat⟩
  | lingered hl p hc hguest hqueue => exact Or.inr ⟨hguest, Or.inr ⟨hl, p, hqueue⟩⟩

/-- Somebody who is at the desk. -/
theorem Stage.of_guest (h : d.Stage lingers) (hp : d.guest p ≠ .outside) :
    d.Only p ∧
      ((d.Expects ∧ (d.guest p = .called ∨ (d.guest p = .coming ∧ d.clerk ≠ .calling))) ∨
        ((d.clerk = .expecting ∨ d.clerk = .serving) ∧
          ((d.guest p = .greeted ∧ d.queue = []) ∨ (d.guest p = .waiting ∧ d.queue = [some p]))) ∨
        (((d.clerk = .dismissing ∧ d.queue = []) ∨ (d.clerk = .parting ∧ d.queue = [none])) ∧
          (d.guest p = .waiting ∨ d.guest p = .directed)) ∨
        (lingers ∧ (d.clerk = .parting ∨ d.clerk = .closing) ∧ d.guest p = .thanking ∧
          d.queue = [])) := by
  cases h with
  | alone hc hguest hqueue => exact absurd (hguest p) hp
  | vacant hc hguest => exact absurd (hguest p) hp
  | coming q hc hguest hat =>
      obtain rfl := hguest p hp
      exact ⟨hguest, Or.inl ⟨hc, hat⟩⟩
  | served q hc hguest hat =>
      obtain rfl := hguest p hp
      exact ⟨hguest, Or.inr (Or.inl ⟨hc, hat⟩)⟩
  | told q hc hguest hat =>
      obtain rfl := hguest p hp
      exact ⟨hguest, Or.inr (Or.inr (Or.inl ⟨hc, hat⟩))⟩
  | thanked hl q hc hguest hat hqueue =>
      obtain rfl := hguest p hp
      exact ⟨hguest, Or.inr (Or.inr (Or.inr ⟨hl, hc, hat, hqueue⟩))⟩
  | lingered hl q hc hguest hqueue => exact absurd (hguest p) hp

/-- A guest that has been called. -/
theorem Stage.of_called (h : d.Stage lingers) (hat : d.guest p = .called) : d.Expects ∧ d.Only p := by
  obtain ⟨honly, hstage⟩ := h.of_guest (p := p) (by simp [hat])
  simp only [hat, reduceCtorEq, false_and, or_false, and_false] at hstage
  exact ⟨hstage.1, honly⟩

/-- A guest that comes. -/
theorem Stage.of_coming (h : d.Stage lingers) (hat : d.guest p = .coming) :
    ((d.clerk = .opened ∧ d.queue = []) ∨ (d.clerk = .expecting ∧ d.queue = [none])) ∧
      d.Only p := by
  obtain ⟨honly, hstage⟩ := h.of_guest (p := p) (by simp [hat])
  simp only [hat, reduceCtorEq, false_and, or_false, false_or, and_false, true_and] at hstage
  obtain ⟨hc, hcalling⟩ := hstage
  rcases hc with ⟨hc | hc, hqueue⟩ | hc
  · exact absurd hc hcalling
  · exact ⟨Or.inl ⟨hc, hqueue⟩, honly⟩
  · exact ⟨Or.inr hc, honly⟩

/-- A guest that has handed over what it has, and is not asleep. -/
theorem Stage.of_greeted (h : d.Stage lingers) (hat : d.guest p = .greeted) :
    (d.clerk = .expecting ∨ d.clerk = .serving) ∧ d.Only p ∧ d.queue = [] := by
  obtain ⟨honly, hstage⟩ := h.of_guest (p := p) (by simp [hat])
  simp only [hat, reduceCtorEq, false_and, or_false, false_or, and_false, true_and] at hstage
  exact ⟨hstage.1, honly, hstage.2⟩

/-- A guest that is woken from its first wait, or behind it. -/
theorem Stage.of_told (h : d.Stage lingers)
    (hat : (d.guest p = .waiting ∧ some p ∉ d.queue) ∨ d.guest p = .directed) :
    ((d.clerk = .dismissing ∧ d.queue = []) ∨ (d.clerk = .parting ∧ d.queue = [none])) ∧
      d.Only p := by
  rcases hat with ⟨hat, hnot⟩ | hat
  · obtain ⟨honly, hstage⟩ := h.of_guest (p := p) (by simp [hat])
    simp only [hat, reduceCtorEq, false_and, or_false, false_or, and_false, true_and,
      and_true] at hstage
    rcases hstage with ⟨-, hqueue⟩ | hclerk
    · exact absurd hnot (by simp [hqueue])
    · exact ⟨hclerk, honly⟩
  · obtain ⟨honly, hstage⟩ := h.of_guest (p := p) (by simp [hat])
    simp only [hat, reduceCtorEq, false_and, or_false, false_or, and_false, or_true,
      and_true] at hstage
    exact ⟨hstage, honly⟩

/-- A guest that has said that it leaves, and is not asleep. -/
theorem Stage.of_thanking (h : d.Stage lingers) (hat : d.guest p = .thanking) :
    lingers ∧ (d.clerk = .parting ∨ d.clerk = .closing) ∧ d.Only p ∧ d.queue = [] := by
  obtain ⟨honly, hstage⟩ := h.of_guest (p := p) (by simp [hat])
  simp only [hat, reduceCtorEq, false_and, or_false, false_or, and_false, true_and] at hstage
  obtain ⟨hlingers, hclerk, hqueue⟩ := hstage
  exact ⟨hlingers, hclerk, honly, hqueue⟩

end Inversion

section ClerkMoves

/-- The clerk calls, and nobody hears it. -/
theorem Stage.call (h : d.Stage lingers) (hclerk : d.clerk = .away) :
    Stage lingers ⟨.calling, d.guest, d.queue⟩ := by
  obtain ⟨hguest, hqueue⟩ := h.of_away hclerk
  exact .vacant (Or.inl ⟨Or.inl rfl, hqueue⟩) hguest

/-- The clerk gets the lock. -/
theorem Stage.open (h : d.Stage lingers) (hclerk : d.clerk = .calling) :
    Stage lingers ⟨.opened, d.guest, d.queue⟩ := by
  have hexpects : d.Expects → Expects ⟨.opened, d.guest, d.queue⟩ := by
    rintro (⟨-, hqueue⟩ | ⟨hc, -⟩)
    · exact Or.inl ⟨Or.inr rfl, hqueue⟩
    · simp [hclerk] at hc
  cases h with
  | alone hc hguest hqueue => simp [hclerk] at hc
  | vacant hc hguest => exact .vacant (hexpects hc) hguest
  | coming p hc hguest hat =>
      refine .coming p (hexpects hc) hguest (Or.inl ?_)
      rcases hat with hat | ⟨-, hat⟩
      · exact hat
      · exact absurd hclerk hat
  | served p hc hguest hat => simp [hclerk] at hc
  | told p hc hguest hat => simp [hclerk] at hc
  | thanked hl p hc hguest hat hqueue => simp [hclerk] at hc
  | lingered hl p hc hguest hqueue => simp [hclerk] at hc

/-- The clerk waits for its guest. -/
theorem Stage.await (h : d.Stage lingers) (hclerk : d.clerk = .opened) :
    Stage lingers ⟨.expecting, d.guest, d.queue ++ [none]⟩ := by
  have hexpects : d.Expects → Expects ⟨.expecting, d.guest, d.queue ++ [none]⟩ := by
    rintro (⟨-, hqueue⟩ | ⟨hc, -⟩)
    · exact Or.inr ⟨rfl, by simp [hqueue]⟩
    · simp [hclerk] at hc
  cases h with
  | alone hc hguest hqueue => simp [hclerk] at hc
  | vacant hc hguest => exact .vacant (hexpects hc) hguest
  | coming p hc hguest hat =>
      refine .coming p (hexpects hc) hguest ?_
      rcases hat with hat | ⟨hat, -⟩
      · exact Or.inl hat
      · exact Or.inr ⟨hat, by simp⟩
  | served p hc hguest hat => simp [hclerk] at hc
  | told p hc hguest hat => simp [hclerk] at hc
  | thanked hl p hc hguest hat hqueue => simp [hclerk] at hc
  | lingered hl p hc hguest hqueue => simp [hclerk] at hc

/-- The clerk is woken and serves. -/
theorem Stage.attend (h : d.Stage lingers) (hclerk : d.clerk = .expecting) (hwoken : none ∉ d.queue) :
    Stage lingers ⟨.serving, d.guest, d.queue⟩ := by
  obtain ⟨p, honly, hat⟩ := h.of_serving (Or.inl ⟨hclerk, hwoken⟩)
  exact .served p (Or.inr rfl) honly hat

/-- The clerk signals its guest, which is not at a point with the lock. -/
theorem Stage.dismiss (h : d.Stage lingers) (hclerk : d.clerk = .serving)
    (hlock : ∀ p, d.guest p ≠ .greeted) : Stage lingers ⟨.dismissing, d.guest, d.queue.tail⟩ := by
  obtain ⟨p, honly, hat⟩ := h.of_serving (Or.inr hclerk)
  rcases hat with ⟨hat, -⟩ | ⟨hat, hqueue⟩
  · exact absurd hat (hlock p)
  · exact .told p (Or.inl ⟨rfl, by simp [hqueue]⟩) honly (Or.inl hat)

/-- The clerk waits for its guest to leave. -/
theorem Stage.pause (h : d.Stage lingers) (hclerk : d.clerk = .dismissing) :
    Stage lingers ⟨.parting, d.guest, d.queue ++ [none]⟩ := by
  cases h with
  | alone hc hguest hqueue => simp [hclerk] at hc
  | vacant hc hguest => simp [Expects, hclerk] at hc
  | coming p hc hguest hat => simp [Expects, hclerk] at hc
  | served p hc hguest hat => simp [hclerk] at hc
  | told p hc hguest hat =>
      have hqueue : d.queue = [] := by simpa [hclerk] using hc
      exact .told p (Or.inr ⟨rfl, by simp [hqueue]⟩) hguest hat
  | thanked hl p hc hguest hat hqueue => simp [hclerk] at hc
  | lingered hl p hc hguest hqueue => simp [hclerk] at hc

/-- The clerk is woken from its second wait. -/
theorem Stage.finish (h : d.Stage lingers) (hclerk : d.clerk = .parting) (hwoken : none ∉ d.queue) :
    Stage lingers ⟨.closing, d.guest, d.queue⟩ := by
  cases h with
  | alone hc hguest hqueue => exact .alone (Or.inr (Or.inr rfl)) hguest hqueue
  | vacant hc hguest => simp [Expects, hclerk] at hc
  | coming p hc hguest hat => simp [Expects, hclerk] at hc
  | served p hc hguest hat => simp [hclerk] at hc
  | told p hc hguest hat =>
      have hqueue : d.queue = [none] := by simpa [hclerk] using hc
      exact absurd hwoken (by simp [hqueue])
  | thanked hl p hc hguest hat hqueue => exact .thanked hl p (Or.inr rfl) hguest hat hqueue
  | lingered hl p hc hguest hqueue => exact .lingered hl p (Or.inr rfl) hguest hqueue

/-- The clerk lets its guest go, if that one waits for it, and closes the desk.  The guest is
not at a point with the lock. -/
theorem Stage.close (h : d.Stage lingers) (hclerk : d.clerk = .closing)
    (hlock : ∀ p, d.guest p ≠ .thanking) : Stage lingers ⟨.away, d.guest, d.queue.tail⟩ := by
  rcases h.of_closing hclerk with ⟨p, hat⟩ | ⟨hguest, hqueue⟩
  · exact absurd hat (hlock p)
  · refine .alone (Or.inl rfl) hguest ?_
    rcases hqueue with hqueue | ⟨-, p, hqueue⟩
    all_goals simp [hqueue]

/-- The clerk closes a desk at which nobody waits to be let go. -/
theorem Stage.shut (h : d.Stage False) (hclerk : d.clerk = .closing) :
    Stage False ⟨.away, d.guest, d.queue⟩ := by
  rcases h.of_closing hclerk with ⟨p, hat⟩ | ⟨hguest, hqueue⟩
  · exact (h.of_thanking hat).1.elim
  · refine .alone (Or.inl rfl) hguest ?_
    rcases hqueue with hqueue | ⟨hl, -⟩
    · exact hqueue
    · exact hl.elim

end ClerkMoves

section GuestMoves

variable [DecidableEq T]

theorem Only.update {g : Guest} {c : Clerk} {queue : List (Option T)} (h : d.Only p) :
    Only ⟨c, Function.update d.guest p g, queue⟩ p := by
  intro q hq
  by_contra hne
  simp only [Function.update_of_ne hne] at hq
  exact hne (h q hq)

theorem Deserted.enter {g : Guest} {c : Clerk} {queue : List (Option T)} (h : d.Deserted) :
    Only ⟨c, Function.update d.guest p g, queue⟩ p := by
  intro q hq
  by_contra hne
  simp only [Function.update_of_ne hne] at hq
  exact hq (h q)

theorem Only.leave {c : Clerk} {queue : List (Option T)} (h : d.Only p) :
    Deserted ⟨c, Function.update d.guest p .outside, queue⟩ := by
  intro q
  show Function.update d.guest p .outside q = .outside
  by_cases hne : q = p
  · rw [hne, Function.update_self]
  · rw [Function.update_of_ne hne]
    by_contra hq
    exact hne (h q hq)

/-- The clerk calls a guest. -/
theorem Stage.call_guest (h : d.Stage lingers) (hclerk : d.clerk = .away) (p : T) :
    Stage lingers ⟨.calling, Function.update d.guest p .called, d.queue⟩ := by
  obtain ⟨hguest, hqueue⟩ := h.of_away hclerk
  refine .coming p (Or.inl ⟨Or.inl rfl, hqueue⟩) hguest.enter (Or.inl ?_)
  exact Function.update_self ..

/-- The guest notices that it has been called. -/
theorem Stage.rise (h : d.Stage lingers) (hat : d.guest p = .called) (hclerk : d.clerk ≠ .calling) :
    Stage lingers ⟨d.clerk, Function.update d.guest p .coming, d.queue⟩ := by
  obtain ⟨hexpects, honly⟩ := h.of_called hat
  refine .coming p hexpects honly.update (Or.inr ⟨?_, hclerk⟩)
  exact Function.update_self ..

/-- The guest signals the clerk, which is in its first wait and not at a point with the
lock. -/
theorem Stage.greet (h : d.Stage lingers) (hat : d.guest p = .coming) (hclerk : d.clerk ≠ .opened) :
    d.clerk = .expecting ∧
      Stage lingers ⟨d.clerk, Function.update d.guest p .greeted, d.queue.tail⟩ := by
  obtain ⟨hc, honly⟩ := h.of_coming hat
  rcases hc with ⟨hc, -⟩ | ⟨hc, hqueue⟩
  · exact absurd hc hclerk
  · refine ⟨hc, .served p (Or.inl hc) honly.update (Or.inl ⟨?_, by simp [hqueue]⟩)⟩
    exact Function.update_self ..

/-- The guest waits. -/
theorem Stage.rest (h : d.Stage lingers) (hat : d.guest p = .greeted) :
    Stage lingers ⟨d.clerk, Function.update d.guest p .waiting, d.queue ++ [some p]⟩ := by
  obtain ⟨hc, honly, hqueue⟩ := h.of_greeted hat
  refine .served p hc honly.update (Or.inr ⟨?_, by simp [hqueue]⟩)
  exact Function.update_self ..

/-- The guest is woken. -/
theorem Stage.wake (h : d.Stage lingers) (hat : d.guest p = .waiting) (hwoken : some p ∉ d.queue) :
    Stage lingers ⟨d.clerk, Function.update d.guest p .directed, d.queue⟩ := by
  obtain ⟨hc, honly⟩ := h.of_told (Or.inl ⟨hat, hwoken⟩)
  refine .told p hc honly.update (Or.inr ?_)
  exact Function.update_self ..

/-- The guest says that it leaves, and stays; the clerk is in its second wait. -/
theorem Stage.thank (h : d.Stage lingers) (hlingers : lingers) (hat : d.guest p = .directed)
    (hclerk : d.clerk ≠ .dismissing) :
    Stage lingers ⟨d.clerk, Function.update d.guest p .thanking, d.queue.tail⟩ := by
  obtain ⟨hc, honly⟩ := h.of_told (Or.inr hat)
  rcases hc with ⟨hc, -⟩ | ⟨hc, hqueue⟩
  · exact absurd hc hclerk
  · refine .thanked hlingers p (Or.inl hc) honly.update ?_ (by simp [hqueue])
    exact Function.update_self ..

/-- The guest says that it leaves, and does. -/
theorem Stage.leave (h : d.Stage lingers) (hat : d.guest p = .directed)
    (hclerk : d.clerk ≠ .dismissing) :
    Stage lingers ⟨d.clerk, Function.update d.guest p .outside, d.queue.tail⟩ := by
  obtain ⟨hc, honly⟩ := h.of_told (Or.inr hat)
  rcases hc with ⟨hc, -⟩ | ⟨hc, hqueue⟩
  · exact absurd hc hclerk
  · exact .alone (Or.inr (Or.inl hc)) honly.leave (by simp [hqueue])

/-- The guest waits to be let go. -/
theorem Stage.linger (h : d.Stage lingers) (hat : d.guest p = .thanking) :
    Stage lingers ⟨d.clerk, Function.update d.guest p .outside, d.queue ++ [some p]⟩ := by
  obtain ⟨hlingers, hc, honly, hqueue⟩ := h.of_thanking hat
  exact .lingered hlingers p hc honly.leave (by simp [hqueue])

end GuestMoves

end Desk

end Lib
end Nachos
