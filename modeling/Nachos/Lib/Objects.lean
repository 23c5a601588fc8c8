/-!
# Objects

An object has a state and answers calls; a call may fail.  What an object is for is said by a
relation on the states of an abstract object: which answer a call may have, and the state behind it.

An object implements an abstract one through a view of its states if every answered call is allowed
there, for as long as an invariant holds, which every call keeps.  Then so is every history of calls.
-/

namespace Nachos
namespace Lib

section Objects

variable {Call Answer E S T : Type}

/-- The answers to some calls in a row, with the state behind them. -/
def history (perform : Call → S → Except E (Answer × S)) :
    List Call → S → Except E (List Answer × S)
  | [], s => .ok ([], s)
  | call :: calls, s =>
      match perform call s with
      | .error e => .error e
      | .ok (answer, s') =>
          match history perform calls s' with
          | .error e => .error e
          | .ok (answers, s'') => .ok (answer :: answers, s'')

/-- Answers to some calls in a row that the abstract object allows. -/
inductive Follows (allows : Call → T → Answer → T → Prop) : T → List Call → List Answer → T → Prop
  | nil (t : T) : Follows allows t [] [] t
  | cons {t u v : T} {call : Call} {answer : Answer} {calls : List Call} {answers : List Answer}
      (hfirst : allows call t answer u) (hrest : Follows allows u calls answers v) :
      Follows allows t (call :: calls) (answer :: answers) v

/-- Every answered call is allowed, and keeps the invariant. -/
def Implements (allows : Call → T → Answer → T → Prop) (inv : S → Prop) (view : S → T)
    (perform : Call → S → Except E (Answer × S)) : Prop :=
  ∀ call s answer s', inv s → perform call s = .ok (answer, s') →
    inv s' ∧ allows call (view s) answer (view s')

variable {allows : Call → T → Answer → T → Prop} {inv : S → Prop} {view : S → T}
  {perform : Call → S → Except E (Answer × S)} {calls : List Call} {answers : List Answer} {s s' : S}

/-- The parts of a history. -/
theorem history_cons {call : Call} (h : history perform (call :: calls) s = .ok (answers, s')) :
    ∃ answer answers' u, perform call s = .ok (answer, u) ∧
      history perform calls u = .ok (answers', s') ∧ answers = answer :: answers' := by
  rw [history] at h
  split at h
  · exact absurd h (by simp)
  · rename_i answer u hfirst
    split at h
    · exact absurd h (by simp)
    · rename_i answers' v hrest
      obtain ⟨rfl, rfl⟩ := Prod.mk.inj (Except.ok.inj h)
      exact ⟨answer, answers', u, hfirst, hrest, rfl⟩

theorem Implements.history (h : Implements allows inv view perform) (hs : inv s)
    (hrun : history perform calls s = .ok (answers, s')) :
    inv s' ∧ Follows allows (view s) calls answers (view s') := by
  induction calls generalizing s answers with
  | nil =>
      obtain ⟨rfl, rfl⟩ := Prod.mk.inj (Except.ok.inj hrun)
      exact ⟨hs, .nil _⟩
  | cons call calls ih =>
      obtain ⟨answer, answers', u, hfirst, hrest, rfl⟩ := history_cons hrun
      obtain ⟨hu, hallowed⟩ := h call s answer u hs hfirst
      obtain ⟨hs', hfollows⟩ := ih hu hrest
      exact ⟨hs', .cons hallowed hfollows⟩

/-- Calls that do not fail, one by one, do not fail in a row. -/
theorem Implements.exists_history (h : Implements allows inv view perform) (hs : inv s)
    (hcalls : ∀ call ∈ calls, ∀ u, inv u → ∃ answer u', perform call u = .ok (answer, u')) :
    ∃ answers s', Lib.history perform calls s = .ok (answers, s') := by
  induction calls generalizing s with
  | nil => exact ⟨[], s, rfl⟩
  | cons call calls ih =>
      obtain ⟨answer, u, hfirst⟩ := hcalls call List.mem_cons_self s hs
      have hu := (h call s answer u hs hfirst).1
      obtain ⟨answers, s', hrest⟩ := ih hu fun c hc => hcalls c (List.mem_cons_of_mem call hc)
      refine ⟨answer :: answers, s', ?_⟩
      rw [Lib.history, hfirst]
      simp only
      rw [hrest]

end Objects

end Lib
end Nachos
