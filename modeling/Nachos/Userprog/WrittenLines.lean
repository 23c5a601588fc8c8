import Nachos.Lib.Traces
import Nachos.Userprog.SynchOutput

/-!
# Every line gets written

When nobody calls `WriteLine` any more, the threads that are in it and the interrupts of the
display make only so many steps, whoever comes next; and while a thread is in it, the owner of
the lock can go on, or an interrupt is on its way.  So every call returns and every line is on
the display.
-/

namespace Nachos
namespace Userprog

open Hardware Lib Threads

namespace SynchOutput

section Progress

/-- The steps to the end of the character. -/
def stepsLeft (value : Int) : WriterPoint → Nat
  | .looping => 1
  | .checking => if value = 0 then 4 else 2
  | .asleep => 3
  | _ => 0

/-- Where the owner of the lock is on its way from one character to the next. -/
def phase (s : SynchOutput) : Nat :=
  (s.outputMutex.owner.map fun t => stepsLeft s.outputDone.value (s.writer t).point).getD 0

/-- The steps that are left at most, if nobody calls. -/
def work (s : SynchOutput) : Nat :=
  4 * (s.inside.map fun t => (s.writer t).size.toNat).sum + 2 * s.inside.length + s.phase

/-- No call begins with the step. -/
def Continues : OutputLabel → Prop
  | .writeLine _ _ _ => False
  | _ => True

instance continuesDecidable (label : OutputLabel) : Decidable (Continues label) :=
  match label with
  | .writeLine _ _ _ => isFalse id
  | .goOn _ => isTrue trivial
  | .writeDone => isTrue trivial

/-- The loop of a call with a size that is not negative does not pass zero. -/
def Sized (s : SynchOutput) : Prop := ∀ t, 0 ≤ (s.call t).size → 0 ≤ (s.writer t).size

variable {s s' : SynchOutput} {t : ThreadId}

theorem Sized.move (h : s.Sized) (point : WriterPoint) (t : ThreadId) : (s.move t point).Sized := by
  intro u hu
  rw [move_call] at hu
  have hsize : ((s.move t point).writer u).size = (s.writer u).size := by
    by_cases hut : u = t
    · subst hut
      simp [SynchOutput.move]
    · simp [SynchOutput.move, hut]
  rw [hsize]
  exact h u hu

theorem Sized.enter (h : s.Sized) (t : ThreadId) (line : Memory) (size : Int) :
    (s.enter t line size).Sized := by
  intro u hu
  by_cases hut : u = t
  · subst hut
    simpa [SynchOutput.enter, call] using hu
  · simp only [SynchOutput.enter, call, Function.update_of_ne hut] at hu ⊢
    exact h u hu

theorem Sized.step (h : s.Sized) {label : OutputLabel} (hstep : step label s = .ok s') :
    s'.Sized := by
  cases label with
  | writeLine t line size =>
      have henter := h.enter t line size
      have hcall : s.writeLine t line size = .ok s' := hstep
      unfold SynchOutput.writeLine at hcall
      split at hcall
      · simp at hcall
      · split at hcall
        · exact Except.ok.inj hcall ▸ henter.move _ _
        · split at hcall
          · obtain rfl := Except.ok.inj hcall
            exact Sized.move (s := { s.enter t line size with outputMutex := _ }) henter _ _
          · obtain rfl := Except.ok.inj hcall
            exact Sized.move (s := { s.enter t line size with outputMutex := _ }) henter _ _
  | goOn t =>
      rcases goOn_cases hstep with ⟨-, hsize, hput⟩ | ⟨-, -, rfl⟩ | ⟨-, rfl⟩
      · obtain ⟨console, rfl⟩ := putChar_ok hput
        -- What is added to `written` is taken off `size`.
        intro u hu
        by_cases hut : u = t
        · subst hut
          simp only [call, Function.update_self] at hu ⊢
          have hold := h u (by simp only [call]; push_cast at hu; omega)
          omega
        · simp only [call, Function.update_of_ne hut] at hu ⊢
          exact h u hu
      · have hleft : ({ s with returned := s.returned ++ [s.call t] }.move t .outside).Sized :=
          Sized.move (s := { s with returned := _ }) h _ _
        unfold SynchOutput.finish
        simp only
        split
        · split
          · exact hleft
          · exact Sized.move (s := { SynchOutput.move t .outside
              { s with returned := _ } with outputMutex := _ }) hleft _ _
        · exact hleft
      · unfold SynchOutput.await
        split
        · exact Sized.move (s := { s with outputDone := _ }) h _ _
        · exact Sized.move (s := { s with outputDone := _ }) h _ _
  | writeDone =>
      rcases writeDone_cases hstep with ⟨-, ⟨-, rfl⟩ | ⟨next, rest, -, rfl⟩⟩
      · exact h
      · exact Sized.move (s := { s with console := _, outputDone := _ }) h _ _

/-- As long as somebody is in `WriteLine`, the owner of the lock or the interrupt goes on. -/
theorem InOrder.progress (h : s.InOrder) (hinside : s.inside ≠ []) :
    ∃ label s', Continues label ∧ SynchOutput.step label s = .ok s' := by
  cases howner : s.outputMutex.owner with
  | none => exact absurd (by simp [inside, howner, h.idle howner]) hinside
  | some t =>
      have hshake := h.handshake
      rw [howner] at hshake
      have hgoes : (s.writer t).point = .looping ∨ (s.writer t).point = .checking →
          ∃ label s', Continues label ∧ SynchOutput.step label s = .ok s' := by
        intro hpoint
        rcases h.goOn t with ⟨s', hok, -⟩ | ⟨-, hother⟩ | ⟨-, hother⟩
        · exact ⟨.goOn t, s', trivial, hok⟩
        · simp [hother] at hpoint
        · rcases hother with hother | hother
          · simp [hother] at hpoint
          · simp [hother] at hpoint
      cases hshake with
      | ready _ hpoint _ => exact hgoes (Or.inl hpoint)
      | sent _ hpoint _ => exact hgoes (Or.inr hpoint)
      | written _ hpoint _ => exact hgoes (Or.inr hpoint)
      | sleeps _ hpoint hdevice =>
          have hpending : s.console.pending ≠ 0 := by simp [hdevice.pending]
          obtain ⟨s', hs'⟩ : ∃ s', s.writeDone = .ok s' := by
            unfold SynchOutput.writeDone
            rw [if_neg hpending]
            split <;> exact ⟨_, rfl⟩
          exact ⟨.writeDone, s', trivial, hs'⟩

theorem work_lt_of_phase (hmutex : s'.outputMutex = s.outputMutex)
    (hsize : ∀ u, (s'.writer u).size = (s.writer u).size) (hphase : s'.phase < s.phase) :
    s'.work < s.work := by
  have hinside : s'.inside = s.inside := by rw [inside, inside, hmutex]
  unfold work
  simp only [hinside, hsize]
  omega

theorem phase_eq (howner : s.outputMutex.owner = some t) :
    s.phase = stepsLeft s.outputDone.value (s.writer t).point := by
  rw [phase, howner]
  rfl

theorem move_size (point : WriterPoint) (s : SynchOutput) (t u : ThreadId) :
    ((s.move t point).writer u).size = (s.writer u).size := by
  by_cases hu : u = t
  · subst hu
    simp [move]
  · simp [move, hu]

theorem InOrder.await_lt (h : s.InOrder) (hpoint : (s.writer t).point = .checking) :
    (s.await t).work < s.work := by
  have howner := h.owner_eq (t := t) (by simp [hpoint]) (by simp [hpoint])
  have hshake := h.handshake
  rw [howner] at hshake
  unfold SynchOutput.await
  cases hshake with
  | ready _ hother _ => simp [hpoint] at hother
  | sleeps _ hother _ => simp [hpoint] at hother
  | sent _ _ hdevice =>
      rw [hdevice.outputDone]
      refine work_lt_of_phase rfl (fun u => move_size _ _ _ _) ?_
      rw [phase_eq howner, hpoint, hdevice.outputDone]
      simp [phase, move, howner, stepsLeft]
  | written _ _ hdevice =>
      rw [hdevice.outputDone]
      refine work_lt_of_phase rfl (fun u => move_size _ _ _ _) ?_
      rw [phase_eq howner, hpoint, hdevice.outputDone]
      simp [phase, move, howner, stepsLeft]

theorem InOrder.writeDone_lt (h : s.InOrder) (hstep : s.writeDone = .ok s') : s'.work < s.work := by
  unfold SynchOutput.writeDone at hstep
  split at hstep
  case isTrue => exact absurd hstep (by simp)
  case isFalse hpending =>
  have hshake := h.handshake
  cases howner : s.outputMutex.owner with
  | none =>
      rw [howner] at hshake
      cases hshake with
      | free hdevice => exact absurd hdevice.pending hpending
  | some t =>
      rw [howner] at hshake
      cases hshake with
      | ready _ _ hdevice => exact absurd hdevice.pending hpending
      | written _ _ hdevice => exact absurd hdevice.pending hpending
      | sent _ hpoint hdevice =>
          rw [hdevice.outputDone] at hstep
          obtain rfl := Except.ok.inj hstep
          refine work_lt_of_phase rfl (fun _ => rfl) ?_
          rw [phase_eq howner, hpoint, hdevice.outputDone]
          simp [phase, howner, hpoint, stepsLeft]
      | sleeps _ hpoint hdevice =>
          rw [hdevice.outputDone] at hstep
          obtain rfl := Except.ok.inj hstep
          refine work_lt_of_phase rfl (fun u => move_size _ _ _ _) ?_
          rw [phase_eq howner, hpoint]
          simp [phase, move, howner, stepsLeft]

theorem InOrder.putChar_lt (h : s.InOrder) (hpoint : (s.writer t).point = .looping)
    (hpositive : 0 < (s.writer t).size) (hstep : s.putChar t = .ok s') : s'.work < s.work := by
  have howner := h.owner_eq (t := t) (by simp [hpoint]) (by simp [hpoint])
  have hnodup := h.nodup
  rw [inside_eq howner] at hnodup
  simp only [SynchOutput.putChar] at hstep
  split at hstep
  case h_1 => exact absurd hstep (by simp)
  case h_2 console hput =>
  obtain rfl := Except.ok.inj hstep
  have hrest : ∀ {w : Writer}, (s.outputMutex.waitingThreads.map fun u =>
      (Function.update s.writer t w u).size.toNat) =
        s.outputMutex.waitingThreads.map fun u => (s.writer u).size.toNat := by
    intro w
    refine List.map_congr_left fun u hu => ?_
    have hut : u ≠ t := fun heq => hnodup.notMem (heq ▸ hu)
    rw [Function.update_of_ne hut]
  unfold work
  rw [phase_eq howner, hpoint]
  simp only [inside, howner, Option.toList_some, List.cons_append, List.nil_append, List.map_cons,
    List.sum_cons, List.length_cons, hrest, Function.update_self, phase, Option.map_some,
    Option.getD_some, stepsLeft]
  split <;> omega

theorem InOrder.finish_lt (h : s.InOrder) (hpoint : (s.writer t).point = .looping)
    (hsize : (s.writer t).size = 0) : (s.finish t).work < s.work := by
  have howner := h.owner_eq (t := t) (by simp [hpoint]) (by simp [hpoint])
  have hnodup := h.nodup
  rw [inside_eq howner] at hnodup
  unfold work
  rw [phase_eq howner, hpoint, inside_eq howner]
  cases hwaiting : s.outputMutex.waitingThreads with
  | nil =>
      rw [finish_last howner hwaiting]
      simp only [inside, phase, Option.toList_none, List.nil_append, List.map_nil, List.sum_nil,
        List.length_nil, Option.map_none, Option.getD_none, List.length_cons]
      omega
  | cons next rest =>
      rw [hwaiting] at hnodup
      have hne : next ≠ t := fun heq => by simp [heq] at hnodup
      rw [finish_next howner hwaiting hne]
      have hrest : ∀ w w' : Writer, w'.size = (s.writer next).size →
          ((next :: rest).map fun u =>
            (Function.update (Function.update s.writer t w) next w' u).size.toNat) =
          (next :: rest).map fun u => (s.writer u).size.toNat := by
        intro w w' hw'
        refine List.map_congr_left fun u hu => ?_
        by_cases hun : u = next
        · subst hun
          rw [Function.update_self, hw']
        · have hut : u ≠ t := fun heq => hnodup.notMem (heq ▸ hu)
          rw [Function.update_of_ne hun, Function.update_of_ne hut]
      have hsum : ∀ w w' : Writer, w'.size = (s.writer next).size →
          (((next :: rest).map fun u =>
            (Function.update (Function.update s.writer t w) next w' u).size.toNat)).sum =
          ((next :: rest).map fun u => (s.writer u).size.toNat).sum :=
        fun w w' hw' => congrArg List.sum (hrest w w' hw')
      simp only [inside, Option.toList_some, List.singleton_append, hsum, phase, Option.map_some,
        Option.getD_some, Function.update_self, stepsLeft]
      simp only [List.map_cons, List.sum_cons, List.length_cons]
      omega

/-- What a step of the owner or an interrupt leaves to do. -/
theorem InOrder.work_lt (h : s.InOrder) (hsized : ∀ t ∈ s.inside, 0 ≤ (s.writer t).size)
    {label : OutputLabel} (hgoes : Continues label) (hstep : SynchOutput.step label s = .ok s') :
    s'.work < s.work := by
  cases label with
  | writeLine t line size => exact absurd hgoes id
  | goOn t =>
      rcases goOn_cases hstep with ⟨hpoint, hsize, hput⟩ | ⟨hpoint, hsize, rfl⟩ | ⟨hpoint, rfl⟩
      · have howner := h.owner_eq (t := t) (by simp [hpoint]) (by simp [hpoint])
        have hnonneg := hsized t (by simp [inside_eq howner])
        exact h.putChar_lt hpoint (by omega) hput
      · exact h.finish_lt hpoint hsize
      · exact h.await_lt hpoint
  | writeDone => exact h.writeDone_lt hstep

end Progress

section Runs

variable {s t : SynchOutput} {labels : List OutputLabel}

theorem called_of_continues {label : OutputLabel} (h : s.InOrder) (hgoes : Continues label)
    (hstep : step label s = .ok t) : t.called = s.called := by
  cases label with
  | writeLine u line size => exact absurd hgoes id
  | goOn u =>
      rcases goOn_cases hstep with ⟨-, -, hput⟩ | ⟨hpoint, -, rfl⟩ | ⟨-, rfl⟩
      · obtain ⟨console, rfl⟩ := putChar_ok hput
        rfl
      · have howner := h.owner_eq (t := u) (by simp [hpoint]) (by simp [hpoint])
        exact (finish_frame howner).1
      · exact (await_frame u s).1
  | writeDone =>
      rcases writeDone_cases hstep with ⟨-, ⟨-, rfl⟩ | ⟨next, rest, -, rfl⟩⟩
      · rfl
      · rfl

/-- Steps in which nobody calls `WriteLine`. -/
def Goes (s : SynchOutput) (label : OutputLabel) (t : SynchOutput) : Prop :=
  Continues label ∧ step label s = .ok t

/-- From any state that is reached, if nobody calls `WriteLine` any more and no size is
negative, then at most `work` steps are left, in whatever order the threads and the interrupts
come, and when none is left every call has returned and every line is on the display. -/
theorem lines_written (hrun : Reach step (fun _ _ => True) construct s)
    (hsizes : ∀ c ∈ s.called, 0 ≤ c.size) (hrest : Traced Goes s labels t) :
    labels.length ≤ s.work ∧ ((∀ label u, ¬ Goes t label u) →
      t.returned = s.called ∧ t.console.writeFile = (s.called.map LineCall.bytes).flatten) := by
  have hsized : s.Sized :=
    hrun.invariant (P := Sized) (fun _ _ _ hu _ hstep => hu.step hstep) fun _ _ => Int.le_refl 0
  obtain ⟨⟨horder, -, hcalled⟩, hwork⟩ := hrest.bounded
    (P := fun u => u.InOrder ∧ u.Sized ∧ u.called = s.called) work (fun u label v hu hstep => by
      obtain ⟨horder, hsized', hcalled⟩ := hu
      obtain ⟨hgoes, hnext⟩ := hstep
      have hinside : ∀ w ∈ u.inside, 0 ≤ (u.writer w).size := by
        intro w hw
        refine hsized' w (hsizes (u.call w) ?_)
        rw [← hcalled, horder.called]
        exact List.mem_append_right _ (List.mem_map_of_mem hw)
      exact ⟨⟨horder.step hnext, hsized'.step hnext,
        (called_of_continues horder hgoes hnext).trans hcalled⟩, horder.work_lt hinside hgoes hnext⟩)
    ⟨inOrder_of_reach hrun, hsized, rfl⟩
  refine ⟨Nat.le_of_add_right_le hwork, fun hstuck => ?_⟩
  have hempty : t.inside = [] := by
    by_contra hne
    obtain ⟨label, u, hgoes, hstep⟩ := horder.progress hne
    exact hstuck label u ⟨hgoes, hstep⟩
  have hreturned : t.returned = s.called := by
    rw [← hcalled, horder.called, hempty, List.map_nil, List.append_nil]
  have howner : t.outputMutex.owner = none := by
    rw [← Option.toList_eq_nil_iff]
    exact (List.append_eq_nil_iff.mp hempty).1
  refine ⟨hreturned, ?_⟩
  rw [horder.file, howner, hreturned]
  simp

/-- The two lines to the end. -/
def restOfLines : List OutputLabel :=
  [.writeDone, .goOn 0, .goOn 0, .writeDone, .goOn 0, .goOn 0, .goOn 1, .goOn 1, .writeDone,
    .goOn 1, .goOn 1]

theorem lines_written_twoLines : ∃ s t, Reach step (fun _ _ => True) construct s ∧
    Traced Goes s restOfLines t ∧ s.work = 15 ∧ t.console.writeFile = [97, 98, 120] ∧
    restOfLines.length ≤ s.work ∧ ((∀ label u, ¬ Goes t label u) →
      t.returned = s.called ∧ t.console.writeFile = (s.called.map LineCall.bytes).flatten) := by
  have hreplay : (replay step (fun _ _ => true) twoLines construct).any (fun s =>
      (replay step (fun _ label => decide (Continues label)) restOfLines s).any fun t =>
        decide ((∀ c ∈ s.called, 0 ≤ c.size) ∧ s.work = 15 ∧
          t.console.writeFile = [97, 98, 120])) = true := by decide
  obtain ⟨s, hfirst, hany⟩ := (Option.any_eq_true _ _).mp hreplay
  obtain ⟨t, hlater, hcheck⟩ := (Option.any_eq_true _ _).mp hany
  obtain ⟨hsizes, hwork, hfile⟩ := of_decide_eq_true hcheck
  have hrun : Reach step (fun _ _ => True) construct s :=
    reach_of_replay (fun _ _ _ => trivial) _ hfirst
  have hrest : Traced Goes s restOfLines t :=
    traced_of_replay
      (fun _ _ h => of_decide_eq_true h) hlater
  exact ⟨s, t, hrun, hrest, hwork, hfile, lines_written hrun hsizes hrest⟩

end Runs

end SynchOutput

end Userprog
end Nachos
