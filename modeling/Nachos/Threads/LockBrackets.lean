import Nachos.Lib.Phases
import Nachos.Threads.LockDiscipline

/-!
# Code that brackets a lock

A client brackets a lock when every program point of it runs either with the lock or
without it, and its calls of `Acquire`, `Release` and `Wait` change over from one to
the other.  `Bracketed` says the same of whole stacks; it is kept by every step, and
so a thread at a program point that runs with the lock is its owner.
-/

namespace Nachos
namespace Threads

open Lib

variable {κ σ ι : Type}

/-- The effect of a frame on the claim that its thread has to lock `l`.  The client's
program point `k` runs with the lock when `inside k`, and leaves it as `after k`. -/
def lockEffect (inside after : κ → Bool) (l : LockId) : Frame κ → Bool → Option Bool
  | .call (.lockAcquire l'), b => if l' = l then movePhase false true b else some b
  | .call (.lockRelease l'), b => if l' = l then movePhase true false b else some b
  | .call (.conditionWait _ (some l')), b => if l' = l then movePhase true true b else some b
  | .waitAppend _ l', b => if l' = l then movePhase false true b else some b
  | .waitReacquire _ l', b => if l' = l then movePhase false true b else some b
  | .call (.threadFork body), b => if inside body = false ∧ after body = false then some b else none
  | .client k, b => movePhase (inside k) (after k) b
  | _, b => some b

/-- What a client that brackets lock `l` asks for. -/
def Client.Brackets (client : Client κ σ ι) (inside after : κ → Bool) (l : LockId) : Prop :=
  ∀ input k s state rs, client.exec input k s = .ok (state, rs) →
    trace (lockEffect inside after l) (inside k) (rs.map Request.frame) = some (after k)

section Effects

variable {inside after : κ → Bool} {l : LockId} {frame : Frame κ} {gs : List (Frame κ)}
  {b q : Bool}

/-- A frame keeps the claim, changes it, or has no business with it. -/
theorem lockEffect_cases (inside after : κ → Bool) (l : LockId) (f : Frame κ) :
    lockEffect inside after l f = some ∨
      (∃ a c, lockEffect inside after l f = movePhase a c) ∨
      lockEffect inside after l f = fun _ => none := by
  have hif : ∀ (c : Prop) [Decidable c] (a d : Bool),
      (fun b => if c then movePhase a d b else some b) = some ∨
        ∃ a' d', (fun b => if c then movePhase a d b else some b) = movePhase a' d' := by
    intro c _ a d
    by_cases hc : c
    · exact Or.inr ⟨a, d, by simp [hc]⟩
    · exact Or.inl (by simp [hc])
  cases f with
  | call op =>
      cases op with
      | lockAcquire l' => exact (hif (l' = l) false true).imp_right Or.inl
      | lockRelease l' => exact (hif (l' = l) true false).imp_right Or.inl
      | conditionWait c conditionLock =>
          cases conditionLock with
          | none => exact Or.inl rfl
          | some l' => exact (hif (l' = l) true true).imp_right Or.inl
      | threadFork body =>
          by_cases hbody : inside body = false ∧ after body = false
          · refine Or.inl (funext fun b => ?_)
            exact if_pos hbody
          · refine Or.inr (Or.inr (funext fun b => ?_))
            exact if_neg hbody
      | _ => exact Or.inl rfl
  | waitAppend c l' => exact (hif (l' = l) false true).imp_right Or.inl
  | waitReacquire c l' => exact (hif (l' = l) false true).imp_right Or.inl
  | client k => exact Or.inr (Or.inl ⟨inside k, after k, rfl⟩)
  | _ => exact Or.inl rfl

/-- A frame can be run backwards. -/
theorem lockEffect_back (f : Frame κ) (p p' q : Bool) (h : lockEffect inside after l f p = some q)
    (h' : lockEffect inside after l f p' = some q) : p = p' := by
  rcases lockEffect_cases inside after l f with hkeep | ⟨a, c, hmove⟩ | hnone
  · rw [hkeep] at h h'
    exact (Option.some.inj h).trans (Option.some.inj h').symm
  · rw [hmove] at h h'
    exact (movePhase_eq_some.mp h).1.trans (movePhase_eq_some.mp h').1.symm
  · rw [hnone] at h
    exact absurd h (by simp)

/-- The claim behind the code at a frame. -/
def claimNext (l : LockId) (b : Bool) : Frame κ → Bool
  | .call (.lockAcquire l') => if l' = l then true else b
  | .call (.lockRelease l') => if l' = l then false else b
  | _ => b

/-- What the code at a frame pushes does the rest of what the frame does. -/
theorem trace_pushes {level : IntStatus} (hpushes : frame.Pushes level gs)
    (hclient : ∀ k, frame ≠ .client k)
    (heffect : lockEffect inside after l frame b = some q) :
    trace (lockEffect inside after l) (claimNext l b frame) gs = some q := by
  cases frame with
  | client k => exact absurd rfl (hclient k)
  | halt => exact absurd hpushes id
  | call op =>
      cases op with
      | lockAcquire l' =>
          have hq : claimNext l b (.call (.lockAcquire l') : Frame κ) = q := by
            simp only [lockEffect, claimNext] at heffect ⊢
            split at heffect
            · rename_i hl
              rw [if_pos hl]
              exact (movePhase_eq_some.mp heffect).2
            · rename_i hl
              rw [if_neg hl]
              exact Option.some.inj heffect
          rw [hq]
          rcases hpushes with rfl | rfl
          · rfl
          · rfl
      | lockRelease l' =>
          have hq : claimNext l b (.call (.lockRelease l') : Frame κ) = q := by
            simp only [lockEffect, claimNext] at heffect ⊢
            split at heffect
            · rename_i hl
              rw [if_pos hl]
              exact (movePhase_eq_some.mp heffect).2
            · rename_i hl
              rw [if_neg hl]
              exact Option.some.inj heffect
          rw [hq]
          rcases hpushes with rfl | rfl
          · rfl
          · rfl
      | conditionWait c conditionLock =>
          rcases hpushes with rfl | ⟨l', rfl, rfl⟩
          · cases conditionLock with
            | none => exact heffect
            | some l' =>
                simp only [lockEffect] at heffect
                split at heffect
                · obtain ⟨rfl, rfl⟩ := movePhase_eq_some.mp heffect
                  rfl
                · exact heffect
          · simp only [lockEffect] at heffect
            split at heffect
            · rename_i hl
              obtain ⟨rfl, rfl⟩ := movePhase_eq_some.mp heffect
              simp [trace, lockEffect, claimNext, hl]
            · rename_i hl
              obtain rfl := Option.some.inj heffect
              simp [trace, lockEffect, claimNext, hl]
      | threadFork body =>
          obtain rfl := hpushes
          simp only [lockEffect] at heffect
          split at heffect
          · exact heffect
          · exact absurd heffect (by simp)
      | threadYield =>
          rcases hpushes with rfl | rfl
          · exact heffect
          · exact heffect
      | _ =>
          obtain rfl := hpushes
          exact heffect
  | waitAppend c l' =>
      obtain rfl := hpushes
      simp only [lockEffect] at heffect
      simp only [trace, lockEffect, claimNext, heffect]
  | waitReacquire c l' =>
      obtain rfl := hpushes
      simp only [lockEffect] at heffect
      simp only [trace, lockEffect, claimNext, heffect]
  | setLevel now =>
      rcases hpushes with rfl | ⟨-, rfl⟩
      · exact heffect
      · exact heffect
  | oneTick =>
      rcases hpushes with rfl | ⟨m, rfl⟩
      · exact heffect
      · exact heffect
  | sleepLoop =>
      rcases hpushes with rfl | rfl
      · exact heffect
      · exact heffect
  | whileValueZero i =>
      rcases hpushes with rfl | rfl
      · exact heffect
      · exact heffect
  | broadcastLoop c conditionLock =>
      rcases hpushes with rfl | rfl
      · exact heffect
      · exact heffect
  | _ =>
      obtain rfl := hpushes
      exact heffect

end Effects

namespace Kernel

/-- The thread owns the lock or waits for it. -/
def claims (s : Kernel κ σ) (l : LockId) (t : ThreadId) : Bool :=
  decide ((s.lock l).owner = some t ∨ t ∈ (s.lock l).waitingThreads)

/-- Every thread goes on in the way that its claim to the lock asks for. -/
def Bracketed (inside after : κ → Bool) (l : LockId) (s : Kernel κ σ) : Prop :=
  ∀ t, trace (lockEffect inside after l) (s.claims l t) (s.stack t) = some false

section Steps

variable {client : Client κ σ ι} {choice : Choice ι} {s s' : Kernel κ σ} {frame : Frame κ}
  {rest gs : List (Frame κ)} {l : LockId} {inside after : κ → Bool} {t : ThreadId}

theorem claims_eq_true :
    s.claims l t = true ↔ (s.lock l).owner = some t ∨ t ∈ (s.lock l).waitingThreads :=
  decide_eq_true_iff

/-- Only `Acquire` and `Release` change whether their thread has a claim. -/
theorem StepAt.claims_same (hat : StepAt client choice s s' frame rest gs)
    (hinv : s.LockInvariant l)
    (hacquire : t = s.currentThread → frame ≠ .call (.lockAcquire l))
    (hrelease : t = s.currentThread → frame ≠ .call (.lockRelease l)) :
    s'.claims l t = s.claims l t := by
  rw [Bool.eq_iff_iff, claims_eq_true, claims_eq_true]
  constructor
  · intro h
    rcases hat.claimed h with hold | ⟨ht, hframe⟩
    · exact hold
    · exact absurd hframe (hacquire ht)
  · rintro (howner | hmem)
    · by_cases hkept : (s'.lock l).owner = some t
      · exact Or.inl hkept
      · obtain ⟨ht, hframe⟩ := hinv.owner_lost hat howner hkept
        exact absurd hframe (hrelease ht.symm)
    · exact (hinv.waiting_left hat hmem).symm

theorem StepAt.claims_current (hat : StepAt client choice s s' frame rest gs)
    (hwf : s.WellFormed) (hinv : s.LockInvariant l) :
    s'.claims l s.currentThread = claimNext l (s.claims l s.currentThread) frame := by
  by_cases hacquire : frame = .call (.lockAcquire l)
  · subst hacquire
    obtain rfl := Except.ok.inj hat.exec
    have hclaims : (s.pop.lockAcquire l).claims l s.currentThread = true :=
      claims_eq_true.mpr (lockAcquire_claims s.pop l)
    exact hclaims.trans (if_pos rfl).symm
  · by_cases hrelease : frame = .call (.lockRelease l)
    · subst hrelease
      have hreleased := hat.released hwf
      have hclaims : s'.claims l s.currentThread = false := by
        rw [← Bool.not_eq_true, claims_eq_true]
        exact not_or.mpr hreleased
      exact hclaims.trans (if_pos rfl).symm
    · rw [hat.claims_same hinv (fun _ => hacquire) fun _ => hrelease]
      unfold claimNext
      split
      · rename_i l'
        rw [if_neg]
        rintro rfl
        exact hacquire rfl
      · rename_i l'
        rw [if_neg]
        rintro rfl
        exact hrelease rfl
      · rfl

theorem Bracketed.step (h : s.Bracketed inside after l) (hwf : s.WellFormed)
    (hinv : s.LockInvariant l) (hclient : client.Brackets inside after l)
    (hat : StepAt client choice s s' frame rest gs) : s'.Bracketed inside after l := by
  intro t
  by_cases ht : t = s.currentThread
  · -- the frame is replaced by frames that do the rest of what it does
    have hcurrent := h s.currentThread
    rw [hat.stack] at hcurrent
    obtain ⟨q, heffect, hrest⟩ := trace_cons.mp hcurrent
    rw [ht, hat.stack_self, hat.claims_current hwf hinv]
    refine trace_append.mpr ⟨q, ?_, hrest⟩
    by_cases hkind : ∃ k, frame = .client k
    · obtain ⟨k, rfl⟩ := hkind
      obtain ⟨state, requests, hexec, hs'⟩ := exec_client_ok hat.exec
      have hgs : gs = requests.map Request.frame := by
        have hstack := hat.stack_of_push (u := { s.pop with client := state }) rfl rfl
          (requests.map Request.frame)
        rw [← hs'] at hstack
        exact List.append_cancel_right (hat.stack_self.symm.trans hstack)
      obtain ⟨hinside, hafter⟩ := movePhase_eq_some.mp heffect
      rw [hgs, ← hafter]
      show trace _ (s.claims l s.currentThread) _ = _
      rw [hinside]
      exact hclient _ _ _ _ _ hexec
    · exact trace_pushes hat.pushes (fun k hk => hkind ⟨k, hk⟩) heffect
  · have hclaims : s'.claims l t = s.claims l t :=
      hat.claims_same hinv (fun heq => absurd heq ht) fun heq => absurd heq ht
    rw [hclaims]
    rcases hat.stack_other t ht with hsame | ⟨body, rfl, hnew, hroot⟩
    · rw [hsame]
      exact h t
    · -- a thread that has not been started has no claim
      have hunborn := h t
      rw [hwf.unborn t (Nat.le_of_eq hnew.symm)] at hunborn
      have hbody := h s.currentThread
      rw [hat.stack] at hbody
      obtain ⟨q, heffect, -⟩ := trace_cons.mp hbody
      simp only [lockEffect] at heffect
      split at heffect
      · rename_i hfree
        rw [hroot, Option.some.inj hunborn]
        simp [rootFrames, trace, lockEffect, hfree.1, hfree.2]
      · exact absurd heffect (by simp)

theorem bracketed_boot (initialValue : SemaphoreId → Int) (state : σ) {main : κ} (l : LockId)
    (hmain : inside main = false ∧ after main = false) :
    (boot initialValue state main : Kernel κ σ).Bracketed inside after l := by
  intro t
  have hclaims : (boot initialValue state main : Kernel κ σ).claims l t = false := by
    simp [claims, boot, newLock]
  rw [hclaims]
  by_cases ht : t = 0
  · subst ht
    simp [boot, trace, lockEffect, hmain.1, hmain.2]
  · simp [boot, Function.update_of_ne ht]

/-- At a program point that runs with the lock its thread owns it. -/
theorem WellFormed.owner_of_claims (hwf : s.WellFormed)
    (htop : s.top = some frame) (hactive : frame.isParked = false)
    (hclaims : s.claims l s.currentThread = true) :
    (s.lock l).owner = some s.currentThread := by
  rcases claims_eq_true.mp hclaims with howner | hmem
  · exact howner
  · have hparked := hwf.isParked_of_mem htop (.waiting (.lock l)) hmem
    rw [hactive] at hparked
    exact absurd hparked (by simp)

end Steps

end Kernel

end Threads
end Nachos
