import Nachos.Filesys.SynchDisk

/-!
# One disk request at a time

A call of `ReadSector` or `WriteSector` goes through phases: it asks for the lock,
holds it, waits for its interrupt, is done, and has left.  The stack of a thread says
which phase it is in.  One thread at most is between its request and the end of `P`,
the owner of the lock, and meanwhile the disk is active or the semaphore has been
raised, never both.
-/

namespace Nachos
namespace Filesys

open Threads Lib

variable {δ : Type}

/-- The phases of a call. -/
inductive Phase
  | idle
  | asking
  | held
  | waiting
  | done
  | left
  deriving DecidableEq

/-- The thread owns the lock or waits for it. -/
def Phase.claim : Phase → Bool
  | .idle => false
  | .asking => false
  | .held => true
  | .waiting => true
  | .done => true
  | .left => false

/-- The phases in which a frame is run.  Frames that touch the private objects in
another way have no phase. -/
def diskEffect : Frame (DiskFrame δ) → Phase → Option Phase
  | .call (.lockAcquire l), p => if l = 0 then movePhase .asking .held p else some p
  | .call (.lockRelease l), p => if l = 0 then movePhase .done .left p else some p
  | .call (.semaphoreP i), p => if i = 0 then movePhase .waiting .done p else some p
  | .whileValueZero i, p => if i = 0 then movePhase .waiting .done p else some p
  | .call (.semaphoreV i), p => if i = 0 then none else some p
  | .call (.conditionWait _ (some l)), p => if l = 0 then none else some p
  | .waitAppend _ l, p => if l = 0 then none else some p
  | .waitReacquire _ l, p => if l = 0 then none else some p
  | .call (.threadFork .program), p => some p
  | .call (.threadFork _), _ => none
  | .client .program, p => movePhase .idle .idle p
  | .client (.enter _), p => movePhase .idle .idle p
  | .client (.request _), p => movePhase .held .waiting p
  | .client .returned, p => movePhase .left .idle p
  | _, p => some p

/-- The program points of `SynchDisk` that run with the lock. -/
def withLock : DiskFrame δ → Bool
  | .request _ => true
  | _ => false

section Effects

variable {frame : Frame (DiskFrame δ)} {gs stack : List (Frame (DiskFrame δ))} {p q : Phase}

/-- The phases account for the claim to the lock. -/
theorem diskEffect_claim (f : Frame (DiskFrame δ)) (p q : Phase) (h : diskEffect f p = some q) :
    lockEffect withLock withLock 0 f p.claim = some q.claim := by
  have hmove : ∀ {a c : Phase}, movePhase a c p = some q → p = a ∧ c = q :=
    fun h => movePhase_eq_some.mp h
  cases f with
  | call op =>
      cases op with
      | lockAcquire l =>
          simp only [diskEffect] at h
          simp only [lockEffect]
          split at h
          · obtain ⟨rfl, rfl⟩ := hmove h
            simp_all [Phase.claim]
          · simp_all
      | lockRelease l =>
          simp only [diskEffect] at h
          simp only [lockEffect]
          split at h
          · obtain ⟨rfl, rfl⟩ := hmove h
            simp_all [Phase.claim]
          · simp_all
      | semaphoreP i =>
          simp only [diskEffect] at h
          split at h
          · obtain ⟨rfl, rfl⟩ := hmove h
            rfl
          · rw [Option.some.inj h]
            rfl
      | semaphoreV i =>
          simp only [diskEffect] at h
          split at h
          · exact absurd h (by simp)
          · rw [Option.some.inj h]
            rfl
      | conditionWait c conditionLock =>
          cases conditionLock with
          | none =>
              rw [Option.some.inj h]
              rfl
          | some l =>
              simp only [diskEffect] at h
              simp only [lockEffect]
              split at h
              · exact absurd h (by simp)
              · simp_all
      | threadFork body =>
          cases body with
          | program =>
              rw [Option.some.inj h]
              rfl
          | _ => exact absurd h (by simp [diskEffect])
      | _ =>
          rw [Option.some.inj h]
          rfl
  | whileValueZero i =>
      simp only [diskEffect] at h
      split at h
      · obtain ⟨rfl, rfl⟩ := hmove h
        rfl
      · rw [Option.some.inj h]
        rfl
  | waitAppend c l =>
      simp only [diskEffect] at h
      simp only [lockEffect]
      split at h
      · exact absurd h (by simp)
      · simp_all
  | waitReacquire c l =>
      simp only [diskEffect] at h
      simp only [lockEffect]
      split at h
      · exact absurd h (by simp)
      · simp_all
  | client k =>
      cases k with
      | program =>
          obtain ⟨rfl, rfl⟩ := hmove h
          rfl
      | enter call =>
          obtain ⟨rfl, rfl⟩ := hmove h
          rfl
      | request call =>
          obtain ⟨rfl, rfl⟩ := hmove h
          rfl
      | returned =>
          obtain ⟨rfl, rfl⟩ := hmove h
          rfl
  | _ =>
      rw [Option.some.inj h]
      rfl

/-- How kernel code moves its thread on. -/
inductive PhaseStep (frame : Frame (DiskFrame δ)) (gs : List (Frame (DiskFrame δ))) :
    Phase → Phase → Prop
  | acquired (hframe : frame = .call (.lockAcquire 0)) : PhaseStep frame gs .asking .held
  | released (hframe : frame = .call (.lockRelease 0)) : PhaseStep frame gs .done .left
  | taken (hframe : frame = .whileValueZero 0) (hgs : gs = []) : PhaseStep frame gs .waiting .done
  | same (p : Phase) (hacquire : frame ≠ .call (.lockAcquire 0))
      (hrelease : frame ≠ .call (.lockRelease 0)) (hraise : frame ≠ .call (.semaphoreV 0))
      (htaken : frame = .whileValueZero 0 → gs ≠ [] ∧ p = .waiting) : PhaseStep frame gs p p

/-- Kernel code moves its thread on, and pushes what is still to be done. -/
theorem exists_phaseStep {level : IntStatus} (hpushes : frame.Pushes level gs)
    (hclient : ∀ k, frame ≠ .client k) (heffect : diskEffect frame p = some q) :
    ∃ p', PhaseStep frame gs p p' ∧ trace diskEffect p' gs = some q := by
  cases frame with
  | client k => exact absurd rfl (hclient k)
  | halt => exact absurd hpushes id
  | call op =>
      cases op with
      | lockAcquire l =>
          simp only [diskEffect] at heffect
          split at heffect
          · rename_i hl
            obtain ⟨rfl, rfl⟩ := movePhase_eq_some.mp heffect
            refine ⟨.held, .acquired (by rw [hl]), ?_⟩
            rcases hpushes with rfl | rfl
            · rfl
            · rfl
          · rename_i hl
            obtain rfl := Option.some.inj heffect
            refine ⟨p, .same p (by simpa using hl) (by simp) (by simp) (by simp), ?_⟩
            rcases hpushes with rfl | rfl
            · rfl
            · rfl
      | lockRelease l =>
          simp only [diskEffect] at heffect
          split at heffect
          · rename_i hl
            obtain ⟨rfl, rfl⟩ := movePhase_eq_some.mp heffect
            refine ⟨.left, .released (by rw [hl]), ?_⟩
            rcases hpushes with rfl | rfl
            · rfl
            · rfl
          · rename_i hl
            obtain rfl := Option.some.inj heffect
            refine ⟨p, .same p (by simp) (by simpa using hl) (by simp) (by simp), ?_⟩
            rcases hpushes with rfl | rfl
            · rfl
            · rfl
      | semaphoreP i =>
          obtain rfl := hpushes
          refine ⟨p, .same p (by simp) (by simp) (by simp) (by simp), ?_⟩
          have hsame : diskEffect (.whileValueZero i : Frame (DiskFrame δ)) p = some q := heffect
          exact trace_cons.mpr ⟨q, hsame, rfl⟩
      | semaphoreV i =>
          obtain rfl := hpushes
          simp only [diskEffect] at heffect
          split at heffect
          · exact absurd heffect (by simp)
          · rename_i hi
            exact ⟨p, .same p (by simp) (by simp) (by simpa using hi) (by simp), heffect⟩
      | conditionWait c conditionLock =>
          refine ⟨p, .same p (by simp) (by simp) (by simp) (by simp), ?_⟩
          rcases hpushes with rfl | ⟨l, rfl, rfl⟩
          · cases conditionLock with
            | none => exact heffect
            | some l =>
                simp only [diskEffect] at heffect
                split at heffect
                · exact absurd heffect (by simp)
                · exact heffect
          · simp only [diskEffect] at heffect
            split at heffect
            · exact absurd heffect (by simp)
            · rename_i hl
              obtain rfl := Option.some.inj heffect
              simp [trace, diskEffect, hl]
      | threadFork body =>
          obtain rfl := hpushes
          refine ⟨p, .same p (by simp) (by simp) (by simp) (by simp), ?_⟩
          cases body with
          | program => exact heffect
          | _ => exact absurd heffect (by simp [diskEffect])
      | threadYield =>
          refine ⟨p, .same p (by simp) (by simp) (by simp) (by simp), ?_⟩
          rcases hpushes with rfl | rfl
          · exact heffect
          · exact heffect
      | _ =>
          obtain rfl := hpushes
          exact ⟨p, .same p (by simp) (by simp) (by simp) (by simp), heffect⟩
  | whileValueZero i =>
      simp only [diskEffect] at heffect
      split at heffect
      · rename_i hi
        obtain ⟨rfl, rfl⟩ := movePhase_eq_some.mp heffect
        rcases hpushes with rfl | rfl
        · exact ⟨.done, .taken (by rw [hi]) rfl, rfl⟩
        · refine ⟨.waiting, .same _ (by simp) (by simp) (by simp) (by simp), ?_⟩
          simp [trace, diskEffect, hi]
      · rename_i hi
        obtain rfl := Option.some.inj heffect
        refine ⟨p, .same p (by simp) (by simp) (by simp) ?_, ?_⟩
        · intro h
          exact absurd (Frame.whileValueZero.inj h) hi
        · rcases hpushes with rfl | rfl
          · rfl
          · simp [trace, diskEffect, hi]
  | waitAppend c l =>
      obtain rfl := hpushes
      refine ⟨p, .same p (by simp) (by simp) (by simp) (by simp), ?_⟩
      simp only [diskEffect] at heffect
      simp only [trace, diskEffect, heffect]
  | waitReacquire c l =>
      obtain rfl := hpushes
      refine ⟨p, .same p (by simp) (by simp) (by simp) (by simp), ?_⟩
      simp only [diskEffect] at heffect
      split at heffect
      · exact absurd heffect (by simp)
      · rename_i hl
        obtain rfl := Option.some.inj heffect
        simp [trace, diskEffect, hl]
  | setLevel now =>
      refine ⟨p, .same p (by simp) (by simp) (by simp) (by simp), ?_⟩
      rcases hpushes with rfl | ⟨-, rfl⟩
      · exact heffect
      · exact heffect
  | oneTick =>
      refine ⟨p, .same p (by simp) (by simp) (by simp) (by simp), ?_⟩
      rcases hpushes with rfl | ⟨m, rfl⟩
      · exact heffect
      · exact heffect
  | sleepLoop =>
      refine ⟨p, .same p (by simp) (by simp) (by simp) (by simp), ?_⟩
      rcases hpushes with rfl | rfl
      · exact heffect
      · exact heffect
  | broadcastLoop c conditionLock =>
      refine ⟨p, .same p (by simp) (by simp) (by simp) (by simp), ?_⟩
      rcases hpushes with rfl | rfl
      · exact heffect
      · exact heffect
  | _ =>
      obtain rfl := hpushes
      exact ⟨p, .same p (by simp) (by simp) (by simp) (by simp), heffect⟩

/-- The frame of a request is still to be run. -/
def IsRequest (f : Frame (DiskFrame δ)) : Prop := ∃ call, f = .client (.request call)

/-- A frame that is not that of a request leaves the question open. -/
theorem diskEffect_request (h : diskEffect frame p = some q) :
    (IsRequest frame ∨ q = .asking ∨ q = .held) ↔ (p = .asking ∨ p = .held) := by
  have hmove : ∀ {a c : Phase}, movePhase a c p = some q → p = a ∧ c = q :=
    fun h => movePhase_eq_some.mp h
  unfold IsRequest
  cases frame with
  | call op =>
      cases op with
      | lockAcquire l =>
          simp only [diskEffect] at h
          split at h
          · obtain ⟨rfl, rfl⟩ := hmove h
            simp
          · simp_all
      | lockRelease l =>
          simp only [diskEffect] at h
          split at h
          · obtain ⟨rfl, rfl⟩ := hmove h
            simp
          · simp_all
      | semaphoreP i =>
          simp only [diskEffect] at h
          split at h
          · obtain ⟨rfl, rfl⟩ := hmove h
            simp
          · simp_all
      | semaphoreV i =>
          simp only [diskEffect] at h
          split at h
          · exact absurd h (by simp)
          · simp_all
      | conditionWait c conditionLock =>
          cases conditionLock with
          | none => simp_all [diskEffect]
          | some l =>
              simp only [diskEffect] at h
              split at h
              · exact absurd h (by simp)
              · simp_all
      | threadFork body =>
          cases body with
          | program => simp_all [diskEffect]
          | _ => exact absurd h (by simp [diskEffect])
      | _ => simp_all [diskEffect]
  | whileValueZero i =>
      simp only [diskEffect] at h
      split at h
      · obtain ⟨rfl, rfl⟩ := hmove h
        simp
      · simp_all
  | waitAppend c l =>
      simp only [diskEffect] at h
      split at h
      · exact absurd h (by simp)
      · simp_all
  | waitReacquire c l =>
      simp only [diskEffect] at h
      split at h
      · exact absurd h (by simp)
      · simp_all
  | client k =>
      cases k with
      | program =>
          obtain ⟨rfl, rfl⟩ := hmove h
          simp
      | enter call =>
          obtain ⟨rfl, rfl⟩ := hmove h
          simp
      | request call =>
          obtain ⟨rfl, rfl⟩ := hmove h
          simp
      | returned =>
          obtain ⟨rfl, rfl⟩ := hmove h
          simp
  | _ => simp_all [diskEffect]

/-- A request is still to be made by the threads that ask for the lock or hold it. -/
theorem exists_request_iff (h : trace diskEffect p stack = some .idle) :
    (∃ f ∈ stack, IsRequest f) ↔ p = .asking ∨ p = .held := by
  induction stack generalizing p with
  | nil =>
      obtain rfl := Option.some.inj h
      simp
  | cons f stack ih =>
      obtain ⟨q, heffect, hrest⟩ := trace_cons.mp h
      rw [← diskEffect_request heffect, ← ih hrest]
      simp

end Effects

section Invariant

/-- The disk and its semaphore.  One thread at most has made its request and not yet
come to the end of `P`. -/
inductive Device (phase : ThreadId → Phase) (value : Int) (d : Disk δ) : Prop
  | resting (hnone : ∀ t, phase t ≠ .waiting) (hvalue : value = 0) (hactive : d.active = false)
      (hscheduled : d.scheduled = []) (hcompleted : d.completed = List.range d.log.length)
  | busy (t : ThreadId) (ht : phase t = .waiting) (hvalue : value = 0)
      (hscheduled : d.scheduled = [d.number t]) (hlast : d.log.length = d.number t + 1)
      (hcompleted : d.completed = List.range (d.number t))
  | ready (t : ThreadId) (ht : phase t = .waiting) (hvalue : value = 1)
      (hactive : d.active = false) (hscheduled : d.scheduled = [])
      (hlast : d.log.length = d.number t + 1) (hcompleted : d.completed = List.range d.log.length)

/-- The request that a thread made last. -/
structure Answered (d : Disk δ) (t : ThreadId) : Prop where
  entry : ∃ e, d.log[d.number t]? = some e ∧ e.thread = t ∧
    ∀ n, e.call = .readSector n → d.buffer t = some e.data

/-- The threads are in phases of their calls. -/
structure Turn (contents : Int → δ) (m : DiskSystem δ) (phase : ThreadId → Phase) : Prop where
  follows : ∀ t, trace diskEffect (phase t) (m.kernel.stack t) = some .idle
  queued : ∀ t ∈ (m.kernel.lock 0).waitingThreads, phase t = .held
  device : Device phase (m.kernel.semaphore 0).value m.kernel.client
  finished : ∀ t, phase t = .done ∨ phase t = .left →
    m.kernel.client.number t ∈ m.kernel.client.completed
  answered : ∀ t, phase t = .waiting ∨ phase t = .done ∨ phase t = .left →
    Answered m.kernel.client t
  stored : m.kernel.client.contents = contentsAfter contents m.kernel.client.log
  sequential : SequentialLog contents m.kernel.client.log
  order : m.owners = m.kernel.client.log.map Entry.thread ++
    (m.kernel.lock 0).owner.toList.filter fun t => phase t = .held

/-- The kernel's part of the invariant. -/
structure Sane (k : DiskKernel δ) : Prop where
  wellFormed : k.WellFormed
  lock : k.LockInvariant 0
  bracketed : k.Bracketed withLock withLock 0

variable {contents : Int → δ} {m m' : DiskSystem δ} {phase : ThreadId → Phase} {t : ThreadId}
  {choice : DiskChoice δ} {k k' : DiskKernel δ} {frame : Frame (DiskFrame δ)}
  {rest gs : List (Frame (DiskFrame δ))}

/-- The program and `SynchDisk` bracket the lock. -/
theorem diskClient_brackets : (diskClient (δ := δ)).Brackets withLock withLock 0 := by
  intro input k s state rs h
  cases k with
  | program =>
      simp only [diskClient, Except.ok.injEq, Prod.mk.injEq] at h
      rw [← h.2]
      exact trace_program Nat.one_pos ⟨rfl, rfl⟩ (fun _ => ⟨rfl, rfl⟩) input
  | enter call =>
      simp only [diskClient, Except.ok.injEq, Prod.mk.injEq] at h
      rw [← h.2]
      rfl
  | request call =>
      simp only [diskClient] at h
      split at h
      · simp only [Except.ok.injEq, Prod.mk.injEq] at h
        rw [← h.2]
        rfl
      · exact absurd h (by simp)
  | returned =>
      simp only [diskClient, Except.ok.injEq, Prod.mk.injEq] at h
      rw [← h.2]
      rfl

theorem Sane.step (h : Sane k) (hat : Kernel.StepAt diskClient choice k k' frame rest gs)
    (hstep : k.step diskClient choice = .ok k') : Sane k' where
  wellFormed := Kernel.wellFormed_step h.wellFormed hstep
  lock := h.lock.step (Kernel.wellFormed_step h.wellFormed hstep) hat
  bracketed := h.bracketed.step h.wellFormed h.lock diskClient_brackets hat

/-- An interrupt of the disk leaves the kernel's part alone. -/
theorem Sane.interrupted (h : Sane k) (fired : Nat) : Sane (DiskSystem.interrupted k fired) where
  wellFormed := ⟨⟨h.wellFormed.shape.tail, h.wellFormed.shape.head⟩, h.wellFormed.sound,
    h.wellFormed.unborn⟩
  lock := ⟨h.lock.available_iff, h.lock.available_waiting, h.lock.waiting_nodup,
    h.lock.owner_notMem⟩
  bracketed := h.bracketed

theorem Turn.claims (h : Turn contents m phase) (hsane : Sane m.kernel) (t : ThreadId) :
    m.kernel.claims 0 t = (phase t).claim := by
  have hphase := trace_map Phase.claim diskEffect_claim (h.follows t)
  exact trace_injective lockEffect_back (hsane.bracketed t) hphase

/-- A thread that has made its request owns the lock until it releases it. -/
theorem Turn.owner (h : Turn contents m phase) (hsane : Sane m.kernel)
    (ht : phase t = .waiting ∨ phase t = .done) : (m.kernel.lock 0).owner = some t := by
  have hclaims : m.kernel.claims 0 t = true := by
    rw [h.claims hsane]
    rcases ht with hphase | hphase
    · rw [hphase]
      rfl
    · rw [hphase]
      rfl
  rcases Kernel.claims_eq_true.mp hclaims with howner | hmem
  · exact howner
  · rw [h.queued t hmem] at ht
    simp at ht

/-- The owner of the lock has made its request, or is about to. -/
theorem Turn.owner_phase (h : Turn contents m phase) (hsane : Sane m.kernel)
    (ht : (m.kernel.lock 0).owner = some t) :
    phase t = .held ∨ phase t = .waiting ∨ phase t = .done := by
  have hclaims := h.claims hsane t
  rw [Kernel.claims_eq_true.mpr (Or.inl ht)] at hclaims
  cases hphase : phase t <;> simp_all [Phase.claim]

/-- While the owner of the lock has no request on its way the disk rests. -/
theorem Turn.resting (h : Turn contents m phase) (hsane : Sane m.kernel)
    (ht : (m.kernel.lock 0).owner = some t) (hphase : phase t ≠ .waiting) :
    (∀ u, phase u ≠ .waiting) := by
  intro u hu
  have howner := h.owner hsane (Or.inl hu)
  rw [ht] at howner
  exact hphase (Option.some.inj howner ▸ hu)

theorem trace_disk_root (body : DiskFrame δ) (p q : Phase)
    (h : diskEffect (.call (.threadFork body)) p = some q) :
    trace diskEffect .idle (Kernel.rootFrames body) = some .idle := by
  cases body with
  | program => rfl
  | _ => exact absurd h (by simp [diskEffect])

/-- A thread that is not waiting moves on to a phase in which it is not. -/
theorem Device.update {value : Int} {d : Disk δ} (h : Device phase value d) {c : ThreadId}
    {p' : Phase} (hc : phase c ≠ .waiting) (hp : p' ≠ .waiting) :
    Device (Function.update phase c p') value d := by
  have hother : ∀ t, phase t = .waiting → Function.update phase c p' t = .waiting := by
    intro t ht
    have hne : t ≠ c := fun heq => hc (heq ▸ ht)
    rw [Function.update_of_ne hne]
    exact ht
  cases h with
  | resting hnone hvalue hactive hscheduled hcompleted =>
      refine .resting (fun t ht => ?_) hvalue hactive hscheduled hcompleted
      by_cases hne : t = c
      · subst hne
        rw [Function.update_self] at ht
        exact hp ht
      · rw [Function.update_of_ne hne] at ht
        exact hnone t ht
  | busy t ht hvalue hscheduled hlast hcompleted =>
      exact .busy t (hother t ht) hvalue hscheduled hlast hcompleted
  | ready t ht hvalue hactive hscheduled hlast hcompleted =>
      exact .ready t (hother t ht) hvalue hactive hscheduled hlast hcompleted

/-- The interrupts of the disk that fire in one step: one at most, that of the request
on its way. -/
theorem Device.handled {value : Int} {d : Disk δ} (h : Device phase value d) {fired : Nat}
    (hfired : fired ≤ d.scheduled.length) :
    Device phase (value + fired) (d.handleInterrupt fired) := by
  cases fired with
  | zero =>
      have hsame : d.handleInterrupt 0 = d := by
        simp [Disk.handleInterrupt]
      rw [hsame]
      simpa using h
  | succ n =>
      cases h with
      | resting hnone hvalue hactive hscheduled hcompleted => simp [hscheduled] at hfired
      | ready t ht hvalue hactive hscheduled hlast hcompleted => simp [hscheduled] at hfired
      | busy t ht hvalue hscheduled hlast hcompleted =>
          obtain rfl : n = 0 := by
            rw [hscheduled, List.length_singleton] at hfired
            omega
          refine .ready t ht (by simp [hvalue]) rfl ?_ hlast ?_
          · simp [Disk.handleInterrupt, hscheduled]
          · show d.completed ++ d.scheduled.take 1 = List.range d.log.length
            rw [hscheduled, hcompleted, hlast, List.range_succ]
            rfl

/-- No more interrupts fire outside of ticks and idling. -/
theorem firing_eq_zero (hat : Kernel.StepAt diskClient choice k k' frame rest gs)
    (htick : frame ≠ .oneTick) (hidle : frame = .sleepLoop → k.readyList ≠ [])
    (interrupts : List Interrupt) : DiskSystem.firing k interrupts = 0 := by
  unfold DiskSystem.firing
  rw [hat.top]
  cases frame with
  | oneTick => exact absurd rfl htick
  | sleepLoop => exact if_neg (hidle rfl)
  | _ => rfl

theorem firing_handled (hat : Kernel.StepAt diskClient choice k k' frame rest gs)
    (hframe : frame = .oneTick ∨ frame = .sleepLoop ∧ k.readyList = [])
    (interrupts : List Interrupt) :
    DiskSystem.firing k interrupts = Kernel.raisesOf 0 interrupts := by
  unfold DiskSystem.firing
  rw [hat.top]
  rcases hframe with rfl | ⟨rfl, hready⟩
  · rfl
  · exact if_pos hready

theorem interrupted_zero (k : DiskKernel δ) : DiskSystem.interrupted k 0 = k := by
  unfold DiskSystem.interrupted Disk.handleInterrupt
  simp

/-- The disk of a system in which interrupts are being handled. -/
theorem completed_subset (d : Disk δ) (fired : Nat) {n : Nat} (h : n ∈ d.completed) :
    n ∈ (d.handleInterrupt fired).completed :=
  List.mem_append_left _ h

/-- The owners behind a step that leaves the owner of the lock alone. -/
theorem ownersNext_same {k' : DiskKernel δ} (howner : (k'.lock 0).owner = (m.kernel.lock 0).owner) :
    m.ownersNext k' = m.owners :=
  if_pos howner

/-- The phases that depend on the request of a thread. -/
theorem PhaseStep.requested {p p' : Phase} (h : PhaseStep frame gs p p')
    (hp : p' = .waiting ∨ p' = .done ∨ p' = .left) : p = .waiting ∨ p = .done ∨ p = .left := by
  cases h with
  | acquired => simp at hp
  | released => exact Or.inr (Or.inl rfl)
  | taken => exact Or.inl rfl
  | same => exact hp

section KernelCode

variable (h : Turn contents m phase) (hsane : Sane m.kernel)
  (hfired : DiskSystem.firing m.kernel choice.interrupts ≤ m.kernel.client.scheduled.length)
  (hat : Kernel.StepAt diskClient choice
    (DiskSystem.interrupted m.kernel (DiskSystem.firing m.kernel choice.interrupts)) k' frame
    rest gs)

include h hsane hfired hat

/-- The disk and its semaphore behind a step of kernel code. -/
theorem device_kernel {p' : Phase}
    (hstep : PhaseStep frame gs (phase m.kernel.currentThread) p') :
    Device (Function.update phase m.kernel.currentThread p') (k'.semaphore 0).value
      (m.kernel.client.handleInterrupt (DiskSystem.firing m.kernel choice.interrupts)) := by
  have hquiet : frame ≠ .oneTick → (frame = .sleepLoop → m.kernel.readyList ≠ []) →
      DiskSystem.firing m.kernel choice.interrupts = 0 :=
    fun htick hidle => firing_eq_zero hat htick hidle choice.interrupts
  -- outside of `P` the phase of a waiting thread does not change
  have hmoved : ∀ {value : Int} {d : Disk δ}, Device phase value d →
      (frame = .whileValueZero 0 → gs ≠ []) →
      Device (Function.update phase m.kernel.currentThread p') value d := by
    intro value d hdevice hnot
    generalize hp : phase m.kernel.currentThread = p at hstep
    cases hstep with
    | acquired hframe => exact hdevice.update (by simp [hp]) (by simp)
    | released hframe => exact hdevice.update (by simp [hp]) (by simp)
    | taken hframe hgs => exact absurd hgs (hnot hframe)
    | same p' _ _ _ _ =>
        rw [← hp, Function.update_eq_self]
        exact hdevice
  cases hat.semaphore 0 with
  | same hvalue hraise htest htick hidle =>
      have hsame : (k'.semaphore 0).value = (m.kernel.semaphore 0).value := hvalue
      rw [hsame, hquiet htick hidle]
      refine hmoved ?_ fun hframe => absurd hframe htest
      simpa using h.device.handled (Nat.zero_le _)
  | handled hframe hvalue =>
      rw [hvalue, ← firing_handled hat hframe choice.interrupts]
      refine hmoved (h.device.handled hfired) fun htest => ?_
      rcases hframe with rfl | ⟨rfl, -⟩
      · exact absurd htest (by simp)
      · exact absurd htest (by simp)
  | raised hframe hvalue =>
      generalize hp : phase m.kernel.currentThread = p at hstep
      cases hstep with
      | same _ _ _ hraise _ => exact absurd hframe hraise
      | acquired hother => exact absurd (hframe.symm.trans hother) (by simp)
      | released hother => exact absurd (hframe.symm.trans hother) (by simp)
      | taken hother => exact absurd (hframe.symm.trans hother) (by simp)
  | sleeps hframe hzero hvalue hgs =>
      have hsame : (k'.semaphore 0).value = (m.kernel.semaphore 0).value :=
        hvalue.trans hzero.symm
      rw [hsame, hquiet (by simp [hframe]) (by simp [hframe])]
      refine hmoved ?_ fun _ => by simp [hgs]
      simpa using h.device.handled (Nat.zero_le _)
  | taken hframe hne hvalue hgs =>
      rw [hquiet (by simp [hframe]) (by simp [hframe])]
      generalize hp : phase m.kernel.currentThread = p at hstep
      cases hstep with
      | acquired hother => exact absurd (hframe.symm.trans hother) (by simp)
      | released hother => exact absurd (hframe.symm.trans hother) (by simp)
      | same _ _ _ _ htaken => exact absurd hgs (htaken hframe).1
      | taken _ _ =>
          have howner := h.owner hsane (Or.inl hp)
          have hzero : m.kernel.client.handleInterrupt 0 = m.kernel.client := by
            simp [Disk.handleInterrupt]
          rw [hzero]
          cases h.device with
          | resting hnone => exact absurd hp (hnone _)
          | busy t ht hold => exact absurd hold hne
          | ready t ht hold hactive hscheduled hlast hcompleted =>
              refine .resting (fun u hu => ?_) ?_ hactive hscheduled hcompleted
              · by_cases hne : u = m.kernel.currentThread
                · rw [hne, Function.update_self] at hu
                  simp at hu
                · rw [Function.update_of_ne hne] at hu
                  have hother := h.owner hsane (Or.inl hu)
                  rw [howner] at hother
                  exact hne (Option.some.inj hother).symm
              · rw [hvalue]
                show (m.kernel.semaphore 0).value - 1 = 0
                rw [hold]
                rfl

omit hfired in
/-- The threads that wait for the lock have it ahead of them. -/
theorem queued_kernel {p' : Phase}
    (hstep : PhaseStep frame gs (phase m.kernel.currentThread) p') :
    ∀ t ∈ (k'.lock 0).waitingThreads,
      Function.update phase m.kernel.currentThread p' t = .held := by
  -- a thread that waited before has not moved, unless it holds the lock now
  have hold : p' = .held ∨ phase m.kernel.currentThread ≠ .held ∨
      p' = phase m.kernel.currentThread → ∀ t ∈ (m.kernel.lock 0).waitingThreads,
        Function.update phase m.kernel.currentThread p' t = .held := by
    intro hcases t ht
    have hheld := h.queued t ht
    by_cases hc : t = m.kernel.currentThread
    · subst hc
      rw [Function.update_self]
      rcases hcases with hp | hne | hp
      · exact hp
      · exact absurd hheld hne
      · rw [hp]
        exact hheld
    · rw [Function.update_of_ne hc]
      exact hheld
  cases hat.lock 0 with
  | same hlock events hadds hquiet =>
      rw [hlock]
      apply hold
      generalize hp : phase m.kernel.currentThread = p at hstep
      cases hstep with
      | acquired => exact Or.inl rfl
      | released => exact Or.inr (Or.inl (by simp))
      | taken => exact Or.inr (Or.inl (by simp))
      | same => exact Or.inr (Or.inr rfl)
  | taken hframe howner havailable hlock hadds =>
      rw [hlock]
      intro t ht
      have hempty := hsane.lock.available_waiting havailable
      have hmem : t ∈ (m.kernel.lock 0).waitingThreads := ht
      rw [hempty] at hmem
      simp at hmem
  | queued hframe howner havailable hlock hadds =>
      rw [hlock]
      generalize hp : phase m.kernel.currentThread = p at hstep
      cases hstep with
      | acquired =>
          intro t ht
          rcases List.mem_append.mp ht with hwaited | hself
          · exact hold (Or.inl rfl) t hwaited
          · rw [List.mem_singleton.mp hself]
            exact Function.update_self ..
      | released hother => exact absurd (hframe.symm.trans hother) (by simp)
      | taken hother => exact absurd (hframe.symm.trans hother) (by simp)
      | same _ hacquire => exact absurd hframe hacquire
  | granted x later hframe howner hwaiting hlock hadds =>
      rw [hlock]
      generalize hp : phase m.kernel.currentThread = p at hstep
      cases hstep with
      | acquired hother => exact absurd (hframe.symm.trans hother) (by simp)
      | taken hother => exact absurd (hframe.symm.trans hother) (by simp)
      | same _ _ hrelease => exact absurd hframe hrelease
      | released =>
          intro t ht
          refine hold (Or.inr (Or.inl (by simp [hp]))) t ?_
          rw [show (m.kernel.lock 0).waitingThreads = x :: later from hwaiting]
          exact List.mem_cons_of_mem x ht
  | freed hframe howner hwaiting hlock hadds =>
      rw [hlock]
      intro t ht
      simp at ht

omit hfired in
/-- The lock is handed on in the order of the log. -/
theorem order_kernel {p' : Phase}
    (hstep : PhaseStep frame gs (phase m.kernel.currentThread) p') :
    m.ownersNext k' = m.kernel.client.log.map Entry.thread ++ (k'.lock 0).owner.toList.filter
      fun t => Function.update phase m.kernel.currentThread p' t = .held := by
  have horder := h.order
  -- the owner stays and does not make its request
  have hsame : (k'.lock 0).owner = (m.kernel.lock 0).owner →
      (∀ t, (m.kernel.lock 0).owner = some t → (phase t = .held ↔
        Function.update phase m.kernel.currentThread p' t = .held)) →
      m.ownersNext k' = m.kernel.client.log.map Entry.thread ++
        (k'.lock 0).owner.toList.filter
          fun t => Function.update phase m.kernel.currentThread p' t = .held := by
    intro howner hphases
    rw [ownersNext_same howner, howner, horder]
    congr 1
    apply List.filter_congr
    intro t ht
    have hiff := hphases t (by simpa using ht)
    simpa using hiff
  have hkeeps : p' = phase m.kernel.currentThread ∨
      (m.kernel.lock 0).owner ≠ some m.kernel.currentThread ∨
      (phase m.kernel.currentThread ≠ .held ∧ p' ≠ .held) →
      ∀ t, (m.kernel.lock 0).owner = some t → (phase t = .held ↔
        Function.update phase m.kernel.currentThread p' t = .held) := by
    intro hcases t ht
    by_cases hc : t = m.kernel.currentThread
    · subst hc
      rw [Function.update_self]
      rcases hcases with hp | hne | ⟨hbefore, hbehind⟩
      · rw [hp]
      · exact absurd ht hne
      · exact ⟨fun hheld => absurd hheld hbefore, fun hheld => absurd hheld hbehind⟩
    · rw [Function.update_of_ne hc]
  have hclaims := h.claims hsane m.kernel.currentThread
  cases hat.lock 0 with
  | same hlock events hadds hquiet =>
      refine hsame (by rw [hlock]; rfl) (hkeeps ?_)
      generalize hp : phase m.kernel.currentThread = p at hstep hclaims
      cases hstep with
      | acquired =>
          refine Or.inr (Or.inl fun howner => ?_)
          rw [Kernel.claims_eq_true.mpr (Or.inl howner)] at hclaims
          simp [Phase.claim] at hclaims
      | released => exact Or.inr (Or.inr ⟨by simp, by simp⟩)
      | taken => exact Or.inr (Or.inr ⟨by simp, by simp⟩)
      | same => exact Or.inl rfl
  | queued hframe howner havailable hlock hadds =>
      exact hsame (by rw [hlock]; rfl) (hkeeps (Or.inr (Or.inl howner)))
  | taken hframe howner havailable hlock hadds =>
      have hfree : (m.kernel.lock 0).owner = none := hsane.lock.available_iff.mp havailable
      generalize hp : phase m.kernel.currentThread = p at hstep
      cases hstep with
      | released hother => exact absurd (hframe.symm.trans hother) (by simp)
      | taken hother => exact absurd (hframe.symm.trans hother) (by simp)
      | same _ hacquire => exact absurd hframe hacquire
      | acquired =>
          have hnew : (k'.lock 0).owner = some m.kernel.currentThread := by
            rw [hlock]
            rfl
          have hnext : m.ownersNext k' = m.owners ++ [m.kernel.currentThread] := by
            unfold DiskSystem.ownersNext
            rw [hnew, hfree]
            rfl
          rw [hnext, horder, hfree, hnew]
          simp
  | granted x later hframe howner hwaiting hlock hadds =>
      have howner' : (m.kernel.lock 0).owner = some m.kernel.currentThread := howner
      have hx : x ∈ (m.kernel.lock 0).waitingThreads := by
        rw [show (m.kernel.lock 0).waitingThreads = x :: later from hwaiting]
        exact List.mem_cons_self
      have hne : x ≠ m.kernel.currentThread := by
        rintro rfl
        exact hsane.lock.owner_notMem _ howner' hx
      generalize hp : phase m.kernel.currentThread = p at hstep
      cases hstep with
      | acquired hother => exact absurd (hframe.symm.trans hother) (by simp)
      | taken hother => exact absurd (hframe.symm.trans hother) (by simp)
      | same _ _ hrelease => exact absurd hframe hrelease
      | released =>
          have hnew : (k'.lock 0).owner = some x := by rw [hlock]
          have hnext : m.ownersNext k' = m.owners ++ [x] := by
            unfold DiskSystem.ownersNext
            rw [hnew, howner', if_neg (by simpa using hne)]
            rfl
          rw [hnext, horder, howner', hnew]
          simp [hp, Function.update_of_ne hne, h.queued x hx]
  | freed hframe howner hwaiting hlock hadds =>
      have howner' : (m.kernel.lock 0).owner = some m.kernel.currentThread := howner
      generalize hp : phase m.kernel.currentThread = p at hstep
      cases hstep with
      | acquired hother => exact absurd (hframe.symm.trans hother) (by simp)
      | taken hother => exact absurd (hframe.symm.trans hother) (by simp)
      | same _ _ hrelease => exact absurd hframe hrelease
      | released =>
          have hnew : (k'.lock 0).owner = none := by rw [hlock]
          have hnext : m.ownersNext k' = m.owners ++ [] := by
            unfold DiskSystem.ownersNext
            rw [hnew, howner', if_neg (by simp)]
            rfl
          rw [hnext, horder, howner', hnew]
          simp [hp]

/-- Kernel code keeps the threads in their phases. -/
theorem Turn.kernel_step (hclient : ∀ k, frame ≠ .client k) :
    ∃ phase', Turn contents ⟨k', m.ownersNext k'⟩ phase' := by
  have hcurrent := h.follows m.kernel.currentThread
  have hstack : m.kernel.stack m.kernel.currentThread = frame :: rest := hat.stack
  rw [hstack] at hcurrent
  obtain ⟨q, heffect, -⟩ := trace_cons.mp hcurrent
  obtain ⟨p', hstep, htrace⟩ := exists_phaseStep hat.pushes hclient heffect
  have hdisk : k'.client =
      m.kernel.client.handleInterrupt (DiskSystem.firing m.kernel choice.interrupts) :=
    Kernel.exec_client_same hat.exec hclient
  have hdevice := device_kernel h hsane hfired hat hstep
  refine ⟨Function.update phase m.kernel.currentThread p', ?_⟩
  constructor
  case follows =>
    refine hat.follows (hsane.interrupted _).wellFormed h.follows ?_ trace_disk_root
    intro q' hq'
    obtain rfl := Option.some.inj (heffect.symm.trans hq')
    exact htrace
  case queued => exact queued_kernel h hsane hat hstep
  case device =>
    rw [hdisk]
    exact hdevice
  case finished =>
    intro t ht
    rw [hdisk]
    by_cases hc : t = m.kernel.currentThread
    · subst hc
      rw [Function.update_self] at ht
      generalize hp : phase m.kernel.currentThread = p at hstep
      cases hstep with
      | acquired => simp at ht
      | released => exact completed_subset _ _ (h.finished _ (Or.inl hp))
      | same => exact completed_subset _ _ (h.finished _ (hp ▸ ht))
      | taken hframe hgs =>
          -- the interrupt of this thread's request has fired
          cases hdevice with
          | resting hnone hvalue hactive hscheduled hcompleted =>
              obtain ⟨e, he, -⟩ := (h.answered _ (Or.inl hp)).entry
              rw [hcompleted, List.mem_range]
              exact (List.getElem?_eq_some_iff.mp he).1
          | busy t ht =>
              have hne : t ≠ m.kernel.currentThread := by
                rintro rfl
                simp at ht
              rw [Function.update_of_ne hne] at ht
              have hother := h.owner hsane (Or.inl ht)
              rw [h.owner hsane (Or.inl hp)] at hother
              exact absurd (Option.some.inj hother).symm hne
          | ready t ht =>
              have hne : t ≠ m.kernel.currentThread := by
                rintro rfl
                simp at ht
              rw [Function.update_of_ne hne] at ht
              have hother := h.owner hsane (Or.inl ht)
              rw [h.owner hsane (Or.inl hp)] at hother
              exact absurd (Option.some.inj hother).symm hne
    · rw [Function.update_of_ne hc] at ht
      exact completed_subset _ _ (h.finished t ht)
  case answered =>
    intro t ht
    rw [hdisk]
    by_cases hc : t = m.kernel.currentThread
    · subst hc
      rw [Function.update_self] at ht
      exact ⟨(h.answered _ (hstep.requested ht)).entry⟩
    · rw [Function.update_of_ne hc] at ht
      exact ⟨(h.answered t ht).entry⟩
  case stored =>
    rw [hdisk]
    exact h.stored
  case sequential =>
    rw [hdisk]
    exact h.sequential
  case order =>
    rw [hdisk]
    exact order_kernel h hsane hat hstep

end KernelCode

section ClientCode

/-- A program leaves the private objects alone. -/
theorem trace_disk_program (calls : List (ProgramCall (DiskCall δ))) :
    trace diskEffect .idle
      ((calls.map (ProgramCall.request 1 DiskFrame.program .enter)).map Request.frame) =
        some .idle := by
  apply trace_of_neutral
  intro frame hframe
  obtain ⟨r, hr, rfl⟩ := List.mem_map.mp hframe
  obtain ⟨call, -, rfl⟩ := List.mem_map.mp hr
  have hne : ∀ n : Nat, 1 + n ≠ 0 := by
    intro n
    omega
  cases call with
  | kernel op =>
      cases op with
      | lockAcquire l => exact if_neg (hne l)
      | lockRelease l => exact if_neg (hne l)
      | semaphoreP i => exact if_neg (hne i)
      | semaphoreV i => exact if_neg (hne i)
      | conditionWait c conditionLock =>
          cases conditionLock with
          | none => rfl
          | some l => exact if_neg (hne l)
      | _ => rfl
  | _ => rfl

/-- Client code that makes no request. -/
theorem Turn.client_same (h : Turn contents m phase) (hsane : Sane m.kernel)
    (hat : Kernel.StepAt diskClient choice m.kernel k' frame rest gs)
    (hlock : k'.lock = m.kernel.lock) (hsemaphore : k'.semaphore = m.kernel.semaphore)
    (hdisk : k'.client = m.kernel.client) {p' : Phase}
    (hp : phase m.kernel.currentThread = .idle ∨ phase m.kernel.currentThread = .left)
    (hp' : p' = .idle ∨ p' = .asking)
    (htrace : ∀ q, diskEffect frame (phase m.kernel.currentThread) = some q →
      trace diskEffect p' gs = some q) :
    Turn contents ⟨k', m.ownersNext k'⟩ (Function.update phase m.kernel.currentThread p') := by
  have hother : ∀ (t : ThreadId) (q : Phase), q ≠ .idle → q ≠ .asking → q ≠ .left →
      (Function.update phase m.kernel.currentThread p' t = q ↔ phase t = q) := by
    intro t q hidle hasking hleft
    by_cases hc : t = m.kernel.currentThread
    · subst hc
      rw [Function.update_self]
      constructor
      · rintro rfl
        rcases hp' with rfl | rfl
        · exact absurd rfl hidle
        · exact absurd rfl hasking
      · rintro rfl
        rcases hp with hp | hp
        · exact absurd hp hidle
        · exact absurd hp hleft
    · rw [Function.update_of_ne hc]
  constructor
  case follows => exact hat.follows hsane.wellFormed h.follows htrace trace_disk_root
  case queued =>
    rw [hlock]
    intro t ht
    exact (hother t .held (by simp) (by simp) (by simp)).mpr (h.queued t ht)
  case device =>
    rw [hsemaphore, hdisk]
    refine h.device.update ?_ ?_
    · rcases hp with hp | hp
      · simp [hp]
      · simp [hp]
    · rcases hp' with rfl | rfl
      · simp
      · simp
  case finished =>
    rw [hdisk]
    rintro t (ht | ht)
    · exact h.finished t (Or.inl ((hother t .done (by simp) (by simp) (by simp)).mp ht))
    · by_cases hc : t = m.kernel.currentThread
      · subst hc
        rw [Function.update_self] at ht
        rcases hp' with rfl | rfl
        · simp at ht
        · simp at ht
      · rw [Function.update_of_ne hc] at ht
        exact h.finished t (Or.inr ht)
  case answered =>
    rw [hdisk]
    intro t ht
    by_cases hc : t = m.kernel.currentThread
    · subst hc
      rw [Function.update_self] at ht
      rcases hp' with rfl | rfl
      · simp at ht
      · simp at ht
    · rw [Function.update_of_ne hc] at ht
      exact h.answered t ht
  case stored =>
    rw [hdisk]
    exact h.stored
  case sequential =>
    rw [hdisk]
    exact h.sequential
  case order =>
    rw [ownersNext_same (by rw [hlock]), hlock, hdisk, h.order]
    congr 1
    apply List.filter_congr
    intro t _
    simpa using (hother t .held (by simp) (by simp) (by simp)).symm

/-- What a request leaves behind. -/
theorem Disk.request_ok {d d' : Disk δ} {t : ThreadId} {call : DiskCall δ}
    (h : d.request t call = .ok d') :
    ∃ e, e.thread = t ∧ e.call = call ∧ (∀ n, call = .readSector n → e.data = d.contents n ∧
        d'.buffer t = some e.data) ∧
      d'.active = true ∧ d'.log = d.log ++ [e] ∧
      d'.number = Function.update d.number t d.log.length ∧
      d'.scheduled = d.scheduled ++ [d.log.length] ∧ d'.completed = d.completed ∧
      d'.contents = call.apply d.contents ∧ ∀ u, u ≠ t → d'.buffer u = d.buffer u := by
  cases call with
  | readSector n =>
      simp only [Disk.request] at h
      split at h
      · obtain rfl := Except.ok.inj h
        refine ⟨⟨t, .readSector n, d.contents n⟩, rfl, rfl, ?_, rfl, rfl, rfl, rfl, rfl, rfl, ?_⟩
        · intro n' hn'
          obtain rfl := DiskCall.readSector.inj hn'
          exact ⟨rfl, Function.update_self ..⟩
        · intro u hu
          exact Function.update_of_ne hu ..
      · exact absurd h (by simp)
  | writeSector n data =>
      simp only [Disk.request] at h
      split at h
      · obtain rfl := Except.ok.inj h
        exact ⟨⟨t, .writeSector n data, data⟩, rfl, rfl, by simp, rfl, rfl, rfl, rfl, rfl, rfl,
          fun _ _ => rfl⟩
      · exact absurd h (by simp)

theorem contentsAfter_append (contents : Int → δ) (log : List (Entry δ)) (e : Entry δ) :
    contentsAfter contents (log ++ [e]) = e.call.apply (contentsAfter contents log) := by
  unfold contentsAfter
  rw [List.foldl_append]
  rfl

/-- A request that is executed on what the log has left continues the log. -/
theorem SequentialLog.append {log : List (Entry δ)} (h : SequentialLog contents log)
    {e : Entry δ} (he : ∀ n, e.call = .readSector n → e.data = contentsAfter contents log n) :
    SequentialLog contents (log ++ [e]) := by
  intro i e' n hi hcall
  rcases Nat.lt_or_ge i log.length with hlt | hge
  · rw [List.getElem?_append_left hlt] at hi
    rw [List.take_append_of_le_length (Nat.le_of_lt hlt)]
    exact h i e' n hi hcall
  · rw [List.getElem?_append_right hge] at hi
    obtain ⟨hzero, heq⟩ := List.getElem?_eq_some_iff.mp hi
    have hlen : i = log.length := by
      rw [List.length_singleton] at hzero
      omega
    subst hlen
    have hsame : e' = e := by simpa using heq.symm
    rw [hsame] at hcall ⊢
    rw [List.take_append_of_le_length (Nat.le_refl _), List.take_length]
    exact he n hcall

/-- A thread at its request owns the lock. -/
theorem Turn.requesting (h : Turn contents m phase) (hsane : Sane m.kernel) {call : DiskCall δ}
    (htop : m.kernel.top = some (.client (.request call))) :
    phase m.kernel.currentThread = .held ∧
      (m.kernel.lock 0).owner = some m.kernel.currentThread := by
  have hcurrent := h.follows m.kernel.currentThread
  rw [Kernel.stack_of_top htop] at hcurrent
  obtain ⟨q, heffect, -⟩ := trace_cons.mp hcurrent
  have hheld := (movePhase_eq_some.mp heffect).1
  refine ⟨hheld, hsane.wellFormed.owner_of_claims htop rfl ?_⟩
  rw [h.claims hsane, hheld]
  rfl

/-- The disk rests when a request is made. -/
theorem Turn.request_rests (h : Turn contents m phase) (hsane : Sane m.kernel)
    {call : DiskCall δ} (htop : m.kernel.top = some (.client (.request call))) :
    (m.kernel.semaphore 0).value = 0 ∧ m.kernel.client.active = false ∧
      m.kernel.client.scheduled = [] ∧
      m.kernel.client.completed = List.range m.kernel.client.log.length := by
  obtain ⟨hheld, howner⟩ := h.requesting hsane htop
  have hnone := h.resting hsane howner (by simp [hheld])
  cases h.device with
  | resting _ hvalue hactive hscheduled hcompleted =>
      exact ⟨hvalue, hactive, hscheduled, hcompleted⟩
  | busy t ht => exact absurd ht (hnone t)
  | ready t ht => exact absurd ht (hnone t)

/-- The owner of the lock makes its request. -/
theorem Turn.request_step (h : Turn contents m phase) (hsane : Sane m.kernel)
    {call : DiskCall δ}
    (hat : Kernel.StepAt diskClient choice m.kernel k' (.client (.request call)) rest gs)
    (hlock : k'.lock = m.kernel.lock) (hsemaphore : k'.semaphore = m.kernel.semaphore)
    (hgs : gs = [])
    (hrequest : m.kernel.client.request m.kernel.currentThread call = .ok k'.client) :
    Turn contents ⟨k', m.ownersNext k'⟩
      (Function.update phase m.kernel.currentThread .waiting) := by
  obtain ⟨hheld, howner⟩ := h.requesting hsane hat.top
  obtain ⟨hvalue, -, hscheduled, hcompleted⟩ := h.request_rests hsane hat.top
  obtain ⟨e, hthread, hcall, hread, -, hlog, hnumber, hnext, hdone, hcontents, hbuffer⟩ :=
    Disk.request_ok hrequest
  constructor
  case follows =>
    refine hat.follows hsane.wellFormed h.follows ?_ trace_disk_root
    intro q hq
    rw [hgs, ← (movePhase_eq_some.mp hq).2]
    rfl
  case queued =>
    rw [hlock]
    intro t ht
    have hne : t ≠ m.kernel.currentThread := by
      rintro rfl
      exact hsane.lock.owner_notMem _ howner ht
    rw [Function.update_of_ne hne]
    exact h.queued t ht
  case device =>
    refine .busy m.kernel.currentThread (Function.update_self ..) ?_ ?_ ?_ ?_
    · rw [hsemaphore]
      exact hvalue
    · rw [hnext, hscheduled, hnumber, Function.update_self]
      rfl
    · rw [hlog, hnumber, Function.update_self, List.length_append, List.length_singleton]
    · rw [hdone, hcompleted, hnumber, Function.update_self]
  case finished =>
    intro t ht
    have hne : t ≠ m.kernel.currentThread := by
      rintro rfl
      simp at ht
    rw [Function.update_of_ne hne] at ht
    rw [hnumber, Function.update_of_ne hne, hdone]
    exact h.finished t ht
  case answered =>
    intro t ht
    constructor
    by_cases hc : t = m.kernel.currentThread
    · subst hc
      refine ⟨e, ?_, hthread, ?_⟩
      · rw [hnumber, Function.update_self, hlog]
        simp
      · intro n hn
        exact (hread n (hcall.symm.trans hn)).2
    · rw [Function.update_of_ne hc] at ht
      obtain ⟨e', he', hthread', hbuffer'⟩ := (h.answered t ht).entry
      refine ⟨e', ?_, hthread', ?_⟩
      · rw [hnumber, Function.update_of_ne hc, hlog, List.getElem?_append_left]
        · exact he'
        · exact (List.getElem?_eq_some_iff.mp he').1
      · intro n hn
        rw [hbuffer t hc]
        exact hbuffer' n hn
  case stored =>
    show k'.client.contents = contentsAfter contents k'.client.log
    rw [hcontents, hlog, contentsAfter_append, hcall, h.stored]
  case sequential =>
    show SequentialLog contents k'.client.log
    rw [hlog]
    refine h.sequential.append ?_
    intro n hn
    rw [(hread n (hcall.symm.trans hn)).1, h.stored]
  case order =>
    show m.ownersNext k' = k'.client.log.map Entry.thread ++ _
    rw [ownersNext_same (by rw [hlock]), h.order, hlog, hlock, howner]
    simp [hheld, hthread]

/-- Client code keeps the threads in their phases. -/
theorem Turn.client_step (h : Turn contents m phase) (hsane : Sane m.kernel) {c : DiskFrame δ}
    (hat : Kernel.StepAt diskClient choice m.kernel k' (.client c) rest gs) :
    ∃ phase', Turn contents ⟨k', m.ownersNext k'⟩ phase' := by
  obtain ⟨requests, hclient, hgs⟩ := hat.clientStep
  have hexec := hclient.exec
  have hcurrent := h.follows m.kernel.currentThread
  rw [hat.stack] at hcurrent
  obtain ⟨q, heffect, -⟩ := trace_cons.mp hcurrent
  cases c with
  | program =>
      simp only [diskClient, Except.ok.injEq, Prod.mk.injEq] at hexec
      obtain ⟨hphase, -⟩ := movePhase_eq_some.mp heffect
      refine ⟨_, h.client_same hsane hat hclient.lock hclient.semaphore hexec.1.symm
        (Or.inl hphase) (Or.inl rfl) ?_⟩
      intro q' hq'
      rw [hgs, ← hexec.2, ← (movePhase_eq_some.mp hq').2]
      exact trace_disk_program _
  | enter call =>
      simp only [diskClient, Except.ok.injEq, Prod.mk.injEq] at hexec
      obtain ⟨hphase, -⟩ := movePhase_eq_some.mp heffect
      refine ⟨_, h.client_same hsane hat hclient.lock hclient.semaphore hexec.1.symm
        (Or.inl hphase) (Or.inr rfl) ?_⟩
      intro q' hq'
      rw [hgs, ← hexec.2, ← (movePhase_eq_some.mp hq').2]
      rfl
  | returned =>
      simp only [diskClient, Except.ok.injEq, Prod.mk.injEq] at hexec
      obtain ⟨hphase, -⟩ := movePhase_eq_some.mp heffect
      refine ⟨_, h.client_same hsane hat hclient.lock hclient.semaphore hexec.1.symm
        (Or.inr hphase) (Or.inl rfl) ?_⟩
      intro q' hq'
      rw [hgs, ← hexec.2, ← (movePhase_eq_some.mp hq').2]
      rfl
  | request call =>
      simp only [diskClient] at hexec
      split at hexec
      · rename_i d hrequest
        simp only [Except.ok.injEq, Prod.mk.injEq] at hexec
        refine ⟨_, h.request_step hsane hat hclient.lock hclient.semaphore ?_ ?_⟩
        · rw [hgs, ← hexec.2]
          rfl
        · rw [← hexec.1]
          exact hrequest
      · exact absurd hexec (by simp)

end ClientCode

/-- Every step keeps the threads in their phases. -/
theorem Turn.step (h : Turn contents m phase) (hsane : Sane m.kernel)
    (hstep : m.step choice = .ok m') : Sane m'.kernel ∧ ∃ phase', Turn contents m' phase' := by
  unfold DiskSystem.step at hstep
  simp only at hstep
  split at hstep
  · rename_i hfired
    split at hstep
    · rename_i k' hkernel
      obtain rfl := Except.ok.inj hstep
      have hsane' := hsane.interrupted (DiskSystem.firing m.kernel choice.interrupts)
      obtain ⟨frame, rest, gs, hat⟩ := hsane'.wellFormed.step_at hkernel
      refine ⟨hsane'.step hat hkernel, ?_⟩
      by_cases hclient : ∃ c, frame = .client c
      · obtain ⟨c, rfl⟩ := hclient
        have hzero : DiskSystem.firing m.kernel choice.interrupts = 0 :=
          firing_eq_zero hat (by simp) (by simp) choice.interrupts
        rw [hzero, interrupted_zero] at hat
        exact h.client_step hsane hat
      · exact h.kernel_step hsane hfired hat fun c hc => hclient ⟨c, hc⟩
    · exact absurd hstep (by simp)
  · exact absurd hstep (by simp)

theorem turn_boot (initialValue : SemaphoreId → Int) (contents : Int → δ) :
    Turn contents (DiskSystem.boot initialValue contents) fun _ => .idle := by
  constructor
  case follows =>
    intro t
    by_cases ht : t = 0
    · subst ht
      rfl
    · simp [DiskSystem.boot, Kernel.boot, Function.update_of_ne ht]
  case queued => simp [DiskSystem.boot, Kernel.boot, newLock]
  case device =>
    refine .resting (by simp) ?_ rfl rfl rfl
    simp [DiskSystem.boot, Kernel.boot, newSemaphore]
  case finished => simp
  case answered => simp
  case stored => rfl
  case sequential => simp [SequentialLog, DiskSystem.boot, Kernel.boot, Disk.new]
  case order => rfl

theorem sane_boot (initialValue : SemaphoreId → Int) (contents : Int → δ) :
    Sane (DiskSystem.boot initialValue contents).kernel where
  wellFormed := Kernel.wellFormed_boot _ _ _
  lock := Kernel.lockInvariant_boot _ _ _ 0
  bracketed := Kernel.bracketed_boot _ _ 0 ⟨rfl, rfl⟩

/-- The owner that has not made its request is the one that holds the lock. -/
theorem Turn.pendingOwner (h : Turn contents m phase) (hsane : Sane m.kernel) :
    pendingOwner m.kernel = (m.kernel.lock 0).owner.toList.filter fun t => phase t = .held := by
  unfold Filesys.pendingOwner
  apply List.filter_congr
  intro t ht
  have howner : (m.kernel.lock 0).owner = some t := by simpa using ht
  have hphase := h.owner_phase hsane howner
  have hiff := exists_request_iff (h.follows t)
  rw [Bool.eq_iff_iff, List.any_eq_true, decide_eq_true_iff]
  constructor
  · rintro ⟨f, hf, hrequest⟩
    have hmem : ∃ f ∈ m.kernel.stack t, IsRequest f := by
      refine ⟨f, hf, ?_⟩
      split at hrequest
      · exact ⟨_, rfl⟩
      · exact absurd hrequest (by simp)
    rcases hiff.mp hmem with hasking | hheld
    · rw [hasking] at hphase
      simp at hphase
    · exact hheld
  · intro hheld
    obtain ⟨f, hf, call, rfl⟩ := hiff.mpr (Or.inr hheld)
    exact ⟨_, hf, rfl⟩

/-- In every run the calls of `SynchDisk` are executed one at a time. -/
theorem synchDisk_synchronous {initialValue : SemaphoreId → Int}
    (hrun : DiskSystem.Run (DiskSystem.boot initialValue contents) m) :
    Synchronous contents m := by
  have hinvariant : Sane m.kernel ∧ ∃ phase, Turn contents m phase := by
    refine hrun.invariant (P := fun u => Sane u.kernel ∧ ∃ phase, Turn contents u phase) ?_
      ⟨sane_boot _ _, _, turn_boot _ _⟩
    rintro u v choice ⟨hsane, phase, hturn⟩ - hstep
    exact hturn.step hsane hstep
  obtain ⟨hsane, phase, h⟩ := hinvariant
  constructor
  case notActive => exact fun call htop => (h.request_rests hsane htop).2.1
  case completed =>
    intro htop
    have hcurrent := h.follows m.kernel.currentThread
    rw [Kernel.stack_of_top htop] at hcurrent
    obtain ⟨q, heffect, -⟩ := trace_cons.mp hcurrent
    have hleft := (movePhase_eq_some.mp heffect).1
    exact ⟨h.finished _ (Or.inr hleft), (h.answered _ (Or.inr (Or.inr hleft))).entry⟩
  case order => rw [h.pendingOwner hsane, h.order]
  case sequential => exact h.sequential

/-- The end of a run, found by replaying choices. -/
theorem DiskSystem.exists_run (initialValue : SemaphoreId → Int) (contents : Int → δ)
    {P : DiskSystem δ → Prop} [DecidablePred P] (choices : List (DiskChoice δ))
    (h : (replay DiskSystem.step (fun _ _ => true) choices
      (DiskSystem.boot initialValue contents)).any (fun m => decide (P m)) = true) :
    ∃ m, DiskSystem.Run (DiskSystem.boot initialValue contents) m ∧ P m :=
  exists_reach_of_replay (fun _ _ _ => trivial) h

/-- A step in which the program makes these calls, if it is at a program point of its
own, and these interrupts are due. -/
def diskStep (calls : List (ProgramCall (DiskCall Nat))) (interrupts : List Interrupt) :
    DiskChoice Nat :=
  ⟨interrupts, some 5, calls⟩

/-- One thread writes a sector; another one asks for it meanwhile, waits for the lock
and reads what was written. -/
theorem synchDisk_synchronous_read :
    ∃ m : DiskSystem Nat, DiskSystem.Run (DiskSystem.boot (fun _ => 0) fun _ => 0) m ∧
      m.kernel.top = some (.client .returned) ∧ m.kernel.currentThread = 1 ∧
      m.owners = [0, 1] ∧ m.kernel.client.buffer 1 = some 7 ∧
      m.kernel.client.number 1 ∈ m.kernel.client.completed := by
  obtain ⟨m, hrun, htop, hcurrent, howners, hbuffer⟩ :=
    DiskSystem.exists_run (fun _ => 0) (fun _ => 0)
      (P := fun m : DiskSystem Nat => m.kernel.top = some (.client .returned) ∧
        m.kernel.currentThread = 1 ∧ m.owners = [0, 1] ∧ m.kernel.client.buffer 1 = some 7)
      (List.replicate 2 (diskStep [] []) ++
        [diskStep [.kernel (.threadFork ()), .method (.writeSector 3 7)] []] ++
        List.replicate 14 (diskStep [] []) ++ [diskStep [.method (.readSector 3)] []] ++
        List.replicate 4 (diskStep [] []) ++ [diskStep [] [.device 0]] ++
        List.replicate 17 (diskStep [] []) ++ [diskStep [] [.device 0]] ++
        List.replicate 6 (diskStep [] []))
      (by decide +kernel)
  have hcompleted := ((synchDisk_synchronous hrun).completed htop).1
  rw [hcurrent] at hcompleted
  exact ⟨m, hrun, htop, hcurrent, howners, hbuffer, hcompleted⟩

end Invariant

end Filesys
end Nachos
