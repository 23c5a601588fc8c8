import Nachos.Lib.Stacked
import Nachos.Threads.StepAccounts

/-!
# Which counter a tick is charged to

`Interrupt::OneTick` charges the user or the system by one global variable, the
mode of the machine, which is set and reset by code of different threads: by
`Machine::Run` and `Machine::RaiseException`, and by `OneTick` itself around a
yield.  It is right at every tick because the mode can be read off the stack of
`currentThread`: it is the user's in the loop of `Machine::Run` and in the tick that
the loop calls, and the system's everywhere else.

The client is any code that sets the mode and calls `OneTick` the way `Machine::Run`
and `RaiseException` do; `loop` is its program point for the loop of `Machine::Run`.
-/

namespace Nachos
namespace Threads

open Lib

variable {κ σ ι : Type}

/-- A request of code that has nothing to do with the mode of the machine. -/
def Request.IsModeless (loop : κ) : Request κ → Prop
  | .call (.threadFork body) => body ≠ loop
  | .call _ => True
  | .setLevel _ => True
  | .halt => True
  | .client k => k ≠ loop
  | .oneTick => False
  | .setStatus _ => False

/-- What code that runs the machine may ask for. -/
inductive RunsLoop (loop : κ) : κ → List (Request κ) → Prop
  /-- `Machine::Run` is called. -/
  | run {k : κ} (hk : k ≠ loop) : RunsLoop loop k [.setStatus .userMode, .client loop]
  /-- The loop has run an instruction. -/
  | instruction : RunsLoop loop loop [.oneTick, .client loop]
  /-- The instruction has called `RaiseException`, which calls a handler. -/
  | raises {handler : κ} (hhandler : handler ≠ loop) :
      RunsLoop loop loop [.setStatus .systemMode, .client handler, .setStatus .userMode,
        .oneTick, .client loop]
  /-- The handler halts the machine. -/
  | halts : RunsLoop loop loop [.setStatus .systemMode, .halt]
  /-- Other code. -/
  | other {k : κ} (hk : k ≠ loop) {rs : List (Request κ)}
      (hrs : ∀ r ∈ rs, r.IsModeless loop) : RunsLoop loop k rs

/-- The client sets the mode and calls `OneTick` in the places of `Machine::Run`
and `RaiseException` only. -/
def Client.RunsMachine (client : Client κ σ ι) (loop : κ) : Prop :=
  ∀ input k s state rs, client.exec input k s = .ok (state, rs) → RunsLoop loop k rs

section Modes

variable [DecidableEq κ] (loop : κ)

/-- The mode a stack runs in. -/
def modeOf : List (Frame κ) → MachineStatus
  | .client k :: _ => if k = loop then .userMode else .systemMode
  | .oneTick :: .client k :: _ => if k = loop then .userMode else .systemMode
  | _ => .systemMode

/-- The frame goes back to the mode that what is below it runs in. -/
def BackInMode : Frame κ → List (Frame κ) → Prop
  | .setStatus m, below => m = modeOf loop below
  | .oneTick, below => modeOf loop (.oneTick :: below) = modeOf loop below
  | .call (.threadFork body), below => body ≠ loop ∧ modeOf loop below = .systemMode
  | _, below => modeOf loop below = .systemMode

/-- The loop of `Machine::Run` is in its call of `OneTick`. -/
def AtLoopTick (stack : List (Frame κ)) : Prop :=
  stack.take 2 = [.oneTick, .client loop]

instance (stack : List (Frame κ)) : Decidable (AtLoopTick loop stack) :=
  inferInstanceAs (Decidable (_ = _))

variable {loop}

@[simp]
theorem modeOf_client (k : κ) (stack : List (Frame κ)) :
    modeOf loop (.client k :: stack) = if k = loop then .userMode else .systemMode :=
  rfl

@[simp]
theorem modeOf_tick_client (k : κ) (stack : List (Frame κ)) :
    modeOf loop (.oneTick :: .client k :: stack) =
      if k = loop then .userMode else .systemMode :=
  rfl

@[simp]
theorem modeOf_setStatus (m : MachineStatus) (stack : List (Frame κ)) :
    modeOf loop (.setStatus m :: stack) = .systemMode :=
  rfl

@[simp]
theorem modeOf_halt (stack : List (Frame κ)) : modeOf loop (.halt :: stack) = .systemMode :=
  rfl

theorem modeOf_tick {stack : List (Frame κ)} :
    modeOf loop (.oneTick :: stack) = .userMode ↔ AtLoopTick loop (.oneTick :: stack) := by
  unfold AtLoopTick
  cases stack with
  | nil => simp [modeOf]
  | cons f stack => cases f <;> simp [modeOf]

theorem modeOf_tick_system {stack : List (Frame κ)} (h : modeOf loop stack = .systemMode) :
    modeOf loop (.oneTick :: stack) = .systemMode := by
  cases stack with
  | nil => rfl
  | cons f stack =>
      cases f with
      | client k => simpa [modeOf] using h
      | _ => rfl

theorem modeOf_cases (stack : List (Frame κ)) :
    modeOf loop stack = .userMode ∨ modeOf loop stack = .systemMode := by
  unfold modeOf
  split
  · split
    · exact Or.inl rfl
    · exact Or.inr rfl
  · split
    · exact Or.inl rfl
    · exact Or.inr rfl
  · exact Or.inr rfl

end Modes

/-- The program points at which only kernel code runs. -/
def Frame.isPlain : Frame κ → Bool
  | .client _ => false
  | .oneTick => false
  | .setStatus _ => false
  | _ => true

/-- A piece of kernel code that starts no thread. -/
def IsQuiet (f : Frame κ) : Prop :=
  f.isPlain = true ∧ ∀ body, f ≠ .call (.threadFork body)

/-- What kernel code pushes: more kernel code, or a tick. -/
theorem pushes_plain {level : IntStatus} {frame : Frame κ} {gs : List (Frame κ)}
    (hpushes : frame.Pushes level gs)
    (hframe : frame.isPlain = true) : (∀ f ∈ gs, IsQuiet f) ∨ gs = [.oneTick] := by
  cases frame with
  | setLevel now =>
      rcases hpushes with rfl | ⟨-, rfl⟩
      · exact Or.inl (by simp)
      · exact Or.inr rfl
  | client k => simp [Frame.isPlain] at hframe
  | oneTick => simp [Frame.isPlain] at hframe
  | setStatus m => simp [Frame.isPlain] at hframe
  | halt => exact absurd hpushes id
  | call op =>
      refine Or.inl ?_
      cases op with
      | conditionWait c conditionLock =>
          rcases hpushes with rfl | ⟨l, -, rfl⟩
          · simp [IsQuiet, Frame.isPlain]
          · simp [IsQuiet, Frame.isPlain]
      | lockAcquire l =>
          rcases hpushes with rfl | rfl
          · simp [IsQuiet, Frame.isPlain]
          · simp [IsQuiet, Frame.isPlain]
      | lockRelease l =>
          rcases hpushes with rfl | rfl
          · simp
          · simp [IsQuiet, Frame.isPlain]
      | threadYield =>
          rcases hpushes with rfl | rfl
          · simp [IsQuiet, Frame.isPlain]
          · simp [IsQuiet, Frame.isPlain]
      | _ =>
          obtain rfl := hpushes
          simp [IsQuiet, Frame.isPlain]
  | sleepLoop =>
      refine Or.inl ?_
      rcases hpushes with rfl | rfl
      · simp [IsQuiet, Frame.isPlain]
      · simp [IsQuiet, Frame.isPlain]
  | whileValueZero i =>
      refine Or.inl ?_
      rcases hpushes with rfl | rfl
      · simp
      · simp [IsQuiet, Frame.isPlain]
  | broadcastLoop c conditionLock =>
      refine Or.inl ?_
      rcases hpushes with rfl | rfl
      · simp
      · simp [IsQuiet, Frame.isPlain]
  | _ =>
      refine Or.inl ?_
      obtain rfl := hpushes
      simp [IsQuiet, Frame.isPlain]

section Stacks

variable [DecidableEq κ] {loop : κ} {frame : Frame κ} {gs rest : List (Frame κ)}

/-- Kernel code on top of a stack that goes on in the system's mode. -/
theorem stacked_plain (hframe : frame.isPlain = true)
    (hfork : ∀ body, frame = .call (.threadFork body) → body ≠ loop)
    (hrest : Stacked (BackInMode loop) rest) (hmode : modeOf loop rest = .systemMode) :
    Stacked (BackInMode loop) (frame :: rest) ∧ modeOf loop (frame :: rest) = .systemMode := by
  rw [stacked_cons]
  refine ⟨⟨?_, hrest⟩, ?_⟩
  · cases frame with
    | call op =>
        cases op with
        | threadFork body => exact ⟨hfork body rfl, hmode⟩
        | _ => exact hmode
    | client k => simp [Frame.isPlain] at hframe
    | oneTick => simp [Frame.isPlain] at hframe
    | setStatus m => simp [Frame.isPlain] at hframe
    | _ => exact hmode
  · cases frame with
    | client k => simp [Frame.isPlain] at hframe
    | oneTick => simp [Frame.isPlain] at hframe
    | _ => rfl

theorem stacked_quiet (hgs : ∀ f ∈ gs, IsQuiet f) (hrest : Stacked (BackInMode loop) rest)
    (hmode : modeOf loop rest = .systemMode) :
    Stacked (BackInMode loop) (gs ++ rest) ∧ modeOf loop (gs ++ rest) = .systemMode := by
  induction gs with
  | nil => exact ⟨hrest, hmode⟩
  | cons f gs ih =>
      have hquiet := hgs f List.mem_cons_self
      obtain ⟨hback, hsystem⟩ := ih fun g hg => hgs g (List.mem_cons_of_mem f hg)
      exact stacked_plain hquiet.1 (fun body h => absurd h (hquiet.2 body)) hback hsystem

/-- What kernel code leaves on its stack. -/
theorem stacked_pushes {level : IntStatus} (hpushes : frame.Pushes level gs)
    (hframe : frame.isPlain = true) (hrest : Stacked (BackInMode loop) rest)
    (hmode : modeOf loop rest = .systemMode) :
    Stacked (BackInMode loop) (gs ++ rest) ∧ modeOf loop (gs ++ rest) = .systemMode := by
  rcases pushes_plain hpushes hframe with hquiet | rfl
  · exact stacked_quiet hquiet hrest hmode
  · have htick := modeOf_tick_system hmode
    exact ⟨stacked_cons.mpr ⟨htick.trans hmode.symm, hrest⟩, htick⟩

/-- What code without a mode asks for. -/
theorem stacked_requests {rs : List (Request κ)} (hrs : ∀ r ∈ rs, r.IsModeless loop)
    (hrest : Stacked (BackInMode loop) rest) (hmode : modeOf loop rest = .systemMode) :
    Stacked (BackInMode loop) (rs.map Request.frame ++ rest) ∧
      modeOf loop (rs.map Request.frame ++ rest) = .systemMode := by
  induction rs with
  | nil => exact ⟨hrest, hmode⟩
  | cons r rs ih =>
      have hmodeless := hrs r List.mem_cons_self
      obtain ⟨hback, hsystem⟩ := ih fun q hq => hrs q (List.mem_cons_of_mem r hq)
      cases r with
      | client k =>
          refine ⟨stacked_cons.mpr ⟨hsystem, hback⟩, ?_⟩
          simp only [List.map_cons, List.cons_append, Request.frame, modeOf]
          exact if_neg hmodeless
      | oneTick => exact absurd hmodeless id
      | setStatus m => exact absurd hmodeless id
      | call op =>
          refine stacked_plain rfl (fun body h => ?_) hback hsystem
          obtain rfl : op = .threadFork body := Frame.call.inj h
          exact hmodeless
      | setLevel now => exact stacked_plain rfl (fun body h => by simp [Request.frame] at h) hback hsystem
      | halt => exact stacked_plain rfl (fun body h => by simp [Request.frame] at h) hback hsystem

end Stacks

namespace Kernel

variable [DecidableEq κ]

/-- The mode of the machine is right. -/
structure InMode (loop : κ) (s : Kernel κ σ) : Prop where
  back : ∀ t, Stacked (BackInMode loop) (s.stack t)
  /-- A program point that sets the mode may find any. -/
  current : (∀ m, s.top ≠ some (.setStatus m)) →
    s.machineStatus = modeOf loop (s.stack s.currentThread)
  others : ∀ t, t ≠ s.currentThread → modeOf loop (s.stack t) = .systemMode

section Steps

variable {client : Client κ σ ι} {choice : Choice ι} {s s' : Kernel κ σ} {frame : Frame κ}
  {rest gs : List (Frame κ)} {loop : κ}

omit [DecidableEq κ] in
/-- Outside of ticks only idling touches the mode, and it ends in the system's. -/
theorem StepAt.machineStatus_plain (hat : StepAt client choice s s' frame rest gs)
    (hframe : frame.isPlain = true) :
    s'.machineStatus = s.machineStatus ∨ s'.machineStatus = .systemMode := by
  have hexec := hat.exec
  cases hkind : frame.isAccounting with
  | false => exact Or.inl (hat.sameAccounts hkind).machineStatus
  | true =>
      cases frame with
      | call op =>
          refine Or.inl ?_
          obtain rfl := Except.ok.inj hexec
          cases op with
          | semaphoreV i =>
              exact (raiseSemaphore_raisesOnly i (s.pop.changeLevel .intOff)).machineStatus
          | threadFinish => rfl
          | _ => simp [Frame.isAccounting] at hkind
      | sleepLoop =>
          rcases sleepLoop_ok hexec with ⟨next, ready, -, rfl⟩ | ⟨-, -, advance, rfl⟩
          · exact Or.inl rfl
          · exact Or.inr rfl
      | afterSwitch =>
          refine Or.inl ?_
          rcases afterSwitch_ok hexec with rfl | ⟨t, -, -, rfl⟩
          · rfl
          · rfl
      | whileValueZero i =>
          refine Or.inl ?_
          obtain rfl := Except.ok.inj hexec
          unfold whileValueZero
          split
          · rfl
          · rfl
      | client k => simp [Frame.isPlain] at hframe
      | oneTick => simp [Frame.isPlain] at hframe
      | setStatus m => simp [Frame.isPlain] at hframe
      | _ => simp [Frame.isAccounting] at hkind

/-- What a step leaves on the stack of the thread that makes it, and the mode it
leaves the machine in. -/
structure Leaves (loop : κ) (s' : Kernel κ σ) (stack : List (Frame κ)) : Prop where
  back : Stacked (BackInMode loop) stack
  mode : (∀ m, stack.head? ≠ some (.setStatus m)) → s'.machineStatus = modeOf loop stack

theorem InMode.at_frame (h : s.InMode loop) (hat : StepAt client choice s s' frame rest gs)
    (hframe : ∀ m, frame ≠ .setStatus m) : s.machineStatus = modeOf loop (frame :: rest) := by
  rw [← hat.stack]
  apply h.current
  intro m htop
  exact hframe m (Option.some.inj (hat.top.symm.trans htop))

theorem InMode.below (h : s.InMode loop) (hat : StepAt client choice s s' frame rest gs) :
    BackInMode loop frame rest ∧ Stacked (BackInMode loop) rest :=
  stacked_cons.mp (hat.stack ▸ h.back s.currentThread)

/-- Below kernel code the stack goes on in the system's mode. -/
theorem modeOf_below (hframe : frame.isPlain = true) (hback : BackInMode loop frame rest) :
    modeOf loop rest = .systemMode := by
  cases frame with
  | call op =>
      cases op with
      | threadFork body => exact hback.2
      | _ => exact hback
  | oneTick => simp [Frame.isPlain] at hframe
  | setStatus m => simp [Frame.isPlain] at hframe
  | _ => exact hback

theorem modeOf_plain (hframe : frame.isPlain = true) :
    modeOf loop (frame :: rest) = .systemMode := by
  cases frame with
  | client k => simp [Frame.isPlain] at hframe
  | oneTick => simp [Frame.isPlain] at hframe
  | _ => rfl

/-- Kernel code stays in the system's mode. -/
theorem InMode.leaves_plain (h : s.InMode loop)
    (hat : StepAt client choice s s' frame rest gs) (hframe : frame.isPlain = true) :
    s'.machineStatus = .systemMode ∧ modeOf loop (gs ++ rest) = .systemMode ∧
      Stacked (BackInMode loop) (gs ++ rest) := by
  obtain ⟨hback, hrest⟩ := h.below hat
  have hmode := modeOf_below hframe hback
  obtain ⟨hstacked, hsystem⟩ := stacked_pushes hat.pushes hframe hrest hmode
  refine ⟨?_, hsystem, hstacked⟩
  have hbefore : s.machineStatus = .systemMode := by
    rw [h.at_frame hat fun m hm => by simp [hm, Frame.isPlain] at hframe]
    exact modeOf_plain hframe
  rcases hat.machineStatus_plain hframe with hsame | hidle
  · exact hsame.trans hbefore
  · exact hidle

/-- A client that runs the machine keeps to the mode of its stack. -/
theorem InMode.leaves_client {k : κ} (h : s.InMode loop) (hclient : client.RunsMachine loop)
    (hat : StepAt client choice s s' (.client k) rest gs) : Leaves loop s' (gs ++ rest) := by
  obtain ⟨hback, hrest⟩ := h.below hat
  have hmode : modeOf loop rest = .systemMode := hback
  have hbefore := h.at_frame hat (by simp)
  obtain ⟨state, requests, hok, rfl⟩ := exec_client_ok hat.exec
  have hgs : gs = requests.map Request.frame := by
    have hstack := hat.stack_of_push (u := { s.pop with client := state }) rfl rfl
      (requests.map Request.frame)
    exact List.append_cancel_right (hat.stack_self.symm.trans hstack)
  subst hgs
  have hasks := hclient _ _ _ _ _ hok
  generalize hstate : ({ s.pop with client := state } : Kernel κ σ).push
    (requests.map Request.frame) = after
  have hstatus : after.machineStatus = modeOf loop (.client k :: rest) := by
    rw [← hstate, ← hbefore]
    rfl
  cases hasks with
  | run hk =>
      constructor
      · simp [Request.frame, BackInMode, hmode, hrest]
      · intro hhead
        exact absurd rfl (hhead .userMode)
  | instruction =>
      constructor
      · simp [Request.frame, BackInMode, hmode, hrest]
      · intro _
        rw [hstatus]
        simp [Request.frame]
  | raises hhandler =>
      constructor
      · simp [Request.frame, BackInMode, hmode, hrest, hhandler]
      · intro hhead
        exact absurd rfl (hhead .systemMode)
  | halts =>
      constructor
      · simp [Request.frame, BackInMode, hmode, hrest]
      · intro hhead
        exact absurd rfl (hhead .systemMode)
  | other hk hrs =>
      obtain ⟨hstacked, hsystem⟩ := stacked_requests hrs hrest hmode
      constructor
      · exact hstacked
      · intro _
        rw [hstatus, hsystem]
        simp [hk]

/-- A tick that yields does so in the system's mode and goes back to the old one. -/
theorem InMode.leaves_oneTick (h : s.InMode loop)
    (hat : StepAt client choice s s' .oneTick rest gs) : Leaves loop s' (gs ++ rest) := by
  obtain ⟨hback, hrest⟩ := h.below hat
  have hbefore : s.machineStatus = modeOf loop rest := (h.at_frame hat (by simp)).trans hback
  have hhandled : (s.pop.tickHandled choice.interrupts).machineStatus = s.machineStatus := by
    refine (handleAll_raisesOnly choice.interrupts _).machineStatus.trans ?_
    simp only [changeLevel, advanceClock]
    split
    · rfl
    · rfl
  obtain rfl := Except.ok.inj hat.exec
  have hframe := tickHandled_frame choice.interrupts s.pop
  rcases oneTick_eq choice.interrupts s.pop with htick | htick
  · have hgs : gs ++ rest = rest := by
      rw [← hat.stack_self, htick]
      show (s.pop.tickHandled choice.interrupts).stack s.currentThread = rest
      rw [hframe.stack]
      show s.pop.stack s.currentThread = rest
      rw [pop_stack_self, hat.stack, List.tail_cons]
    rw [hgs, htick]
    exact ⟨hrest, fun _ => hhandled.trans hbefore⟩
  · have hgs : gs ++ rest = [.call .threadYield, .setStatus s.machineStatus] ++ rest := by
      rw [← hat.stack_self, htick]
      refine hat.stack_of_push ?_ ?_ _
      · exact hframe.currentThread
      · exact hframe.stack
    rw [hgs, htick]
    refine ⟨?_, fun _ => rfl⟩
    refine stacked_cons.mpr ⟨rfl, stacked_cons.mpr ⟨hbefore, hrest⟩⟩

/-- Every program point leaves the mode its stack goes on in. -/
theorem InMode.leaves (h : s.InMode loop) (hclient : client.RunsMachine loop)
    (hat : StepAt client choice s s' frame rest gs) : Leaves loop s' (gs ++ rest) := by
  cases hplain : frame.isPlain with
  | true =>
      obtain ⟨hstatus, hsystem, hstacked⟩ := h.leaves_plain hat hplain
      exact ⟨hstacked, fun _ => hstatus.trans hsystem.symm⟩
  | false =>
      cases frame with
      | client k => exact h.leaves_client hclient hat
      | oneTick => exact h.leaves_oneTick hat
      | setStatus m =>
          obtain ⟨hback, hrest⟩ := h.below hat
          obtain rfl : gs = [] := hat.pushes
          obtain rfl := Except.ok.inj hat.exec
          exact ⟨hrest, fun _ => hback⟩
      | _ => simp [Frame.isPlain] at hplain

theorem InMode.step (h : s.InMode loop) (hclient : client.RunsMachine loop)
    (hat : StepAt client choice s s' frame rest gs) : s'.InMode loop := by
  have hleaves := h.leaves hclient hat
  -- the stacks of the other threads: unchanged, or the first frames of a new thread
  have hothers : ∀ t, t ≠ s.currentThread →
      Stacked (BackInMode loop) (s'.stack t) ∧ modeOf loop (s'.stack t) = .systemMode := by
    intro t ht
    rcases hat.stack_other t ht with hsame | ⟨body, rfl, -, hroot⟩
    · rw [hsame]
      exact ⟨h.back t, h.others t ht⟩
    · have hbody : body ≠ loop := (h.below hat).1.1
      rw [hroot]
      simp [rootFrames, BackInMode, modeOf, hbody]
  constructor
  case back =>
    intro t
    by_cases ht : t = s.currentThread
    · rw [ht, hat.stack_self]
      exact hleaves.back
    · exact (hothers t ht).1
  case current =>
    intro hset
    by_cases hcurrent : s'.currentThread = s.currentThread
    · rw [top, hcurrent, hat.stack_self] at hset
      rw [hcurrent, hat.stack_self]
      exact hleaves.mode hset
    · rw [(hothers _ hcurrent).2]
      -- the processor changes hands in kernel code only
      rcases hat.currentThread with hsame | ⟨-, -, -, -, ⟨rfl, -⟩ | ⟨rfl, -⟩⟩
      · exact absurd hsame hcurrent
      · exact (h.leaves_plain hat rfl).1
      · exact (h.leaves_plain hat rfl).1
  case others =>
    intro t ht
    by_cases hold : t = s.currentThread
    · rcases hat.currentThread with hsame | ⟨ready, later, -, hstack, -⟩
      · exact absurd (hold.trans hsame.symm) ht
      · rw [hold, hstack]
        rfl
    · exact (hothers t hold).2

theorem inMode_boot (initialValue : SemaphoreId → Int) (state : σ) {main : κ}
    (hmain : main ≠ loop) : (boot initialValue state main : Kernel κ σ).InMode loop := by
  have hboot : ∀ t, Stacked (BackInMode loop) ((boot initialValue state main : Kernel κ σ).stack t) ∧
      modeOf loop ((boot initialValue state main : Kernel κ σ).stack t) = .systemMode := by
    intro t
    by_cases ht : t = 0
    · subst ht
      simp [boot, BackInMode, modeOf, hmain]
    · simp [boot, Function.update_of_ne ht, modeOf]
  exact ⟨fun t => (hboot t).1, fun _ => (hboot 0).2.symm, fun t _ => (hboot t).2⟩

end Steps

section Counters

variable {client : Client κ σ ι} {choice : Choice ι} {s s' : Kernel κ σ} {frame : Frame κ}
  {rest gs : List (Frame κ)}

omit [DecidableEq κ] in
theorem advanceClock_stats (s : Kernel κ σ) :
    s.advanceClock.stats =
      if s.machineStatus = .systemMode then
        { s.stats with
          totalTicks := s.stats.totalTicks + systemTick
          systemTicks := s.stats.systemTicks + systemTick }
      else
        { s.stats with
          totalTicks := s.stats.totalTicks + userTick
          userTicks := s.stats.userTicks + userTick } := by
  unfold advanceClock
  split
  · rfl
  · rfl

omit [DecidableEq κ] in
/-- The counters a step charges: a tick by the mode, idling by how far the clock
runs, other code nothing. -/
theorem StepAt.stats (hat : StepAt client choice s s' frame rest gs) :
    frame = .oneTick ∧ s'.stats = s.advanceClock.stats ∨
      frame ≠ .oneTick ∧
        (s'.stats = s.stats ∨ ∃ advance, s'.stats = (s.advanceIdle advance).stats) := by
  have hexec := hat.exec
  cases hkind : frame.isAccounting with
  | false =>
      refine Or.inr ⟨?_, Or.inl (hat.sameAccounts hkind).stats⟩
      rintro rfl
      simp [Frame.isAccounting] at hkind
  | true =>
      cases frame with
      | oneTick =>
          refine Or.inl ⟨rfl, ?_⟩
          obtain rfl := Except.ok.inj hexec
          have hhandled : (s.pop.tickHandled choice.interrupts).stats = s.advanceClock.stats := by
            refine (handleAll_raisesOnly choice.interrupts _).stats.trans ?_
            show s.pop.advanceClock.stats = s.advanceClock.stats
            rw [advanceClock_stats, advanceClock_stats]
            rfl
          rcases oneTick_eq choice.interrupts s.pop with htick | htick
          · rw [htick]
            exact hhandled
          · rw [htick]
            exact hhandled
      | call op =>
          refine Or.inr ⟨by simp, Or.inl ?_⟩
          obtain rfl := Except.ok.inj hexec
          cases op with
          | semaphoreV i => exact (raiseSemaphore_raisesOnly i (s.pop.changeLevel .intOff)).stats
          | threadFinish => rfl
          | _ => simp [Frame.isAccounting] at hkind
      | setStatus m =>
          obtain rfl := Except.ok.inj hexec
          exact Or.inr ⟨by simp, Or.inl rfl⟩
      | sleepLoop =>
          refine Or.inr ⟨by simp, ?_⟩
          rcases sleepLoop_ok hexec with ⟨next, ready, -, rfl⟩ | ⟨-, -, advance, rfl⟩
          · exact Or.inl rfl
          · exact Or.inr ⟨advance,
              (handleAll_raisesOnly choice.interrupts (s.pop.advanceIdle advance)).stats⟩
      | afterSwitch =>
          refine Or.inr ⟨by simp, Or.inl ?_⟩
          rcases afterSwitch_ok hexec with rfl | ⟨t, -, -, rfl⟩
          · rfl
          · rfl
      | whileValueZero i =>
          refine Or.inr ⟨by simp, Or.inl ?_⟩
          obtain rfl := Except.ok.inj hexec
          unfold whileValueZero
          split
          · rfl
          · rfl
      | _ => simp [Frame.isAccounting] at hkind

end Counters

end Kernel

section Meter

variable [DecidableEq κ]

/-- A kernel and how often the loop of `Machine::Run` has called `OneTick`. -/
structure Metered (κ σ : Type) where
  kernel : Kernel κ σ
  loopTicks : Nat

namespace Metered

/-- The meter behind a step. -/
def ticksNext (loop : κ) (m : Metered κ σ) : Nat :=
  if AtLoopTick loop (m.kernel.stack m.kernel.currentThread) then m.loopTicks + 1
  else m.loopTicks

/-- One step of the machine with its meter. -/
def step (client : Client κ σ ι) (loop : κ) (choice : Choice ι) (m : Metered κ σ) :
    Except Stop (Metered κ σ) :=
  match m.kernel.step client choice with
  | .ok kernel => .ok ⟨kernel, m.ticksNext loop⟩
  | .error stop => .error stop

/-- The machine at its start. -/
def boot (initialValue : SemaphoreId → Int) (state : σ) (main : κ) : Metered κ σ :=
  ⟨Kernel.boot initialValue state main, 0⟩

/-- The runs of a metered machine. -/
abbrev Run (client : Client κ σ ι) (loop : κ) : Metered κ σ → Metered κ σ → Prop :=
  Reach (step client loop) fun _ _ => True

/-- The tick counters say how time was spent. -/
structure Charged (m : Metered κ σ) : Prop where
  total : m.kernel.stats.totalTicks =
    m.kernel.stats.idleTicks + m.kernel.stats.systemTicks + m.kernel.stats.userTicks
  user : m.kernel.stats.userTicks = m.loopTicks

variable {client : Client κ σ ι} {choice : Choice ι} {m m' : Metered κ σ} {loop : κ}

theorem step_ok (h : m.step client loop choice = .ok m') :
    m.kernel.step client choice = .ok m'.kernel ∧ m'.loopTicks = m.ticksNext loop := by
  unfold step at h
  split at h
  · rename_i kernel hkernel
    obtain rfl := Except.ok.inj h
    exact ⟨hkernel, rfl⟩
  · exact absurd h (by simp)

/-- A step charges the right counter. -/
theorem Charged.step (h : m.Charged) (hmode : m.kernel.InMode loop) {frame : Frame κ}
    {rest gs : List (Frame κ)}
    (hat : Kernel.StepAt client choice m.kernel m'.kernel frame rest gs)
    (hmeter : m'.loopTicks = m.ticksNext loop) : m'.Charged := by
  obtain ⟨htotal, huser⟩ := h
  rw [ticksNext, hat.stack] at hmeter
  rcases hat.stats with ⟨rfl, hstats⟩ | ⟨hframe, hstats⟩
  · have hstatus : m.kernel.machineStatus = modeOf loop (.oneTick :: rest) :=
      hmode.at_frame hat (by simp)
    rw [Kernel.advanceClock_stats] at hstats
    by_cases htick : AtLoopTick loop (.oneTick :: rest)
    · rw [modeOf_tick.mpr htick] at hstatus
      rw [if_pos htick] at hmeter
      rw [hstatus, if_neg (by simp)] at hstats
      constructor
      · rw [hstats]
        simp only
        omega
      · rw [hstats, hmeter, ← huser]
        rfl
    · have hsystem : modeOf loop (.oneTick :: rest) = .systemMode :=
        (modeOf_cases _).resolve_left fun huserMode => htick (modeOf_tick.mp huserMode)
      rw [hsystem] at hstatus
      rw [if_neg htick] at hmeter
      rw [hstatus, if_pos rfl] at hstats
      constructor
      · rw [hstats]
        simp only
        omega
      · rw [hstats, hmeter, ← huser]
  · have hnoTick : ¬ AtLoopTick loop (frame :: rest) := by
      intro htick
      unfold AtLoopTick at htick
      exact hframe (List.cons.inj htick).1
    rw [if_neg hnoTick] at hmeter
    rcases hstats with hsame | ⟨advance, hidle⟩
    · exact ⟨by rw [hsame]; exact htotal, by rw [hsame, hmeter]; exact huser⟩
    · constructor
      · rw [hidle]
        simp only [Kernel.advanceIdle]
        omega
      · rw [hidle, hmeter]
        exact huser

/-- In every run of code that runs the machine the way the source does, the
counters say how time was spent. -/
theorem Run.charged {initialValue : SemaphoreId → Int} {state : σ} {main : κ}
    (hclient : client.RunsMachine loop) (hmain : main ≠ loop)
    (hrun : Run client loop (boot initialValue state main) m) : m.Charged := by
  suffices h : m.kernel.WellFormed ∧ m.kernel.InMode loop ∧ m.Charged from h.2.2
  refine hrun.invariant
    (P := fun u => u.kernel.WellFormed ∧ u.kernel.InMode loop ∧ u.Charged) ?_
    ⟨Kernel.wellFormed_boot _ _ _, Kernel.inMode_boot _ _ hmain, rfl, rfl⟩
  rintro u v choice ⟨hwf, hmode, hcharged⟩ - hstep
  obtain ⟨hkernel, hmeter⟩ := step_ok hstep
  obtain ⟨frame, rest, gs, hat⟩ := hwf.step_at hkernel
  exact ⟨Kernel.wellFormed_step hwf hkernel, hmode.step hclient hat,
    hcharged.step hmode hat hmeter⟩

/-- The end of a metered run, found by replaying choices. -/
theorem exists_run (client : Client κ σ ι) (loop : κ) {P : Metered κ σ → Prop}
    [DecidablePred P] (initialValue : SemaphoreId → Int) (state : σ) (main : κ)
    (choices : List (Choice ι))
    (h : (replay (step client loop) (fun _ _ => true) choices
      (boot initialValue state main)).any (fun m => decide (P m)) = true) :
    ∃ m, Run client loop (boot initialValue state main) m ∧ P m :=
  exists_reach_of_replay (fun _ _ _ => trivial) h

end Metered

end Meter

end Threads
end Nachos
