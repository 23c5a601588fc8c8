import Nachos.Threads.LockBrackets

/-!
# Programs that use a private object

Many classes of the kernel keep a lock, a semaphore or a condition as private members.
A program is any code of threads beside such a class: it may use all operations of the
kernel on other objects, start threads, and call the methods of the class.  The
private objects have the identities below `n`, those of the program the others.
-/

namespace Nachos
namespace Threads

open Lib

variable {κ μ : Type}

/-- What a program does next. -/
inductive ProgramCall (μ : Type)
  | kernel (op : Op Unit)
  | setLevel (now : IntStatus)
  | halt
  /-- Call a method of the class. -/
  | method (m : μ)
  /-- Go on with the program. -/
  | more

/-- An operation on objects of the program; threads are started with the program. -/
def publicOp (n : Nat) (program : κ) : Op Unit → Op κ
  | .semaphoreP s => .semaphoreP (n + s)
  | .semaphoreV s => .semaphoreV (n + s)
  | .lockAcquire l => .lockAcquire (n + l)
  | .lockRelease l => .lockRelease (n + l)
  | .conditionWait c l => .conditionWait (n + c) (l.map (n + ·))
  | .conditionSignal c l => .conditionSignal (n + c) (l.map (n + ·))
  | .conditionBroadcast c l => .conditionBroadcast (n + c) (l.map (n + ·))
  | .threadFork _ => .threadFork program
  | .threadYield => .threadYield
  | .threadFinish => .threadFinish

/-- The request of a program; `enter` is the first program point of a method. -/
def ProgramCall.request (n : Nat) (program : κ) (enter : μ → κ) : ProgramCall μ → Request κ
  | .kernel op => .call (publicOp n program op)
  | .setLevel now => .setLevel now
  | .halt => .halt
  | .method m => .client (enter m)
  | .more => .client program

section Brackets

variable {n : Nat} {program : κ} {enter : μ → κ} {inside after : κ → Bool} {l : LockId}

/-- A program leaves private locks alone. -/
theorem trace_program (hl : l < n) (hprogram : inside program = false ∧ after program = false)
    (henter : ∀ m, inside (enter m) = false ∧ after (enter m) = false)
    (calls : List (ProgramCall μ)) :
    trace (lockEffect inside after l) false
      ((calls.map (ProgramCall.request n program enter)).map Request.frame) = some false := by
  apply trace_of_neutral
  intro frame hframe
  obtain ⟨r, hr, rfl⟩ := List.mem_map.mp hframe
  obtain ⟨call, -, rfl⟩ := List.mem_map.mp hr
  have hne : ∀ l' : Nat, n + l' ≠ l := by
    rintro l' rfl
    exact Nat.not_lt.mpr (Nat.le_add_right n l') hl
  cases call with
  | kernel op =>
      cases op with
      | lockAcquire l' => exact if_neg (hne l')
      | lockRelease l' => exact if_neg (hne l')
      | conditionWait c conditionLock =>
          cases conditionLock with
          | none => rfl
          | some l' => exact if_neg (hne l')
      | threadFork body => exact if_pos hprogram
      | _ => rfl
  | setLevel now => rfl
  | halt => rfl
  | method m =>
      show movePhase _ _ false = some false
      rw [(henter m).1, (henter m).2]
      exact movePhase_self
  | more =>
      show movePhase _ _ false = some false
      rw [hprogram.1, hprogram.2]
      exact movePhase_self

end Brackets

namespace Kernel

section Steps

variable {σ ι P : Type} {client : Client κ σ ι} {choice : Choice ι} {k k' : Kernel κ σ}
  {frame : Frame κ} {rest gs : List (Frame κ)}

/-- The stacks behind a step.  The thread that makes it goes on in a phase from which
what it pushes does the rest of what its frame does. -/
theorem StepAt.follows {effect : Frame κ → P → Option P} {out p' : P} {phase : ThreadId → P}
    (hat : StepAt client choice k k' frame rest gs) (hwf : k.WellFormed)
    (hfollows : ∀ t, trace effect (phase t) (k.stack t) = some out)
    (hp : ∀ q, effect frame (phase k.currentThread) = some q → trace effect p' gs = some q)
    (hroot : ∀ body p q, effect (.call (.threadFork body)) p = some q →
      trace effect out (rootFrames body) = some out) (t : ThreadId) :
    trace effect (Function.update phase k.currentThread p' t) (k'.stack t) = some out := by
  by_cases ht : t = k.currentThread
  · subst ht
    have hcurrent := hfollows k.currentThread
    rw [hat.stack] at hcurrent
    obtain ⟨q, heffect, hrest⟩ := trace_cons.mp hcurrent
    rw [Function.update_self, hat.stack_self]
    exact trace_append.mpr ⟨q, hp q heffect, hrest⟩
  · rw [Function.update_of_ne ht]
    rcases hat.stack_other t ht with hsame | ⟨body, rfl, hnew, hstack⟩
    · rw [hsame]
      exact hfollows t
    · have hunborn := hfollows t
      rw [hwf.unborn t (Nat.le_of_eq hnew.symm)] at hunborn
      have hfork := hfollows k.currentThread
      rw [hat.stack] at hfork
      obtain ⟨q, heffect, -⟩ := trace_cons.mp hfork
      rw [hstack, Option.some.inj hunborn]
      exact hroot body _ q heffect

/-- Where client code that is still to be run comes from. -/
theorem StepAt.client_mem (hat : StepAt client choice k k' frame rest gs) {c : κ} {t : ThreadId}
    (hmem : .client c ∈ k'.stack t) :
    .client c ∈ k.stack t ∨ (t = k.currentThread ∧ .client c ∈ gs) ∨
      frame = .call (.threadFork c) := by
  by_cases ht : t = k.currentThread
  · subst ht
    rw [hat.stack_self] at hmem
    rcases List.mem_append.mp hmem with hpushed | hrest
    · exact Or.inr (Or.inl ⟨rfl, hpushed⟩)
    · rw [hat.stack]
      exact Or.inl (List.mem_cons_of_mem frame hrest)
  · rcases hat.stack_other t ht with hsame | ⟨body, hframe, -, hstack⟩
    · exact Or.inl (hsame ▸ hmem)
    · rw [hstack] at hmem
      obtain rfl : c = body := by simpa [rootFrames] using hmem
      exact Or.inr (Or.inr hframe)

/-- What client code does to the kernel: it pushes its calls. -/
structure ClientStep (client : Client κ σ ι) (choice : Choice ι) (k k' : Kernel κ σ) (c : κ)
    (requests : List (Request κ)) : Prop where
  exec : client.exec choice.input c k.pop = .ok (k'.client, requests)
  lock : k'.lock = k.lock
  condition : k'.condition = k.condition
  semaphore : k'.semaphore = k.semaphore
  currentThread : k'.currentThread = k.currentThread

theorem StepAt.clientStep {c : κ} (hat : StepAt client choice k k' (.client c) rest gs) :
    ∃ requests, ClientStep client choice k k' c requests ∧ gs = requests.map Request.frame := by
  obtain ⟨state, requests, hexec, hk'⟩ := exec_client_ok hat.exec
  have hgs : gs = requests.map Request.frame := by
    have hstack := hat.stack_of_push (u := { k.pop with client := state }) rfl rfl
      (requests.map Request.frame)
    rw [← hk'] at hstack
    exact List.append_cancel_right (hat.stack_self.symm.trans hstack)
  refine ⟨requests, ?_, hgs⟩
  rw [hk']
  exact ⟨hexec, rfl, rfl, rfl, rfl⟩

end Steps

end Kernel

end Threads
end Nachos
