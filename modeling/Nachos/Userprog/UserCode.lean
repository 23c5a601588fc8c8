import Nachos.Machine.Safety
import Nachos.Userprog.ContextSwitch
import Nachos.Userprog.Isolation

/-!
# User programs and the host

A user program runs with the page table of an address space and with registers
that a thread has in some state of the system.  Whatever is in memory, each call of
`OneInstruction` is carried out by the host under the condition `Carried`, and only
then.
-/

namespace Nachos
namespace Userprog

open Threads Lib

namespace System

section UserCode

variable {m u : System} {space : SpaceId} {a : AddrSpace}

/-- The page table of an address space can be walked to its end. -/
theorem hosted_machine (hbuilt : u.Reachable) (ha : u.addrSpace space = some a)
    {registers : Registers} (hload : (registers loadReg).toNat < numTotalRegs) (mem : Memory) :
    (a.machine registers mem).Hosted where
  loadBounded := hload
  installed := ⟨a.pageTable, rfl, Nat.le_of_eq (hbuilt.paged.length space a ha).symm⟩

/-- With registers and a page table that the system gets to, and whatever is in
memory: any number of calls later `OneInstruction` returns or raises an exception
and asks for no undefined operation of the host if and only if the host carries out
the instruction. -/
theorem instructions_safe_iff (hreach : m.Reachable) (hbuilt : u.Reachable)
    (ha : u.addrSpace space = some a) (mem : Memory) (n : Nat) :
    ((a.machine m.cpu.registers mem).after n).Safe ↔
      ((a.machine m.cpu.registers mem).after n).Carried := by
  have hhosted := hosted_machine hbuilt ha hreach.switched.loads mem
  exact Machine.safe_iff_carried (hhosted.after n)

/-- Behind `addiu r2, r0, 2` and `addiu r3, r2, 3` a program adds the two, and the host carries the
addition out. -/
theorem instructions_safe_iff_addu :
    ∃ (m : System) (a : AddrSpace), m.Reachable ∧ m.Executes 0 ∧
      m.addrSpace (m.kernel.client.space 0) = some a ∧
      ((a.machine m.cpu.registers m.mainMemory).after 2).Carried := by
  obtain ⟨m, hreach, hexec, hspace⟩ := exists_reachable (P := fun m => m.Executes 0 ∧
      (m.addrSpace (m.kernel.client.space 0)).any fun a =>
        decide ((a.machine m.cpu.registers m.mainMemory).after 2).Safe)
    (fun _ => 0)
    (List.replicate 19 (undisturbed (program [0x24020002, 0x24430003, 0x00432021] 0)))
    (by decide +kernel)
  obtain ⟨a, ha, hsafe⟩ := (Option.any_eq_true _ _).mp hspace
  refine ⟨m, a, hreach, hexec, ha, ?_⟩
  rw [← instructions_safe_iff hreach hreach ha m.mainMemory 2]
  exact of_decide_eq_true hsafe

/-- `lwl r2, 1(r0)`: the address is not that of a word, and the `ASSERT` of the
partial load fails. -/
theorem instruction_unsafe_lwl :
    ¬ ∀ (m u : System) (t : ThreadId) (space : SpaceId) (a : AddrSpace) (mem : Memory) (n : Nat),
      m.Reachable → m.Executes t → u.Reachable → u.addrSpace space = some a →
        ((a.machine m.cpu.registers mem).after n).Safe := by
  obtain ⟨m, hreach, hexec, hspace⟩ := exists_reachable (P := fun m => m.Executes 0 ∧
      (m.addrSpace (m.kernel.client.space 0)).any fun a =>
        !decide (a.machine m.cpu.registers m.mainMemory).Safe)
    (fun _ => 0) (List.replicate 19 (undisturbed (program [0x88020001] 0))) (by decide +kernel)
  obtain ⟨a, ha, hunsafe⟩ := (Option.any_eq_true _ _).mp hspace
  intro hsafe
  have hfirst : (a.machine m.cpu.registers m.mainMemory).Safe :=
    hsafe m m 0 _ a m.mainMemory 0 hreach hexec hreach ha
  exact absurd hfirst (by simpa using hunsafe)

end UserCode

end System

end Userprog
end Nachos
