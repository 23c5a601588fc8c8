import Nachos.Lib.Simulation
import Nachos.Machine.DelayedLoads
import Nachos.Machine.UserMemory

/-!
# The load delay does not show

A second machine writes the register of a load at once.  Where no instruction
reads or writes, in the delay slot of a load, the register of the load, it computes
what the first one computes once the load on its way is done, instruction for
instruction, whatever interrupts and traps come in between.

`Running` relates the two machines while an instruction is carried out, for a load
that is on its way; it is kept by each primitive that stays off the register of the
load.
-/

namespace Nachos

/-- The registers with the load on its way done and none on its way. -/
def done (registers : Registers) : Registers := fun r =>
  if r = loadReg ∨ r = loadValueReg then 0 else withPending registers r

namespace Machine

open Lib

section AtOnce

/-- A load that writes its register at once. -/
def loadAtOnce (reg : Register) (value : Word) : Code Unit := do
  writeRegister reg value
  writeRegister 0 0

/-- The end of `OneInstruction` for such loads. -/
def advanceAtOnce (next : Next) : Code Unit := do
  loadAtOnce next.nextLoadReg next.nextLoadValue
  writeRegister prevPCReg (← readRegister pcReg)
  writeRegister pcReg (← readRegister nextPCReg)
  writeRegister nextPCReg next.pcAfter

/-- `OneInstruction` for loads that write their register at once.  No load is ever on
its way, so that `OP_LWL` and `OP_LWR` read the register itself. -/
def oneInstructionAtOnce : Code Unit := do
  let raw ← readMem (← readRegister pcReg) 4
  let pcAfter ← intAdd (← readRegister nextPCReg) 4
  advanceAtOnce (← execute (decode raw) pcAfter)

end AtOnce

section Operands

/-- The instruction reads `registers[rs]`. -/
def readsRs : OpCode → Bool
  | .j | .jal | .lui | .mfhi | .mflo | .rfe | .sll | .sra | .srl | .syscall | .unimp | .res
  | .special | .bcond => false
  | _ => true

/-- The instruction reads `registers[rt]`, other than by the load on its way. -/
def readsRt : OpCode → Bool
  | .add | .addu | .and | .beq | .bne | .div | .divu | .mult | .multu | .nor | .or | .sb | .sh
  | .sll | .sllv | .slt | .sltu | .sra | .srav | .srl | .srlv | .sub | .subu | .sw | .swl | .swr
  | .xor => true
  | _ => false

/-- The general register the instruction writes, other than by a load. -/
def destination (instr : Instruction) : Option Register :=
  match instr.opCode with
  | .add | .addu | .and | .jalr | .mfhi | .mflo | .nor | .or | .sll | .sllv | .slt | .sltu | .sra
  | .srav | .srl | .srlv | .sub | .subu | .xor => some instr.rd
  | .addi | .addiu | .andi | .lui | .ori | .slti | .sltiu | .xori => some instr.rt
  | .bgezal | .bltzal | .jal => some r31
  | _ => none

/-- The instruction reads or writes the register.  A load's own register, which
`OP_LWL` and `OP_LWR` read as well, does not count: the load on its way stands for
it. -/
def Touches (instr : Instruction) (r : Register) : Prop :=
  (readsRs instr.opCode = true ∧ r = instr.rs) ∨ (readsRt instr.opCode = true ∧ r = instr.rt) ∨
    destination instr = some r

instance (instr : Instruction) (r : Register) : Decidable (Touches instr r) :=
  inferInstanceAs (Decidable (_ ∨ _ ∨ _))

/-- No load of the register is on its way. -/
def Arrived (pending : Word) (r : Register) : Prop := r = 0 ∨ pending.toNat ≠ r.val

instance (pending : Word) (r : Register) : Decidable (Arrived pending r) :=
  inferInstanceAs (Decidable (_ ∨ _))

end Operands

section Running

/-- The two machines while an instruction is carried out, with a load of `pending` on
its way in the first. -/
structure Running (pending : Word) (m i : Machine) : Prop where
  loading : m.registers loadReg = pending
  general : pending.toNat < 32
  same : i = { m with registers := done m.registers }

/-- The two machines when an exception has ended an instruction: they are the same. -/
def Entered (trap : Trap) (m i : Machine) : Prop := ∀ which, trap = .exception which → i = m

/-- The code of the two machines runs alike, but for the load on its way. -/
abbrev Alikes {A B : Type} (pending : Word) (R : A → B → Prop) (x : Code A) (y : Code B) : Prop :=
  Simulates (Running pending) Entered R x y

variable {pending : Word} {m i : Machine} {A B : Type} {R : A → B → Prop}

theorem done_of_arrived {registers : Registers} (hpending : registers loadReg = pending)
    {r : Register} (harrived : Arrived pending r) (hload : r ≠ loadReg)
    (hvalue : r ≠ loadValueReg) : done registers r = registers r := by
  have hneither : ¬ (r = loadReg ∨ r = loadValueReg) := not_or.mpr ⟨hload, hvalue⟩
  have hother : ¬ (r ≠ 0 ∧ (registers loadReg).toNat = r.val) := by
    rintro ⟨hzero, heq⟩
    rw [hpending] at heq
    exact harrived.elim hzero fun hne => hne heq
  unfold done withPending
  rw [if_neg hneither, if_neg hother]

/-- The special registers are never the register of a load. -/
theorem arrived_special (hgeneral : pending.toNat < 32) {r : Register} (hr : 32 ≤ r.val) :
    Arrived pending r :=
  Or.inr (by omega)

/-- A register with no load on its way reads the same on both machines. -/
theorem alikes_read (num : Register) (hload : num ≠ loadReg) (hvalue : num ≠ loadValueReg) :
    Alikes pending (fun a b => Arrived pending num → a = b) (readRegister num)
      (readRegister num) := by
  intro m i h
  refine .ok (fun harrived => ?_) h
  rw [h.same]
  exact (done_of_arrived h.loading harrived hload hvalue).symm

theorem alikes_read_eq {num : Register} (harrived : pending.toNat < 32 → Arrived pending num)
    (hload : num ≠ loadReg) (hvalue : num ≠ loadValueReg) :
    Alikes pending Eq (readRegister num) (readRegister num) := by
  intro m i h
  refine .ok ?_ h
  rw [h.same]
  exact (done_of_arrived h.loading (harrived h.general) hload hvalue).symm

/-- Finishing the load and writing another register commute. -/
theorem done_update {registers : Registers} (hpending : registers loadReg = pending)
    {num : Register} (harrived : Arrived pending num) (hload : num ≠ loadReg)
    (hvalue : num ≠ loadValueReg) (value : Word) :
    done (Function.update registers num value) = Function.update (done registers) num value := by
  have hsame : Function.update registers num value loadReg = registers loadReg :=
    Function.update_of_ne hload.symm _ _
  have hsameValue : Function.update registers num value loadValueReg = registers loadValueReg :=
    Function.update_of_ne hvalue.symm _ _
  funext r
  by_cases hr : r = num
  · subst hr
    rw [done_of_arrived (hsame.trans hpending) harrived hload hvalue, Function.update_self,
      Function.update_self]
  · unfold done withPending
    rw [hsame, hsameValue, Function.update_of_ne hr, Function.update_of_ne hr]

/-- Writing a register with no load on its way. -/
theorem alikes_write {num : Register} (harrived : pending.toNat < 32 → Arrived pending num)
    (hload : num ≠ loadReg) (hvalue : num ≠ loadValueReg) (value : Word) :
    Alikes pending Eq (writeRegister num value) (writeRegister num value) := by
  intro m i h
  have hsame : Function.update m.registers num value loadReg = m.registers loadReg :=
    Function.update_of_ne hload.symm _ _
  refine .ok rfl ⟨hsame.trans h.loading, h.general, ?_⟩
  rw [h.same, done_update h.loading (harrived h.general) hload hvalue]

theorem alikes_note (overflow : Bool) : Alikes pending Eq (note overflow) (note overflow) := by
  intro m i h
  refine .ok rfl ⟨h.loading, h.general, ?_⟩
  rw [h.same]

/-- The host stops on both machines. -/
theorem alikes_throw {trap : Trap} (h : ∀ which, trap ≠ .exception which) :
    Alikes pending R (throw trap : Code A) (throw trap : Code B) :=
  fun _ _ _ => .error fun which htrap => absurd htrap (h which)

/-- `DelayedLoad(0, 0)` where `LoadReg` names a general register. -/
theorem delayedLoad_done (h : m.LoadsGeneral) :
    delayedLoad 0 0 m = .ok () { m with registers := Function.update (done m.registers) 0 0 } := by
  rcases delayedLoad_cases 0 0 m with ⟨-, registers, -, hload⟩ | ⟨hbound, -⟩
  · rw [hload]
    congr 2
    funext r
    have hr := delayedLoad_registers hload r
    dsimp only at hr
    rw [hr]
    unfold done
    by_cases hzero : r = 0
    · rw [if_pos hzero, hzero, Function.update_self]
    · rw [if_neg hzero, Function.update_of_ne hzero]
      by_cases hvalue : r = loadValueReg
      · rw [if_pos hvalue, if_pos (Or.inr hvalue)]
      · by_cases hreg : r = loadReg
        · rw [if_neg hvalue, if_pos hreg, if_pos (Or.inl hreg)]
        · rw [if_neg hvalue, if_neg hreg, if_neg (not_or.mpr ⟨hreg, hvalue⟩)]
  · exact absurd h.loadBounded hbound

/-- With no load on its way there is nothing to be done. -/
theorem done_done (registers : Registers) : done (done registers) = done registers := by
  have hzero : done registers loadReg = 0 := if_pos (Or.inl rfl)
  funext r
  by_cases hspecial : r = loadReg ∨ r = loadValueReg
  · exact (if_pos hspecial).trans (if_pos hspecial).symm
  · refine (if_neg hspecial).trans (if_neg ?_)
    rintro ⟨hne, heq⟩
    rw [hzero] at heq
    exact hne (Fin.ext heq.symm)

/-- An exception finishes the load on its way, and the machines are the same. -/
theorem alikes_raise (which : ExceptionType) (badVAddr : Word) :
    Alikes pending R (raiseException which badVAddr : Code A)
      (raiseException which badVAddr : Code B) := by
  intro m i h
  have hbad : Arrived pending badVAddrReg := arrived_special h.general (by decide)
  have hnoted : done (Function.update m.registers badVAddrReg badVAddr) =
      Function.update (done m.registers) badVAddrReg badVAddr :=
    done_update h.loading hbad (by decide) (by decide) badVAddr
  have hload : Function.update m.registers badVAddrReg badVAddr loadReg = pending :=
    (Function.update_of_ne (by decide) _ _).trans h.loading
  have hfirst : LoadsGeneral { m with
      registers := Function.update m.registers badVAddrReg badVAddr } :=
    (congrArg (fun w : Word => w.toNat < 32) hload).mpr h.general
  have hsecond : LoadsGeneral { m with
      registers := done (Function.update m.registers badVAddrReg badVAddr) } := by
    have hzero : done (Function.update m.registers badVAddrReg badVAddr) loadReg = 0 :=
      if_pos (Or.inl rfl)
    exact (congrArg (fun w : Word => w.toNat < 32) hzero).mpr (by decide)
  have hfinish := delayedLoad_done hsecond
  rw [h.same]
  simp only [raiseException, writeRegister, bind_apply]
  rw [← hnoted, delayedLoad_done hfirst, hfinish]
  refine .error fun _ _ => ?_
  rw [done_done]

/-- `Translate` has no use for the registers. -/
theorem translate_registers (registers : Registers) (m : Machine) (virtAddr : Word) (size : Nat)
    (writing : Bool) :
    translate virtAddr size writing { m with registers := registers } =
      match translate virtAddr size writing m with
      | .ok answer m' => .ok answer { m' with registers := registers }
      | .error trap m' => .error trap { m' with registers := registers } := by
  unfold translate
  dsimp only
  repeat' first
    | rfl
    | split

/-- `Translate` leaves the registers alone and raises nothing itself. -/
theorem translate_ends (virtAddr : Word) (size : Nat) (writing : Bool) :
    Ends (fun m trap m' => m'.registers = m.registers ∧ ∀ which, trap ≠ some (.exception which))
      (translate virtAddr size writing) := by
  intro m
  unfold translate
  dsimp only
  repeat' first
    | exact ⟨rfl, fun _ => by simp⟩
    | split

theorem alikes_translate (virtAddr : Word) (size : Nat) (writing : Bool) :
    Alikes pending Eq (translate virtAddr size writing) (translate virtAddr size writing) := by
  intro m i h
  obtain ⟨hkeeps, hstops⟩ := translate_ends virtAddr size writing m
  have hsecond := translate_registers (done m.registers) m virtAddr size writing
  rw [← h.same] at hsecond
  rw [hsecond]
  cases hanswer : translate virtAddr size writing m with
  | ok answer m' =>
      rw [hanswer, endState_ok] at hkeeps
      have hrunning : Running pending m' { m' with registers := done m.registers } :=
        ⟨by rw [hkeeps, h.loading], h.general, by rw [hkeeps]⟩
      exact Alike.ok rfl hrunning
  | error trap m' =>
      rw [hanswer, exit_error] at hstops
      have hentered : Entered trap m' { m' with registers := done m.registers } :=
        fun which htrap => absurd (congrArg some htrap) (hstops which)
      exact Alike.error hentered

theorem alikes_memory : Alikes pending (fun m i : Machine => m.mainMemory = i.mainMemory) get get := by
  intro m i h
  refine .ok ?_ h
  rw [h.same]

/-- A read of memory. -/
theorem alikes_readMem (addr : Word) (size : Nat) :
    Alikes pending Eq (readMem addr size) (readMem addr size) := by
  refine (alikes_translate addr size false).bind_eq fun answer => ?_
  cases answer with
  | error which => exact alikes_raise which addr
  | ok physicalAddress =>
      refine alikes_memory.bind fun m i hmemory => ?_
      dsimp only
      rw [hmemory]
      split
      · exact Simulates.pure rfl
      · exact Simulates.pure rfl
      · exact Simulates.pure rfl
      · exact alikes_throw fun _ => by simp

/-- A store, through what has been read of memory before. -/
theorem alikes_store (mem : Memory) :
    Alikes pending Eq (modify fun m : Machine => { m with mainMemory := mem })
      (modify fun m : Machine => { m with mainMemory := mem }) := by
  intro m i h
  refine .ok rfl ⟨h.loading, h.general, ?_⟩
  rw [h.same]

theorem alikes_writeMem (addr : Word) (size : Nat) (value : Word) :
    Alikes pending Eq (writeMem addr size value) (writeMem addr size value) := by
  refine (alikes_translate addr size true).bind_eq fun answer => ?_
  cases answer with
  | error which => exact alikes_raise which addr
  | ok physicalAddress =>
      refine alikes_memory.bind fun m i hmemory => ?_
      dsimp only
      rw [hmemory]
      split
      · exact alikes_store _
      · exact alikes_store _
      · exact alikes_store _
      · exact alikes_throw fun _ => by simp

theorem pendingValue_eq (rt : Register) (m : Machine) :
    pendingValue rt m = .ok (if m.registers loadReg = BitVec.ofNat 32 rt.val then
      m.registers loadValueReg else m.registers rt) m := by
  simp only [pendingValue, readRegister, bind_apply]
  split
  · rfl
  · rfl

/-- `OP_LWL` and `OP_LWR` see the load on its way as the register it is for. -/
theorem alikes_pendingValue {rt : Register} (hrt : rt.val < 32) :
    Alikes pending (fun a b => rt ≠ 0 → a = b) (pendingValue rt) (pendingValue rt) := by
  intro m i h
  have hspecial : ¬ (rt = loadReg ∨ rt = loadValueReg) := by
    rintro (rfl | rfl)
    · exact absurd hrt (by decide)
    · exact absurd hrt (by decide)
  have hnumber (registers : Registers) : registers loadReg = BitVec.ofNat 32 rt.val ↔
      (registers loadReg).toNat = rt.val := by
    rw [← BitVec.toNat_inj, BitVec.toNat_ofNat, Nat.mod_eq_of_lt (by omega)]
  rw [pendingValue_eq, pendingValue_eq]
  refine .ok (fun hzero => ?_) h
  have hdone : done m.registers loadReg = 0 := if_pos (Or.inl rfl)
  have hnone : ¬ done m.registers loadReg = BitVec.ofNat 32 rt.val := by
    rw [hnumber, hdone]
    exact fun heq => hzero (Fin.ext heq.symm)
  have hsecond : done m.registers rt = withPending m.registers rt := if_neg hspecial
  rw [h.same]
  refine Eq.trans ?_ ((if_neg hnone).trans hsecond).symm
  unfold withPending
  simp only [hnumber]
  simp only [hzero, ne_eq, not_false_eq_true, true_and]

end Running

section Execute

variable {pending : Word}

/-- The two machines have got to the same end of the `switch`.  What is loaded into `r0`
does not matter. -/
structure SameNext (a b : Next) : Prop where
  pcAfter : a.pcAfter = b.pcAfter
  nextLoadReg : a.nextLoadReg = b.nextLoadReg
  nextLoadValue : a.nextLoadReg ≠ 0 → a.nextLoadValue = b.nextLoadValue

theorem SameNext.refl (next : Next) : SameNext next next := ⟨rfl, rfl, fun _ => rfl⟩

theorem alikes_next (next : Next) :
    Alikes pending SameNext (pure next : Code Next) (pure next : Code Next) :=
  Simulates.pure (SameNext.refl next)

theorem alikes_intAdd (a b : Word) : Alikes pending Eq (intAdd a b) (intAdd a b) :=
  (alikes_note _).bind_eq fun _ => Simulates.pure rfl

theorem alikes_intSub (a b : Word) : Alikes pending Eq (intSub a b) (intSub a b) :=
  (alikes_note _).bind_eq fun _ => Simulates.pure rfl

theorem alikes_intDiv (a b : Word) : Alikes pending Eq (intDiv a b) (intDiv a b) := by
  unfold intDiv
  exact Simulates.ite (Simulates.pure rfl)
    (Simulates.ite (alikes_throw fun _ => by simp) (Simulates.pure rfl))

theorem alikes_negateIf (negate : Bool) (a : Word) :
    Alikes pending Eq (negateIf negate a) (negateIf negate a) := by
  unfold negateIf
  exact Simulates.ite ((alikes_note _).bind_eq fun _ => Simulates.pure rfl) (Simulates.pure rfl)

theorem alikes_mult (a b : Word) (signedArith : Bool) :
    Alikes pending Eq (mult a b signedArith) (mult a b signedArith) := by
  unfold mult
  exact Simulates.ite (Simulates.pure rfl) ((alikes_negateIf _ _).bind_eq fun _ =>
    (alikes_negateIf _ _).bind_eq fun _ => Simulates.pure rfl)

theorem alikes_assertAligned (tmp : Word) :
    Alikes pending Eq (assertAligned tmp) (assertAligned tmp) := by
  unfold assertAligned
  exact Simulates.ite (Simulates.pure rfl) (alikes_throw fun _ => by simp)

/-- A special register that an instruction reads or writes. -/
def IsSpecial (num : Register) : Prop := 32 ≤ num.val ∧ num.val < 37

theorem IsSpecial.ne_loadReg {num : Register} (h : IsSpecial num) : num ≠ loadReg := by
  rintro rfl
  exact absurd h.2 (by decide)

theorem IsSpecial.ne_loadValueReg {num : Register} (h : IsSpecial num) : num ≠ loadValueReg := by
  rintro rfl
  exact absurd h.2 (by decide)

theorem alikes_readSpecial {num : Register} (h : IsSpecial num) :
    Alikes pending Eq (readRegister num) (readRegister num) :=
  alikes_read_eq (fun hgeneral => arrived_special hgeneral h.1) h.ne_loadReg h.ne_loadValueReg

theorem alikes_writeSpecial {num : Register} (h : IsSpecial num) (value : Word) :
    Alikes pending Eq (writeRegister num value) (writeRegister num value) :=
  alikes_write (fun hgeneral => arrived_special hgeneral h.1) h.ne_loadReg h.ne_loadValueReg value

theorem isSpecial_pc : IsSpecial pcReg ∧ IsSpecial nextPCReg ∧ IsSpecial prevPCReg ∧
    IsSpecial hiReg ∧ IsSpecial loReg := by
  unfold IsSpecial
  decide

theorem alikes_branch (taken : Prop) [Decidable taken] (extra pcAfter : Word) :
    Alikes pending SameNext (branch taken extra pcAfter) (branch taken extra pcAfter) := by
  unfold branch
  exact Simulates.ite ((alikes_readSpecial isSpecial_pc.2.1).bind_eq fun _ =>
    (alikes_intAdd _ _).bind_eq fun _ => alikes_next _) (alikes_next _)

theorem alikes_deliver {a b : Word} (rt : Register) (h : rt ≠ 0 → a = b) (pcAfter : Word) :
    Alikes pending SameNext (deliver rt a pcAfter) (deliver rt b pcAfter) :=
  Simulates.pure ⟨rfl, rfl, h⟩

/-- An instruction that stays off the register of the load on its way does the same on
the two machines. -/
theorem alikes_execute {instr : Instruction} (hrs : instr.rs.val < 32) (hrt : instr.rt.val < 32)
    (hrd : instr.rd.val < 32) (htouches : ∀ r, Touches instr r → Arrived pending r)
    (pcAfter : Word) :
    Alikes pending SameNext (execute instr pcAfter) (execute instr pcAfter) := by
  have hne {r : Register} (hr : r.val < 32) : r ≠ loadReg ∧ r ≠ loadValueReg := by
    refine ⟨?_, ?_⟩
    all_goals
      rintro rfl
      exact absurd hr (by decide)
  have hrs' : readsRs instr.opCode = true → Arrived pending instr.rs := fun h =>
    htouches _ (Or.inl ⟨h, rfl⟩)
  have hrt' : readsRt instr.opCode = true → Arrived pending instr.rt := fun h =>
    htouches _ (Or.inr (Or.inl ⟨h, rfl⟩))
  have hdest {r : Register} (h : destination instr = some r) : Arrived pending r :=
    htouches _ (Or.inr (Or.inr h))
  obtain ⟨opCode, rs, rt, rd, extra⟩ := instr
  dsimp only at hrs hrt hrd hrs' hrt'
  have hassign {num : Register} (hnum : num.val < 32) (harrived : Arrived pending num)
      (value : Word) : Alikes pending SameNext (assign num value pcAfter) (assign num value pcAfter) :=
    (alikes_write (fun _ => harrived) (hne hnum).1 (hne hnum).2 value).bind_eq fun _ => alikes_next _
  have hassignSpecial {num : Register} (hnum : IsSpecial num) (value : Word) :
      Alikes pending SameNext (assign num value pcAfter) (assign num value pcAfter) :=
    (alikes_writeSpecial hnum value).bind_eq fun _ => alikes_next _
  have hlink {num : Register} (hnum : num.val < 32) (harrived : Arrived pending num) :
      Alikes pending Eq (link num) (link num) :=
    (alikes_readSpecial isSpecial_pc.2.1).bind_eq fun _ => (alikes_intAdd _ _).bind_eq fun _ =>
      alikes_write (fun _ => harrived) (hne hnum).1 (hne hnum).2 _
  refine (alikes_read rs (hne hrs).1 (hne hrs).2).bind fun a a' ha => ?_
  refine (alikes_read rt (hne hrt).1 (hne hrt).2).bind fun b b' hb => ?_
  have hreadRs (harrived : Arrived pending rs) : Alikes pending Eq (readRegister rs)
      (readRegister rs) := alikes_read_eq (fun _ => harrived) (hne hrs).1 (hne hrs).2
  have hr31 : r31.val < 32 := by decide
  have hhi := isSpecial_pc.2.2.2.1
  have hlo := isSpecial_pc.2.2.2.2
  cases opCode
  all_goals try obtain rfl := ha (hrs' rfl)
  all_goals try obtain rfl := hb (hrt' rfl)
  all_goals dsimp only
  all_goals repeat' with_reducible first
    | exact alikes_raise _ _
    | exact alikes_next _
    | exact alikes_throw fun _ => by simp
    | exact alikes_branch _ _ _
    | exact alikes_deliver _ (fun _ => rfl) _
    | exact hassign hrd (hdest rfl) _
    | exact hassign hrt (hdest rfl) _
    | exact hassignSpecial hhi _
    | exact hassignSpecial hlo _
    | refine (alikes_intAdd _ _).bind_eq fun _ => ?_
    | refine (alikes_intSub _ _).bind_eq fun _ => ?_
    | refine (alikes_intDiv _ _).bind_eq fun _ => ?_
    | refine (alikes_mult _ _ _).bind_eq fun _ => ?_
    | refine (alikes_readMem _ _).bind_eq fun _ => ?_
    | refine (alikes_writeMem _ _ _).bind_eq fun _ => ?_
    | refine (alikes_assertAligned _).bind_eq fun _ => ?_
    | refine (alikes_readSpecial hhi).bind_eq fun _ => ?_
    | refine (alikes_readSpecial hlo).bind_eq fun _ => ?_
    | refine (alikes_writeSpecial hhi _).bind_eq fun _ => ?_
    | refine (alikes_writeSpecial hlo _).bind_eq fun _ => ?_
    | refine Simulates.ite ?_ ?_
  case bgezal =>
      refine (hlink hr31 (hdest rfl)).bind_eq fun _ => ?_
      exact (hreadRs (hrs' rfl)).bind_eq fun _ => alikes_branch _ _ _
  case bltzal =>
      refine (hlink hr31 (hdest rfl)).bind_eq fun _ => ?_
      exact (hreadRs (hrs' rfl)).bind_eq fun _ => alikes_branch _ _ _
  case jal => exact (hlink hr31 (hdest rfl)).bind_eq fun _ => alikes_next _
  case jalr =>
      refine (hlink hrd (hdest rfl)).bind_eq fun _ => ?_
      exact (hreadRs (hrs' rfl)).bind_eq fun _ => alikes_next _
  -- the old value of the register may still be on its way
  case lwl =>
      refine (alikes_pendingValue hrt).bind fun old old' hold => ?_
      exact alikes_deliver rt (fun hzero => by rw [hold hzero]) pcAfter
  case lwr =>
      refine (alikes_pendingValue hrt).bind fun old old' hold => ?_
      exact alikes_deliver rt (fun hzero => by rw [hold hzero]) pcAfter

end Execute

section Step

/-- The instruction in the delay slot of a load stays off its register. -/
def SlotFree (m : Machine) : Prop :=
  ∀ raw m', readMem (m.registers pcReg) 4 m = .ok raw m' →
    ∀ r, Touches (decode raw) r → Arrived (m.registers loadReg) r

instance (m : Machine) : Decidable m.SlotFree :=
  match h : readMem (m.registers pcReg) 4 m with
  | .ok raw m' =>
      decidable_of_iff (∀ r, Touches (decode raw) r → Arrived (m.registers loadReg) r)
        ⟨fun hfree raw' m₁ h' => by
          rw [h] at h'
          cases h'
          exact hfree,
        fun hfree => hfree raw m' h⟩
  | .error trap m' => isTrue fun raw' m₁ h' => by
      rw [h] at h'
      cases h'

/-- The two machines between instructions. -/
structure Between (m i : Machine) : Prop where
  general : m.LoadsGeneral
  zero : m.registers 0 = 0
  same : i = { m with registers := done m.registers }

variable {m i : Machine}

/-- Putting a load on its way and finishing it writes its register. -/
theorem done_delayedLoad {registers loaded : Registers} {num : Register} {value value' : Word}
    (hnum : num.val < 32) (hvalue : num ≠ 0 → value = value')
    (hloaded : ∀ r, loaded r = if r = 0 then 0 else if r = loadValueReg then value
      else if r = loadReg then BitVec.ofNat 32 num.val else withPending registers r) :
    done loaded = Function.update (Function.update (done registers) num value') 0 0 := by
  have hreg : loaded loadReg = BitVec.ofNat 32 num.val := hloaded loadReg
  have hvalueReg : loaded loadValueReg = value := hloaded loadValueReg
  have hnumber : (loaded loadReg).toNat = num.val := by
    rw [hreg, BitVec.toNat_ofNat, Nat.mod_eq_of_lt (by omega)]
  funext r
  by_cases hspecial : r = loadReg ∨ r = loadValueReg
  · have hne : r ≠ num ∧ r ≠ 0 := by
      rcases hspecial with rfl | rfl
      · exact ⟨fun h => absurd (h ▸ hnum) (by decide), by decide⟩
      · exact ⟨fun h => absurd (h ▸ hnum) (by decide), by decide⟩
    rw [Function.update_of_ne hne.2, Function.update_of_ne hne.1]
    exact (if_pos hspecial).trans (if_pos hspecial).symm
  · have hdone (other : Registers) : done other r = withPending other r := if_neg hspecial
    rw [hdone]
    unfold withPending
    rw [hnumber, hvalueReg]
    by_cases hzero : r = 0
    · rw [if_neg fun h => h.1 hzero, hzero, Function.update_self]
      exact hloaded 0
    · rw [Function.update_of_ne hzero]
      by_cases hr : r = num
      · rw [if_pos ⟨hzero, congrArg Fin.val hr.symm⟩, hr, Function.update_self]
        exact hvalue (hr ▸ hzero)
      · rw [if_neg fun h => hr (Fin.ext h.2.symm), Function.update_of_ne hr, hdone, hloaded r,
          if_neg hzero, if_neg (not_or.mp hspecial).2, if_neg (not_or.mp hspecial).1]

/-- The three writes at the end of `OneInstruction`. -/
def installPC (registers : Registers) (pcAfter : Word) : Registers :=
  Function.update (Function.update (Function.update registers prevPCReg (registers pcReg)) pcReg
    (registers nextPCReg)) nextPCReg pcAfter

theorem done_installPC {pending : Word} {registers : Registers}
    (hpending : registers loadReg = pending) (hgeneral : pending.toNat < 32) (pcAfter : Word) :
    done (installPC registers pcAfter) = installPC (done registers) pcAfter := by
  have hpc := isSpecial_pc.1
  have hnext := isSpecial_pc.2.1
  have hprev := isSpecial_pc.2.2.1
  have hwrite {regs : Registers} (hregs : regs loadReg = pending) {num : Register}
      (hnum : IsSpecial num) (value : Word) :
      done (Function.update regs num value) = Function.update (done regs) num value :=
    done_update hregs (arrived_special hgeneral hnum.1) hnum.ne_loadReg hnum.ne_loadValueReg value
  have hread {num : Register} (hnum : IsSpecial num) : done registers num = registers num :=
    done_of_arrived hpending (arrived_special hgeneral hnum.1) hnum.ne_loadReg hnum.ne_loadValueReg
  have hfirst : Function.update registers prevPCReg (registers pcReg) loadReg = pending :=
    (Function.update_of_ne hprev.ne_loadReg.symm _ _).trans hpending
  have hsecond : Function.update (Function.update registers prevPCReg (registers pcReg)) pcReg
      (registers nextPCReg) loadReg = pending :=
    (Function.update_of_ne hpc.ne_loadReg.symm _ _).trans hfirst
  unfold installPC
  rw [hwrite hsecond hnext, hwrite hfirst hpc, hwrite hpending hprev, hread hpc, hread hnext]

/-- What `advance` and `advanceAtOnce` leave. -/
theorem between_advance {pending : Word} {a b : Next} (h : Running pending m i)
    (hab : SameNext a b) (hgeneral : a.nextLoadReg.val < 32) :
    ∃ m' i', advance a m = .ok () m' ∧ advanceAtOnce b i = .ok () i' ∧ Between m' i' := by
  have hbound : m.LoadBounded := by
    unfold LoadBounded
    rw [h.loading]
    exact Nat.lt_trans h.general (by decide)
  rcases delayedLoad_cases (BitVec.ofNat 32 a.nextLoadReg.val) a.nextLoadValue m with
    ⟨-, loaded, hreg, hload⟩ | ⟨hbad, -⟩
  · have hnumber : (BitVec.ofNat 32 a.nextLoadReg.val).toNat < 32 := by
      rw [BitVec.toNat_ofNat]
      omega
    have hregisters := delayedLoad_registers hload
    have hdone := done_delayedLoad hgeneral hab.nextLoadValue hregisters
    have hfirst : advance a m = .ok () { m with registers := installPC loaded a.pcAfter } := by
      simp only [advance, bind_apply, hload]
      rfl
    let written : Registers :=
      Function.update (Function.update i.registers b.nextLoadReg b.nextLoadValue) 0 0
    have hsecond : advanceAtOnce b i = .ok () { i with registers := installPC written b.pcAfter } :=
      rfl
    refine ⟨_, _, hfirst, hsecond, ?_, ?_, ?_⟩
    · exact (congrArg (fun w : Word => w.toNat < 32) hreg).mpr hnumber
    · exact hregisters 0
    · have hpc := done_installPC hreg hnumber a.pcAfter
      dsimp only [written] at hpc hdone ⊢
      rw [hpc, hdone, h.same, hab.pcAfter, hab.nextLoadReg]
  · exact absurd hbound hbad

theorem Between.running (h : Between m i) : Running (m.registers loadReg) m i :=
  ⟨rfl, h.general, h.same⟩

/-- `OneInstruction` from the fetch to the end of the `switch`. -/
def executeFetched (raw : Word) : Code Next := do
  let pcAfter ← intAdd (← readRegister nextPCReg) 4
  execute (decode raw) pcAfter

theorem fetchExecute_apply (m : Machine) : fetchExecute m =
    match readMem (m.registers pcReg) 4 m with
    | .ok raw m' => executeFetched raw m'
    | .error trap m' => .error trap m' := by
  change (readRegister pcReg >>= fun pc => readMem pc 4 >>= executeFetched) m = _
  rw [bind_apply]
  dsimp only [readRegister]
  rw [bind_apply]
  cases readMem (m.registers pcReg) 4 m with
  | ok raw m' => rfl
  | error trap m' => rfl

/-- Up to the end of the `switch` the machines run alike, if the instruction stays off
the register of the load on its way. -/
theorem fetchExecute_alike (h : Between m i) (hslot : m.SlotFree) :
    Alike (Running (m.registers loadReg)) Entered SameNext (fetchExecute m) (fetchExecute i) := by
  have hpc : i.registers pcReg = m.registers pcReg := by
    rw [h.same]
    exact done_of_arrived rfl (arrived_special h.general isSpecial_pc.1.1)
      isSpecial_pc.1.ne_loadReg isSpecial_pc.1.ne_loadValueReg
  have hfetch := alikes_readMem (m.registers pcReg) 4 m i h.running
  have hexecute (raw : Word) (htouches : ∀ r, Touches (decode raw) r →
      Arrived (m.registers loadReg) r) : Alikes (m.registers loadReg) SameNext
        (executeFetched raw) (executeFetched raw) :=
    (alikes_readSpecial isSpecial_pc.2.1).bind_eq fun _ => (alikes_intAdd _ _).bind_eq fun _ =>
      alikes_execute (registerField_lt raw 21) (registerField_lt raw 16) (registerField_lt raw 11)
        htouches _
  rw [fetchExecute_apply, fetchExecute_apply, hpc]
  cases hfirst : readMem (m.registers pcReg) 4 m with
  | ok raw m' =>
      rw [hfirst] at hfetch
      generalize readMem (m.registers pcReg) 4 i = second at hfetch ⊢
      cases hfetch with
      | ok hraw hstate =>
          subst hraw
          exact hexecute raw (hslot raw m' hfirst) _ _ hstate
  | error trap m' =>
      rw [hfirst] at hfetch
      generalize readMem (m.registers pcReg) 4 i = second at hfetch ⊢
      cases hfetch with
      | error hexit => exact .error hexit

theorem oneInstructionAtOnce_eq : oneInstructionAtOnce = fetchExecute >>= advanceAtOnce := by
  unfold oneInstructionAtOnce fetchExecute
  simp only [bind_assoc]

/-- One instruction on the two machines. -/
theorem oneInstruction_alike (h : Between m i) (hslot : m.SlotFree) :
    Alike Between Entered (fun _ _ => True) (oneInstruction m) (oneInstructionAtOnce i) := by
  have hbody := fetchExecute_alike h hslot
  rw [oneInstruction_eq, oneInstructionAtOnce_eq, bind_apply, bind_apply]
  cases hfirst : fetchExecute m with
  | ok next m' =>
      rw [hfirst] at hbody
      generalize fetchExecute i = second at hbody ⊢
      cases hbody with
      | ok hnext hstate =>
          obtain ⟨m'', i'', hadvance, hadvance', hbetween⟩ :=
            between_advance hstate hnext (fetchExecute_loads m next m' hfirst)
          simp only [hadvance, hadvance']
          exact .ok trivial hbetween
  | error trap m' =>
      rw [hfirst] at hbody
      generalize fetchExecute i = second at hbody ⊢
      cases hbody with
      | error hexit => exact .error hexit

end Step

section Runs

variable {K : Type} {m i : Machine}

/-- What can happen at an instruction boundary of the user program. -/
inductive UserEvent
  | instruction
  | interrupt
  deriving DecidableEq, Repr

/-- The kernel behind exceptions and interrupts, with what it keeps of its own.  It may do
anything to the machine, or halt it, but puts no load on its way. -/
structure Handlers (K : Type) where
  exceptionHandler : ExceptionType → K → Machine → Option (K × Machine)
  interruptHandler : K → Machine → Option (K × Machine)
  exceptionHandler_settled : ∀ which k m k' m', Settled m.registers →
    exceptionHandler which k m = some (k', m') → Settled m'.registers
  interruptHandler_settled : ∀ k m k' m', Settled m.registers →
    interruptHandler k m = some (k', m') → Settled m'.registers

/-- The end of an instruction: the kernel is entered on an exception. -/
def dispatch (handlers : Handlers K) (k : K) :
    EStateM.Result Trap Machine Unit → Option (K × Machine)
  | .ok () m => some (k, m)
  | .error (.exception which) m => handlers.exceptionHandler which k m
  | .error _ _ => none

/-- An event on a machine with this `OneInstruction`.  `Interrupt::CheckIfDue` finishes
the load on its way before it calls the handler. -/
def serve (oneInstruction : Code Unit) (handlers : Handlers K) :
    UserEvent → K × Machine → Option (K × Machine)
  | .instruction, (k, m) => dispatch handlers k (oneInstruction m)
  | .interrupt, (k, m) =>
      match delayedLoad 0 0 m with
      | .ok () m' => handlers.interruptHandler k m'
      | .error _ _ => none

def serveAll (oneInstruction : Code Unit) (handlers : Handlers K) :
    List UserEvent → K × Machine → Option (K × Machine)
  | [], s => some s
  | event :: events, s => (serve oneInstruction handlers event s).bind
      (serveAll oneInstruction handlers events)

/-- In the run, each instruction in the delay slot of a load stays off its register. -/
def SlotsFree (handlers : Handlers K) : List UserEvent → K × Machine → Prop
  | [], _ => True
  | event :: events, s => (event = .instruction → s.2.SlotFree) ∧
      match serve oneInstruction handlers event s with
      | none => True
      | some s' => SlotsFree handlers events s'

instance SlotsFree.decidable (handlers : Handlers K) : ∀ (events : List UserEvent) (s : K × Machine),
    Decidable (SlotsFree handlers events s)
  | [], _ => isTrue trivial
  | event :: events, s =>
      match h : serve oneInstruction handlers event s with
      | none =>
          decidable_of_iff (event = .instruction → s.2.SlotFree) (by simp [SlotsFree, h])
      | some s' =>
          have := SlotsFree.decidable handlers events s'
          decidable_of_iff ((event = .instruction → s.2.SlotFree) ∧ SlotsFree handlers events s')
            (by simp [SlotsFree, h])

/-- The machine with the load on its way flushed. -/
def flushed (m : Machine) : Machine := endState (delayedLoad 0 0 m)

theorem done_of_settled {registers : Registers} (h : Settled registers) :
    done registers = registers := by
  funext r
  by_cases hspecial : r = loadReg ∨ r = loadValueReg
  · refine (if_pos hspecial).trans ?_
    rcases hspecial with rfl | rfl
    · exact h.loadReg.symm
    · exact h.loadValue.symm
  · refine (if_neg hspecial).trans (if_neg ?_)
    rintro ⟨hne, heq⟩
    rw [h.loadReg] at heq
    exact hne (Fin.ext heq.symm)

theorem between_of_settled (h : Settled m.registers) : Between m m where
  general := (congrArg (fun w : Word => w.toNat < 32) h.loadReg).mpr (by decide)
  zero := h.zero
  same := by rw [done_of_settled h]

theorem Between.delayedLoad_eq (h : Between m i) : delayedLoad 0 0 m = .ok () i := by
  have hzero : done m.registers 0 = 0 := by
    have harrived : Arrived (m.registers loadReg) 0 := Or.inl rfl
    exact (done_of_arrived rfl harrived (by decide) (by decide)).trans h.zero
  have hsame : Function.update (done m.registers) 0 0 = done m.registers := by
    rw [← hzero]
    exact Function.update_eq_self 0 _
  rw [delayedLoad_done h.general, hsame, h.same]

theorem Between.flushed_eq (h : Between m i) : flushed m = i := by
  unfold flushed
  rw [h.delayedLoad_eq]
  rfl

/-- The second machine is always settled. -/
theorem Between.settled (h : Between m i) : Settled i.registers :=
  (delayedLoad_settled h.delayedLoad_eq).1

/-- The kernel goes on alike on the two machines. -/
def ServedAlike (first second : Option (K × Machine)) : Prop :=
  (first = none ∧ second = none) ∨
    ∃ k m i, first = some (k, m) ∧ second = some (k, i) ∧ Between m i

theorem servedAlike_of_settled {served : Option (K × Machine)}
    (h : ∀ k m, served = some (k, m) → Settled m.registers) : ServedAlike served served := by
  cases served with
  | none => exact Or.inl ⟨rfl, rfl⟩
  | some s => exact Or.inr ⟨s.1, s.2, s.2, rfl, rfl, between_of_settled (h s.1 s.2 rfl)⟩

theorem dispatch_alike (handlers : Handlers K) (k : K) {R : Unit → Unit → Prop}
    {first second : EStateM.Result Trap Machine Unit} (h : Alike Between Entered R first second)
    (hsettled : ∀ which, exit first = some (.exception which) →
      Settled (endState first).registers) :
    ServedAlike (dispatch handlers k first) (dispatch handlers k second) := by
  cases h with
  | ok _ hstate => exact Or.inr ⟨k, _, _, rfl, rfl, hstate⟩
  | @error trap m i hentered =>
      cases trap with
      | exception which =>
          -- the kernel is entered with the same machine
          obtain rfl := hentered which rfl
          exact servedAlike_of_settled fun k' m' =>
            handlers.exceptionHandler_settled which k _ k' m' (hsettled which rfl)
      | assertFailed => exact Or.inl ⟨rfl, rfl⟩
      | undefined => exact Or.inl ⟨rfl, rfl⟩

/-- One event on the two machines. -/
theorem serve_alike (handlers : Handlers K) (event : UserEvent) (k : K) (h : Between m i)
    (hslot : event = .instruction → m.SlotFree) :
    ServedAlike (serve oneInstruction handlers event (k, m))
      (serve oneInstructionAtOnce handlers event (k, i)) := by
  cases event with
  | instruction =>
      exact dispatch_alike handlers k (oneInstruction_alike h (hslot rfl))
        (settled_rule.oneInstruction m)
  | interrupt =>
      have hagain := (between_of_settled h.settled).delayedLoad_eq
      simp only [serve, h.delayedLoad_eq, hagain]
      exact servedAlike_of_settled fun k' m' =>
        handlers.interruptHandler_settled k i k' m' h.settled

theorem serveAll_alike (handlers : Handlers K) (events : List UserEvent) (k : K)
    (h : Between m i) (hslots : SlotsFree handlers events (k, m)) :
    serveAll oneInstructionAtOnce handlers events (k, i) =
      (serveAll oneInstruction handlers events (k, m)).map fun s => (s.1, flushed s.2) := by
  induction events generalizing k m i with
  | nil =>
      unfold serveAll
      rw [Option.map_some, h.flushed_eq]
  | cons event events ih =>
      obtain ⟨hslot, hrest⟩ := hslots
      unfold serveAll
      rcases serve_alike handlers event k h hslot with
        ⟨hfirst, hsecond⟩ | ⟨k', m', i', hfirst, hsecond, hbetween⟩
      · rw [hfirst, hsecond]
        rfl
      · rw [hfirst] at hrest
        rw [hfirst, hsecond]
        exact ih k' hbetween hrest

/-- The load delay does not show.  A user program that stays off the register of a load
in its delay slot runs, with interrupts and traps at any instruction boundary, as on a
machine whose loads write their register at once: flushing the load on its way gives the
registers and the memory of that machine after every instruction. -/
theorem loadDelay_unseen (handlers : Handlers K) (events : List UserEvent) (k : K)
    (hgeneral : m.LoadsGeneral) (hzero : m.registers 0 = 0)
    (hslots : SlotsFree handlers events (k, m)) :
    serveAll oneInstructionAtOnce handlers events (k, flushed m) =
      (serveAll oneInstruction handlers events (k, m)).map fun s => (s.1, flushed s.2) := by
  have hbetween : Between m { m with registers := done m.registers } := ⟨hgeneral, hzero, rfl⟩
  rw [hbetween.flushed_eq]
  exact serveAll_alike handlers events k hbetween hslots

/-- `LW r8, 64(r0)`, an empty delay slot, and `ADDU r9, r8, r8`. -/
def loadAndAdd : Machine where
  registers := Function.update (fun _ => 0) nextPCReg 4
  mainMemory := fun a => [0x40, 0x00, 0x08, 0x8c, 0, 0, 0, 0, 0x21, 0x48, 0x08, 0x01].getD a
    (if a = 64 then 5 else 0)
  pageTable := some [⟨0, 0, true, false, false, false⟩]
  pageTableSize := 1
  overflowed := false

/-- A kernel that halts on exceptions and returns from interrupts. -/
def haltingKernel : Handlers Unit where
  exceptionHandler := fun _ _ _ => none
  interruptHandler := fun k m => some (k, m)
  exceptionHandler_settled := fun _ _ _ _ _ _ h => absurd h (by simp)
  interruptHandler_settled := by
    intro k m k' m' hsettled h
    cases h
    exact hsettled

theorem loadDelay_unseen_loadAndAdd :
    (∃ s, serveAll oneInstruction haltingKernel [.instruction, .interrupt, .instruction,
        .instruction] ((), loadAndAdd) = some s ∧ (flushed s.2).registers 9 = 10) ∧
      serveAll oneInstructionAtOnce haltingKernel [.instruction, .interrupt, .instruction,
        .instruction] ((), flushed loadAndAdd) =
      (serveAll oneInstruction haltingKernel [.instruction, .interrupt, .instruction,
        .instruction] ((), loadAndAdd)).map fun s => (s.1, flushed s.2) :=
  ⟨⟨_, rfl, by decide +kernel⟩,
    loadDelay_unseen haltingKernel _ () (by decide) rfl (by decide +kernel)⟩

end Runs

end Machine
end Nachos
