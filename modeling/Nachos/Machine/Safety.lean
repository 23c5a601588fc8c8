import Nachos.Machine.DelayedLoads

/-!
# Instructions the host can carry out

`OneInstruction` is `Safe` when it neither fails an `ASSERT` nor asks the host for
an operation that has no meaning: it returns or raises an exception, and no
operation on `int` has overflowed.  `CarriedOut` is the condition on the
instruction and on its operands under which this is so, and it is exact: the
unaligned partial loads and stores fail an `ASSERT`, the least `int` divided by -1
has no quotient, and the sums, differences and negations of the other instructions
have to stay in the range of `int`.
-/

namespace Nachos
namespace Machine

open Lib

/-- The exits of an instruction that the kernel sees. -/
def Handled : Trap → Machine → Prop
  | .exception _, m => m.overflowed = false
  | _, _ => False

instance (trap : Trap) (m : Machine) : Decidable (Handled trap m) :=
  match trap with
  | .exception _ => inferInstanceAs (Decidable (_ = _))
  | .assertFailed => inferInstanceAs (Decidable False)
  | .undefined => inferInstanceAs (Decidable False)

/-- No operation has overflowed. -/
def Exact {A : Type} (_ : A) (m : Machine) : Prop := m.overflowed = false

/-- The machine when no operation has been noted. -/
def cleared (m : Machine) : Machine := { m with overflowed := false }

/-- `OneInstruction` returns or raises an exception, and the host has carried out
all its operations. -/
def Safe (m : Machine) : Prop := Meets Exact Handled oneInstruction m.cleared

instance (m : Machine) : Decidable m.Safe :=
  inferInstanceAs (Decidable (Meets (fun _ m => m.overflowed = false) Handled oneInstruction
    m.cleared))

/-- The machine when an operation has been noted. -/
def noted (m : Machine) (overflow : Bool) : Machine :=
  { m with overflowed := m.overflowed || overflow }

/-- What `OneInstruction` relies on: the load on its way names a register, and the
page table is as long as it is said to be. -/
structure Hosted (m : Machine) : Prop where
  loadBounded : m.LoadBounded
  installed : ∃ table, m.pageTable = some table ∧ m.pageTableSize ≤ table.length

section Hosted

variable {m m' : Machine} {A B : Type} {Q : A → Machine → Prop}

theorem Hosted.noted (h : Hosted m) (overflow : Bool) : Hosted (m.noted overflow) :=
  ⟨h.loadBounded, h.installed⟩

theorem Hosted.confined (h : Hosted m) (hconfined : Confined m m')
    (hload : m'.LoadBounded) : Hosted m' where
  loadBounded := hload
  installed := by
    obtain ⟨table, htable, hlength⟩ := h.installed
    have hlayout := hconfined.table
    rw [htable, Option.map_some] at hlayout
    obtain ⟨table', htable', hsame⟩ := Option.map_eq_some_iff.mp hlayout
    have hlengths := congrArg List.length hsame
    simp only [layout, List.length_map] at hlengths
    exact ⟨table', htable', by rw [hconfined.size, hlengths]; exact hlength⟩

theorem Hosted.accessed (h : Hosted m) (haccess : Accessed m m') : Hosted m' := by
  refine h.confined haccess.confined ?_
  unfold LoadBounded
  rw [haccess.registers]
  exact h.loadBounded

/-- `Translate` finds its page table. -/
theorem Hosted.not_stuck (h : Hosted m) :
    ¬ (m.pageTable = none ∨ ∃ table, m.pageTable = some table ∧ table.length < m.pageTableSize) := by
  obtain ⟨table, htable, hlength⟩ := h.installed
  rintro (hnone | ⟨table', htable', hshort⟩)
  · exact absurd (htable.symm.trans hnone) (by simp)
  · obtain rfl := Option.some.inj (htable.symm.trans htable')
    exact absurd hshort (Nat.not_lt.mpr hlength)

/-- What the machine relies on stays. -/
theorem hosted_ends : Ends (fun m _ m' => Hosted m → Hosted m') oneInstruction :=
  fun m h => h.confined (confined_rule.oneInstruction m)
    (loadBounded_rule.oneInstruction m h.loadBounded)

end Hosted

section Primitives

variable {m : Machine} {A B : Type} {Q : A → Machine → Prop}

theorem meets_read (num : Register) {Q : Word → Machine → Prop} :
    Meets Q Handled (readRegister num) m ↔ Q (m.registers num) m :=
  Iff.rfl

theorem meets_add (a b : Word) {Q : Word → Machine → Prop} :
    Meets Q Handled (intAdd a b) m ↔ Q (a + b) (m.noted (a.saddOverflow b)) :=
  Iff.rfl

theorem meets_sub (a b : Word) {Q : Word → Machine → Prop} :
    Meets Q Handled (intSub a b) m ↔ Q (a - b) (m.noted (a.ssubOverflow b)) :=
  Iff.rfl

theorem meets_neg (a : Word) {Q : Word → Machine → Prop} :
    Meets Q Handled (intNeg a) m ↔ Q (-a) (m.noted a.negOverflow) :=
  Iff.rfl

/-- `RaiseException` gets to the kernel. -/
theorem meets_raise (hm : Hosted m) (which : ExceptionType) (badVAddr : Word) :
    Meets Q Handled (raiseException which badVAddr) m ↔ m.overflowed = false := by
  obtain ⟨noted, hnoted, ⟨m', hload, hraise⟩ | ⟨hbad, -⟩⟩ :=
    raiseException_cases (A := A) which badVAddr m
  · rw [meets_error hraise]
    show m'.overflowed = false ↔ _
    rw [(delayedLoad_settled hload).2.2, hnoted]
  · have hne : loadReg ≠ badVAddrReg := by decide
    have hsame : noted.registers loadReg = m.registers loadReg := by
      rw [hnoted]
      exact Function.update_of_ne hne badVAddr m.registers
    rw [hsame] at hbad
    exact absurd hm.loadBounded (Nat.not_lt.mpr hbad)

/-- An access to memory goes through or raises an exception. -/
theorem meets_access {x : Code A} {addr : Word} (hx : Access x addr m) (hm : Hosted m)
    (hQ : ∀ value m', Accessed m m' → (Q value m' ↔ m'.overflowed = false)) :
    Meets Q Handled x m ↔ m.overflowed = false := by
  rcases hx with ⟨value, m', hok, hdone⟩ | ⟨which, hraise⟩ | ⟨trap, -, -, hstuck⟩
  · rw [meets_ok hok, hQ value m' hdone, hdone.overflowed]
  · rw [meets_congr hraise]
    exact meets_raise hm which addr
  · exact absurd hstuck hm.not_stuck

/-- An operation has been carried out when it has not overflowed. -/
theorem noted_overflowed (m : Machine) (overflow : Bool) :
    (m.noted overflow).overflowed = false ↔ m.overflowed = false ∧ overflow = false :=
  Bool.or_eq_false_iff

end Primitives

/-- The branch to `extra` stays in the range of `int`. -/
def InRange (registers : Registers) (extra : Word) : Prop :=
  (registers nextPCReg).saddOverflow (indexToAddr extra) = false

/-- The registers a jump that links leaves behind. -/
def linked (registers : Registers) (num : Register) : Registers :=
  Function.update registers num (registers nextPCReg + 4)

/-- The host carries out the instruction on these operands. -/
def CarriedOut (instr : Instruction) (registers : Registers) : Prop :=
  let rs := registers instr.rs
  let rt := registers instr.rt
  match instr.opCode with
  | .add | .addu => rs.saddOverflow rt = false
  | .sub | .subu => rs.ssubOverflow rt = false
  | .addi | .addiu | .lb | .lbu | .lh | .lhu | .lw | .sb | .sh | .sw =>
      rs.saddOverflow instr.extra = false
  | .lwl | .lwr | .swl | .swr =>
      rs.saddOverflow instr.extra = false ∧ (rs + instr.extra) &&& 3 = 0
  | .div => ¬ (rs = BitVec.intMin 32 ∧ rt = -1)
  | .mult => rs = 0 ∨ rt = 0 ∨ rs ≠ BitVec.intMin 32 ∧ rt ≠ BitVec.intMin 32
  | .beq => rs = rt → InRange registers instr.extra
  | .bne => rs ≠ rt → InRange registers instr.extra
  | .bgez => ¬ isNegative rs → InRange registers instr.extra
  | .bltz => isNegative rs → InRange registers instr.extra
  | .bgtz => BitVec.slt 0 rs → InRange registers instr.extra
  | .blez => BitVec.sle rs 0 → InRange registers instr.extra
  -- the condition is tested behind the assignment to `R31`
  | .bgezal => ¬ isNegative (linked registers r31 instr.rs) → InRange registers instr.extra
  | .bltzal => isNegative (linked registers r31 instr.rs) → InRange registers instr.extra
  | _ => True

section Execute

variable {m : Machine} {Q : Next → Machine → Prop}

/-- Behind the `switch` the host carries out everything. -/
def Finishes (Q : Next → Machine → Prop) : Prop :=
  ∀ next m', Hosted m' → (Q next m' ↔ m'.overflowed = false)

theorem Hosted.write (hm : Hosted m) {num : Register} (hnum : num ≠ loadReg) (value : Word) :
    Hosted { m with registers := Function.update m.registers num value } :=
  ⟨loadBounded_rule.writes num value hnum m hm.loadBounded, hm.installed⟩

theorem meets_assign (hQ : Finishes Q) (hm : Hosted m) {num : Register} (hnum : num ≠ loadReg)
    (value pcAfter : Word) :
    Meets Q Handled (assign num value pcAfter) m ↔ m.overflowed = false :=
  hQ ⟨pcAfter, 0, 0⟩ _ (hm.write hnum value)

/-- An addition, and code that is carried out behind it. -/
theorem meets_sum (hm : Hosted m) (a b : Word) {f : Word → Code Next}
    (hf : ∀ m', Hosted m' → (Meets Q Handled (f (a + b)) m' ↔ m'.overflowed = false)) :
    Meets Q Handled (intAdd a b >>= f) m ↔
      m.overflowed = false ∧ a.saddOverflow b = false := by
  rw [meets_bind, meets_add, hf _ (hm.noted _), noted_overflowed]

theorem meets_difference (hm : Hosted m) (a b : Word) {f : Word → Code Next}
    (hf : ∀ m', Hosted m' → (Meets Q Handled (f (a - b)) m' ↔ m'.overflowed = false)) :
    Meets Q Handled (intSub a b >>= f) m ↔
      m.overflowed = false ∧ a.ssubOverflow b = false := by
  rw [meets_bind, meets_sub, hf _ (hm.noted _), noted_overflowed]

theorem meets_branch (hQ : Finishes Q) (hm : Hosted m) (taken : Prop) [Decidable taken]
    (extra pcAfter : Word) :
    Meets Q Handled (branch taken extra pcAfter) m ↔
      m.overflowed = false ∧ (taken → InRange m.registers extra) := by
  unfold branch
  by_cases htaken : taken
  · rw [if_pos htaken, meets_bind, meets_read, meets_sum hm]
    · exact and_congr_right fun _ => (imp_iff_right htaken).symm
    · intro m' hm'
      exact hQ _ m' hm'
  · rw [if_neg htaken, meets_pure, hQ _ m hm]
    exact (and_iff_left fun h => absurd h htaken).symm

/-- A jump that links, and code behind it. -/
theorem meets_link (num : Register) {f : Unit → Code Next} :
    Meets Q Handled (link num >>= f) m ↔
      Meets Q Handled (f ()) { m.noted ((m.registers nextPCReg).saddOverflow 4) with
        registers := linked m.registers num } :=
  Iff.rfl

/-- A load, and code that is carried out behind it. -/
theorem meets_load (hm : Hosted m) {addr : Word} {size : Nat} (hsize : isSize size)
    {f : Word → Code Next}
    (hf : ∀ value m', Hosted m' → (Meets Q Handled (f value) m' ↔ m'.overflowed = false)) :
    Meets Q Handled (readMem addr size >>= f) m ↔ m.overflowed = false := by
  rw [meets_bind]
  exact meets_access (readMem_access m addr hsize) hm fun value m' h => hf value m' (hm.accessed h)

/-- A store, and code that is carried out behind it. -/
theorem meets_store (hm : Hosted m) {addr value : Word} {size : Nat} (hsize : isSize size)
    {f : Unit → Code Next}
    (hf : ∀ m', Hosted m' → (Meets Q Handled (f ()) m' ↔ m'.overflowed = false)) :
    Meets Q Handled (writeMem addr size value >>= f) m ↔ m.overflowed = false := by
  rw [meets_bind]
  exact meets_access (writeMem_access m addr value hsize) hm fun _ m' h => hf m' (hm.accessed h)

/-- The assertion of the partial loads and stores. -/
theorem meets_assertAligned (tmp : Word) {f : Unit → Code Next}
    (hf : Meets Q Handled (f ()) m ↔ m.overflowed = false) :
    Meets Q Handled (assertAligned tmp >>= f) m ↔ m.overflowed = false ∧ tmp &&& 3 = 0 := by
  rw [meets_bind]
  unfold assertAligned
  by_cases haligned : tmp &&& 3 = 0
  · rw [if_pos haligned, meets_pure, hf]
    exact (and_iff_left haligned).symm
  · rw [if_neg haligned]
    exact iff_of_false id fun h => haligned h.2

theorem meets_negateIf (negate : Bool) (a : Word) {Q : Word → Machine → Prop} :
    Meets Q Handled (negateIf negate a) m ↔
      Q (if negate then -a else a) (m.noted (negate && a.negOverflow)) := by
  cases negate with
  | true => exact meets_neg a
  | false =>
      have hsame : m.noted (false && a.negOverflow) = m := by
        unfold noted
        rw [Bool.false_and, Bool.or_false]
      rw [hsame]
      exact meets_pure a

/-- The one negative `int` without a positive counterpart. -/
theorem negative_negOverflow (a : Word) :
    (a.slt 0 && a.negOverflow) = decide (a = BitVec.intMin 32) := by
  have hpos : 0 < 32 := by decide
  rw [BitVec.negOverflow_eq, decide_eq_true hpos, Bool.true_and]
  by_cases ha : a = BitVec.intMin 32
  · subst ha
    decide
  · rw [beq_eq_false_iff_ne.mpr ha, Bool.and_false, decide_eq_false ha]

/-- The product of two `int`s, and code that is carried out behind it. -/
theorem meets_mult (hm : Hosted m) (a b : Word) (signedArith : Bool)
    {f : Word × Word → Code Next}
    (hf : ∀ product m', Hosted m' →
      (Meets Q Handled (f product) m' ↔ m'.overflowed = false)) :
    Meets Q Handled (mult a b signedArith >>= f) m ↔ m.overflowed = false ∧
      (signedArith = true → a = 0 ∨ b = 0 ∨ a ≠ BitVec.intMin 32 ∧ b ≠ BitVec.intMin 32) := by
  rw [meets_bind]
  unfold mult
  by_cases hzero : a = 0 ∨ b = 0
  · rw [if_pos hzero, meets_pure, hf _ m hm]
    exact (and_iff_left fun _ => hzero.imp_right Or.inl).symm
  · rw [if_neg hzero, meets_bind, meets_negateIf, meets_bind, meets_negateIf, meets_pure,
      hf _ _ ((hm.noted _).noted _), noted_overflowed, noted_overflowed, Bool.and_assoc,
      Bool.and_assoc, negative_negOverflow, negative_negOverflow]
    cases signedArith with
    | false => simp
    | true =>
        rw [Bool.true_and, Bool.true_and, decide_eq_false_iff_not, decide_eq_false_iff_not,
          and_assoc]
        refine and_congr_right fun _ => ⟨fun h _ => Or.inr (Or.inr h), fun h => ?_⟩
        rcases h rfl with ha | hb | hboth
        · exact absurd (Or.inl ha) hzero
        · exact absurd (Or.inr hb) hzero
        · exact hboth

/-- A quotient, and code that is carried out behind it. -/
theorem meets_div (a b : Word) {f : Word × Word → Code Next}
    (hf : ∀ quotient, Meets Q Handled (f quotient) m ↔ m.overflowed = false) :
    Meets Q Handled (intDiv a b >>= f) m ↔
      m.overflowed = false ∧ ¬ (a = BitVec.intMin 32 ∧ b = -1) := by
  rw [meets_bind]
  unfold intDiv
  by_cases hzero : b = 0
  · rw [if_pos hzero, meets_pure, hf]
    refine (and_iff_left fun h => ?_).symm
    exact absurd (hzero.symm.trans h.2) (by decide)
  · rw [if_neg hzero]
    by_cases hleast : a = BitVec.intMin 32 ∧ b = -1
    · rw [if_pos hleast]
      exact iff_of_false id fun h => h.2 hleast
    · rw [if_neg hleast, meets_pure, hf]
      exact (and_iff_left hleast).symm

/-- What `Decode` yields: fields that name general registers and no opcode that
`OneInstruction` does not know. -/
structure Decoded (instr : Instruction) : Prop where
  rt : instr.rt ≠ loadReg
  rd : instr.rd ≠ loadReg
  known : instr.opCode ≠ .rfe ∧ instr.opCode ≠ .special ∧ instr.opCode ≠ .bcond

theorem getD_mem {A : Type} {l : List A} {d : A} (hd : d ∈ l) (i : Nat) : l.getD i d ∈ l := by
  rw [List.getD_eq_getElem?_getD]
  cases hget : l[i]? with
  | none => exact hd
  | some a => exact List.mem_of_getElem? hget

theorem decoded_decode (value : Word) : Decoded (decode value) where
  rt := registerField_ne_loadReg value 16
  rd := registerField_ne_loadReg value 11
  known := by
    have hinfo := getD_mem (l := opTable) (d := ⟨.res, .ifmt⟩) (by decide)
      ((value >>> 26) &&& 0x3f).toNat
    have hspecial := getD_mem (l := specialTable) (d := .res) (by decide) (value &&& 0x3f).toNat
    have hops : ∀ info ∈ opTable, info.opCode ≠ .rfe := by decide
    have hspecials : ∀ op ∈ specialTable, op ≠ .rfe ∧ op ≠ .special ∧ op ≠ .bcond := by decide
    unfold decode
    dsimp only
    split
    · exact hspecials _ hspecial
    · split_ifs <;> decide
    · rename_i hne hne'
      exact ⟨hops _ hinfo, hne, hne'⟩

/-- A check that raises an exception, and code that is carried out behind it. -/
theorem meets_check (hm : Hosted m) (bad : Prop) [Decidable bad] (which : ExceptionType)
    (badVAddr : Word) {x : Code Next} (hx : Meets Q Handled x m ↔ m.overflowed = false) :
    Meets Q Handled (if bad then raiseException which badVAddr else x) m ↔
      m.overflowed = false := by
  split
  · exact meets_raise hm which badVAddr
  · exact hx

/-- A load of a register. -/
theorem meets_fetch (hQ : Finishes Q) (hm : Hosted m) {size : Nat} (hsize : isSize size)
    (addr : Word) (rt : Register) (g : Word → Word) (pcAfter : Word) :
    Meets Q Handled (do
      let value ← readMem addr size
      deliver rt (g value) pcAfter) m ↔ m.overflowed = false :=
  meets_load hm hsize fun _ m' hm' => hQ _ m' hm'

/-- A store from a register. -/
theorem meets_put (hQ : Finishes Q) (hm : Hosted m) {size : Nat} (hsize : isSize size)
    (addr value pcAfter : Word) :
    Meets Q Handled (do
      writeMem addr size value
      return ⟨pcAfter, 0, 0⟩) m ↔ m.overflowed = false :=
  meets_store hm hsize fun m' hm' => hQ _ m' hm'

/-- A partial load or store: an aligned address, and code that is carried out
behind the assertion. -/
theorem meets_partial (hm : Hosted m) (a b : Word) {f : Word → Code Next}
    (hf : ∀ m', Hosted m' → (Meets Q Handled (f (a + b)) m' ↔ m'.overflowed = false)) :
    Meets Q Handled (do
      let tmp ← intAdd a b
      assertAligned tmp
      f tmp) m ↔
      m.overflowed = false ∧ a.saddOverflow b = false ∧ (a + b) &&& 3 = 0 := by
  rw [meets_bind, meets_add, meets_assertAligned _ (hf _ (hm.noted _)), noted_overflowed,
    and_assoc]

/-- Reading a register that is being loaded changes nothing. -/
theorem pendingValue_ok (rt : Register) (m : Machine) : ∃ value, pendingValue rt m = .ok value m := by
  simp only [pendingValue, readRegister, bind_apply]
  split
  · exact ⟨_, rfl⟩
  · exact ⟨_, rfl⟩

/-- A partial load of a register: what was there before is part of the value. -/
theorem meets_merge (hQ : Finishes Q) (hm : Hosted m) (rt : Register) (g : Word → Word)
    (pcAfter : Word) :
    Meets Q Handled (do deliver rt (g (← pendingValue rt)) pcAfter) m ↔
      m.overflowed = false := by
  obtain ⟨old, hold⟩ := pendingValue_ok rt m
  rw [meets_bind, meets_ok hold]
  exact hQ _ m hm

/-- The jump that links has noted its sum before. -/
theorem link_overflowed
    (hpc : m.overflowed = false → (m.registers nextPCReg).saddOverflow 4 = false) :
    (m.noted ((m.registers nextPCReg).saddOverflow 4)).overflowed = false ↔
      m.overflowed = false := by
  rw [noted_overflowed]
  exact and_iff_left_of_imp hpc

theorem Hosted.linked (hm : Hosted m) {num : Register} (hnum : num ≠ loadReg) (overflow : Bool) :
    Hosted { m.noted overflow with registers := Machine.linked m.registers num } :=
  (hm.noted overflow).write hnum _

/-- What the `switch` asks of the host.  `hpc`: the sum for `pcAfter` has been
noted before. -/
theorem meets_execute (hQ : Finishes Q) (hm : Hosted m) {instr : Instruction}
    (hdecoded : Decoded instr)
    (hpc : m.overflowed = false → (m.registers nextPCReg).saddOverflow 4 = false)
    (pcAfter : Word) :
    Meets Q Handled (execute instr pcAfter) m ↔
      m.overflowed = false ∧ CarriedOut instr m.registers := by
  obtain ⟨opCode, rs, rt, rd, extra⟩ := instr
  have hrt : rt ≠ loadReg := hdecoded.rt
  have hrd : rd ≠ loadReg := hdecoded.rd
  have hone : isSize 1 := Or.inl rfl
  have htwo : isSize 2 := Or.inr (Or.inl rfl)
  have hfour : isSize 4 := Or.inr (Or.inr rfl)
  have hlo : loReg ≠ loadReg := by decide
  have hhi : hiReg ≠ loadReg := by decide
  have h31 : r31 ≠ loadReg := by decide
  have hplain : ∀ {P : Prop}, (P ↔ m.overflowed = false) → (P ↔ m.overflowed = false ∧ True) :=
    fun h => h.trans (and_iff_left trivial).symm
  unfold execute CarriedOut
  rw [meets_bind, meets_read, meets_bind, meets_read]
  cases opCode with
  | add =>
      refine meets_sum hm _ _ fun m' hm' => ?_
      exact meets_check hm' _ _ _ (meets_assign hQ hm' hrd _ _)
  | addi =>
      refine meets_sum hm _ _ fun m' hm' => ?_
      exact meets_check hm' _ _ _ (meets_assign hQ hm' hrt _ _)
  | sub =>
      refine meets_difference hm _ _ fun m' hm' => ?_
      exact meets_check hm' _ _ _ (meets_assign hQ hm' hrd _ _)
  | bgezal =>
      rw [meets_link, meets_bind, meets_read, meets_branch hQ (hm.linked h31 _)]
      exact and_congr_left fun _ => link_overflowed hpc
  | bltzal =>
      rw [meets_link, meets_bind, meets_read, meets_branch hQ (hm.linked h31 _)]
      exact and_congr_left fun _ => link_overflowed hpc
  | jal =>
      rw [meets_link]
      exact hplain ((hQ _ _ (hm.linked h31 _)).trans (link_overflowed hpc))
  | jalr =>
      rw [meets_link]
      exact hplain ((hQ _ _ (hm.linked hrd _)).trans (link_overflowed hpc))
  | div =>
      refine meets_div _ _ fun quotient => ?_
      exact meets_assign hQ (hm.write hlo _) hhi _ _
  | divu => exact hplain (meets_assign hQ (hm.write hlo _) hhi _ _)
  | mult =>
      refine (meets_mult hm _ _ true fun product m' hm' => ?_).trans
        (and_congr_right fun _ => imp_iff_right rfl)
      exact meets_assign hQ (hm'.write hhi _) hlo _ _
  | multu =>
      refine (meets_mult hm _ _ false fun product m' hm' => ?_).trans
        (and_congr_right fun _ => iff_of_true (fun h => absurd h Bool.false_ne_true) trivial)
      exact meets_assign hQ (hm'.write hhi _) hlo _ _
  | mfhi => exact hplain (meets_assign hQ hm hrd _ _)
  | mflo => exact hplain (meets_assign hQ hm hrd _ _)
  | j => exact hplain (hQ _ m hm)
  | jr => exact hplain (hQ _ m hm)
  | lb => exact meets_sum hm _ _ fun m' hm' => meets_fetch hQ hm' hone _ _ _ _
  | lbu => exact meets_sum hm _ _ fun m' hm' => meets_fetch hQ hm' hone _ _ _ _
  | lh =>
      refine meets_sum hm _ _ fun m' hm' => ?_
      exact meets_check hm' _ _ _ (meets_fetch hQ hm' htwo _ _ _ _)
  | lhu =>
      refine meets_sum hm _ _ fun m' hm' => ?_
      exact meets_check hm' _ _ _ (meets_fetch hQ hm' htwo _ _ _ _)
  | lw =>
      refine meets_sum hm _ _ fun m' hm' => ?_
      exact meets_check hm' _ _ _ (meets_fetch hQ hm' hfour _ _ id _)
  | lwl =>
      refine meets_partial hm _ _ fun m' hm' => ?_
      refine meets_load hm' hfour fun value m'' hm'' => ?_
      exact meets_merge hQ hm'' _ (fun old => mergeLeft _ old value) _
  | lwr =>
      refine meets_partial hm _ _ fun m' hm' => ?_
      refine meets_load hm' hfour fun value m'' hm'' => ?_
      exact meets_merge hQ hm'' _ (fun old => mergeRight _ old value) _
  | sb => exact meets_sum hm _ _ fun m' hm' => meets_put hQ hm' hone _ _ _
  | sh => exact meets_sum hm _ _ fun m' hm' => meets_put hQ hm' htwo _ _ _
  | sw => exact meets_sum hm _ _ fun m' hm' => meets_put hQ hm' hfour _ _ _
  | swl =>
      refine meets_partial hm _ _ fun m' hm' => ?_
      refine meets_load hm' hfour fun value m'' hm'' => ?_
      exact meets_put hQ hm'' hfour _ _ _
  | swr =>
      refine meets_partial hm _ _ fun m' hm' => ?_
      refine meets_load hm' hfour fun value m'' hm'' => ?_
      exact meets_put hQ hm'' hfour _ _ _
  -- the rest assigns to a register, branches or raises an exception
  | _ =>
      with_reducible first
        | exact absurd rfl hdecoded.known.1
        | exact absurd rfl hdecoded.known.2.1
        | exact absurd rfl hdecoded.known.2.2
        | exact hplain (meets_assign hQ hm hrd _ _)
        | exact hplain (meets_assign hQ hm hrt _ _)
        | exact hplain (meets_assign hQ hm hlo _ _)
        | exact hplain (meets_assign hQ hm hhi _ _)
        | exact hplain (meets_raise hm _ _)
        | exact meets_sum hm _ _ fun m' hm' => meets_assign hQ hm' hrd _ _
        | exact meets_sum hm _ _ fun m' hm' => meets_assign hQ hm' hrt _ _
        | exact meets_difference hm _ _ fun m' hm' => meets_assign hQ hm' hrd _ _
        | exact meets_branch hQ hm _ _ _

end Execute

section OneInstruction

variable {m : Machine}

/-- The code behind the `switch` is carried out. -/
theorem finishes_advance : Finishes fun next m => Meets Exact Handled (advance next) m := by
  intro next m hm
  obtain ⟨-, registers, -, hload⟩ | ⟨hbad, -⟩ :=
    delayedLoad_cases (BitVec.ofNat 32 next.nextLoadReg.val) next.nextLoadValue m
  · show Meets Exact Handled (advance next) m ↔ _
    unfold advance
    rw [meets_bind, meets_ok hload]
    exact Iff.rfl
  · exact absurd hm.loadBounded hbad

/-- The instruction the machine is at, if it gets to it. -/
def fetched (m : Machine) : Option Instruction :=
  match readMem (m.registers pcReg) 4 m.cleared with
  | .ok raw _ => some (decode raw)
  | .error _ _ => none

/-- The host carries out the instruction the machine is at. -/
def Carried (m : Machine) : Prop :=
  ∀ instr, m.fetched = some instr →
    (m.registers nextPCReg).saddOverflow 4 = false ∧ CarriedOut instr m.registers

/-- Behind the fetch: the next program counter and the instruction itself. -/
theorem meets_fetched (hm : Hosted m) (raw : Word) :
    Meets Exact Handled (do
      let pcAfter ← intAdd (← readRegister nextPCReg) 4
      advance (← execute (decode raw) pcAfter)) m ↔
      (m.overflowed = false ∧ (m.registers nextPCReg).saddOverflow 4 = false) ∧
        CarriedOut (decode raw) m.registers := by
  rw [meets_bind, meets_read, meets_bind, meets_add, meets_bind,
    meets_execute finishes_advance (hm.noted _) (decoded_decode raw), noted_overflowed]
  · exact Iff.rfl
  · intro hexact
    exact ((noted_overflowed _ _).mp hexact).2

/-- The condition on the instruction and its operands is exact. -/
theorem safe_iff_carried (hm : Hosted m) : m.Safe ↔ m.Carried := by
  have hclear : Hosted m.cleared := ⟨hm.loadBounded, hm.installed⟩
  unfold Safe Carried fetched oneInstruction
  rw [meets_bind, meets_read, meets_bind, show m.cleared.registers = m.registers from rfl]
  have hsize : isSize 4 := Or.inr (Or.inr rfl)
  rcases readMem_access m.cleared (m.registers pcReg) hsize with
    ⟨raw, m', hok, hdone⟩ | ⟨which, hraise⟩ | ⟨trap, -, -, hstuck⟩
  · have hregisters : m'.registers = m.registers := hdone.registers
    have hexact : m'.overflowed = false := hdone.overflowed
    rw [meets_ok hok, meets_fetched (hclear.accessed hdone) raw, hok, hregisters]
    constructor
    · rintro ⟨⟨-, hpc⟩, hcarried⟩ instr hinstr
      obtain rfl := Option.some.inj hinstr
      exact ⟨hpc, hcarried⟩
    · intro h
      obtain ⟨hpc, hcarried⟩ := h _ rfl
      exact ⟨⟨hexact, hpc⟩, hcarried⟩
  · have hnone : fetched m = none := by
      obtain ⟨noted, -, ⟨m', -, hexit⟩ | ⟨-, hexit⟩⟩ :=
        raiseException_cases (A := Word) which (m.registers pcReg) m.cleared
      · rw [fetched, hraise, hexit]
      · rw [fetched, hraise, hexit]
    rw [meets_congr hraise]
    refine iff_of_true ((meets_raise hclear which _).mpr rfl) fun instr hinstr => ?_
    exact absurd (hnone.symm.trans hinstr) (by simp)
  · exact absurd hstuck hclear.not_stuck

/-- The machine after this many calls of `OneInstruction`, however they end. -/
def after : Nat → Machine → Machine
  | 0, m => m
  | n + 1, m => after n (endState (oneInstruction m))

theorem Hosted.after (hm : Hosted m) (n : Nat) : Hosted (m.after n) := by
  induction n generalizing m with
  | zero => exact hm
  | succ n ih => exact ih (hosted_ends m hm)

end OneInstruction

end Machine
end Nachos
