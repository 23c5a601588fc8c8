import Nachos.Userprog.Spaces

/-!
# The page tables

`AddrSpace::AddrSpace` takes a clear frame from `memMap` for every page and marks
it; nobody ever clears a mark, and user code changes nothing but the bits `use`
and `dirty` of a page table.  So in every state the page tables of all address
spaces together name every frame once at most, and the construction of a new
address space writes to no frame of an old one.
-/

namespace Nachos
namespace Userprog

open Threads Lib

namespace System

/-- The page tables are in order: every entry is valid and names a frame of the
machine that is marked, and no frame is named twice. -/
structure WellPlaced (m : System) : Prop where
  length : ∀ space a, m.addrSpace space = some a → a.pageTable.length = a.numPages
  entry : ∀ space a (i : Nat) e, m.addrSpace space = some a → a.pageTable[i]? = some e →
    e.valid = true ∧ e.virtualPage = i ∧ 0 ≤ e.physicalPage ∧ e.physicalPage < numPhysPages ∧
      m.memMap.test e.physicalPage.toNat = true
  once : ∀ space space' a a' (i i' : Nat) e e', m.addrSpace space = some a →
    m.addrSpace space' = some a' → a.pageTable[i]? = some e → a'.pageTable[i']? = some e' →
    e.physicalPage = e'.physicalPage → space = space' ∧ i = i'

section Placement

variable {m m' w : System} {env : Environment} {input : Input} {frame : Frame UserFrame}
  {rest gs : List (Frame UserFrame)}

/-- An entry of a page table, up to the use of the page. -/
theorem entry_of_unused {a a' : AddrSpace} (h : a'.unused = a.unused) {i : Nat}
    {e' : TranslationEntry} (he : a'.pageTable[i]? = some e') :
    ∃ e, a.pageTable[i]? = some e ∧ e.valid = e'.valid ∧ e.virtualPage = e'.virtualPage ∧
      e.physicalPage = e'.physicalPage := by
  have htable : layout a'.pageTable = layout a.pageTable := congrArg AddrSpace.pageTable h
  have hentry := congrArg (fun table => table[i]?) htable
  simp only [layout, List.getElem?_map, he, Option.map_some] at hentry
  obtain ⟨e, hfound, hunused⟩ := Option.map_eq_some_iff.mp hentry.symm
  have hvalid : e.unused.valid = e'.unused.valid := congrArg _ hunused
  have hvirtual : e.unused.virtualPage = e'.unused.virtualPage := congrArg _ hunused
  have hphysical : e.unused.physicalPage = e'.unused.physicalPage := congrArg _ hunused
  exact ⟨e, hfound, hvalid, hvirtual, hphysical⟩

/-- An address space after a step that constructs none. -/
theorem SameSpaces.find (h : SameSpaces m m') {space : SpaceId} {a' : AddrSpace}
    (ha' : m'.addrSpace space = some a') :
    ∃ a, m.addrSpace space = some a ∧ a'.unused = a.unused := by
  have hsame := h.addrSpace space
  rw [ha', Option.map_some] at hsame
  obtain ⟨a, ha, hunused⟩ := Option.map_eq_some_iff.mp hsame.symm
  exact ⟨a, ha, hunused.symm⟩

theorem WellPlaced.sameSpaces (h : WellPlaced m) (hsame : SameSpaces m m') : WellPlaced m' where
  length := by
    intro space a' ha'
    obtain ⟨a, ha, hunused⟩ := hsame.find ha'
    have hlength : (layout a'.pageTable).length = (layout a.pageTable).length :=
      congrArg (fun b => b.pageTable.length) hunused
    have hpages : a'.unused.numPages = a.unused.numPages := congrArg _ hunused
    simp only [layout, List.length_map] at hlength
    exact hlength.trans ((h.length space a ha).trans hpages.symm)
  entry := by
    intro space a' i e' ha' he'
    obtain ⟨a, ha, hunused⟩ := hsame.find ha'
    obtain ⟨e, he, hvalid, hvirtual, hphysical⟩ := entry_of_unused hunused he'
    rw [← hvalid, ← hvirtual, ← hphysical, hsame.memMap]
    exact h.entry space a i e ha he
  once := by
    intro space₁ space₂ a₁' a₂' i₁ i₂ e₁' e₂' ha₁' ha₂' he₁' he₂' hframe
    obtain ⟨a₁, ha₁, hunused₁⟩ := hsame.find ha₁'
    obtain ⟨a₂, ha₂, hunused₂⟩ := hsame.find ha₂'
    obtain ⟨e₁, he₁, -, -, hphysical₁⟩ := entry_of_unused hunused₁ he₁'
    obtain ⟨e₂, he₂, -, -, hphysical₂⟩ := entry_of_unused hunused₂ he₂'
    exact h.once _ _ a₁ a₂ i₁ i₂ e₁ e₂ ha₁ ha₂ he₁ he₂
      (hphysical₁.trans (hframe.trans hphysical₂.symm))

/-- What the constructor has put in a page table. -/
theorem Loaded.entry {taken : List Nat} {memMap memMap' : BitMap} {mem mem' : Memory}
    {table : List TranslationEntry}
    (h : Loaded 0 taken ⟨memMap, mem, []⟩ ⟨memMap', mem', table⟩) {i : Nat}
    {e : TranslationEntry} (he : table[i]? = some e) :
    ∃ p, taken[i]? = some p ∧ e = pageEntry i p := by
  have htable : table = taken.mapIdx fun k p => pageEntry (0 + k) p := h.pageTable
  rw [htable, List.getElem?_mapIdx] at he
  obtain ⟨p, hp, hentry⟩ := Option.map_eq_some_iff.mp he
  refine ⟨p, hp, ?_⟩
  rw [← hentry, Nat.zero_add]

/-- The frames a new page table names were clear. -/
theorem WellPlaced.load (h : WellPlaced m) {space : SpaceId} {built : AddrSpace}
    {taken : List Nat} (hbits : m.memMap.numBits = numPhysPages)
    (hlength : taken.length = built.numPages)
    (hloaded : Loaded 0 taken ⟨m.memMap, m.mainMemory, []⟩
      ⟨m'.memMap, m'.mainMemory, built.pageTable⟩)
    (haddr : m'.addrSpace = Function.update m.addrSpace space (some built)) :
    WellPlaced m' := by
  -- an entry of an old page table names a marked frame, one of the new a clear one
  have hapart : ∀ space' a' (i i' : Nat) e e', m.addrSpace space' = some a' →
      a'.pageTable[i']? = some e' → built.pageTable[i]? = some e →
      e.physicalPage ≠ e'.physicalPage := by
    intro space' a' i i' e e' ha' he' he hsame
    obtain ⟨p, hp, rfl⟩ := Loaded.entry hloaded he
    have hclear := (hloaded.clear p (List.mem_of_getElem? hp)).2
    have hmarked := (h.entry space' a' i' e' ha' he').2.2.2.2
    rw [← hsame] at hmarked
    exact absurd (hclear.symm.trans hmarked) (by simp)
  constructor
  case length =>
    intro space' a' ha'
    rw [haddr] at ha'
    by_cases hspace : space' = space
    · rw [hspace, Function.update_self, Option.some.injEq] at ha'
      subst ha'
      have htable : built.pageTable = [] ++ taken.mapIdx fun k p => pageEntry (0 + k) p :=
        hloaded.pageTable
      rw [htable]
      simpa using hlength
    · rw [Function.update_of_ne hspace] at ha'
      exact h.length space' a' ha'
  case entry =>
    intro space' a' i e ha' he
    rw [haddr] at ha'
    by_cases hspace : space' = space
    · rw [hspace, Function.update_self, Option.some.injEq] at ha'
      subst ha'
      obtain ⟨p, hp, rfl⟩ := Loaded.entry hloaded he
      have hmem := List.mem_of_getElem? hp
      have hlt := (hloaded.clear p hmem).1
      refine ⟨rfl, rfl, Int.natCast_nonneg p, ?_, (hloaded.test p).mpr (Or.inr hmem)⟩
      exact Int.ofNat_lt.mpr (Nat.lt_of_lt_of_eq hlt hbits)
    · rw [Function.update_of_ne hspace] at ha'
      obtain ⟨hvalid, hvirtual, hnonneg, hlt, hmarked⟩ := h.entry space' a' i e ha' he
      exact ⟨hvalid, hvirtual, hnonneg, hlt, (hloaded.test _).mpr (Or.inl hmarked)⟩
  case once =>
    intro space₁ space₂ a₁ a₂ i₁ i₂ e₁ e₂ ha₁ ha₂ he₁ he₂ hframe
    rw [haddr] at ha₁ ha₂
    by_cases hspace₁ : space₁ = space
    · rw [hspace₁, Function.update_self, Option.some.injEq] at ha₁
      subst ha₁
      by_cases hspace₂ : space₂ = space
      · rw [hspace₂, Function.update_self, Option.some.injEq] at ha₂
        subst ha₂
        refine ⟨hspace₁.trans hspace₂.symm, ?_⟩
        obtain ⟨p₁, hp₁, rfl⟩ := Loaded.entry hloaded he₁
        obtain ⟨p₂, hp₂, rfl⟩ := Loaded.entry hloaded he₂
        obtain rfl : p₁ = p₂ := Int.ofNat_inj.mp hframe
        exact (List.getElem?_inj (List.getElem?_eq_some_iff.mp hp₁).1 hloaded.nodup).mp
          (hp₁.trans hp₂.symm)
      · rw [Function.update_of_ne hspace₂] at ha₂
        exact absurd hframe (hapart space₂ a₂ i₁ i₂ e₁ e₂ ha₂ he₂ he₁)
    · rw [Function.update_of_ne hspace₁] at ha₁
      by_cases hspace₂ : space₂ = space
      · rw [hspace₂, Function.update_self, Option.some.injEq] at ha₂
        subst ha₂
        exact absurd hframe.symm (hapart space₁ a₁ i₂ i₁ e₂ e₁ ha₁ he₁ he₂)
      · rw [Function.update_of_ne hspace₂] at ha₂
        exact h.once space₁ space₂ a₁ a₂ i₁ i₂ e₁ e₂ ha₁ ha₂ he₁ he₂ hframe

/-- The page tables with the size of the map of frames. -/
structure Paged (m : System) : Prop extends WellPlaced m where
  numBits : m.memMap.numBits = numPhysPages

theorem Paged.step (h : Paged m) (hat : StepAt m m' w env input frame rest gs) : Paged m' := by
  rcases hat.spaces with ⟨hsame, -⟩ | ⟨space, use, built, -, hload, haddr⟩
  · exact ⟨h.toWellPlaced.sameSpaces hsame, hsame.memMap ▸ h.numBits⟩
  · obtain ⟨taken, hlength, hloaded, -, -⟩ := AddrSpace.load_ok hload
    exact ⟨h.toWellPlaced.load h.numBits hlength hloaded haddr,
      hloaded.numBits.trans h.numBits⟩

theorem paged_boot (pid : ThreadId → Int) : Paged (boot pid) where
  length := fun _ _ h => absurd h (by simp [boot])
  entry := fun _ _ _ _ h => absurd h (by simp [boot])
  once := fun _ _ _ _ _ _ _ _ h => absurd h (by simp [boot])
  numBits := rfl

theorem Reachable.paged (h : m.Reachable) : Paged m := by
  obtain ⟨pid, hrun⟩ := h
  exact hrun.stepAt_invariant (orderly_boot pid) (paged_boot pid)
    fun _ _ _ _ _ _ _ _ _ _ _ hat hP => hP.step hat

end Placement

section Exclusive

variable {m : System}

/-- In every state of every run the page tables of all address spaces are in
order, and the construction of a new address space, which never replaces one,
changes no byte in a frame of an earlier one. -/
theorem pageTables_exclusive (hreach : m.Reachable) :
    WellPlaced m ∧
    ∀ env m' space use, m.kernel.top = some (.client (.spaceDone space use)) →
      m.step env = .ok m' → m.addrSpace space = none ∧
      ∀ space' a e (addr : Nat), m.addrSpace space' = some a → e ∈ a.pageTable →
        (addr / pageSize : Nat) = e.physicalPage → m'.mainMemory addr = m.mainMemory addr := by
  have hpaged := hreach.paged
  have hhoused := hreach.housed
  refine ⟨hpaged.toWellPlaced, ?_⟩
  intro env m' space use htop hstep
  obtain ⟨w, input, frame, rest, gs, hat⟩ := step_at hreach.orderly.wellFormed hstep
  obtain rfl : frame = .client (.spaceDone space use) :=
    Option.some.inj (hat.kernel.top.symm.trans htop)
  constructor
  · have hunbuilt := (hhoused.carried m.current space false (hat.carried_top rfl)).2
    simpa using hunbuilt
  · intro space' a e addr ha he haddr
    rcases hat.spaces with ⟨-, hframe⟩ | ⟨space₁, use₁, built, -, hload, -⟩
    · exact absurd rfl (hframe space use)
    · obtain ⟨taken, -, hloaded, -, -⟩ := AddrSpace.load_ok hload
      refine hloaded.memory addr fun htaken => ?_
      obtain ⟨i, hi⟩ := List.mem_iff_getElem?.mp he
      have hmarked := (hpaged.entry space' a i e ha hi).2.2.2.2
      rw [← haddr, Int.toNat_natCast] at hmarked
      exact absurd ((hloaded.clear _ htaken).2.symm.trans hmarked) (by simp)

/-- A program has been started and calls `Exec`: the second address space is constructed beside the
first one. -/
theorem pageTables_exclusive_exec :
    ∃ m m' : System, m.Reachable ∧ m'.Reachable ∧ (m'.addrSpace 0).isSome ∧
      (m'.addrSpace 1).isSome ∧ WellPlaced m' ∧
      ∀ a e (addr : Nat), m.addrSpace 0 = some a → e ∈ a.pageTable →
        (addr / pageSize : Nat) = e.physicalPage → m'.mainMemory addr = m.mainMemory addr := by
  -- `addiu r2, r0, 2` and `syscall`
  let env := undisturbed (program [0x24020002, 0x0000000c] 0)
  obtain ⟨m, hreach, htop, hspaces⟩ := exists_reachable
    (P := fun m => m.kernel.top = some (.client (.spaceDone 1 .exec)) ∧
      (m.step env).toOption.any (fun m' => (m'.addrSpace 0).isSome && (m'.addrSpace 1).isSome))
    (fun _ => 0) (List.replicate 37 env) (by decide +kernel)
  cases hstep : m.step env with
  | error stop => simp [hstep, Except.toOption] at hspaces
  | ok m' =>
      simp only [hstep, Except.toOption, Option.any_some, Bool.and_eq_true] at hspaces
      have hrun : Run (fun _ _ => True) m m' := Reach.tail .refl trivial hstep
      have hreach' : m'.Reachable := hreach.run hrun
      exact ⟨m, m', hreach, hreach', hspaces.1, hspaces.2, (pageTables_exclusive hreach').1,
        ((pageTables_exclusive hreach).2 env m' 1 .exec htop hstep).2 0⟩

end Exclusive

end System

end Userprog
end Nachos
