import CacheBench.HeapLists
import CacheBench.SlabSearch

namespace CacheBench.OnHeap

open SeparationHeap HeapProgram

/-!
# The slab manager on the heap

`managerAt` owns a manager, its class table and its slabs.  A slab is the block
at its own address, so a pointer to a slab and the slab determine each other,
and the functions of `slabs.c` compute what they compute on the sequence of
slabs.
-/

/-! ## What is done to a slab leaves it in its place -/

section Addresses

variable {slab after : Slab}

theorem setStatus_addr
    {index : Nat}
    {word : BitVec 32}
    (stored : slab.setStatus index word = .ok after) :
    after.addr = slab.addr := by
  unfold Slab.setStatus at stored
  split at stored
  · cases stored
    rfl
  · split at stored
    · cases stored
      rfl
    · cases stored

theorem toggleBit_addr
    {bit : Nat}
    (toggled : toggleBit slab bit = .ok after) :
    after.addr = slab.addr := by
  obtain ⟨chunk, -, stored⟩ := bind_eq_ok.mp toggled
  exact setStatus_addr stored

theorem slabDelete_addr
    {item : Nat}
    (deleted : slabDelete slab item = .ok after) :
    after.addr = slab.addr := by
  obtain ⟨toggled, isToggled, rest⟩ := bind_eq_ok.mp deleted
  have kept := toggleBit_addr isToggled
  cases rest
  exact kept

/-- A loop over positions keeps the address if each turn does. -/
theorem foldlM_addr
    {turn : Slab → Nat → Outcome Slab}
    (keeps : ∀ {slab after position},
      turn slab position = .ok after → after.addr = slab.addr)
    {positions : List Nat}
    (returned : positions.foldlM turn slab = .ok after) :
    after.addr = slab.addr := by
  induction positions generalizing slab with
  | nil =>
      cases returned
      rfl
  | cons position rest inductionHypothesis =>
      rw [List.foldlM_cons] at returned
      obtain ⟨next, first, later⟩ := bind_eq_ok.mp returned
      rw [inductionHypothesis later, keeps first]

theorem fillStatus_addr
    {start count : Nat}
    {word : BitVec 32}
    (filled : fillStatus slab start count word = .ok after) :
    after.addr = slab.addr :=
  foldlM_addr (fun stored => setStatus_addr stored) filled

theorem markTail_addr
    {i remainder : Nat}
    (marked : markTail slab i remainder = .ok after) :
    after.addr = slab.addr := by
  refine foldlM_addr (fun turned => ?_) marked
  obtain ⟨word, -, stored⟩ := bind_eq_ok.mp turned
  exact setStatus_addr stored

theorem allocateSlab_addr
    {slabClass : Nat}
    (allocated : allocateSlab slab slabClass = .ok after) :
    after.addr = slab.addr := by
  unfold allocateSlab at allocated
  dsimp only at allocated
  split at allocated
  · cases allocated
  split at allocated
  · cases allocated
  obtain ⟨cleared, isCleared, rest⟩ := bind_eq_ok.mp allocated
  obtain ⟨marked, isMarked, rest⟩ := bind_eq_ok.mp rest
  obtain ⟨filled, isFilled, rest⟩ := bind_eq_ok.mp rest
  have kept :=
    (fillStatus_addr isFilled).trans
      ((markTail_addr isMarked).trans (fillStatus_addr isCleared))
  cases rest
  exact kept

theorem write_addr (offset count : Nat) (source : Nat → UInt8) :
    (slab.write offset count source).addr = slab.addr := by
  unfold Slab.write
  split <;> rfl

end Addresses

/-- Each slab at its own address. -/
def placed (slabs : List Slab) : List (Nat × Slab) :=
  slabs.map fun slab => (slab.addr, slab)

/-- A manager, its class table and its slabs. -/
def managerAt (man : Nat) (manager : Manager) : Assertion Block :=
  ⨆ (classes : Nat) (slabs : Nat),
    pointsTo man
        (.managerObj
          { classes := classes
            slabs := slabs
            numSlabs := manager.numSlabs
            blocks := manager.blocks
            mallocs := manager.slabs.length }) *
      pointsTo classes (.classTable manager.classes) *
      listAt slabs .findVal .destroySlab .slabObj (placed manager.slabs)

section Opening

variable {man : Nat} {manager : Manager} {R : Assertion Block}

/-- The blocks of a manager whose pointers are known. -/
abbrev managerBlocks
    (man : Nat)
    (manager : Manager)
    (classes slabs : Nat)
    (cells : Cells) :
    Assertion Block :=
  pointsTo man
      (.managerObj
        { classes := classes
          slabs := slabs
          numSlabs := manager.numSlabs
          blocks := manager.blocks
          mallocs := manager.slabs.length }) *
    pointsTo classes (.classTable manager.classes) *
    (pointsTo slabs
        (.linkedList
          { head := headOr none cells, eq := .findVal, destroy := .destroySlab }) *
      segment none cells * objectsAt .slabObj (placed manager.slabs))

theorem managerAt_eq :
    managerAt man manager =
      ⨆ (classes : Nat) (slabs : Nat) (cells : Cells)
        (_ : cells.map Prod.snd = (placed manager.slabs).map Prod.fst),
        managerBlocks man manager classes slabs cells := by
  simp only [managerAt, listAt, managerBlocks, Assertion.mul_iSup]

theorem reads_managerAt
    {ρ : Type}
    {program : Code ρ}
    {result : ρ}
    (each : ∀ classes slabs cells,
      cells.map Prod.snd = (placed manager.slabs).map Prod.fst →
        Reads (managerBlocks man manager classes slabs cells) program result) :
    Reads (managerAt man manager) program result := by
  rw [managerAt_eq]
  exact Reads.exists_before fun classes => Reads.exists_before fun slabs =>
    Reads.exists_before fun cells => Reads.exists_before fun objs =>
      each classes slabs cells objs

theorem refines_managerAt
    {ρ γ : Type}
    {program : Code ρ}
    {outcome : Outcome γ}
    {S : γ → ρ → Assertion Block}
    (each : ∀ classes slabs,
      Refines
        (pointsTo man
            (.managerObj
              { classes := classes
                slabs := slabs
                numSlabs := manager.numSlabs
                blocks := manager.blocks
                mallocs := manager.slabs.length }) *
          pointsTo classes (.classTable manager.classes) *
          listAt slabs .findVal .destroySlab .slabObj (placed manager.slabs))
        program outcome S) :
    Refines (managerAt man manager) program outcome S :=
  Refines.exists_before fun classes => Refines.exists_before fun slabs =>
    each classes slabs

end Opening

section Reading

variable {man : Nat} {manager : Manager}

theorem getSlabClass_reads (size : Nat) :
    Reads (managerAt man manager) (getSlabClass man size)
      (CacheBench.getSlabClass manager size) := by
  refine reads_managerAt fun classes slabs cells objs => ?_
  refine Reads.loadAs_bind Focus.le_has rfl ?_
  refine Reads.loadAs_bind Focus.le_has rfl ?_
  exact Reads.pure _

theorem objectsAt_placed_le_has
    {slab : Slab}
    (member : slab ∈ manager.slabs) :
    objectsAt .slabObj (placed manager.slabs) ≤ has slab.addr (.slabObj slab) :=
  @objectsAt_le_has _ _ _ (slab.addr, slab)
    (List.mem_map.mpr ⟨slab, member, rfl⟩)

/-- A pointer to a slab is read as that slab. -/
theorem loadSlab_reads
    {slab : Slab}
    (member : slab ∈ manager.slabs) :
    Reads (managerAt man manager) (loadAs Block.slabObj? slab.addr : Code Slab) slab :=
  reads_managerAt fun _ _ _ _ =>
    Reads.loadAs (has_of_owns Splits.le (objectsAt_placed_le_has member)) rfl

/-- A search in the sequence of slabs and the pointer it corresponds to. -/
theorem find?_placed (test : Slab → Bool) (slabs : List Slab) :
    ((placed slabs).find? fun object => test object.2).map Prod.fst =
      (slabs.find? test).map Slab.addr := by
  rw [placed, List.find?_map, Option.map_map]
  rfl

/-- The slab around an address, as a search in the sequence finds it. -/
theorem slabAround_reads (address : Nat) :
    Reads (managerAt man manager) (slabAround man address)
      ((CacheBench.llFind CacheBench.findVal manager.slabs address).map Slab.addr) := by
  refine reads_managerAt fun classes slabs cells objs => ?_
  refine Reads.loadAs_bind Focus.le_has rfl ?_
  rw [CacheBench.llFind, ← find?_placed]
  refine llFind_reads (CacheBench.findVal · address) Focus.le_has Splits.le objs
    fun object member => ?_
  obtain ⟨slab, inList, rfl⟩ := List.mem_map.mp member
  refine Reads.loadAs_bind
    (has_of_owns Splits.le (objectsAt_placed_le_has inList)) rfl ?_
  exact Reads.pure _

/-- The loop of `get_slab`. -/
theorem openFrom_reads
    {P : Assertion Block}
    {slabClass steps : Nat}
    {head : Option Nat}
    {cells : Cells}
    {slabs : List Slab}
    (follows : Follows P head cells)
    (objs : cells.map Prod.snd = (placed slabs).map Prod.fst)
    (present : ∀ slab ∈ slabs, P ≤ has slab.addr (.slabObj slab))
    (enough : cells.length < steps) :
    Reads P (openFrom slabClass steps head)
      ((CacheBench.llFind isOpen slabs slabClass).map Slab.addr) := by
  induction cells generalizing steps head slabs with
  | nil =>
      obtain ⟨steps, rfl⟩ := Nat.exists_eq_add_of_lt enough
      obtain rfl : head = none := follows
      obtain rfl : slabs = [] := by simpa [placed] using objs.symm
      exact Reads.pure _
  | cons cell rest inductionHypothesis =>
      obtain ⟨rfl, node, onward⟩ := follows
      obtain ⟨steps, rfl⟩ : ∃ fewer, steps = fewer + 1 :=
        Nat.exists_eq_succ_of_ne_zero (by omega)
      obtain _ | ⟨slab, slabs⟩ := slabs
      · simp [placed] at objs
      obtain ⟨obj, restObjs⟩ : cell.2 = slab.addr ∧
          rest.map Prod.snd = (placed slabs).map Prod.fst := by
        simpa [placed] using objs
      refine Reads.loadAs_bind node rfl ?_
      simp only [obj, CacheBench.llFind_cons]
      refine Reads.loadAs_bind (present slab (by simp)) rfl ?_
      by_cases accepted : isOpen slab slabClass = true
      · simp only [accepted, if_true, Option.map_some]
        exact Reads.pure _
      · simp only [accepted]
        exact inductionHypothesis onward restObjs
          (fun other member => present other (by simp [member]))
          (by simp at enough; omega)

/-- `get_slab` returns a pointer to the slab the sequence search finds. -/
theorem getSlab_reads (slabClass : Nat) :
    Reads (managerAt man manager) (getSlab man slabClass)
      ((CacheBench.getSlab manager slabClass).map Slab.addr) := by
  refine reads_managerAt fun classes slabs cells objs => ?_
  refine Reads.loadAs_bind Focus.le_has rfl ?_
  refine Reads.loadAs_bind Focus.le_has rfl ?_
  refine Reads.countBlocks
    (atLeast_of_owns Splits.le (segment_le_exactly none cells)) fun bound enough => ?_
  refine openFrom_reads (follows_segment cells Splits.le) objs (fun slab member => ?_)
    (by omega)
  exact has_of_owns Splits.le (objectsAt_placed_le_has member)

end Reading

section Changing

variable (man : Nat) {manager : Manager}

/-- Writing through the pointer a search returned changes that slab. -/
theorem storeSlab_refines
    {test : Slab → Bool}
    {slab new : Slab}
    (found : manager.slabs.find? test = some slab)
    (sameAddr : new.addr = slab.addr) :
    Refines (managerAt man manager) (store slab.addr (.slabObj new) : Code Unit)
      (.ok ())
      fun _ _ => managerAt man
        { manager with
          slabs := FirstMatch.updateFirst test (fun _ => new) manager.slabs } := by
  have place :
      (placed manager.slabs).find? (fun object => test object.2) =
        some (slab.addr, slab) := by
    rw [placed, List.find?_map]
    exact congrArg (Option.map fun slab => (slab.addr, slab)) found
  have replaced :
      FirstMatch.updateFirst (fun object => test object.2)
          (fun _ => (slab.addr, new)) (placed manager.slabs) =
        placed (FirstMatch.updateFirst test (fun _ => new) manager.slabs) := by
    obtain ⟨accepted, before, after, shape, rejected⟩ :=
      FirstMatch.split_of_find? found
    rw [shape, FirstMatch.updateFirst_split _ _ accepted rejected]
    simp only [placed, List.map_append, List.map_cons, sameAddr]
    refine FirstMatch.updateFirst_split (fun object : Nat × Slab => test object.2) _
      accepted fun object member => ?_
    obtain ⟨other, inBefore, rfl⟩ := List.mem_map.mp member
    exact rejected other inBefore
  have lengths := congrArg List.length
    (FirstMatch.map_updateFirst_of_find? found sameAddr)
  simp only [List.length_map] at lengths
  refine refines_managerAt fun classes slabs => Refines.last ?_
  refine Refines.step
    (storeObject_refines slabs .findVal .destroySlab .slabObj place new) fun _ => ?_
  refine Refines.pure (le_iSup₂_of_le classes slabs (le_of_eq ?_))
  simp only [replaced, lengths]
  ac_rfl

/-- `man_delete` leaves the manager the sequences have after it. -/
theorem manDelete_refines (valPtr : Nat) :
    Refines (managerAt man manager) (manDelete man valPtr)
      (CacheBench.manDelete manager valPtr)
      (answers (fun _ => ()) (managerAt man)) := by
  unfold manDelete CacheBench.manDelete
  refine Refines.read (slabAround_reads valPtr) ?_
  cases search : CacheBench.llFind CacheBench.findVal manager.slabs valPtr with
  | none =>
      exact Refines.pure_answers rfl le_rfl
  | some slab =>
      refine Refines.read (loadSlab_reads (List.mem_of_find?_eq_some search)) ?_
      dsimp only
      split
      · exact Refines.fault
      · refine Refines.lift fun adjusted deleted => Refines.last ?_
        refine Refines.step (storeSlab_refines man search (slabDelete_addr deleted))
          fun _ => ?_
        exact Refines.pure_answers rfl (le_of_eq (mul_one _))

/-- The calls of `get_address` of itself. -/
theorem getAddressWithin_refines (calls valSize : Nat) :
    Refines (managerAt man manager) (getAddressWithin calls man valSize)
      (CacheBench.getAddressWithin calls manager valSize)
      (answers Prod.fst fun result => managerAt man result.2) := by
  induction calls generalizing manager with
  | zero =>
      exact Refines.fault
  | succ calls inductionHypothesis =>
      unfold getAddressWithin CacheBench.getAddressWithin
      refine Refines.read (getSlabClass_reads valSize) ?_
      refine Refines.read (getSlab_reads _) ?_
      dsimp only
      cases search : CacheBench.getSlab manager
          (CacheBench.getSlabClass manager valSize) with
      | none =>
          exact Refines.pure_answers rfl le_rfl
      | some slab =>
          refine Refines.read
            (loadSlab_reads (List.mem_of_find?_eq_some search)) ?_
          dsimp only
          split
          · -- The slab has no free entry: it is marked full.
            refine Refines.step (storeSlab_refines man search rfl) fun _ => ?_
            rw [mul_one]
            exact inductionHypothesis
          · refine Refines.lift fun reserved toggled => ?_
            refine Refines.step (storeSlab_refines man search (toggleBit_addr toggled))
              fun _ => ?_
            exact Refines.pure_answers rfl (le_of_eq (mul_one _))

/-- The slabs of a manager are blocks of their own. -/
theorem managerAt_le_atLeast :
    managerAt man manager ≤ atLeast manager.slabs.length := by
  rw [managerAt_eq]
  refine iSup₂_le fun classes slabs => iSup₂_le fun cells objs => ?_
  have count : cells.length = manager.slabs.length := by
    have lengths := congrArg List.length objs
    simpa [placed] using lengths
  rw [← count]
  exact atLeast_of_owns Splits.le (segment_le_exactly none cells)

/-- `get_address` computes what it computes on sequences. -/
theorem getAddress_refines (valSize : Nat) :
    Refines (managerAt man manager) (getAddress man valSize)
      (CacheBench.getAddress manager valSize)
      (answers Prod.fst fun result => managerAt man result.2) := by
  refine Refines.countBlocks (managerAt_le_atLeast man) fun bound enough => ?_
  obtain ⟨result, after, returned, -⟩ :=
    Manager.getAddress_reserves manager (@rfl _ (CacheBench.getSlabClass manager valSize))
  have more : CacheBench.getAddressWithin (bound + 1) manager valSize = _ :=
    Manager.getAddressWithin_of_le returned (by omega)
  rw [returned, ← more]
  exact getAddressWithin_refines man (bound + 1) valSize

/-- A new slab goes behind the others. -/
theorem slabAdd_refines (slabClass : Nat) :
    Refines (managerAt man manager) (slabAdd man slabClass)
      (CacheBench.slabAdd manager slabClass)
      (answers (fun _ => ()) (managerAt man)) := by
  refine refines_managerAt fun classes slabs => ?_
  refine Refines.loadAs Focus.le_has rfl ?_
  refine Refines.mallocAt ?_
  refine Refines.lift fun slab allocated => ?_
  have sameAddr := allocateSlab_addr allocated
  refine Refines.store ?_
  rw [← sameAddr]
  dsimp only
  refine Refines.step
    (llAppend_refines .findVal .destroySlab .slabObj (placed manager.slabs) slab.addr
      slab) fun _ => ?_
  refine Refines.last (Refines.store (Refines.pure_answers rfl ?_))
  refine le_iSup₂_of_le classes slabs (le_of_eq ?_)
  simp only [CacheBench.llAppend, placed, List.map_append, List.map_singleton,
    List.length_append, List.length_singleton]
  ac_rfl

/-- `memcpy` into a slab. -/
theorem memcpy_refines (address : Nat) (source : Nat → UInt8) (count : Nat) :
    Refines (managerAt man manager) (memcpy man address source count)
      (manager.memcpy address source count)
      (answers (fun _ => ()) (managerAt man)) := by
  unfold memcpy Manager.memcpy
  split
  · exact Refines.pure_answers rfl le_rfl
  refine Refines.read (slabAround_reads address) ?_
  cases search : CacheBench.llFind CacheBench.findVal manager.slabs address with
  | none =>
      exact Refines.fault
  | some slab =>
      refine Refines.read (loadSlab_reads (List.mem_of_find?_eq_some search)) ?_
      dsimp only
      split
      · refine Refines.last (Refines.step
          (storeSlab_refines man search (write_addr _ count source)) fun _ => ?_)
        exact Refines.pure_answers rfl (le_of_eq (mul_one _))
      · exact Refines.fault

/-- `strlen` of a value in a slab. -/
theorem strlen_refines (address : Nat) :
    Refines (managerAt man manager) (strlen man address) (manager.strlen address)
      (answers id fun _ => managerAt man manager) := by
  unfold strlen Manager.strlen
  refine Refines.read (slabAround_reads address) ?_
  cases search : CacheBench.llFind CacheBench.findVal manager.slabs address with
  | none =>
      exact Refines.fault
  | some slab =>
      refine Refines.read (loadSlab_reads (List.mem_of_find?_eq_some search)) ?_
      dsimp only
      cases strlenFrom slab.byteAt
          (getSlabSize - (address - slab.addr)) (address - slab.addr) with
      | none => exact Refines.fault
      | some length => exact Refines.pure_answers rfl le_rfl

/-- `initialize` makes a manager without slabs. -/
theorem initializeManager_refines (blocks : Nat → Slab) :
    Refines 1 (initializeManager blocks) (.ok ())
      fun _ man => managerAt man (CacheBench.initializeManager blocks none) := by
  refine Refines.malloc fun ret => ?_
  refine Refines.malloc fun classes => ?_
  refine Refines.step (@llCreate_refines _ .slabObj .findVal .destroySlab)
    fun slabs => ?_
  refine Refines.store (Refines.pure ?_)
  refine le_iSup₂_of_le classes slabs (le_of_eq ?_)
  simp only [CacheBench.initializeManager, placed, List.map_nil, Option.getD_none,
    List.length_nil]
  ac_rfl

/-- `man_destroy` gives back all that belongs to a manager. -/
theorem manDestroy_refines :
    Refines (managerAt man manager) (manDestroy man) (.ok ()) fun _ _ => 1 := by
  refine refines_managerAt fun classes slabs => ?_
  refine Refines.loadAs Focus.le_has rfl ?_
  dsimp only
  refine Refines.step (@llDestroy_refines _ .slabObj _ .findVal .destroySlab
    (placed manager.slabs)) fun _ => ?_
  refine Refines.free (Refines.last (Refines.free (Refines.pure ?_)))
  simp

end Changing

/-- A manager takes three blocks, and two for each slab. -/
theorem managerAt_le_exactly (man : Nat) (manager : Manager) :
    managerAt man manager ≤ exactly (3 + 2 * manager.slabs.length) := by
  refine iSup₂_le fun classes slabs => ?_
  refine le_trans
    (mul_le_exactly
      (mul_le_exactly (pointsTo_le_exactly _ _) (pointsTo_le_exactly _ _))
      (listAt_le_exactly _))
    (le_of_eq (congrArg exactly ?_))
  rw [placed, List.length_map]
  omega

end CacheBench.OnHeap
