import CacheBench.SlabAllocator

namespace CacheBench.Manager

/-!
# Searching for a free slot

`get_address` takes the first open slab of a class.  When that slab turns out
to be full it is marked so, and `get_address` calls itself.  This module proves
what it does for any list of slabs: every call that recurses leaves one open
slab less, and the only bit that changes is that of the slot it returns.
-/

/-- The full flag is set only on slabs without a clear bit. -/
def FullSound (man : Manager) : Prop :=
  ∀ slab ∈ man.slabs, slab.isFull ≠ 0 → slab.AllUsed

/-- Two managers whose slabs differ in their allocation status at most. -/
structure SameBlocks (man other : Manager) : Prop where
  classes : other.classes = man.classes
  blocks : other.blocks = man.blocks
  numSlabs : other.numSlabs = man.numSlabs
  length : other.slabs.length = man.slabs.length
  slab :
    ∀ {number : Nat} {slab : Slab}, man.slabs[number]? = some slab →
      ∃ newSlab, other.slabs[number]? = some newSlab ∧ SameBlock slab newSlab

/--
What `get_address` returns for a class.  A slab that is marked full is skipped,
whether or not it is.
-/
inductive Reserved (man : Manager) (slabClass : Nat) :
    Option Nat → Manager → Prop where
  | exhausted
      {after : Manager}
      (allUsed :
        ∀ slab ∈ man.slabs, isOpen slab slabClass = true → slab.AllUsed)
      (sameUsed :
        ∀ number item, after.used number item = man.used number item) :
      Reserved man slabClass none after
  | slot
      {after : Manager}
      {number item : Nat}
      {slab : Slab}
      (present : man.slabs[number]? = some slab)
      (accepts : isOpen slab slabClass = true)
      (first : slab.FirstClear item)
      (earlier :
        ∀ before < number, ∀ other, man.slabs[before]? = some other →
          isOpen other slabClass = true → other.AllUsed)
      (marked :
        ∀ query other,
          after.used query other =
            (man.used query other ||
              decide (query = number ∧ other = item))) :
      Reserved man slabClass
        (some (slab.addr + slab.slabClass * item % 2 ^ 32)) after

namespace SameBlocks

variable {man other : Manager}

theorem refl (man : Manager) : SameBlocks man man :=
  ⟨rfl, rfl, rfl, rfl, fun {_ slab} present =>
    ⟨slab, present, rfl, rfl, rfl⟩⟩

theorem trans
    {third : Manager}
    (earlier : SameBlocks man other)
    (later : SameBlocks other third) :
    SameBlocks man third := by
  refine ⟨later.classes.trans earlier.classes,
    later.blocks.trans earlier.blocks,
    later.numSlabs.trans earlier.numSlabs,
    later.length.trans earlier.length, ?_⟩
  intro number slab present
  obtain ⟨middle, middlePresent, same⟩ := earlier.slab present
  obtain ⟨final, finalPresent, sameAgain⟩ := later.slab middlePresent
  exact ⟨final, finalPresent, same.trans sameAgain⟩

/-- Every slab of the second manager is one of the first. -/
theorem slab_before
    (same : SameBlocks man other)
    {number : Nat}
    {newSlab : Slab}
    (present : other.slabs[number]? = some newSlab) :
    ∃ slab, man.slabs[number]? = some slab ∧ SameBlock slab newSlab := by
  have inBounds : number < man.slabs.length := by
    rw [← same.length]
    exact (List.getElem?_eq_some_iff.mp present).1
  have before := List.getElem?_eq_getElem inBounds
  obtain ⟨found, atNumber, sameBlock⟩ := same.slab before
  rw [present, Option.some.injEq] at atNumber
  subst found
  exact ⟨_, before, sameBlock⟩

/-- A field that the allocation status does not touch is the same. -/
theorem map_eq
    (same : SameBlocks man other)
    {field : Slab → α}
    (sameField :
      ∀ {slab newSlab}, SameBlock slab newSlab →
        field newSlab = field slab)
    (number : Nat) :
    other.slabs[number]?.map field = man.slabs[number]?.map field := by
  cases present : man.slabs[number]? with
  | none =>
      have absent : other.slabs[number]? = none := by
        rw [List.getElem?_eq_none_iff, same.length]
        exact List.getElem?_eq_none_iff.mp present
      rw [absent]
  | some slab =>
      obtain ⟨newSlab, newPresent, sameBlock⟩ := same.slab present
      rw [newPresent, Option.map_some, Option.map_some,
        sameField sameBlock]

theorem sameStore (same : SameBlocks man other) : SameStore man other where
  classes := same.classes
  blocks := same.blocks
  numSlabs := same.numSlabs
  length := same.length
  classAt := same.map_eq SameBlock.slabClass
  memoryAt := by
    intro number offset
    have sameMemory :=
      @map_eq _ _ _ same (fun slab => slab.memory offset)
        (fun sameBlock => congrFun sameBlock.memory offset) number
    rw [Manager.memoryAt, Manager.memoryAt, sameMemory]

end SameBlocks

section SetSlab

variable {man : Manager} {number : Nat} {slab newSlab : Slab}

/-- Replacing a slab by one with the same memory keeps the blocks. -/
theorem sameBlocks_setSlab
    (present : man.slabs[number]? = some slab)
    (same : SameBlock slab newSlab) :
    SameBlocks man (man.setSlab number newSlab) := by
  refine ⟨rfl, rfl, rfl, by simp [setSlab], ?_⟩
  intro query found atQuery
  rw [setSlab_getElem? present]
  by_cases atNumber : query = number
  · subst query
    rw [present, Option.some.injEq] at atQuery
    subst found
    exact ⟨newSlab, if_pos rfl, same⟩
  · exact ⟨found, by rw [if_neg atNumber, atQuery], rfl, rfl, rfl⟩

/-- Replacing a slab keeps the full flags sound if its own flag is. -/
theorem FullSound.setSlab
    (sound : man.FullSound)
    (newSound : newSlab.isFull ≠ 0 → newSlab.AllUsed) :
    (man.setSlab number newSlab).FullSound := by
  intro found member
  rcases List.mem_or_eq_of_mem_set member with isOld | isNew
  · exact sound found isOld
  · rw [isNew]
    exact newSound

/-- Flipping a bit of one slab changes the status of one slot. -/
theorem used_setSlab_toggle
    (present : man.slabs[number]? = some slab)
    {item : Nat}
    {inBounds : item / 32 < 512}
    (status :
      newSlab.status = Bitmap.toggle slab.status item inBounds)
    (query other : Nat) :
    (man.setSlab number newSlab).used query other =
      if query = number ∧ other = item then
        !man.used number item
      else
        man.used query other := by
  rw [used_setSlab present]
  by_cases same : query = number
  · subst query
    rw [if_pos rfl, used_eq present, used_eq present, Slab.bit, status,
      Bitmap.bit_toggle _ _ (by decide)]
    simp only [true_and, Slab.bit]
  · rw [if_neg same, if_neg (fun both => same both.1)]

end SetSlab

/-! ## One call and its recursion -/

section Search

variable {man : Manager} {slabClass valSize : Nat}

/-- Marking an open slab full leaves one open slab less. -/
theorem countP_markFull_lt
    {number : Nat}
    {slab : Slab}
    (present : man.slabs[number]? = some slab)
    (accepts : isOpen slab slabClass = true) :
    (man.setSlab number { slab with isFull := 1 }).slabs.countP
        (isOpen · slabClass) <
      man.slabs.countP (isOpen · slabClass) := by
  obtain ⟨inBounds, atNumber⟩ := List.getElem?_eq_some_iff.mp present
  have positive : 0 < man.slabs.countP (isOpen · slabClass) := by
    rw [List.countP_pos_iff]
    exact ⟨slab, List.mem_of_getElem? present, accepts⟩
  have closed : isOpen { slab with isFull := 1 } slabClass = false := by
    simp [isOpen]
  rw [setSlab, List.countP_set inBounds, atNumber, accepts, closed]
  simp only [↓reduceIte, Bool.false_eq_true]
  omega

/-- Marking a slab full changes no status bit. -/
theorem used_markFull
    {number : Nat}
    {slab : Slab}
    (present : man.slabs[number]? = some slab)
    (query item : Nat) :
    (man.setSlab number { slab with isFull := 1 }).used query item =
      man.used query item := by
  rw [used_setSlab present]
  by_cases same : query = number
  · subst query
    rw [if_pos rfl, used_eq present]
    rfl
  · rw [if_neg same]

/-- Other slabs are where they were after one was marked full. -/
private theorem getElem?_markFull_of_ne
    {number query : Nat}
    {slab : Slab}
    (present : man.slabs[number]? = some slab)
    (different : query ≠ number) :
    (man.setSlab number { slab with isFull := 1 }).slabs[query]? =
      man.slabs[query]? := by
  rw [setSlab_getElem? present, if_neg different]

/-- A search may start after marking a full slab as such. -/
private theorem Reserved.of_markFull
    {number : Nat}
    {slab : Slab}
    {result : Option Nat}
    {after : Manager}
    (present : man.slabs[number]? = some slab)
    (full : slab.AllUsed)
    (reserved :
      Reserved (man.setSlab number { slab with isFull := 1 }) slabClass
        result after) :
    Reserved man slabClass result after := by
  cases reserved with
  | exhausted allUsed sameUsed =>
      refine .exhausted ?_ ?_
      · intro other member accepts
        obtain ⟨query, atQuery⟩ := List.mem_iff_getElem?.mp member
        by_cases same : query = number
        · rw [same, present, Option.some.injEq] at atQuery
          subst other
          exact full
        · rw [← getElem?_markFull_of_ne present same] at atQuery
          exact allUsed other (List.mem_of_getElem? atQuery) accepts
      · intro query item
        rw [sameUsed, used_markFull present]
  | @slot _ found item foundSlab atFound accepts first earlier marked =>
      have different : found ≠ number := by
        intro same
        rw [setSlab_getElem? present, if_pos same, Option.some.injEq]
          at atFound
        subst foundSlab
        simp [isOpen] at accepts
      rw [getElem?_markFull_of_ne present different] at atFound
      refine .slot atFound accepts first ?_ ?_
      · intro before isBefore other atBefore otherAccepts
        by_cases same : before = number
        · rw [same, present, Option.some.injEq] at atBefore
          subst other
          exact full
        · rw [← getElem?_markFull_of_ne present same] at atBefore
          exact earlier before isBefore other atBefore otherAccepts
      · intro query other
        rw [marked, used_markFull present]

/-- The first clear bit of the first open slab is reserved. -/
private theorem exists_reserved
    {number : Nat}
    {slab : Slab}
    (present : man.slabs[number]? = some slab)
    (accepts : isOpen slab slabClass = true)
    (earlier :
      ∀ before < number, ∀ other, man.slabs[before]? = some other →
        isOpen other slabClass = false)
    (someFree : getFreeIndex slab ≠ 0) :
    ∃ marked,
      toggleBit slab (getFreeIndex slab - 1) = .ok marked ∧
        SameBlock slab marked ∧
        marked.isFull = 0 ∧
        Reserved man slabClass
          (some (slab.addr +
            slab.slabClass * (getFreeIndex slab - 1) % 2 ^ 32))
          (man.setSlab number marked) := by
  obtain ⟨item, found, first⟩ := exists_firstClear someFree
  have inBounds := first.inBounds
  unfold statusBits statusWords at inBounds
  have inArray : item / 32 < 512 := by
    omega
  obtain ⟨-, slabIsOpen⟩ :
      slab.slabClass = slabClass ∧ slab.isFull = 0 := by
    simpa [isOpen] using accepts
  rw [found, Nat.add_sub_cancel]
  refine ⟨_, toggleBit_eq_ok slab inArray, ⟨rfl, rfl, rfl⟩, slabIsOpen,
    .slot present accepts first ?_ ?_⟩
  · intro before isBefore other atBefore otherAccepts
    rw [earlier before isBefore other atBefore] at otherAccepts
    cases otherAccepts
  · intro query other
    rw [used_setSlab_toggle present rfl, used_eq present, first.clear]
    by_cases same : query = number ∧ other = item
    · simp [same]
    · simp [same]

/--
`get_address` with enough calls.  The induction is on the calls: a call that
recurses has closed one of the open slabs of the class.
-/
theorem getAddressWithin_reserves
    (calls : Nat)
    (man : Manager)
    (selects : getSlabClass man valSize = slabClass)
    (enough : man.slabs.countP (isOpen · slabClass) < calls) :
    ∃ result after,
      getAddressWithin calls man valSize = .ok (result, after) ∧
        SameBlocks man after ∧ (man.FullSound → after.FullSound) ∧
        Reserved man slabClass result after := by
  induction calls generalizing man with
  | zero =>
      omega
  | succ calls inductionHypothesis =>
      rw [getAddressWithin]
      simp only [selects]
      cases search : getSlab man slabClass with
      | none =>
          refine ⟨none, man, rfl, .refl man, id, .exhausted ?_ ?_⟩
          · intro slab member accepts
            exact absurd accepts (List.find?_eq_none.mp search slab member)
          · intro _ _
            rfl
      | some slab =>
          obtain ⟨number, present, accepts, earlier, update⟩ :=
            FirstMatch.position_of_find? search
          have stored (newSlab : Slab) :
              { man with
                slabs := llUpdate isOpen man.slabs slabClass
                  fun _ => newSlab } =
                man.setSlab number newSlab :=
            congrArg (fun slabs => { man with slabs := slabs })
              (update _)
          by_cases noneFree : getFreeIndex slab = 0
          · have full := (getFreeIndex_eq_zero_iff slab).mp noneFree
            have fewer := countP_markFull_lt present accepts
            obtain ⟨result, after, returned, same, sound, reserved⟩ :=
              inductionHypothesis
                (man.setSlab number { slab with isFull := 1 }) selects
                (by omega)
            have closed :
                SameBlocks man
                  (man.setSlab number { slab with isFull := 1 }) :=
              sameBlocks_setSlab present ⟨rfl, rfl, rfl⟩
            simp only [noneFree, ↓reduceIte, stored]
            refine ⟨result, after, returned, closed.trans same, ?_,
              reserved.of_markFull present full⟩
            intro manSound
            exact sound (manSound.setSlab fun _ => full)
          · obtain ⟨marked, toggled, same, isOpenStill, reserved⟩ :=
              exists_reserved present accepts earlier noneFree
            simp only [noneFree, ↓reduceIte, toggled, bind, Except.bind,
              stored]
            refine ⟨_, _, rfl, sameBlocks_setSlab present same, ?_,
              reserved⟩
            intro manSound
            exact manSound.setSlab fun notOpen =>
              absurd isOpenStill notOpen

/-- `get_address` always returns. -/
theorem getAddress_reserves
    (man : Manager)
    (selects : getSlabClass man valSize = slabClass) :
    ∃ result after,
      getAddress man valSize = .ok (result, after) ∧
        SameBlocks man after ∧ (man.FullSound → after.FullSound) ∧
        Reserved man slabClass result after :=
  getAddressWithin_reserves _ man selects
    (Nat.lt_succ_of_le List.countP_le_length)

/-- A result does not depend on the bound on the calls. -/
theorem getAddressWithin_of_le
    {calls more : Nat}
    {result : Option Nat × Manager}
    (returned : getAddressWithin calls man valSize = .ok result)
    (atLeast : calls ≤ more) :
    getAddressWithin more man valSize = .ok result := by
  induction calls generalizing man more with
  | zero =>
      cases returned
  | succ calls inductionHypothesis =>
      obtain ⟨more, rfl⟩ : ∃ fewer, more = fewer + 1 :=
        ⟨more - 1, by omega⟩
      rw [getAddressWithin] at returned ⊢
      dsimp only at returned ⊢
      split at returned
      · exact returned
      · split at returned
        · rename_i noneFree
          rw [if_pos noneFree]
          exact inductionHypothesis returned (by omega)
        · rename_i someFree
          rw [if_neg someFree]
          exact returned

/-- With sound flags a slab of the class has no clear bit unless it is open. -/
theorem FullSound.allUsed_of_open
    (sound : man.FullSound)
    {slab : Slab}
    (member : slab ∈ man.slabs)
    (hasClass : slab.slabClass = slabClass)
    (ifOpen : isOpen slab slabClass = true → slab.AllUsed) :
    slab.AllUsed := by
  by_cases flag : slab.isFull = 0
  · exact ifOpen (by simp [isOpen, hasClass, flag])
  · exact sound slab member flag

end Search

/-! ## Slabs that are laid out -/

section Layout

variable {man after : Manager}

/-- A layout stays one while no bit past the slots is cleared. -/
theorem Laid.of_sameBlocks
    (laid : man.Laid)
    (same : SameBlocks man after)
    (kept :
      ∀ {number : Nat} {slab : Slab}, man.slabs[number]? = some slab →
        ∀ {item}, capacity slab.slabClass ≤ item → item < statusBits →
          after.used number item = true) :
    after.Laid := by
  have before {newSlab : Slab} (member : newSlab ∈ after.slabs) :
      ∃ (number : Nat) (slab : Slab),
        after.slabs[number]? = some newSlab ∧
          man.slabs[number]? = some slab ∧ SameBlock slab newSlab := by
    obtain ⟨number, newPresent⟩ := List.mem_iff_getElem?.mp member
    obtain ⟨slab, present, sameBlock⟩ := same.slab_before newPresent
    exact ⟨number, slab, newPresent, present, sameBlock⟩
  refine ⟨?_, ?_, ?_, ?_⟩
  · rw [List.pairwise_iff_getElem]
    intro first second inBounds otherInBounds isBefore
    obtain ⟨slab, present, sameBlock⟩ :=
      same.slab_before (List.getElem?_eq_getElem inBounds)
    obtain ⟨other, otherPresent, otherSame⟩ :=
      same.slab_before (List.getElem?_eq_getElem otherInBounds)
    have apart :=
      laid.apart_of_ne present otherPresent (Nat.ne_of_lt isBefore)
    unfold Apart at apart ⊢
    rw [sameBlock.addr, otherSame.addr]
    exact apart
  · intro newSlab member
    obtain ⟨number, slab, -, present, sameBlock⟩ := before member
    rw [sameBlock.slabClass]
    exact laid.smallest slab (List.mem_of_getElem? present)
  · intro newSlab member
    obtain ⟨number, slab, -, present, sameBlock⟩ := before member
    rw [sameBlock.slabClass]
    exact laid.largest slab (List.mem_of_getElem? present)
  · intro newSlab member item past inBounds
    obtain ⟨number, slab, newPresent, present, sameBlock⟩ := before member
    rw [sameBlock.slabClass] at past
    rw [← used_eq newPresent]
    exact kept present past inBounds

/-- A clear bit of a slab is that of a slot. -/
theorem Laid.inCapacity
    (laid : man.Laid)
    {slab : Slab}
    (member : slab ∈ man.slabs)
    {item : Nat}
    (first : slab.FirstClear item) :
    item < capacity slab.slabClass := by
  by_contra past
  have isUsed :=
    laid.pastCapacity slab member (Nat.le_of_not_lt past) first.inBounds
  rw [first.clear] at isUsed
  cases isUsed

/-- The offset of a slot is no larger than the memory of a slab. -/
theorem slot_mod_eq
    {slabClass item : Nat}
    (inCapacity : item < capacity slabClass) :
    slabClass * item % 2 ^ 32 = slabClass * item := by
  have ends := IsClass.slot_le_memorySize inCapacity
  have small : memorySize < 2 ^ 32 := by
    decide
  exact Nat.mod_eq_of_lt (by omega)

/-- Reserving a slot keeps the layout. -/
theorem Laid.of_reserved
    (laid : man.Laid)
    (same : SameBlocks man after)
    {slabClass : Nat}
    {result : Option Nat}
    (reserved : Reserved man slabClass result after) :
    after.Laid := by
  apply laid.of_sameBlocks same
  intro number slab present item past inBounds
  have isUsed : man.used number item = true := by
    rw [used_eq present]
    exact laid.pastCapacity slab (List.mem_of_getElem? present) past
      inBounds
  cases reserved with
  | exhausted allUsed sameUsed =>
      rw [sameUsed, isUsed]
  | slot atFound accepts first earlier marked =>
      rw [marked, isUsed]
      rfl

end Layout

/-! ## The address that is returned -/

/-- The first slab of a class with a clear bit, and the least such bit. -/
structure FirstSlot
    (man : Manager)
    (slabClass number : Nat)
    (slab : Slab)
    (item : Nat) : Prop where
  present : man.slabs[number]? = some slab
  hasClass : slab.slabClass = slabClass
  earlier :
    ∀ before < number, ∀ other, man.slabs[before]? = some other →
      other.slabClass = slabClass → other.AllUsed
  first : slab.FirstClear item

/--
`get_address` on any list of slabs whose full flags are sound.  It returns for
every bound that allows one call for each slab and a last one.  The offset of
the address is a product of two 32-bit numbers.
-/
theorem get_address_exact
    {man : Manager}
    (sound : man.FullSound)
    (valSize : Nat) :
    ∃ result after,
      (∀ calls, man.slabs.length < calls →
        getAddressWithin calls man valSize = .ok (result, after)) ∧
        SameBlocks man after ∧
        after.FullSound ∧
        (result = none ↔
          ∀ slab ∈ man.slabs,
            slab.slabClass = getSlabClass man valSize → slab.AllUsed) ∧
        (result = none →
          ∀ number item, after.used number item = man.used number item) ∧
        ∀ address, result = some address →
          ∃ number slab item,
            man.FirstSlot (getSlabClass man valSize) number slab item ∧
              address = slab.addr + slab.slabClass * item % 2 ^ 32 ∧
              ∀ query other,
                after.used query other =
                  (man.used query other ||
                    decide (query = number ∧ other = item)) := by
  obtain ⟨result, after, returned, same, keepsSound, reserved⟩ :=
    @getAddress_reserves _ valSize man rfl
  refine ⟨result, after, ?_, same, keepsSound sound, ?_⟩
  · intro calls enough
    exact getAddressWithin_of_le returned enough
  · cases reserved with
    | exhausted allUsed sameUsed =>
        refine ⟨⟨fun _ => ?_, fun _ => rfl⟩, fun _ => sameUsed, ?_⟩
        · intro slab member hasClass
          exact sound.allUsed_of_open member hasClass (allUsed slab member)
        · intro address isSome
          cases isSome
    | @slot _ number item slab present accepts first earlier marked =>
        obtain ⟨hasClass, -⟩ :
            slab.slabClass = getSlabClass man valSize ∧
              slab.isFull = 0 := by
          simpa [isOpen] using accepts
        refine ⟨⟨?_, ?_⟩, ?_, ?_⟩
        · intro isNone
          cases isNone
        · intro allUsed
          have isUsed :=
            allUsed slab (List.mem_of_getElem? present) hasClass item
              first.inBounds
          rw [first.clear] at isUsed
          cases isUsed
        · intro isNone
          cases isNone
        · intro address isAddress
          cases isAddress
          refine ⟨number, slab, item, ⟨present, hasClass, ?_, first⟩, rfl,
            marked⟩
          intro before isBefore other atBefore otherClass
          exact sound.allUsed_of_open (List.mem_of_getElem? atBefore)
            otherClass (earlier before isBefore other atBefore)

/-- A manager with one slab. -/
def ofSlab (slab : Slab) : Manager where
  classes := defaultClasses
  slabs := [slab]
  numSlabs := 1
  blocks := zeroBlocks

/-- A manager with one slab that is not marked full has sound flags. -/
theorem fullSound_ofSlab
    {slab : Slab}
    (notMarked : slab.isFull = 0) :
    (ofSlab slab).FullSound := by
  intro found member marked
  rw [List.mem_singleton.mp member] at marked
  exact absurd notMarked marked

/-- A slab of the largest class with all bits clear. -/
def emptySlab : Slab :=
  { Slab.zeros 16 with slabClass := 2 ^ 20 }

/-- A slab of the largest class with all bits set. -/
def usedSlab : Slab :=
  { emptySlab with status := Vector.replicate 512 (BitVec.allOnes 32) }

theorem usedSlab_allUsed : usedSlab.AllUsed :=
  (getFreeIndex_eq_zero_iff usedSlab).mp (by decide +kernel)

/-- Two full slabs, of which one is marked so, before an empty one. -/
def fullThenEmpty : Manager :=
  { ofSlab emptySlab with
    slabs := [{ usedSlab with isFull := 1 }, usedSlab, emptySlab]
    numSlabs := 3 }

theorem fullThenEmpty_sound : fullThenEmpty.FullSound := by
  intro slab member marked
  simp only [fullThenEmpty, List.mem_cons, List.not_mem_nil, or_false]
    at member
  rcases member with rfl | rfl | rfl
  · exact usedSlab_allUsed
  · exact usedSlab_allUsed
  · exact absurd rfl marked

/--
The slab that is marked is passed over, the other full one is marked on the way,
and the first slot of the empty one is reserved.
-/
theorem get_address_exact_third_slab :
    ∃ after,
      getAddress fullThenEmpty 1000000 =
          .ok (some emptySlab.addr, after) ∧
        after.FullSound ∧ after.used 2 0 = true := by
  obtain ⟨result, after, returned, -, sound, none_iff, -, found⟩ :=
    get_address_exact fullThenEmpty_sound 1000000
  have isFree : emptySlab.FirstClear 0 :=
    ⟨by decide, by decide, fun earlier before => absurd before (by simp)⟩
  cases result with
  | none =>
      have allUsed :=
        none_iff.mp rfl emptySlab (by simp [fullThenEmpty]) (by decide) 0
          isFree.inBounds
      rw [isFree.clear] at allUsed
      cases allUsed
  | some address =>
      obtain ⟨number, slab, item, isFirst, isAddress, marked⟩ :=
        found address rfl
      have notUsed : ¬ slab.AllUsed := by
        intro allUsed
        have isUsed := allUsed item isFirst.first.inBounds
        rw [isFirst.first.clear] at isUsed
        cases isUsed
      have present := isFirst.present
      rcases number with _ | _ | _ | number
      · cases present
        exact absurd usedSlab_allUsed notUsed
      · cases present
        exact absurd usedSlab_allUsed notUsed
      · cases present
        obtain rfl := isFirst.first.unique isFree
        refine ⟨after, ?_, sound, ?_⟩
        · rw [getAddress, returned _ (Nat.lt_succ_self _), isAddress]
          rfl
        · rw [marked]
          exact Bool.or_true _
      · cases present

/-- A slab of the largest class whose first 4096 bits are set. -/
def crowdedSlab : Slab :=
  { emptySlab with
    status :=
      Vector.replicate 128 (BitVec.allOnes 32) ++
        Vector.replicate 384 0#32 }

theorem firstClear_crowdedSlab : crowdedSlab.FirstClear 4096 := by
  have words :
      crowdedSlab.status.toList =
        List.replicate 128 (BitVec.allOnes 32) ++
          0#32 :: List.replicate 383 0#32 := by
    rw [← List.replicate_succ, crowdedSlab, Vector.toList_append,
      Vector.toList_replicate, Vector.toList_replicate]
  have found : getFreeIndex crowdedSlab = 4097 := by
    rw [getFreeIndex, words, getFreeIndexFrom_replicate]
  obtain ⟨index, isIndex, first⟩ :=
    exists_firstClear (by rw [found]; decide)
  obtain rfl : index = 4096 := by
    omega
  exact first

/-- The least clear bit is bit 4096, but the address is that of bit 0. -/
theorem address_wraps_at_bit_4096 :
    (ofSlab crowdedSlab).FullSound ∧
      crowdedSlab.FirstClear 4096 ∧
      ∃ after,
        getAddress (ofSlab crowdedSlab) (2 ^ 20) =
            .ok (some crowdedSlab.addr, after) ∧
          crowdedSlab.addr ≠
            crowdedSlab.addr + crowdedSlab.slabClass * 4096 := by
  have first := firstClear_crowdedSlab
  have selects : getSlabClass (ofSlab crowdedSlab) (2 ^ 20) = 2 ^ 20 := by
    decide
  refine ⟨fullSound_ofSlab rfl, first, ?_⟩
  obtain ⟨result, after, returned, -, -, reserved⟩ :=
    getAddress_reserves (ofSlab crowdedSlab) selects
  cases reserved with
  | exhausted allUsed sameUsed =>
      have isUsed :=
        allUsed crowdedSlab (List.mem_singleton_self _) (by decide) 4096
          first.inBounds
      rw [first.clear] at isUsed
      cases isUsed
  | @slot _ number item slab present accepts isFirst earlier marked =>
      obtain rfl : slab = crowdedSlab :=
        List.mem_singleton.mp (List.mem_of_getElem? present)
      obtain rfl := isFirst.unique first
      have wraps :
          crowdedSlab.addr + crowdedSlab.slabClass * 4096 % 2 ^ 32 =
            crowdedSlab.addr := by
        decide
      rw [wraps] at returned
      exact ⟨after, returned, by decide⟩

end CacheBench.Manager
