import CacheBench.SlabClass

namespace CacheBench

/-!
# The slab manager as an allocator of slots

A slot is a slab number and an item number below the capacity of the slab's
class.  This module reads a manager through four functions of slab and item
numbers (the class of a slab, the status of an item, the bytes of its memory
and the address of a slot) and specifies every operation by what it does to
them.  `WellFormed` is the invariant the operations keep.
-/

/-- Two blocks of `sizeof(slab_obj)` bytes that do not overlap. -/
def Apart (first second : Slab) : Prop :=
  first.addr + getSlabSize ≤ second.addr ∨
    second.addr + getSlabSize ≤ first.addr

/-- `malloc` returns blocks that do not overlap. -/
def DisjointBlocks (blocks : Nat → Slab) : Prop :=
  ∀ first second, first ≠ second →
    Apart (blocks first) (blocks second)

/-- A block of zero bytes. -/
def Slab.zeros (addr : Nat) : Slab where
  addr := addr
  memory := fun _ => 0
  slabClass := 0
  status := Vector.replicate 512 0#32
  isFull := 0
  padding := fun _ => 0

/-- `malloc` returns blocks filled with zeros. -/
def ZeroFilled (blocks : Nat → Slab) : Prop :=
  ∀ number, blocks number = Slab.zeros (blocks number).addr

/-- Zero-filled blocks, aligned to 16 bytes and no more. -/
def zeroBlocks (number : Nat) : Slab :=
  Slab.zeros (16 + number * 2 ^ 21)

theorem zeroBlocks_disjoint : DisjointBlocks zeroBlocks := by
  intro first second different
  have room : getSlabSize ≤ 2 ^ 21 := by
    decide
  unfold Apart zeroBlocks Slab.zeros
  rcases Nat.lt_or_gt_of_ne different with below | above
  · left
    dsimp only
    omega
  · right
    dsimp only
    omega

/-- What every slab in a manager satisfies. -/
structure SlabOk (slab : Slab) : Prop where
  isClass : IsClass slab.slabClass
  pastCapacity :
    ∀ {item}, capacity slab.slabClass ≤ item → item < statusBits →
      slab.bit item = true
  fullSound :
    slab.isFull ≠ 0 → ∀ {item}, item < statusBits → slab.bit item = true

namespace Manager

/-- The class of a slab. -/
def classAt (man : Manager) (number : Nat) : Option Nat :=
  man.slabs[number]?.map Slab.slabClass

/-- The status bit of an item. -/
def used (man : Manager) (number item : Nat) : Bool :=
  (man.slabs[number]?.map fun slab => slab.bit item).getD false

/-- One byte of a slab's value memory. -/
def memoryAt (man : Manager) (number offset : Nat) : UInt8 :=
  (man.slabs[number]?.map fun slab => slab.memory offset).getD 0

/-- The address of an item of the given class. -/
def slotAddress (man : Manager) (number slabClass item : Nat) : Nat :=
  (man.blocks number).addr + slabClass * item

/-- The invariant of a manager with the default classes. -/
structure WellFormed (man : Manager) : Prop where
  classes : man.classes = defaultClasses
  disjoint : DisjointBlocks man.blocks
  addr :
    ∀ {number : Nat} {slab : Slab}, man.slabs[number]? = some slab →
      slab.addr = (man.blocks number).addr
  slabOk :
    ∀ {number : Nat} {slab : Slab}, man.slabs[number]? = some slab → SlabOk slab

/-- A manager with one slab replaced. -/
def setSlab (man : Manager) (number : Nat) (slab : Slab) : Manager :=
  { man with slabs := man.slabs.set number slab }

/--
Two managers with the same slabs, up to allocation status.  The classes of the
slabs and the bytes of their memory agree.
-/
structure SameStore (man other : Manager) : Prop where
  classes : other.classes = man.classes
  blocks : other.blocks = man.blocks
  numSlabs : other.numSlabs = man.numSlabs
  length : other.slabs.length = man.slabs.length
  classAt : ∀ number, other.classAt number = man.classAt number
  memoryAt :
    ∀ number offset,
      other.memoryAt number offset = man.memoryAt number offset

namespace SameStore

theorem refl (man : Manager) : SameStore man man :=
  ⟨rfl, rfl, rfl, rfl, fun _ => rfl, fun _ _ => rfl⟩

theorem trans
    {first second third : Manager}
    (earlier : SameStore first second)
    (later : SameStore second third) :
    SameStore first third where
  classes := later.classes.trans earlier.classes
  blocks := later.blocks.trans earlier.blocks
  numSlabs := later.numSlabs.trans earlier.numSlabs
  length := later.length.trans earlier.length
  classAt := fun number =>
    (later.classAt number).trans (earlier.classAt number)
  memoryAt := fun number offset =>
    (later.memoryAt number offset).trans (earlier.memoryAt number offset)

/-- Slots keep their addresses. -/
theorem slotAddress
    {man other : Manager}
    (same : SameStore man other)
    (number slabClass item : Nat) :
    other.slotAddress number slabClass item =
      man.slotAddress number slabClass item := by
  rw [Manager.slotAddress, Manager.slotAddress, same.blocks]

end SameStore

section SetSlab

variable {man : Manager} {number : Nat} {slab : Slab}

/-- The slab list after one slab was replaced. -/
theorem setSlab_getElem?
    (present : man.slabs[number]? = some slab)
    (newSlab : Slab)
    (query : Nat) :
    (man.setSlab number newSlab).slabs[query]? =
      if query = number then some newSlab else man.slabs[query]? := by
  have inBounds : number < man.slabs.length :=
    (List.getElem?_eq_some_iff.mp present).1
  by_cases same : query = number
  · subst query
    simp [setSlab, inBounds]
  · simp [setSlab, same, Ne.symm same]

/-- Replacing a slab by an acceptable one at the same address is safe. -/
theorem WellFormed.setSlab
    (wellFormed : man.WellFormed)
    (present : man.slabs[number]? = some slab)
    {newSlab : Slab}
    (sameAddr : newSlab.addr = slab.addr)
    (newOk : SlabOk newSlab) :
    (man.setSlab number newSlab).WellFormed where
  classes := wellFormed.classes
  disjoint := wellFormed.disjoint
  addr := by
    intro query found atQuery
    rw [setSlab_getElem? present] at atQuery
    by_cases same : query = number
    · subst query
      rw [if_pos rfl, Option.some.injEq] at atQuery
      subst found
      exact sameAddr.trans (wellFormed.addr present)
    · rw [if_neg same] at atQuery
      exact wellFormed.addr atQuery
  slabOk := by
    intro query found atQuery
    rw [setSlab_getElem? present] at atQuery
    by_cases same : query = number
    · subst query
      rw [if_pos rfl, Option.some.injEq] at atQuery
      subst found
      exact newOk
    · rw [if_neg same] at atQuery
      exact wellFormed.slabOk atQuery

/-- Status bits after one slab was replaced. -/
theorem used_setSlab
    (present : man.slabs[number]? = some slab)
    (newSlab : Slab)
    (query item : Nat) :
    (man.setSlab number newSlab).used query item =
      if query = number then newSlab.bit item else man.used query item := by
  rw [used, setSlab_getElem? present]
  by_cases same : query = number
  · simp [same]
  · simp [same, used]

/-- Replacing a slab by one with the same memory keeps the store. -/
theorem sameStore_setSlab
    (present : man.slabs[number]? = some slab)
    {newSlab : Slab}
    (same : SameBlock slab newSlab) :
    SameStore man (man.setSlab number newSlab) where
  classes := rfl
  blocks := rfl
  numSlabs := rfl
  length := by
    simp [setSlab]
  classAt := by
    intro query
    rw [classAt, setSlab_getElem? present]
    by_cases atNumber : query = number
    · simp [atNumber, classAt, present, same.slabClass]
    · simp [atNumber, classAt]
  memoryAt := by
    intro query offset
    rw [memoryAt, setSlab_getElem? present]
    by_cases atNumber : query = number
    · simp [atNumber, memoryAt, present, same.memory]
    · simp [atNumber, memoryAt]

/-- The status bit of an item of a given slab. -/
theorem used_eq
    (present : man.slabs[number]? = some slab)
    (item : Nat) :
    man.used number item = slab.bit item := by
  simp [used, present]

/-- A slab with a class is in the list. -/
theorem exists_of_classAt
    {slabClass : Nat}
    (hasClass : man.classAt number = some slabClass) :
    ∃ slab,
      man.slabs[number]? = some slab ∧ slab.slabClass = slabClass := by
  unfold classAt at hasClass
  exact Option.map_eq_some_iff.mp hasClass

end SetSlab

/--
What finding and freeing a slot rests on, whatever the class table: the slabs do
not overlap, their classes have slots, and no bit past the slots is clear.
-/
structure Laid (man : Manager) : Prop where
  apart : man.slabs.Pairwise Apart
  smallest : ∀ slab ∈ man.slabs, 64 ≤ slab.slabClass
  largest : ∀ slab ∈ man.slabs, slab.slabClass ≤ memorySize
  pastCapacity :
    ∀ slab ∈ man.slabs, ∀ {item}, capacity slab.slabClass ≤ item →
      item < statusBits → slab.bit item = true

/-- Slabs at different places of the list do not overlap. -/
theorem Laid.apart_of_ne
    {man : Manager}
    (laid : man.Laid)
    {first second : Nat}
    {slab other : Slab}
    (present : man.slabs[first]? = some slab)
    (otherPresent : man.slabs[second]? = some other)
    (different : first ≠ second) :
    Apart slab other := by
  obtain ⟨inBounds, rfl⟩ := List.getElem?_eq_some_iff.mp present
  obtain ⟨otherInBounds, rfl⟩ := List.getElem?_eq_some_iff.mp otherPresent
  have ordered := List.pairwise_iff_getElem.mp laid.apart
  rcases Nat.lt_or_gt_of_ne different with before | after
  · exact ordered first second inBounds otherInBounds before
  · exact (ordered second first otherInBounds inBounds after).symm

/-- A pointer into a slab's block finds that slab, and no other changes. -/
theorem Laid.find_block
    {man : Manager}
    (laid : man.Laid)
    {number pointer : Nat}
    {slab : Slab}
    (present : man.slabs[number]? = some slab)
    (lower : slab.addr ≤ pointer)
    (upper : pointer < slab.addr + getSlabSize) :
    llFind findVal man.slabs pointer = some slab ∧
      ∀ change,
        llUpdate findVal man.slabs pointer change =
          man.slabs.set number (change slab) := by
  have accepts : findVal slab pointer = true := by
    simp [findVal, lower, upper]
  cases search : llFind findVal man.slabs pointer with
  | none =>
      have rejected :=
        List.find?_eq_none.mp search slab
          (List.mem_of_getElem? present)
      exact (rejected accepts).elim
  | some found =>
      obtain ⟨position, atPosition, foundAccepts, -, update⟩ :=
        FirstMatch.position_of_find? search
      have samePosition : position = number := by
        by_contra different
        have apart := laid.apart_of_ne atPosition present different
        unfold Apart at apart
        simp only [findVal, Bool.and_eq_true, decide_eq_true_eq]
          at foundAccepts
        omega
      subst position
      rw [present, Option.some.injEq] at atPosition
      subst found
      exact ⟨rfl, update⟩

/-- A manager of the default classes is laid out. -/
theorem WellFormed.laid
    {man : Manager}
    (wellFormed : man.WellFormed) :
    man.Laid := by
  have slabOk {slab : Slab} (member : slab ∈ man.slabs) : SlabOk slab := by
    obtain ⟨number, present⟩ := List.mem_iff_getElem?.mp member
    exact wellFormed.slabOk present
  refine ⟨?_, ?_, ?_, ?_⟩
  · rw [List.pairwise_iff_getElem]
    intro first second inBounds otherInBounds before
    have apart :=
      wellFormed.disjoint first second (Nat.ne_of_lt before)
    unfold Apart at apart ⊢
    rw [wellFormed.addr (List.getElem?_eq_getElem inBounds),
      wellFormed.addr (List.getElem?_eq_getElem otherInBounds)]
    exact apart
  · intro slab member
    exact (slabOk member).isClass.smallest
  · intro slab member
    exact (slabOk member).isClass.le_memorySize
  · intro slab member item past inBounds
    exact (slabOk member).pastCapacity past inBounds

/-- Every byte of a slot is inside the block of its slab. -/
theorem WellFormed.slot_in_block
    {man : Manager}
    (wellFormed : man.WellFormed)
    {number slabClass item offset : Nat}
    {slab : Slab}
    (present : man.slabs[number]? = some slab)
    (hasClass : slab.slabClass = slabClass)
    (inCapacity : item < capacity slabClass)
    (inSlot : offset < slabClass) :
    slab.addr ≤ man.slotAddress number slabClass item + offset ∧
      man.slotAddress number slabClass item + offset <
        slab.addr + getSlabSize ∧
      man.slotAddress number slabClass item + offset - slab.addr =
        slabClass * item + offset ∧
      slabClass * item + offset < memorySize := by
  subst slabClass
  have inMemory :=
    IsClass.slot_le_memorySize inCapacity
  have memoryInBlock : memorySize ≤ getSlabSize := by
    decide
  rw [slotAddress, ← wellFormed.addr present]
  omega

/-- Reading a byte of a slot reads the slab's memory. -/
theorem WellFormed.byteAt_slot
    {man : Manager}
    (wellFormed : man.WellFormed)
    {number slabClass item offset : Nat}
    (hasClass : man.classAt number = some slabClass)
    (inCapacity : item < capacity slabClass)
    (inSlot : offset < slabClass) :
    man.byteAt (man.slotAddress number slabClass item + offset) =
      man.memoryAt number (slabClass * item + offset) := by
  obtain ⟨slab, present, slabHasClass⟩ := exists_of_classAt hasClass
  obtain ⟨lower, upper, difference, inMemory⟩ :=
    wellFormed.slot_in_block present slabHasClass inCapacity inSlot
  have found := (wellFormed.laid.find_block present lower upper).1
  have isMemory :
      slab.byteAt (slabClass * item + offset) =
        slab.memory (slabClass * item + offset) := by
    rw [Slab.byteAt, if_pos]
    exact inMemory
  rw [byteAt, found]
  simp only [difference, isMemory]
  simp [memoryAt, present]

/-- Slots of one manager with one address are the same slot. -/
theorem WellFormed.slot_unique
    {man : Manager}
    (wellFormed : man.WellFormed)
    {first second firstClass secondClass firstItem secondItem : Nat}
    (firstHasClass : man.classAt first = some firstClass)
    (secondHasClass : man.classAt second = some secondClass)
    (firstInCapacity : firstItem < capacity firstClass)
    (secondInCapacity : secondItem < capacity secondClass)
    (sameAddress :
      man.slotAddress first firstClass firstItem =
        man.slotAddress second secondClass secondItem) :
    first = second ∧ firstClass = secondClass ∧
      firstItem = secondItem := by
  have firstEnds := IsClass.slot_le_memorySize firstInCapacity
  have secondEnds := IsClass.slot_le_memorySize secondInCapacity
  have memoryInBlock : memorySize < getSlabSize := by
    decide
  have sameSlab : first = second := by
    by_contra different
    have apart := wellFormed.disjoint first second different
    unfold Apart at apart
    unfold slotAddress at sameAddress
    omega
  subst second
  rw [firstHasClass, Option.some.injEq] at secondHasClass
  subst secondClass
  obtain ⟨slab, present, slabHasClass⟩ :=
    exists_of_classAt firstHasClass
  have positive : 0 < firstClass := by
    rw [← slabHasClass]
    exact (wellFormed.slabOk present).isClass.pos
  refine ⟨rfl, rfl, ?_⟩
  unfold slotAddress at sameAddress
  exact Nat.eq_of_mul_eq_mul_left positive
    (Nat.add_left_cancel sameAddress)

end Manager

end CacheBench
