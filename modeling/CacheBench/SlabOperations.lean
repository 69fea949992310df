import CacheBench.SlabSearch

namespace CacheBench.Manager

/-!
# What the slab manager's operations do

One specification for each operation of the manager on a well-formed state:
reserving a slot, freeing it, copying a value into it, reading it back and
adding a slab.  None of them faults there.
-/

/-- Every slab of the class has all of its status bits set. -/
def Exhausted (man : Manager) (slabClass : Nat) : Prop :=
  ∀ {number}, man.classAt number = some slabClass →
    ∀ {item}, item < statusBits → man.used number item = true

/-- The first free slot of a class, in list order and then by item. -/
structure FirstFree
    (man : Manager)
    (slabClass number item : Nat) : Prop where
  hasClass : man.classAt number = some slabClass
  inCapacity : item < capacity slabClass
  free : man.used number item = false
  earlierItems :
    ∀ {earlier}, earlier < item → man.used number earlier = true
  earlierSlabs :
    ∀ {earlier}, earlier < number →
      man.classAt earlier = some slabClass →
      ∀ {query}, query < statusBits → man.used earlier query = true

/-- What `get_address` can return for a class. -/
inductive Reservation (man : Manager) (slabClass : Nat) :
    Option Nat → Manager → Prop where
  | exhausted
      {after : Manager}
      (exhausted : man.Exhausted slabClass)
      (sameUsed :
        ∀ number item, after.used number item = man.used number item) :
      Reservation man slabClass none after
  | slot
      {after : Manager}
      {number item : Nat}
      (first : man.FirstFree slabClass number item)
      (marked :
        ∀ query other,
          after.used query other =
            (man.used query other ||
              decide (query = number ∧ other = item))) :
      Reservation man slabClass
        (some (man.slotAddress number slabClass item)) after

section Reserve

variable {man after : Manager} {slabClass : Nat}

/-- The full flags of a manager are sound. -/
theorem WellFormed.fullSound
    (wellFormed : man.WellFormed) :
    man.FullSound := by
  intro slab member notOpen item inBounds
  obtain ⟨number, present⟩ := List.mem_iff_getElem?.mp member
  exact (wellFormed.slabOk present).fullSound notOpen inBounds

/-- Changes of the allocation status that keep layout and flags are safe. -/
theorem WellFormed.of_sameBlocks
    (wellFormed : man.WellFormed)
    (same : SameBlocks man after)
    (laid : after.Laid)
    (sound : after.FullSound) :
    after.WellFormed where
  classes := same.classes.trans wellFormed.classes
  disjoint := by
    rw [same.blocks]
    exact wellFormed.disjoint
  addr := by
    intro number newSlab newPresent
    obtain ⟨slab, present, sameBlock⟩ := same.slab_before newPresent
    rw [sameBlock.addr, same.blocks]
    exact wellFormed.addr present
  slabOk := by
    intro number newSlab newPresent
    obtain ⟨slab, present, sameBlock⟩ := same.slab_before newPresent
    have member := List.mem_of_getElem? newPresent
    refine ⟨?_, laid.pastCapacity newSlab member, ?_⟩
    · rw [sameBlock.slabClass]
      exact (wellFormed.slabOk present).isClass
    · intro notOpen item inBounds
      exact sound newSlab member notOpen item inBounds

/-- The address of an item of a slab. -/
theorem WellFormed.slotAddress_eq
    (wellFormed : man.WellFormed)
    {number : Nat}
    {slab : Slab}
    (present : man.slabs[number]? = some slab)
    (item : Nat) :
    man.slotAddress number slab.slabClass item =
      slab.addr + slab.slabClass * item := by
  rw [slotAddress, wellFormed.addr present]

/-- Where the full flags are sound, every slab of the class is searched. -/
private theorem WellFormed.reservation
    (wellFormed : man.WellFormed)
    {result : Option Nat}
    (reserved : Reserved man slabClass result after) :
    Reservation man slabClass result after := by
  have sound := wellFormed.fullSound
  cases reserved with
  | exhausted allUsed sameUsed =>
      refine .exhausted ?_ sameUsed
      intro number hasClass item inBounds
      obtain ⟨slab, present, slabHasClass⟩ := exists_of_classAt hasClass
      have member := List.mem_of_getElem? present
      rw [used_eq present]
      exact sound.allUsed_of_open member slabHasClass
        (allUsed slab member) item inBounds
  | @slot _ number item slab present accepts first earlier marked =>
      obtain ⟨rfl, -⟩ :
          slab.slabClass = slabClass ∧ slab.isFull = 0 := by
        simpa [isOpen] using accepts
      have inCapacity :=
        wellFormed.laid.inCapacity (List.mem_of_getElem? present) first
      rw [slot_mod_eq inCapacity, ← wellFormed.slotAddress_eq present]
      refine .slot ⟨?_, inCapacity, ?_, ?_, ?_⟩ marked
      · rw [classAt, present]
        rfl
      · rw [used_eq present]
        exact first.clear
      · intro before isBefore
        rw [used_eq present]
        exact first.least before isBefore
      · intro before isBefore hasClass query inBounds
        obtain ⟨other, atBefore, otherClass⟩ := exists_of_classAt hasClass
        rw [used_eq atBefore]
        exact sound.allUsed_of_open (List.mem_of_getElem? atBefore)
          otherClass (earlier before isBefore other atBefore) query inBounds

/-- `get_address` returns, and reserves the first free slot of the class. -/
theorem getAddress_spec
    (wellFormed : man.WellFormed)
    {valSize : Nat}
    (selects : getSlabClass man valSize = slabClass) :
    ∃ result after,
      getAddress man valSize = .ok (result, after) ∧
        after.WellFormed ∧ SameStore man after ∧
        Reservation man slabClass result after := by
  obtain ⟨result, after, returned, same, sound, reserved⟩ :=
    getAddress_reserves man selects
  have laid := wellFormed.laid.of_reserved same reserved
  exact ⟨result, after, returned,
    wellFormed.of_sameBlocks same laid (sound wellFormed.fullSound),
    same.sameStore, wellFormed.reservation reserved⟩

end Reserve

section Free

variable {man : Manager} {number item : Nat} {slab : Slab}

/-- What freeing an item does to its slab and to the manager. -/
structure FreedItem
    (man : Manager)
    (number item : Nat)
    (slab freed : Slab) : Prop where
  same : SameBlock slab freed
  isOpen : freed.isFull = 0
  flipped :
    ∀ query other,
      (man.setSlab number freed).used query other =
        if query = number ∧ other = item then
          !man.used number item
        else
          man.used query other

/-- The address of an item leads back to its slab, and its bit is flipped. -/
theorem Laid.manDelete
    (laid : man.Laid)
    (present : man.slabs[number]? = some slab)
    (inCapacity : item < capacity slab.slabClass) :
    llFind findVal man.slabs (slab.addr + slab.slabClass * item) =
        some slab ∧
      ∃ freed,
        manDelete man (slab.addr + slab.slabClass * item) =
            .ok (man.setSlab number freed) ∧
          man.FreedItem number item slab freed := by
  have member := List.mem_of_getElem? present
  have atLeast := laid.smallest slab member
  have positive : slab.slabClass ≠ 0 := by
    omega
  have inBlock :
      slab.addr + slab.slabClass * item < slab.addr + getSlabSize := by
    have ends := IsClass.slot_le_memorySize inCapacity
    have memoryInBlock : memorySize ≤ getSlabSize := by
      decide
    omega
  obtain ⟨found, update⟩ :=
    laid.find_block present (Nat.le_add_right _ _) inBlock
  have inArray : item / 32 < 512 := by
    have bounded := capacity_le_statusBits atLeast
    unfold statusBits statusWords at bounded
    omega
  have isItem :
      (slab.addr + slab.slabClass * item - slab.addr) / slab.slabClass =
        item := by
    rw [Nat.add_sub_cancel_left]
    exact Nat.mul_div_cancel_left item (Nat.pos_of_ne_zero positive)
  refine ⟨found,
    { slab with
      status := Bitmap.toggle slab.status item inArray
      isFull := 0 },
    ?_, ⟨⟨rfl, rfl, rfl⟩, rfl, used_setSlab_toggle present rfl⟩⟩
  rw [CacheBench.manDelete, found]
  simp only [positive, ↓reduceIte, isItem]
  rw [slabDelete_eq_ok slab inArray]
  simp only [bind, Except.bind, setSlab, update]

/-- Freeing an item keeps the layout. -/
theorem Laid.of_freed
    {freed : Slab}
    (laid : man.Laid)
    (present : man.slabs[number]? = some slab)
    (inCapacity : item < capacity slab.slabClass)
    (freedItem : man.FreedItem number item slab freed) :
    (man.setSlab number freed).Laid := by
  apply laid.of_sameBlocks (sameBlocks_setSlab present freedItem.same)
  intro query other otherPresent position past inBounds
  have elsewhere : ¬ (query = number ∧ position = item) := by
    rintro ⟨rfl, rfl⟩
    rw [present, Option.some.injEq] at otherPresent
    subst other
    exact Nat.not_le_of_lt inCapacity past
  rw [freedItem.flipped, if_neg elsewhere, used_eq otherPresent]
  exact laid.pastCapacity other (List.mem_of_getElem? otherPresent) past
    inBounds

/-- Freeing a slot clears its status bit and no other. -/
theorem manDelete_spec
    (wellFormed : man.WellFormed)
    {slabClass : Nat}
    (hasClass : man.classAt number = some slabClass)
    (inCapacity : item < capacity slabClass)
    (isUsed : man.used number item = true) :
    ∃ after,
      manDelete man (man.slotAddress number slabClass item) = .ok after ∧
        after.WellFormed ∧ SameStore man after ∧
        ∀ query other,
          after.used query other =
            (man.used query other &&
              !decide (query = number ∧ other = item)) := by
  obtain ⟨slab, present, rfl⟩ := exists_of_classAt hasClass
  have laid := wellFormed.laid
  obtain ⟨-, freed, returned, freedItem⟩ :=
    laid.manDelete present inCapacity
  have same := sameBlocks_setSlab present freedItem.same
  refine ⟨man.setSlab number freed, ?_, ?_, same.sameStore, ?_⟩
  · rw [wellFormed.slotAddress_eq present]
    exact returned
  · exact wellFormed.of_sameBlocks same
      (laid.of_freed present inCapacity freedItem)
      (wellFormed.fullSound.setSlab fun notOpen =>
        absurd freedItem.isOpen notOpen)
  · intro query other
    rw [freedItem.flipped]
    by_cases same : query = number ∧ other = item
    · simp [same, isUsed]
    · simp [same]

end Free

/-- Two managers that agree on everything but the bytes of values. -/
structure SameStatus (man other : Manager) : Prop where
  classes : other.classes = man.classes
  blocks : other.blocks = man.blocks
  numSlabs : other.numSlabs = man.numSlabs
  length : other.slabs.length = man.slabs.length
  classAt : ∀ number, other.classAt number = man.classAt number
  status :
    ∀ number : Nat,
      other.slabs[number]?.map Slab.status =
        man.slabs[number]?.map Slab.status
  isFull :
    ∀ number : Nat,
      other.slabs[number]?.map Slab.isFull =
        man.slabs[number]?.map Slab.isFull

/-- Equal status words have equal status bits. -/
theorem SameStatus.used
    {man other : Manager}
    (same : SameStatus man other)
    (number item : Nat) :
    other.used number item = man.used number item := by
  have bits (candidate : Manager) :
      candidate.used number item =
        ((candidate.slabs[number]?.map Slab.status).map
          fun status => Bitmap.bit status item).getD false := by
    rw [Manager.used, Option.map_map]
    rfl
  rw [bits, bits, same.status]

/-- A copy into a slot changes the bytes copied and nothing else. -/
theorem memcpy_spec
    {man : Manager}
    (wellFormed : man.WellFormed)
    {number slabClass item count : Nat}
    (hasClass : man.classAt number = some slabClass)
    (inCapacity : item < capacity slabClass)
    (fits : count ≤ slabClass)
    (source : Nat → UInt8) :
    ∃ after,
      man.memcpy (man.slotAddress number slabClass item) source count =
        .ok after ∧
        after.WellFormed ∧ SameStatus man after ∧
        ∀ query offset,
          after.memoryAt query offset =
            if query = number ∧ slabClass * item ≤ offset ∧
                offset < slabClass * item + count then
              source (offset - slabClass * item)
            else
              man.memoryAt query offset := by
  obtain ⟨slab, present, slabHasClass⟩ := exists_of_classAt hasClass
  have slabOk := wellFormed.slabOk present
  by_cases nothing : count = 0
  · subst count
    refine ⟨man, by simp [memcpy], wellFormed,
      ⟨rfl, rfl, rfl, rfl, fun _ => rfl, fun _ => rfl, fun _ => rfl⟩, ?_⟩
    intro query offset
    rw [if_neg]
    omega
  · have positive : 0 < slabClass := by
      omega
    obtain ⟨lower, upper, difference, -⟩ :=
      wellFormed.slot_in_block present slabHasClass inCapacity positive
    rw [Nat.add_zero] at lower upper difference
    rw [Nat.add_zero] at difference
    obtain ⟨found, update⟩ := wellFormed.laid.find_block present lower upper
    have inMemory : slabClass * item + count ≤ memorySize := by
      have ends := IsClass.slot_le_memorySize inCapacity
      omega
    have inBlock : slabClass * item + count ≤ getSlabSize :=
      inMemory.trans (by decide)
    have written :
        slab.write (slabClass * item) count source =
          { slab with
            memory :=
              Slab.overlay slab.memory (slabClass * item) count source } := by
      rw [Slab.write, if_pos inMemory]
    refine ⟨man.setSlab number
        { slab with
          memory :=
            Slab.overlay slab.memory (slabClass * item) count source },
      ?_, ?_, ?_, ?_⟩
    · rw [memcpy, if_neg nothing, found]
      simp only [difference, inBlock, ↓reduceIte, update, written, setSlab]
    · exact wellFormed.setSlab present rfl
        ⟨slabOk.isClass, slabOk.pastCapacity, slabOk.fullSound⟩
    · have sameField {α : Type} (field : Slab → α) (query : Nat)
          (same :
            ∀ memory, field { slab with memory := memory } = field slab) :
          (man.setSlab number
            { slab with
              memory :=
                Slab.overlay slab.memory (slabClass * item) count
                  source }).slabs[query]?.map field =
            man.slabs[query]?.map field := by
        rw [setSlab_getElem? present]
        by_cases atNumber : query = number
        · simp [atNumber, present, same]
        · simp [atNumber]
      exact ⟨rfl, rfl, rfl, by simp [setSlab],
        fun query => sameField Slab.slabClass query fun _ => rfl,
        fun query => sameField Slab.status query fun _ => rfl,
        fun query => sameField Slab.isFull query fun _ => rfl⟩
    · intro query offset
      rw [memoryAt, setSlab_getElem? present]
      by_cases same : query = number
      · subst query
        simp [memoryAt, present, Slab.overlay]
      · simp [same, memoryAt]

/-- The bytes of a slot are bytes of the slab's block. -/
private theorem WellFormed.byteAt_slot_block
    {man : Manager}
    (wellFormed : man.WellFormed)
    {number item position : Nat}
    {slab : Slab}
    (present : man.slabs[number]? = some slab)
    (inCapacity : item < capacity slab.slabClass)
    (inside : position < slab.slabClass) :
    man.byteAt (man.slotAddress number slab.slabClass item + position) =
      slab.byteAt (slab.slabClass * item + position) := by
  obtain ⟨lower, upper, difference, -⟩ :=
    wellFormed.slot_in_block present rfl inCapacity inside
  rw [byteAt, (wellFormed.laid.find_block present lower upper).1]
  simp only [difference]

/-- `strlen` at a slot reads the slab's block. -/
private theorem WellFormed.strlen_slot
    {man : Manager}
    (wellFormed : man.WellFormed)
    {number item : Nat}
    {slab : Slab}
    (present : man.slabs[number]? = some slab)
    (inCapacity : item < capacity slab.slabClass)
    {length : Nat} :
    man.strlen (man.slotAddress number slab.slabClass item) = .ok length ↔
      strlenFrom slab.byteAt
          (getSlabSize - slab.slabClass * item) (slab.slabClass * item) =
        some length := by
  have positive : 0 < slab.slabClass :=
    (wellFormed.slabOk present).isClass.pos
  obtain ⟨lower, upper, difference, -⟩ :=
    wellFormed.slot_in_block present rfl inCapacity positive
  rw [Nat.add_zero] at lower upper difference
  rw [Nat.add_zero] at difference
  rw [strlen, (wellFormed.laid.find_block present lower upper).1]
  simp only [difference]
  cases strlenFrom slab.byteAt (getSlabSize - slab.slabClass * item)
      (slab.slabClass * item) <;> simp

/-- `strlen` of a terminated string inside a slot. -/
theorem strlen_spec
    {man : Manager}
    (wellFormed : man.WellFormed)
    {number slabClass item length : Nat}
    (hasClass : man.classAt number = some slabClass)
    (inCapacity : item < capacity slabClass)
    (inSlot : length < slabClass) :
    man.strlen (man.slotAddress number slabClass item) = .ok length ↔
      (∀ position < length,
        man.byteAt (man.slotAddress number slabClass item + position) ≠
          0) ∧
        man.byteAt (man.slotAddress number slabClass item + length) =
          0 := by
  obtain ⟨slab, present, rfl⟩ := exists_of_classAt hasClass
  have slotByte (position : Nat) (inside : position < slab.slabClass) :=
    wellFormed.byteAt_slot_block present inCapacity inside
  rw [wellFormed.strlen_slot present inCapacity]
  constructor
  · intro measured
    obtain ⟨-, nonzero, terminated⟩ := strlenFrom_sound measured
    refine ⟨?_, (slotByte length inSlot).trans terminated⟩
    intro position inside
    rw [slotByte position (inside.trans inSlot)]
    exact nonzero position inside
  · rintro ⟨nonzero, terminated⟩
    have inReach : length < getSlabSize - slab.slabClass * item := by
      have ends := IsClass.slot_le_memorySize inCapacity
      have memoryInBlock : memorySize ≤ getSlabSize := by
        decide
      omega
    apply strlenFrom_eq_some inReach
    · intro position inside
      rw [← slotByte position (inside.trans inSlot)]
      exact nonzero position inside
    · rw [← slotByte length inSlot]
      exact terminated

/-- Adding a slab appends one whose bits `allocate_slab` prepared. -/
structure Extended
    (man : Manager)
    (slabClass : Nat)
    (after : Manager) : Prop where
  classes : after.classes = man.classes
  blocks : after.blocks = man.blocks
  numSlabs : after.numSlabs = man.numSlabs + 1
  length : after.slabs.length = man.slabs.length + 1
  classAt :
    ∀ number,
      after.classAt number =
        if number = man.slabs.length then
          some slabClass
        else
          man.classAt number
  used :
    ∀ number item, item < statusBits →
      after.used number item =
        if number = man.slabs.length then
          freshBit (man.blocks number) slabClass item
        else
          man.used number item
  memoryAt :
    ∀ number offset, number < man.slabs.length →
      after.memoryAt number offset = man.memoryAt number offset

/-- `slab_add` succeeds for every class of the table. -/
theorem slabAdd_spec
    {man : Manager}
    (wellFormed : man.WellFormed)
    {slabClass : Nat}
    (isClass : IsClass slabClass) :
    ∃ after,
      slabAdd man slabClass = .ok after ∧
        after.WellFormed ∧ Extended man slabClass after := by
  obtain ⟨slab, allocated, fresh⟩ :=
    allocateSlab_spec (man.blocks man.slabs.length) isClass.smallest
  have slabOk : SlabOk slab := by
    refine ⟨?_, ?_, ?_⟩
    · rw [fresh.slabClass]
      exact isClass
    · intro item past inBounds
      rw [fresh.slabClass] at past
      have notBelow :
          ¬ item / 32 < capacity slabClass / 32 := by
        omega
      rw [fresh.bits item inBounds, freshBit, if_neg notBelow,
        if_neg (Nat.not_lt_of_le past)]
    · intro notOpen
      exact (notOpen fresh.isFull).elim
  have atNumber (number : Nat) :
      (llAppend man.slabs slab)[number]? =
        if number = man.slabs.length then
          some slab
        else
          man.slabs[number]? := by
    rw [llAppend, List.getElem?_append]
    by_cases same : number = man.slabs.length
    · simp [same]
    · by_cases below : number < man.slabs.length
      · simp [below, same]
      · have above : man.slabs.length < number := by
          omega
        simp [below, same, Nat.sub_ne_zero_of_lt above]
  refine ⟨_, by rw [slabAdd, allocated]; rfl, ?_, ?_⟩
  · refine ⟨wellFormed.classes, wellFormed.disjoint, ?_, ?_⟩
    · intro number found present
      rw [atNumber] at present
      by_cases same : number = man.slabs.length
      · rw [if_pos same, Option.some.injEq] at present
        subst found
        rw [fresh.addr, same]
      · rw [if_neg same] at present
        exact wellFormed.addr present
    · intro number found present
      rw [atNumber] at present
      by_cases same : number = man.slabs.length
      · rw [if_pos same, Option.some.injEq] at present
        subst found
        exact slabOk
      · rw [if_neg same] at present
        exact wellFormed.slabOk present
  · refine ⟨rfl, rfl, rfl, by simp [llAppend], ?_, ?_, ?_⟩
    · intro number
      rw [classAt, atNumber]
      by_cases same : number = man.slabs.length
      · simp [same, fresh.slabClass]
      · simp [same, classAt]
    · intro number item inBounds
      rw [used, atNumber]
      by_cases same : number = man.slabs.length
      · simp [same, fresh.bits item inBounds]
      · simp [same, used]
    · intro number offset below
      rw [memoryAt, atNumber]
      simp [Nat.ne_of_lt below, memoryAt]

end CacheBench.Manager
