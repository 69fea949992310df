import CacheBench.SlabOperations

namespace CacheBench.Manager

/-!
# Slots granted to values

Seen from the cache, the manager hands out grants: an address and the class of
the slot there.  `Granted` relates a manager to the list of grants that are
out.  Each is a slot in use, no slot is granted twice, and a slot in use that
is not granted was already marked used in the block `malloc` returned.
-/

/-- The address of a reserved slot and the number of bytes it has. -/
structure Grant where
  address : Nat
  slabClass : Nat

/-- An item of a slab that is in use. -/
structure Occupied
    (man : Manager)
    (number slabClass item : Nat) : Prop where
  hasClass : man.classAt number = some slabClass
  inCapacity : item < capacity slabClass
  isUsed : man.used number item = true

/-- The manager has the granted slot in use. -/
def Holds (man : Manager) (grant : Grant) : Prop :=
  ∃ number item,
    man.Occupied number grant.slabClass item ∧
      grant.address = man.slotAddress number grant.slabClass item

/-- The manager and the grants that are out. -/
structure Granted (man : Manager) (grants : List Grant) : Prop where
  wellFormed : man.WellFormed
  held : ∀ {grant}, grant ∈ grants → man.Holds grant
  distinct : grants.Nodup
  covered :
    ∀ {number slabClass item},
      man.Occupied number slabClass item →
      freshBit (man.blocks number) slabClass item = false →
      ⟨man.slotAddress number slabClass item, slabClass⟩ ∈ grants

/-- The bytes of granted slots agree. -/
def SameBytes (man other : Manager) (grants : List Grant) : Prop :=
  ∀ grant ∈ grants, ∀ offset < grant.slabClass,
    other.byteAt (grant.address + offset) =
      man.byteAt (grant.address + offset)

section Basics

variable {man other : Manager} {grants : List Grant}

/-- The classes of slabs are classes of the table. -/
theorem WellFormed.isClass
    (wellFormed : man.WellFormed)
    {number slabClass : Nat}
    (hasClass : man.classAt number = some slabClass) :
    IsClass slabClass := by
  obtain ⟨slab, present, rfl⟩ := exists_of_classAt hasClass
  exact (wellFormed.slabOk present).isClass

/-- Items below the capacity have a status bit. -/
theorem WellFormed.item_lt_statusBits
    (wellFormed : man.WellFormed)
    {number slabClass item : Nat}
    (hasClass : man.classAt number = some slabClass)
    (inCapacity : item < capacity slabClass) :
    item < statusBits :=
  Nat.lt_of_lt_of_le inCapacity
    (capacity_le_statusBits (wellFormed.isClass hasClass).smallest)

/-- The order in which grants are listed does not matter. -/
theorem Granted.perm
    (granted : man.Granted grants)
    {reordered : List Grant}
    (perm : grants.Perm reordered) :
    man.Granted reordered where
  wellFormed := granted.wellFormed
  held := fun member => granted.held (perm.mem_iff.mpr member)
  distinct := perm.nodup granted.distinct
  covered := fun occupied fresh =>
    perm.mem_iff.mp (granted.covered occupied fresh)

/-- A held grant keeps its slot where class and status are kept. -/
theorem Holds.transfer
    {grant : Grant}
    (held : man.Holds grant)
    (sameBlocks : other.blocks = man.blocks)
    (keepsSlot :
      ∀ {number item},
        man.Occupied number grant.slabClass item →
        grant.address = man.slotAddress number grant.slabClass item →
        other.Occupied number grant.slabClass item) :
    other.Holds grant := by
  obtain ⟨number, item, occupied, address⟩ := held
  refine ⟨number, item, keepsSlot occupied address, ?_⟩
  rw [address, slotAddress, slotAddress, sameBlocks]

/-- Grants stay out where blocks, classes and status bits are kept. -/
theorem Granted.transfer
    (granted : man.Granted grants)
    (otherWellFormed : other.WellFormed)
    (sameBlocks : other.blocks = man.blocks)
    (sameClasses : ∀ number, other.classAt number = man.classAt number)
    (sameUsed :
      ∀ number item, other.used number item = man.used number item) :
    other.Granted grants := by
  refine ⟨otherWellFormed, ?_, granted.distinct, ?_⟩
  · intro grant member
    refine (granted.held member).transfer sameBlocks ?_
    intro number item occupied _
    exact ⟨(sameClasses number).trans occupied.hasClass,
      occupied.inCapacity, (sameUsed number item).trans occupied.isUsed⟩
  · intro number slabClass item occupied fresh
    rw [slotAddress, sameBlocks]
    rw [sameBlocks] at fresh
    exact granted.covered
      ⟨(sameClasses number).symm.trans occupied.hasClass,
        occupied.inCapacity,
        (sameUsed number item).symm.trans occupied.isUsed⟩ fresh

/-- Grants of one slot are one grant. -/
private theorem Grant.eq_of_slot
    {first second : Grant}
    {number item : Nat}
    (firstOccupied : man.Occupied number first.slabClass item)
    (secondOccupied : man.Occupied number second.slabClass item)
    (firstAddress :
      first.address = man.slotAddress number first.slabClass item)
    (secondAddress :
      second.address = man.slotAddress number second.slabClass item) :
    first = second := by
  have sameClass : first.slabClass = second.slabClass := by
    simpa using firstOccupied.hasClass.symm.trans secondOccupied.hasClass
  cases first
  cases second
  simp_all

/-- Slots of one class that share a byte are the same slot. -/
private theorem item_eq_of_overlap
    {slabClass first second offset : Nat}
    (inSlot : offset < slabClass)
    (lower : slabClass * first ≤ slabClass * second + offset)
    (upper :
      slabClass * second + offset < slabClass * first + slabClass) :
    second = first := by
  rcases Nat.lt_trichotomy second first with less | same | greater
  · have := Nat.mul_le_mul_left slabClass (Nat.succ_le_of_lt less)
    rw [Nat.mul_succ] at this
    omega
  · exact same
  · have := Nat.mul_le_mul_left slabClass (Nat.succ_le_of_lt greater)
    rw [Nat.mul_succ] at this
    omega

/-- Bytes of held slots agree when the store agrees there. -/
theorem sameBytes_of_memoryAt
    (granted : man.Granted grants)
    (otherWellFormed : other.WellFormed)
    (sameBlocks : other.blocks = man.blocks)
    (sameSlab :
      ∀ {number slabClass},
        man.classAt number = some slabClass →
          other.classAt number = some slabClass ∧
            ∀ offset,
              other.memoryAt number offset = man.memoryAt number offset) :
    SameBytes man other grants := by
  intro grant member offset inSlot
  obtain ⟨number, item, occupied, address⟩ := granted.held member
  obtain ⟨otherClass, sameMemory⟩ := sameSlab occupied.hasClass
  have sameAddress :
      grant.address =
        other.slotAddress number grant.slabClass item := by
    rw [address, slotAddress, slotAddress, sameBlocks]
  have before :=
    granted.wellFormed.byteAt_slot occupied.hasClass occupied.inCapacity
      inSlot
  have after :=
    otherWellFormed.byteAt_slot otherClass occupied.inCapacity inSlot
  rw [← address] at before
  rw [← sameAddress] at after
  rw [before, after, sameMemory]

theorem SameStore.sameBytes
    (same : SameStore man other)
    (granted : man.Granted grants)
    (otherWellFormed : other.WellFormed) :
    SameBytes man other grants := by
  apply sameBytes_of_memoryAt granted otherWellFormed same.blocks
  intro number slabClass hasClass
  exact ⟨(same.classAt number).trans hasClass, same.memoryAt number⟩

theorem SameBytes.trans
    {third : Manager}
    (earlier : SameBytes man other grants)
    (later : SameBytes other third grants) :
    SameBytes man third grants :=
  fun grant member offset inSlot =>
    (later grant member offset inSlot).trans
      (earlier grant member offset inSlot)

/-- The stored value of a grant reads the same where its bytes agree. -/
theorem SameBytes.bytesFrom_eq
    (same : SameBytes man other grants)
    {grant : Grant}
    (member : grant ∈ grants)
    {count : Nat}
    (fits : count ≤ grant.slabClass) :
    bytesFrom other.byteAt grant.address count =
      bytesFrom man.byteAt grant.address count :=
  bytesFrom_congr fun position inside =>
    same grant member position (Nat.lt_of_lt_of_le inside fits)

end Basics

section Operations

variable {man : Manager} {grants : List Grant}

/-- A reservation fails exactly when the class is exhausted. -/
theorem Reservation.none_iff
    {after : Manager}
    {slabClass : Nat}
    {result : Option Nat}
    (reservation : Reservation man slabClass result after)
    (wellFormed : man.WellFormed) :
    result = none ↔ man.Exhausted slabClass := by
  cases reservation with
  | exhausted allUsed sameUsed =>
      exact ⟨fun _ => allUsed, fun _ => rfl⟩
  | slot first marked =>
      constructor
      · intro isNone
        simp at isNone
      · intro allUsed
        have isUsed :=
          allUsed first.hasClass
            (wellFormed.item_lt_statusBits first.hasClass first.inCapacity)
        rw [first.free] at isUsed
        exact Bool.noConfusion isUsed

/-- Whether a class is exhausted depends on the status bits of its slabs. -/
private theorem exhausted_iff_of_used
    {after : Manager}
    {slabClass : Nat}
    (sameClasses : ∀ number, after.classAt number = man.classAt number)
    (sameUsed :
      ∀ number, man.classAt number = some slabClass → ∀ item,
        after.used number item = man.used number item) :
    after.Exhausted slabClass ↔ man.Exhausted slabClass := by
  constructor
  · intro allUsed number hasClass item inBounds
    rw [← sameUsed number hasClass]
    exact allUsed ((sameClasses number).trans hasClass) inBounds
  · intro allUsed number hasClass item inBounds
    have oldClass := (sameClasses number).symm.trans hasClass
    rw [sameUsed number oldClass]
    exact allUsed oldClass inBounds

/-- A class stays exhausted when nothing was reserved. -/
theorem Reservation.exhausted_after
    {after : Manager}
    {slabClass : Nat}
    {result : Option Nat}
    (reservation : Reservation man slabClass result after)
    (store : SameStore man after)
    (isNone : result = none) :
    after.Exhausted slabClass := by
  cases reservation with
  | exhausted allUsed sameUsed =>
      exact (exhausted_iff_of_used store.classAt
        fun number _ => sameUsed number).mpr allUsed
  | slot first marked =>
      cases isNone

/-- Reserving a slot grants it, and only if it was not out already. -/
theorem Granted.getAddress
    (granted : man.Granted grants)
    {slabClass valSize : Nat}
    (selects : getSlabClass man valSize = slabClass) :
    ∃ result after,
      getAddress man valSize = .ok (result, after) ∧
        SameStore man after ∧
        Reservation man slabClass result after ∧
        after.Granted
          ((result.map (Grant.mk · slabClass)).toList ++ grants) := by
  obtain ⟨result, after, returned, wellFormed, store, reservation⟩ :=
    getAddress_spec granted.wellFormed selects
  refine ⟨result, after, returned, store, reservation, ?_⟩
  cases reservation with
  | exhausted allUsed sameUsed =>
      exact granted.transfer wellFormed store.blocks store.classAt sameUsed
  | @slot _ number item first marked =>
      refine ⟨wellFormed, ?_, ?_, ?_⟩
      · intro grant member
        simp only [Option.map_some, Option.toList_some,
          List.singleton_append, List.mem_cons] at member
        rcases member with isNew | isOld
        · subst grant
          refine ⟨number, item,
            ⟨(store.classAt number).trans first.hasClass,
              first.inCapacity, ?_⟩,
            (store.slotAddress number slabClass item).symm⟩
          rw [marked]
          simp
        · refine (granted.held isOld).transfer store.blocks ?_
          intro query other occupied _
          refine ⟨(store.classAt query).trans occupied.hasClass,
            occupied.inCapacity, ?_⟩
          rw [marked, occupied.isUsed]
          rfl
      · simp only [Option.map_some, Option.toList_some,
          List.singleton_append, List.nodup_cons]
        refine ⟨?_, granted.distinct⟩
        intro member
        obtain ⟨query, other, occupied, address⟩ := granted.held member
        obtain ⟨sameNumber, -, sameItem⟩ :=
          granted.wellFormed.slot_unique first.hasClass occupied.hasClass
            first.inCapacity occupied.inCapacity address
        subst query
        subst other
        have free := first.free
        rw [occupied.isUsed] at free
        exact Bool.noConfusion free
      · intro query otherClass other occupied fresh
        rw [store.slotAddress]
        rw [store.blocks] at fresh
        simp only [Option.map_some, Option.toList_some,
          List.singleton_append, List.mem_cons]
        have hasClass : man.classAt query = some otherClass :=
          (store.classAt query).symm.trans occupied.hasClass
        by_cases isNew : query = number ∧ other = item
        · obtain ⟨rfl, rfl⟩ := isNew
          have sameClass : otherClass = slabClass := by
            simpa using hasClass.symm.trans first.hasClass
          rw [sameClass]
          exact Or.inl rfl
        · right
          refine granted.covered ⟨hasClass, occupied.inCapacity, ?_⟩ fresh
          have isUsed := occupied.isUsed
          rw [marked] at isUsed
          simpa [isNew] using isUsed

/-- Freeing a grant takes back its slot and no other. -/
theorem Granted.manDelete
    {grant : Grant}
    (granted : man.Granted (grant :: grants)) :
    ∃ after,
      manDelete man grant.address = .ok after ∧
        SameStore man after ∧
        after.Granted grants ∧
        ¬ after.Exhausted grant.slabClass ∧
        ∀ other, other ≠ grant.slabClass →
          (after.Exhausted other ↔ man.Exhausted other) := by
  have head : grant ∈ grant :: grants := by
    simp
  obtain ⟨number, item, occupied, address⟩ := granted.held head
  obtain ⟨after, freed, wellFormed, store, cleared⟩ :=
    manDelete_spec granted.wellFormed occupied.hasClass
      occupied.inCapacity occupied.isUsed
  obtain ⟨headNotLater, distinct⟩ := List.nodup_cons.mp granted.distinct
  refine ⟨after, by rw [address]; exact freed, store,
    ⟨wellFormed, ?_, distinct, ?_⟩, ?_, ?_⟩
  · intro other member
    have inAll : other ∈ grant :: grants := by
      simp [member]
    refine (granted.held inAll).transfer store.blocks ?_
    intro query otherItem otherOccupied otherAddress
    refine ⟨(store.classAt query).trans otherOccupied.hasClass,
      otherOccupied.inCapacity, ?_⟩
    rw [cleared, otherOccupied.isUsed]
    have different : ¬ (query = number ∧ otherItem = item) := by
      rintro ⟨rfl, rfl⟩
      apply headNotLater
      rwa [← Grant.eq_of_slot otherOccupied occupied otherAddress address]
    simp [different]
  · intro query otherClass other otherOccupied fresh
    rw [store.slotAddress]
    rw [store.blocks] at fresh
    have isUsed := otherOccupied.isUsed
    rw [cleared, Bool.and_eq_true] at isUsed
    have hasClass : man.classAt query = some otherClass :=
      (store.classAt query).symm.trans otherOccupied.hasClass
    have inAll :=
      granted.covered
        ⟨hasClass, otherOccupied.inCapacity, isUsed.1⟩ fresh
    rcases List.mem_cons.mp inAll with isHead | isLater
    · exfalso
      subst grant
      obtain ⟨sameNumber, -, sameItem⟩ :=
        granted.wellFormed.slot_unique hasClass occupied.hasClass
          otherOccupied.inCapacity occupied.inCapacity address
      simp [sameNumber, sameItem] at isUsed
    · exact isLater
  · intro allUsed
    have isUsed :=
      allUsed ((store.classAt number).trans occupied.hasClass)
        (granted.wellFormed.item_lt_statusBits occupied.hasClass
          occupied.inCapacity)
    rw [cleared] at isUsed
    simp at isUsed
  · intro other different
    apply exhausted_iff_of_used store.classAt
    intro query hasClass position
    have elsewhere : query ≠ number := by
      intro same
      subst query
      rw [occupied.hasClass, Option.some.injEq] at hasClass
      exact different hasClass.symm
    rw [cleared]
    simp [elsewhere]

/-- A new slab leaves every grant as it was. -/
theorem Granted.slabAdd
    (granted : man.Granted grants)
    {slabClass : Nat}
    (isClass : IsClass slabClass) :
    ∃ after,
      slabAdd man slabClass = .ok after ∧
        Extended man slabClass after ∧
        after.Granted grants ∧
        SameBytes man after grants := by
  obtain ⟨after, added, wellFormed, extended⟩ :=
    slabAdd_spec granted.wellFormed isClass
  have old :
      ∀ {number otherClass}, man.classAt number = some otherClass →
        number ≠ man.slabs.length ∧ number < man.slabs.length := by
    intro number otherClass hasClass
    obtain ⟨slab, present, -⟩ := exists_of_classAt hasClass
    have inBounds := (List.getElem?_eq_some_iff.mp present).1
    exact ⟨Nat.ne_of_lt inBounds, inBounds⟩
  refine ⟨after, added, extended,
    ⟨wellFormed, ?_, granted.distinct, ?_⟩, ?_⟩
  · intro grant member
    refine (granted.held member).transfer extended.blocks ?_
    intro number item occupied _
    obtain ⟨notNew, -⟩ := old occupied.hasClass
    refine ⟨?_, occupied.inCapacity, ?_⟩
    · rw [extended.classAt, if_neg notNew]
      exact occupied.hasClass
    · rw [extended.used _ _
          (granted.wellFormed.item_lt_statusBits occupied.hasClass
            occupied.inCapacity), if_neg notNew]
      exact occupied.isUsed
  · intro number otherClass item occupied fresh
    have hasBit :=
      wellFormed.item_lt_statusBits occupied.hasClass occupied.inCapacity
    have isUsed := occupied.isUsed
    have hasClass := occupied.hasClass
    rw [extended.used _ _ hasBit] at isUsed
    rw [extended.classAt] at hasClass
    rw [extended.blocks] at fresh
    rw [slotAddress, extended.blocks]
    by_cases isNew : number = man.slabs.length
    · rw [if_pos isNew] at isUsed hasClass
      rw [Option.some.injEq] at hasClass
      subst otherClass
      rw [isUsed] at fresh
      exact Bool.noConfusion fresh
    · rw [if_neg isNew] at isUsed hasClass
      exact granted.covered ⟨hasClass, occupied.inCapacity, isUsed⟩ fresh
  · apply sameBytes_of_memoryAt granted wellFormed extended.blocks
    intro number otherClass hasClass
    obtain ⟨notNew, inBounds⟩ := old hasClass
    refine ⟨?_, fun offset => extended.memoryAt number offset inBounds⟩
    rw [extended.classAt, if_neg notNew]
    exact hasClass

/--
A copy that fits neither its slot nor the memory of its slab still returns as
long as it ends inside the block.
-/
theorem Granted.memcpy_returns
    {grant : Grant}
    (granted : man.Granted (grant :: grants))
    (largest : grant.slabClass = memorySize)
    {count : Nat}
    (inBlock : count ≤ getSlabSize)
    (source : Nat → UInt8) :
    ∃ after, man.memcpy grant.address source count = .ok after := by
  by_cases nothing : count = 0
  · exact ⟨man, by rw [memcpy, if_pos nothing]⟩
  obtain ⟨number, item, occupied, address⟩ :=
    granted.held (List.mem_cons_self : grant ∈ grant :: grants)
  have inCapacity := occupied.inCapacity
  obtain ⟨slab, present, slabHasClass⟩ :=
    exists_of_classAt occupied.hasClass
  have positive : 0 < grant.slabClass := by
    rw [largest]
    decide
  have onlySlot : item = 0 := by
    rw [largest] at inCapacity
    exact Nat.lt_one_iff.mp inCapacity
  obtain ⟨lower, upper, difference, -⟩ :=
    granted.wellFormed.slot_in_block present slabHasClass inCapacity
      positive
  rw [Nat.add_zero] at lower upper difference
  obtain ⟨found, -⟩ :=
    granted.wellFormed.laid.find_block present lower upper
  have fits :
      man.slotAddress number grant.slabClass item - slab.addr + count ≤
        getSlabSize := by
    rw [difference, onlySlot]
    omega
  rw [address, memcpy, if_neg nothing, found]
  exact ⟨_, if_pos fits⟩

/-- Copying into a granted slot changes the bytes of that grant only. -/
theorem Granted.memcpy
    {grant : Grant}
    (granted : man.Granted (grant :: grants))
    {count : Nat}
    (fits : count ≤ grant.slabClass)
    (source : Nat → UInt8) :
    ∃ after,
      man.memcpy grant.address source count = .ok after ∧
        SameStatus man after ∧
        after.Granted (grant :: grants) ∧
        SameBytes man after grants ∧
        bytesFrom after.byteAt grant.address count =
          bytesFrom source 0 count := by
  have head : grant ∈ grant :: grants := by
    simp
  obtain ⟨number, item, occupied, address⟩ := granted.held head
  obtain ⟨after, copied, wellFormed, status, memory⟩ :=
    memcpy_spec granted.wellFormed occupied.hasClass occupied.inCapacity
      fits source
  obtain ⟨headNotLater, -⟩ := List.nodup_cons.mp granted.distinct
  have slotAddressSame (query slabClass position : Nat) :
      after.slotAddress query slabClass position =
        man.slotAddress query slabClass position := by
    rw [slotAddress, slotAddress, status.blocks]
  refine ⟨after, by rw [address]; exact copied, status,
    granted.transfer wellFormed status.blocks status.classAt status.used,
    ?_, ?_⟩
  · intro other member offset inSlot
    have inAll : other ∈ grant :: grants := by
      simp [member]
    obtain ⟨query, position, otherOccupied, otherAddress⟩ :=
      granted.held inAll
    have before :=
      granted.wellFormed.byteAt_slot otherOccupied.hasClass
        otherOccupied.inCapacity inSlot
    have later :=
      wellFormed.byteAt_slot
        ((status.classAt query).trans otherOccupied.hasClass)
        otherOccupied.inCapacity inSlot
    rw [slotAddressSame] at later
    rw [otherAddress, before, later, memory, if_neg]
    rintro ⟨rfl, lower, upper⟩
    have sameClass : other.slabClass = grant.slabClass := by
      have := otherOccupied.hasClass.symm.trans occupied.hasClass
      simpa using this
    have samePosition : position = item := by
      rw [sameClass] at lower upper inSlot
      exact item_eq_of_overlap inSlot lower (by omega)
    subst position
    apply headNotLater
    rwa [← Grant.eq_of_slot otherOccupied occupied otherAddress address]
  · apply bytesFrom_congr
    intro position inside
    have inSlot : position < grant.slabClass :=
      Nat.lt_of_lt_of_le inside fits
    have later :=
      wellFormed.byteAt_slot
        ((status.classAt number).trans occupied.hasClass)
        occupied.inCapacity inSlot
    rw [slotAddressSame] at later
    rw [address, later, memory, if_pos ⟨rfl, by omega, by omega⟩]
    congr 1
    omega

end Operations

end CacheBench.Manager
