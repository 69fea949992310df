import Mathlib.Algebra.BigOperators.Group.Finset.Sigma
import Mathlib.Algebra.Order.BigOperators.Group.Finset
import Mathlib.Data.Nat.Cast.Basic
import CacheBench.CacheSet

namespace CacheBench

open Manager Execution

/-!
# Which value owns which slot

The metas of the cache and the slots in use correspond one to one when the
blocks `malloc` returns are zero-filled.  Whatever the blocks hold, the slots
of live values are distinct and inside their slabs, which bounds the space the
values take by the space of the slabs.
-/

/-! ## Slots -/

/-- A slot of the manager's slabs that is in use. -/
def Manager.SlotInUse (man : Manager) (slot : Nat × Nat) : Prop :=
  ∃ slab,
    man.slabs[slot.1]? = some slab ∧
      slot.2 < 2 ^ 20 / slab.slabClass ∧ slab.bit slot.2 = true

/-- The address is that of item `slot.2` of slab `slot.1`. -/
def Manager.SlotAt (man : Manager) (slot : Nat × Nat) (address : Nat) :
    Prop :=
  ∃ slab,
    man.slabs[slot.1]? = some slab ∧
      slot.2 < 2 ^ 20 / slab.slabClass ∧
      address = slab.addr + slab.slabClass * slot.2

section Slots

variable {man : Manager} {number slabClass item : Nat}

/-- An occupied item is a slot in use. -/
theorem Manager.Occupied.slotInUse
    (occupied : man.Occupied number slabClass item) :
    man.SlotInUse (number, item) := by
  obtain ⟨slab, present, rfl⟩ := exists_of_classAt occupied.hasClass
  refine ⟨slab, present, occupied.inCapacity, ?_⟩
  rw [← used_eq present]
  exact occupied.isUsed

/-- A slot in use is an occupied item. -/
theorem Manager.SlotInUse.occupied
    {slot : Nat × Nat}
    (inUse : man.SlotInUse slot) :
    ∃ slabClass, man.Occupied slot.1 slabClass slot.2 := by
  obtain ⟨slab, present, inCapacity, isUsed⟩ := inUse
  refine ⟨slab.slabClass, ?_, inCapacity, ?_⟩
  · simp [classAt, present]
  · rw [used_eq present]
    exact isUsed

/-- An occupied item has the address of its slot. -/
theorem Manager.Occupied.slotAt
    (wellFormed : man.WellFormed)
    (occupied : man.Occupied number slabClass item) :
    man.SlotAt (number, item)
      (man.slotAddress number slabClass item) := by
  obtain ⟨slab, present, rfl⟩ := exists_of_classAt occupied.hasClass
  refine ⟨slab, present, occupied.inCapacity, ?_⟩
  rw [slotAddress, wellFormed.addr present]

/-- An address is that of at most one slot. -/
theorem Manager.WellFormed.slotAt_unique
    (wellFormed : man.WellFormed)
    {first second : Nat × Nat}
    {address : Nat}
    (atFirst : man.SlotAt first address)
    (atSecond : man.SlotAt second address) :
    first = second := by
  obtain ⟨firstSlab, firstPresent, firstInCapacity, firstAddress⟩ := atFirst
  obtain ⟨secondSlab, secondPresent, secondInCapacity, secondAddress⟩ :=
    atSecond
  have sameAddress :
      man.slotAddress first.1 firstSlab.slabClass first.2 =
        man.slotAddress second.1 secondSlab.slabClass second.2 := by
    rw [slotAddress, slotAddress, ← wellFormed.addr firstPresent,
      ← wellFormed.addr secondPresent, ← firstAddress, secondAddress]
  obtain ⟨sameNumber, -, sameItem⟩ :=
    wellFormed.slot_unique (by simp [classAt, firstPresent])
      (by simp [classAt, secondPresent]) firstInCapacity secondInCapacity
      sameAddress
  exact Prod.ext sameNumber sameItem

/-- A fresh zero-filled block has all its slots free. -/
theorem freshBit_zeros
    (addr : Nat)
    (inCapacity : item < capacity slabClass) :
    freshBit (Slab.zeros addr) slabClass item = false := by
  have clear : (Slab.zeros addr).bit item = false :=
    Bitmap.bit_replicate_zero 32 512 item
  rw [freshBit, if_pos inCapacity, clear, ite_self]

end Slots

/-! ## The ownership invariant -/

/-- The metas own the slots in use, one to one. -/
structure OwnsSlots (cache : Cache) : Prop where
  placed :
    ∀ item ∈ cache.metas,
      ∃! slot, cache.slabManager.SlotAt slot item.address
  sameClass :
    ∀ item ∈ cache.metas, ∀ slot,
      cache.slabManager.SlotAt slot item.address →
        ∃ slab,
          cache.slabManager.slabs[slot.1]? = some slab ∧
            slab.slabClass = item.slabClass
  bijection :
    ∃ slotOf : Fin cache.metas.length → Nat × Nat,
      Function.Injective slotOf ∧
        Set.range slotOf = {slot | cache.slabManager.SlotInUse slot} ∧
        ∀ index,
          cache.slabManager.SlotAt (slotOf index)
            (cache.metas.get index).address
  pastCapacity :
    ∀ slab ∈ cache.slabManager.slabs, ∀ item,
      2 ^ 20 / slab.slabClass ≤ item → item < 32 * 512 →
        slab.bit item = true
  full :
    ∀ slab ∈ cache.slabManager.slabs, slab.isFull ≠ 0 →
      ∀ item < 32 * 512, slab.bit item = true

section Ownership

variable {cache : Cache}

/-- The slot of a live meta. -/
theorem CacheOk.exists_slot
    (ok : CacheOk [] cache)
    {item : Meta}
    (member : item ∈ cache.metas) :
    ∃ slot : Nat × Nat,
      cache.slabManager.Occupied slot.1 item.slabClass slot.2 ∧
        item.address =
          cache.slabManager.slotAddress slot.1 item.slabClass slot.2 := by
  obtain ⟨number, slot, occupied, address⟩ :=
    ok.granted.held (List.mem_map_of_mem member)
  exact ⟨(number, slot), occupied, address⟩

/-- Two positions of the table that share an address are one. -/
theorem CacheOk.index_eq
    (ok : CacheOk [] cache)
    {first second : Fin cache.metas.length}
    (sameAddress :
      (cache.metas.get first).address = (cache.metas.get second).address) :
    first = second := by
  have wellFormed := ok.granted.wellFormed
  obtain ⟨firstSlot, firstOccupied, firstAddress⟩ :=
    ok.exists_slot (List.get_mem cache.metas first)
  obtain ⟨secondSlot, secondOccupied, secondAddress⟩ :=
    ok.exists_slot (List.get_mem cache.metas second)
  obtain ⟨-, sameClass, -⟩ :=
    wellFormed.slot_unique firstOccupied.hasClass secondOccupied.hasClass
      firstOccupied.inCapacity secondOccupied.inCapacity
      (firstAddress.symm.trans (sameAddress.trans secondAddress))
  have sameGrant :
      (cache.metas.map Meta.grant)[first.val]? =
        (cache.metas.map Meta.grant)[second.val]? := by
    have grants :
        (cache.metas.get first).grant = (cache.metas.get second).grant := by
      rw [Meta.grant, Meta.grant, sameAddress, sameClass]
    simpa using grants
  have inBounds : first.val < (cache.metas.map Meta.grant).length := by
    simp
  exact Fin.ext
    ((List.getElem?_inj inBounds ok.granted.distinct).mp sameGrant)

/-- With zero-filled blocks the metas own the slots in use. -/
theorem CacheOk.ownsSlots
    (ok : CacheOk [] cache)
    (zeroFilled : ZeroFilled cache.slabManager.blocks) :
    OwnsSlots cache := by
  have wellFormed := ok.granted.wellFormed
  have located :
      ∀ item ∈ cache.metas, ∃ slot : Nat × Nat,
        cache.slabManager.Occupied slot.1 item.slabClass slot.2 ∧
          cache.slabManager.SlotAt slot item.address := by
    intro item member
    obtain ⟨slot, occupied, address⟩ := ok.exists_slot member
    refine ⟨slot, occupied, ?_⟩
    rw [address]
    exact occupied.slotAt wellFormed
  refine ⟨?_, ?_, ?_, ?_, ?_⟩
  · intro item member
    obtain ⟨slot, -, atSlot⟩ := located item member
    exact ⟨slot, atSlot,
      fun other atOther => wellFormed.slotAt_unique atOther atSlot⟩
  · intro item member slot atSlot
    obtain ⟨own, occupied, atOwn⟩ := located item member
    rw [wellFormed.slotAt_unique atSlot atOwn]
    exact exists_of_classAt occupied.hasClass
  · have chosen (index : Fin cache.metas.length) :=
      located (cache.metas.get index) (List.get_mem cache.metas index)
    choose slotOf occupied atSlot using chosen
    refine ⟨slotOf, ?_, ?_, atSlot⟩
    · intro first second sameSlot
      apply ok.index_eq
      obtain ⟨slab, present, -, firstAddress⟩ := atSlot first
      obtain ⟨other, otherPresent, -, secondAddress⟩ := atSlot second
      rw [sameSlot] at present firstAddress
      rw [present, Option.some.injEq] at otherPresent
      subst other
      rw [firstAddress, secondAddress]
    · ext slot
      constructor
      · rintro ⟨index, rfl⟩
        exact (occupied index).slotInUse
      · intro inUse
        obtain ⟨slabClass, slotOccupied⟩ := inUse.occupied
        have fresh :
            freshBit (cache.slabManager.blocks slot.1) slabClass slot.2 =
              false := by
          rw [zeroFilled slot.1]
          exact freshBit_zeros _ slotOccupied.inCapacity
        obtain ⟨item, member, isGrant⟩ :=
          List.mem_map.mp (ok.granted.covered slotOccupied fresh)
        obtain ⟨index, isItem⟩ := List.get_of_mem member
        refine ⟨index, wellFormed.slotAt_unique (atSlot index) ?_⟩
        have address :
            item.address =
              cache.slabManager.slotAddress slot.1 slabClass slot.2 :=
          congrArg Grant.address isGrant
        rw [isItem, address]
        exact slotOccupied.slotAt wellFormed
  · intro slab member item past inBounds
    obtain ⟨number, present⟩ := List.mem_iff_getElem?.mp member
    exact (wellFormed.slabOk present).pastCapacity past inBounds
  · intro slab member notOpen item inBounds
    obtain ⟨number, present⟩ := List.mem_iff_getElem?.mp member
    exact (wellFormed.slabOk present).fullSound notOpen inBounds

/-- In every run with bounded values the metas own the slots in use. -/
theorem metas_own_slots
    {blocks : Nat → Slab}
    (disjoint : DisjointBlocks blocks)
    (zeroFilled : ZeroFilled blocks)
    {maxmem : UInt64}
    {hasher : Option HashFunc}
    {history : List Event}
    (run : Run Cache.Step (createCache blocks maxmem hasher) history cache)
    (bounded : ∀ event ∈ history, event.Bounded) :
    OwnsSlots cache := by
  obtain ⟨ok, sameBlocks⟩ := cacheOk_of_run disjoint run bounded
  apply ok.ownsSlots
  rw [sameBlocks]
  exact zeroFilled

/-- A run of sets, an overwrite and a delete that leaves one meta. -/
theorem metas_own_slots_one_meta :
    ∃ (history : List Event) (cache : Cache),
      history.map Event.call =
          [.set (CString.ofText "a") (bytesAt []) 64,
            .set (CString.ofText "b") (bytesAt []) 1,
            .set (CString.ofText "a") (bytesAt []) 40,
            .delete (CString.ofText "b")] ∧
        Run Cache.Step (createCache zeroBlocks 0 none) history cache ∧
        cache.metas.length = 1 ∧ OwnsSlots cache := by
  obtain ⟨history, cache, calls, run, one⟩ :=
    exists_run (by
      decide +kernel :
      returnsSuch
        ((createCache zeroBlocks 0 none).performAll
          [.set (CString.ofText "a") (bytesAt []) 64,
            .set (CString.ofText "b") (bytesAt []) 1,
            .set (CString.ofText "a") (bytesAt []) 40,
            .delete (CString.ofText "b")])
        (fun result => result.2.metas.length == 1) = true)
  exact ⟨history, cache, calls, run, by simpa using one,
    metas_own_slots zeroBlocks_disjoint (fun _ => rfl) run
      (bounded_of_calls calls (by decide))⟩

end Ownership

/-! ## Space -/

section Space

variable {man : Manager} {grants : List Grant}

/-- The slots granted take no more than the memory of the slabs. -/
theorem Manager.Granted.sum_slabClass_le
    (granted : man.Granted grants) :
    (grants.map Grant.slabClass).sum ≤ man.slabs.length * memorySize := by
  classical
  have located (grant : {grant // grant ∈ grants}) :=
    granted.held grant.property
  choose number item occupied address using located
  have weight (grant : {grant // grant ∈ grants}) :
      grant.val.slabClass = (man.classAt (number grant)).getD 0 := by
    rw [(occupied grant).hasClass]
    rfl
  let slotOf (grant : {grant // grant ∈ grants}) : (_ : Nat) × Nat :=
    ⟨number grant, item grant⟩
  have injective : Function.Injective slotOf := by
    intro first second same
    simp only [slotOf, Sigma.mk.injEq, heq_eq_eq] at same
    obtain ⟨sameNumber, sameItem⟩ := same
    have sameClass : first.val.slabClass = second.val.slabClass := by
      rw [weight, weight, sameNumber]
    have sameAddress : first.val.address = second.val.address := by
      rw [address, address, sameNumber, sameItem, sameClass]
    apply Subtype.ext
    cases firstShape : first.val
    cases secondShape : second.val
    simp_all
  let slots : Finset ((_ : Nat) × Nat) :=
    (Finset.range man.slabs.length).sigma fun number =>
      Finset.range (capacity ((man.classAt number).getD 0))
  have inSlots :
      grants.attach.toFinset.image slotOf ⊆ slots := by
    intro slot member
    obtain ⟨grant, -, rfl⟩ := Finset.mem_image.mp member
    simp only [slots, slotOf, Finset.mem_sigma, Finset.mem_range]
    obtain ⟨slab, present, -⟩ :=
      exists_of_classAt (occupied grant).hasClass
    refine ⟨(List.getElem?_eq_some_iff.mp present).1, ?_⟩
    rw [← weight]
    exact (occupied grant).inCapacity
  have distinct : grants.attach.Nodup :=
    List.nodup_attach.mpr granted.distinct
  calc
    (grants.map Grant.slabClass).sum =
        (grants.attach.map fun grant => grant.val.slabClass).sum := by
      conv_lhs =>
        rw [← List.attach_map_subtype_val grants, List.map_map]
      rfl
    _ = ∑ grant ∈ grants.attach.toFinset, grant.val.slabClass := by
      rw [List.sum_toFinset _ distinct]
    _ = ∑ slot ∈ grants.attach.toFinset.image slotOf,
          (man.classAt slot.1).getD 0 := by
      rw [Finset.sum_image injective.injOn]
      exact Finset.sum_congr rfl fun grant _ => weight grant
    _ ≤ ∑ slot ∈ slots, (man.classAt slot.1).getD 0 :=
      Finset.sum_le_sum_of_subset inSlots
    _ = ∑ number ∈ Finset.range man.slabs.length,
          capacity ((man.classAt number).getD 0) *
            (man.classAt number).getD 0 := by
      rw [Finset.sum_sigma]
      simp
    _ ≤ man.slabs.length * memorySize := by
      have bounded :=
        Finset.sum_le_card_nsmul (Finset.range man.slabs.length)
          (fun number =>
            capacity ((man.classAt number).getD 0) *
              (man.classAt number).getD 0)
          memorySize (fun number _ => Nat.div_mul_le_self _ _)
      simpa using bounded

/-- The number of values is bounded by the slots of the smallest class. -/
theorem Manager.Granted.length_le
    (granted : man.Granted grants) :
    grants.length * 64 ≤ man.slabs.length * memorySize := by
  refine Nat.le_trans ?_ granted.sum_slabClass_le
  have smallest :
      ∀ size ∈ grants.map Grant.slabClass, 64 ≤ size := by
    intro size member
    obtain ⟨grant, inGrants, rfl⟩ := List.mem_map.mp member
    obtain ⟨number, item, occupied, -⟩ := granted.held inGrants
    exact (granted.wellFormed.isClass occupied.hasClass).smallest
  simpa using List.card_nsmul_le_sum _ 64 smallest

/-- A class for whose slots the slabs have no memory left is exhausted. -/
theorem Manager.Granted.exhausted_of_full
    (granted : man.Granted grants)
    {slabClass : Nat}
    (selects : getSlabClass man slabClass = slabClass)
    (full :
      man.slabs.length * memorySize <
        slabClass + (grants.map Grant.slabClass).sum) :
    man.Exhausted slabClass := by
  obtain ⟨result, after, -, store, reservation, afterGranted⟩ :=
    granted.getAddress selects
  apply (reservation.none_iff granted.wellFormed).mp
  cases result with
  | none =>
      rfl
  | some address =>
      have bounded := afterGranted.sum_slabClass_le
      rw [store.length] at bounded
      exact absurd bounded (Nat.not_le_of_lt full)

end Space

/-- The sizes of all stored values together. -/
def Cache.totalSize (cache : Cache) : Nat :=
  (cache.metas.map Meta.size).sum

/-- `cache_space_used` adds up the sizes in 64 bits. -/
theorem cacheSpaceUsed_eq (cache : Cache) :
    cacheSpaceUsed cache = UInt64.ofNat cache.totalSize := by
  have loop (start : UInt64) (metas : List Meta) :
      metas.foldl (fun size item => size + UInt64.ofNat item.size) start =
        start + UInt64.ofNat (metas.map Meta.size).sum := by
    induction metas generalizing start with
    | nil =>
        simp
    | cons item rest inductionHypothesis =>
        rw [List.foldl_cons, inductionHypothesis, List.map_cons,
          List.sum_cons, UInt64.ofNat_add, UInt64.add_assoc]
  rw [cacheSpaceUsed, loop, UInt64.zero_add, Cache.totalSize]

/-- The memory limit and what it bounds. -/
structure WithinLimit (cache : Cache) : Prop where
  slab_le_maxmem : getSlabSize ≤ cache.maxmem.toNat
  maxmem_le : cache.maxmem.toNat ≤ 2 ^ 32
  numSlabs :
    cache.slabManager.numSlabs.toNat = cache.slabManager.slabs.length
  size_eq :
    cache.size.toNat =
      cache.slabManager.numSlabs.toNat * getSlabSize
  size_le : cache.size.toNat ≤ cache.maxmem.toNat
  noUnderflow :
    (cache.maxmem - cache.size.toUInt64).toNat =
      cache.maxmem.toNat - cache.size.toNat
  spaceUsed : (cacheSpaceUsed cache).toNat = cache.totalSize
  spaceUsed_le :
    (cacheSpaceUsed cache).toNat ≤
      cache.slabManager.numSlabs.toNat * 2 ^ 20
  slabs_le : cache.slabManager.numSlabs.toNat * 2 ^ 20 ≤ cache.maxmem.toNat

/-- The values take no more than the memory of the slabs. -/
theorem CacheOk.totalSize_le
    {cache : Cache}
    (ok : CacheOk [] cache) :
    cache.totalSize ≤ cache.slabManager.slabs.length * memorySize := by
  refine Nat.le_trans ?_ ok.granted.sum_slabClass_le
  rw [List.nil_append, List.map_map]
  exact List.sum_le_sum ok.fits

/-- A class whose slots do not fit beside the values is exhausted. -/
theorem CacheOk.exhausted_of_full
    {cache : Cache}
    (ok : CacheOk [] cache)
    {slabClass : Nat}
    (isClass : IsClass slabClass)
    (full :
      cache.slabManager.slabs.length * memorySize <
        slabClass + (cache.metas.map Meta.slabClass).sum) :
    cache.slabManager.Exhausted slabClass := by
  have selects :
      getSlabClass cache.slabManager slabClass = slabClass := by
    rw [ok.granted.wellFormed.getSlabClass_eq]
    exact defaultTable.select_of_mem isClass
  apply ok.granted.exhausted_of_full selects
  rw [List.nil_append, List.map_map]
  exact full

/-- The memory of the slabs is within the limit. -/
theorem Limits.slabs_le
    {cache : Cache}
    (limits : Limits cache) :
    cache.slabManager.slabs.length * memorySize ≤ cache.maxmem.toNat := by
  have memoryInSlab : memorySize ≤ getSlabSize := by
    decide
  have inSlabs :=
    Nat.mul_le_mul_left cache.slabManager.slabs.length memoryInSlab
  rw [← limits.size_eq] at inSlabs
  exact inSlabs.trans limits.size_le

/-- `cache_space_used` does not overflow. -/
theorem CacheOk.toNat_cacheSpaceUsed
    {cache : Cache}
    (ok : CacheOk [] cache) :
    (cacheSpaceUsed cache).toNat = cache.totalSize := by
  rw [cacheSpaceUsed_eq, UInt64.toNat_ofNat']
  apply Nat.mod_eq_of_lt
  have total_le := ok.totalSize_le
  have slabs_le := ok.limits.slabs_le
  have maxmem_le := ok.limits.maxmem_le
  omega

/-- The memory limit holds in every run with bounded values. -/
theorem memory_within_limit
    {blocks : Nat → Slab}
    (disjoint : DisjointBlocks blocks)
    {maxmem : UInt64}
    {hasher : Option HashFunc}
    {history : List Event}
    {cache : Cache}
    (run : Run Cache.Step (createCache blocks maxmem hasher) history cache)
    (bounded : ∀ event ∈ history, event.Bounded) :
    WithinLimit cache := by
  obtain ⟨ok, -⟩ := cacheOk_of_run disjoint run bounded
  have limits := ok.limits
  have numSlabs := limits.numSlabs
  have noUnderflow : cache.size.toUInt64 ≤ cache.maxmem := by
    rw [UInt64.le_iff_toNat_le]
    exact limits.size_le
  refine ⟨limits.slab_le_maxmem, limits.maxmem_le, numSlabs, ?_,
    limits.size_le, UInt64.toNat_sub_of_le _ _ noUnderflow,
    ok.toNat_cacheSpaceUsed, ?_, ?_⟩
  · rw [numSlabs]
    exact limits.size_eq
  · rw [numSlabs, ok.toNat_cacheSpaceUsed]
    exact ok.totalSize_le
  · rw [numSlabs]
    exact limits.slabs_le

/-- A run that fills the only slab of the smallest cache. -/
theorem memory_within_limit_one_slab :
    ∃ (history : List Event) (cache : Cache),
      history.map Event.call =
          [.set (CString.ofText "a") (bytesAt []) 1048576] ∧
        Run Cache.Step (createCache zeroBlocks 0 none) history cache ∧
        cache.slabManager.numSlabs = 1 ∧ WithinLimit cache := by
  obtain ⟨history, cache, calls, run, one⟩ :=
    exists_run (by
      decide +kernel :
      returnsSuch
        ((createCache zeroBlocks 0 none).performAll
          [.set (CString.ofText "a") (bytesAt []) 1048576])
        (fun result => result.2.slabManager.numSlabs == 1) = true)
  exact ⟨history, cache, calls, run, by simpa using one,
    memory_within_limit zeroBlocks_disjoint run
      (bounded_of_calls calls (by decide))⟩

end CacheBench
