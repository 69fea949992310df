import Mathlib.Data.Finset.Prod
import CacheBench.ClassAgreement
import CacheBench.CacheSetFailure

namespace CacheBench

open Manager Execution

/-!
# What each class has of the slabs

A slab keeps the class it was added with for as long as the cache lives.  The
classes therefore divide the memory limit among themselves in the order in
which their values arrive, and what a class has got it keeps.  With zero-filled
blocks the values of a class and its slots are in balance: a class is exhausted
exactly when every slot of its slabs has a value.
-/

/-- Number of values in slots of the class. -/
def Cache.valuesOf (cache : Cache) (slabClass : Nat) : Nat :=
  cache.metas.countP fun item => item.slabClass = slabClass

/-- Number of slots in the slabs of the class. -/
def Manager.slotsOf (man : Manager) (slabClass : Nat) : Nat :=
  man.slabClasses.count slabClass * capacity slabClass

/-! ## Values and slots -/

/-- The positions of an entry, counted. -/
theorem card_positions (entries : List Nat) (entry : Nat) :
    ((Finset.range entries.length).filter
      fun position => entries[position]? = some entry).card =
      entries.count entry := by
  induction entries using List.reverseRecOn with
  | nil =>
      rfl
  | append_singleton earlier last inductionHypothesis =>
      have before :
          (Finset.range earlier.length).filter
              (fun position =>
                (earlier ++ [last])[position]? = some entry) =
            (Finset.range earlier.length).filter
              fun position => earlier[position]? = some entry := by
        apply Finset.filter_congr
        intro position below
        rw [List.getElem?_append_left (Finset.mem_range.mp below)]
      rw [List.length_append, List.length_singleton, Finset.range_add_one,
        Finset.filter_insert, List.getElem?_concat_length, before,
        List.count_append, List.count_singleton, ← inductionHypothesis]
      by_cases same : last = entry
      · simp [same]
      · simp [same]

namespace Manager

/-- The slots of a class, by slab and item. -/
def slots (man : Manager) (slabClass : Nat) : Finset (Nat × Nat) :=
  ((Finset.range man.slabClasses.length).filter
      fun number => man.slabClasses[number]? = some slabClass) ×ˢ
    Finset.range (capacity slabClass)

/-- The slots of a class whose status bit is set. -/
def usedSlots (man : Manager) (slabClass : Nat) : Finset (Nat × Nat) :=
  (man.slots slabClass).filter fun slot => man.used slot.1 slot.2 = true

section Slots

variable {man : Manager} {grants : List Grant} {slabClass : Nat}

theorem card_slots (man : Manager) (slabClass : Nat) :
    (man.slots slabClass).card = man.slotsOf slabClass := by
  rw [slots, Finset.card_product, card_positions, Finset.card_range,
    slotsOf]

theorem slabClasses_getElem? (man : Manager) (number : Nat) :
    man.slabClasses[number]? = man.classAt number :=
  List.getElem?_map ..

theorem mem_slots {slot : Nat × Nat} :
    slot ∈ man.slots slabClass ↔
      man.classAt slot.1 = some slabClass ∧
        slot.2 < capacity slabClass := by
  simp only [slots, Finset.mem_product, Finset.mem_filter,
    Finset.mem_range, slabClasses_getElem?, and_congr_left_iff,
    and_iff_right_iff_imp]
  intro _ hasClass
  rw [← slabClasses_getElem?] at hasClass
  exact (List.getElem?_eq_some_iff.mp hasClass).1

theorem mem_usedSlots {slot : Nat × Nat} :
    slot ∈ man.usedSlots slabClass ↔
      man.Occupied slot.1 slabClass slot.2 := by
  rw [usedSlots, Finset.mem_filter, mem_slots]
  exact ⟨fun ⟨⟨hasClass, inCapacity⟩, isUsed⟩ =>
      ⟨hasClass, inCapacity, isUsed⟩,
    fun occupied =>
      ⟨⟨occupied.hasClass, occupied.inCapacity⟩, occupied.isUsed⟩⟩

/-- A class is exhausted exactly when all of its slots are in use. -/
theorem WellFormed.exhausted_iff
    (wellFormed : man.WellFormed) :
    man.Exhausted slabClass ↔
      man.usedSlots slabClass = man.slots slabClass := by
  rw [usedSlots, Finset.filter_eq_self]
  constructor
  · intro allUsed slot member
    obtain ⟨hasClass, inCapacity⟩ := mem_slots.mp member
    exact allUsed hasClass
      (wellFormed.item_lt_statusBits hasClass inCapacity)
  · intro allUsed number hasClass item inBounds
    by_cases inCapacity : item < capacity slabClass
    · exact allUsed (number, item) (mem_slots.mpr ⟨hasClass, inCapacity⟩)
    · obtain ⟨slab, present, isClass⟩ := exists_of_classAt hasClass
      rw [used_eq present]
      rw [← isClass] at inCapacity
      exact (wellFormed.slabOk present).pastCapacity
        (Nat.le_of_not_lt inCapacity) inBounds

/-- With zero-filled blocks the slots in use are the slots granted. -/
theorem Granted.card_usedSlots
    (granted : man.Granted grants)
    (zeroFilled : ZeroFilled man.blocks) :
    (man.usedSlots slabClass).card =
      grants.countP fun grant => grant.slabClass = slabClass := by
  have wellFormed := granted.wellFormed
  let ofClass := grants.filter fun grant => grant.slabClass = slabClass
  have mem_ofClass {grant : Grant} :
      grant ∈ ofClass ↔ grant ∈ grants ∧ grant.slabClass = slabClass := by
    simp [ofClass]
  -- Slots and grants are compared by their addresses.
  let address (slot : Nat × Nat) : Nat :=
    man.slotAddress slot.1 slabClass slot.2
  have injective : Set.InjOn address (man.usedSlots slabClass) := by
    intro first isFirst second isSecond same
    have first_used := mem_usedSlots.mp isFirst
    have second_used := mem_usedSlots.mp isSecond
    obtain ⟨sameNumber, -, sameItem⟩ :=
      wellFormed.slot_unique first_used.hasClass second_used.hasClass
        first_used.inCapacity second_used.inCapacity same
    exact Prod.ext sameNumber sameItem
  have distinct : (ofClass.map Grant.address).Nodup := by
    refine (granted.distinct.filter _).map_on ?_
    intro first isFirst second isSecond same
    cases first
    cases second
    simp_all
  have image :
      (man.usedSlots slabClass).image address =
        (ofClass.map Grant.address).toFinset := by
    ext place
    rw [Finset.mem_image, List.mem_toFinset, List.mem_map]
    constructor
    · rintro ⟨slot, inUse, rfl⟩
      have occupied := mem_usedSlots.mp inUse
      have fresh :
          freshBit (man.blocks slot.1) slabClass slot.2 = false := by
        rw [zeroFilled slot.1]
        exact freshBit_zeros _ occupied.inCapacity
      exact ⟨_, mem_ofClass.mpr ⟨granted.covered occupied fresh, rfl⟩,
        rfl⟩
    · rintro ⟨grant, member, rfl⟩
      obtain ⟨inGrants, rfl⟩ := mem_ofClass.mp member
      obtain ⟨number, item, occupied, isAddress⟩ := granted.held inGrants
      exact ⟨(number, item), mem_usedSlots.mpr occupied, isAddress.symm⟩
  rw [← Finset.card_image_of_injOn injective, image,
    List.toFinset_card_of_nodup distinct, List.length_map,
    List.countP_eq_length_filter]

end Slots

end Manager

section Balance

variable {cache : Cache} {slabClass : Nat}

theorem CacheOk.card_usedSlots
    (ok : CacheOk [] cache)
    (zeroFilled : ZeroFilled cache.slabManager.blocks) :
    (cache.slabManager.usedSlots slabClass).card =
      cache.valuesOf slabClass := by
  rw [ok.granted.card_usedSlots zeroFilled, List.nil_append,
    List.countP_map]
  rfl

/-- A class has no more values than slots. -/
theorem CacheOk.valuesOf_le
    (ok : CacheOk [] cache)
    (zeroFilled : ZeroFilled cache.slabManager.blocks) :
    cache.valuesOf slabClass ≤ cache.slabManager.slotsOf slabClass := by
  rw [← ok.card_usedSlots zeroFilled, ← card_slots]
  exact Finset.card_le_card (Finset.filter_subset _ _)

/-- A class is exhausted exactly when it has as many values as slots. -/
theorem CacheOk.exhausted_iff
    (ok : CacheOk [] cache)
    (zeroFilled : ZeroFilled cache.slabManager.blocks) :
    cache.slabManager.Exhausted slabClass ↔
      cache.valuesOf slabClass = cache.slabManager.slotsOf slabClass := by
  rw [ok.granted.wellFormed.exhausted_iff, ← ok.card_usedSlots zeroFilled,
    ← card_slots]
  constructor
  · intro same
    rw [same]
  · intro sameCard
    exact Finset.eq_of_subset_of_card_le (Finset.filter_subset _ _)
      sameCard.ge

end Balance

/-! ## Slabs added -/

/--
The slabs of the cache are still there with their classes.  If slabs were
added, the limit had room for them.
-/
structure Extends (cache after : Cache) : Prop where
  maxmem : after.maxmem = cache.maxmem
  classes :
    ∃ added,
      after.slabManager.slabClasses =
          cache.slabManager.slabClasses ++ added ∧
        (added ≠ [] →
          after.slabManager.slabClasses.length * getSlabSize <
            after.maxmem.toNat)

namespace Extends

variable {cache middle after : Cache}

theorem of_same
    (sameMaxmem : after.maxmem = cache.maxmem)
    (sameClasses :
      after.slabManager.slabClasses = cache.slabManager.slabClasses) :
    Extends cache after :=
  ⟨sameMaxmem, [], by rw [sameClasses, List.append_nil],
    fun nonempty => absurd rfl nonempty⟩

theorem trans
    (earlier : Extends cache middle)
    (later : Extends middle after) :
    Extends cache after := by
  obtain ⟨sameEarlier, added, classes, within⟩ := earlier
  obtain ⟨sameLater, addedLater, classesLater, withinLater⟩ := later
  refine ⟨sameLater.trans sameEarlier, added ++ addedLater, ?_, ?_⟩
  · rw [classesLater, classes, List.append_assoc]
  · intro nonempty
    by_cases noneLater : addedLater = []
    · rw [noneLater, List.append_nil] at classesLater nonempty
      rw [classesLater, sameLater]
      exact within nonempty
    · exact withinLater noneLater

/-- A cache that cannot grow keeps the slabs it has. -/
theorem same_of_full
    (extended : Extends cache after)
    (full : ¬ cache.CanGrow) :
    after.slabManager.slabClasses = cache.slabManager.slabClasses := by
  obtain ⟨sameMaxmem, added, classes, within⟩ := extended
  cases added with
  | nil =>
      rw [classes, List.append_nil]
  | cons first rest =>
      have fits := within (List.cons_ne_nil _ _)
      have oneMore :
          (cache.slabManager.slabs.length + 1) * getSlabSize ≤
            after.slabManager.slabClasses.length * getSlabSize := by
        apply Nat.mul_le_mul_right
        rw [classes, slabClasses]
        simp only [List.length_append, List.length_map, List.length_cons]
        omega
      rw [sameMaxmem] at fits
      rw [Nat.add_mul, Nat.one_mul] at oneMore
      exact absurd (Nat.lt_of_le_of_lt oneMore fits) full

end Extends

section Growth

variable {cache after : Cache} {slabClass : Nat} {result : Option Nat}

/-- `get_address` fails exactly if the class is exhausted. -/
theorem CacheOk.getAddress_none_iff
    (ok : CacheOk [] cache)
    (isClass : IsClass slabClass)
    {slabManager : Manager}
    (returned :
      getAddress cache.slabManager slabClass = .ok (result, slabManager)) :
    result = none ↔ cache.slabManager.Exhausted slabClass := by
  obtain ⟨_, _, expected, probed⟩ := ok.probe isClass
  rw [returned] at expected
  cases expected
  exact probed.none_iff

/-- A slab is added exactly if the class is exhausted and the limit has room. -/
theorem CacheOk.freeSpace_slabClasses
    (ok : CacheOk [] cache)
    (isClass : IsClass slabClass)
    (returned :
      CacheBench.freeSpace cache slabClass = .ok (result, after)) :
    (¬ (cache.slabManager.Exhausted slabClass ∧ cache.CanGrow) ∧
        after.slabManager.slabClasses = cache.slabManager.slabClasses) ∨
      (cache.slabManager.Exhausted slabClass ∧ cache.CanGrow ∧
        after.slabManager.slabClasses =
          cache.slabManager.slabClasses ++ [slabClass]) := by
  obtain ⟨first, searched, search, ways⟩ := freeSpace_cases returned
  have searchedSame := getAddress_slabClasses search
  have none_iff := ok.getAddress_none_iff isClass search
  rcases ways with found | atLimit | grew
  · obtain ⟨address, rfl, -, rfl⟩ := found
    refine Or.inl ⟨?_, searchedSame⟩
    rintro ⟨exhausted, -⟩
    cases none_iff.mpr exhausted
  · obtain ⟨-, notBelow, -, rfl⟩ := atLimit
    refine Or.inl ⟨?_, searchedSame⟩
    rintro ⟨-, canGrow⟩
    exact not_canGrow_of_not_lt ok.limits notBelow canGrow
  · obtain ⟨grown, later, rfl, -, expansion, again, rfl⟩ := grew
    have againSame := getAddress_slabClasses again
    rcases expandCache_cases expansion with
        ⟨slabManager, grows, added, rfl⟩ | ⟨stays, rfl⟩
    · refine Or.inr ⟨none_iff.mp rfl,
        (expandTest_iff ok.limits).mp grows, ?_⟩
      obtain ⟨slab, allocated, rest⟩ := bind_eq_ok.mp added
      cases rest
      rw [againSame, ← searchedSame]
      simp [slabClasses, llAppend, slabClass_of_allocateSlab allocated]
    · refine Or.inl ⟨?_, againSame.trans searchedSame⟩
      rintro ⟨-, canGrow⟩
      exact stays ((expandTest_iff ok.limits).mpr canGrow)

theorem CacheOk.freeSpace_extends
    (ok : CacheOk [] cache)
    (isClass : IsClass slabClass)
    (returned :
      CacheBench.freeSpace cache slabClass = .ok (result, after)) :
    Extends cache after := by
  have sameMaxmem := (freeSpace_sameTable returned).maxmem
  rcases ok.freeSpace_slabClasses isClass returned with
      ⟨-, same⟩ | ⟨-, canGrow, added⟩
  · exact .of_same sameMaxmem same
  · refine ⟨sameMaxmem, [slabClass], added, fun _ => ?_⟩
    rw [added, sameMaxmem, slabClasses, List.length_append,
      List.length_map, List.length_singleton, Nat.add_mul, Nat.one_mul]
    exact canGrow

theorem cacheDelete_extends
    {key : CString}
    {code : UInt8}
    (returned : cacheDelete cache key = .ok (code, after)) :
    Extends cache after := by
  refine .of_same ?_ (cacheDelete_slabClasses returned)
  rcases cacheDelete_cases returned with
      ⟨-, -, rfl⟩ | ⟨item, slabManager, -, -, -, rfl⟩ <;>
    rfl

theorem deleteOld_extends
    {key : CString}
    (returned : deleteOld cache key = .ok after) :
    Extends cache after := by
  rcases deleteOld_cases returned with ⟨-, rfl⟩ | ⟨item, code, -, deletion⟩
  · exact .of_same rfl rfl
  · exact cacheDelete_extends deletion

/-- Deleting the old value leaves the limit and the number of slabs. -/
theorem deleteOld_canGrow
    {key : CString}
    (returned : deleteOld cache key = .ok after) :
    after.CanGrow ↔ cache.CanGrow := by
  have sameLength := congrArg List.length (deleteOld_slabClasses returned)
  simp only [slabClasses, List.length_map] at sameLength
  rw [Cache.CanGrow, Cache.CanGrow, sameLength,
    (deleteOld_extends returned).maxmem]

/-- An eviction keeps the invariant and the slabs. -/
theorem CacheOk.cacheEvict_extends
    (ok : CacheOk [] cache)
    (returned : cacheEvict cache slabClass = .ok after) :
    CacheOk [] after ∧ Extends cache after := by
  rcases cacheEvict_cases returned with
      ⟨-, rfl⟩ | ⟨victim, code, -, deletion⟩
  · exact ⟨ok, .of_same rfl rfl⟩
  · refine ⟨?_, cacheDelete_extends deletion⟩
    have bounded : (Event.delete victim.storedKey code).Bounded :=
      trivial
    exact (ok.step bounded (bind_eq_ok.mpr ⟨_, deletion, rfl⟩)).1

theorem CacheOk.makeSpace_extends
    (ok : CacheOk [] cache)
    (isClass : IsClass slabClass)
    (returned :
      CacheBench.makeSpace cache slabClass = .ok (result, after)) :
    Extends cache after := by
  rcases makeSpace_cases returned with
      ⟨address, search, -⟩ | ⟨searched, evicted, search, eviction, again⟩
  · exact ok.freeSpace_extends isClass search
  · have searchedOk : CacheOk [] searched := by
      obtain ⟨_, _, expected, found⟩ := ok.freeSpace isClass
      rw [search] at expected
      cases expected
      exact found.ok
    obtain ⟨evictedOk, kept⟩ := searchedOk.cacheEvict_extends eviction
    exact ((ok.freeSpace_extends isClass search).trans kept).trans
      (evictedOk.freeSpace_extends isClass again)

/-- Every call with a bounded value keeps the slabs there are. -/
theorem CacheOk.step_extends
    (ok : CacheOk [] cache)
    {event : Event}
    (bounded : event.Bounded)
    (step : cache.Step event after) :
    Extends cache after := by
  cases event with
  | get key value size =>
      obtain ⟨⟨found, next⟩, returned, rest⟩ := bind_eq_ok.mp step
      cases rest
      rcases cacheGet_cases returned with ⟨-, -, rfl⟩ | ⟨item, -, -, rfl⟩
      · exact .of_same rfl rfl
      · exact .of_same rfl rfl
  | delete key code =>
      obtain ⟨⟨result, next⟩, returned, rest⟩ := bind_eq_ok.mp step
      cases rest
      exact cacheDelete_extends returned
  | set key val valSize code =>
      obtain ⟨⟨result, next⟩, returned, rest⟩ := bind_eq_ok.mp step
      cases rest
      rcases ok.cacheSet_stages bounded returned with
          ⟨-, rfl⟩ | ⟨cleared, spaced, result, -, deletion, clearedOk, space,
            sameMaxmem, sameClasses⟩
      · exact .of_same rfl rfl
      · have spacing :=
          clearedOk.makeSpace_extends (isClass_classOf valSize.toNat) space
        exact ((deleteOld_extends deletion).trans spacing).trans
          (.of_same sameMaxmem sameClasses)

end Growth

/-- The slabs there are stay through every run with bounded values. -/
theorem CacheOk.run_extends
    {cache final : Cache}
    (ok : CacheOk [] cache)
    {history : List Event}
    (run : Run Cache.Step cache history final)
    (bounded : ∀ event ∈ history, event.Bounded) :
    CacheOk [] final ∧ Extends cache final := by
  refine run.invariant
    (fun reached => CacheOk [] reached ∧ Extends cache reached)
    ⟨ok, .of_same rfl rfl⟩ ?_ bounded
  rintro reached event next ⟨reachedOk, extended⟩ eventBounded step
  exact ⟨(reachedOk.step eventBounded step).1,
    extended.trans (reachedOk.step_extends eventBounded step)⟩

/-! ## Classes without a slab -/

section Starved

variable {cache after : Cache} {slabClass : Nat}

/-- The class of a live value has a slab. -/
theorem CacheOk.mem_slabClasses
    (ok : CacheOk [] cache)
    {item : Meta}
    (member : item ∈ cache.metas) :
    item.slabClass ∈ cache.slabManager.slabClasses := by
  obtain ⟨slot, occupied, -⟩ := ok.exists_slot member
  have hasClass := occupied.hasClass
  rw [← slabClasses_getElem?] at hasClass
  exact List.mem_of_getElem? hasClass

/-- A set that returned 0 has left a value of its class. -/
theorem CacheOk.mem_slabClasses_of_set
    (ok : CacheOk [] cache)
    {key : CString}
    {val : Nat → UInt8}
    {valSize : UInt32}
    (bounded : valSize.toNat ≤ memorySize)
    (step : cache.Step (.set key val valSize 0) after) :
    classOf valSize.toNat ∈ after.slabManager.slabClasses := by
  obtain ⟨⟨code, next⟩, returned, rest⟩ := bind_eq_ok.mp step
  cases rest
  obtain ⟨_, _, expected, afterOk, result⟩ :=
    ok.cacheSet key val bounded
  rw [returned] at expected
  cases expected
  cases result with
  | refused refusal =>
      exact absurd rfl (setRefusal_code refusal).1
  | stored accepted clearing clearedOk spacing spacedOk missing filed =>
      exact afterOk.mem_slabClasses
        ((afterStore_metas spacedOk.table _).mem_iff.mpr
          (List.mem_cons_self ..))

/-- A class with a free slot takes a string that fills it, under any key. -/
theorem CacheOk.exists_set
    (ok : CacheOk [] cache)
    (isClass : IsClass slabClass)
    (room :
      cache.slabManager.Exhausted slabClass →
        cache.CanGrow ∧
          Usable (cache.slabManager.blocks cache.slabManager.slabs.length)
            slabClass)
    {key : CString}
    (admitted : Admitted key) :
    ∃ val valSize after,
      valSize.toNat = slabClass ∧
        cache.Step (.set key val valSize 0) after := by
  have positive := isClass.pos
  have small := isClass.le_memorySize
  have isSize : (UInt32.ofNat slabClass).toNat = slabClass := by
    rw [UInt32.toNat_ofNat', Nat.mod_eq_of_lt]
    unfold memorySize at small
    omega
  have isClassOf : classOf (UInt32.ofNat slabClass).toNat = slabClass := by
    rw [isSize]
    exact defaultTable.select_of_mem isClass
  rw [← isSize] at small
  obtain ⟨string, isString⟩ :=
    @isString_letters (slabClass - 1) (UInt32.ofNat slabClass) (by omega)
  have accepted :=
    ok.limits.setRefusal_eq_none admitted small isString
  obtain ⟨code, after, returned, -, stores⟩ :=
    cacheSet_code ok accepted small
  have isZero : code = 0 := by
    rw [stores, isClassOf]
    intro noRoom
    obtain ⟨canGrow, usable⟩ := room noRoom.exhausted
    exact noRoom.firstSlab canGrow usable
  subst isZero
  exact ⟨_, _, after, isSize, bind_eq_ok.mpr ⟨_, returned, rfl⟩⟩

/-- An exhausted class with a slab has a value. -/
theorem CacheOk.exists_value
    (ok : CacheOk [] cache)
    (zeroFilled : ZeroFilled cache.slabManager.blocks)
    (isClass : IsClass slabClass)
    (hasSlab : slabClass ∈ cache.slabManager.slabClasses)
    (exhausted : cache.slabManager.Exhausted slabClass) :
    ∃ item ∈ cache.metas, item.slabClass = slabClass := by
  have positive : 0 < cache.valuesOf slabClass := by
    rw [(ok.exhausted_iff zeroFilled).mp exhausted]
    exact Nat.mul_pos (List.count_pos_iff.mpr hasSlab)
      isClass.capacity_pos
  simpa [Cache.valuesOf, List.countP_pos_iff] using positive

/-- A zero-filled block has a free slot for every class. -/
theorem usable_of_zeroFilled
    {blocks : Nat → Slab}
    (zeroFilled : ZeroFilled blocks)
    (isClass : IsClass slabClass)
    (number : Nat) :
    Usable (blocks number) slabClass := by
  refine ⟨0, isClass.capacity_pos, ?_⟩
  rw [zeroFilled number]
  exact freshBit_zeros _ isClass.capacity_pos

/-- A class that has a slab or can get one can take a value sooner or later. -/
theorem CacheOk.exists_later_set
    (ok : CacheOk [] cache)
    (keysFit : KeysFit cache)
    (zeroFilled : ZeroFilled cache.slabManager.blocks)
    (isClass : IsClass slabClass)
    (hasRoom :
      cache.CanGrow ∨ slabClass ∈ cache.slabManager.slabClasses) :
    ∃ later final key val valSize,
      Run Cache.Step cache later final ∧
        (∀ event ∈ later, event.Bounded) ∧
        Event.set key val valSize 0 ∈ later ∧
        valSize.toNat = slabClass := by
  have bounded {key : CString} {val : Nat → UInt8} {valSize : UInt32}
      (isSize : valSize.toNat = slabClass) :
      (Event.set key val valSize 0).Bounded :=
    fun _ => isSize.trans_le isClass.le_memorySize
  by_cases directly :
      cache.CanGrow ∨ ¬ cache.slabManager.Exhausted slabClass
  · obtain ⟨val, valSize, after, isSize, step⟩ :=
      ok.exists_set isClass
        (fun exhausted =>
          ⟨directly.resolve_right (fun notFull => notFull exhausted),
            usable_of_zeroFilled zeroFilled isClass _⟩)
        (by decide : (CString.ofText "a").length ≤ 32)
    refine ⟨[] ++ [_], after, _, val, valSize, Run.nil.snoc step, ?_,
      List.mem_singleton_self _, isSize⟩
    intro event isEvent
    obtain rfl := List.mem_singleton.mp isEvent
    exact bounded isSize
  · -- The class is full: a value of it is deleted to make room.
    rw [not_or, not_not] at directly
    obtain ⟨full, exhausted⟩ := directly
    obtain ⟨item, member, rfl⟩ :=
      ok.exists_value zeroFilled isClass (hasRoom.resolve_left full)
        exhausted
    have admitted := keysFit.admitted member
    have found :=
      (ok.table.getMeta_eq_some_iff admitted).mpr ⟨member, rfl⟩
    obtain ⟨slabManager, deletion, trimmedOk, freed⟩ :=
      ok.cacheDelete found
    have deleted :
        cache.Step (.delete item.storedKey 0)
          (afterDelete cache item.storedKey slabManager) :=
      bind_eq_ok.mpr ⟨_, deletion, rfl⟩
    obtain ⟨val, valSize, after, isSize, step⟩ :=
      trimmedOk.exists_set isClass
        (fun stillFull => (freed.notExhausted stillFull).elim) admitted
    refine ⟨_ ++ [_], after, _, val, valSize,
      (Run.nil.snoc deleted).snoc step, ?_,
      List.mem_append_right _ (List.mem_singleton_self _), isSize⟩
    intro event isEvent
    rcases List.mem_append.mp isEvent with isDelete | isSet
    · obtain rfl : event = .delete item.storedKey 0 := by
        simpa using isDelete
      trivial
    · obtain rfl := List.mem_singleton.mp isSet
      exact bounded isSize

/--
A class stays without values for ever exactly if the limit has no room for
another slab and none of the slabs has the class: whatever is called from then
on, no value of the class is stored.
-/
theorem class_starved_iff
    {blocks : Nat → Slab}
    (disjoint : DisjointBlocks blocks)
    (zeroFilled : ZeroFilled blocks)
    {maxmem : UInt64}
    {hasher : Option HashFunc}
    {history : List Event}
    (run : Run Cache.Step (createCache blocks maxmem hasher) history cache)
    (fits : ∀ event ∈ history, event.call.key.length ≤ 31)
    (bounded : ∀ event ∈ history, event.Bounded)
    (isClass : IsClass slabClass) :
    (∀ later final key val valSize code,
      Run Cache.Step cache later final →
      (∀ event ∈ later, event.Bounded) →
      .set key val valSize code ∈ later →
      getSlabClass cache.slabManager valSize.toNat = slabClass →
        code ≠ 0) ↔
      ¬ cache.maxmem - cache.size.toUInt64 > UInt64.ofNat getSlabSize ∧
        ∀ slab ∈ cache.slabManager.slabs, slab.slabClass ≠ slabClass := by
  obtain ⟨ok, sameBlocks⟩ := cacheOk_of_run disjoint run bounded
  have keysFit := keysFit_of_run run fits
  have noSlab :
      (∀ slab ∈ cache.slabManager.slabs, slab.slabClass ≠ slabClass) ↔
        slabClass ∉ cache.slabManager.slabClasses := by
    simp [slabClasses]
  have selects := ok.granted.wellFormed.getSlabClass_eq
  rw [expandTest_iff ok.limits, noSlab]
  constructor
  · intro starved
    rw [← not_or]
    intro hasRoom
    rw [← sameBlocks] at zeroFilled
    obtain ⟨later, final, key, val, valSize, laterRun, laterBounded, isSet,
        isSize⟩ := ok.exists_later_set keysFit zeroFilled isClass hasRoom
    refine starved later final key val valSize 0 laterRun laterBounded isSet
      ?_ rfl
    rw [selects, isSize]
    exact defaultTable.select_of_mem isClass
  · rintro ⟨full, missing⟩ later final key val valSize code laterRun
      laterBounded isSet isClassOf rfl
    rw [selects] at isClassOf
    subst isClassOf
    -- The state before and after the set has the slabs there are now.
    obtain ⟨earlier, following, rfl⟩ := List.append_of_mem isSet
    obtain ⟨before, after, earlierRun, step, -⟩ := laterRun.exists_at
    obtain ⟨beforeOk, extended⟩ :=
      ok.run_extends earlierRun fun event member =>
        laterBounded event (by simp [member])
    have setBounded := laterBounded _ isSet
    have stored := beforeOk.mem_slabClasses_of_set (setBounded rfl) step
    rw [(extended.trans (beforeOk.step_extends setBounded step)).same_of_full
      full] at stored
    exact missing stored

/-- One value of a byte takes the only slab from the values of 128 bytes. -/
theorem class_starved_iff_of_128 :
    ∃ history cache,
      history.map Event.call =
          [.set (CString.ofText "a") (bytesAt []) 1] ∧
        Run Cache.Step (createCache zeroBlocks 0 none) history cache ∧
        ∀ later final key val valSize code,
          Run Cache.Step cache later final →
          (∀ event ∈ later, event.Bounded) →
          .set key val valSize code ∈ later →
          getSlabClass cache.slabManager valSize.toNat = 128 →
            code ≠ 0 := by
  obtain ⟨history, cache, calls, run, full⟩ :=
    exists_run (by
      decide +kernel :
      returnsSuch
        ((createCache zeroBlocks 0 none).performAll
          [.set (CString.ofText "a") (bytesAt []) 1])
        (fun result =>
          result.2.slabManager.slabClasses == [64] &&
            !decide
              (result.2.maxmem - result.2.size.toUInt64 >
                UInt64.ofNat getSlabSize)) = true)
  simp only [Bool.and_eq_true, beq_iff_eq, Bool.not_eq_true',
    decide_eq_false_iff_not] at full
  refine ⟨history, cache, calls, run,
    (class_starved_iff zeroBlocks_disjoint (fun _ => rfl) run
      (forall_call (fun call => call.key.length ≤ 31) calls (by decide))
      (bounded_of_calls calls (by decide))
      (by decide : 128 ∈ defaultTable.entries)).mpr
      ⟨full.2, fun slab member isClass => ?_⟩⟩
  have inClasses : 128 ∈ cache.slabManager.slabClasses :=
    List.mem_map.mpr ⟨slab, member, isClass⟩
  rw [full.1] at inClasses
  exact absurd inClasses (by decide)

end Starved

end CacheBench
