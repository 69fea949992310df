import CacheBench.SlotOwnership

namespace CacheBench

open Execution FirstMatch

/-!
# Accesses to the status words

Which elements of `status` each call reads and writes.  The accesses of a
function are given as a list and connected to the function: `allocate_slab` and
`toggle_bit` are the sequence of their assignments, and `get_free_index` depends
on the words in its list only.

A slab of 64 bytes has as many entries as there are bits, and `allocate_slab`
goes on to the word after the last.  Every other access is inside the array.
-/

/-! ## One slab -/

/-- An assignment to `status[index]`. -/
structure Access where
  index : Nat
  update : BitVec 32 → BitVec 32

namespace Access

/-- `status[index] = word`. -/
def store (index : Nat) (word : BitVec 32) : Access where
  index := index
  update := fun _ => word

/-- Carry an assignment out. -/
def perform (slab : Slab) (access : Access) : Outcome Slab := do
  let word ← slab.getStatus access.index
  slab.setStatus access.index (access.update word)

/-- An assignment of a constant does not depend on what was there. -/
theorem perform_store (slab : Slab) (index : Nat) (word : BitVec 32) :
    (store index word).perform slab = slab.setStatus index word := by
  unfold perform store Slab.getStatus Slab.setStatus
  dsimp only
  split_ifs <;> rfl

/-- An assignment that returned left the slab's class alone. -/
theorem slabClass_of_perform
    {slab after : Slab}
    {access : Access}
    (performed : access.perform slab = .ok after) :
    after.slabClass = slab.slabClass := by
  obtain ⟨word, -, stored⟩ := bind_eq_ok.mp performed
  unfold Slab.setStatus at stored
  split_ifs at stored <;> cases stored <;> rfl

theorem slabClass_of_foldlM
    {accesses : List Access}
    {slab after : Slab}
    (performed : accesses.foldlM perform slab = .ok after) :
    after.slabClass = slab.slabClass := by
  induction accesses generalizing slab with
  | nil =>
      cases performed
      rfl
  | cons access rest inductionHypothesis =>
      rw [List.foldlM_cons] at performed
      obtain ⟨next, first, others⟩ := bind_eq_ok.mp performed
      rw [inductionHypothesis others, slabClass_of_perform first]

end Access

/-- The assignments of `allocate_slab`. -/
def allocateSlabAccesses (slabClass : Nat) : List Access :=
  let i := 2 ^ 20 / slabClass / 32
  let remainder := (2 ^ 20 - i * 32 * slabClass) / slabClass
  (List.range' 0 i).map (fun index => .store index 0#32) ++
    (List.range' remainder (32 - remainder)).map
      (fun j => ⟨i, fun word => word ||| 1#32 <<< (31 - j)⟩) ++
    (List.range' (i + 1) (512 - (i + 1))).map
      (fun index => .store index (BitVec.allOnes 32))

/-- The assignment of `toggle_bit`. -/
def toggleBitAccess (bit : Nat) : Access where
  index := bit / 32
  update := fun word => word ^^^ (0x80000000#32 >>> (bit % 32))

theorem toggleBit_eq_perform (slab : Slab) (bit : Nat) :
    toggleBit slab bit = (toggleBitAccess bit).perform slab :=
  rfl

/-- The words `get_free_index` reads, from position `i` on. -/
def getFreeIndexReads : Nat → List (BitVec 32) → List Nat
  | _, [] => []
  | i, word :: rest =>
      i ::
        if word = BitVec.allOnes 32 then
          getFreeIndexReads (i + 1) rest
        else
          []

/-- `allocate_slab` is the sequence of its assignments. -/
theorem allocateSlab_eq_accesses
    (block : Slab)
    {slabClass : Nat}
    (positive : slabClass ≠ 0) :
    allocateSlab block slabClass =
      (allocateSlabAccesses slabClass).foldlM Access.perform
          { block with slabClass := slabClass } >>=
        fun slab => .ok { slab with isFull := 0 } := by
  have remainderInWord :
      ¬ 31 <
        (2 ^ 20 - 2 ^ 20 / slabClass / 32 * 32 * slabClass) /
          slabClass := by
    rw [remainder_eq]
    omega
  rw [allocateSlab, if_neg positive]
  dsimp only
  rw [if_neg remainderInWord, allocateSlabAccesses]
  simp only [List.foldlM_append, List.foldlM_map, Access.perform_store,
    bind_assoc]
  rfl

/-- Every slab that `allocate_slab` returns has the class it was given. -/
theorem slabClass_of_allocateSlab
    {block slab : Slab}
    {slabClass : Nat}
    (allocated : allocateSlab block slabClass = .ok slab) :
    slab.slabClass = slabClass := by
  by_cases positive : slabClass = 0
  · rw [allocateSlab, if_pos positive] at allocated
    cases allocated
  · rw [allocateSlab_eq_accesses block positive] at allocated
    obtain ⟨filled, performed, rest⟩ := bind_eq_ok.mp allocated
    cases rest
    exact Access.slabClass_of_foldlM performed

/-- What `get_free_index` returns depends on the words it reads. -/
theorem getFreeIndexFrom_congr
    {words others : List (BitVec 32)}
    (sameLength : others.length = words.length)
    (i : Nat)
    (same :
      ∀ index, i + index ∈ getFreeIndexReads i words →
        others[index]? = words[index]?) :
    getFreeIndexFrom i others = getFreeIndexFrom i words := by
  induction words generalizing others i with
  | nil =>
      rw [List.length_nil, List.length_eq_zero_iff] at sameLength
      rw [sameLength]
  | cons word rest inductionHypothesis =>
      cases others with
      | nil =>
          simp at sameLength
      | cons other otherRest =>
          have sameWord : other = word := by
            simpa using same 0 (by simp [getFreeIndexReads])
          subst sameWord
          by_cases isFull : other = BitVec.allOnes 32
          · rw [getFreeIndexFrom, getFreeIndexFrom, if_pos isFull,
              if_pos isFull]
            refine inductionHypothesis (by simpa using sameLength) (i + 1)
              fun index isRead => ?_
            have later := same (index + 1) (by
              rw [getFreeIndexReads, if_pos isFull]
              refine List.mem_cons_of_mem i ?_
              rwa [Nat.add_comm index 1, ← Nat.add_assoc])
            simpa using later
          · rw [getFreeIndexFrom, getFreeIndexFrom, if_neg isFull,
              if_neg isFull]

/-! ## The indices of a call -/

/-- The indices used after a computation that returned. -/
def afterwards
    {α : Type}
    (outcome : Outcome α)
    (indices : α → List Nat) :
    List Nat :=
  match outcome with
  | .ok result => indices result
  | .error _ => []

/-- The indices `get_address` uses, at most `calls` calls deep. -/
def getAddressIndicesWithin : (calls : Nat) → Manager → Nat → List Nat
  | 0, _, _ => []
  | calls + 1, man, valSize =>
      let slabClass := getSlabClass man valSize
      match getSlab man slabClass with
      | none => []
      | some slab =>
          let i := getFreeIndex slab
          getFreeIndexReads 0 slab.status.toList ++
            if i = 0 then
              getAddressIndicesWithin calls
                { man with
                  slabs := llUpdate isOpen man.slabs slabClass
                    fun _ => { slab with isFull := 1 } }
                valSize
            else
              [(toggleBitAccess (i - 1)).index]

/-- The indices `get_address` uses. -/
def getAddressIndices (man : Manager) (valSize : Nat) : List Nat :=
  getAddressIndicesWithin (man.slabs.length + 1) man valSize

/-- The index `man_delete` uses, through `slab_delete` and `toggle_bit`. -/
def manDeleteIndices (man : Manager) (valPtr : Nat) : List Nat :=
  match llFind findVal man.slabs valPtr with
  | none => []
  | some toAdjust =>
      if toAdjust.slabClass = 0 then
        []
      else
        [(toggleBitAccess
          ((valPtr - toAdjust.addr) / toAdjust.slabClass)).index]

/-- The indices `cache_delete` uses. -/
def cacheDeleteIndices (cache : Cache) (key : CString) : List Nat :=
  match getMeta cache key with
  | none => []
  | some keyLoc => manDeleteIndices cache.slabManager keyLoc.address

/-- The indices `cache_evict` uses. -/
def cacheEvictIndices (cache : Cache) (slabClass : Nat) : List Nat :=
  match findVictim cache slabClass with
  | none => []
  | some maxMeta => cacheDeleteIndices cache maxMeta.storedKey

/-- The indices `expand_cache` uses. -/
def expandCacheIndices (cache : Cache) (slabClass : Nat) : List Nat :=
  if cache.maxmem - cache.size.toUInt64 > UInt64.ofNat getSlabSize then
    (allocateSlabAccesses slabClass).map Access.index
  else
    []

/-- The indices `free_space` uses. -/
def freeSpaceIndices (cache : Cache) (slabClass : Nat) : List Nat :=
  getAddressIndices cache.slabManager slabClass ++
    afterwards (getAddress cache.slabManager slabClass) fun result =>
      match result.1 with
      | some _ => []
      | none =>
          let cache := { cache with slabManager := result.2 }
          if cache.size.toUInt64 < cache.maxmem then
            expandCacheIndices cache slabClass ++
              afterwards (expandCache cache slabClass) fun grown =>
                getAddressIndices grown.slabManager slabClass
          else
            []

/-- The indices used while `cache_set` looks for space. -/
def makeSpaceIndices (cache : Cache) (slabClass : Nat) : List Nat :=
  freeSpaceIndices cache slabClass ++
    afterwards (freeSpace cache slabClass) fun result =>
      match result.1 with
      | some _ => []
      | none =>
          cacheEvictIndices result.2 slabClass ++
            afterwards (cacheEvict result.2 slabClass) fun evicted =>
              freeSpaceIndices evicted slabClass

/-- The indices used while `cache_set` deletes the old value. -/
def deleteOldIndices (cache : Cache) (key : CString) : List Nat :=
  match getMeta cache key with
  | none => []
  | some _ => cacheDeleteIndices cache key

/-- The indices a call uses. -/
def Cache.statusIndices (cache : Cache) : Call → List Nat
  | .set key val valSize =>
      match setRefusal cache key val valSize with
      | some _ => []
      | none =>
          deleteOldIndices cache key ++
            afterwards (deleteOld cache key) fun cleared =>
              makeSpaceIndices cleared
                (getSlabClass cleared.slabManager valSize.toNat)
  | .get _ => []
  | .delete key => cacheDeleteIndices cache key

/-! ## Slabs added and indices used -/

/-- The classes of the slabs, in the order they were added. -/
def Manager.slabClasses (man : Manager) : List Nat :=
  man.slabs.map Slab.slabClass

/--
Slabs were added, if any, and an index was out of bounds exactly if one of them
has the class of 64 bytes.
-/
def Accounts
    (before after : Manager)
    (indices : List Nat) : Prop :=
  ∃ added,
    after.slabClasses = before.slabClasses ++ added ∧
      ((∀ index ∈ indices, index < 512) ↔ 64 ∉ added)

namespace Accounts

variable {first second third : Manager} {indices later : List Nat}

/-- Nothing is added and every index is in bounds. -/
theorem of_same
    (same : second.slabClasses = first.slabClasses)
    (inBounds : ∀ index ∈ indices, index < 512) :
    Accounts first second indices :=
  ⟨[], by rw [same, List.append_nil], by simpa using inBounds⟩

/-- Nothing is done. -/
theorem refl (man : Manager) : Accounts man man [] :=
  of_same rfl (by simp)

/-- What comes after may change anything but the slabs' classes. -/
theorem of_eq
    (accounts : Accounts first second indices)
    (same : third.slabClasses = second.slabClasses) :
    Accounts first third indices := by
  obtain ⟨added, classes, bounds⟩ := accounts
  exact ⟨added, same.trans classes, bounds⟩

/-- One after the other. -/
theorem trans
    (before : Accounts first second indices)
    (after : Accounts second third later) :
    Accounts first third (indices ++ later) := by
  obtain ⟨added, classes, bounds⟩ := before
  obtain ⟨addedLater, classesLater, boundsLater⟩ := after
  refine ⟨added ++ addedLater, ?_, ?_⟩
  · rw [classesLater, classes, List.append_assoc]
  · rw [List.mem_append, not_or, ← bounds, ← boundsLater,
      List.forall_mem_append]

end Accounts

/-- `get_free_index` reads words of the array only. -/
theorem lt_of_mem_getFreeIndexReads
    {words : List (BitVec 32)}
    {i index : Nat}
    (isRead : index ∈ getFreeIndexReads i words) :
    index < i + words.length := by
  induction words generalizing i with
  | nil =>
      cases isRead
  | cons word rest inductionHypothesis =>
      rw [List.length_cons]
      rcases List.mem_cons.mp isRead with rfl | later
      · omega
      · split at later
        · have inRest := inductionHypothesis later
          omega
        · cases later

/-- `get_address` adds no slab and stays in bounds. -/
theorem getAddressWithin_accounts
    {calls : Nat}
    {man after : Manager}
    {valSize : Nat}
    {result : Option Nat}
    (returned :
      getAddressWithin calls man valSize = .ok (result, after)) :
    Accounts man after (getAddressIndicesWithin calls man valSize) := by
  induction calls generalizing man with
  | zero =>
      cases returned
  | succ calls inductionHypothesis =>
      unfold getAddressWithin at returned
      unfold getAddressIndicesWithin
      dsimp only at returned ⊢
      cases search : getSlab man (getSlabClass man valSize) with
      | none =>
          rw [search] at returned
          cases returned
          exact .refl _
      | some slab =>
          rw [search] at returned
          dsimp only at returned ⊢
          have reads :
              ∀ index ∈ getFreeIndexReads 0 slab.status.toList,
                index < 512 := by
            intro index isRead
            simpa using lt_of_mem_getFreeIndexReads isRead
          by_cases noneFree : getFreeIndex slab = 0
          · rw [if_pos noneFree] at returned ⊢
            refine .trans (.of_same ?_ reads)
              (inductionHypothesis returned)
            exact map_updateFirst_of_find? search rfl
          · rw [if_neg noneFree] at returned ⊢
            obtain ⟨reserved, toggled, rest⟩ := bind_eq_ok.mp returned
            cases rest
            have inBounds := (isFirstClear_of_getFreeIndex noneFree).1
            rw [toggleBit_eq_perform] at toggled
            refine .of_same ?_ ?_
            · exact map_updateFirst_of_find? search
                (Access.slabClass_of_perform toggled)
            · intro index used
              rcases List.mem_append.mp used with isRead | isToggled
              · exact reads index isRead
              · rw [List.mem_singleton.mp isToggled]
                change (getFreeIndex slab - 1) / 32 < 512
                unfold statusBits statusWords at inBounds
                omega

theorem getAddress_accounts
    {man after : Manager}
    {valSize : Nat}
    {result : Option Nat}
    (returned : getAddress man valSize = .ok (result, after)) :
    Accounts man after (getAddressIndices man valSize) :=
  getAddressWithin_accounts returned

/-- `allocate_slab` leaves the array for the smallest class only. -/
theorem allocateSlabAccesses_lt_iff
    {slabClass : Nat}
    (isClass : IsClass slabClass) :
    (∀ index ∈ (allocateSlabAccesses slabClass).map Access.index,
        index < 512) ↔
      slabClass ≠ 64 := by
  constructor
  · rintro inBounds rfl
    exact absurd (inBounds 512 (by decide +kernel)) (by decide)
  · intro notSmallest
    have large : 128 ≤ slabClass :=
      (by decide :
        ∀ entry ∈ defaultTable.entries, entry ≠ 64 → 128 ≤ entry)
        slabClass isClass notSmallest
    have words : 2 ^ 20 / slabClass / 32 ≤ 256 :=
      Nat.div_le_div_right (Nat.div_le_div_left large (by decide))
    intro index used
    simp only [allocateSlabAccesses, List.map_append, List.map_map,
      List.mem_append, List.mem_map, Function.comp_apply,
      List.mem_range'_1, Access.store] at used
    rcases used with (⟨position, inside, rfl⟩ | ⟨mark, -, rfl⟩) |
      ⟨position, inside, rfl⟩ <;> omega

/-- Adding a slab. -/
theorem slabAdd_accounts
    {man after : Manager}
    {slabClass : Nat}
    (isClass : IsClass slabClass)
    (returned : slabAdd man slabClass = .ok after) :
    Accounts man after
      ((allocateSlabAccesses slabClass).map Access.index) := by
  obtain ⟨slab, allocated, rest⟩ := bind_eq_ok.mp returned
  cases rest
  obtain ⟨expected, allocation, spec⟩ :=
    allocateSlab_spec (man.blocks man.slabs.length) isClass.smallest
  rw [allocated, Except.ok.injEq] at allocation
  subst expected
  refine ⟨[slabClass], ?_, ?_⟩
  · simp [Manager.slabClasses, llAppend, spec.slabClass]
  · rw [allocateSlabAccesses_lt_iff isClass, List.mem_singleton]
    exact ⟨fun different same => different same.symm,
      fun different same => different same.symm⟩

theorem expandCache_accounts
    {cache after : Cache}
    {slabClass : Nat}
    (isClass : IsClass slabClass)
    (returned : expandCache cache slabClass = .ok after) :
    Accounts cache.slabManager after.slabManager
      (expandCacheIndices cache slabClass) := by
  unfold expandCacheIndices
  rcases expandCache_cases returned with
      ⟨slabManager, grows, added, rfl⟩ | ⟨stays, rfl⟩
  · rw [if_pos grows]
    exact slabAdd_accounts isClass added
  · rw [if_neg stays]
    exact .refl _

/-- `free_space` accounts for its indices. -/
theorem freeSpace_accounts
    {cache after : Cache}
    {slabClass : Nat}
    (isClass : IsClass slabClass)
    {result : Option Nat}
    (returned : freeSpace cache slabClass = .ok (result, after)) :
    Accounts cache.slabManager after.slabManager
      (freeSpaceIndices cache slabClass) := by
  obtain ⟨first, searched, probed, ways⟩ := freeSpace_cases returned
  unfold freeSpaceIndices
  rw [probed]
  refine (getAddress_accounts probed).trans ?_
  dsimp only [afterwards]
  rcases ways with found | atLimit | grew
  · obtain ⟨address, rfl, -, rfl⟩ := found
    exact .refl _
  · obtain ⟨rfl, notBelow, -, rfl⟩ := atLimit
    rw [if_neg notBelow]
    exact .refl _
  · obtain ⟨grown, later, rfl, below, expansion, again, rfl⟩ := grew
    rw [if_pos below, expansion]
    exact (expandCache_accounts isClass expansion).trans
      (getAddress_accounts again)

/-- Managers that agree on the class at every position. -/
theorem slabClasses_of_classAt
    {man other : Manager}
    (same : ∀ number, other.classAt number = man.classAt number) :
    other.slabClasses = man.slabClasses := by
  apply List.ext_getElem?
  intro number
  rw [Manager.slabClasses, Manager.slabClasses, List.getElem?_map,
    List.getElem?_map]
  exact same number

section Calls

variable {cache after : Cache} {key : CString}

/-- A live value has its bit in the array. -/
theorem CacheOk.manDeleteIndices_lt
    (ok : CacheOk [] cache)
    {item : Meta}
    (member : item ∈ cache.metas)
    {index : Nat}
    (used : index ∈ manDeleteIndices cache.slabManager item.address) :
    index < 512 := by
  obtain ⟨⟨number, slot⟩, occupied, address⟩ := ok.exists_slot member
  obtain ⟨slab, present, slabHasClass⟩ :=
    Manager.exists_of_classAt occupied.hasClass
  have wellFormed := ok.granted.wellFormed
  have isClass : IsClass item.slabClass :=
    slabHasClass ▸ (wellFormed.slabOk present).isClass
  have inCapacity := occupied.inCapacity
  obtain ⟨lower, upper, difference, -⟩ :=
    wellFormed.slot_in_block present slabHasClass inCapacity isClass.pos
  rw [Nat.add_zero] at lower upper difference
  obtain ⟨found, -⟩ := wellFormed.laid.find_block present lower upper
  have bounded := capacity_le_statusBits isClass.smallest
  unfold statusBits statusWords at bounded
  rw [address, manDeleteIndices, found] at used
  dsimp only at used inCapacity
  rw [slabHasClass, if_neg (Nat.ne_of_gt isClass.pos),
    List.mem_singleton] at used
  have isSlot :
      (cache.slabManager.slotAddress number item.slabClass slot -
          slab.addr) / item.slabClass =
        slot := by
    rw [difference]
    exact isClass.slot_div slot
  rw [used]
  change
    (cache.slabManager.slotAddress number item.slabClass slot -
      slab.addr) / item.slabClass / 32 < 512
  rw [isSlot]
  omega

/-- `man_delete` adds no slab, whatever the address. -/
theorem manDelete_slabClasses
    {man newMan : Manager}
    {valPtr : Nat}
    (returned : manDelete man valPtr = .ok newMan) :
    newMan.slabClasses = man.slabClasses := by
  unfold manDelete at returned
  cases search : llFind findVal man.slabs valPtr with
  | none =>
      rw [search] at returned
      cases returned
      rfl
  | some toAdjust =>
      rw [search] at returned
      dsimp only at returned
      split at returned
      · cases returned
      · obtain ⟨adjusted, deletion, rest⟩ := bind_eq_ok.mp returned
        cases rest
        obtain ⟨toggled, toggling, rest⟩ := bind_eq_ok.mp deletion
        cases rest
        rw [toggleBit_eq_perform] at toggling
        have sameClass := Access.slabClass_of_perform toggling
        exact map_updateFirst_of_find? search sameClass

theorem cacheDelete_slabClasses
    {code : UInt8}
    (returned : cacheDelete cache key = .ok (code, after)) :
    after.slabManager.slabClasses = cache.slabManager.slabClasses := by
  rcases cacheDelete_cases returned with
      ⟨-, -, rfl⟩ | ⟨item, slabManager, -, freed, -, rfl⟩
  · rfl
  · exact manDelete_slabClasses freed

/-- Deleting a key adds no slab and stays in bounds. -/
theorem CacheOk.cacheDelete_accounts
    (ok : CacheOk [] cache)
    {code : UInt8}
    (returned : CacheBench.cacheDelete cache key = .ok (code, after)) :
    Accounts cache.slabManager after.slabManager
      (cacheDeleteIndices cache key) := by
  refine .of_same (cacheDelete_slabClasses returned) ?_
  intro index used
  unfold cacheDeleteIndices at used
  cases search : getMeta cache key with
  | none =>
      rw [search] at used
      cases used
  | some item =>
      rw [search] at used
      exact ok.manDeleteIndices_lt (getMeta_sound search).1 used

theorem CacheOk.deleteOld_accounts
    (ok : CacheOk [] cache)
    (returned : CacheBench.deleteOld cache key = .ok after) :
    Accounts cache.slabManager after.slabManager
      (deleteOldIndices cache key) := by
  unfold deleteOldIndices
  rcases deleteOld_cases returned with
      ⟨missing, rfl⟩ | ⟨item, code, present, deletion⟩
  · rw [missing]
    exact .refl _
  · rw [present]
    exact ok.cacheDelete_accounts deletion

theorem CacheOk.cacheEvict_accounts
    (ok : CacheOk [] cache)
    {slabClass : Nat}
    (returned : cacheEvict cache slabClass = .ok after) :
    Accounts cache.slabManager after.slabManager
      (cacheEvictIndices cache slabClass) := by
  unfold cacheEvictIndices
  rcases cacheEvict_cases returned with
      ⟨noVictim, rfl⟩ | ⟨victim, code, chosen, deletion⟩
  · rw [noVictim]
    exact .refl _
  · rw [chosen]
    exact ok.cacheDelete_accounts deletion

/-- Making space accounts for its indices. -/
theorem CacheOk.makeSpace_accounts
    (ok : CacheOk [] cache)
    {slabClass : Nat}
    (isClass : IsClass slabClass)
    {result : Option Nat}
    (returned :
      CacheBench.makeSpace cache slabClass = .ok (result, after)) :
    Accounts cache.slabManager after.slabManager
      (makeSpaceIndices cache slabClass) := by
  unfold makeSpaceIndices
  rcases makeSpace_cases returned with
      ⟨address, search, -⟩ | ⟨searched, evicted, search, eviction, again⟩
  · rw [search]
    exact (freeSpace_accounts isClass search).trans (.refl _)
  · have searchedOk : CacheOk [] searched := by
      obtain ⟨first, found, expected, spec⟩ := ok.freeSpace isClass
      rw [search] at expected
      cases expected
      exact spec.ok
    rw [search]
    refine (freeSpace_accounts isClass search).trans ?_
    dsimp only [afterwards]
    rw [eviction]
    exact (searchedOk.cacheEvict_accounts eviction).trans
      (freeSpace_accounts isClass again)

/--
The stages of a set that stores no more than 2^20 bytes: after space was made
for the value, the slabs and the limit stay.
-/
theorem CacheOk.cacheSet_stages
    (ok : CacheOk [] cache)
    {val : Nat → UInt8}
    {valSize : UInt32}
    {code : UInt8}
    (bounded : code = 0 → valSize.toNat ≤ memorySize)
    (returned :
      CacheBench.cacheSet cache key val valSize = .ok (code, after)) :
    (setRefusal cache key val valSize = some code ∧ after = cache) ∨
      ∃ cleared spaced result,
        setRefusal cache key val valSize = none ∧
          CacheBench.deleteOld cache key = .ok cleared ∧
          CacheOk [] cleared ∧
          CacheBench.makeSpace cleared (classOf valSize.toNat) =
            .ok (result, spaced) ∧
          after.maxmem = spaced.maxmem ∧
          after.slabManager.slabClasses =
            spaced.slabManager.slabClasses := by
  rcases cacheSet_cases returned with
      ⟨refusal, rfl⟩ | ⟨cleared, spaced, result, accepted, deletion, space,
        rest⟩
  · exact Or.inl ⟨refusal, rfl⟩
  obtain ⟨_, clearing, clearedOk, wasCleared⟩ := ok.deleteOld key
  rw [deletion] at clearing
  cases clearing
  rw [clearedOk.granted.wellFormed.getSlabClass_eq] at space rest
  refine Or.inr ⟨cleared, spaced, result, accepted, deletion, clearedOk,
    space, ?_⟩
  rcases rest with ⟨-, -, rfl⟩ | ⟨address, rfl, storing, stores⟩
  · exact ⟨rfl, rfl⟩
  · have admitted := admitted_of_setRefusal accepted
    obtain ⟨_, _, searching, spacedOk, -⟩ :=
      clearedOk.makeSpace (isClass_classOf valSize.toNat)
    rw [space] at searching
    cases searching
    obtain ⟨-, missing⟩ :=
      makeSpace_moves clearedOk.table admitted space
        (wasCleared.missing ok admitted)
    obtain ⟨slabManager, -, stored, -, filed⟩ :=
      CacheOk.storeValue spacedOk admitted missing (bounded stores) val
    rw [storing] at stored
    cases stored
    exact ⟨rfl, slabClasses_of_classAt filed.status.classAt⟩

/-- A set that stores no more than 2^20 bytes accounts for its indices. -/
theorem CacheOk.cacheSet_accounts
    (ok : CacheOk [] cache)
    {val : Nat → UInt8}
    {valSize : UInt32}
    {code : UInt8}
    (bounded : code = 0 → valSize.toNat ≤ memorySize)
    (returned :
      CacheBench.cacheSet cache key val valSize = .ok (code, after)) :
    Accounts cache.slabManager after.slabManager
      (cache.statusIndices (.set key val valSize)) := by
  dsimp only [Cache.statusIndices]
  rcases ok.cacheSet_stages bounded returned with
      ⟨refusal, rfl⟩ | ⟨cleared, spaced, result, accepted, deletion,
        clearedOk, space, -, sameClasses⟩
  · rw [refusal]
    exact .refl _
  · rw [accepted, deletion]
    dsimp only [afterwards]
    rw [clearedOk.granted.wellFormed.getSlabClass_eq]
    have spacing :=
      clearedOk.makeSpace_accounts (isClass_classOf valSize.toNat) space
    exact (ok.deleteOld_accounts deletion).trans
      (spacing.of_eq sameClasses)

/-- Every call that stores a bounded value accounts for its indices. -/
theorem CacheOk.step_accounts
    (ok : CacheOk [] cache)
    {event : Event}
    (bounded : event.Bounded)
    (step : cache.Step event after) :
    Accounts cache.slabManager after.slabManager
      (cache.statusIndices event.call) := by
  cases event with
  | set key val valSize code =>
      obtain ⟨⟨result, next⟩, returned, rest⟩ := bind_eq_ok.mp step
      cases rest
      exact ok.cacheSet_accounts bounded returned
  | get key value size =>
      obtain ⟨⟨found, next⟩, returned, rest⟩ := bind_eq_ok.mp step
      cases rest
      rcases cacheGet_cases returned with
          ⟨-, -, rfl⟩ | ⟨item, present, -, rfl⟩
      · exact .refl _
      · exact .refl _
  | delete key code =>
      obtain ⟨⟨result, next⟩, returned, rest⟩ := bind_eq_ok.mp step
      cases rest
      exact ok.cacheDelete_accounts returned

end Calls

end CacheBench
