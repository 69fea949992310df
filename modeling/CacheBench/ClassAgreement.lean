import CacheBench.CacheGrowth
import CacheBench.StatusAccess

namespace CacheBench

open FirstMatch

/-!
# One class for a value

`cache_set` selects a class for the size of a value and from then on passes the
class where a size is expected: `get_address` selects again, for the class, and
searches the slabs of what it gets.  On every class table the second selection
returns the class it was given.  No call changes the table, so a slab that
`expand_cache` adds is one that `get_address` searches, and the meta records
its class.

Nothing is assumed of the slabs or of the metas of the cache.
-/

/-! ## The classes searched for -/

/-- The classes `get_address` searches for, at most `calls` calls deep. -/
def getAddressSearchesWithin : (calls : Nat) → Manager → Nat → List Nat
  | 0, _, _ => []
  | calls + 1, man, valSize =>
      let slabClass := getSlabClass man valSize
      slabClass ::
        match getSlab man slabClass with
        | none => []
        | some slab =>
            if getFreeIndex slab = 0 then
              getAddressSearchesWithin calls
                { man with
                  slabs := llUpdate isOpen man.slabs slabClass
                    fun _ => { slab with isFull := 1 } }
                valSize
            else
              []

/-- The classes `get_address` searches for. -/
def getAddressSearches (man : Manager) (valSize : Nat) : List Nat :=
  getAddressSearchesWithin (man.slabs.length + 1) man valSize

/-- The classes searched for during `free_space`. -/
def freeSpaceSearches (cache : Cache) (slabClass : Nat) : List Nat :=
  getAddressSearches cache.slabManager slabClass ++
    afterwards (getAddress cache.slabManager slabClass) fun result =>
      match result.1 with
      | some _ => []
      | none =>
          let cache := { cache with slabManager := result.2 }
          if cache.size.toUInt64 < cache.maxmem then
            afterwards (expandCache cache slabClass) fun grown =>
              getAddressSearches grown.slabManager slabClass
          else
            []

/-- The classes searched for while `cache_set` looks for space. -/
def makeSpaceSearches (cache : Cache) (slabClass : Nat) : List Nat :=
  freeSpaceSearches cache slabClass ++
    afterwards (freeSpace cache slabClass) fun result =>
      match result.1 with
      | some _ => []
      | none =>
          afterwards (cacheEvict result.2 slabClass) fun evicted =>
            freeSpaceSearches evicted slabClass

/-- The classes `cache_set` searches for. -/
def cacheSetSearches
    (cache : Cache)
    (key : CString)
    (val : Nat → UInt8)
    (valSize : UInt32) :
    List Nat :=
  match setRefusal cache key val valSize with
  | some _ => []
  | none =>
      afterwards (deleteOld cache key) fun cleared =>
        makeSpaceSearches cleared
          (getSlabClass cleared.slabManager valSize.toNat)

section Searches

variable {man : Manager} {cache : Cache} {slabClass searched : Nat}

/-- What is used after a computation is used after a result of it. -/
theorem mem_afterwards
    {α : Type}
    {outcome : Outcome α}
    {indices : α → List Nat}
    {index : Nat}
    (used : index ∈ afterwards outcome indices) :
    ∃ result, outcome = .ok result ∧ index ∈ indices result := by
  cases outcome with
  | ok result => exact ⟨result, rfl, used⟩
  | error fault => cases used

/-- Managers with the same table select the same class. -/
theorem getSlabClass_of_source
    {after : Manager}
    (same : after.source = man.source)
    (size : Nat) :
    getSlabClass after size = getSlabClass man size :=
  congrArg (getSlabClassFrom size 0) (Prod.mk.inj same).1

/-- All calls of `get_address` search for one class. -/
theorem eq_of_mem_getAddressSearchesWithin
    {calls valSize : Nat}
    (isSearched : searched ∈ getAddressSearchesWithin calls man valSize) :
    searched = getSlabClass man valSize := by
  induction calls generalizing man with
  | zero =>
      cases isSearched
  | succ calls inductionHypothesis =>
      rw [getAddressSearchesWithin] at isSearched
      rcases List.mem_cons.mp isSearched with isFirst | isLater
      · exact isFirst
      · split at isLater
        · cases isLater
        · split at isLater
          · have sameClass := inductionHypothesis isLater
            exact sameClass
          · cases isLater

/-- `free_space` searches for its class if selection returns that class. -/
theorem eq_of_mem_freeSpaceSearches
    (selects : getSlabClass cache.slabManager slabClass = slabClass)
    (isSearched : searched ∈ freeSpaceSearches cache slabClass) :
    searched = slabClass := by
  rcases List.mem_append.mp isSearched with isFirst | isLater
  · rw [eq_of_mem_getAddressSearchesWithin isFirst, selects]
  · obtain ⟨⟨result, slabManager⟩, search, used⟩ := mem_afterwards isLater
    have sameSource := getAddressWithin_source search
    cases result with
    | some address =>
        cases used
    | none =>
        dsimp only at used
        split at used
        · obtain ⟨grown, expansion, again⟩ := mem_afterwards used
          have grownSource := (expandCache_source expansion).trans sameSource
          rw [eq_of_mem_getAddressSearchesWithin again,
            getSlabClass_of_source grownSource, selects]
        · cases used

theorem eq_of_mem_makeSpaceSearches
    (selects : getSlabClass cache.slabManager slabClass = slabClass)
    (isSearched : searched ∈ makeSpaceSearches cache slabClass) :
    searched = slabClass := by
  rcases List.mem_append.mp isSearched with isFirst | isLater
  · exact eq_of_mem_freeSpaceSearches selects isFirst
  · obtain ⟨⟨result, spaced⟩, search, used⟩ := mem_afterwards isLater
    cases result with
    | some address =>
        cases used
    | none =>
        obtain ⟨evicted, eviction, again⟩ := mem_afterwards used
        have evictedSource :=
          (cacheEvict_source eviction).trans (freeSpace_source search)
        refine eq_of_mem_freeSpaceSearches ?_ again
        rw [getSlabClass_of_source evictedSource, selects]

end Searches

/-! ## The classes of the slabs added -/

/-- Slabs of one class were added at the end, if any. -/
def OnlyAdds (man : Manager) (slabClass : Nat) (after : Manager) : Prop :=
  ∃ count,
    after.slabClasses =
      man.slabClasses ++ List.replicate count slabClass

namespace OnlyAdds

variable {man after : Manager} {slabClass : Nat}

theorem of_same (same : after.slabClasses = man.slabClasses) :
    OnlyAdds man slabClass after :=
  ⟨0, by rw [same, List.replicate_zero, List.append_nil]⟩

theorem trans
    {third : Manager}
    (earlier : OnlyAdds man slabClass after)
    (later : OnlyAdds after slabClass third) :
    OnlyAdds man slabClass third := by
  obtain ⟨count, classes⟩ := earlier
  obtain ⟨more, laterClasses⟩ := later
  refine ⟨count + more, ?_⟩
  rw [laterClasses, classes, List.append_assoc, List.replicate_add]

end OnlyAdds

section Slabs

variable {man newMan : Manager} {cache after : Cache}
variable {result : Option Nat} {slabClass : Nat}

/-- `get_address` adds no slab. -/
theorem getAddress_slabClasses
    {valSize : Nat}
    (returned : getAddress man valSize = .ok (result, newMan)) :
    newMan.slabClasses = man.slabClasses := by
  obtain ⟨_, _, expected, same, -⟩ :=
    @Manager.getAddress_reserves _ valSize man rfl
  rw [returned] at expected
  cases expected
  exact slabClasses_of_classAt same.sameStore.classAt

theorem deleteOld_slabClasses
    {key : CString}
    (returned : deleteOld cache key = .ok after) :
    after.slabManager.slabClasses = cache.slabManager.slabClasses := by
  rcases deleteOld_cases returned with ⟨-, rfl⟩ | ⟨item, code, -, deletion⟩
  · rfl
  · exact cacheDelete_slabClasses deletion

theorem cacheEvict_slabClasses
    (returned : cacheEvict cache slabClass = .ok after) :
    after.slabManager.slabClasses = cache.slabManager.slabClasses := by
  rcases cacheEvict_cases returned with
      ⟨-, rfl⟩ | ⟨victim, code, -, deletion⟩
  · rfl
  · exact cacheDelete_slabClasses deletion

/-- A slab that `expand_cache` adds has the class it is given. -/
theorem expandCache_onlyAdds
    (returned : expandCache cache slabClass = .ok after) :
    OnlyAdds cache.slabManager slabClass after.slabManager := by
  rcases expandCache_cases returned with
      ⟨slabManager, -, added, rfl⟩ | ⟨-, rfl⟩
  · obtain ⟨slab, allocated, rest⟩ := bind_eq_ok.mp added
    cases rest
    refine ⟨1, ?_⟩
    simp [Manager.slabClasses, llAppend,
      slabClass_of_allocateSlab allocated]
  · exact .of_same rfl

theorem freeSpace_onlyAdds
    (returned : freeSpace cache slabClass = .ok (result, after)) :
    OnlyAdds cache.slabManager slabClass after.slabManager := by
  obtain ⟨first, searched, search, found | atLimit | grew⟩ :=
    freeSpace_cases returned
  · obtain ⟨address, -, -, rfl⟩ := found
    exact .of_same (getAddress_slabClasses search)
  · obtain ⟨-, -, -, rfl⟩ := atLimit
    exact .of_same (getAddress_slabClasses search)
  · obtain ⟨grown, later, -, -, expansion, again, rfl⟩ := grew
    have firstSearch : OnlyAdds cache.slabManager slabClass searched :=
      .of_same (getAddress_slabClasses search)
    exact (firstSearch.trans (expandCache_onlyAdds expansion)).trans
      (.of_same (getAddress_slabClasses again))

theorem makeSpace_onlyAdds
    (returned : makeSpace cache slabClass = .ok (result, after)) :
    OnlyAdds cache.slabManager slabClass after.slabManager := by
  rcases makeSpace_cases returned with
      ⟨address, search, -⟩ | ⟨searched, evicted, search, eviction, again⟩
  · exact freeSpace_onlyAdds search
  · exact ((freeSpace_onlyAdds search).trans
      (.of_same (cacheEvict_slabClasses eviction))).trans
        (freeSpace_onlyAdds again)

end Slabs

/-! ## Agreement -/

/-- The least class that is large enough, or the largest if none is. -/
structure ClassTable.Tightest
    {classes : List Nat}
    (table : ClassTable classes)
    (size slabClass : Nat) : Prop where
  isEntry : slabClass ∈ table.entries
  least :
    ∀ entry ∈ table.entries, size ≤ entry →
      size ≤ slabClass ∧ slabClass ≤ entry
  largest :
    (∀ entry ∈ table.entries, entry < size) →
      ∀ entry ∈ table.entries, entry ≤ slabClass

/-- Selection on a table is tight. -/
theorem ClassTable.tightest
    {classes : List Nat}
    (table : ClassTable classes)
    (size : Nat) :
    table.Tightest size (getSlabClassFrom size 0 classes) := by
  refine ⟨table.select_mem size, ?_, ?_⟩
  · intro entry member fits
    exact ⟨table.le_select (fits.trans (table.le_largest member)),
      table.select_le member fits⟩
  · intro tooSmall entry member
    have above : table.largest < size :=
      tooSmall _ (List.getLast_mem table.nonempty)
    rw [table.select_of_largest_lt above]
    exact table.le_largest member

/--
Selection returns the tightest class, also for a class.  During `cache_set` the
class is the one searched for by every call of `get_address` and that of every
slab that is added, and the meta is filed with it.
-/
theorem class_of_value_agrees
    {cache : Cache}
    (table : ClassTable cache.slabManager.classes)
    (valSize : UInt32) :
    let slabClass := getSlabClass cache.slabManager valSize.toNat
    table.Tightest valSize.toNat slabClass ∧
      getSlabClass cache.slabManager slabClass = slabClass ∧
      ∀ key val,
        (∀ searched ∈ cacheSetSearches cache key val valSize,
          searched = slabClass) ∧
          ∀ code after,
            cacheSet cache key val valSize = .ok (code, after) →
            setRefusal cache key val valSize = none →
              ∃ cleared result spaced,
                deleteOld cache key = .ok cleared ∧
                  makeSpace cleared slabClass = .ok (result, spaced) ∧
                  OnlyAdds cache.slabManager slabClass
                    spaced.slabManager ∧
                  (code = 0 →
                    ∃ address slabManager,
                      result = some address ∧
                        after =
                          afterStore spaced key valSize.toNat slabClass
                            address slabManager) := by
  intro slabClass
  have isEntry : slabClass ∈ table.entries :=
    table.select_mem valSize.toNat
  have fixed : getSlabClass cache.slabManager slabClass = slabClass :=
    table.select_of_mem isEntry
  refine ⟨table.tightest valSize.toNat, fixed, ?_⟩
  intro key val
  have sameClass {cleared : Cache}
      (deletion : deleteOld cache key = .ok cleared) (size : Nat) :
      getSlabClass cleared.slabManager size =
        getSlabClass cache.slabManager size :=
    getSlabClass_of_source (deleteOld_source deletion) size
  refine ⟨?_, ?_⟩
  · intro searched isSearched
    unfold cacheSetSearches at isSearched
    split at isSearched
    · cases isSearched
    · obtain ⟨cleared, deletion, used⟩ := mem_afterwards isSearched
      rw [sameClass deletion] at used
      refine eq_of_mem_makeSpaceSearches ?_ used
      rw [sameClass deletion, fixed]
  · intro code after returned accepted
    rcases cacheSet_cases returned with
        ⟨refusal, -⟩ | ⟨cleared, spaced, result, -, deletion, space, rest⟩
    · rw [accepted] at refusal
      cases refusal
    · rw [sameClass deletion] at space rest
      refine ⟨cleared, result, spaced, deletion, space, ?_, ?_⟩
      · have cleared : OnlyAdds cache.slabManager slabClass _ :=
          .of_same (deleteOld_slabClasses deletion)
        exact cleared.trans (makeSpace_onlyAdds space)
      · rintro rfl
        rcases rest with ⟨-, isFour, -⟩ | ⟨address, found, storing, -⟩
        · cases isFour
        · obtain ⟨slabManager, -, stored⟩ := storeValue_cases storing
          exact ⟨address, slabManager, found, stored⟩

/-- A value of 100 bytes in a new cache is filed with class 128. -/
theorem class_of_value_agrees_new :
    ∃ after spaced address slabManager,
      cacheSet (createCache zeroBlocks 0 none) (CString.ofText "a")
          (fun _ => 0) 100 =
        .ok (0, after) ∧
        OnlyAdds (initializeManager zeroBlocks none) 128
          spaced.slabManager ∧
        after =
          afterStore spaced (CString.ofText "a") 100 128 address
            slabManager := by
  have accepted :
      setRefusal (createCache zeroBlocks 0 none) (CString.ofText "a")
        (fun _ => 0) 100 = none := by
    decide
  have canGrow : (createCache zeroBlocks 0 none).CanGrow := by
    unfold Cache.CanGrow
    decide
  obtain ⟨after, returned⟩ := exists_set_of_new canGrow accepted
  have table :
      ClassTable (createCache zeroBlocks 0 none).slabManager.classes :=
    defaultTable
  obtain ⟨-, -, agrees⟩ := class_of_value_agrees table 100
  obtain ⟨cleared, result, spaced, -, -, adds, filed⟩ :=
    (agrees _ _).2 0 after returned accepted
  obtain ⟨address, slabManager, -, stored⟩ := filed rfl
  exact ⟨after, spaced, address, slabManager, returned, adds, stored⟩

end CacheBench
