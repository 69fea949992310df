import CacheBench.SlabShares

namespace CacheBench

open Manager Execution

/-!
# When the status words stay in bounds

Adding a slab of 64 bytes is what takes `allocate_slab` out of the status array.
Whether a call adds one can be told from the state before it: a set does that
passes the checks, has a value of the class and finds no free slot while the
limit has room for a slab.  A new slab of the class has free slots whatever its
block held, so the eviction that may follow adds none.
-/

/--
A set that adds a slab of 64 bytes: `cache_set` takes the value, whose class it
is, all slots of the class are used when the old value of the key is gone, and
the limit has room for a slab.
-/
def Cache.AddsSmallSlab (cache : Cache) : Call → Prop
  | .set key val valSize =>
      setRefusal cache key val valSize = none ∧ valSize.toNat ≤ 64 ∧
        cache.CanGrow ∧
        ∃ cleared,
          deleteOld cache key = .ok cleared ∧
            cleared.slabManager.Exhausted 64
  | .get _ => False
  | .delete _ => False

/-- A step that adds no slab of 64 bytes, seen from the state before it. -/
def SparesSmallSlab (cache : Cache) (event : Event) (after : Cache) : Prop :=
  cache.Step event after ∧ ¬ cache.AddsSmallSlab event.call

/-- A step that uses no index outside the array. -/
def InBoundsStep (cache : Cache) (event : Event) (after : Cache) : Prop :=
  cache.Step event after ∧
    ∀ index ∈ cache.statusIndices event.call, index < 512

/-- Values of up to 64 bytes are those of the smallest class. -/
theorem classOf_eq_smallest_iff (size : Nat) :
    classOf size = 64 ↔ size ≤ 64 := by
  constructor
  · intro isSmallest
    rcases Nat.lt_or_ge memorySize size with long | bounded
    · rw [← defaultTable_largest] at long
      have isLargest : classOf size = defaultTable.largest :=
        defaultTable.select_of_largest_lt long
      rw [isSmallest, defaultTable_largest] at isLargest
      exact absurd isLargest (by decide)
    · exact (le_classOf bounded).trans isSmallest.le
  · intro small
    exact Nat.le_antisymm
      (defaultTable.select_le (by decide : 64 ∈ defaultTable.entries) small)
      (isClass_classOf size).smallest

/-- A new slab of 64 bytes has free slots whatever its block held. -/
theorem usable_smallest (block : Slab) : Usable block 64 :=
  ⟨0, by decide, if_pos (by decide)⟩

section Calls

variable {cache after : Cache} {slabClass : Nat} {result : Option Nat}

/-- Slabs of another class leave the number of the smallest ones. -/
theorem OnlyAdds.count_smallest
    {man newMan : Manager}
    (adds : OnlyAdds man slabClass newMan)
    (other : slabClass ≠ 64) :
    newMan.slabClasses.count 64 = man.slabClasses.count 64 := by
  obtain ⟨count, classes⟩ := adds
  rw [classes, List.count_append, List.count_replicate]
  simp [other]

/-- Making space adds a small slab for an exhausted class with room only. -/
theorem CacheOk.makeSpace_smallest
    (ok : CacheOk [] cache)
    (returned : CacheBench.makeSpace cache 64 = .ok (result, after)) :
    after.slabManager.slabClasses.count 64 =
        cache.slabManager.slabClasses.count 64 ↔
      ¬ (cache.CanGrow ∧ cache.slabManager.Exhausted 64) := by
  have isClass : IsClass 64 :=
    (by decide : 64 ∈ defaultTable.entries)
  by_cases canGrow : cache.CanGrow
  · -- The slot is found at once, in the new slab if there is one.
    obtain ⟨address, search⟩ :
        ∃ address,
          CacheBench.freeSpace cache 64 = .ok (some address, after) := by
      rcases makeSpace_cases returned with
          ⟨address, search, -⟩ | ⟨searched, evicted, search, -, -⟩
      · exact ⟨address, search⟩
      · obtain ⟨_, _, expected, found⟩ := ok.freeSpace isClass
        rw [search] at expected
        cases expected
        exact absurd (usable_smallest _) ((found.none_iff.mp rfl).2 canGrow)
    rcases ok.freeSpace_slabClasses isClass search with
        ⟨notBoth, same⟩ | ⟨exhausted, -, added⟩
    · rw [same]
      simpa [canGrow] using notBoth
    · rw [added, List.count_append]
      simp [canGrow, exhausted]
  · have same := (ok.makeSpace_extends isClass returned).same_of_full canGrow
    rw [same]
    simp [canGrow]

/-- A set adds a small slab exactly if the state before it says so. -/
theorem CacheOk.set_smallest
    (ok : CacheOk [] cache)
    {key : CString}
    {val : Nat → UInt8}
    {valSize : UInt32}
    {code : UInt8}
    (bounded : code = 0 → valSize.toNat ≤ memorySize)
    (returned :
      CacheBench.cacheSet cache key val valSize = .ok (code, after)) :
    after.slabManager.slabClasses.count 64 =
        cache.slabManager.slabClasses.count 64 ↔
      ¬ cache.AddsSmallSlab (.set key val valSize) := by
  rcases ok.cacheSet_stages bounded returned with
      ⟨refusal, rfl⟩ | ⟨cleared, spaced, result, accepted, deletion,
        clearedOk, space, -, sameClasses⟩
  · simp [Cache.AddsSmallSlab, refusal]
  · rw [sameClasses, ← deleteOld_slabClasses deletion]
    by_cases small : valSize.toNat ≤ 64
    · rw [(classOf_eq_smallest_iff _).mpr small] at space
      rw [clearedOk.makeSpace_smallest space, deleteOld_canGrow deletion]
      simp [Cache.AddsSmallSlab, accepted, deletion, small]
    · have other : classOf valSize.toNat ≠ 64 :=
        fun isSmallest => small ((classOf_eq_smallest_iff _).mp isSmallest)
      rw [(makeSpace_onlyAdds space).count_smallest other]
      simp [Cache.AddsSmallSlab, small]

/-- A call stays in bounds exactly if it adds no small slab. -/
theorem CacheOk.in_bounds_iff
    (ok : CacheOk [] cache)
    {event : Event}
    (bounded : event.Bounded)
    (step : cache.Step event after) :
    (∀ index ∈ cache.statusIndices event.call, index < 512) ↔
      ¬ cache.AddsSmallSlab event.call := by
  obtain ⟨added, classes, bounds⟩ := ok.step_accounts bounded step
  cases event with
  | set key val valSize code =>
      obtain ⟨⟨result, next⟩, returned, rest⟩ := bind_eq_ok.mp step
      cases rest
      have counted := ok.set_smallest bounded returned
      rw [classes, List.count_append, Nat.add_eq_left,
        List.count_eq_zero, ← bounds] at counted
      exact counted
  | get key value size =>
      simp [Event.call, Cache.statusIndices, Cache.AddsSmallSlab]
  | delete key code =>
      obtain ⟨⟨result, next⟩, returned, rest⟩ := bind_eq_ok.mp step
      cases rest
      have same := cacheDelete_slabClasses returned
      rw [classes, List.append_right_eq_self] at same
      rw [bounds, same]
      simp [Event.call, Cache.AddsSmallSlab]

end Calls

/-! ## Whole runs -/

/--
A run that stores values of at most 2^20 bytes stays inside the status arrays
exactly if no call adds a slab of 64 bytes, which the state before the call
tells; and exactly if no slab of 64 bytes is there in the end.
-/
theorem status_in_bounds_iff
    {blocks : Nat → Slab}
    (disjoint : DisjointBlocks blocks)
    {maxmem : UInt64}
    {hasher : Option HashFunc}
    {history : List Event}
    {cache : Cache}
    (run : Run Cache.Step (createCache blocks maxmem hasher) history cache)
    (bounded : ∀ event ∈ history, event.Bounded) :
    (Run InBoundsStep (createCache blocks maxmem hasher) history cache ↔
        Run SparesSmallSlab (createCache blocks maxmem hasher) history
          cache) ∧
      (Run InBoundsStep (createCache blocks maxmem hasher) history cache ↔
        64 ∉ cache.slabManager.slabClasses) := by
  induction run with
  | nil =>
      refine ⟨⟨fun _ => .nil, fun _ => .nil⟩, ⟨?_, fun _ => .nil⟩⟩
      intro _
      simp [slabClasses, createCache, initializeManager]
  | @snoc history event middle final earlier last inductionHypothesis =>
      have boundedBefore : ∀ event ∈ history, event.Bounded :=
        fun event member => bounded event (by simp [member])
      have boundedLast : event.Bounded := bounded event (by simp)
      have ok := (cacheOk_of_run disjoint earlier boundedBefore).1
      obtain ⟨spared, noSmall⟩ := inductionHypothesis boundedBefore
      obtain ⟨added, classes, bounds⟩ := ok.step_accounts boundedLast last
      have unique (state : Cache) (event : Event) (first second : Cache)
          (step : state.Step event first) (other : state.Step event second) :
          first = second :=
        step.unique other
      have inBounds :
          Run InBoundsStep (createCache blocks maxmem hasher)
              (history ++ [event]) final ↔
            _ :=
        Run.snoc_restricted_iff unique earlier last
      have spares :
          Run SparesSmallSlab (createCache blocks maxmem hasher)
              (history ++ [event]) final ↔
            _ :=
        @Run.snoc_restricted_iff _ _ _ _
          (fun (cache : Cache) (event : Event) =>
            ¬ cache.AddsSmallSlab event.call)
          unique history event middle final earlier last
      constructor
      · rw [inBounds, spares]
        exact and_congr spared (ok.in_bounds_iff boundedLast last)
      · rw [inBounds, classes, List.mem_append, not_or]
        exact and_congr noSmall bounds

/--
With room for one slab, which a value of 100 bytes takes, a value of a byte
finds no space and no slab is added for it.
-/
theorem status_in_bounds_iff_of_100 :
    ∃ history cache,
      history.map Event.call =
          [.set (CString.ofText "a") (bytesAt (lettersString 99).bytes) 100,
            .set (CString.ofText "b") (bytesAt []) 1] ∧
        Run InBoundsStep (createCache zeroBlocks 0 none) history cache ∧
        Run SparesSmallSlab (createCache zeroBlocks 0 none) history
          cache := by
  obtain ⟨history, cache, calls, run, classes⟩ :=
    exists_run (by
      decide +kernel :
      returnsSuch
        ((createCache zeroBlocks 0 none).performAll
          [.set (CString.ofText "a") (bytesAt (lettersString 99).bytes) 100,
            .set (CString.ofText "b") (bytesAt []) 1])
        (fun result =>
          result.2.slabManager.slabClasses == [128]) = true)
  rw [beq_iff_eq] at classes
  obtain ⟨spares, noSmall⟩ :=
    status_in_bounds_iff zeroBlocks_disjoint run
      (bounded_of_calls calls (by decide))
  have inBounds :
      Run InBoundsStep (createCache zeroBlocks 0 none) history cache := by
    rw [noSmall, classes]
    decide
  exact ⟨history, cache, calls, inBounds, spares.mp inBounds⟩

/-- The first value of one byte makes `allocate_slab` write `status[512]`. -/
theorem status_512_used :
    ∃ history cache,
      history.map Event.call =
          [.set (CString.ofText "a") (bytesAt []) 1] ∧
        Run Cache.Step (createCache zeroBlocks 0 none) history cache ∧
        512 ∈
          (createCache zeroBlocks 0 none).statusIndices
            (.set (CString.ofText "a") (bytesAt []) 1) := by
  obtain ⟨history, cache, calls, run, -⟩ :=
    exists_run (by
      decide +kernel :
      returnsSuch
        ((createCache zeroBlocks 0 none).performAll
          [.set (CString.ofText "a") (bytesAt []) 1])
        (fun _ => true) = true)
  exact ⟨history, cache, calls, run, by decide +kernel⟩

end CacheBench
