import CacheBench.Lockstep
import CacheBench.SlotOwnership

namespace CacheBench

open Execution

/-!
# The hash function

The hash function decides in which bucket a meta lies and, through the order of
the buckets, which value `cache_evict` picks.  As long as nothing is evicted,
two caches that differ in their hash function alone have the same slabs and the
same metas, in another order.  They run in lock step: every call finds the same
meta, changes the slabs in the same way and returns the same.
-/

/-- Whether a call gets to the call of `cache_evict` in `cache_set`. -/
def Cache.callsEvict (cache : Cache) : Call → Bool
  | .set key val valSize =>
      (setRefusal cache key val valSize).isNone &&
        returnsSuch
          (do
            let cleared ← deleteOld cache key
            freeSpace cleared
              (getSlabClass cleared.slabManager valSize.toNat))
          fun space => space.1.isNone
  | .get _ => false
  | .delete _ => false

/-- What can be seen of a cache apart from the buckets. -/
structure Observation where
  numValues : UInt32
  spaceUsed : UInt64
  slabs : List (Nat × Vector (BitVec 32) 512)

/-- The counts of a cache, and the class and status of every slab. -/
def Cache.observation (cache : Cache) : Observation where
  numValues := cache.numValues
  spaceUsed := cacheSpaceUsed cache
  slabs :=
    cache.slabManager.slabs.map fun slab => (slab.slabClass, slab.status)

/-- What a client sees of one call: what it returns and what it leaves. -/
def Cache.answer (cache : Cache) (call : Call) :
    Outcome (Event × Observation) :=
  (cache.perform call).map fun result =>
    (result.1, result.2.observation)

/-- A step without eviction, with what is seen of the cache after it. -/
def QuietStep
    (cache : Cache)
    (seen : Event × Observation)
    (after : Cache) :
    Prop :=
  cache.callsEvict seen.1.call = false ∧
    cache.Step seen.1 after ∧
    seen.2 = after.observation

/-! ## Caches that differ in their buckets -/

/-- Two orderly caches with the same slabs, counters and metas. -/
structure Alike (cache other : Cache) : Prop where
  slabManager : other.slabManager = cache.slabManager
  size : other.size = cache.size
  maxmem : other.maxmem = cache.maxmem
  numValues : other.numValues = cache.numValues
  ticks : other.ticks = cache.ticks
  metas : other.metas.Perm cache.metas
  tableOk : TableOk cache
  otherOk : TableOk other

/-- Results with the same first part that leave caches alike. -/
inductive SameAndAlike {α : Type} : α × Cache → α × Cache → Prop where
  | intro
      (result : α)
      {cache other : Cache}
      (alike : Alike cache other) :
      SameAndAlike (result, cache) (result, other)

/-- A test of the first part passes in both or in neither. -/
theorem returnsSuch_eq_of_agree
    {α : Type}
    {outcome other : Outcome (α × Cache)}
    (agree : Agree SameAndAlike outcome other)
    (test : α → Bool) :
    returnsSuch other (fun result => test result.1) =
      returnsSuch outcome (fun result => test result.1) := by
  cases agree with
  | error fault =>
      rfl
  | ok same =>
      obtain ⟨result, -⟩ := same
      rfl

namespace Alike

variable {cache other : Cache}

/-- The caches find the same meta. -/
theorem getMeta_eq
    (alike : Alike cache other)
    {key : CString}
    (admitted : Admitted key) :
    getMeta other key = getMeta cache key := by
  cases search : getMeta cache key with
  | none =>
      rw [alike.otherOk.getMeta_eq_none_iff admitted]
      rw [alike.tableOk.getMeta_eq_none_iff admitted] at search
      intro item member
      exact search item (alike.metas.mem_iff.mp member)
  | some item =>
      rw [alike.otherOk.getMeta_eq_some_iff admitted]
      rw [alike.tableOk.getMeta_eq_some_iff admitted] at search
      exact ⟨alike.metas.mem_iff.mpr search.1, search.2⟩

/-- The caches look the same. -/
theorem observation_eq
    (alike : Alike cache other) :
    other.observation = cache.observation := by
  have sameTotal : other.totalSize = cache.totalSize :=
    (alike.metas.map Meta.size).sum_eq
  rw [Cache.observation, Cache.observation, cacheSpaceUsed_eq,
    cacheSpaceUsed_eq, sameTotal, alike.numValues, alike.slabManager]

/-- `cache_set` refuses the same calls. -/
theorem setRefusal_eq
    (alike : Alike cache other)
    (key : CString)
    (val : Nat → UInt8)
    (valSize : UInt32) :
    setRefusal other key val valSize =
      setRefusal cache key val valSize := by
  rw [setRefusal, setRefusal, alike.maxmem]

/-- Changes to the slabs alone keep the caches alike. -/
theorem withSlabs
    (alike : Alike cache other)
    (slabManager : Manager)
    {size otherSize : UInt32}
    (sameSize : otherSize = size) :
    Alike
      { cache with slabManager := slabManager, size := size }
      { other with slabManager := slabManager, size := otherSize } where
  slabManager := rfl
  size := sameSize
  maxmem := alike.maxmem
  numValues := alike.numValues
  ticks := alike.ticks
  metas := alike.metas
  tableOk :=
    ⟨alike.tableOk.numBuckets, alike.tableOk.placed,
      alike.tableOk.unique⟩
  otherOk :=
    ⟨alike.otherOk.numBuckets, alike.otherOk.placed,
      alike.otherOk.unique⟩

/-- Deleting the same meta keeps the caches alike. -/
theorem afterDelete
    (alike : Alike cache other)
    {key : CString}
    (admitted : Admitted key)
    {item : Meta}
    (found : getMeta cache key = some item)
    (slabManager : Manager) :
    Alike
      (afterDelete cache key slabManager)
      (afterDelete other key slabManager) := by
  have otherFound := (alike.getMeta_eq admitted).trans found
  obtain ⟨rest, perm, metas⟩ :=
    afterDelete_metas alike.tableOk found slabManager
  obtain ⟨otherRest, otherPerm, otherMetas⟩ :=
    afterDelete_metas alike.otherOk otherFound slabManager
  have sameRest : otherRest.Perm rest :=
    (otherPerm.symm.trans (alike.metas.trans perm)).cons_inv
  refine
    { slabManager := rfl
      size := alike.size
      maxmem := alike.maxmem
      numValues := congrArg (· - 1) alike.numValues
      ticks := congrArg (· + 1) alike.ticks
      metas := ?_
      tableOk := alike.tableOk.afterDelete found slabManager
      otherOk := alike.otherOk.afterDelete otherFound slabManager }
  rw [metas, otherMetas]
  exact sameRest.map tick

/-- Filing the same meta keeps the caches alike. -/
theorem afterStore
    (alike : Alike cache other)
    {key : CString}
    (admitted : Admitted key)
    (missing : getMeta cache key = none)
    (valSize slabClass address : Nat)
    (slabManager : Manager) :
    Alike
      (afterStore cache key valSize slabClass address slabManager)
      (afterStore other key valSize slabClass address slabManager) := by
  have otherMissing := (alike.getMeta_eq admitted).trans missing
  have sameMeta :
      newMeta other key valSize slabClass address =
        newMeta cache key valSize slabClass address := by
    rw [newMeta, newMeta, alike.ticks]
  refine
    { slabManager := rfl
      size := alike.size
      maxmem := alike.maxmem
      numValues := congrArg (· + 1) alike.numValues
      ticks := congrArg (· + 1) alike.ticks
      metas := ?_
      tableOk := alike.tableOk.afterStore admitted missing slabManager
      otherOk :=
        alike.otherOk.afterStore admitted otherMissing slabManager }
  refine (afterStore_metas alike.otherOk slabManager).trans ?_
  rw [sameMeta]
  exact ((alike.metas.map tick).cons _).trans
    (afterStore_metas alike.tableOk slabManager).symm

/-- Touching the same meta keeps the caches alike. -/
theorem afterGet
    (alike : Alike cache other)
    {key : CString}
    (admitted : Admitted key)
    {item : Meta}
    (found : getMeta cache key = some item) :
    Alike (afterGet cache key) (afterGet other key) := by
  have otherFound := (alike.getMeta_eq admitted).trans found
  obtain ⟨rest, perm, afterPerm⟩ := afterGet_metas alike.tableOk found
  obtain ⟨otherRest, otherPerm, otherAfterPerm⟩ :=
    afterGet_metas alike.otherOk otherFound
  have sameRest : otherRest.Perm rest :=
    (otherPerm.symm.trans (alike.metas.trans perm)).cons_inv
  have sameTouch : touch other item = touch cache item := by
    rw [touch, touch, alike.ticks]
  refine
    { slabManager := alike.slabManager
      size := alike.size
      maxmem := alike.maxmem
      numValues := alike.numValues
      ticks := alike.ticks
      metas := ?_
      tableOk := alike.tableOk.afterGet found
      otherOk := alike.otherOk.afterGet otherFound }
  rw [sameTouch] at otherAfterPerm
  exact otherAfterPerm.trans ((sameRest.cons _).trans afterPerm.symm)

/-! ## The stages of a call -/

/-- The same slabs have the same address to give. -/
theorem getAddress
    (alike : Alike cache other)
    (slabClass : Nat) :
    Agree Eq
      (getAddress cache.slabManager slabClass)
      (getAddress other.slabManager slabClass) := by
  apply Agree.of_eq
  rw [alike.slabManager]

theorem expandCache
    (alike : Alike cache other)
    (slabClass : Nat) :
    Agree Alike
      (expandCache cache slabClass) (expandCache other slabClass) := by
  have sameSlabs :
      slabAdd cache.slabManager slabClass =
        slabAdd other.slabManager slabClass := by
    rw [alike.slabManager]
  refine Agree.ite ?_ ?_ (.ok alike)
  · rw [alike.maxmem, alike.size]
  · refine (Agree.of_eq sameSlabs).bind ?_
    rintro slabManager _ - rfl
    exact .ok
      (alike.withSlabs slabManager (by rw [alike.size]))

/-- Looking for space reads and changes the slabs alone. -/
theorem freeSpace
    (alike : Alike cache other)
    (slabClass : Nat) :
    Agree SameAndAlike
      (freeSpace cache slabClass) (freeSpace other slabClass) := by
  refine (alike.getAddress slabClass).bind ?_
  rintro ⟨first, slabManager⟩ _ - rfl
  have searched := alike.withSlabs slabManager alike.size
  cases first with
  | some address =>
      exact .ok (.intro _ searched)
  | none =>
      refine Agree.ite ?_ ?_ (.ok (.intro _ searched))
      · rw [searched.size, searched.maxmem]
      · refine (searched.expandCache slabClass).bind ?_
        rintro expanded otherExpanded - expandedAlike
        refine (expandedAlike.getAddress slabClass).bind ?_
        rintro ⟨second, laterManager⟩ _ - rfl
        exact .ok
          (.intro _
            (expandedAlike.withSlabs laterManager expandedAlike.size))

theorem cacheDelete
    (alike : Alike cache other)
    {key : CString}
    (admitted : Admitted key) :
    Agree SameAndAlike
      (cacheDelete cache key) (cacheDelete other key) := by
  unfold CacheBench.cacheDelete
  rw [alike.getMeta_eq admitted, alike.slabManager]
  cases found : getMeta cache key with
  | none =>
      exact .ok (.intro _ alike)
  | some item =>
      refine (Agree.of_eq rfl).bind ?_
      rintro slabManager _ - rfl
      exact .ok
        (.intro _ (alike.afterDelete admitted found slabManager))

theorem deleteOld
    (alike : Alike cache other)
    {key : CString}
    (admitted : Admitted key) :
    Agree Alike (deleteOld cache key) (deleteOld other key) := by
  unfold CacheBench.deleteOld
  rw [alike.getMeta_eq admitted]
  cases getMeta cache key with
  | none =>
      exact .ok alike
  | some item =>
      refine (alike.cacheDelete admitted).bind ?_
      rintro _ _ - ⟨code, deletedAlike⟩
      exact .ok deletedAlike

theorem storeValue
    (alike : Alike cache other)
    {key : CString}
    (admitted : Admitted key)
    (missing : getMeta cache key = none)
    (val : Nat → UInt8)
    (valSize slabClass address : Nat) :
    Agree Alike
      (storeValue cache key val valSize slabClass address)
      (storeValue other key val valSize slabClass address) := by
  rw [storeValue_eq, storeValue_eq, alike.slabManager]
  cases cache.slabManager.memcpy address val valSize with
  | error fault =>
      exact .error fault
  | ok slabManager =>
      exact .ok
        (alike.afterStore admitted missing valSize slabClass address
          slabManager)

theorem cacheGet
    (alike : Alike cache other)
    {key : CString}
    (admitted : Admitted key) :
    Agree SameAndAlike (cacheGet cache key) (cacheGet other key) := by
  unfold CacheBench.cacheGet
  rw [alike.getMeta_eq admitted]
  cases found : getMeta cache key with
  | none =>
      exact .ok (.intro _ alike)
  | some item =>
      have sameLength :
          cache.slabManager.strlen item.address =
            other.slabManager.strlen item.address := by
        rw [alike.slabManager]
      refine (Agree.of_eq sameLength).bind ?_
      rintro length _ - rfl
      exact Agree.ite Iff.rfl
        (.ok (.intro _ (alike.afterGet admitted found))) (.error _)

/-- Space that is found without an eviction is the same. -/
theorem makeSpace
    (alike : Alike cache other)
    {slabClass : Nat}
    (quiet :
      ∀ searched,
        CacheBench.freeSpace cache slabClass ≠ .ok (none, searched)) :
    Agree SameAndAlike
      (makeSpace cache slabClass) (makeSpace other slabClass) := by
  refine (alike.freeSpace slabClass).bind ?_
  rintro _ _ search ⟨address, searchedAlike⟩
  cases address with
  | none =>
      exact (quiet _ search).elim
  | some address =>
      exact .ok (.intro _ searchedAlike)

theorem cacheSet
    (alike : Alike cache other)
    {key : CString}
    (admitted : Admitted key)
    {val : Nat → UInt8}
    {valSize : UInt32}
    (quiet : cache.callsEvict (.set key val valSize) = false) :
    Agree SameAndAlike
      (cacheSet cache key val valSize)
      (cacheSet other key val valSize) := by
  unfold CacheBench.cacheSet
  rw [alike.setRefusal_eq]
  cases refusal : setRefusal cache key val valSize with
  | some code =>
      exact .ok (.intro _ alike)
  | none =>
      refine (alike.deleteOld admitted).bind ?_
      intro cleared otherCleared clearing clearedAlike
      dsimp only
      rw [clearedAlike.slabManager]
      have found :
          ∀ searched,
            CacheBench.freeSpace cleared
                (getSlabClass cleared.slabManager valSize.toNat) ≠
              .ok (none, searched) := by
        intro searched search
        simp [Cache.callsEvict, refusal, clearing, search, returnsSuch,
          bind, Except.bind] at quiet
      refine (clearedAlike.makeSpace found).bind ?_
      rintro _ _ space ⟨address, spacedAlike⟩
      -- The key is still absent: clearing removed it, and space is only
      -- looked for in the slabs.
      obtain ⟨-, absent⟩ :=
        deleteOld_moves alike.tableOk admitted clearing
      obtain ⟨-, missing⟩ :=
        makeSpace_moves clearedAlike.tableOk admitted space absent
      cases address with
      | none =>
          exact .ok (.intro _ spacedAlike)
      | some address =>
          refine
            (spacedAlike.storeValue admitted missing val valSize.toNat _
              address).bind ?_
          rintro stored otherStored - storedAlike
          exact .ok (.intro _ storedAlike)

/-! ## Calls and runs -/

/-- The caches have to evict at the same calls. -/
theorem callsEvict_eq
    (alike : Alike cache other)
    {call : Call}
    (admitted : Admitted call.key) :
    other.callsEvict call = cache.callsEvict call := by
  cases call with
  | set key val valSize =>
      have space :
          Agree SameAndAlike
            (do
              let cleared ← CacheBench.deleteOld cache key
              CacheBench.freeSpace cleared
                (getSlabClass cleared.slabManager valSize.toNat))
            (do
              let cleared ← CacheBench.deleteOld other key
              CacheBench.freeSpace cleared
                (getSlabClass cleared.slabManager valSize.toNat)) := by
        refine (alike.deleteOld admitted).bind ?_
        intro cleared otherCleared _ clearedAlike
        rw [clearedAlike.slabManager]
        exact clearedAlike.freeSpace _
      rw [Cache.callsEvict, Cache.callsEvict, alike.setRefusal_eq]
      rw [returnsSuch_eq_of_agree space Option.isNone]
  | get key =>
      rfl
  | delete key =>
      rfl

/-- A call without eviction does the same to both caches. -/
theorem perform
    (alike : Alike cache other)
    {call : Call}
    (admitted : Admitted call.key)
    (quiet : cache.callsEvict call = false) :
    Agree SameAndAlike (cache.perform call) (other.perform call) := by
  cases call with
  | set key val valSize =>
      refine (alike.cacheSet admitted quiet).bind ?_
      rintro _ _ - ⟨code, afterAlike⟩
      exact .ok (.intro _ afterAlike)
  | get key =>
      refine (alike.cacheGet admitted).bind ?_
      rintro _ _ - ⟨found, afterAlike⟩
      dsimp only
      rw [afterAlike.slabManager]
      exact .ok (.intro _ afterAlike)
  | delete key =>
      refine (alike.cacheDelete admitted).bind ?_
      rintro _ _ - ⟨code, afterAlike⟩
      exact .ok (.intro _ afterAlike)

/-- A client sees the same of a call without eviction. -/
theorem answer_eq
    (alike : Alike cache other)
    {call : Call}
    (admitted : Admitted call.key)
    (quiet : cache.callsEvict call = false) :
    other.answer call = cache.answer call := by
  refine ((alike.perform admitted quiet).map_eq ?_).symm
  rintro _ _ ⟨event, afterAlike⟩
  dsimp only
  rw [afterAlike.observation_eq]

/-- Every step without eviction is matched. -/
theorem step
    (alike : Alike cache other)
    {seen : Event × Observation}
    (admitted : Admitted seen.1.call.key)
    {after : Cache}
    (quietStep : QuietStep cache seen after) :
    ∃ otherAfter,
      QuietStep other seen otherAfter ∧ Alike after otherAfter := by
  obtain ⟨quiet, performed, look⟩ := quietStep
  obtain ⟨⟨event, otherAfter⟩, otherPerformed, same⟩ :=
    (alike.perform admitted quiet).exists_ok performed
  obtain ⟨-, afterAlike⟩ := same
  refine ⟨otherAfter, ⟨?_, otherPerformed, ?_⟩, afterAlike⟩
  · rw [alike.callsEvict_eq admitted]
    exact quiet
  · rw [afterAlike.observation_eq]
    exact look

end Alike

/-- New caches differ in their hash function alone. -/
theorem createCache_alike
    (blocks : Nat → Slab)
    (maxmem : UInt64)
    (hasher otherHasher : Option HashFunc) :
    Alike
      (createCache blocks maxmem hasher)
      (createCache blocks maxmem otherHasher) where
  slabManager := rfl
  size := rfl
  maxmem := rfl
  numValues := rfl
  ticks := rfl
  metas := .refl _
  tableOk := createCache_tableOk blocks maxmem hasher
  otherOk := createCache_tableOk blocks maxmem otherHasher

/--
Whatever the hash functions are, a run that never evicts is matched by a run of
the other cache that never evicts either: call by call, the same codes, values
and sizes are returned, and the same counts, slab classes and status words are
left.  The next call then evicts in both caches or in neither, and what is seen
of it is the same if it does not, also if it does not return.
-/
theorem quiet_run_of_any_hasher
    {blocks : Nat → Slab}
    {maxmem : UInt64}
    {hasher : Option HashFunc}
    (otherHasher : Option HashFunc)
    {history : List (Event × Observation)}
    {cache : Cache}
    (run :
      Run QuietStep (createCache blocks maxmem hasher) history cache)
    (fits : ∀ seen ∈ history, seen.1.call.key.length ≤ 31) :
    ∃ other,
      Run QuietStep (createCache blocks maxmem otherHasher) history other ∧
        ∀ call,
          call.key.length ≤ 31 →
            other.callsEvict call = cache.callsEvict call ∧
              (cache.callsEvict call = false →
                other.answer call = cache.answer call) := by
  obtain ⟨other, otherRun, alike⟩ :=
    Run.lockstep Alike
      (createCache_alike blocks maxmem hasher otherHasher) run fits
      fun _ _ _ _ alike fits step =>
        alike.step (Nat.le_succ_of_le fits) step
  refine ⟨other, otherRun, ?_⟩
  intro call callFits
  have admitted : Admitted call.key := Nat.le_succ_of_le callFits
  exact ⟨alike.callsEvict_eq admitted, alike.answer_eq admitted⟩

/-- Make calls and see that none of them evicts. -/
def Cache.quiet (cache : Cache) : List Call → Bool
  | [] => true
  | call :: rest =>
      !cache.callsEvict call &&
        returnsSuch (cache.perform call) fun result =>
          result.2.quiet rest

/-- Calls that are seen to be quiet when they are evaluated are a run. -/
theorem exists_quiet_run
    {cache : Cache}
    {calls : List Call}
    (evaluated : cache.quiet calls = true) :
    ∃ history final,
      history.map (fun seen => seen.1.call) = calls ∧
        Run QuietStep cache history final := by
  induction calls generalizing cache with
  | nil =>
      exact ⟨[], cache, rfl, .nil⟩
  | cons call rest inductionHypothesis =>
      rw [Cache.quiet, Bool.and_eq_true, Bool.not_eq_true'] at evaluated
      obtain ⟨notEvicting, evaluated⟩ := evaluated
      obtain ⟨⟨event, next⟩, performed, evaluated⟩ :=
        exists_of_returnsSuch evaluated
      obtain ⟨history, final, calls, run⟩ := inductionHypothesis evaluated
      have isCall := call_of_perform performed
      have step : QuietStep cache (event, next.observation) next := by
        refine ⟨?_, step_of_perform performed, rfl⟩
        rw [isCall]
        exact notEvicting
      refine ⟨[(event, next.observation)] ++ history, final, ?_,
        (Run.snoc .nil step).append run⟩
      simp [isCall, calls]

/-- Two keys are set, one is overwritten and the other deleted. -/
def twoKeys : List Call :=
  [.set (CString.ofText "a") (bytesAt (ascii "x")) 2,
    .set (CString.ofText "b") (bytesAt (ascii "y")) 2,
    .set (CString.ofText "a") (bytesAt (ascii "zz")) 3,
    .delete (CString.ofText "b")]

/-- With both keys in one bucket the run is the one under `hash`. -/
theorem quiet_run_of_any_hasher_colliding :
    ∃ history cache other,
      history.map (fun seen => seen.1.call) = twoKeys ∧
        Run QuietStep (createCache zeroBlocks 0 (some fun _ => 0)) history
          cache ∧
        Run QuietStep (createCache zeroBlocks 0 none) history other := by
  obtain ⟨history, cache, calls, run⟩ :=
    exists_quiet_run (by
      decide +kernel :
      (createCache zeroBlocks 0 (some fun _ => 0)).quiet twoKeys = true)
  have fits : ∀ seen ∈ history, seen.1.call.key.length ≤ 31 := by
    intro seen member
    have isCall := List.mem_map_of_mem (f := fun seen => seen.1.call) member
    rw [calls] at isCall
    exact (by decide : ∀ call ∈ twoKeys, call.key.length ≤ 31) _ isCall
  obtain ⟨other, otherRun, -⟩ := quiet_run_of_any_hasher none run fits
  exact ⟨history, cache, other, calls, run, otherRun⟩

end CacheBench
