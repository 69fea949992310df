import CacheBench.CacheTable
import CacheBench.Execution

namespace CacheBench

open Execution

/-!
# Runs of the cache

A client calls `cache_set`, `cache_get` and `cache_delete`.  An event is a call
with what the client got from it; for a get that is the value's bytes, read at
the address the function returned.  A call that faults ends the program, so a
run is a sequence of calls that returned.

Every call changes the table of metas by a few elementary moves.  What all
moves keep holds in every run, whatever the calls wrote into slab memory.
-/

/-- A call of the cache's interface. -/
inductive Call where
  | set (key : CString) (val : Nat → UInt8) (valSize : UInt32)
  | get (key : CString)
  | delete (key : CString)

namespace Call

/-- The key a call is about. -/
def key : Call → CString
  | .set key _ _ => key
  | .get key => key
  | .delete key => key

end Call

/-- A call and what it returned. -/
inductive Event where
  | set (key : CString) (val : Nat → UInt8) (valSize : UInt32)
      (code : UInt8)
  | get (key : CString) (value : Option (List UInt8)) (size : Nat)
  | delete (key : CString) (code : UInt8)

namespace Event

/-- The call of an event. -/
def call : Event → Call
  | .set key val valSize _ => .set key val valSize
  | .get key _ _ => .get key
  | .delete key _ => .delete key

end Event

namespace Cache

/-- The bytes of a stored value. -/
def valueOf (cache : Cache) (item : Meta) : List UInt8 :=
  bytesFrom cache.slabManager.byteAt item.address item.size

/-- The value of every key, as the table and slab memory have it. -/
def contents (cache : Cache) (key : CString) : Option (List UInt8) :=
  (getMeta cache key).map cache.valueOf

/-- Make one call. -/
def perform (cache : Cache) : Call → Outcome (Event × Cache)
  | .set key val valSize => do
      let (code, after) ← cacheSet cache key val valSize
      .ok (.set key val valSize code, after)
  | .get key => do
      let (found, after) ← cacheGet cache key
      .ok
        (.get key
          (found.address.map fun address =>
            bytesFrom after.slabManager.byteAt address found.size)
          found.size, after)
  | .delete key => do
      let (code, after) ← cacheDelete cache key
      .ok (.delete key code, after)

/-- One step of a run. -/
def Step (cache : Cache) (event : Event) (after : Cache) : Prop :=
  cache.perform event.call = .ok (event, after)

/-- Make a sequence of calls. -/
def performAll (cache : Cache) : List Call → Outcome (List Event × Cache)
  | [] => .ok ([], cache)
  | call :: rest => do
      let (event, next) ← cache.perform call
      let (events, final) ← next.performAll rest
      .ok (event :: events, final)

end Cache

@[simp] theorem length_valueOf (cache : Cache) (item : Meta) :
    (cache.valueOf item).length = item.size :=
  length_bytesFrom _ _ _

/-- The event of a call is about that call. -/
theorem call_of_perform
    {cache after : Cache}
    {call : Call}
    {event : Event}
    (performed : cache.perform call = .ok (event, after)) :
    event.call = call := by
  cases call <;>
    obtain ⟨⟨reply, next⟩, -, rest⟩ := bind_eq_ok.mp performed <;>
    cases rest <;>
    rfl

/-- A call that returned is a step. -/
theorem step_of_perform
    {cache after : Cache}
    {call : Call}
    {event : Event}
    (performed : cache.perform call = .ok (event, after)) :
    cache.Step event after := by
  rw [Cache.Step, call_of_perform performed]
  exact performed

/-- A call leads to one state. -/
theorem Cache.Step.unique
    {cache first second : Cache}
    {event : Event}
    (step : cache.Step event first)
    (other : cache.Step event second) :
    first = second := by
  have same := step.symm.trans other
  rw [Except.ok.injEq, Prod.mk.injEq] at same
  exact same.2

/-- Calls that all returned are a run. -/
theorem run_of_performAll
    {cache final : Cache}
    {calls : List Call}
    {history : List Event}
    (performed : cache.performAll calls = .ok (history, final)) :
    Run Cache.Step cache history final ∧
      history.map Event.call = calls := by
  induction calls generalizing cache history with
  | nil =>
      cases performed
      exact ⟨.nil, rfl⟩
  | cons call rest inductionHypothesis =>
      obtain ⟨⟨event, next⟩, first, performed⟩ := bind_eq_ok.mp performed
      obtain ⟨⟨events, last⟩, later, performed⟩ := bind_eq_ok.mp performed
      cases performed
      obtain ⟨run, calls⟩ := inductionHypothesis later
      refine ⟨?_, ?_⟩
      · exact (Run.snoc .nil (step_of_perform first)).append run
      · rw [List.map_cons, call_of_perform first, calls]

/-- A computation that returned something that passes a test. -/
def returnsSuch {α : Type} (outcome : Outcome α) (test : α → Bool) : Bool :=
  match outcome with
  | .ok result => test result
  | .error _ => false

theorem exists_of_returnsSuch
    {α : Type}
    {outcome : Outcome α}
    {test : α → Bool}
    (evaluated : returnsSuch outcome test = true) :
    ∃ result, outcome = .ok result ∧ test result = true := by
  cases outcome with
  | error fault =>
      simp [returnsSuch] at evaluated
  | ok result =>
      exact ⟨result, rfl, evaluated⟩

/-- Calls that are seen to return when they are evaluated are a run. -/
theorem exists_run
    {cache : Cache}
    {calls : List Call}
    {test : List Event × Cache → Bool}
    (evaluated : returnsSuch (cache.performAll calls) test = true) :
    ∃ history final,
      history.map Event.call = calls ∧
        Run Cache.Step cache history final ∧
        test (history, final) = true := by
  obtain ⟨⟨history, final⟩, performed, passed⟩ :=
    exists_of_returnsSuch evaluated
  obtain ⟨run, sameCalls⟩ := run_of_performAll performed
  exact ⟨history, final, sameCalls, run, passed⟩

/-- What holds of the calls made holds of the calls of the history. -/
theorem forall_call
    (Holds : Call → Prop)
    {history : List Event}
    {calls : List Call}
    (sameCalls : history.map Event.call = calls)
    (holds : ∀ call ∈ calls, Holds call) :
    ∀ event ∈ history, Holds event.call := by
  intro event member
  apply holds
  rw [← sameCalls]
  exact List.mem_map_of_mem member

/-! ## The stages of a set -/

/-- Two caches with the same table; their slabs may differ. -/
structure SameTable (cache other : Cache) : Prop where
  hasher : other.hasher = cache.hasher
  buckets : other.buckets = cache.buckets
  maxmem : other.maxmem = cache.maxmem
  numValues : other.numValues = cache.numValues
  ticks : other.ticks = cache.ticks

namespace SameTable

variable {cache other : Cache}

theorem trans
    {third : Cache}
    (earlier : SameTable cache other)
    (later : SameTable other third) :
    SameTable cache third where
  hasher := later.hasher.trans earlier.hasher
  buckets := later.buckets.trans earlier.buckets
  maxmem := later.maxmem.trans earlier.maxmem
  numValues := later.numValues.trans earlier.numValues
  ticks := later.ticks.trans earlier.ticks

theorem metas
    (same : SameTable cache other) :
    other.metas = cache.metas := by
  rw [Cache.metas, Cache.metas, same.buckets]

theorem bucketOf
    (same : SameTable cache other) :
    other.bucketOf = cache.bucketOf :=
  bucketOf_congr same.hasher (by rw [same.buckets])

theorem getMeta
    (same : SameTable cache other)
    (key : CString) :
    getMeta other key = getMeta cache key := by
  rw [CacheBench.getMeta, CacheBench.getMeta, same.bucketOf, same.buckets]

theorem findVictim
    (same : SameTable cache other)
    (slabClass : Nat) :
    findVictim other slabClass = findVictim cache slabClass := by
  rw [CacheBench.findVictim, CacheBench.findVictim, same.metas]

theorem tableOk
    (same : SameTable cache other)
    (tableOk : TableOk cache) :
    TableOk other where
  numBuckets := by
    rw [Cache.numBuckets, same.buckets]
    exact tableOk.numBuckets
  placed := by
    rw [same.bucketOf, same.buckets]
    exact tableOk.placed
  unique := by
    rw [same.buckets]
    exact tableOk.unique

end SameTable

/-- The two ways `expand_cache` returns. -/
theorem expandCache_cases
    {cache after : Cache}
    {slabClass : Nat}
    (returned : expandCache cache slabClass = .ok after) :
    (∃ slabManager,
      cache.maxmem - cache.size.toUInt64 > UInt64.ofNat getSlabSize ∧
        slabAdd cache.slabManager slabClass = .ok slabManager ∧
        after =
          { cache with
            slabManager := slabManager
            size := cache.size + UInt32.ofNat getSlabSize }) ∨
      (¬ cache.maxmem - cache.size.toUInt64 > UInt64.ofNat getSlabSize ∧
        after = cache) := by
  unfold expandCache at returned
  split at returned
  · rename_i grows
    obtain ⟨slabManager, added, rest⟩ := bind_eq_ok.mp returned
    cases rest
    exact Or.inl ⟨slabManager, grows, added, rfl⟩
  · rename_i stays
    cases returned
    exact Or.inr ⟨stays, rfl⟩

/-- The three ways `free_space` returns. -/
theorem freeSpace_cases
    {cache after : Cache}
    {slabClass : Nat}
    {result : Option Nat}
    (returned : freeSpace cache slabClass = .ok (result, after)) :
    ∃ first searched,
      getAddress cache.slabManager slabClass = .ok (first, searched) ∧
        ((∃ address,
          first = some address ∧ result = some address ∧
            after = { cache with slabManager := searched }) ∨
          (first = none ∧ ¬ cache.size.toUInt64 < cache.maxmem ∧
            result = none ∧ after = { cache with slabManager := searched }) ∨
          ∃ grown later,
            first = none ∧ cache.size.toUInt64 < cache.maxmem ∧
              expandCache { cache with slabManager := searched } slabClass =
                .ok grown ∧
              getAddress grown.slabManager slabClass =
                .ok (result, later) ∧
              after = { grown with slabManager := later }) := by
  obtain ⟨⟨first, searched⟩, search, rest⟩ := bind_eq_ok.mp returned
  refine ⟨first, searched, search, ?_⟩
  cases first with
  | some address =>
      cases rest
      exact Or.inl ⟨address, rfl, rfl, rfl⟩
  | none =>
      dsimp only at rest
      split at rest
      · rename_i below
        obtain ⟨grown, expansion, rest⟩ := bind_eq_ok.mp rest
        obtain ⟨⟨second, later⟩, again, rest⟩ := bind_eq_ok.mp rest
        cases rest
        exact Or.inr (Or.inr
          ⟨grown, later, rfl, below, expansion, again, rfl⟩)
      · rename_i atLimit
        cases rest
        exact Or.inr (Or.inl ⟨rfl, atLimit, rfl, rfl⟩)

/-- Looking for space does not touch the table. -/
theorem freeSpace_sameTable
    {cache after : Cache}
    {slabClass : Nat}
    {result : Option Nat}
    (returned : freeSpace cache slabClass = .ok (result, after)) :
    SameTable cache after := by
  obtain ⟨first, searched, -, found | atLimit | grew⟩ :=
    freeSpace_cases returned
  · obtain ⟨address, -, -, rfl⟩ := found
    exact ⟨rfl, rfl, rfl, rfl, rfl⟩
  · obtain ⟨-, -, -, rfl⟩ := atLimit
    exact ⟨rfl, rfl, rfl, rfl, rfl⟩
  · obtain ⟨grown, later, -, -, expansion, -, rfl⟩ := grew
    rcases expandCache_cases expansion with
        ⟨slabManager, -, -, rfl⟩ | ⟨-, rfl⟩
    · exact ⟨rfl, rfl, rfl, rfl, rfl⟩
    · exact ⟨rfl, rfl, rfl, rfl, rfl⟩

/-- The two ways `cache_set` gets the old value out of the way. -/
theorem deleteOld_cases
    {cache after : Cache}
    {key : CString}
    (returned : deleteOld cache key = .ok after) :
    (getMeta cache key = none ∧ after = cache) ∨
      ∃ item code,
        getMeta cache key = some item ∧
          cacheDelete cache key = .ok (code, after) := by
  unfold deleteOld at returned
  cases search : getMeta cache key with
  | none =>
      rw [search] at returned
      cases returned
      exact Or.inl ⟨rfl, rfl⟩
  | some item =>
      rw [search] at returned
      obtain ⟨⟨code, deleted⟩, deletion, rest⟩ := bind_eq_ok.mp returned
      cases rest
      exact Or.inr ⟨item, code, rfl, deletion⟩

/-- The two ways `cache_evict` returns. -/
theorem cacheEvict_cases
    {cache after : Cache}
    {slabClass : Nat}
    (returned : cacheEvict cache slabClass = .ok after) :
    (findVictim cache slabClass = none ∧ after = cache) ∨
      ∃ victim code,
        findVictim cache slabClass = some victim ∧
          cacheDelete cache victim.storedKey = .ok (code, after) := by
  unfold cacheEvict at returned
  cases search : findVictim cache slabClass with
  | none =>
      rw [search] at returned
      cases returned
      exact Or.inl ⟨rfl, rfl⟩
  | some victim =>
      rw [search] at returned
      obtain ⟨⟨code, deleted⟩, deletion, rest⟩ := bind_eq_ok.mp returned
      cases rest
      exact Or.inr ⟨victim, code, rfl, deletion⟩

/-- The two ways `cache_set` looks for space. -/
theorem makeSpace_cases
    {cache after : Cache}
    {slabClass : Nat}
    {result : Option Nat}
    (returned : makeSpace cache slabClass = .ok (result, after)) :
    (∃ address,
      freeSpace cache slabClass = .ok (some address, after) ∧
        result = some address) ∨
      ∃ searched evicted,
        freeSpace cache slabClass = .ok (none, searched) ∧
          cacheEvict searched slabClass = .ok evicted ∧
          freeSpace evicted slabClass = .ok (result, after) := by
  obtain ⟨⟨first, searched⟩, search, rest⟩ := bind_eq_ok.mp returned
  cases first with
  | some address =>
      cases rest
      exact Or.inl ⟨address, search, rfl⟩
  | none =>
      obtain ⟨evicted, eviction, rest⟩ := bind_eq_ok.mp rest
      exact Or.inr ⟨searched, evicted, search, eviction, rest⟩

/-- The three ways `cache_set` returns. -/
theorem cacheSet_cases
    {cache after : Cache}
    {key : CString}
    {val : Nat → UInt8}
    {valSize : UInt32}
    {code : UInt8}
    (returned : cacheSet cache key val valSize = .ok (code, after)) :
    (setRefusal cache key val valSize = some code ∧ after = cache) ∨
      ∃ cleared spaced result,
        setRefusal cache key val valSize = none ∧
          deleteOld cache key = .ok cleared ∧
          makeSpace cleared
              (getSlabClass cleared.slabManager valSize.toNat) =
            .ok (result, spaced) ∧
          ((result = none ∧ code = 4 ∧ after = spaced) ∨
            ∃ address,
              result = some address ∧
                storeValue spaced key val valSize.toNat
                    (getSlabClass cleared.slabManager valSize.toNat)
                    address =
                  .ok after ∧
                code = 0) := by
  unfold cacheSet at returned
  cases refusal : setRefusal cache key val valSize with
  | some refused =>
      rw [refusal] at returned
      cases returned
      exact Or.inl ⟨rfl, rfl⟩
  | none =>
      rw [refusal] at returned
      obtain ⟨cleared, deletion, rest⟩ := bind_eq_ok.mp returned
      obtain ⟨⟨result, spaced⟩, space, rest⟩ := bind_eq_ok.mp rest
      refine Or.inr ⟨cleared, spaced, result, rfl, deletion, space, ?_⟩
      cases result with
      | none =>
          cases rest
          exact Or.inl ⟨rfl, rfl, rfl⟩
      | some address =>
          obtain ⟨stored, storing, rest⟩ := bind_eq_ok.mp rest
          cases rest
          exact Or.inr ⟨address, rfl, storing, rfl⟩

/-- The codes `cache_set` returns before it changes anything. -/
theorem setRefusal_code
    {cache : Cache}
    {key : CString}
    {val : Nat → UInt8}
    {valSize : UInt32}
    {code : UInt8}
    (refusal : setRefusal cache key val valSize = some code) :
    code ≠ 0 ∧ code ≠ 4 := by
  unfold setRefusal refusalWithin at refusal
  split_ifs at refusal <;> cases refusal <;> decide

/-- `cache_set` goes on only with a key of at most 32 bytes. -/
theorem admitted_of_setRefusal
    {cache : Cache}
    {key : CString}
    {val : Nat → UInt8}
    {valSize : UInt32}
    (accepted : setRefusal cache key val valSize = none) :
    Admitted key := by
  by_contra tooLong
  have tooLong : 32 < key.length := Nat.lt_of_not_le tooLong
  simp [setRefusal, refusalWithin, tooLong] at accepted

/-- `cache_set` goes on only with a value of at most a slab's size. -/
theorem small_of_setRefusal
    {cache : Cache}
    {key : CString}
    {val : Nat → UInt8}
    {valSize : UInt32}
    (accepted : setRefusal cache key val valSize = none) :
    valSize.toNat ≤ getSlabSize := by
  by_contra tooLarge
  have tooLarge : getSlabSize < valSize.toNat := Nat.lt_of_not_le tooLarge
  unfold setRefusal refusalWithin at accepted
  split_ifs at accepted

/-- `cache_set` goes on only with a value whose last byte is NUL. -/
theorem terminated_of_setRefusal
    {cache : Cache}
    {key : CString}
    {val : Nat → UInt8}
    {valSize : UInt32}
    (accepted : setRefusal cache key val valSize = none) :
    val (valSize - 1).toNat = 0 := by
  by_contra notNul
  unfold setRefusal refusalWithin at accepted
  split_ifs at accepted

/-! ## Elementary moves -/

/--
The changes a call makes to the table.  `key` is the key of the call: only a
meta of that key is ever filed, and only while the table has none.
-/
inductive Move (key : CString) : Cache → Cache → Prop where
  | space
      {cache after : Cache}
      (same : SameTable cache after) :
      Move key cache after
  | delete
      {cache : Cache}
      {victim : CString}
      {item : Meta}
      (found : getMeta cache victim = some item)
      (slabManager : Manager) :
      Move key cache (afterDelete cache victim slabManager)
  | store
      {cache : Cache}
      (admitted : Admitted key)
      (missing : getMeta cache key = none)
      {valSize : Nat}
      (small : valSize ≤ getSlabSize)
      (slabClass address : Nat)
      (slabManager : Manager) :
      Move key cache
        (afterStore cache key valSize slabClass address slabManager)
  | touch
      {cache : Cache}
      {item : Meta}
      (found : getMeta cache key = some item) :
      Move key cache (afterGet cache key)

/-- Any number of moves. -/
abbrev Moves (key : CString) : Cache → Cache → Prop :=
  Relation.ReflTransGen (Move key)

section Moves

variable {key : CString} {cache after : Cache}

/-- Every move keeps the representation invariant. -/
theorem TableOk.move
    (tableOk : TableOk cache)
    (move : Move key cache after) :
    TableOk after := by
  cases move with
  | space same =>
      exact same.tableOk tableOk
  | delete found slabManager =>
      exact tableOk.afterDelete found slabManager
  | store admitted missing small slabClass address slabManager =>
      exact tableOk.afterStore admitted missing slabManager
  | touch found =>
      exact tableOk.afterGet found

/-- What every move keeps in an orderly table, any number of moves keeps. -/
theorem TableOk.invariant
    {Invariant : Cache → Prop}
    (preserved :
      ∀ {cache after},
        TableOk cache → Invariant cache → Move key cache after →
          Invariant after)
    (tableOk : TableOk cache)
    (holds : Invariant cache)
    (moves : Moves key cache after) :
    TableOk after ∧ Invariant after := by
  induction moves with
  | refl =>
      exact ⟨tableOk, holds⟩
  | tail _ last inductionHypothesis =>
      exact ⟨inductionHypothesis.1.move last,
        preserved inductionHypothesis.1 inductionHypothesis.2 last⟩

theorem TableOk.moves
    (tableOk : TableOk cache)
    (moves : Moves key cache after) :
    TableOk after :=
  (TableOk.invariant (fun tableOk _ move => tableOk.move move) tableOk
    tableOk moves).1

/-- A deletion is at most one move. -/
theorem cacheDelete_moves
    {victim : CString}
    {code : UInt8}
    (returned : cacheDelete cache victim = .ok (code, after)) :
    Moves key cache after := by
  rcases cacheDelete_cases returned with
      ⟨-, -, rfl⟩ | ⟨item, slabManager, found, -, -, rfl⟩
  · exact .refl
  · exact .single (.delete found slabManager)

/-- A deletion never brings a key back. -/
theorem cacheDelete_missing
    (tableOk : TableOk cache)
    {victim : CString}
    {code : UInt8}
    (returned : cacheDelete cache victim = .ok (code, after))
    (admitted : Admitted key)
    (missing : getMeta cache key = none ∨ key = victim) :
    getMeta after key = none := by
  rcases cacheDelete_cases returned with
      ⟨absent, -, rfl⟩ | ⟨item, slabManager, found, -, -, rfl⟩
  · rcases missing with missing | rfl
    · exact missing
    · exact absent
  · rw [getMeta_afterDelete tableOk found slabManager admitted]
    rcases missing with missing | rfl
    · simp [missing]
    · simp

/-- Clearing the way leaves the key out of the table. -/
theorem deleteOld_moves
    (tableOk : TableOk cache)
    (admitted : Admitted key)
    (returned : deleteOld cache key = .ok after) :
    Moves key cache after ∧ getMeta after key = none := by
  rcases deleteOld_cases returned with
      ⟨missing, rfl⟩ | ⟨item, code, -, deletion⟩
  · exact ⟨.refl, missing⟩
  · exact ⟨cacheDelete_moves deletion,
      cacheDelete_missing tableOk deletion admitted (Or.inr rfl)⟩

/-- Making space keeps an absent key absent. -/
theorem makeSpace_moves
    (tableOk : TableOk cache)
    (admitted : Admitted key)
    {slabClass : Nat}
    {result : Option Nat}
    (returned : makeSpace cache slabClass = .ok (result, after))
    (missing : getMeta cache key = none) :
    Moves key cache after ∧ getMeta after key = none := by
  rcases makeSpace_cases returned with
      ⟨address, search, -⟩ | ⟨searched, evicted, search, eviction, again⟩
  · have same := freeSpace_sameTable search
    exact ⟨.single (.space same), (same.getMeta key).trans missing⟩
  · have sameBefore := freeSpace_sameTable search
    have sameAfter := freeSpace_sameTable again
    have searchedMissing := (sameBefore.getMeta key).trans missing
    rcases cacheEvict_cases eviction with
        ⟨-, rfl⟩ | ⟨victim, code, -, deletion⟩
    · exact ⟨.tail (.single (.space sameBefore)) (.space sameAfter),
        (sameAfter.getMeta key).trans searchedMissing⟩
    · have stillMissing :=
        cacheDelete_missing (sameBefore.tableOk tableOk) deletion
          admitted (Or.inl searchedMissing)
      refine ⟨?_, (sameAfter.getMeta key).trans stillMissing⟩
      exact .tail
        ((Relation.ReflTransGen.single (.space sameBefore)).trans
          (cacheDelete_moves deletion))
        (.space sameAfter)

/-- A set is a sequence of moves. -/
theorem cacheSet_moves
    (tableOk : TableOk cache)
    {val : Nat → UInt8}
    {valSize : UInt32}
    {code : UInt8}
    (returned : cacheSet cache key val valSize = .ok (code, after)) :
    Moves key cache after := by
  rcases cacheSet_cases returned with
      ⟨-, rfl⟩ | ⟨cleared, spaced, result, accepted, deletion, space, rest⟩
  · exact .refl
  · have admitted := admitted_of_setRefusal accepted
    obtain ⟨clearing, missing⟩ :=
      deleteOld_moves tableOk admitted deletion
    obtain ⟨spacing, stillMissing⟩ :=
      makeSpace_moves (tableOk.moves clearing) admitted space missing
    rcases rest with ⟨-, -, rfl⟩ | ⟨address, -, storing, -⟩
    · exact clearing.trans spacing
    · obtain ⟨slabManager, -, rfl⟩ := storeValue_cases storing
      exact .tail (clearing.trans spacing)
        (.store admitted stillMissing (small_of_setRefusal accepted) _ _ _)

/-- Every call is a sequence of moves. -/
theorem step_moves
    (tableOk : TableOk cache)
    {event : Event}
    (step : cache.Step event after) :
    Moves event.call.key cache after := by
  cases event with
  | set key val valSize code =>
      obtain ⟨⟨result, next⟩, returned, rest⟩ := bind_eq_ok.mp step
      cases rest
      exact cacheSet_moves tableOk returned
  | get key value size =>
      obtain ⟨⟨found, next⟩, returned, rest⟩ := bind_eq_ok.mp step
      cases rest
      rcases cacheGet_cases returned with
          ⟨-, -, rfl⟩ | ⟨item, present, -, rfl⟩
      · exact .refl
      · exact .single (.touch present)
  | delete key code =>
      obtain ⟨⟨result, next⟩, returned, rest⟩ := bind_eq_ok.mp step
      cases rest
      exact cacheDelete_moves returned

end Moves

/-! ## What every run keeps -/

/-- The table of a new cache. -/
theorem createCache_tableOk
    (blocks : Nat → Slab)
    (maxmem : UInt64)
    (hasher : Option HashFunc) :
    TableOk (createCache blocks maxmem hasher) where
  numBuckets := rfl
  placed := by
    intro position item member
    simp only [createCache, ChainedTable.bucketAt,
      List.getElem?_replicate] at member
    split at member <;> simp at member
  unique := by
    intro key admitted
    simp [createCache]

/-- A new cache has no metas. -/
theorem createCache_metas
    (blocks : Nat → Slab)
    (maxmem : UInt64)
    (hasher : Option HashFunc) :
    (createCache blocks maxmem hasher).metas = [] := by
  simp [createCache, Cache.metas]

/--
The rule for invariants of the table.  A property of caches that holds of the
new cache and is kept by every move with an allowed key holds after every run
of calls with allowed keys.
-/
theorem table_invariant
    {Invariant : Cache → Prop}
    {AllowedKey : CString → Prop}
    {blocks : Nat → Slab}
    {maxmem : UInt64}
    {hasher : Option HashFunc}
    (initially : Invariant (createCache blocks maxmem hasher))
    (preserved :
      ∀ {key cache after},
        TableOk cache → Invariant cache → AllowedKey key →
          Move key cache after → Invariant after)
    {history : List Event}
    {cache : Cache}
    (run : Run Cache.Step (createCache blocks maxmem hasher) history cache)
    (allowed : ∀ event ∈ history, AllowedKey event.call.key) :
    TableOk cache ∧ Invariant cache := by
  refine run.invariant (fun cache => TableOk cache ∧ Invariant cache)
    ⟨createCache_tableOk blocks maxmem hasher, initially⟩ ?_ allowed
  rintro cache event after ⟨tableOk, holds⟩ keyAllowed step
  exact TableOk.invariant
    (fun tableOk holds move => preserved tableOk holds keyAllowed move)
    tableOk holds (step_moves tableOk step)

/-! ## Keys that keep their terminator -/

/-- Every stored key has its terminator, at most 31 bytes in. -/
def KeysFit (cache : Cache) : Prop :=
  ∀ item ∈ cache.metas, item.storedKey.length ≤ 31

namespace KeysFit

variable {cache after : Cache}

theorem admitted
    (keysFit : KeysFit cache)
    {item : Meta}
    (member : item ∈ cache.metas) :
    Admitted item.storedKey :=
  Nat.le_succ_of_le (keysFit item member)

theorem move
    {key : CString}
    (tableOk : TableOk cache)
    (keysFit : KeysFit cache)
    (fits : key.length ≤ 31)
    (move : Move key cache after) :
    KeysFit after := by
  intro item member
  cases move with
  | space same =>
      rw [same.metas] at member
      exact keysFit item member
  | delete found slabManager =>
      obtain ⟨before, beforeMember, rfl⟩ :=
        mem_afterDelete tableOk found slabManager member
      rw [tick_storedKey]
      exact keysFit before beforeMember
  | store admitted missing small slabClass address slabManager =>
      rcases mem_afterStore tableOk member with
          rfl | ⟨before, beforeMember, rfl⟩
      · rw [storedKey_of_lt (Nat.lt_succ_of_le fits) newMeta_key]
        exact fits
      · rw [tick_storedKey]
        exact keysFit before beforeMember
  | @touch touched found =>
      rcases mem_afterGet tableOk found member with rfl | isOld
      · exact keysFit touched (getMeta_sound found).1
      · exact keysFit item isOld

theorem moves
    {key : CString}
    (tableOk : TableOk cache)
    (keysFit : KeysFit cache)
    (fits : key.length ≤ 31)
    (moves : Moves key cache after) :
    KeysFit after :=
  (TableOk.invariant
    (fun tableOk keysFit move => keysFit.move tableOk fits move)
    tableOk keysFit moves).2

/-- A key that is too long for its terminator is not in the table. -/
theorem getMeta_eq_none
    (keysFit : KeysFit cache)
    {query : CString}
    (long : 31 < query.length) :
    getMeta cache query = none := by
  cases search : getMeta cache query with
  | none =>
      rfl
  | some item =>
      obtain ⟨member, rfl⟩ := getMeta_sound search
      exact (Nat.not_le_of_lt long (keysFit item member)).elim

end KeysFit

/-- Calls with keys of up to 31 bytes leave only such keys in the table. -/
theorem keysFit_of_run
    {blocks : Nat → Slab}
    {maxmem : UInt64}
    {hasher : Option HashFunc}
    {history : List Event}
    {cache : Cache}
    (run : Run Cache.Step (createCache blocks maxmem hasher) history cache)
    (fits : ∀ event ∈ history, event.call.key.length ≤ 31) :
    KeysFit cache := by
  have initially : KeysFit (createCache blocks maxmem hasher) := by
    rw [KeysFit, createCache_metas]
    simp
  exact (table_invariant initially
    (fun tableOk keysFit fits move => keysFit.move tableOk fits move)
    run fits).2

end CacheBench
