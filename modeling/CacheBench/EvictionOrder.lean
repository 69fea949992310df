import CacheBench.SlotOwnership

namespace CacheBench

open Manager Execution

/-!
# The order of evictions

A set that finds no free slot of its class evicts the value of the class with
the greatest timer.  Timers wrap at 256, so that this is the least recently
used value only as long as no value of the class is older than that.
-/

/--
A set that evicts: the state in which it chooses the victim, the class it needs
a slot of, and the victim.
-/
inductive Evicts
    (cache : Cache)
    (key : CString)
    (val : Nat → UInt8)
    (valSize : UInt32) :
    Cache → Nat → Meta → Prop where
  | intro
      {cleared searched evicted : Cache}
      {victim : Meta}
      (accepted : setRefusal cache key val valSize = none)
      (deleted : deleteOld cache key = .ok cleared)
      (full :
        freeSpace cleared
            (getSlabClass cleared.slabManager valSize.toNat) =
          .ok (none, searched))
      (chosen :
        findVictim searched
            (getSlabClass cleared.slabManager valSize.toNat) =
          some victim)
      (evicted :
        cacheEvict searched
            (getSlabClass cleared.slabManager valSize.toNat) =
          .ok evicted) :
      Evicts cache key val valSize searched
        (getSlabClass cleared.slabManager valSize.toNat) victim

/-- The victim is a live value of the class, and no other one is older. -/
structure OldestOfClass
    (cache : Cache)
    (slabClass : Nat)
    (victim : Meta) : Prop where
  live : getMeta cache victim.storedKey = some victim
  ofClass : victim.slabClass = slabClass
  oldest :
    ∀ item ∈ cache.metas, item.slabClass = slabClass →
      cache.age item ≤ cache.age victim

section Evicts

variable {cache searched : Cache} {key : CString}
variable {val : Nat → UInt8} {valSize : UInt32}
variable {slabClass : Nat} {victim : Meta}

/-- The moves up to the choice of the victim. -/
theorem Evicts.moves
    (tableOk : TableOk cache)
    (evicts : Evicts cache key val valSize searched slabClass victim) :
    Moves key cache searched ∧
      findVictim searched slabClass = some victim := by
  cases evicts with
  | intro accepted deleted full chosen evicted =>
      obtain ⟨clearing, -⟩ :=
        deleteOld_moves tableOk (admitted_of_setRefusal accepted) deleted
      exact ⟨clearing.tail (.space (freeSpace_sameTable full)), chosen⟩

/-- Among values younger than 256 ticks the one chosen is the oldest. -/
theorem oldestOfClass_of_recent
    (tableOk : TableOk cache)
    (keysFit : KeysFit cache)
    (agesOk : AgesOk cache)
    (chosen : findVictim cache slabClass = some victim)
    (recent :
      ∀ item ∈ cache.metas, item.slabClass = slabClass →
        cache.age item ≤ 255) :
    OldestOfClass cache slabClass victim := by
  obtain ⟨member, ofClass, -, greatest⟩ := findVictim_sound chosen
  have timer_eq_age {item : Meta}
      (itemMember : item ∈ cache.metas)
      (sameClass : item.slabClass = slabClass) :
      item.timer.toNat = cache.age item := by
    rw [agesOk.timer item itemMember]
    exact Nat.mod_eq_of_lt
      (Nat.lt_succ_of_le (recent item itemMember sameClass))
  refine ⟨?_, ofClass, ?_⟩
  · exact (tableOk.getMeta_eq_some_iff (keysFit.admitted member)).mpr
      ⟨member, rfl⟩
  · intro item itemMember sameClass
    have timer_le := greatest item itemMember sameClass
    rw [UInt8.le_iff_toNat_le, timer_eq_age itemMember sameClass,
      timer_eq_age member ofClass] at timer_le
    exact timer_le

end Evicts

/--
Every eviction of a run with keys of up to 31 bytes takes the least recently
used value of the class, if no value of the class has gone 256 calls of
`update_timers` without an access.
-/
theorem evicts_least_recently_used
    {blocks : Nat → Slab}
    {maxmem : UInt64}
    {hasher : Option HashFunc}
    {history : List Event}
    {cache searched : Cache}
    (run : Run Cache.Step (createCache blocks maxmem hasher) history cache)
    (fits : ∀ event ∈ history, event.call.key.length ≤ 31)
    {key : CString}
    (keyFits : key.length ≤ 31)
    {val : Nat → UInt8}
    {valSize : UInt32}
    {slabClass : Nat}
    {victim : Meta}
    (evicts : Evicts cache key val valSize searched slabClass victim)
    (recent :
      ∀ item ∈ searched.metas, item.slabClass = slabClass →
        searched.age item ≤ 255) :
    OldestOfClass searched slabClass victim := by
  obtain ⟨tableOk, agesOk⟩ :=
    table_invariant (createCache_agesOk blocks maxmem hasher)
      (fun tableOk agesOk (_ : True) move => agesOk.move tableOk move)
      run (fun _ _ => trivial)
  have keysFit := keysFit_of_run run fits
  obtain ⟨moves, chosen⟩ := evicts.moves tableOk
  obtain ⟨searchedOk, searchedAges⟩ :=
    TableOk.invariant (fun tableOk agesOk move => agesOk.move tableOk move)
      tableOk agesOk moves
  exact oldestOfClass_of_recent searchedOk
    (keysFit.moves tableOk keyFits moves) searchedAges chosen recent

/-! ## Ages above 255 -/

/-- A set into slabs that are full of values evicts the victim it finds. -/
theorem exists_evicts_of_full
    {cache : Cache}
    {key : CString}
    {val : Nat → UInt8}
    {valSize : UInt32}
    {victim : Meta}
    (ok : CacheOk [] cache)
    (accepted : setRefusal cache key val valSize = none)
    (missing : getMeta cache key = none)
    (noGrowth : ¬ cache.CanGrow)
    (full :
      cache.slabManager.slabs.length * memorySize <
        classOf valSize.toNat + (cache.metas.map Meta.slabClass).sum)
    (chosen : findVictim cache (classOf valSize.toNat) = some victim) :
    ∃ searched,
      SameTable cache searched ∧
        Evicts cache key val valSize searched (classOf valSize.toNat)
          victim := by
  have selects := ok.granted.wellFormed.getSlabClass_eq valSize.toNat
  have deleted : deleteOld cache key = .ok cache := by
    simp [deleteOld, missing]
  have isClass := isClass_classOf valSize.toNat
  obtain ⟨result, searched, search, found⟩ := ok.freeSpace isClass
  have isNone : result = none :=
    found.none_iff.mpr ⟨ok.exhausted_of_full isClass full,
      fun canGrow => absurd canGrow noGrowth⟩
  subst result
  have searchedOk : CacheOk [] searched := found.ok
  have stillChosen := (found.same.findVictim _).trans chosen
  have eviction :
      ∃ evicted,
        cacheEvict searched (classOf valSize.toNat) = .ok evicted := by
    rw [cacheEvict, stillChosen]
    cases lookup : getMeta searched victim.storedKey with
    | none =>
        exact ⟨searched, by simp [cacheDelete_of_none lookup, bind,
          Except.bind]⟩
    | some item =>
        obtain ⟨slabManager, deletion, -, -⟩ :=
          searchedOk.cacheDelete lookup
        exact ⟨_, by
          simp only [deletion, bind, Except.bind]
          rfl⟩
  obtain ⟨evicted, eviction⟩ := eviction
  refine ⟨searched, found.same, ?_⟩
  rw [← selects] at search stillChosen eviction ⊢
  exact .intro accepted deleted search stillChosen eviction

/-- The calls of a client that keeps overwriting one of four values. -/
def overwrites (count : Nat) : List Call :=
  [.set (CString.ofText "a") (bytesAt []) 200000,
    .set (CString.ofText "c") (bytesAt []) 200000] ++
    List.replicate count
      (.set (CString.ofText "c") (bytesAt []) 200000) ++
    [.set (CString.ofText "d") (bytesAt []) 200000,
      .set (CString.ofText "b") (bytesAt []) 200000]

/-- The keys of a cache in table order, with their classes and ages. -/
def Cache.summary (cache : Cache) : List (CString × Nat × Nat) :=
  cache.metas.map fun item =>
    (item.storedKey, item.slabClass, cache.age item)

/-- What a fifth value evicts, by evaluation of the calls before it. -/
theorem exists_fifth_value
    (count : Nat)
    (table : List (CString × Nat × Nat))
    (victimKey : CString)
    (victimAge : Nat)
    (absent : CString.ofText "e" ∉ table.map (fun entry => entry.1))
    (filled : (table.map (fun entry => entry.2.1)).sum = memorySize)
    (evaluated :
      returnsSuch
        ((createCache zeroBlocks 0 none).performAll (overwrites count))
        (fun result =>
          result.2.maxmem == 2101264 &&
            result.2.slabManager.slabs.length == 1 &&
            result.2.summary == table &&
            (findVictim result.2 262144).any (fun victim =>
              victim.storedKey == victimKey &&
                result.2.age victim == victimAge)) = true) :
    ∃ history cache searched victim,
      history.map Event.call = overwrites count ∧
        Run Cache.Step (createCache zeroBlocks 0 none) history cache ∧
        Evicts cache (CString.ofText "e") (bytesAt []) 200000 searched
          262144 victim ∧
        victim.storedKey = victimKey ∧
        searched.age victim = victimAge ∧
        searched.summary = table := by
  obtain ⟨history, cache, calls, run, seen⟩ := exists_run evaluated
  simp only [Bool.and_eq_true, beq_iff_eq, Option.any_eq_true] at seen
  obtain ⟨⟨⟨maxmem, oneSlab⟩, summary⟩, victim, chosen, isKey, isAge⟩ := seen
  have bounded : ∀ event ∈ history, event.Bounded := by
    apply bounded_of_calls calls
    intro call member
    simp only [overwrites, List.mem_append, List.mem_cons,
      List.not_mem_nil, or_false, List.mem_replicate] at member
    rcases member with ((rfl | rfl) | ⟨-, rfl⟩) | rfl | rfl <;> decide
  obtain ⟨ok, -⟩ := cacheOk_of_run zeroBlocks_disjoint run bounded
  have isClass : classOf (200000 : UInt32).toNat = 262144 := by
    decide
  have accepted :
      setRefusal cache (CString.ofText "e") (bytesAt []) 200000 = none := by
    rw [setRefusal, refusalWithin, maxmem]
    decide
  have missing : getMeta cache (CString.ofText "e") = none := by
    have admitted : Admitted (CString.ofText "e") := by
      unfold Admitted
      decide
    rw [ok.table.getMeta_eq_none_iff admitted]
    intro item member isKey
    apply absent
    rw [← summary, Cache.summary, List.map_map, ← isKey]
    exact List.mem_map_of_mem member
  have noGrowth : ¬ cache.CanGrow := by
    rw [Cache.CanGrow, oneSlab, maxmem]
    decide
  have full :
      cache.slabManager.slabs.length * memorySize <
        classOf (200000 : UInt32).toNat +
          (cache.metas.map Meta.slabClass).sum := by
    rw [← summary, Cache.summary, List.map_map] at filled
    have filled : (cache.metas.map Meta.slabClass).sum = memorySize := filled
    rw [filled, isClass, oneSlab]
    decide
  obtain ⟨searched, same, evicts⟩ :=
    exists_evicts_of_full ok accepted missing noGrowth full
      (isClass ▸ chosen)
  rw [isClass] at evicts
  have sameAge (item : Meta) : searched.age item = cache.age item := by
    rw [Cache.age, Cache.age, same.ticks]
  have sameSummary : searched.summary = cache.summary := by
    simp only [Cache.summary, sameAge, same.metas]
  exact ⟨history, cache, searched, victim, calls, run, evicts, isKey,
    (sameAge victim).trans isAge, sameSummary.trans summary⟩

/-- A fifth value evicts the one that was set first. -/
theorem evicts_least_recently_used_first :
    ∃ (history : List Event) (cache searched : Cache) (victim : Meta),
      history.map Event.call = overwrites 0 ∧
        Run Cache.Step (createCache zeroBlocks 0 none) history cache ∧
        Evicts cache (CString.ofText "e") (bytesAt []) 200000 searched
          262144 victim ∧
        victim.storedKey = CString.ofText "a" ∧
        searched.age victim = 3 ∧
        OldestOfClass searched 262144 victim := by
  obtain ⟨history, cache, searched, victim, calls, run, evicts, isFirst,
      age, summary⟩ :=
    exists_fifth_value 0
      [(CString.ofText "a", 262144, 3), (CString.ofText "b", 262144, 0),
        (CString.ofText "c", 262144, 2), (CString.ofText "d", 262144, 1)]
      (CString.ofText "a") 3 (by decide) (by decide) (by decide +kernel)
  refine ⟨history, cache, searched, victim, calls, run, evicts, isFirst,
    age, evicts_least_recently_used run
      (forall_call (fun call => call.key.length ≤ 31) calls (by decide))
      (by decide) evicts ?_⟩
  intro item member _
  have recent : ∀ entry ∈ searched.summary, entry.2.2 ≤ 255 := by
    rw [summary]
    decide
  exact recent _ (List.mem_map_of_mem member)

/--
After 127 overwrites the fifth value evicts one of age 2, while a value of age
257 stays: its timer is 1.
-/
theorem older_value_spared :
    ∃ (history : List Event) (cache searched : Cache) (victim item : Meta),
      history.map Event.call = overwrites 127 ∧
        Run Cache.Step (createCache zeroBlocks 0 none) history cache ∧
        Evicts cache (CString.ofText "e") (bytesAt []) 200000 searched
          262144 victim ∧
        victim.storedKey = CString.ofText "c" ∧
        searched.age victim = 2 ∧
        item ∈ searched.metas ∧
        item.storedKey = CString.ofText "a" ∧
        item.slabClass = 262144 ∧
        searched.age item = 257 := by
  obtain ⟨history, cache, searched, victim, calls, run, evicts, isSecond,
      age, summary⟩ :=
    exists_fifth_value 127
      [(CString.ofText "a", 262144, 257), (CString.ofText "b", 262144, 0),
        (CString.ofText "c", 262144, 2), (CString.ofText "d", 262144, 1)]
      (CString.ofText "c") 2 (by decide) (by decide) (by decide +kernel)
  have inSummary :
      (CString.ofText "a", 262144, 257) ∈ searched.summary := by
    simp [summary]
  obtain ⟨item, member, isEntry⟩ := List.mem_map.mp inSummary
  simp only [Prod.mk.injEq] at isEntry
  exact ⟨history, cache, searched, victim, item, calls, run, evicts,
    isSecond, age, member, isEntry.1, isEntry.2.1, isEntry.2.2⟩

end CacheBench
