import CacheBench.SlotOwnership
import CacheBench.EvictingMap

namespace CacheBench

open Execution EvictingMap

/-!
# The cache refines a map that may forget

For keys that keep their terminator and string values of up to 2^20 bytes, the
contents of the cache are an evicting map.  Every call returns, and what it
returns and leaves is a step of the map.
-/

/-- A call with a short key and, for a set, a string of at most 2^20 bytes. -/
def Call.Permitted : Call → Prop
  | .set key val valSize =>
      key.length ≤ 31 ∧ valSize.toNat ≤ 2 ^ 20 ∧
        ∃ string : CString,
          bytesFrom val 0 valSize.toNat = string.bytes ++ [0]
  | .get key => key.length ≤ 31
  | .delete key => key.length ≤ 31

namespace Call.Permitted

variable {call : Call}

theorem keyFits
    (permitted : call.Permitted) :
    call.key.length ≤ 31 := by
  cases call with
  | set key val valSize => exact permitted.1
  | get key => exact permitted
  | delete key => exact permitted

theorem bounded
    (permitted : call.Permitted) :
    call.Bounded := by
  cases call with
  | set key val valSize => exact permitted.2.1
  | get key => trivial
  | delete key => trivial

end Call.Permitted

/-- The action of the map an event stands for. -/
def Event.action : Event → Action CString (List UInt8)
  | .set key val valSize code =>
      .set key (bytesFrom val 0 valSize.toNat) (code == 0)
  | .get key value _ => .get key value
  | .delete key code => .delete key (code == 0)

/-- Two values that are kept in slots of the same class. -/
def SameSlabClass (old new : List UInt8) : Prop :=
  classOf old.length = classOf new.length

/-- The states that stand for a map of short keys to strings. -/
structure MapOk (cache : Cache) : Prop where
  ok : CacheOk [] cache
  keysFit : KeysFit cache
  strings :
    ∀ {key value}, cache.contents key = some value →
      ∃ string : CString, value = string.bytes ++ [0]

/-! ## Lookups of arbitrary keys -/

section Contents

variable {cache after : Cache}

/-- Contents agree with a map as soon as they do on short keys. -/
theorem contents_ext
    (keysFit : KeysFit after)
    {map : CString → Option (List UInt8)}
    (short : ∀ query, Admitted query → after.contents query = map query)
    (long : ∀ query, 31 < query.length → map query = none) :
    after.contents = map := by
  funext query
  by_cases fits : query.length ≤ 31
  · exact short query (Nat.le_succ_of_le fits)
  · have tooLong := Nat.lt_of_not_le fits
    rw [Cache.contents, keysFit.getMeta_eq_none tooLong, long query tooLong]
    rfl

theorem contents_of_long
    (keysFit : KeysFit cache)
    {query : CString}
    (long : 31 < query.length) :
    cache.contents query = none := by
  rw [Cache.contents, keysFit.getMeta_eq_none long]
  rfl

/-- A present key has the value of its meta. -/
theorem contents_of_getMeta
    {key : CString}
    {item : Meta}
    (found : getMeta cache key = some item) :
    cache.contents key = some (cache.valueOf item) := by
  rw [Cache.contents, found]
  rfl

end Contents

/-! ## One call -/

section Steps

variable {cache after : Cache} {key : CString}
variable {val : Nat → UInt8} {valSize : UInt32}

/-- A permitted set passes the checks at the head of `cache_set`. -/
theorem setRefusal_of_permitted
    (limits : Limits cache)
    (permitted : (Call.set key val valSize).Permitted) :
    setRefusal cache key val valSize = none := by
  obtain ⟨keyFits, bounded, string, isString⟩ := permitted
  exact limits.setRefusal_eq_none (Nat.le_succ_of_le keyFits) bounded
    isString

/-- With short keys only, a search that stays without space evicted nothing. -/
theorem Spaced.of_none
    {slabClass : Nat}
    (keysFit : KeysFit cache)
    (spaced : Spaced cache slabClass none after) :
    ∃ searched,
      Searched cache slabClass none searched ∧
        findVictim searched slabClass = none ∧
        Searched searched slabClass none after := by
  have found {searched : Cache} {victim : Meta}
      (full : Searched cache slabClass none searched)
      (chosen : findVictim searched slabClass = some victim) :
      getMeta searched victim.storedKey = some victim ∧
        victim.slabClass = slabClass := by
    obtain ⟨member, sameClass, -, -⟩ := findVictim_sound chosen
    have oldMember : victim ∈ cache.metas := by
      rw [← full.same.metas]
      exact member
    refine ⟨?_, sameClass⟩
    exact (full.ok.table.getMeta_eq_some_iff
      (keysFit.admitted oldMember)).mpr ⟨member, rfl⟩
  cases spaced with
  | kept full noVictim again =>
      exact ⟨_, full, noVictim, again⟩
  | lost full chosen notFound again =>
      rw [(found full chosen).1] at notFound
      cases notFound
  | @evicted _ searched _ victim item slabManager full chosen present freed
      trimmedOk again =>
      obtain ⟨isVictim, sameClass⟩ := found full chosen
      rw [present, Option.some.injEq] at isVictim
      subst item
      have exhausted : slabManager.Exhausted slabClass :=
        (again.none_iff.mp rfl).1
      rw [← sameClass] at exhausted
      exact (freed.notExhausted exhausted).elim

/-- Clearing the old value away leaves only keys that fit. -/
theorem Cleared.keysFit
    {cleared : Cache}
    (clearing : Cleared cache key cleared)
    (tableOk : TableOk cache)
    (keysFit : KeysFit cache) :
    KeysFit cleared := by
  intro item member
  cases clearing with
  | absent missing =>
      exact keysFit item member
  | deleted found freed =>
      obtain ⟨before, beforeMember, rfl⟩ :=
        mem_afterDelete tableOk found _ member
      rw [tick_storedKey]
      exact keysFit before beforeMember

/-- A set that ran out of space has dropped the key's old value. -/
theorem contents_of_full
    (ok : CacheOk [] cache)
    (keysFit : KeysFit cache)
    {cleared : Cache}
    {slabClass : Nat}
    (clearing : Cleared cache key cleared)
    (clearedOk : CacheOk [] cleared)
    (spacing : Spaced cleared slabClass none after) :
    after.contents = drop cache.contents key := by
  have clearedFits := clearing.keysFit ok.table keysFit
  obtain ⟨searched, full, -, again⟩ :=
    spacing.of_none clearedFits
  have afterFits : KeysFit after := by
    intro item member
    rw [again.same.metas, full.same.metas] at member
    exact clearedFits item member
  refine contents_ext afterFits ?_ ?_
  · intro query admitted
    rw [again.contents full.ok query, full.contents clearedOk query,
      clearing.contents ok admitted]
    by_cases same : query = key
    · simp [drop, same]
    · simp [drop, same]
  · intro query long
    by_cases same : query = key
    · simp [drop, same]
    · simp [drop, same, contents_of_long keysFit long]

/-- A set that returns 0 puts the value in, with or without an eviction. -/
theorem step_of_stored
    (ok : CacheOk [] cache)
    (keysFit : KeysFit cache)
    (fits : key.length ≤ 31)
    {cleared spaced : Cache}
    {address : Nat}
    {slabManager : Manager}
    (clearing : Cleared cache key cleared)
    (clearedOk : CacheOk [] cleared)
    (spacing :
      Spaced cleared (classOf valSize.toNat) (some address) spaced)
    (spacedOk : CacheOk [⟨address, classOf valSize.toNat⟩] spaced)
    (missing : getMeta spaced key = none)
    (filed : Filed spaced val valSize.toNat address slabManager)
    (afterFits :
      KeysFit
        (afterStore spaced key valSize.toNat (classOf valSize.toNat)
          address slabManager)) :
    EvictingMap.Step SameSlabClass cache.contents
      (.set key (bytesFrom val 0 valSize.toNat) true)
      (afterStore spaced key valSize.toNat (classOf valSize.toNat)
        address slabManager).contents := by
  have admitted : Admitted key := Nat.le_succ_of_le fits
  have ownKey :
      (newMeta spaced key valSize.toNat (classOf valSize.toNat)
        address).storedKey = key :=
    storedKey_of_lt (Nat.lt_succ_of_le fits) newMeta_key
  have stored (query : CString) (queryAdmitted : Admitted query) :
      (afterStore spaced key valSize.toNat (classOf valSize.toNat)
          address slabManager).contents query =
        if query = key then
          some (bytesFrom val 0 valSize.toNat)
        else
          spaced.contents query := by
    rw [contents_afterStore spacedOk admitted missing filed queryAdmitted,
      ownKey]
    simp only [eq_comm]
  rcases spacing.contents clearedOk with same |
      ⟨victim, victimAdmitted, present, victimClass, trimmed⟩
  · have contents :
        (afterStore spaced key valSize.toNat (classOf valSize.toNat)
            address slabManager).contents =
          put cache.contents key (bytesFrom val 0 valSize.toNat) := by
      refine contents_ext afterFits ?_ ?_
      · intro query queryAdmitted
        rw [stored query queryAdmitted, same query queryAdmitted,
          clearing.contents ok queryAdmitted]
        by_cases isKey : query = key <;> simp [put, isKey]
      · intro query long
        have notKey : query ≠ key := by
          rintro rfl
          exact Nat.not_le_of_lt long fits
        simp [put, notKey, contents_of_long keysFit long]
    rw [contents]
    exact .set _ _ _
  · have victimMember := (getMeta_sound present).1
    have notKey : victim.storedKey ≠ key := by
      intro isKey
      rw [isKey, clearing.missing ok admitted] at present
      cases present
    have contents :
        (afterStore spaced key valSize.toNat (classOf valSize.toNat)
            address slabManager).contents =
          put (drop cache.contents victim.storedKey) key
            (bytesFrom val 0 valSize.toNat) := by
      refine contents_ext afterFits ?_ ?_
      · intro query queryAdmitted
        rw [stored query queryAdmitted, trimmed query queryAdmitted,
          clearing.contents ok queryAdmitted]
        by_cases isKey : query = key
        · simp [put, isKey]
        · by_cases isVictim : query = victim.storedKey <;>
            simp [put, drop, isKey, isVictim, notKey]
      · intro query long
        have queryNotKey : query ≠ key := by
          rintro rfl
          exact Nat.not_le_of_lt long fits
        by_cases isVictim : query = victim.storedKey <;>
          simp [put, drop, queryNotKey, isVictim, notKey,
            contents_of_long keysFit long]
    have oldValue :
        cache.contents victim.storedKey = some (cleared.valueOf victim) := by
      rw [← contents_of_getMeta present,
        clearing.contents ok victimAdmitted, if_neg notKey]
    rw [contents]
    refine .setEvicting notKey oldValue ?_
    rw [SameSlabClass, length_valueOf, length_bytesFrom, ← victimClass]
    exact (clearedOk.selected victim victimMember).symm

/-- Every permitted call returns. -/
theorem MapOk.perform
    (mapOk : MapOk cache)
    {call : Call}
    (permitted : call.Permitted) :
    ∃ event after, cache.perform call = .ok (event, after) := by
  cases call with
  | set key val valSize =>
      obtain ⟨code, after, returned, -, -⟩ :=
        mapOk.ok.cacheSet key val permitted.bounded
      exact ⟨_, _, by
        rw [Cache.perform, returned]
        rfl⟩
  | get key =>
      cases search : getMeta cache key with
      | none =>
          exact ⟨_, _, by
            simp only [Cache.perform, cacheGet, search]
            rfl⟩
      | some item =>
          obtain ⟨string, isString⟩ :=
            mapOk.strings (contents_of_getMeta search)
          exact ⟨_, _, by
            rw [Cache.perform, mapOk.ok.cacheGet search isString]
            rfl⟩
  | delete key =>
      cases search : getMeta cache key with
      | none =>
          exact ⟨_, _, by
            rw [Cache.perform, cacheDelete_of_none search]
            rfl⟩
      | some item =>
          obtain ⟨slabManager, deletion, -, -⟩ :=
            mapOk.ok.cacheDelete search
          exact ⟨_, _, by
            rw [Cache.perform, deletion]
            rfl⟩

/-- The set of a permitted call is a step of the map. -/
theorem MapOk.set_refines
    (mapOk : MapOk cache)
    (permitted : (Call.set key val valSize).Permitted)
    {code : UInt8}
    (returned : cacheSet cache key val valSize = .ok (code, after))
    (afterFits : KeysFit after) :
    EvictingMap.Step SameSlabClass cache.contents
      (.set key (bytesFrom val 0 valSize.toNat) (code == 0))
      after.contents := by
  have ok := mapOk.ok
  have keysFit := mapOk.keysFit
  obtain ⟨code', after', expected, -, result⟩ :=
    ok.cacheSet key val permitted.bounded
  rw [returned] at expected
  cases expected
  have admitted : Admitted key := Nat.le_succ_of_le permitted.keyFits
  cases result with
  | refused refusal =>
      rw [setRefusal_of_permitted ok.limits permitted] at refusal
      cases refusal
  | full accepted clearing clearedOk spacing =>
      rw [contents_of_full ok keysFit clearing clearedOk spacing]
      exact .setRefused _ _ _
  | stored accepted clearing clearedOk spacing spacedOk missing filed =>
      exact step_of_stored ok keysFit permitted.keyFits clearing clearedOk
        spacing spacedOk missing filed afterFits

/-- A get is a step of the map. -/
theorem MapOk.get_refines
    (mapOk : MapOk cache)
    {found : Found}
    (returned : cacheGet cache key = .ok (found, after))
    (afterFits : KeysFit after) :
    EvictingMap.Step SameSlabClass cache.contents
      (.get key
        (found.address.map fun address =>
          bytesFrom after.slabManager.byteAt address found.size))
      after.contents := by
  rcases cacheGet_cases returned with
      ⟨missing, rfl, rfl⟩ | ⟨item, present, rfl, rfl⟩
  · refine .get ?_
    rw [Cache.contents, missing]
    rfl
  · have same : (afterGet cache key).contents = cache.contents := by
      refine contents_ext afterFits ?_ ?_
      · intro query admitted
        exact contents_afterGet mapOk.ok present admitted
      · intro query long
        exact contents_of_long mapOk.keysFit long
    rw [same]
    exact .get (contents_of_getMeta present)

/-- A delete is a step of the map. -/
theorem MapOk.delete_refines
    (mapOk : MapOk cache)
    {code : UInt8}
    (returned : cacheDelete cache key = .ok (code, after))
    (afterFits : KeysFit after) :
    EvictingMap.Step SameSlabClass cache.contents
      (.delete key (code == 0)) after.contents := by
  cases search : getMeta cache key with
  | none =>
      rw [cacheDelete_of_none search] at returned
      cases returned
      refine .deleteAbsent ?_
      rw [Cache.contents, search]
      rfl
  | some item =>
      obtain ⟨slabManager, deletion, -, freed⟩ :=
        mapOk.ok.cacheDelete search
      rw [returned] at deletion
      cases deletion
      have dropped :
          (afterDelete cache key slabManager).contents =
            drop cache.contents key := by
        refine contents_ext afterFits ?_ ?_
        · intro query admitted
          rw [contents_afterDelete mapOk.ok search freed admitted]
          by_cases same : query = key <;> simp [drop, same]
        · intro query long
          by_cases same : query = key <;>
            simp [drop, same, contents_of_long mapOk.keysFit long]
      rw [dropped]
      exact .delete (contents_of_getMeta search)

/-- Every permitted call is a step of the map and keeps the invariant. -/
theorem MapOk.step
    (mapOk : MapOk cache)
    {event : Event}
    (permitted : event.call.Permitted)
    (step : cache.Step event after) :
    MapOk after ∧
      EvictingMap.Step SameSlabClass cache.contents event.action
        after.contents := by
  have ok := mapOk.ok
  have afterFits : KeysFit after :=
    mapOk.keysFit.moves ok.table permitted.keyFits
      (step_moves ok.table step)
  have refines :
      EvictingMap.Step SameSlabClass cache.contents event.action
        after.contents := by
    cases event with
    | set key val valSize code =>
        obtain ⟨⟨result, next⟩, returned, rest⟩ := bind_eq_ok.mp step
        cases rest
        exact mapOk.set_refines permitted returned afterFits
    | get key value size =>
        obtain ⟨⟨found, next⟩, returned, rest⟩ := bind_eq_ok.mp step
        cases rest
        exact mapOk.get_refines returned afterFits
    | delete key code =>
        obtain ⟨⟨result, next⟩, returned, rest⟩ := bind_eq_ok.mp step
        cases rest
        exact mapOk.delete_refines returned afterFits
  have afterOk :=
    (ok.step (Event.bounded_of_call permitted.bounded) step).1
  refine ⟨⟨afterOk, afterFits, ?_⟩, refines⟩
  intro key value present
  rcases refines.entry present with isSet | ⟨before, -⟩
  · cases event with
    | set other val valSize code =>
        obtain ⟨-, -, string, isString⟩ := permitted
        simp only [Event.action, Action.set.injEq] at isSet
        exact ⟨string, isSet.2.1 ▸ isString⟩
    | get other found size =>
        cases isSet
    | delete other code =>
        cases isSet
  · exact mapOk.strings before

/-- A new cache stands for the empty map. -/
theorem createCache_mapOk
    {blocks : Nat → Slab}
    (disjoint : DisjointBlocks blocks)
    (maxmem : UInt64)
    (hasher : Option HashFunc) :
    MapOk (createCache blocks maxmem hasher) ∧
      (createCache blocks maxmem hasher).contents = EvictingMap.empty := by
  have ok := createCache_ok disjoint maxmem hasher
  have noMetas := createCache_metas blocks maxmem hasher
  have noContents :
      (createCache blocks maxmem hasher).contents = EvictingMap.empty := by
    funext key
    rw [Cache.contents, getMeta_of_no_metas noMetas]
    rfl
  refine ⟨⟨ok, ?_, ?_⟩, noContents⟩
  · intro item member
    rw [noMetas] at member
    cases member
  · intro key value present
    rw [noContents] at present
    cases present

end Steps

/-! ## Whole runs -/

/--
What a client can rely on after a run: every permitted call returns, is a step
of the map and reports the size of the value it returns, and the value a get
returns is that of the latest set of the key.
-/
structure RefinesMap (history : List Event) (cache : Cache) : Prop where
  returns :
    ∀ call : Call, call.Permitted →
      ∃ event after, event.call = call ∧ cache.Step event after
  simulated :
    ∀ {event after}, event.call.Permitted → cache.Step event after →
      EvictingMap.Step SameSlabClass cache.contents event.action
        after.contents
  sized :
    ∀ {key value size after}, cache.Step (.get key value size) after →
      size = (value.map List.length).getD 0
  latest :
    ∀ {key value size after}, key.length ≤ 31 →
      cache.Step (.get key (some value) size) after →
        Since (fun event => ¬ event.action.Touches key)
          (fun event => event.action = .set key value true) history

/-- The size a get reports is the length of the bytes it returns. -/
theorem size_of_get
    {cache after : Cache}
    {key : CString}
    {value : Option (List UInt8)}
    {size : Nat}
    (step : cache.Step (.get key value size) after) :
    size = (value.map List.length).getD 0 := by
  obtain ⟨⟨found, next⟩, returned, rest⟩ := bind_eq_ok.mp step
  cases rest
  rcases cacheGet_cases returned with
      ⟨-, rfl, -⟩ | ⟨item, -, rfl, -⟩
  · rfl
  · simp

/-- Every run of permitted calls refines the evicting map. -/
theorem cache_refines_evicting_map
    {blocks : Nat → Slab}
    (disjoint : DisjointBlocks blocks)
    {maxmem : UInt64}
    {hasher : Option HashFunc}
    {history : List Event}
    {cache : Cache}
    (run : Run Cache.Step (createCache blocks maxmem hasher) history cache)
    (permitted : ∀ event ∈ history, event.call.Permitted) :
    (createCache blocks maxmem hasher).contents = EvictingMap.empty ∧
      RefinesMap history cache := by
  obtain ⟨initially, startsEmpty⟩ :=
    createCache_mapOk disjoint maxmem hasher
  obtain ⟨mapOk, mapRun⟩ :=
    run.simulates Cache.contents Event.action MapOk initially
      (fun mapOk permitted step => mapOk.step permitted step) permitted
  rw [startsEmpty] at mapRun
  refine ⟨startsEmpty, ?_, ?_, size_of_get, ?_⟩
  · intro call permitted
    obtain ⟨event, after, performed⟩ := mapOk.perform permitted
    exact ⟨event, after, call_of_perform performed,
      step_of_perform performed⟩
  · intro event after permitted step
    exact (mapOk.step permitted step).2
  · intro key value size after keyFits step
    have permitted : (Event.get key (some value) size).call.Permitted :=
      keyFits
    have present : cache.contents key = some value :=
      (mapOk.step permitted step).2.of_get.1
    exact (entry_since mapRun present).of_map

/-! ## A run with an eviction -/

/-- A string of `size - 1` letters and its terminator. -/
def letters (size position : Nat) : UInt8 :=
  if position + 1 < size then 65 else 0

theorem exists_string_letters (count : Nat) :
    ∃ string : CString,
      bytesFrom (letters (count + 1)) 0 (count + 1) =
        string.bytes ++ [0] := by
  refine ⟨⟨List.replicate count 65, ?_⟩, ?_⟩
  · rw [List.mem_replicate]
    exact fun isNul => absurd isNul.2 (by decide)
  · rw [bytesFrom, List.range_succ, List.map_append]
    congr 1
    · rw [List.eq_replicate_iff]
      refine ⟨by simp, ?_⟩
      intro byte member
      obtain ⟨position, inRange, rfl⟩ := List.mem_map.mp member
      rw [List.mem_range] at inRange
      rw [letters, if_pos (by omega)]
    · simp [letters]

section Victim

variable {cache after : Cache} {key : CString}
variable {slabClass : Nat} {result : Option Nat}

/-- Making space in a class that is full and does not grow takes the victim. -/
private theorem Spaced.victim_missing
    {victim : Meta}
    (allUsed : cache.slabManager.Exhausted slabClass)
    (notUsable :
      cache.CanGrow →
        ¬ Usable
          (cache.slabManager.blocks cache.slabManager.slabs.length)
          slabClass)
    (chosen : findVictim cache slabClass = some victim)
    (admitted : Admitted victim.storedKey)
    (spaced : Spaced cache slabClass result after) :
    getMeta after victim.storedKey = none := by
  cases spaced with
  | direct found =>
      cases found.none_iff.mpr ⟨allUsed, notUsable⟩
  | kept full noVictim again =>
      rw [full.same.findVictim, chosen] at noVictim
      cases noVictim
  | lost full otherChosen notFound again =>
      rw [full.same.findVictim, chosen] at otherChosen
      cases otherChosen
      rw [again.same.getMeta, notFound]
  | evicted full otherChosen found freed trimmedOk again =>
      rw [full.same.findVictim, chosen] at otherChosen
      cases otherChosen
      rw [again.same.getMeta,
        getMeta_afterDelete full.ok.table found _ admitted, if_pos rfl]

/-- A set of a new key into such a class loses the victim. -/
theorem exists_victim_missing
    {val : Nat → UInt8}
    {valSize : UInt32}
    {victim : Meta}
    (ok : CacheOk [] cache)
    (accepted : setRefusal cache key val valSize = none)
    (bounded : valSize.toNat ≤ 2 ^ 20)
    (fits : key.length ≤ 31)
    (missing : getMeta cache key = none)
    (allUsed : cache.slabManager.Exhausted (classOf valSize.toNat))
    (notUsable :
      cache.CanGrow →
        ¬ Usable
          (cache.slabManager.blocks cache.slabManager.slabs.length)
          (classOf valSize.toNat))
    (chosen : findVictim cache (classOf valSize.toNat) = some victim)
    (victimAdmitted : Admitted victim.storedKey)
    (different : victim.storedKey ≠ key) :
    ∃ code after,
      cacheSet cache key val valSize = .ok (code, after) ∧
        getMeta after victim.storedKey = none := by
  have admitted := admitted_of_setRefusal accepted
  obtain ⟨code, after, returned, -, result⟩ := ok.cacheSet key val bounded
  have same {cleared : Cache} (clearing : Cleared cache key cleared) :
      cleared = cache := by
    cases clearing with
    | absent _ => rfl
    | deleted found freed =>
        rw [missing] at found
        cases found
  refine ⟨code, after, returned, ?_⟩
  cases result with
  | refused refusal =>
      rw [accepted] at refusal
      cases refusal
  | full _ clearing clearedOk spacing =>
      rw [same clearing] at spacing
      exact spacing.victim_missing allUsed notUsable chosen victimAdmitted
  | stored _ clearing clearedOk spacing spacedOk stillMissing filed =>
      rw [same clearing] at spacing
      rw [getMeta_afterStore spacedOk.table admitted stillMissing _
          victimAdmitted,
        storedKey_of_lt (Nat.lt_succ_of_le fits) newMeta_key,
        if_neg different.symm,
        spacing.victim_missing allUsed notUsable chosen victimAdmitted]
      rfl

end Victim

/--
When the only slab has two values of 300000 bytes and the first is the victim, a
third value evicts it.
-/
theorem exists_third_value
    {blocks : Nat → Slab}
    (disjoint : DisjointBlocks blocks)
    {maxmem : UInt64}
    {first : List Call}
    (bounded : ∀ call ∈ first, call.Bounded)
    {grows : Bool}
    (notUsable : grows = true → ¬ Usable (blocks 1) 524288)
    (evaluated :
      returnsSuch ((createCache blocks maxmem none).performAll first)
        (fun result =>
          result.2.slabManager.slabs.length == 1 &&
            (result.2.metas.map Meta.slabClass).sum == memorySize &&
            (getMeta result.2 (CString.ofText "c")).isNone &&
            (setRefusal result.2 (CString.ofText "c") (letters 300000)
              300000).isNone &&
            decide (result.2.maxmem - result.2.size.toUInt64 >
              UInt64.ofNat getSlabSize) == grows &&
            (findVictim result.2 524288).any (fun victim =>
              victim.storedKey == CString.ofText "a")) = true) :
    ∃ (history : List Event) (cache after : Cache) (item : Meta)
        (code : UInt8),
      history.map Event.call = first ∧
        Run Cache.Step (createCache blocks maxmem none) history cache ∧
        cacheSet cache (CString.ofText "c") (letters 300000) 300000 =
          .ok (code, after) ∧
        getMeta cache (CString.ofText "a") = some item ∧
        item.slabClass = classOf (300000 : UInt32).toNat ∧
        0 < item.timer ∧
        getMeta after (CString.ofText "a") = none ∧
        getMeta cache (CString.ofText "c") = none ∧
        decide (cache.maxmem - cache.size.toUInt64 >
          UInt64.ofNat getSlabSize) = grows := by
  obtain ⟨history, cache, calls, run, seen⟩ := exists_run evaluated
  simp only [Bool.and_eq_true, beq_iff_eq, Option.isNone_iff_eq_none,
    Option.any_eq_true] at seen
  obtain ⟨⟨⟨⟨⟨oneSlab, filled⟩, missing⟩, accepted⟩, growth⟩, victim,
      chosen, isFirst⟩ := seen
  obtain ⟨ok, sameBlocks⟩ :=
    cacheOk_of_run disjoint run (bounded_of_calls calls bounded)
  have isClass : classOf (300000 : UInt32).toNat = 524288 := by
    decide
  have full :
      cache.slabManager.slabs.length * memorySize <
        524288 + (cache.metas.map Meta.slabClass).sum := by
    rw [oneSlab, filled]
    decide
  have noSlot :
      cache.CanGrow →
        ¬ Usable
          (cache.slabManager.blocks cache.slabManager.slabs.length)
          524288 := by
    rw [← expandTest_iff ok.limits, sameBlocks, oneSlab]
    intro test
    exact notUsable (growth.symm.trans (decide_eq_true test))
  rw [← isClass] at full noSlot chosen
  obtain ⟨member, ofClass, above, -⟩ := findVictim_sound chosen
  have present : getMeta cache (CString.ofText "a") = some victim :=
    (ok.table.getMeta_eq_some_iff
      (by decide : (CString.ofText "a").length ≤ 32)).mpr ⟨member, isFirst⟩
  obtain ⟨code, after, returned, absent⟩ :=
    exists_victim_missing ok accepted (by decide) (by decide) missing
      (ok.exhausted_of_full (isClass_classOf _) full) noSlot chosen
      (by
        rw [isFirst, Admitted]
        decide)
      (by
        rw [isFirst]
        decide)
  rw [isFirst] at absent
  exact ⟨history, cache, after, victim, code, calls, run, returned, present,
    ofClass, above, absent, missing, growth⟩

/-- A value is overwritten, one is deleted, and the only slab fills up. -/
def churn : List Call :=
  [.get (CString.ofText "b"),
    .set (CString.ofText "a") (letters 300000) 300000,
    .set (CString.ofText "a") (letters 300000) 300000,
    .set (CString.ofText "b") (letters 300000) 300000,
    .delete (CString.ofText "b"),
    .set (CString.ofText "b") (letters 300000) 300000]

/--
A run that misses, overwrites, deletes and then evicts: the third value takes
the place of the first, which is missed.
-/
theorem cache_refines_evicting_map_of_churn :
    ∃ (history : List Event) (cache : Cache),
      history.map Event.call =
          churn ++
            [.set (CString.ofText "c") (letters 300000) 300000,
              .get (CString.ofText "a")] ∧
        Run Cache.Step (createCache zeroBlocks 0 none) history cache ∧
        .get (CString.ofText "a") none 0 ∈ history ∧
        RefinesMap history cache := by
  obtain ⟨history, cache, after, item, code, calls, run, returned, -, -, -,
      absent, -, -⟩ :=
    @exists_third_value zeroBlocks zeroBlocks_disjoint 0 churn (by decide)
      false (by simp) (by decide +kernel)
  have set :
      cache.Step
        (.set (CString.ofText "c") (letters 300000) 300000 code) after :=
    bind_eq_ok.mpr ⟨_, returned, rfl⟩
  have missed : after.Step (.get (CString.ofText "a") none 0) after :=
    bind_eq_ok.mpr ⟨_, cacheGet_of_none absent, rfl⟩
  have allCalls :
      (history ++
            [Event.set (CString.ofText "c") (letters 300000) 300000 code] ++
            [Event.get (CString.ofText "a") none 0]).map Event.call =
        churn ++
          [.set (CString.ofText "c") (letters 300000) 300000,
            .get (CString.ofText "a")] := by
    simp [calls, Event.call]
  refine ⟨_, after, allCalls, (run.snoc set).snoc missed, by simp,
    (cache_refines_evicting_map zeroBlocks_disjoint
      ((run.snoc set).snoc missed)
      (forall_call Call.Permitted allCalls ?_)).2⟩
  have setPermitted (key : CString) (fits : key.length ≤ 31) :
      (Call.set key (letters 300000) 300000).Permitted :=
    ⟨fits, by decide, exists_string_letters 299999⟩
  simp only [churn, List.cons_append, List.nil_append, List.forall_mem_cons,
    List.not_mem_nil, false_imp_iff, implies_true, and_true]
  exact ⟨(by decide : (CString.ofText "b").length ≤ 31),
    setPermitted _ (by decide), setPermitted _ (by decide),
    setPermitted _ (by decide), (by decide : (CString.ofText "b").length ≤ 31),
    setPermitted _ (by decide), setPermitted _ (by decide),
    (by decide : (CString.ofText "a").length ≤ 31)⟩

end CacheBench
