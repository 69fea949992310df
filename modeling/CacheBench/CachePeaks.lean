import CacheBench.SlabShares
import CacheBench.WorkingSet

namespace CacheBench

open Manager Execution WorkingSet

/-!
# Caches that forget nothing

How large a cache has to be for a sequence of calls.  The calls are compared
with a map that keeps every value until it is replaced or deleted.  A cache
with zero-filled blocks keeps up with the map exactly as long as the limit has
room for the slabs of every class at its peak; the classes do not share slabs,
and what one class no longer needs does not help another.
-/

/-- The change a call makes to a map that forgets nothing. -/
def Call.update : Call → Update CString (List UInt8)
  | .set key val valSize => .put key (bytesFrom val 0 valSize.toNat)
  | .get _ => .keep
  | .delete key => .drop key

/-- What a call returns if nothing was forgotten. -/
def Call.answer (map : Map CString (List UInt8)) : Call → Event
  | .set key val valSize => .set key val valSize 0
  | .get key =>
      .get key (map.lookup key)
        (((map.lookup key).map List.length).getD 0)
  | .delete key => .delete key (if key ∈ map then 0 else 255)

/-- The cache has the values of the map. -/
def Cache.Mirrors (cache : Cache) (map : Map CString (List UInt8)) : Prop :=
  ∀ key, cache.contents key = map.lookup key

/-- The cache keeps up with the map through all calls. -/
def Cache.KeepsAll :
    Cache → Map CString (List UInt8) → List Call → Prop
  | cache, map, [] => cache.Mirrors map
  | cache, map, call :: rest =>
      cache.Mirrors map ∧
        ∃ after,
          cache.perform call = .ok (call.answer map, after) ∧
            after.KeepsAll (call.update.apply map) rest

/-- The class of a value. -/
def valueClass (value : List UInt8) : Nat :=
  classOf value.length

/-- The slabs that hold the values of every class at its peak. -/
def slabsNeeded (calls : List Call) : Nat :=
  pages valueClass defaultTable.entries.toFinset capacity
    (calls.map Call.update)

/-! ## The cache and the map -/

section Mirrors

variable {cache : Cache} {map : Map CString (List UInt8)}

/-- The metas of the table are the entries of the map. -/
theorem MapOk.valuesOf_eq
    (mapOk : MapOk cache)
    (mirrors : cache.Mirrors map)
    (slabClass : Nat) :
    cache.valuesOf slabClass = live valueClass map slabClass := by
  have tableOk := mapOk.ok.table
  have found {item : Meta} (member : item ∈ cache.metas) :
      getMeta cache item.storedKey = some item :=
    (tableOk.getMeta_eq_some_iff (mapOk.keysFit.admitted member)).mpr
      ⟨member, rfl⟩
  let entry (item : Meta) : (_ : CString) × List UInt8 :=
    ⟨item.storedKey, cache.valueOf item⟩
  have distinct : (cache.metas.map entry).Nodup := by
    refine List.Nodup.of_map Sigma.fst ?_
    rw [List.map_map]
    exact tableOk.nodup_storedKey mapOk.keysFit
  have entries : (cache.metas.map entry).Perm map.entries := by
    rw [List.perm_ext_iff_of_nodup distinct map.nodupKeys.nodup]
    rintro ⟨key, value⟩
    rw [← AList.mem_lookup_iff, ← mirrors key, List.mem_map]
    constructor
    · rintro ⟨item, member, same⟩
      cases same
      exact contents_of_getMeta (found member)
    · intro present
      obtain ⟨item, search, rfl⟩ := Option.map_eq_some_iff.mp present
      obtain ⟨member, rfl⟩ := getMeta_sound search
      exact ⟨item, member, rfl⟩
  rw [live, ← entries.countP_eq, List.countP_map, Cache.valuesOf]
  apply List.countP_congr
  intro item member
  simp [entry, valueClass, mapOk.ok.selected item member]

/-- Every slab is of a class of the table. -/
theorem CacheOk.length_slabClasses
    {pending : List Grant}
    (ok : CacheOk pending cache) :
    cache.slabManager.slabClasses.length =
      ∑ slabClass ∈ defaultTable.entries.toFinset,
        cache.slabManager.slabClasses.count slabClass := by
  have isClass :
      ∀ slabClass ∈ (cache.slabManager.slabClasses : Multiset Nat),
        slabClass ∈ defaultTable.entries.toFinset := by
    intro slabClass member
    obtain ⟨number, hasClass⟩ :=
      List.mem_iff_getElem?.mp (Multiset.mem_coe.mp member)
    rw [slabClasses_getElem?] at hasClass
    exact List.mem_toFinset.mpr (ok.granted.wellFormed.isClass hasClass)
  simpa using (Multiset.sum_count_eq_card isClass).symm

end Mirrors

/-! ## One call -/

/-- What a call keeps, whatever it returns. -/
structure Advanced (cache after : Cache) : Prop where
  mapOk : MapOk after
  blocks : after.slabManager.blocks = cache.slabManager.blocks
  extended : Extends cache after

section Calls

variable {cache after : Cache} {map : Map CString (List UInt8)}
variable {key : CString} {val : Nat → UInt8} {valSize : UInt32}

theorem MapOk.advance
    (mapOk : MapOk cache)
    {call : Call}
    (permitted : call.Permitted)
    {event : Event}
    (performed : cache.perform call = .ok (event, after)) :
    Advanced cache after := by
  have isCall := call_of_perform performed
  have step := step_of_perform performed
  rw [← isCall] at permitted
  have bounded := Event.bounded_of_call permitted.bounded
  exact ⟨(mapOk.step permitted step).1, (mapOk.ok.step bounded step).2,
    mapOk.ok.step_extends bounded step⟩

/-- Changing the entry of one key changes that of the map. -/
theorem MapOk.mirrors_of_entry
    (mapOk : MapOk cache)
    (mirrors : cache.Mirrors map)
    (fits : key.length ≤ 31)
    (afterFits : KeysFit after)
    {changed : Map CString (List UInt8)}
    (others : ∀ query, query ≠ key → changed.lookup query = map.lookup query)
    (entry :
      ∀ query, Admitted query →
        after.contents query =
          if query = key then
            changed.lookup key
          else
            cache.contents query) :
    after.Mirrors changed := by
  refine congrFun (contents_ext afterFits ?_ ?_)
  · intro query admitted
    rw [entry query admitted]
    by_cases same : query = key
    · rw [if_pos same, same]
    · rw [if_neg same, others query same]
      exact mirrors query
  · intro query long
    have notKey : query ≠ key := by
      rintro rfl
      exact Nat.not_le_of_lt long fits
    rw [others query notKey, ← mirrors query,
      contents_of_long mapOk.keysFit long]

/-- A get finds what the map has. -/
theorem MapOk.get_mirrors
    (mapOk : MapOk cache)
    (mirrors : cache.Mirrors map)
    (fits : key.length ≤ 31) :
    ∃ after,
      cache.perform (.get key) = .ok ((Call.get key).answer map, after) ∧
        after.Mirrors map ∧
        after.slabManager.slabClasses =
          cache.slabManager.slabClasses := by
  have permitted : (Call.get key).Permitted := fits
  obtain ⟨event, after, performed⟩ := mapOk.perform permitted
  have step := step_of_perform performed
  have isCall := call_of_perform performed
  cases event with
  | set other val valSize code => cases isCall
  | delete other code => cases isCall
  | get other value size =>
      cases isCall
      obtain ⟨isValue, same⟩ :=
        (mapOk.step (call_of_perform performed ▸ permitted) step).2.of_get
      refine ⟨after, ?_, ?_, ?_⟩
      · rw [performed, size_of_get step, ← isValue, mirrors key]
        rfl
      · intro query
        rw [same]
        exact mirrors query
      · obtain ⟨⟨found, next⟩, returned, rest⟩ := bind_eq_ok.mp step
        cases rest
        rcases cacheGet_cases returned with
            ⟨-, -, rfl⟩ | ⟨item, -, -, rfl⟩ <;>
          rfl

/-- A delete drops the key from the cache as it does from the map. -/
theorem MapOk.delete_mirrors
    (mapOk : MapOk cache)
    (mirrors : cache.Mirrors map)
    (fits : key.length ≤ 31) :
    ∃ after,
      cache.perform (.delete key) =
          .ok ((Call.delete key).answer map, after) ∧
        after.Mirrors (map.erase key) ∧
        after.slabManager.slabClasses =
          cache.slabManager.slabClasses := by
  have permitted : (Call.delete key).Permitted := fits
  have others (query : CString) (notKey : query ≠ key) :
      (map.erase key).lookup query = map.lookup query :=
    AList.lookup_erase_ne notKey
  cases search : getMeta cache key with
  | none =>
      have absent : cache.contents key = none := by
        rw [Cache.contents, search]
        rfl
      have notInMap : key ∉ map := by
        rw [← AList.lookup_eq_none, ← mirrors key, absent]
      refine ⟨cache, ?_, ?_, rfl⟩
      · rw [Cache.perform, cacheDelete_of_none search, Call.answer,
          if_neg notInMap]
        rfl
      · refine mapOk.mirrors_of_entry mirrors fits mapOk.keysFit others ?_
        intro query _
        rw [AList.lookup_erase]
        by_cases same : query = key
        · rw [if_pos same, same, absent]
        · rw [if_neg same]
  | some item =>
      obtain ⟨slabManager, deletion, trimmedOk, freed⟩ :=
        mapOk.ok.cacheDelete search
      have inMap : key ∈ map := by
        rw [← AList.lookup_isSome, ← mirrors key,
          contents_of_getMeta search]
        rfl
      have performed :
          cache.perform (.delete key) =
            .ok ((Call.delete key).answer map,
              afterDelete cache key slabManager) := by
        rw [Cache.perform, deletion, Call.answer, if_pos inMap]
        rfl
      refine ⟨_, performed, ?_, cacheDelete_slabClasses deletion⟩
      refine mapOk.mirrors_of_entry mirrors fits
        (mapOk.advance permitted performed).mapOk.keysFit others ?_
      intro query admitted
      rw [AList.lookup_erase]
      exact contents_afterDelete mapOk.ok search freed admitted

/-- The old value of the key is gone from cache and map. -/
theorem MapOk.deleteOld_mirrors
    (mapOk : MapOk cache)
    (mirrors : cache.Mirrors map)
    (fits : key.length ≤ 31) :
    ∃ cleared,
      deleteOld cache key = .ok cleared ∧ Cleared cache key cleared ∧
        MapOk cleared ∧ cleared.Mirrors (map.erase key) := by
  obtain ⟨cleared, deletion, clearedOk, clearing⟩ := mapOk.ok.deleteOld key
  have clearedFits := clearing.keysFit mapOk.ok.table mapOk.keysFit
  have clearedMirrors : cleared.Mirrors (map.erase key) := by
    refine mapOk.mirrors_of_entry mirrors fits clearedFits
      (fun query notKey => AList.lookup_erase_ne notKey) ?_
    intro query queryAdmitted
    rw [AList.lookup_erase]
    exact clearing.contents mapOk.ok queryAdmitted
  refine ⟨cleared, deletion, clearing, ⟨clearedOk, clearedFits, ?_⟩,
    clearedMirrors⟩
  intro query value present
  rw [clearedMirrors query] at present
  by_cases same : query = key
  · rw [same, AList.lookup_erase] at present
    cases present
  · rw [AList.lookup_erase_ne same, ← mirrors query] at present
    exact mapOk.strings present

/-- A class is exhausted when all its slots have values of the map. -/
theorem MapOk.exhausted_iff
    (mapOk : MapOk cache)
    (zeroFilled : ZeroFilled cache.slabManager.blocks)
    (mirrors : cache.Mirrors map)
    (slabClass : Nat) :
    cache.slabManager.Exhausted slabClass ↔
      live valueClass map slabClass =
        cache.slabManager.slotsOf slabClass := by
  rw [mapOk.ok.exhausted_iff zeroFilled, mapOk.valuesOf_eq mirrors]

/-- A class with room, at once or in a new slab, gives a slot. -/
theorem CacheOk.exists_free_slot
    (ok : CacheOk [] cache)
    (zeroFilled : ZeroFilled cache.slabManager.blocks)
    {slabClass : Nat}
    (isClass : IsClass slabClass)
    (room : cache.slabManager.Exhausted slabClass → cache.CanGrow) :
    ∃ address after,
      CacheBench.freeSpace cache slabClass =
          .ok (some address, after) ∧
        Searched cache slabClass (some address) after := by
  obtain ⟨result, after, search, found⟩ := ok.freeSpace isClass
  cases result with
  | some address =>
      exact ⟨address, after, search, found⟩
  | none =>
      obtain ⟨exhausted, notUsable⟩ := found.none_iff.mp rfl
      exact absurd (usable_of_zeroFilled zeroFilled isClass _)
        (notUsable (room exhausted))

/-- A set that finds a slot without an eviction stores its value there. -/
theorem CacheOk.cacheSet_of_slot
    {cleared searched : Cache}
    {address : Nat}
    (clearedOk : CacheOk [] cleared)
    (accepted : setRefusal cache key val valSize = none)
    (deletion : CacheBench.deleteOld cache key = .ok cleared)
    (search :
      CacheBench.freeSpace cleared (classOf valSize.toNat) =
        .ok (some address, searched))
    (searchedOk : CacheOk [⟨address, classOf valSize.toNat⟩] searched)
    (missing : getMeta searched key = none)
    (bounded : valSize.toNat ≤ memorySize) :
    ∃ slabManager,
      CacheBench.cacheSet cache key val valSize =
          .ok (0, afterStore searched key valSize.toNat
            (classOf valSize.toNat) address slabManager) ∧
        Filed searched val valSize.toNat address slabManager := by
  obtain ⟨slabManager, -, storing, -, filed⟩ :=
    CacheOk.storeValue searchedOk (admitted_of_setRefusal accepted) missing
      bounded val
  have selects :=
    clearedOk.granted.wellFormed.getSlabClass_eq valSize.toNat
  refine ⟨slabManager, ?_, filed⟩
  simp [CacheBench.cacheSet, accepted, deletion, bind, Except.bind, selects,
    CacheBench.makeSpace, search, storing]

/-- Filing a value under a new key inserts it into the map. -/
theorem MapOk.store_mirrors
    (mapOk : MapOk cache)
    (mirrors : cache.Mirrors (map.erase key))
    (fits : key.length ≤ 31)
    {slabClass address : Nat}
    {searched : Cache}
    (found : Searched cache slabClass (some address) searched)
    (missing : getMeta searched key = none)
    {slabManager : Manager}
    (filed : Filed searched val valSize.toNat address slabManager)
    (afterFits :
      KeysFit
        (afterStore searched key valSize.toNat slabClass address
          slabManager)) :
    (afterStore searched key valSize.toNat slabClass address
        slabManager).Mirrors
      (map.insert key (bytesFrom val 0 valSize.toNat)) := by
  refine mapOk.mirrors_of_entry mirrors fits afterFits ?_ ?_
  · intro query notKey
    rw [AList.lookup_insert_ne notKey, AList.lookup_erase_ne notKey]
  · intro query queryAdmitted
    rw [contents_afterStore found.ok (Nat.le_succ_of_le fits) missing filed
        queryAdmitted,
      storedKey_of_lt (Nat.lt_succ_of_le fits) newMeta_key,
      AList.lookup_insert, found.contents mapOk.ok]
    simp only [eq_comm]

/--
A set that finds room, at once or in a new slab, stores its value and loses no
other.  A slab is added only for a class whose slots all have values.
-/
theorem MapOk.set_mirrors
    (mapOk : MapOk cache)
    (zeroFilled : ZeroFilled cache.slabManager.blocks)
    (mirrors : cache.Mirrors map)
    (permitted : (Call.set key val valSize).Permitted)
    (room :
      live valueClass (map.erase key) (classOf valSize.toNat) =
          cache.slabManager.slotsOf (classOf valSize.toNat) →
        cache.CanGrow) :
    ∃ after,
      cache.perform (.set key val valSize) =
          .ok ((Call.set key val valSize).answer map, after) ∧
        after.Mirrors
          (map.insert key (bytesFrom val 0 valSize.toNat)) ∧
        (after.slabManager.slabClasses = cache.slabManager.slabClasses ∨
          (live valueClass (map.erase key) (classOf valSize.toNat) =
              cache.slabManager.slotsOf (classOf valSize.toNat) ∧
            after.slabManager.slabClasses =
              cache.slabManager.slabClasses ++
                [classOf valSize.toNat])) := by
  have fits : key.length ≤ 31 := permitted.keyFits
  have isClass := isClass_classOf valSize.toNat
  have accepted := setRefusal_of_permitted mapOk.ok.limits permitted
  -- The old value of the key goes first.
  obtain ⟨cleared, deletion, clearing, clearedMapOk, clearedMirrors⟩ :=
    mapOk.deleteOld_mirrors mirrors fits
  have clearedClasses := deleteOld_slabClasses deletion
  have clearedZero : ZeroFilled cleared.slabManager.blocks :=
    clearing.blocks ▸ zeroFilled
  have exhausted_iff :=
    clearedMapOk.exhausted_iff clearedZero clearedMirrors
      (classOf valSize.toNat)
  rw [slotsOf, clearedClasses, ← slotsOf] at exhausted_iff
  -- Then a slot is found, in a new slab if the class is exhausted.
  obtain ⟨address, searched, search, found⟩ :=
    clearedMapOk.ok.exists_free_slot clearedZero isClass fun exhausted =>
      (deleteOld_canGrow deletion).mpr (room (exhausted_iff.mp exhausted))
  have missing : getMeta searched key = none := by
    rw [found.same.getMeta,
      clearing.missing mapOk.ok (admitted_of_setRefusal accepted)]
  obtain ⟨slabManager, returned, filed⟩ :=
    clearedMapOk.ok.cacheSet_of_slot accepted deletion search found.ok
      missing permitted.bounded
  have performed :
      cache.perform (.set key val valSize) =
        .ok ((Call.set key val valSize).answer map,
          afterStore searched key valSize.toNat (classOf valSize.toNat)
            address slabManager) := by
    rw [Cache.perform, returned]
    rfl
  refine ⟨_, performed,
    clearedMapOk.store_mirrors clearedMirrors fits found missing filed
      (mapOk.advance permitted performed).mapOk.keysFit, ?_⟩
  have storedClasses :
      slabManager.slabClasses = searched.slabManager.slabClasses :=
    slabClasses_of_classAt filed.status.classAt
  have grown := clearedMapOk.ok.freeSpace_slabClasses isClass search
  rw [exhausted_iff, clearedClasses, ← storedClasses] at grown
  rcases grown with ⟨-, same⟩ | ⟨full, -, added⟩
  · exact Or.inl same
  · exact Or.inr ⟨full, added⟩

end Calls

/-! ## Whole runs -/

section Runs

variable {cache : Cache} {map : Map CString (List UInt8)}

/-- The state of a cache that has kept up so far. -/
structure KeepsUp
    (cache : Cache)
    (map : Map CString (List UInt8)) : Prop where
  mapOk : MapOk cache
  zeroFilled : ZeroFilled cache.slabManager.blocks
  mirrors : cache.Mirrors map

theorem KeepsUp.next
    (keepsUp : KeepsUp cache map)
    {call : Call}
    (permitted : call.Permitted)
    {event : Event}
    {after : Cache}
    (performed : cache.perform call = .ok (event, after))
    {changed : Map CString (List UInt8)}
    (mirrors : after.Mirrors changed) :
    KeepsUp after changed := by
  have advanced := keepsUp.mapOk.advance permitted performed
  refine ⟨advanced.mapOk, ?_, mirrors⟩
  rw [advanced.blocks]
  exact keepsUp.zeroFilled

/-- While a class is below its share the limit has room for a slab. -/
theorem CacheOk.canGrow_of_below
    (ok : CacheOk [] cache)
    {share : Nat → Nat}
    (within :
      (∑ slabClass ∈ defaultTable.entries.toFinset, share slabClass) *
          getSlabSize <
        cache.maxmem.toNat)
    (shared :
      ∀ slabClass, IsClass slabClass →
        cache.slabManager.slabClasses.count slabClass ≤ share slabClass)
    {slabClass : Nat}
    (isClass : IsClass slabClass)
    (below :
      cache.slabManager.slabClasses.count slabClass < share slabClass) :
    cache.CanGrow := by
  have fewer :
      cache.slabManager.slabClasses.length <
        ∑ slabClass ∈ defaultTable.entries.toFinset, share slabClass := by
    rw [ok.length_slabClasses]
    refine Finset.sum_lt_sum ?_
      ⟨slabClass, List.mem_toFinset.mpr isClass, below⟩
    intro other member
    exact shared other (List.mem_toFinset.mp member)
  have slabs := Nat.mul_le_mul_right getSlabSize fewer
  rw [slabClasses, List.length_map, Nat.succ_mul] at slabs
  exact Nat.lt_of_le_of_lt slabs within

/--
One call of a cache in which no class has more slabs than its share.  If the
shares are within the limit and enough for the map after the call, the cache
keeps up and the shares are kept.
-/
theorem KeepsUp.step
    (keepsUp : KeepsUp cache map)
    {share : Nat → Nat}
    (within :
      (∑ slabClass ∈ defaultTable.entries.toFinset, share slabClass) *
          getSlabSize <
        cache.maxmem.toNat)
    (shared :
      ∀ slabClass, IsClass slabClass →
        cache.slabManager.slabClasses.count slabClass ≤ share slabClass)
    {call : Call}
    (permitted : call.Permitted)
    (enough :
      ∀ slabClass, IsClass slabClass →
        live valueClass (call.update.apply map) slabClass ≤
          capacity slabClass * share slabClass) :
    ∃ after,
      cache.perform call = .ok (call.answer map, after) ∧
        after.Mirrors (call.update.apply map) ∧
        ∀ slabClass, IsClass slabClass →
          after.slabManager.slabClasses.count slabClass ≤
            share slabClass := by
  have mapOk := keepsUp.mapOk
  cases call with
  | get key =>
      obtain ⟨after, performed, mirrors, same⟩ :=
        mapOk.get_mirrors keepsUp.mirrors permitted
      exact ⟨after, performed, mirrors, same ▸ shared⟩
  | delete key =>
      obtain ⟨after, performed, mirrors, same⟩ :=
        mapOk.delete_mirrors keepsUp.mirrors permitted
      exact ⟨after, performed, mirrors, same ▸ shared⟩
  | set key val valSize =>
      have isClass := isClass_classOf valSize.toNat
      -- A class that is full has not got its share yet.
      have below
          (full :
            live valueClass (map.erase key) (classOf valSize.toNat) =
              cache.slabManager.slotsOf (classOf valSize.toNat)) :
          cache.slabManager.slabClasses.count (classOf valSize.toNat) <
            share (classOf valSize.toNat) := by
        have oneMore := enough _ isClass
        change
          live valueClass
              (map.insert key (bytesFrom val 0 valSize.toNat)) _ ≤ _
          at oneMore
        rw [live_put, if_pos (by rw [valueClass, length_bytesFrom]), full,
          slotsOf, Nat.mul_comm] at oneMore
        exact Nat.lt_of_mul_lt_mul_left oneMore
      obtain ⟨after, performed, mirrors, grown⟩ :=
        mapOk.set_mirrors keepsUp.zeroFilled keepsUp.mirrors permitted
          fun full =>
            mapOk.ok.canGrow_of_below within shared isClass (below full)
      refine ⟨after, performed, mirrors, ?_⟩
      rcases grown with same | ⟨full, added⟩
      · exact same ▸ shared
      · intro slabClass otherClass
        rw [added, List.count_append, List.count_singleton]
        by_cases same : classOf valSize.toNat = slabClass
        · subst same
          simpa [Nat.succ_le_iff] using below full
        · simpa [same] using shared slabClass otherClass

/-- A cache keeps up while the classes stay within shares of the limit. -/
theorem KeepsUp.keepsAll
    {share : Nat → Nat}
    {calls : List Call}
    (keepsUp : KeepsUp cache map)
    (within :
      (∑ slabClass ∈ defaultTable.entries.toFinset, share slabClass) *
          getSlabSize <
        cache.maxmem.toNat)
    (shared :
      ∀ slabClass, IsClass slabClass →
        cache.slabManager.slabClasses.count slabClass ≤ share slabClass)
    (permitted : ∀ call ∈ calls, call.Permitted)
    (enough :
      ∀ slabClass, IsClass slabClass →
        peak valueClass slabClass map (calls.map Call.update) ≤
          capacity slabClass * share slabClass) :
    cache.KeepsAll map calls := by
  induction calls generalizing cache map with
  | nil =>
      exact keepsUp.mirrors
  | cons call rest inductionHypothesis =>
      have callPermitted := permitted call (List.mem_cons_self ..)
      have enoughLater (slabClass : Nat) (isClass : IsClass slabClass) :=
        (peak_le_cons ..).trans (enough slabClass isClass)
      obtain ⟨after, performed, mirrors, sharedAfter⟩ :=
        keepsUp.step within shared callPermitted
          fun slabClass isClass =>
            (live_le_peak ..).trans (enoughLater slabClass isClass)
      have sameMaxmem :=
        (keepsUp.mapOk.advance callPermitted performed).extended.maxmem
      refine ⟨keepsUp.mirrors, after, performed,
        inductionHypothesis (keepsUp.next callPermitted performed mirrors)
          ?_ sharedAfter (fun call member => permitted call (by simp [member]))
          enoughLater⟩
      rw [sameMaxmem]
      exact within

/-- The slabs have a slot for every value. -/
theorem KeepsUp.live_le
    (keepsUp : KeepsUp cache map)
    (slabClass : Nat) :
    live valueClass map slabClass ≤
      cache.slabManager.slotsOf slabClass := by
  rw [← keepsUp.mapOk.valuesOf_eq keepsUp.mirrors]
  exact keepsUp.mapOk.ok.valuesOf_le keepsUp.zeroFilled

theorem Cache.KeepsAll.mirrors
    {calls : List Call}
    (keepsAll : cache.KeepsAll map calls) :
    cache.Mirrors map := by
  cases calls with
  | nil => exact keepsAll
  | cons call rest => exact keepsAll.1

theorem Extends.slotsOf_le
    {after : Cache}
    (extended : Extends cache after)
    (slabClass : Nat) :
    cache.slabManager.slotsOf slabClass ≤
      after.slabManager.slotsOf slabClass := by
  obtain ⟨-, added, classes, -⟩ := extended
  rw [slotsOf, slotsOf, classes, List.count_append]
  exact Nat.mul_le_mul_right _ (Nat.le_add_right _ _)

/-- A cache that kept up has in the end a slot for every value of a peak. -/
theorem KeepsUp.exists_final
    {calls : List Call}
    (keepsUp : KeepsUp cache map)
    (permitted : ∀ call ∈ calls, call.Permitted)
    (keepsAll : cache.KeepsAll map calls) :
    ∃ final,
      CacheOk [] final ∧ Extends cache final ∧
        ∀ slabClass,
          peak valueClass slabClass map (calls.map Call.update) ≤
            final.slabManager.slotsOf slabClass := by
  induction calls generalizing cache map with
  | nil =>
      exact ⟨cache, keepsUp.mapOk.ok, .of_same rfl rfl, keepsUp.live_le⟩
  | cons call rest inductionHypothesis =>
      have callPermitted := permitted call (List.mem_cons_self ..)
      obtain ⟨-, after, performed, keepsRest⟩ := keepsAll
      obtain ⟨final, finalOk, extended, peaks⟩ :=
        inductionHypothesis
          (keepsUp.next callPermitted performed keepsRest.mirrors)
          (fun call member => permitted call (by simp [member])) keepsRest
      have wholly :=
        (keepsUp.mapOk.advance callPermitted performed).extended.trans
          extended
      refine ⟨final, finalOk, wholly, fun slabClass => ?_⟩
      exact Nat.max_le.mpr
        ⟨(keepsUp.live_le slabClass).trans (wholly.slotsOf_le slabClass),
          peaks slabClass⟩

/--
For keys of up to 31 bytes and strings of up to 2^20 bytes, a cache with
zero-filled blocks answers every call like a map that forgets nothing, exactly
if the slabs for the peak of every class are below the limit.
-/
theorem keeps_all_iff
    {blocks : Nat → Slab}
    (disjoint : DisjointBlocks blocks)
    (zeroFilled : ZeroFilled blocks)
    {maxmem : UInt64}
    {hasher : Option HashFunc}
    {calls : List Call}
    (permitted : ∀ call ∈ calls, call.Permitted) :
    (createCache blocks maxmem hasher).KeepsAll ∅ calls ↔
      slabsNeeded calls * getSlabSize <
        (createCache blocks maxmem hasher).maxmem.toNat := by
  obtain ⟨mapOk, noValues⟩ := createCache_mapOk disjoint maxmem hasher
  have keepsUp : KeepsUp (createCache blocks maxmem hasher) ∅ :=
    ⟨mapOk, zeroFilled, congrFun noValues⟩
  have capacityPositive :
      ∀ slabClass ∈ defaultTable.entries.toFinset,
        0 < capacity slabClass :=
    fun slabClass member =>
      IsClass.capacity_pos (List.mem_toFinset.mp member)
  constructor
  · intro keepsAll
    obtain ⟨final, finalOk, ⟨sameMaxmem, added, classes, within⟩, peaks⟩ :=
      keepsUp.exists_final permitted keepsAll
    have needed :
        slabsNeeded calls ≤ final.slabManager.slabClasses.length := by
      rw [finalOk.length_slabClasses]
      refine pages_le_sum capacityPositive fun slabClass _ => ?_
      rw [Nat.mul_comm]
      exact peaks slabClass
    refine Nat.lt_of_le_of_lt (Nat.mul_le_mul_right _ needed) ?_
    rw [← sameMaxmem]
    by_cases noneAdded : added = []
    · have noSlabs :
          (createCache blocks maxmem hasher).slabManager.slabClasses = [] :=
        rfl
      rw [classes, noneAdded, sameMaxmem, noSlabs, List.append_nil,
        List.length_nil, Nat.zero_mul]
      exact Nat.lt_of_lt_of_le (by decide) mapOk.ok.limits.slab_le_maxmem
    · exact within noneAdded
  · intro within
    rw [slabsNeeded, pages] at within
    exact keepsUp.keepsAll within (fun slabClass _ => Nat.zero_le _)
      permitted fun slabClass isClass => peak_le_pages isClass.capacity_pos

/--
Two values of different classes need two slabs.  A cache of the default size
has room for them, and one of the smallest size has not.
-/
theorem keeps_all_iff_of_two_classes :
    (createCache zeroBlocks (2 ^ 26) none).KeepsAll ∅
        [.set (CString.ofText "a") (bytesAt []) 1,
          .set (CString.ofText "b") (bytesAt (lettersString 99).bytes)
            100] ∧
      ¬ (createCache zeroBlocks 0 none).KeepsAll ∅
        [.set (CString.ofText "a") (bytesAt []) 1,
          .set (CString.ofText "b") (bytesAt (lettersString 99).bytes)
            100] := by
  have needed :
      slabsNeeded
          [.set (CString.ofText "a") (bytesAt []) 1,
            .set (CString.ofText "b") (bytesAt (lettersString 99).bytes)
              100] =
        2 := by
    decide +kernel
  have permitted :
      ∀ call ∈
          [Call.set (CString.ofText "a") (bytesAt []) 1,
            .set (CString.ofText "b") (bytesAt (lettersString 99).bytes)
              100],
        call.Permitted := by
    simp only [List.forall_mem_cons, List.not_mem_nil, false_imp_iff,
      implies_true, and_true]
    exact ⟨⟨by decide, by decide, CString.ofText "", by decide⟩,
      ⟨by decide, by decide, lettersString 99, by decide +kernel⟩⟩
  have zeroFilled : ZeroFilled zeroBlocks := fun _ => rfl
  rw [keeps_all_iff zeroBlocks_disjoint zeroFilled permitted,
    keeps_all_iff zeroBlocks_disjoint zeroFilled permitted, needed]
  decide

end Runs

end CacheBench
