import CacheBench.CacheSetLimits

namespace CacheBench

open Manager Execution

/-!
# The assertion of `cache_get`

`cache_get` asserts that the string at the value's address has the length the
meta records.  `cache_set` looks at the last byte of a value only.  This module
traces every stored value back to the set that stored it, and shows that the
assertion holds exactly for values that are strings.
-/

/-! ## Passing the assertion -/

section Get

variable {cache : Cache} {key : CString} {item : Meta}

/-- A get of a key that is found returns exactly if the value is a string. -/
theorem CacheOk.cacheGet_returns_iff
    (ok : CacheOk [] cache)
    (found : getMeta cache key = some item) :
    (∃ result, CacheBench.cacheGet cache key = .ok result) ↔
      ∃ string : CString, cache.valueOf item = string.bytes ++ [0] := by
  constructor
  · rintro ⟨⟨reply, after⟩, returned⟩
    obtain ⟨length, measured, matching⟩ :
        ∃ length,
          cache.slabManager.strlen item.address = .ok length ∧
            length + 1 = item.size := by
      simp only [CacheBench.cacheGet, found] at returned
      obtain ⟨length, measured, rest⟩ := bind_eq_ok.mp returned
      split at rest
      · exact ⟨length, measured, by assumption⟩
      · cases rest
    have member := (getMeta_sound found).1
    obtain ⟨nonzero, terminated⟩ :=
      (ok.strlen_eq_iff member (by omega)).mp measured
    rw [Cache.valueOf, ← matching]
    obtain ⟨string, -, isString⟩ := exists_string nonzero terminated
    exact ⟨string, isString⟩
  · rintro ⟨string, isString⟩
    exact ⟨_, ok.cacheGet found isString⟩

end Get

/-! ## Where values come from -/

/-- Every meta after a step holds what some meta held before it. -/
def KeepsValues (cache after : Cache) : Prop :=
  ∀ item ∈ after.metas, ∃ before ∈ cache.metas,
    item.key = before.key ∧ after.valueOf item = cache.valueOf before

section Values

variable {cache after cleared : Cache} {key : CString} {item : Meta}
variable {slabClass : Nat} {result : Option Nat}

theorem KeepsValues.refl (cache : Cache) : KeepsValues cache cache :=
  fun item member => ⟨item, member, rfl, rfl⟩

theorem KeepsValues.trans
    {third : Cache}
    (earlier : KeepsValues cache after)
    (later : KeepsValues after third) :
    KeepsValues cache third := by
  intro item member
  obtain ⟨middle, middleMember, sameKey, sameValue⟩ := later item member
  obtain ⟨before, beforeMember, earlierKey, earlierValue⟩ :=
    earlier middle middleMember
  exact ⟨before, beforeMember, sameKey.trans earlierKey,
    sameValue.trans earlierValue⟩

private theorem tick_key (item : Meta) : (tick item).key = item.key := by
  rw [tick_eq]

private theorem keepsValues_afterDelete
    (ok : CacheOk [] cache)
    (found : getMeta cache key = some item)
    {slabManager : Manager}
    (freed : Freed cache item slabManager) :
    KeepsValues cache (afterDelete cache key slabManager) := by
  intro other member
  obtain ⟨before, beforeMember, rfl⟩ :=
    mem_afterDelete ok.table found slabManager member
  exact ⟨before, beforeMember, tick_key before,
    valueOf_eq ok freed.bytes beforeMember (tick_address before)
      (tick_size before)⟩

private theorem Cleared.keepsValues
    (ok : CacheOk [] cache)
    (clearing : Cleared cache key cleared) :
    KeepsValues cache cleared := by
  cases clearing with
  | absent missing => exact .refl cache
  | deleted found freed => exact keepsValues_afterDelete ok found freed

private theorem Searched.keepsValues
    (ok : CacheOk [] cache)
    (searched : Searched cache slabClass result after) :
    KeepsValues cache after := by
  intro item member
  rw [searched.same.metas] at member
  exact ⟨item, member, rfl, valueOf_eq ok searched.bytes member rfl rfl⟩

private theorem Spaced.keepsValues
    (ok : CacheOk [] cache)
    (spaced : Spaced cache slabClass result after) :
    KeepsValues cache after := by
  cases spaced with
  | direct found =>
      exact found.keepsValues ok
  | kept full noVictim again =>
      exact (full.keepsValues ok).trans (again.keepsValues full.ok)
  | lost full chosen notFound again =>
      exact (full.keepsValues ok).trans (again.keepsValues full.ok)
  | evicted full chosen found freed trimmedOk again =>
      exact ((full.keepsValues ok).trans
        (keepsValues_afterDelete full.ok found freed)).trans
          (again.keepsValues trimmedOk)

/-- A set in the history stored the value, under the key the meta holds. -/
def StoredBy
    (history : List Event)
    (cache : Cache)
    (item : Meta) : Prop :=
  ∃ key val valSize,
    Event.set key val valSize 0 ∈ history ∧
      item.key = (key.bytes ++ [0]).take 32 ∧
      cache.valueOf item = bytesFrom val 0 valSize.toNat

/-- A value after a set was there before it, or is the value of the set. -/
private theorem SetResult.storedBy
    {val : Nat → UInt8}
    {valSize : UInt32}
    {code : UInt8}
    (ok : CacheOk [] cache)
    (setResult : SetResult cache key val valSize code after) :
    ∀ item ∈ after.metas,
      (∃ before ∈ cache.metas,
        item.key = before.key ∧
          after.valueOf item = cache.valueOf before) ∨
        StoredBy [.set key val valSize code] after item := by
  intro item member
  cases setResult with
  | refused refusal =>
      exact Or.inl ⟨item, member, rfl, rfl⟩
  | full accepted clearing clearedOk spacing =>
      exact Or.inl ((clearing.keepsValues ok).trans
        (spacing.keepsValues clearedOk) item member)
  | stored accepted clearing clearedOk spacing spacedOk missing filed =>
      rcases mem_afterStore spacedOk.table member with
          rfl | ⟨middle, middleMember, rfl⟩
      · exact Or.inr ⟨key, val, valSize, by simp, newMeta_key,
          filed.stored⟩
      · obtain ⟨before, beforeMember, sameKey, sameValue⟩ :=
          (clearing.keepsValues ok).trans (spacing.keepsValues clearedOk)
            middle middleMember
        refine Or.inl ⟨before, beforeMember,
          (tick_key middle).trans sameKey, Eq.trans ?_ sameValue⟩
        exact valueOf_eq spacedOk filed.bytes middleMember
          (tick_address middle) (tick_size middle)

/-- A value after a call was there before it, or the call stored it. -/
private theorem step_storedBy
    (ok : CacheOk [] cache)
    {event : Event}
    (bounded : event.Bounded)
    (step : cache.Step event after) :
    ∀ item ∈ after.metas,
      (∃ before ∈ cache.metas,
        item.key = before.key ∧
          after.valueOf item = cache.valueOf before) ∨
        StoredBy [event] after item := by
  intro item member
  cases event with
  | set key val valSize code =>
      obtain ⟨⟨reply, next⟩, returned, rest⟩ := bind_eq_ok.mp step
      cases rest
      exact (ok.setResult returned bounded).2.storedBy ok item member
  | get key value size =>
      obtain ⟨⟨found, next⟩, returned, rest⟩ := bind_eq_ok.mp step
      cases rest
      rcases cacheGet_cases returned with
          ⟨-, -, rfl⟩ | ⟨touched, present, -, rfl⟩
      · exact Or.inl ⟨item, member, rfl, rfl⟩
      · rcases mem_afterGet ok.table present member with rfl | isOld
        · exact Or.inl ⟨touched, (getMeta_sound present).1, rfl, rfl⟩
        · exact Or.inl ⟨item, isOld, rfl, rfl⟩
  | delete key code =>
      obtain ⟨⟨reply, next⟩, returned, rest⟩ := bind_eq_ok.mp step
      cases rest
      cases search : getMeta cache key with
      | none =>
          rw [cacheDelete_of_none search] at returned
          cases returned
          exact Or.inl ⟨item, member, rfl, rfl⟩
      | some victim =>
          obtain ⟨slabManager, deletion, -, freed⟩ := ok.cacheDelete search
          rw [returned] at deletion
          cases deletion
          exact Or.inl (keepsValues_afterDelete ok search freed item member)

/-- Every value in the cache was stored by a set of the run. -/
theorem storedBy_of_run
    {blocks : Nat → Slab}
    (disjoint : DisjointBlocks blocks)
    {maxmem : UInt64}
    {hasher : Option HashFunc}
    {history : List Event}
    (run : Run Cache.Step (createCache blocks maxmem hasher) history cache)
    (bounded : ∀ event ∈ history, event.Bounded) :
    ∀ item ∈ cache.metas, StoredBy history cache item := by
  induction run with
  | nil =>
      intro item member
      rw [createCache_metas] at member
      cases member
  | @snoc history event middle final earlier last inductionHypothesis =>
      have earlierBounded : ∀ event ∈ history, event.Bounded :=
        fun event member => bounded event (by simp [member])
      obtain ⟨ok, -⟩ := cacheOk_of_run disjoint earlier earlierBounded
      intro item member
      rcases step_storedBy ok (bounded event (by simp)) last item member with
          ⟨before, beforeMember, sameKey, sameValue⟩ |
          ⟨key, val, valSize, isEvent, isKey, isValue⟩
      · obtain ⟨key, val, valSize, isEvent, isKey, isValue⟩ :=
          inductionHypothesis earlierBounded before beforeMember
        exact ⟨key, val, valSize, by simp [isEvent], sameKey.trans isKey,
          sameValue.trans isValue⟩
      · exact ⟨key, val, valSize,
          List.mem_append_right history isEvent, isKey, isValue⟩

end Values

/--
A key that is found, in every run with values of up to 2^20 bytes.  Some set of
the run stored its value, and `cache_get` returns exactly if that value is a
string with its terminator as last byte.
-/
theorem get_returns_iff_string
    {blocks : Nat → Slab}
    (disjoint : DisjointBlocks blocks)
    {maxmem : UInt64}
    {hasher : Option HashFunc}
    {history : List Event}
    {cache : Cache}
    (run : Run Cache.Step (createCache blocks maxmem hasher) history cache)
    (bounded : ∀ event ∈ history, event.Bounded)
    {key : CString}
    {item : Meta}
    (found : getMeta cache key = some item) :
    ∃ setKey val valSize,
      Event.set setKey val valSize 0 ∈ history ∧
        item.key = (setKey.bytes ++ [0]).take 32 ∧
        cache.valueOf item = bytesFrom val 0 valSize.toNat ∧
        ((∃ result, cacheGet cache key = .ok result) ↔
          IsString val valSize) := by
  obtain ⟨ok, -⟩ := cacheOk_of_run disjoint run bounded
  obtain ⟨setKey, val, valSize, isEvent, isKey, isValue⟩ :=
    storedBy_of_run disjoint run bounded item (getMeta_sound found).1
  refine ⟨setKey, val, valSize, isEvent, isKey, isValue, ?_⟩
  rw [ok.cacheGet_returns_iff found, isValue, IsString]

/--
A string can be got back after another key was set and deleted and a value of
two million bytes was refused.
-/
theorem get_returns_iff_string_hello :
    ∃ (history : List Event) (cache : Cache) (item : Meta),
      Run Cache.Step (createCache zeroBlocks 0 none) history cache ∧
        getMeta cache (CString.ofText "a") = some item ∧
        cache.valueOf item = ascii "hello" ++ [0] ∧
        ∃ result, cacheGet cache (CString.ofText "a") = .ok result := by
  obtain ⟨history, cache, -, run, seen⟩ :=
    exists_run (by
      decide +kernel :
      returnsSuch
        ((createCache zeroBlocks 0 none).performAll
          [.set (CString.ofText "a") (bytesAt (ascii "hello")) 6,
            .set (CString.ofText "b") (bytesAt (ascii "xy")) 3,
            .set (CString.ofText "a") (bytesAt []) 2000000,
            .delete (CString.ofText "b")])
        (fun result =>
          decide (∀ event ∈ result.1, event.Bounded) &&
            decide ((getMeta result.2 (CString.ofText "a")).map
                result.2.valueOf =
              some (ascii "hello" ++ [0]))) = true)
  rw [Bool.and_eq_true, decide_eq_true_eq, decide_eq_true_eq,
    Option.map_eq_some_iff] at seen
  obtain ⟨bounded, item, found, value⟩ := seen
  obtain ⟨setKey, val, valSize, -, -, isValue, returns_iff⟩ :=
    get_returns_iff_string zeroBlocks_disjoint run bounded found
  exact ⟨history, cache, item, run, found, value,
    returns_iff.mpr ⟨CString.ofText "hello", isValue.symm.trans value⟩⟩

/-- A value of two NULs is accepted, and getting it aborts the program. -/
theorem get_of_two_nuls_aborts :
    ∃ (history : List Event) (cache : Cache),
      history.map Event.call =
          [.set (CString.ofText "a") (bytesAt []) 2] ∧
        Run Cache.Step (createCache zeroBlocks 0 none) history cache ∧
        cacheGet cache (CString.ofText "a") = .error .assertionFailed := by
  obtain ⟨history, cache, calls, run, seen⟩ :=
    exists_run (by
      decide +kernel :
      returnsSuch
        ((createCache zeroBlocks 0 none).performAll
          [.set (CString.ofText "a") (bytesAt []) 2])
        (fun result =>
          match cacheGet result.2 (CString.ofText "a") with
          | .ok _ => false
          | .error fault => fault == .assertionFailed) = true)
  refine ⟨history, cache, calls, run, ?_⟩
  cases returned : cacheGet cache (CString.ofText "a") with
  | ok result =>
      simp [returned] at seen
  | error fault =>
      simp only [returned, beq_iff_eq] at seen
      rw [seen]

end CacheBench
