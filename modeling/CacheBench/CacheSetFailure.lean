import CacheBench.CacheRefinement
import CacheBench.CacheCounts
import CacheBench.CacheSetLimits

namespace CacheBench

open Manager Execution EvictingMap

/-!
# Sets that find no room

`cache_set` returns 4 when it finds no slot for the value.  The module says
when that happens and what such a set has changed.  An eviction helps only if
the victim search sees a value of the class, and it sees a value only if its
timer is not 0; the old value of the key is deleted first in any case.
-/

/--
The value `cache_evict` deletes for a class: the one found under the key that
the victim's meta reads as.  A key of 32 bytes reads as a longer one, under
which nothing or another value may be found.
-/
def Cache.Evicts (cache : Cache) (slabClass : Nat) (item : Meta) : Prop :=
  ∃ victim,
    findVictim cache slabClass = some victim ∧
      getMeta cache victim.storedKey = some item

/-- With the key's old value gone, no value of the class is evicted. -/
def Cache.NoneEvicted
    (cache : Cache)
    (key : CString)
    (slabClass : Nat) : Prop :=
  ∀ cleared, deleteOld cache key = .ok cleared →
    ∀ item, cleared.Evicts slabClass item → item.slabClass ≠ slabClass

/--
Every other value of the class has the timer 0 when the victim is chosen.
Deleting an old value advances the timers, so that it is 255 before.
-/
def Cache.TimersZero
    (cache : Cache)
    (key : CString)
    (slabClass : Nat) : Prop :=
  ∀ item ∈ cache.metas, item.storedKey ≠ key →
    item.slabClass = slabClass →
      item.timer = if (getMeta cache key).isSome then 255 else 0

/--
`cache_set` has no room for a value of the class: no slot is free, no slab the
limit allows has a free slot, the key's old value is of another class, and no
value of the class is evicted.
-/
structure NoRoom
    (cache : Cache)
    (key : CString)
    (slabClass : Nat) : Prop where
  exhausted : cache.slabManager.Exhausted slabClass
  otherClass :
    ∀ old, getMeta cache key = some old → old.slabClass ≠ slabClass
  firstSlab :
    cache.CanGrow →
      ¬ Usable
        (cache.slabManager.blocks cache.slabManager.slabs.length) slabClass
  secondSlab :
    cache.slabManager.slabs.length * getSlabSize + 2 * getSlabSize <
        cache.maxmem.toNat →
      ¬ Usable
        (cache.slabManager.blocks (cache.slabManager.slabs.length + 1))
        slabClass
  noneEvicted : cache.NoneEvicted key slabClass

/-- A key other than the given one has a value of the class. -/
def OtherValue (cache : Cache) (key : CString) (slabClass : Nat) : Prop :=
  ∃ item ∈ cache.metas, item.storedKey ≠ key ∧ item.slabClass = slabClass

section Room

variable {cache after cleared : Cache} {key : CString}
variable {slabClass : Nat} {result : Option Nat}

/-- An absent key has no old value to delete. -/
theorem deleteOld_of_missing
    (missing : getMeta cache key = none) :
    deleteOld cache key = .ok cache := by
  rw [deleteOld, missing]

/-- For an absent key the eviction is seen in the cache itself. -/
theorem noneEvicted_of_missing_iff
    (missing : getMeta cache key = none) :
    cache.NoneEvicted key slabClass ↔
      ∀ item, cache.Evicts slabClass item →
        item.slabClass ≠ slabClass := by
  constructor
  · intro none
    exact none cache (deleteOld_of_missing missing)
  · intro none cleared deletion
    rw [deleteOld_of_missing missing] at deletion
    cases deletion
    exact none

/--
A search after a failed one, with the class still exhausted, grows the cache
from one slab further on.
-/
private theorem Searched.none_iff_again
    {searched trimmed : Cache}
    (full : Searched cache slabClass none searched)
    (sameMaxmem : trimmed.maxmem = searched.maxmem)
    (store : SameStore searched.slabManager trimmed.slabManager)
    (exhausted : trimmed.slabManager.Exhausted slabClass)
    (again : Searched trimmed slabClass result after) :
    result = none ↔
      (cache.slabManager.slabs.length * getSlabSize + 2 * getSlabSize <
          cache.maxmem.toNat →
        ¬ Usable
          (cache.slabManager.blocks (cache.slabManager.slabs.length + 1))
          slabClass) := by
  have length := (full.exhausted rfl).2
  rw [again.none_iff, store.blocks, full.blocks, Cache.CanGrow, sameMaxmem,
    full.same.maxmem, store.length, length]
  by_cases canGrow : cache.CanGrow
  · rw [if_pos canGrow, Nat.add_mul]
    simp [exhausted, Nat.add_assoc, Nat.two_mul]
  · have noSecond :
        ¬ cache.slabManager.slabs.length * getSlabSize +
            2 * getSlabSize < cache.maxmem.toNat := by
      unfold Cache.CanGrow at canGrow
      omega
    rw [if_neg canGrow, Nat.add_zero]
    unfold Cache.CanGrow at canGrow
    simp [exhausted, canGrow, noSecond]

/-- A failed search shows all of `NoRoom` but the slab after it and the victim. -/
private theorem Searched.noRoom_iff
    {searched : Cache}
    (full : Searched cache slabClass none searched)
    (missing : getMeta cache key = none) :
    NoRoom cache key slabClass ↔
      (cache.slabManager.slabs.length * getSlabSize + 2 * getSlabSize <
          cache.maxmem.toNat →
        ¬ Usable
          (cache.slabManager.blocks (cache.slabManager.slabs.length + 1))
          slabClass) ∧
        ∀ item, searched.Evicts slabClass item →
          item.slabClass ≠ slabClass := by
  have sameEvicts (item : Meta) :
      searched.Evicts slabClass item ↔ cache.Evicts slabClass item := by
    rw [Cache.Evicts, Cache.Evicts, full.same.findVictim]
    simp only [full.same.getMeta]
  obtain ⟨exhausted, firstSlab⟩ := full.none_iff.mp rfl
  simp only [sameEvicts, ← noneEvicted_of_missing_iff missing]
  constructor
  · intro noRoom
    exact ⟨noRoom.secondSlab, noRoom.noneEvicted⟩
  · rintro ⟨secondSlab, noneEvicted⟩
    refine ⟨exhausted, ?_, firstSlab, secondSlab, noneEvicted⟩
    intro old found
    rw [missing] at found
    cases found

/-- What is evicted is found under the key of the victim. -/
theorem Cache.Evicts.getMeta_eq
    {victim item : Meta}
    (evicts : cache.Evicts slabClass item)
    (chosen : findVictim cache slabClass = some victim) :
    getMeta cache victim.storedKey = some item := by
  obtain ⟨other, otherChosen, found⟩ := evicts
  rw [chosen] at otherChosen
  cases otherChosen
  exact found

/-- When making space for an absent key fails. -/
theorem Spaced.none_iff
    (missing : getMeta cache key = none)
    (spaced : Spaced cache slabClass result after) :
    result = none ↔ NoRoom cache key slabClass := by
  cases spaced with
  | direct found =>
      constructor
      · intro isNone
        cases isNone
      · intro noRoom
        exact found.none_iff.mpr ⟨noRoom.exhausted, noRoom.firstSlab⟩
  | kept full noVictim again =>
      rw [full.none_iff_again rfl (.refl _) (full.exhausted rfl).1 again,
        full.noRoom_iff missing]
      refine (and_iff_left ?_).symm
      rintro item ⟨victim, chosen, -⟩
      rw [noVictim] at chosen
      cases chosen
  | lost full chosen notFound again =>
      rw [full.none_iff_again rfl (.refl _) (full.exhausted rfl).1 again,
        full.noRoom_iff missing]
      refine (and_iff_left ?_).symm
      intro item evicts
      rw [evicts.getMeta_eq chosen] at notFound
      cases notFound
  | @evicted _ searched _ victim item slabManager full chosen found freed
      trimmedOk again =>
      rw [full.noRoom_iff missing]
      by_cases sameClass : item.slabClass = slabClass
      · -- A slot of the class was freed, so the second search finds one.
        subst sameClass
        constructor
        · rintro rfl
          exact (freed.notExhausted (again.none_iff.mp rfl).1).elim
        · rintro ⟨-, none⟩
          exact (none item ⟨victim, chosen, found⟩ rfl).elim
      · have exhausted : slabManager.Exhausted slabClass :=
          (freed.otherClasses _ (Ne.symm sameClass)).mpr
            (full.exhausted rfl).1
        have sameMaxmem :
            (afterDelete searched victim.storedKey slabManager).maxmem =
              searched.maxmem := rfl
        rw [full.none_iff_again sameMaxmem freed.store exhausted again]
        refine (and_iff_left ?_).symm
        intro other evicts
        rw [evicts.getMeta_eq chosen] at found
        cases found
        exact sameClass

/-- Deleting the key's old value changes nothing about the room. -/
theorem Cleared.noRoom_iff
    (ok : CacheOk [] cache)
    (admitted : Admitted key)
    (deletion : deleteOld cache key = .ok cleared)
    (clearing : Cleared cache key cleared) :
    NoRoom cleared key slabClass ↔ NoRoom cache key slabClass := by
  have missing := clearing.missing ok admitted
  have sameEvicted :
      cleared.NoneEvicted key slabClass ↔
        cache.NoneEvicted key slabClass := by
    rw [Cache.NoneEvicted, Cache.NoneEvicted,
      deleteOld_of_missing missing, deletion]
  cases clearing with
  | absent _ =>
      rfl
  | @deleted old slabManager found freed =>
      have sameGrowth :
          (afterDelete cache key slabManager).CanGrow ↔ cache.CanGrow := by
        simp only [Cache.CanGrow, afterDelete, updateTimers,
          freed.store.length]
      have sameSecond :
          (afterDelete cache key slabManager).slabManager.slabs.length =
            cache.slabManager.slabs.length := freed.store.length
      have sameBlocks :
          (afterDelete cache key slabManager).slabManager.blocks =
            cache.slabManager.blocks := freed.store.blocks
      constructor
      · intro noRoom
        have otherClass : old.slabClass ≠ slabClass := by
          rintro rfl
          exact freed.notExhausted noRoom.exhausted
        refine ⟨(freed.otherClasses _ otherClass.symm).mp noRoom.exhausted,
          ?_, ?_, ?_, sameEvicted.mp noRoom.noneEvicted⟩
        · intro other isOld
          rw [found, Option.some.injEq] at isOld
          exact isOld ▸ otherClass
        · rw [← sameGrowth, ← sameBlocks, ← sameSecond]
          exact noRoom.firstSlab
        · rw [← sameBlocks, ← sameSecond]
          exact noRoom.secondSlab
      · intro noRoom
        have otherClass := noRoom.otherClass old found
        refine ⟨(freed.otherClasses _ otherClass.symm).mpr
          noRoom.exhausted, ?_, ?_, ?_, sameEvicted.mpr noRoom.noneEvicted⟩
        · intro other isOld
          rw [missing] at isOld
          cases isOld
        · rw [sameGrowth, sameBlocks, sameSecond]
          exact noRoom.firstSlab
        · rw [sameBlocks, sameSecond]
          exact noRoom.secondSlab

/-- A timer is 255 exactly when the next tick makes it 0. -/
private theorem timer_wraps_iff (timer : UInt8) :
    timer + 1 = 0 ↔ timer = 255 := by
  rw [← UInt8.toNat_inj, ← UInt8.toNat_inj, UInt8.toNat_add]
  have small := timer.toNat_lt
  simp only [UInt8.reduceToNat]
  omega

/-- The timers at the eviction, told from the cache before the set. -/
theorem Cleared.timersZero_iff
    (ok : CacheOk [] cache)
    (admitted : Admitted key)
    (clearing : Cleared cache key cleared) :
    findVictim cleared slabClass = none ↔ cache.TimersZero key slabClass := by
  rw [findVictim_eq_none_iff]
  cases clearing with
  | absent missing =>
      have notKey := (ok.table.getMeta_eq_none_iff admitted).mp missing
      rw [Cache.TimersZero, missing]
      constructor
      · intro zero item member _
        exact zero item member
      · intro zero item member
        exact zero item member (notKey item member)
  | deleted found freed =>
      rw [Cache.TimersZero, found]
      constructor
      · intro zero item member otherKey sameClass
        have timer :=
          zero (tick item)
            (tick_mem_afterDelete ok.table found _ member otherKey)
            (by simpa using sameClass)
        rw [tick_timer] at timer
        exact (timer_wraps_iff item.timer).mp timer
      · intro spent item member sameClass
        have missing :=
          (Cleared.deleted found freed).missing ok admitted
        have otherKey :=
          ((ok.table.afterDelete found _).getMeta_eq_none_iff admitted).mp
            missing item member
        obtain ⟨before, beforeMember, rfl⟩ :=
          mem_afterDelete ok.table found _ member
        rw [tick_timer, timer_wraps_iff]
        exact spent before beforeMember (by simpa using otherKey)
          (by simpa using sameClass)

/-- Among keys that fit, a victim is evicted unless all timers are 0. -/
theorem noneEvicted_iff_timersZero
    (ok : CacheOk [] cache)
    (keysFit : KeysFit cache)
    (admitted : Admitted key) :
    cache.NoneEvicted key slabClass ↔ cache.TimersZero key slabClass := by
  obtain ⟨cleared, deletion, clearedOk, clearing⟩ := ok.deleteOld key
  rw [← clearing.timersZero_iff ok admitted]
  constructor
  · intro none
    cases chosen : findVictim cleared slabClass with
    | none =>
        rfl
    | some victim =>
        obtain ⟨member, sameClass, -, -⟩ := findVictim_sound chosen
        have fits :=
          (clearing.keysFit ok.table keysFit).admitted member
        have found :=
          (clearedOk.table.getMeta_eq_some_iff fits).mpr ⟨member, rfl⟩
        exact absurd sameClass
          (none cleared deletion victim ⟨victim, chosen, found⟩)
  · rintro noVictim other otherDeletion item ⟨victim, chosen, -⟩
    rw [deletion] at otherDeletion
    cases otherDeletion
    rw [noVictim] at chosen
    cases chosen

/-- Slabs full of values that were all just accessed have no room. -/
theorem noRoom_of_full
    (ok : CacheOk [] cache)
    (isClass : IsClass slabClass)
    (noGrowth : ¬ cache.CanGrow)
    (full :
      cache.slabManager.slabs.length * memorySize <
        slabClass + (cache.metas.map Meta.slabClass).sum)
    (recent :
      ∀ item ∈ cache.metas, item.storedKey ≠ key ∧ item.timer = 0) :
    NoRoom cache key slabClass := by
  have missing : getMeta cache key = none := by
    cases search : getMeta cache key with
    | none =>
        rfl
    | some item =>
        obtain ⟨member, isKey⟩ := getMeta_sound search
        exact absurd isKey (recent item member).1
  refine ⟨ok.exhausted_of_full isClass full, ?_,
    fun canGrow => absurd canGrow noGrowth, ?_, ?_⟩
  · intro old found
    rw [missing] at found
    cases found
  · intro canGrowTwice
    unfold Cache.CanGrow at noGrowth
    omega
  · rw [noneEvicted_of_missing_iff missing]
    rintro item ⟨victim, chosen, -⟩
    obtain ⟨member, -, above, -⟩ := findVictim_sound chosen
    rw [(recent victim member).2] at above
    exact (UInt8.lt_irrefl _ above).elim

end Room

section Result

variable {cache after : Cache} {key : CString}
variable {val : Nat → UInt8} {valSize : UInt32} {code : UInt8}

/-- A value of up to 2^20 bytes is stored unless there is no room. -/
theorem cacheSet_code
    (ok : CacheOk [] cache)
    (accepted : setRefusal cache key val valSize = none)
    (bounded : valSize.toNat ≤ 2 ^ 20) :
    ∃ code after,
      cacheSet cache key val valSize = .ok (code, after) ∧
        (code = 0 ∨ code = 4) ∧
        (code = 0 ↔ ¬ NoRoom cache key (classOf valSize.toNat)) := by
  have admitted := admitted_of_setRefusal accepted
  obtain ⟨code, after, returned, -, -⟩ := ok.cacheSet key val bounded
  refine ⟨code, after, returned, ?_⟩
  rcases cacheSet_cases returned with
      ⟨refusal, -⟩ | ⟨cleared, spaced, result, -, deletion, space, rest⟩
  · rw [accepted] at refusal
    cases refusal
  obtain ⟨_, expected, clearedOk, clearing⟩ := ok.deleteOld key
  rw [deletion] at expected
  cases expected
  rw [clearedOk.granted.wellFormed.getSlabClass_eq] at space
  obtain ⟨_, _, expected, -, spacing⟩ :=
    clearedOk.makeSpace (isClass_classOf valSize.toNat)
  rw [space] at expected
  cases expected
  rw [← clearing.noRoom_iff ok admitted deletion,
    ← spacing.none_iff (clearing.missing ok admitted)]
  rcases rest with ⟨rfl, rfl, -⟩ | ⟨address, rfl, -, rfl⟩
  · exact ⟨Or.inr rfl, by simp⟩
  · exact ⟨Or.inl rfl, by simp⟩

/--
In every run that stores values of up to 2^20 bytes, under any keys, the set of
such a string under a key of up to 31 bytes returns 0 exactly when there is
room, and otherwise it returns 4.  That another value has the class makes it
return 0 exactly when it is not the case that there is such a value and still no
room.  When all keys of the run have up to 31 bytes, nothing is evicted exactly
if all timers of the class are 0.
-/
theorem set_stores_iff_room
    {blocks : Nat → Slab}
    (disjoint : DisjointBlocks blocks)
    {maxmem : UInt64}
    {hasher : Option HashFunc}
    {history : List Event}
    (run : Run Cache.Step (createCache blocks maxmem hasher) history cache)
    (bounded : ∀ event ∈ history, event.Bounded)
    (keyFits : key.length ≤ 31)
    (isString : IsString val valSize)
    (small : valSize.toNat ≤ 2 ^ 20) :
    (∃ code after,
      cacheSet cache key val valSize = .ok (code, after) ∧
        (code = 0 ∨ code = 4) ∧
        (code = 0 ↔
          ¬ NoRoom cache key
            (getSlabClass cache.slabManager valSize.toNat)) ∧
        ((OtherValue cache key
              (getSlabClass cache.slabManager valSize.toNat) →
            code = 0) ↔
          ¬ (OtherValue cache key
              (getSlabClass cache.slabManager valSize.toNat) ∧
            NoRoom cache key
              (getSlabClass cache.slabManager valSize.toNat)))) ∧
      ((∀ event ∈ history, event.call.key.length ≤ 31) →
        (cache.NoneEvicted key
            (getSlabClass cache.slabManager valSize.toNat) ↔
          cache.TimersZero key
            (getSlabClass cache.slabManager valSize.toNat))) := by
  obtain ⟨ok, -⟩ := cacheOk_of_run disjoint run bounded
  have admitted : Admitted key := Nat.le_succ_of_le keyFits
  rw [ok.granted.wellFormed.getSlabClass_eq]
  obtain ⟨string, isString⟩ := isString
  have accepted := ok.limits.setRefusal_eq_none admitted small isString
  obtain ⟨code, after, returned, codes, stores⟩ :=
    cacheSet_code ok accepted small
  refine ⟨⟨code, after, returned, codes, stores, ?_⟩, ?_⟩
  · rw [stores, not_and]
  · intro fits
    exact noneEvicted_iff_timersZero ok (keysFit_of_run run fits) admitted

end Result

/-- A value of letters is a string. -/
theorem isString_letters
    {count : Nat}
    {valSize : UInt32}
    (isSize : valSize.toNat = count + 1) :
    IsString (letters (count + 1)) valSize := by
  rw [IsString, isSize]
  exact exists_string_letters count

/-- Two values that fill a slab. -/
def halves : List Call :=
  [.set (CString.ofText "a") (letters 300000) 300000,
    .set (CString.ofText "b") (letters 300000) 300000]

/--
Two values fill the only slab.  The first one has gone unused for a call, so it
makes room for a third.
-/
theorem set_stores_iff_room_evicting :
    ∃ (history : List Event) (cache after : Cache),
      history.map Event.call = halves ∧
        Run Cache.Step (createCache zeroBlocks 0 none) history cache ∧
        OtherValue cache (CString.ofText "c")
          (getSlabClass cache.slabManager (300000 : UInt32).toNat) ∧
        ¬ NoRoom cache (CString.ofText "c")
          (getSlabClass cache.slabManager (300000 : UInt32).toNat) ∧
        cacheSet cache (CString.ofText "c") (letters 300000) 300000 =
          .ok (0, after) ∧
        getMeta after (CString.ofText "a") = none := by
  obtain ⟨history, cache, after, item, code, calls, run, returned, found,
      ofClass, above, absent, missing, -⟩ :=
    @exists_third_value zeroBlocks zeroBlocks_disjoint 0 halves (by decide)
      false (by simp) (by decide +kernel)
  have bounded := bounded_of_calls calls (by decide)
  obtain ⟨⟨_, _, expected, -, stores, -⟩, evicts_iff⟩ :=
    set_stores_iff_room zeroBlocks_disjoint run bounded
      (by decide : (CString.ofText "c").length ≤ 31)
      (isString_letters rfl : IsString (letters 300000) 300000) (by decide)
  rw [returned] at expected
  cases expected
  obtain ⟨ok, -⟩ := cacheOk_of_run zeroBlocks_disjoint run bounded
  rw [← ok.granted.wellFormed.getSlabClass_eq] at ofClass
  obtain ⟨member, isKey⟩ := getMeta_sound found
  have otherKey : item.storedKey ≠ CString.ofText "c" := by
    rw [isKey]
    decide
  have room :
      ¬ NoRoom cache (CString.ofText "c")
        (getSlabClass cache.slabManager (300000 : UInt32).toNat) := by
    intro noRoom
    have timer :=
      (evicts_iff
        (forall_call (fun call => call.key.length ≤ 31) calls (by decide))).mp
        noRoom.noneEvicted item member otherKey ofClass
    rw [missing] at timer
    rw [timer] at above
    exact absurd above (by decide)
  obtain rfl := stores.mpr room
  exact ⟨history, cache, after, calls, run, ⟨item, member, otherKey, ofClass⟩,
    room, returned, absent⟩

/--
A value whose class has another live value is refused: the first value has
timer 0, so the victim search does not see it.
-/
theorem recent_value_not_evicted :
    ∃ (history : List Event) (cache after : Cache) (item : Meta),
      history.map Event.call =
          [.set (CString.ofText "a") (letters 600000) 600000] ∧
        Run Cache.Step (createCache zeroBlocks 0 none) history cache ∧
        IsString (letters 600000) 600000 ∧
        item ∈ cache.metas ∧
        item.storedKey = CString.ofText "a" ∧
        item.slabClass =
          getSlabClass cache.slabManager (600000 : UInt32).toNat ∧
        cacheSet cache (CString.ofText "b") (letters 600000) 600000 =
          .ok (4, after) := by
  obtain ⟨history, cache, calls, run, seen⟩ :=
    exists_run (by
      decide +kernel :
      returnsSuch
        ((createCache zeroBlocks 0 none).performAll
          [.set (CString.ofText "a") (letters 600000) 600000])
        (fun result =>
          result.2.maxmem == 2101264 &&
            result.2.slabManager.slabs.length == 1 &&
            result.2.metas.map (fun item =>
                (item.storedKey, item.slabClass, item.timer)) ==
              [(CString.ofText "a", memorySize, 0)]) = true)
  simp only [Bool.and_eq_true, beq_iff_eq, List.map_eq_singleton_iff,
    Prod.mk.injEq] at seen
  obtain ⟨⟨maxmem, oneSlab⟩, item, metas, isKey, ofClass, timer⟩ := seen
  obtain ⟨ok, -⟩ :=
    cacheOk_of_run zeroBlocks_disjoint run
      (bounded_of_calls calls (by decide))
  have isClass : classOf (600000 : UInt32).toNat = memorySize := by
    decide
  have noRoom :
      NoRoom cache (CString.ofText "b") (classOf (600000 : UInt32).toNat) := by
    apply noRoom_of_full ok (isClass_classOf _)
    · rw [Cache.CanGrow, oneSlab, maxmem]
      decide
    · rw [oneSlab, metas, isClass, List.map_singleton, ofClass]
      decide
    · intro other member
      rw [metas, List.mem_singleton] at member
      rw [member, isKey]
      exact ⟨by decide, timer⟩
  have accepted :
      setRefusal cache (CString.ofText "b") (letters 600000) 600000 =
        none :=
    ok.limits.setRefusal_of_terminated
      (by decide : (CString.ofText "b").length ≤ 32) (by decide)
      (by decide)
  obtain ⟨code, after, returned, codes, stored_iff⟩ :=
    cacheSet_code ok accepted (by decide)
  have isFour : code = 4 :=
    codes.resolve_left fun isZero => stored_iff.mp isZero noRoom
  subst code
  refine ⟨history, cache, after, item, calls, run, isString_letters rfl,
    by simp [metas], isKey, ?_, returned⟩
  rw [ok.granted.wellFormed.getSlabClass_eq, isClass, ofClass]

/-! ## What a failed set leaves behind -/

/--
What a set that returned an error has changed.  The refusals at its head change
nothing; without room the key's old value is gone, and nothing else is.
-/
structure FailedSet
    (cache : Cache)
    (key : CString)
    (code : UInt8)
    (after : Cache) : Prop where
  otherKeys :
    ∀ query, query ≠ key → after.contents query = cache.contents query
  refused : code ≠ 4 → after = cache
  full : code = 4 → after.contents key = none
  numValues :
    code = 4 →
      after.numValues.toNat +
          (if (cache.contents key).isSome then 1 else 0) =
        cache.numValues.toNat
  spaceUsed :
    code = 4 →
      (cacheSpaceUsed after).toNat +
          ((cache.contents key).getD []).length =
        (cacheSpaceUsed cache).toNat

section Failed

variable {cache cleared after : Cache} {key : CString}
variable {val : Nat → UInt8} {valSize : UInt32} {code : UInt8}

/-- Clearing the old value away takes it out of both counts. -/
theorem Cleared.counts
    (tableOk : TableOk cache)
    (clearing : Cleared cache key cleared) :
    cleared.metas.length +
          (if (cache.contents key).isSome then 1 else 0) =
        cache.metas.length ∧
      cleared.totalSize + ((cache.contents key).getD []).length =
        cache.totalSize := by
  cases clearing with
  | absent missing =>
      simp [Cache.contents, missing]
  | @deleted item slabManager found freed =>
      obtain ⟨rest, perm, metas⟩ :=
        afterDelete_metas tableOk found slabManager
      have total := (perm.map Meta.size).sum_eq
      have sameSizes : Meta.size ∘ tick = Meta.size := by
        funext item
        exact tick_size item
      rw [contents_of_getMeta found]
      refine ⟨length_afterDelete tableOk found slabManager, ?_⟩
      rw [Cache.totalSize, Cache.totalSize, metas, total, List.map_map,
        sameSizes]
      simp [Nat.add_comm]

/-- The counter is the number of metas. -/
theorem CacheOk.toNat_numValues
    {hasher : HashFunc}
    (ok : CacheOk [] cache)
    (counted : Counted hasher cache) :
    cache.numValues.toNat = cache.metas.length := by
  rw [counted.numValues, UInt32.toNat_ofNat',
    Nat.mod_eq_of_lt ok.length_lt]

/-- A set that is refused at its head changes nothing. -/
theorem FailedSet.of_refused
    (notFull : code ≠ 4) :
    FailedSet cache key code cache where
  otherKeys := fun _ _ => rfl
  refused := fun _ => rfl
  full := fun isFull => absurd isFull notFull
  numValues := fun isFull => absurd isFull notFull
  spaceUsed := fun isFull => absurd isFull notFull

/-- A set that finds no space leaves what clearing the key has left. -/
theorem FailedSet.of_full
    {hasher : HashFunc}
    (ok : CacheOk [] cache)
    (afterOk : CacheOk [] after)
    (counted : Counted hasher cache)
    (afterCounted : Counted hasher after)
    (clearing : Cleared cache key cleared)
    (sameMetas : after.metas = cleared.metas)
    (contents : after.contents = drop cache.contents key) :
    FailedSet cache key 4 after := by
  obtain ⟨lengths, sizes⟩ := clearing.counts ok.table
  have sameSize : after.totalSize = cleared.totalSize := by
    rw [Cache.totalSize, sameMetas, Cache.totalSize]
  refine ⟨?_, fun notFull => absurd rfl notFull, fun _ => ?_, fun _ => ?_,
    fun _ => ?_⟩
  · intro query otherKey
    rw [contents]
    simp [drop, otherKey]
  · rw [contents]
    simp [drop]
  · rw [afterOk.toNat_numValues afterCounted, ok.toNat_numValues counted,
      sameMetas]
    exact lengths
  · rw [afterOk.toNat_cacheSpaceUsed, ok.toNat_cacheSpaceUsed, sameSize]
    exact sizes

/--
What a failed set changes, in every cache reached with keys of up to 31 bytes
and values of up to 2^20 bytes; the key and the value of the failed set itself
are arbitrary.
-/
theorem failed_set_drops_at_most_key
    {blocks : Nat → Slab}
    (disjoint : DisjointBlocks blocks)
    {maxmem : UInt64}
    {hasher : Option HashFunc}
    {history : List Event}
    (run : Run Cache.Step (createCache blocks maxmem hasher) history cache)
    (fits : ∀ event ∈ history, event.call.key.length ≤ 31)
    (bounded : ∀ event ∈ history, event.Bounded)
    (returned : cacheSet cache key val valSize = .ok (code, after))
    (failed : code ≠ 0) :
    FailedSet cache key code after := by
  obtain ⟨ok, -⟩ := cacheOk_of_run disjoint run bounded
  have keysFit := keysFit_of_run run fits
  cases refusal : setRefusal cache key val valSize with
  | some refused =>
      have unchanged : code = refused ∧ after = cache := by
        rw [cacheSet, refusal] at returned
        cases returned
        exact ⟨rfl, rfl⟩
      obtain ⟨rfl, rfl⟩ := unchanged
      exact .of_refused (setRefusal_code refusal).2
  | none =>
      obtain ⟨cleared, result, spaced, clearing, clearedOk, spacing,
          spacedOk, missing, expected⟩ := ok.cacheSet_space refusal
      cases result with
      | some address =>
          rw [returned] at expected
          obtain ⟨stored, -, isZero⟩ := bind_eq_ok.mp expected.symm
          cases isZero
          exact absurd rfl failed
      | none =>
          rw [returned] at expected
          cases expected
          obtain ⟨searched, first, -, again⟩ :=
            spacing.of_none (clearing.keysFit ok.table keysFit)
          have afterRun :
              Run Cache.Step (createCache blocks maxmem hasher)
                (history ++ [.set key val valSize 4]) after :=
            run.snoc (bind_eq_ok.mpr ⟨_, returned, rfl⟩)
          exact .of_full ok spacedOk (counted_of_run run).2
            (counted_of_run afterRun).2 clearing
            (again.same.metas.trans first.same.metas)
            (contents_of_full ok keysFit clearing clearedOk spacing)

end Failed

/-- A small value and the set of a large one under the same key. -/
theorem exists_failed_overwrite :
    ∃ (history : List Event) (cache after : Cache),
      history.map Event.call =
          [.set (CString.ofText "a") (bytesAt (ascii "v")) 2] ∧
        Run Cache.Step (createCache zeroBlocks 0 none) history cache ∧
        cache.contents (CString.ofText "a") = some [118, 0] ∧
        cache.numValues = 1 ∧
        cacheSpaceUsed cache = 2 ∧
        cacheSet cache (CString.ofText "a") (letters 600000) 600000 =
          .ok (4, after) ∧
        getMeta after (CString.ofText "a") = none ∧
        after.numValues = 0 ∧
        cacheSpaceUsed after = 0 := by
  obtain ⟨history, cache, calls, run, seen⟩ :=
    exists_run (by
      decide +kernel :
      returnsSuch
        ((createCache zeroBlocks 0 none).performAll
          [.set (CString.ofText "a") (bytesAt (ascii "v")) 2])
        (fun first =>
          first.2.contents (CString.ofText "a") == some [118, 0] &&
            first.2.numValues == 1 && cacheSpaceUsed first.2 == 2 &&
            returnsSuch
              (cacheSet first.2 (CString.ofText "a") (letters 600000)
                600000)
              (fun second =>
                second.1 == 4 &&
                  (getMeta second.2 (CString.ofText "a")).isNone &&
                  second.2.numValues == 0 &&
                  cacheSpaceUsed second.2 == 0)) =
        true)
  simp only [Bool.and_eq_true, beq_iff_eq] at seen
  obtain ⟨⟨⟨contents, numValues⟩, spaceUsed⟩, second⟩ := seen
  obtain ⟨⟨code, after⟩, returned, seen⟩ := exists_of_returnsSuch second
  simp only [Bool.and_eq_true, beq_iff_eq, Option.isNone_iff_eq_none]
    at seen
  obtain ⟨⟨⟨rfl, missing⟩, noValues⟩, noSpace⟩ := seen
  exact ⟨history, cache, after, calls, run, contents, numValues, spaceUsed,
    returned, missing, noValues, noSpace⟩

/-- The old value of an overwrite that found no room. -/
theorem failed_set_drops_old_value :
    ∃ (history : List Event) (cache after : Cache),
      Run Cache.Step (createCache zeroBlocks 0 none) history cache ∧
        cacheSet cache (CString.ofText "a") (letters 600000) 600000 =
          .ok (4, after) ∧
        FailedSet cache (CString.ofText "a") 4 after := by
  obtain ⟨history, cache, after, calls, run, -, -, -, returned, -⟩ :=
    exists_failed_overwrite
  exact ⟨history, cache, after, run, returned,
    failed_set_drops_at_most_key zeroBlocks_disjoint run
      (forall_call (fun call => call.key.length ≤ 31) calls (by decide))
      (bounded_of_calls calls (by decide)) returned (by decide)⟩

/--
A set that returns 4 has deleted the value its key had: it is read before the
set and missed after it, and both counts have changed.
-/
theorem failed_set_loses_value :
    ∃ (history : List Event) (cache after : Cache),
      history.map Event.call =
          [.set (CString.ofText "a") (bytesAt (ascii "v")) 2] ∧
        Run Cache.Step (createCache zeroBlocks 0 none) history cache ∧
        cacheSet cache (CString.ofText "a") (letters 600000) 600000 =
          .ok (4, after) ∧
        cache.contents (CString.ofText "a") = some [118, 0] ∧
        cacheGet after (CString.ofText "a") =
          .ok ({ address := none, size := 0 }, after) ∧
        cache.numValues = 1 ∧ after.numValues = 0 ∧
        cacheSpaceUsed cache = 2 ∧ cacheSpaceUsed after = 0 := by
  obtain ⟨history, cache, after, calls, run, contents, numValues, spaceUsed,
      returned, missing, noValues, noSpace⟩ := exists_failed_overwrite
  exact ⟨history, cache, after, calls, run, returned, contents,
    cacheGet_of_none missing, numValues, noValues, spaceUsed, noSpace⟩

end CacheBench
