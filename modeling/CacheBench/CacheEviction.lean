import CacheBench.CacheRun

namespace CacheBench

open Execution

/-!
# Choosing a victim

`cache_evict` picks the meta of the class with the greatest timer above 0.  The
timer counts the calls of `update_timers` since the last access modulo 256, so
the choice is the least recently used value as long as no value of the class
has gone 256 of those calls without an access.
-/

/-- The loop of `cache_evict` over the remaining metas. -/
private def victimFrom
    (slabClass : Nat)
    (start : UInt8 × Option Meta)
    (metas : List Meta) :
    UInt8 × Option Meta :=
  metas.foldl
    (fun (maxTimer, maxMeta) current =>
      if current.timer > maxTimer ∧ slabClass = current.slabClass then
        (current.timer, some current)
      else
        (maxTimer, maxMeta))
    start

/--
What the loop has found: either no meta beat the start, or the meta it holds
did, and no meta of the class has a greater timer.
-/
private structure Best
    (slabClass : Nat)
    (start : UInt8 × Option Meta)
    (metas : List Meta)
    (result : UInt8 × Option Meta) : Prop where
  greatest :
    ∀ item ∈ metas, item.slabClass = slabClass → item.timer ≤ result.1
  fromStart : start.1 ≤ result.1
  found :
    result = start ∨
      ∃ item ∈ metas,
        item.slabClass = slabClass ∧ start.1 < item.timer ∧
          result = (item.timer, some item)

private theorem victimFrom_best
    (slabClass : Nat)
    (start : UInt8 × Option Meta)
    (metas : List Meta) :
    Best slabClass start metas (victimFrom slabClass start metas) := by
  induction metas generalizing start with
  | nil =>
      exact ⟨by simp, UInt8.le_refl _, Or.inl rfl⟩
  | cons head rest inductionHypothesis =>
      by_cases better : head.timer > start.1 ∧ slabClass = head.slabClass
      · have next :
            victimFrom slabClass start (head :: rest) =
              victimFrom slabClass (head.timer, some head) rest := by
          simp only [victimFrom, List.foldl_cons, if_pos better]
        obtain ⟨greatest, fromHead, found⟩ :=
          inductionHypothesis (head.timer, some head)
        rw [next]
        refine ⟨?_, UInt8.le_trans (UInt8.le_of_lt better.1) fromHead,
          Or.inr ?_⟩
        · intro item member sameClass
          rcases List.mem_cons.mp member with isHead | inRest
          · rw [isHead]
            exact fromHead
          · exact greatest item inRest sameClass
        · rcases found with isHead | ⟨item, member, sameClass, above, isItem⟩
          · exact ⟨head, by simp, better.2.symm, better.1, isHead⟩
          · exact ⟨item, by simp [member], sameClass,
              UInt8.lt_trans better.1 above, isItem⟩
      · have next :
            victimFrom slabClass start (head :: rest) =
              victimFrom slabClass start rest := by
          simp only [victimFrom, List.foldl_cons, if_neg better]
        obtain ⟨greatest, fromStart, found⟩ := inductionHypothesis start
        rw [next]
        refine ⟨?_, fromStart, ?_⟩
        · intro item member sameClass
          rcases List.mem_cons.mp member with isHead | inRest
          · subst item
            have notAbove : ¬ start.1 < head.timer :=
              fun above => better ⟨above, sameClass.symm⟩
            exact UInt8.le_trans (UInt8.not_lt.mp notAbove) fromStart
          · exact greatest item inRest sameClass
        · rcases found with isStart | ⟨item, member, sameClass, above, isItem⟩
          · exact Or.inl isStart
          · exact Or.inr ⟨item, by simp [member], sameClass, above, isItem⟩

section Victim

variable {cache : Cache} {slabClass : Nat} {victim : Meta}

/-- The victim is of the class and has the greatest timer, above 0. -/
theorem findVictim_sound
    (chosen : findVictim cache slabClass = some victim) :
    victim ∈ cache.metas ∧ victim.slabClass = slabClass ∧
      0 < victim.timer ∧
      ∀ item ∈ cache.metas, item.slabClass = slabClass →
        item.timer ≤ victim.timer := by
  obtain ⟨greatest, -, found⟩ :=
    victimFrom_best slabClass (0, none) cache.metas
  have chosen : (victimFrom slabClass (0, none) cache.metas).2 =
      some victim := chosen
  rcases found with isStart | ⟨item, member, sameClass, above, isItem⟩
  · rw [isStart] at chosen
    cases chosen
  · rw [isItem] at chosen greatest
    cases chosen
    exact ⟨member, sameClass, above, greatest⟩

/-- There is no victim when every meta of the class has timer 0. -/
theorem findVictim_eq_none_iff :
    findVictim cache slabClass = none ↔
      ∀ item ∈ cache.metas, item.slabClass = slabClass →
        item.timer = 0 := by
  obtain ⟨greatest, -, found⟩ :=
    victimFrom_best slabClass (0, none) cache.metas
  have unfolded :
      findVictim cache slabClass =
        (victimFrom slabClass (0, none) cache.metas).2 := rfl
  rw [unfolded]
  constructor
  · intro noVictim item member sameClass
    rcases found with isStart | ⟨other, -, -, -, isOther⟩
    · have bounded := greatest item member sameClass
      rw [isStart] at bounded
      exact UInt8.le_zero_iff.mp bounded
    · rw [isOther] at noVictim
      cases noVictim
  · intro allZero
    rcases found with isStart | ⟨other, member, sameClass, above, -⟩
    · rw [isStart]
    · rw [allZero other member sameClass] at above
      exact (UInt8.lt_irrefl _ above).elim

end Victim

/-! ## Ages -/

/-- The calls of `update_timers` since a meta was last accessed. -/
def Cache.age (cache : Cache) (item : Meta) : Nat :=
  cache.ticks - item.lastAccess

/-- Timers are ages modulo 256. -/
structure AgesOk (cache : Cache) : Prop where
  accessed : ∀ item ∈ cache.metas, item.lastAccess ≤ cache.ticks
  timer : ∀ item ∈ cache.metas, item.timer.toNat = cache.age item % 256

/-- A tick makes a meta one call older. -/
private theorem timer_tick
    {cache : Cache}
    {item : Meta}
    (accessed : item.lastAccess ≤ cache.ticks)
    (timer : item.timer.toNat = cache.age item % 256) :
    (tick item).timer.toNat =
      (cache.ticks + 1 - item.lastAccess) % 256 := by
  have older :
      cache.ticks + 1 - item.lastAccess = cache.age item + 1 := by
    rw [Cache.age]
    omega
  rw [tick_timer, UInt8.toNat_add, timer, older]
  simp

/-- Every move keeps timers and ages together. -/
theorem AgesOk.move
    {key : CString}
    {cache after : Cache}
    (tableOk : TableOk cache)
    (agesOk : AgesOk cache)
    (move : Move key cache after) :
    AgesOk after := by
  have ticked :
      ∀ item ∈ cache.metas,
        (tick item).lastAccess ≤ cache.ticks + 1 ∧
          (tick item).timer.toNat =
            (cache.ticks + 1 - (tick item).lastAccess) % 256 := by
    intro item member
    have accessed := agesOk.accessed item member
    rw [tick_lastAccess]
    exact ⟨Nat.le_succ_of_le accessed,
      timer_tick accessed (agesOk.timer item member)⟩
  cases move with
  | space same =>
      refine ⟨?_, ?_⟩
      · intro item member
        rw [same.metas] at member
        rw [same.ticks]
        exact agesOk.accessed item member
      · intro item member
        rw [same.metas] at member
        rw [Cache.age, same.ticks]
        exact agesOk.timer item member
  | delete found slabManager =>
      refine ⟨?_, ?_⟩
      · intro item member
        obtain ⟨before, beforeMember, rfl⟩ :=
          mem_afterDelete tableOk found slabManager member
        exact (ticked before beforeMember).1
      · intro item member
        obtain ⟨before, beforeMember, rfl⟩ :=
          mem_afterDelete tableOk found slabManager member
        exact (ticked before beforeMember).2
  | @store _ _ valSize small slabClass address slabManager =>
      refine ⟨?_, ?_⟩
      · intro item member
        rcases mem_afterStore tableOk member with
            rfl | ⟨before, beforeMember, rfl⟩
        · exact Nat.le_refl _
        · exact (ticked before beforeMember).1
      · intro item member
        rcases mem_afterStore tableOk member with
            rfl | ⟨before, beforeMember, rfl⟩
        · have justNow :
              (afterStore cache key valSize slabClass address
                  slabManager).age
                (newMeta cache key valSize slabClass address) = 0 :=
            Nat.sub_self _
          rw [justNow]
          rfl
        · exact (ticked before beforeMember).2
  | @touch touched found =>
      refine ⟨?_, ?_⟩
      · intro item member
        rcases mem_afterGet tableOk found member with rfl | isOld
        · exact Nat.le_refl _
        · exact agesOk.accessed item isOld
      · intro item member
        rcases mem_afterGet tableOk found member with rfl | isOld
        · have justNow :
              (afterGet cache key).age (touch cache touched) = 0 :=
            Nat.sub_self _
          rw [justNow]
          rfl
        · exact agesOk.timer item isOld

theorem createCache_agesOk
    (blocks : Nat → Slab)
    (maxmem : UInt64)
    (hasher : Option HashFunc) :
    AgesOk (createCache blocks maxmem hasher) := by
  constructor <;> simp [createCache_metas]

end CacheBench
