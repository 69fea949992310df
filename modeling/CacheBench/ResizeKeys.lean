import Mathlib.Algebra.Order.Field.Basic
import Mathlib.Data.Rat.Cast.Order
import Mathlib.Tactic.Linarith
import Mathlib.Tactic.NormNum
import CacheBench.CacheRun
import CacheBench.SlabAllocator

namespace CacheBench

open Execution

/-!
# Resizing the table

`resize_keys` is to keep the load factor between 0.25 and 1.  It copies the
metas into a new table and frees the lists of the old one.  The loop that
copies a list never leaves the first node, and the new table is never
installed.  No function of the program calls it.

The load factor is a quotient of two 32-bit numbers in `double`.  Rounding does
not change how it compares to 1 and to 0.25, so it is a rational number here.
-/

/-- The number of buckets `resize_keys` decides on, if it resizes. -/
def newNumBuckets (cache : Cache) : Option Int :=
  let loadFactor : ℚ := cache.numValues.toNat / cache.numBuckets
  let decided : Option Int :=
    if loadFactor > 1 then
      some ((2 * cache.numBuckets : Int).bmod (2 ^ 32))
    else if loadFactor < 1 / 4 then
      some (cache.numBuckets / 2)
    else
      none
  decided.filter (10 ≤ ·)

/--
The loop that copies one list of metas.  `rounds` bounds how often its body is
executed.  The body does not advance `current`.
-/
def copyMetas (hasher : HashFunc) :
    (rounds : Nat) → (current : List Meta) → List (List Meta) →
      Outcome (List (List Meta))
  | _, [], keySpace =>
      .ok keySpace
  | 0, _ :: _, _ =>
      .error .endless
  | rounds + 1, oldMeta :: next, keySpace =>
      copyMetas hasher rounds (oldMeta :: next)
        (keySpace.modify
          ((hasher oldMeta.storedKey).toNat % keySpace.length)
          fun bucket => llAppend bucket oldMeta)

/-- Copy the metas of all buckets. -/
def copyBuckets (hasher : HashFunc) (rounds : Nat) :
    List (List Meta) → List (List Meta) → Outcome (List (List Meta))
  | [], keySpace =>
      .ok keySpace
  | bucket :: rest, keySpace => do
      let keySpace ← copyMetas hasher rounds bucket keySpace
      copyBuckets hasher rounds rest keySpace

/-- A cache, and whether the lists of its table have been freed. -/
structure Resized where
  cache : Cache
  freed : Bool

/-- `get_meta` afterwards; a list that was freed may not be read. -/
def Resized.getMeta (resized : Resized) (key : CString) :
    Outcome (Option Meta) :=
  if resized.freed then
    .error .outOfBounds
  else
    .ok (CacheBench.getMeta resized.cache key)

/-- Resize the table to keep the load factor between 0.25 and 1. -/
def resizeKeys (rounds : Nat) (cache : Cache) : Outcome Resized :=
  match newNumBuckets cache with
  | none =>
      .ok { cache := cache, freed := false }
  | some newNumBuckets => do
      let _keySpace ←
        copyBuckets cache.hasher rounds cache.buckets
          (List.replicate newNumBuckets.toNat [])
      .ok { cache := cache, freed := true }

/-! ## The copy loop -/

section Copy

variable {hasher : HashFunc}

@[simp] theorem copyMetas_nil
    (rounds : Nat)
    (keySpace : List (List Meta)) :
    copyMetas hasher rounds [] keySpace = .ok keySpace := by
  cases rounds <;> rfl

/-- The loop does not end on a list that is not empty. -/
theorem copyMetas_cons
    (rounds : Nat)
    (oldMeta : Meta)
    (next : List Meta)
    (keySpace : List (List Meta)) :
    copyMetas hasher rounds (oldMeta :: next) keySpace =
      .error .endless := by
  induction rounds generalizing keySpace with
  | zero =>
      rfl
  | succ rounds inductionHypothesis =>
      exact inductionHypothesis _

/-- Copying gets through a table without metas and through no other. -/
theorem copyBuckets_eq
    (rounds : Nat)
    (buckets keySpace : List (List Meta)) :
    copyBuckets hasher rounds buckets keySpace =
      if buckets.flatten = [] then .ok keySpace else .error .endless := by
  induction buckets with
  | nil =>
      rfl
  | cons bucket rest inductionHypothesis =>
      cases bucket with
      | nil =>
          rw [copyBuckets, copyMetas_nil, List.flatten_cons,
            List.nil_append]
          exact inductionHypothesis
      | cons oldMeta next =>
          rw [copyBuckets, copyMetas_cons]
          simp [bind, Except.bind]

end Copy

/-! ## What is left of the table -/

section Resize

variable {cache : Cache}

/-- A cache whose table is to be resized loses it, or the call never ends. -/
theorem resizeKeys_of_some
    {newNumber : Int}
    (decided : newNumBuckets cache = some newNumber)
    (rounds : Nat) :
    resizeKeys rounds cache =
      if cache.metas = [] then
        .ok { cache := cache, freed := true }
      else
        .error .endless := by
  rw [resizeKeys, decided]
  dsimp only
  rw [copyBuckets_eq]
  by_cases noMetas : cache.metas = []
  · have noEntries : cache.buckets.flatten = [] := noMetas
    rw [if_pos noMetas, if_pos noEntries]
    rfl
  · have someEntry : cache.buckets.flatten ≠ [] := noMetas
    rw [if_neg noMetas, if_neg someEntry]
    rfl

/-- A table of 30 buckets is resized with fewer than 8 or more than 30 values. -/
theorem newNumBuckets_eq_none_iff
    (numBuckets : cache.numBuckets = 30) :
    newNumBuckets cache = none ↔
      8 ≤ cache.numValues.toNat ∧ cache.numValues.toNat ≤ 30 := by
  have above :
      ((cache.numValues.toNat : ℚ) / (30 : Nat) > 1) ↔
        30 < cache.numValues.toNat := by
    rw [gt_iff_lt, one_lt_div (by norm_num)]
    exact Nat.cast_lt
  have below :
      ((cache.numValues.toNat : ℚ) / (30 : Nat) < 1 / 4) ↔
        4 * cache.numValues.toNat < 30 := by
    rw [div_lt_div_iff₀ (by norm_num) (by norm_num)]
    norm_cast
    omega
  simp only [newNumBuckets, numBuckets, above, below]
  split_ifs <;> simp [Option.filter] <;> omega

/-- The number of buckets a resize is to lead to. -/
def expectedNumBuckets (numValues numBuckets : Nat) : Nat :=
  if numBuckets < numValues then
    2 * numBuckets
  else if 4 * numValues < numBuckets ∧ 10 ≤ numBuckets / 2 then
    numBuckets / 2
  else
    numBuckets

/-- The table holds what it held before and has the size it should have. -/
structure Preserved (cache : Cache) (resized : Resized) : Prop where
  metas : ∀ key, resized.getMeta key = .ok (getMeta cache key)
  numValues : resized.cache.numValues = cache.numValues
  numBuckets :
    resized.cache.numBuckets =
      expectedNumBuckets cache.numValues.toNat cache.numBuckets

/--
In every run, `resize_keys` ends and preserves the table exactly when there is
nothing to resize: with 8 to 30 values in the 30 buckets.
-/
theorem resize_preserves_iff
    {blocks : Nat → Slab}
    {maxmem : UInt64}
    {hasher : Option HashFunc}
    {history : List Event}
    (run :
      Run Cache.Step (createCache blocks maxmem hasher) history cache) :
    (∃ rounds resized,
      resizeKeys rounds cache = .ok resized ∧ Preserved cache resized) ↔
      8 ≤ cache.numValues.toNat ∧ cache.numValues.toNat ≤ 30 := by
  obtain ⟨tableOk, -⟩ :=
    @table_invariant (fun _ => True) (fun _ => True) _ _ _ trivial
      (fun _ _ _ _ => trivial) _ _ run fun _ _ => trivial
  rw [← newNumBuckets_eq_none_iff tableOk.numBuckets]
  constructor
  · rintro ⟨rounds, resized, returned, preserved⟩
    cases decided : newNumBuckets cache with
    | none =>
        rfl
    | some newNumber =>
        rw [resizeKeys_of_some decided] at returned
        split at returned
        · cases returned
          have lookup := preserved.metas (CString.ofText "a")
          cases lookup
        · cases returned
  · intro decided
    refine ⟨0, { cache := cache, freed := false }, ?_, fun _ => rfl, rfl, ?_⟩
    · rw [resizeKeys, decided]
    · obtain ⟨atLeast, atMost⟩ :=
        (newNumBuckets_eq_none_iff tableOk.numBuckets).mp decided
      dsimp only
      rw [expectedNumBuckets, tableOk.numBuckets, if_neg (by omega),
        if_neg (by omega)]

/-- Eight values do not call for a resize. -/
theorem resize_preserves_iff_eight_values :
    ∃ (history : List Event) (cache : Cache),
      Run Cache.Step (createCache zeroBlocks 0 none) history cache ∧
        cache.numValues = 8 ∧
        ∃ rounds resized,
          resizeKeys rounds cache = .ok resized ∧
            Preserved cache resized := by
  obtain ⟨history, cache, -, run, seen⟩ :=
    exists_run (by
      decide +kernel :
      returnsSuch
        ((createCache zeroBlocks 0 none).performAll
          (["0", "1", "2", "3", "4", "5", "6", "7"].map fun key =>
            .set (CString.ofText key) (bytesAt []) 1))
        (fun result => result.2.numValues == 8) = true)
  rw [beq_iff_eq] at seen
  refine ⟨history, cache, run, seen, (resize_preserves_iff run).mpr ?_⟩
  dsimp only at seen
  rw [seen]
  decide

/--
With one value the call does not end.  Without values it ends with all lists
freed, and the cache still has 30 buckets instead of 15.
-/
theorem resize_loses_table :
    (∃ (history : List Event) (cache : Cache),
      history.map Event.call =
          [.set (CString.ofText "a") (bytesAt []) 1] ∧
        Run Cache.Step (createCache zeroBlocks 0 none) history cache ∧
        ∀ rounds, resizeKeys rounds cache = .error .endless) ∧
      ∃ resized,
        resizeKeys 0 (createCache zeroBlocks 0 none) = .ok resized ∧
          resized.getMeta (CString.ofText "a") = .error .outOfBounds ∧
          resized.cache.numBuckets = 30 ∧
          expectedNumBuckets 0 30 = 15 := by
  have decided
      {cache : Cache}
      (numBuckets : cache.numBuckets = 30)
      (few : cache.numValues.toNat < 8) :
      ∃ newNumber, newNumBuckets cache = some newNumber := by
    rw [← Option.ne_none_iff_exists', ne_eq,
      newNumBuckets_eq_none_iff numBuckets]
    omega
  constructor
  · obtain ⟨history, cache, calls, run, seen⟩ :=
      exists_run (by
        decide +kernel :
        returnsSuch
          ((createCache zeroBlocks 0 none).performAll
            [.set (CString.ofText "a") (bytesAt []) 1])
          (fun result =>
            result.2.numBuckets == 30 && result.2.numValues == 1 &&
              result.2.metas.length == 1) = true)
    simp only [Bool.and_eq_true, beq_iff_eq] at seen
    obtain ⟨⟨numBuckets, numValues⟩, oneMeta⟩ := seen
    obtain ⟨newNumber, decided⟩ :=
      decided numBuckets (by
        rw [numValues]
        decide)
    refine ⟨history, cache, calls, run, fun rounds => ?_⟩
    have someMeta : cache.metas ≠ [] :=
      List.ne_nil_of_length_pos (by omega)
    rw [resizeKeys_of_some decided, if_neg someMeta]
  · obtain ⟨newNumber, decided⟩ :=
      decided (createCache_tableOk zeroBlocks 0 none).numBuckets
        (by decide)
    refine ⟨{ cache := createCache zeroBlocks 0 none, freed := true }, ?_,
      rfl, rfl, rfl⟩
    rw [resizeKeys_of_some decided, if_pos (createCache_metas _ _ _)]

end Resize

end CacheBench
