import CacheBench.HeapSlabs

namespace CacheBench.OnHeap

open SeparationHeap HeapProgram

/-!
# The cache on the heap

`cacheAt` owns a cache, its manager, the array of buckets and the buckets with
their metas.  Every function of `cache.c` computes on the heap what it computes
on sequences, and touches nothing that is not there: also `cache_evict`, which
hands `cache_delete` a pointer into the meta that is about to be freed.
-/

/-- The buckets: the pointer to each list and its metas with their addresses. -/
abbrev Table := List (Nat × List (Nat × Meta))

namespace Table

/-- The metas of each bucket. -/
def metas (table : Table) : List (List Meta) :=
  table.map fun bucket => bucket.2.map Prod.snd

end Table

/-- One bucket. -/
def bucketAt (bucket : Nat × List (Nat × Meta)) : Assertion Block :=
  listAt bucket.1 .metaCompare .metaDestroy .metaObj bucket.2

/-- All buckets. -/
def tableAt (table : Table) : Assertion Block :=
  (table.map bucketAt).prod

/-- The cache object that stands for a cache. -/
def cacheFields (cache : Cache) (man buckets : Nat) : CacheObj where
  hasher := cache.hasher
  size := cache.size
  slabManager := man
  buckets := buckets
  numBuckets := cache.buckets.length
  maxmem := cache.maxmem
  numValues := cache.numValues
  ticks := cache.ticks

/-- The blocks of a cache whose pointers are known. -/
abbrev cacheBlocks
    (address : Nat)
    (cache : Cache)
    (man buckets : Nat)
    (table : Table) :
    Assertion Block :=
  pointsTo address (.cacheObj (cacheFields cache man buckets)) *
    managerAt man cache.slabManager *
    pointsTo buckets (.bucketArray (table.map Prod.fst)) *
    tableAt table

/-- A cache with its 30 buckets. -/
def cacheAt (address : Nat) (cache : Cache) : Assertion Block :=
  ⨆ (man : Nat) (buckets : Nat) (table : Table)
    (_ : table.metas = cache.buckets) (_ : table.length = 30),
    cacheBlocks address cache man buckets table

section Tables

@[simp]
theorem tableAt_nil : tableAt [] = 1 :=
  rfl

@[simp]
theorem tableAt_cons (bucket : Nat × List (Nat × Meta)) (table : Table) :
    tableAt (bucket :: table) = bucketAt bucket * tableAt table := by
  simp [tableAt]

@[simp]
theorem tableAt_append (front back : Table) :
    tableAt (front ++ back) = tableAt front * tableAt back := by
  simp [tableAt]

/-- A meta in a bucket is there. -/
theorem tableAt_le_has
    {table : Table}
    {bucket : Nat × List (Nat × Meta)}
    {object : Nat × Meta}
    (inTable : bucket ∈ table)
    (member : object ∈ bucket.2) :
    tableAt table ≤ has object.1 (.metaObj object.2) := by
  obtain ⟨front, back, rfl⟩ := List.append_of_mem inTable
  rw [tableAt_append, tableAt_cons]
  exact has_right (has_left (listAt_le_has member))

/-- A table around one of its buckets. -/
theorem tableAt_split
    {table front back : Table}
    {bucket : Nat × List (Nat × Meta)}
    (shape : table = front ++ bucket :: back) :
    tableAt table = bucketAt bucket * (tableAt front * tableAt back) := by
  rw [shape, tableAt_append, tableAt_cons]
  ac_rfl

end Tables

section Walking

/-- A walk that only reads folds over the metas. -/
theorem walkFrom_reads
    {σ : Type}
    {P : Assertion Block}
    {visit : σ → Nat → Meta → σ}
    {steps : Nat}
    {head : Option Nat}
    {cells : Cells}
    {objects : List (Nat × Meta)}
    (follows : Follows P head cells)
    (objs : cells.map Prod.snd = objects.map Prod.fst)
    (present : ∀ object ∈ objects, P ≤ has object.1 (.metaObj object.2))
    (enough : cells.length < steps)
    (state : σ) :
    Reads P (walkFrom visit steps head state)
      (objects.foldl (fun state object => visit state object.1 object.2) state) := by
  induction cells generalizing steps head objects state with
  | nil =>
      obtain ⟨steps, rfl⟩ := Nat.exists_eq_add_of_lt enough
      obtain rfl : head = none := follows
      obtain rfl : objects = [] := by simpa using objs.symm
      exact Reads.pure _
  | cons cell rest inductionHypothesis =>
      obtain ⟨rfl, node, onward⟩ := follows
      obtain ⟨steps, rfl⟩ : ∃ fewer, steps = fewer + 1 :=
        Nat.exists_eq_succ_of_ne_zero (by omega)
      obtain _ | ⟨object, objects⟩ := objects
      · simp at objs
      obtain ⟨obj, restObjs⟩ : cell.2 = object.1 ∧
          rest.map Prod.snd = objects.map Prod.fst := by
        simpa using objs
      refine Reads.loadAs_bind node rfl ?_
      simp only [obj]
      refine Reads.loadAs_bind (present object (by simp)) rfl ?_
      exact inductionHypothesis onward restObjs
        (fun other member => present other (by simp [member]))
        (by simp at enough; omega) _

theorem walkList_reads
    {σ : Type}
    (visit : σ → Nat → Meta → σ)
    (state : σ)
    (bucket : Nat × List (Nat × Meta)) :
    Reads (bucketAt bucket) (walkList visit state bucket.1)
      (bucket.2.foldl (fun state object => visit state object.1 object.2) state) := by
  rw [bucketAt, ← mul_one (listAt _ _ _ _ _)]
  refine reads_listAt fun cells objs => ?_
  refine Reads.loadAs_bind Focus.le_has rfl ?_
  refine Reads.countBlocks
    (atLeast_of_owns Splits.le (segment_le_exactly none cells)) fun bound enough => ?_
  exact walkFrom_reads (follows_segment cells Splits.le) objs
    (fun object member => has_of_owns Splits.le (objectsAt_le_has member)) (by omega) _

/-- The walk over the lists of a table folds over all its metas. -/
theorem foldlM_walkList_reads
    {σ : Type}
    (visit : σ → Nat → Meta → σ)
    (table : Table)
    (state : σ) :
    Reads (tableAt table) ((table.map Prod.fst).foldlM (walkList visit) state)
      ((table.flatMap Prod.snd).foldl
        (fun state object => visit state object.1 object.2) state) := by
  induction table generalizing state with
  | nil =>
      exact Reads.pure _
  | cons bucket rest inductionHypothesis =>
      rw [List.map_cons, List.foldlM_cons, List.flatMap_cons, List.foldl_append,
        tableAt_cons]
      refine ((walkList_reads visit state bucket).within Splits.le).bind ?_
      exact (inductionHypothesis _).within Splits.le

end Walking

section Aging

/-- A walk that increments the timers. -/
theorem tickFrom_refines
    {steps : Nat}
    {cells : Cells}
    {objects : List (Nat × Meta)}
    (objs : cells.map Prod.snd = objects.map Prod.fst)
    (enough : cells.length < steps) :
    Refines (segment none cells * objectsAt .metaObj objects)
      (tickFrom steps (headOr none cells)) (.ok ())
      fun _ _ => segment none cells *
        objectsAt .metaObj (objects.map fun object => (object.1, tick object.2)) := by
  induction cells generalizing steps objects with
  | nil =>
      obtain ⟨steps, rfl⟩ := Nat.exists_eq_add_of_lt enough
      obtain rfl : objects = [] := by simpa using objs.symm
      exact Refines.pure le_rfl
  | cons cell rest inductionHypothesis =>
      obtain ⟨steps, rfl⟩ : ∃ fewer, steps = fewer + 1 :=
        Nat.exists_eq_succ_of_ne_zero (by omega)
      obtain _ | ⟨object, objects⟩ := objects
      · simp at objs
      obtain ⟨obj, restObjs⟩ : cell.2 = object.1 ∧
          rest.map Prod.snd = objects.map Prod.fst := by
        simpa using objs
      simp only [segment_cons, objectsAt_cons, List.map_cons]
      refine Refines.loadAs Focus.le_has rfl ?_
      simp only [obj]
      refine Refines.loadAs Focus.le_has rfl ?_
      refine Refines.store (Refines.last (Refines.step
        (inductionHypothesis restObjs (by simp at enough; omega)) fun _ => ?_))
      refine Refines.pure (le_of_eq ?_)
      ac_rfl

/-- The bucket after `update_timers`. -/
def tickBucket (bucket : Nat × List (Nat × Meta)) : Nat × List (Nat × Meta) :=
  (bucket.1, bucket.2.map fun object => (object.1, tick object.2))

theorem tickList_refines (bucket : Nat × List (Nat × Meta)) :
    Refines (bucketAt bucket) (tickList bucket.1) (.ok ())
      fun _ _ => bucketAt (tickBucket bucket) := by
  rw [bucketAt, ← mul_one (listAt _ _ _ _ _)]
  refine refines_listAt fun cells objs => ?_
  refine Refines.loadAs Focus.le_has rfl ?_
  refine Refines.countBlocks
    (atLeast_of_owns Splits.le (segment_le_exactly none cells)) fun bound enough => ?_
  refine Refines.last (Refines.step (tickFrom_refines objs (by omega)) fun _ => ?_)
  have newObjs :
      cells.map Prod.snd =
        (bucket.2.map fun object => (object.1, tick object.2)).map Prod.fst := by
    rw [objs, List.map_map]
    rfl
  refine Refines.pure (le_trans (le_of_eq ?_) (le_listAt newObjs))
  simp only [mul_one]
  ac_rfl

theorem forM_tickList_refines (table : Table) :
    Refines (tableAt table) (forM (table.map Prod.fst) tickList) (.ok ())
      fun _ _ => tableAt (table.map tickBucket) := by
  induction table with
  | nil =>
      exact Refines.pure le_rfl
  | cons bucket rest inductionHypothesis =>
      rw [List.map_cons, List.forM_cons, tableAt_cons]
      refine Refines.step (tickList_refines bucket) fun _ => ?_
      refine Refines.last (Refines.step inductionHypothesis fun _ => ?_)
      refine Refines.pure (le_of_eq ?_)
      rw [List.map_cons, tableAt_cons, mul_comm]

end Aging

section Opening

variable {address : Nat} {cache : Cache}

theorem le_cacheAt
    (man buckets : Nat)
    {table : Table}
    (shown : table.metas = cache.buckets)
    (count : table.length = 30) :
    cacheBlocks address cache man buckets table ≤ cacheAt address cache :=
  le_iSup₂_of_le man buckets
    (le_iSup₂_of_le table shown (le_iSup_of_le count le_rfl))

theorem refines_cacheAt
    {ρ γ : Type}
    {program : Code ρ}
    {outcome : Outcome γ}
    {S : γ → ρ → Assertion Block}
    (each : ∀ man buckets (table : Table), table.metas = cache.buckets → table.length = 30 →
      Refines (cacheBlocks address cache man buckets table) program outcome S) :
    Refines (cacheAt address cache) program outcome S :=
  Refines.exists_before fun man => Refines.exists_before fun buckets =>
    Refines.exists_before fun table => Refines.exists_before fun shown =>
      Refines.exists_before fun count => each man buckets table shown count

/-- The same with something else that is owned. -/
theorem refines_cacheAt_mul
    {ρ γ : Type}
    {program : Code ρ}
    {outcome : Outcome γ}
    {S : γ → ρ → Assertion Block}
    {R : Assertion Block}
    (each : ∀ man buckets (table : Table), table.metas = cache.buckets → table.length = 30 →
      Refines (cacheBlocks address cache man buckets table * R) program outcome S) :
    Refines (cacheAt address cache * R) program outcome S := by
  simp only [cacheAt, Assertion.iSup_mul]
  exact Refines.exists_before fun man => Refines.exists_before fun buckets =>
    Refines.exists_before fun table => Refines.exists_before fun shown =>
      Refines.exists_before fun count => each man buckets table shown count

theorem reads_cacheAt
    {ρ : Type}
    {program : Code ρ}
    {result : ρ}
    (each : ∀ man buckets (table : Table), table.metas = cache.buckets → table.length = 30 →
      Reads (cacheBlocks address cache man buckets table) program result) :
    Reads (cacheAt address cache) program result :=
  Reads.exists_before fun man => Reads.exists_before fun buckets =>
    Reads.exists_before fun table => Reads.exists_before fun shown =>
      Reads.exists_before fun count => each man buckets table shown count

theorem Table.length_eq
    {table : Table}
    (shown : table.metas = cache.buckets) :
    cache.buckets.length = table.length := by
  rw [← shown, Table.metas, List.length_map]

/-- The array has a list for each bucket. -/
theorem bucketLists_reads
    {P : Assertion Block}
    {man buckets : Nat}
    {table : Table}
    (shown : table.metas = cache.buckets)
    (array : P ≤ has buckets (.bucketArray (table.map Prod.fst))) :
    Reads P (bucketLists (cacheFields cache man buckets)) (table.map Prod.fst) := by
  have sameCount : (cacheFields cache man buckets).numBuckets =
      (table.map Prod.fst).length := by
    rw [List.length_map]
    exact Table.length_eq shown
  refine Reads.loadAs_bind array rfl ?_
  rw [sameCount, if_pos le_rfl, List.take_length]
  exact Reads.pure _

/-- `update_timers` ages every meta. -/
theorem updateTimers_refines :
    Refines (cacheAt address cache) (updateTimers address) (.ok ())
      fun _ _ => cacheAt address (CacheBench.updateTimers cache) := by
  refine refines_cacheAt fun man buckets table shown count => ?_
  unfold cacheBlocks
  refine Refines.loadAs Focus.le_has rfl ?_
  refine Refines.read (bucketLists_reads shown Focus.le_has) ?_
  refine Refines.step (forM_tickList_refines table) fun _ => ?_
  refine Refines.last (Refines.store (Refines.pure ?_))
  have newShown :
      Table.metas (table.map tickBucket) =
        (CacheBench.updateTimers cache).buckets := by
    simp only [Table.metas, CacheBench.updateTimers, ← shown, tickBucket, List.map_map,
      Function.comp_def]
  refine le_trans (le_of_eq ?_)
    (le_cacheAt man buckets newShown (by simpa using count))
  have fields :
      cacheFields (CacheBench.updateTimers cache) man buckets =
        { cacheFields cache man buckets with ticks := cache.ticks + 1 } := by
    simp [cacheFields, CacheBench.updateTimers]
  have lists : (table.map tickBucket).map Prod.fst = table.map Prod.fst := by
    rw [List.map_map]
    rfl
  rw [cacheBlocks, fields, lists]
  simp only [CacheBench.updateTimers, cacheFields]
  ac_rfl

/-- The text of a key is that of the pointer. -/
theorem readKey_text_reads {P : Assertion Block} (key : CString) :
    Reads P (readKey (.text key)) key :=
  Reads.pure key

/-- The key of a meta can be read while the meta is there. -/
theorem readKey_ofMeta_reads
    {table : Table}
    {bucket : Nat × List (Nat × Meta)}
    {object : Nat × Meta}
    (inTable : bucket ∈ table)
    (member : object ∈ bucket.2) :
    Reads (tableAt table) (readKey (.ofMeta object.1)) object.2.storedKey :=
  Reads.loadAs_bind (tableAt_le_has inTable member) rfl (Reads.pure _)

end Opening

/-- A table around the bucket of a key. -/
structure BucketOf (cache : Cache) (table : Table) (text : CString) where
  front : Table
  list : Nat
  objects : List (Nat × Meta)
  back : Table
  shape : table = front ++ (list, objects) :: back
  position : front.length = cache.bucketOf text

namespace BucketOf

variable {cache : Cache} {table : Table} {text : CString} {key : Key}

/-- The table with other metas in the bucket. -/
def replaced
    (bucket : BucketOf cache table text)
    (objects : List (Nat × Meta)) :
    Table :=
  bucket.front ++ (bucket.list, objects) :: bucket.back

theorem length_replaced
    (bucket : BucketOf cache table text)
    (objects : List (Nat × Meta)) :
    (bucket.replaced objects).length = table.length := by
  simp [replaced, bucket.shape]

theorem lists_replaced
    (bucket : BucketOf cache table text)
    (objects : List (Nat × Meta)) :
    (bucket.replaced objects).map Prod.fst = table.map Prod.fst := by
  simp [replaced, bucket.shape]

theorem exists_of_length
    (shown : table.metas = cache.buckets)
    (count : table.length = 30)
    (text : CString) :
    Nonempty (BucketOf cache table text) := by
  have inRange : cache.bucketOf text < table.length := by
    rw [Cache.bucketOf, Cache.numBuckets, Table.length_eq shown]
    exact Nat.mod_lt _ (by omega)
  refine ⟨{
    front := table.take (cache.bucketOf text)
    list := (table.get ⟨_, inRange⟩).1
    objects := (table.get ⟨_, inRange⟩).2
    back := table.drop (cache.bucketOf text + 1)
    shape := ?_
    position := ?_ }⟩
  · simp
  · simp only [List.length_take]
    omega

/-- The metas of the bucket are those the sequences have there. -/
theorem bucketAt_eq
    (bucket : BucketOf cache table text)
    (shown : table.metas = cache.buckets) :
    ChainedTable.bucketAt cache.buckets (cache.bucketOf text) =
      bucket.objects.map Prod.snd := by
  obtain ⟨front, list, objects, back, rfl, position⟩ := bucket
  rw [← shown, Table.metas, ← position, ChainedTable.bucketAt]
  simp

/-- A change of the bucket is a change of the sequence there. -/
theorem metas_replaced
    (bucket : BucketOf cache table text)
    (shown : table.metas = cache.buckets)
    {objects : List (Nat × Meta)}
    {change : List Meta → List Meta}
    (changed : change (bucket.objects.map Prod.snd) = objects.map Prod.snd) :
    (bucket.replaced objects).metas =
      cache.buckets.modify (cache.bucketOf text) change := by
  obtain ⟨front, list, objects, back, rfl, position⟩ := bucket
  rw [← shown, ← position, replaced, Table.metas, Table.metas,
    List.modify_eq_set_getElem?]
  simp [changed]

/-- The test `LL_find` and `LL_delete` make at a meta. -/
theorem applyEq_reads
    {P : Assertion Block}
    {object : Nat × Meta}
    (present : P ≤ has object.1 (.metaObj object.2))
    (known : Reads P (readKey key) text) :
    Reads P (applyEq .metaCompare object.1 (.key key))
      (CacheBench.metaCompare object.2 text) :=
  Reads.loadAs_bind present rfl (known.bind (Reads.pure _))

theorem tableAt_eq (bucket : BucketOf cache table text) :
    tableAt table =
      bucketAt (bucket.list, bucket.objects) *
        (tableAt bucket.front * tableAt bucket.back) :=
  tableAt_split bucket.shape

theorem tableAt_replaced
    (bucket : BucketOf cache table text)
    (objects : List (Nat × Meta)) :
    tableAt (bucket.replaced objects) =
      bucketAt (bucket.list, objects) *
        (tableAt bucket.front * tableAt bucket.back) :=
  tableAt_split rfl

/-- The array element of the key's bucket. -/
theorem bucketFor_reads
    {P : Assertion Block}
    {man buckets : Nat}
    (bucket : BucketOf cache table text)
    (shown : table.metas = cache.buckets)
    (known : Reads P (readKey key) text)
    (array : P ≤ has buckets (.bucketArray (table.map Prod.fst))) :
    Reads P (bucketFor (cacheFields cache man buckets) key) bucket.list := by
  have someBucket : (cacheFields cache man buckets).numBuckets ≠ 0 := by
    change cache.buckets.length ≠ 0
    rw [Table.length_eq shown, bucket.shape]
    simp
  have element :
      (table.map Prod.fst)[((cacheFields cache man buckets).hasher text).toNat %
        (cacheFields cache man buckets).numBuckets]? = some bucket.list := by
    change (table.map Prod.fst)[cache.bucketOf text]? = some bucket.list
    obtain ⟨front, list, objects, back, rfl, position⟩ := bucket
    rw [← position]
    simp
  refine known.bind (Reads.loadAs_bind array rfl ?_)
  rw [if_neg someBucket, element]
  exact Reads.pure _

/-- `LL_find` in the bucket of the key. -/
theorem llFind_reads
    (bucket : BucketOf cache table text)
    (known : Reads (tableAt table) (readKey key) text) :
    Reads (tableAt table) (llFind bucket.list (.key key))
      ((bucket.objects.find? fun object =>
        CacheBench.metaCompare object.2 text).map Prod.fst) := by
  rw [bucket.tableAt_eq] at known ⊢
  refine reads_listAt fun cells objs => ?_
  refine OnHeap.llFind_reads (CacheBench.metaCompare · text) Focus.le_has Splits.le objs
    fun object member => applyEq_reads ?_ ?_
  · exact has_of_owns Splits.le (objectsAt_le_has member)
  · exact known.before (mul_le_mul_left (le_listAt objs) _)

/-- `LL_delete` in the bucket of the key. -/
theorem llDelete_refines
    (bucket : BucketOf cache table text)
    (known : Reads (tableAt table) (readKey key) text) :
    Refines (tableAt table) (llDelete bucket.list (.key key)) (.ok ())
      fun _ _ => tableAt (bucket.replaced
        (bucket.objects.eraseP fun object => CacheBench.metaCompare object.2 text)) := by
  simp only [tableAt_replaced]
  rw [bucket.tableAt_eq] at known ⊢
  exact OnHeap.llDelete_refines (CacheBench.metaCompare · text) fun object member =>
    applyEq_reads (has_left (listAt_le_has member)) known

/-- `LL_append` in the bucket of the key. -/
theorem llAppend_refines
    (bucket : BucketOf cache table text)
    (obj : Nat)
    (item : Meta) :
    Refines (tableAt table * pointsTo obj (.metaObj item)) (llAppend bucket.list obj)
      (.ok ())
      fun _ _ => tableAt (bucket.replaced (bucket.objects ++ [(obj, item)])) := by
  simp only [tableAt_replaced]
  rw [bucket.tableAt_eq, bucketAt]
  refine Refines.last (Refines.step
    (OnHeap.llAppend_refines .metaCompare .metaDestroy .metaObj bucket.objects obj item)
    fun _ => Refines.pure le_rfl)

/-- Writing through the pointer `LL_find` returned. -/
theorem store_refines
    (bucket : BucketOf cache table text)
    {object : Nat × Meta}
    (found : bucket.objects.find? (fun object =>
      CacheBench.metaCompare object.2 text) = some object)
    (new : Meta) :
    Refines (tableAt table) (store object.1 (.metaObj new) : Code Unit) (.ok ())
      fun _ _ => tableAt (bucket.replaced
        (FirstMatch.updateFirst (fun object => CacheBench.metaCompare object.2 text)
          (fun _ => (object.1, new)) bucket.objects)) := by
  simp only [tableAt_replaced]
  rw [bucket.tableAt_eq, bucketAt]
  refine Refines.last (Refines.step
    (storeObject_refines bucket.list .metaCompare .metaDestroy .metaObj found new)
    fun _ => Refines.pure le_rfl)

end BucketOf

/-- Removing from the objects is removing from the metas. -/
theorem llDelete_objects (test : Meta → Bool) (objects : List (Nat × Meta)) :
    (objects.map Prod.snd).eraseP test =
      (objects.eraseP fun object => test object.2).map Prod.snd :=
  List.eraseP_map ..

/-- Changing the object that was found is changing the meta that was found. -/
theorem llUpdate_objects
    (test : Meta → Bool)
    {objects : List (Nat × Meta)}
    {object : Nat × Meta}
    (found : objects.find? (fun object => test object.2) = some object)
    (change : Meta → Meta) :
    FirstMatch.updateFirst test change (objects.map Prod.snd) =
      (FirstMatch.updateFirst (fun object => test object.2)
        (fun _ => (object.1, change object.2)) objects).map Prod.snd := by
  obtain ⟨accepted, before, after, rfl, rejected⟩ :=
    FirstMatch.split_of_find? found
  have rejectedMetas : ∀ item ∈ before.map Prod.snd, test item = false := by
    intro item member
    obtain ⟨other, inBefore, rfl⟩ := List.mem_map.mp member
    exact rejected other inBefore
  rw [FirstMatch.updateFirst_split (fun object : Nat × Meta => test object.2) _ accepted
    rejected, List.map_append, List.map_cons, List.map_append, List.map_cons]
  exact FirstMatch.updateFirst_split test change accepted rejectedMetas

section Operations

variable {address : Nat} {cache : Cache} {man buckets : Nat} {table : Table}
variable {key : Key} {text : CString}

/-- The pointer `get_meta` returns is to the meta the sequences have. -/
theorem getMeta_reads
    (bucket : BucketOf cache table text)
    (shown : table.metas = cache.buckets)
    (known : Reads (tableAt table) (readKey key) text) :
    Reads (cacheBlocks address cache man buckets table) (getMeta address key)
      ((bucket.objects.find? fun object =>
        CacheBench.metaCompare object.2 text).map Prod.fst) := by
  unfold cacheBlocks
  refine Reads.loadAs_bind Focus.le_has rfl ?_
  refine (bucket.bucketFor_reads shown (known.within Splits.le) Focus.le_has).bind ?_
  exact (bucket.llFind_reads known).within Splits.le

theorem getMeta_eq
    (bucket : BucketOf cache table text)
    (shown : table.metas = cache.buckets) :
    CacheBench.getMeta cache text =
      (bucket.objects.find? fun object =>
        CacheBench.metaCompare object.2 text).map Prod.snd := by
  rw [CacheBench.getMeta, bucket.bucketAt_eq shown, CacheBench.llFind, List.find?_map]
  rfl

/-- A meta that was found can be read. -/
theorem loadMeta_reads
    (bucket : BucketOf cache table text)
    {object : Nat × Meta}
    (member : object ∈ bucket.objects) :
    Reads (tableAt table) (loadAs Block.metaObj? object.1 : Code Meta) object.2 := by
  refine Reads.loadAs (@tableAt_le_has _ (bucket.list, bucket.objects) _ ?_ member) rfl
  simp [bucket.shape]

/--
`cache_delete` with a key that may lie in the meta it frees: the key is not read
after that.
-/
theorem cacheDelete_refines
    (shown : table.metas = cache.buckets)
    (count : table.length = 30)
    (known : Reads (tableAt table) (readKey key) text) :
    Refines (cacheBlocks address cache man buckets table) (cacheDelete address key)
      (CacheBench.cacheDelete cache text)
      (answers Prod.fst fun result => cacheAt address result.2) := by
  obtain ⟨bucket⟩ := BucketOf.exists_of_length shown count text
  unfold cacheDelete CacheBench.cacheDelete
  refine Refines.read (getMeta_reads bucket shown known) ?_
  rw [getMeta_eq bucket shown]
  cases search : bucket.objects.find? fun object =>
      CacheBench.metaCompare object.2 text with
  | none =>
      exact Refines.pure_answers rfl (le_cacheAt man buckets shown count)
  | some object =>
      have member := List.mem_of_find?_eq_some search
      simp only [Option.map_some, cacheBlocks]
      refine Refines.loadAs Focus.le_has rfl ?_
      refine Refines.read ((loadMeta_reads bucket member).within Splits.le) ?_
      refine Refines.answer (manDelete_refines man object.2.address)
        fun slabManager deleted => ?_
      refine Refines.read
        (bucket.bucketFor_reads shown (known.within Splits.le) Focus.le_has) ?_
      refine Refines.step (bucket.llDelete_refines known) fun _ => ?_
      refine Refines.store ?_
      have newShown := bucket.metas_replaced shown
        (llDelete_objects (CacheBench.metaCompare · text) bucket.objects)
      refine Refines.through
        (cacheAt address
          { cache with
            slabManager := slabManager
            buckets := cache.buckets.modify (cache.bucketOf text)
              fun bucket => CacheBench.llDelete CacheBench.metaCompare bucket text
            numValues := cache.numValues - 1 }) ?_ ?_
      · refine le_trans (le_of_eq ?_)
          (le_cacheAt man buckets newShown ((bucket.length_replaced _).trans count))
        simp only [cacheBlocks, cacheFields, bucket.lists_replaced, List.length_modify]
        ac_rfl
      · refine Refines.stepAll updateTimers_refines fun _ => ?_
        exact Refines.pure_answers rfl le_rfl

/-- `cache_delete` with a key outside of the heap. -/
theorem cacheDelete_text_refines :
    Refines (cacheAt address cache) (cacheDelete address (.text text))
      (CacheBench.cacheDelete cache text)
      (answers Prod.fst fun result => cacheAt address result.2) :=
  refines_cacheAt fun _ _ _ shown count =>
    cacheDelete_refines shown count (readKey_text_reads text)

/-- `cache_set` deletes the old value of the key. -/
theorem deleteOld_refines :
    Refines (cacheAt address cache) (deleteOld address (.text text))
      (CacheBench.deleteOld cache text)
      (answers (fun _ => ()) (cacheAt address)) := by
  refine refines_cacheAt fun man buckets table shown count => ?_
  obtain ⟨bucket⟩ := BucketOf.exists_of_length shown count text
  unfold deleteOld CacheBench.deleteOld
  refine Refines.read (getMeta_reads bucket shown (readKey_text_reads text)) ?_
  rw [getMeta_eq bucket shown]
  cases bucket.objects.find? fun object => CacheBench.metaCompare object.2 text with
  | none =>
      exact Refines.pure_answers rfl (le_cacheAt man buckets shown count)
  | some object =>
      refine Refines.answerAll
        (cacheDelete_refines shown count (readKey_text_reads text)) fun result _ => ?_
      exact Refines.pure_answers rfl le_rfl

/-- The walk over all buckets folds over all metas. -/
theorem walkBuckets_reads
    {σ : Type}
    (visit : σ → Nat → Meta → σ)
    (state : σ)
    (shown : table.metas = cache.buckets) :
    Reads (cacheBlocks address cache man buckets table)
      (walkBuckets visit state address)
      ((table.flatMap Prod.snd).foldl
        (fun state object => visit state object.1 object.2) state) := by
  unfold cacheBlocks
  refine Reads.loadAs_bind Focus.le_has rfl ?_
  refine (bucketLists_reads shown Focus.le_has).bind ?_
  exact (foldlM_walkList_reads visit table state).within Splits.le

/-- The metas of the cache are those of the table. -/
theorem metas_eq (shown : table.metas = cache.buckets) :
    cache.metas = (table.flatMap Prod.snd).map Prod.snd := by
  rw [Cache.metas, ← shown, Table.metas, List.map_flatMap, List.flatMap_def]

/-- `cache_space_used` adds up the sizes of all values. -/
theorem cacheSpaceUsed_reads :
    Reads (cacheAt address cache) (cacheSpaceUsed address)
      (CacheBench.cacheSpaceUsed cache) := by
  refine reads_cacheAt fun man buckets table shown count => ?_
  rw [CacheBench.cacheSpaceUsed, metas_eq shown, List.foldl_map]
  exact walkBuckets_reads _ _ shown

/--
The two searches of `cache_evict`, for a pointer and for a meta, stop at the same
object.
-/
theorem foldl_considerVictim
    (slabClass : Nat)
    (objects : List (Nat × Meta))
    (timer : UInt8)
    (best : Option (Nat × Meta)) :
    ∃ (maxTimer : UInt8) (victim : Option (Nat × Meta)),
      objects.foldl
          (fun best object => considerVictim slabClass best object.1 object.2)
          (timer, best.map Prod.fst) = (maxTimer, victim.map Prod.fst) ∧
        (objects.map Prod.snd).foldl
          (fun (maxTimer, maxMeta) current =>
            if current.timer > maxTimer ∧ slabClass = current.slabClass then
              (current.timer, some current)
            else
              (maxTimer, maxMeta))
          (timer, best.map Prod.snd) = (maxTimer, victim.map Prod.snd) ∧
        ∀ object ∈ victim, object ∈ objects ∨ best = some object := by
  induction objects generalizing timer best with
  | nil =>
      exact ⟨timer, best, rfl, rfl, fun _ isBest => .inr isBest⟩
  | cons object rest inductionHypothesis =>
      by_cases better : object.2.timer > timer ∧ slabClass = object.2.slabClass
      · obtain ⟨maxTimer, victim, pointer, item, source⟩ :=
          inductionHypothesis object.2.timer (some object)
        refine ⟨maxTimer, victim, ?_, ?_, fun other isVictim => ?_⟩
        · simpa [considerVictim, better] using pointer
        · simpa [better] using item
        · rcases source other isVictim with later | here
          · exact .inl (List.mem_cons_of_mem _ later)
          · simp [Option.some.inj here]
      · obtain ⟨maxTimer, victim, pointer, item, source⟩ :=
          inductionHypothesis timer best
        refine ⟨maxTimer, victim, ?_, ?_, fun other isVictim => ?_⟩
        · simpa [considerVictim, better] using pointer
        · simpa [better] using item
        · exact (source other isVictim).imp_left (List.mem_cons_of_mem _)

/--
`cache_evict` passes `cache_delete` the key inside the victim's own meta, and
evicts what it evicts on sequences.
-/
theorem cacheEvict_refines (slabClass : Nat) :
    Refines (cacheAt address cache) (cacheEvict address slabClass)
      (CacheBench.cacheEvict cache slabClass)
      (answers (fun _ => ()) (cacheAt address)) := by
  refine refines_cacheAt fun man buckets table shown count => ?_
  obtain ⟨maxTimer, victim, pointer, item, source⟩ :=
    foldl_considerVictim slabClass (table.flatMap Prod.snd) 0 none
  have found : findVictim cache slabClass = victim.map Prod.snd := by
    rw [findVictim, metas_eq shown]
    exact congrArg Prod.snd item
  unfold cacheEvict CacheBench.cacheEvict
  refine Refines.read (walkBuckets_reads _ _ shown) ?_
  rw [found]
  have start : ((0 : UInt8), (none : Option Nat)) =
      (0, (none : Option (Nat × Meta)).map Prod.fst) := rfl
  rw [start, pointer]
  cases victim with
  | none =>
      exact Refines.pure_answers rfl (le_cacheAt man buckets shown count)
  | some object =>
      have inTable : object ∈ table.flatMap Prod.snd := by
        simpa using source object rfl
      obtain ⟨bucket, bucketIn, member⟩ := List.mem_flatMap.mp inTable
      refine Refines.answerAll
        (cacheDelete_refines shown count (readKey_ofMeta_reads bucketIn member))
        fun result _ => ?_
      exact Refines.pure_answers rfl le_rfl

/-- A new slab, if the memory limit allows one. -/
theorem expandCache_refines (slabClass : Nat) :
    Refines (cacheAt address cache) (expandCache address slabClass)
      (CacheBench.expandCache cache slabClass)
      (answers (fun _ => ()) (cacheAt address)) := by
  refine refines_cacheAt fun man buckets table shown count => ?_
  unfold expandCache CacheBench.expandCache cacheBlocks
  refine Refines.loadAs Focus.le_has rfl ?_
  dsimp only [cacheFields]
  split
  · refine Refines.answer (slabAdd_refines man slabClass) fun slabManager _ => ?_
    refine Refines.last (Refines.store (Refines.pure_answers rfl ?_))
    refine le_trans (le_of_eq ?_) (le_cacheAt man buckets shown count)
    simp only [cacheBlocks, cacheFields]
    ac_rfl
  · exact Refines.pure_answers rfl (le_cacheAt man buckets shown count)

/-- `get_address` through the cache's pointer to its manager. -/
theorem getAddress_cache_refines
    (slabClass : Nat)
    (shown : table.metas = cache.buckets)
    (count : table.length = 30) :
    Refines (cacheBlocks address cache man buckets table)
      (getAddress man slabClass)
      (CacheBench.getAddress cache.slabManager slabClass)
      (answers Prod.fst fun result =>
        cacheAt address { cache with slabManager := result.2 }) := by
  unfold cacheBlocks
  refine Refines.finish (getAddress_refines man slabClass) fun result => ?_
  refine le_iSup_of_le rfl (le_trans (le_of_eq ?_) (le_cacheAt man buckets shown count))
  simp only [cacheBlocks, cacheFields]
  ac_rfl

/-- `free_space` looks in the slabs, then in a new one. -/
theorem freeSpace_refines (slabClass : Nat) :
    Refines (cacheAt address cache) (freeSpace address slabClass)
      (CacheBench.freeSpace cache slabClass)
      (answers Prod.fst fun result => cacheAt address result.2) := by
  refine refines_cacheAt fun man buckets table shown count => ?_
  unfold freeSpace CacheBench.freeSpace
  refine Refines.loadAs Focus.le_has rfl ?_
  refine Refines.answerAll (getAddress_cache_refines slabClass shown count)
    fun ⟨ret, slabManager⟩ _ => ?_
  cases ret with
  | some found =>
      exact Refines.pure_answers rfl le_rfl
  | none =>
      by_cases room : cache.size.toUInt64 < cache.maxmem
      · simp only [cacheFields, room, if_true]
        refine Refines.answerAll (expandCache_refines slabClass) fun expanded _ => ?_
        refine refines_cacheAt fun man buckets table shown count => ?_
        refine Refines.loadAs Focus.le_has rfl (Refines.last ?_)
        refine Refines.answerAll (getAddress_cache_refines slabClass shown count)
          fun result _ => ?_
        exact Refines.pure_answers rfl le_rfl
      · simp only [cacheFields, room, if_false]
        exact Refines.pure_answers rfl le_rfl

/-- `cache_set` looks for space, and once more after an eviction. -/
theorem makeSpace_refines (slabClass : Nat) :
    Refines (cacheAt address cache) (makeSpace address slabClass)
      (CacheBench.makeSpace cache slabClass)
      (answers Prod.fst fun result => cacheAt address result.2) := by
  unfold makeSpace CacheBench.makeSpace
  refine Refines.answerAll (freeSpace_refines slabClass) fun ⟨ret, cache⟩ _ => ?_
  cases ret with
  | some found =>
      exact Refines.pure_answers rfl le_rfl
  | none =>
      refine Refines.answerAll (cacheEvict_refines slabClass) fun evicted _ => ?_
      exact freeSpace_refines slabClass

/-- The new meta goes behind the others of its bucket. -/
theorem fileMeta_refines (obj : Nat) (item : Meta) :
    Refines (cacheAt address cache * pointsTo obj (.metaObj item))
      (do
        let fields ← loadAs Block.cacheObj? address
        let bucket ← bucketFor fields (.text text)
        llAppend bucket obj
        store address (.cacheObj { fields with numValues := fields.numValues + 1 }))
      (.ok ())
      fun _ _ => cacheAt address
        { cache with
          buckets := cache.buckets.modify (cache.bucketOf text)
            fun bucket => CacheBench.llAppend bucket item
          numValues := cache.numValues + 1 } := by
  refine refines_cacheAt_mul fun man buckets table shown count => ?_
  obtain ⟨bucket⟩ := BucketOf.exists_of_length shown count text
  refine Refines.loadAs Focus.le_has rfl ?_
  refine Refines.read
    (bucket.bucketFor_reads shown (readKey_text_reads text) Focus.le_has) ?_
  refine Refines.step (bucket.llAppend_refines obj item) fun _ => ?_
  refine Refines.last (Refines.store (Refines.pure ?_))
  have appended :
      CacheBench.llAppend (bucket.objects.map Prod.snd) item =
        (bucket.objects ++ [(obj, item)]).map Prod.snd := by
    simp [CacheBench.llAppend]
  have newShown := @BucketOf.metas_replaced _ _ _ bucket shown _
    (fun bucket => CacheBench.llAppend bucket item) appended
  refine le_trans (le_of_eq ?_)
    (le_cacheAt man buckets newShown ((bucket.length_replaced _).trans count))
  simp only [cacheBlocks, cacheFields, bucket.lists_replaced, List.length_modify]
  ac_rfl

/-- `cache_set` creates the meta, copies the value and files the meta. -/
theorem storeValue_refines
    (val : Nat → UInt8)
    (valSize slabClass place : Nat) :
    Refines (cacheAt address cache)
      (storeValue address text val valSize slabClass place)
      (CacheBench.storeValue cache text val valSize slabClass place)
      (answers (fun _ => ()) (cacheAt address)) := by
  refine refines_cacheAt fun man buckets table shown count => ?_
  refine Refines.malloc fun nextMeta => ?_
  refine Refines.loadAs Focus.le_has rfl ?_
  refine Refines.store ?_
  refine Refines.answer (memcpy_refines man place val valSize) fun slabManager _ => ?_
  refine Refines.store ?_
  refine Refines.through
    (cacheAt address { cache with slabManager := slabManager } *
      pointsTo nextMeta
        (.metaObj
          { createMeta text valSize with
            address := place
            slabClass := slabClass
            lastAccess := cache.ticks + 1 })) ?_ ?_
  · have folded :=
      @le_cacheAt address { cache with slabManager := slabManager } man buckets table
        shown count
    refine le_trans (le_of_eq ?_) (mul_le_mul_left folded (pointsTo nextMeta _))
    simp only [cacheBlocks, cacheFields]
    ac_rfl
  refine Refines.step
    (@updateTimers_refines address { cache with slabManager := slabManager })
    fun _ => Refines.last ?_
  refine Refines.stepAll (fileMeta_refines nextMeta _) fun _ => ?_
  exact Refines.pure_answers rfl le_rfl

/-- The checks of `cache_set` on the fields are those on the cache. -/
theorem setRefusal_cacheFields (val : Nat → UInt8) (valSize : UInt32) :
    refusalWithin (cacheFields cache man buckets).maxmem text val valSize =
      setRefusal cache text val valSize :=
  rfl

/-- `cache_set` does on the heap what it does on sequences. -/
theorem cacheSet_refines (val : Nat → UInt8) (valSize : UInt32) :
    Refines (cacheAt address cache) (cacheSet address text val valSize)
      (CacheBench.cacheSet cache text val valSize)
      (answers Prod.fst fun result => cacheAt address result.2) := by
  refine refines_cacheAt fun man buckets table shown count => ?_
  unfold cacheSet CacheBench.cacheSet
  refine Refines.loadAs Focus.le_has rfl ?_
  rw [setRefusal_cacheFields]
  refine Refines.before (le_cacheAt man buckets shown count) ?_
  cases setRefusal cache text val valSize with
  | some code =>
      exact Refines.pure_answers rfl le_rfl
  | none =>
      refine Refines.answerAll deleteOld_refines fun cleared _ => ?_
      refine refines_cacheAt fun man buckets table shown count => ?_
      refine Refines.loadAs Focus.le_has rfl ?_
      refine Refines.read 
        ((@getSlabClass_reads man cleared.slabManager valSize.toNat).within Splits.le) ?_
      refine Refines.before (le_cacheAt man buckets shown count) ?_
      refine Refines.answerAll (makeSpace_refines _) fun ⟨place, spaced⟩ _ => ?_
      cases place with
      | none =>
          exact Refines.pure_answers rfl le_rfl
      | some place =>
          refine Refines.answerAll (storeValue_refines val _ _ place)
            fun stored _ => ?_
          exact Refines.pure_answers rfl le_rfl

/-- `cache_get` resets the timer through the pointer it found. -/
theorem cacheGet_refines :
    Refines (cacheAt address cache) (cacheGet address text)
      (CacheBench.cacheGet cache text)
      (answers Prod.fst fun result => cacheAt address result.2) := by
  refine refines_cacheAt fun man buckets table shown count => ?_
  obtain ⟨bucket⟩ := BucketOf.exists_of_length shown count text
  unfold cacheGet CacheBench.cacheGet
  refine Refines.read (getMeta_reads bucket shown (readKey_text_reads text)) ?_
  rw [getMeta_eq bucket shown]
  cases search : bucket.objects.find? fun object =>
      CacheBench.metaCompare object.2 text with
  | none =>
      exact Refines.pure_answers rfl (le_cacheAt man buckets shown count)
  | some object =>
      have member := List.mem_of_find?_eq_some search
      simp only [Option.map_some]
      refine Refines.loadAs Focus.le_has rfl ?_
      refine Refines.read ((loadMeta_reads bucket member).within Splits.le) ?_
      refine Refines.step (bucket.store_refines search _) fun _ => ?_
      refine Refines.answer (@strlen_refines man cache.slabManager object.2.address)
        fun length _ => ?_
      dsimp only [id]
      split
      · refine Refines.pure_answers rfl ?_
        have newShown := bucket.metas_replaced shown
          (llUpdate_objects (CacheBench.metaCompare · text) search
            fun item => { item with timer := 0, lastAccess := cache.ticks })
        refine le_trans (le_of_eq ?_)
          (le_cacheAt man buckets newShown ((bucket.length_replaced _).trans count))
        simp only [cacheBlocks, cacheFields, bucket.lists_replaced, List.length_modify]
        ac_rfl
      · exact Refines.fault

end Operations

section Lifetime

variable {address : Nat} {cache : Cache}

/-- The loop of `create_cache` makes empty buckets. -/
theorem createLists_refines (count : Nat) :
    Refines 1 (createLists count) (.ok ())
      fun _ lists => ⨆ _ : lists.length = count,
        tableAt (lists.map fun list => (list, [])) := by
  induction count with
  | zero =>
      exact Refines.pure (le_iSup_of_le rfl le_rfl)
  | succ count inductionHypothesis =>
      refine Refines.step (@llCreate_refines _ .metaObj .metaCompare .metaDestroy)
        fun list => ?_
      refine Refines.step inductionHypothesis fun lists => ?_
      rw [Assertion.iSup_mul]
      refine Refines.exists_before fun length => Refines.pure ?_
      refine le_iSup_of_le (by simp [length]) (le_of_eq ?_)
      rw [List.map_cons, tableAt_cons, bucketAt, mul_comm]

/-- `create_cache` makes a cache without values. -/
theorem createCache_refines
    (blocks : Nat → Slab)
    (maxmem : UInt64)
    (hasher : Option HashFunc) :
    Refines 1 (createCache blocks maxmem hasher) (.ok ())
      fun _ address => cacheAt address (CacheBench.createCache blocks maxmem hasher) := by
  unfold createCache
  refine Refines.malloc fun cache => ?_
  refine Refines.malloc fun buckets => ?_
  refine Refines.step (createLists_refines 30) fun lists => ?_
  rw [Assertion.iSup_mul]
  refine Refines.exists_before fun length => ?_
  refine Refines.store ?_
  refine Refines.step (initializeManager_refines blocks) fun man => ?_
  refine Refines.store (Refines.pure ?_)
  have shown :
      Table.metas (lists.map fun list => (list, [])) =
        (CacheBench.createCache blocks maxmem hasher).buckets := by
    simp only [Table.metas, List.map_map, CacheBench.createCache, ← length]
    exact List.map_const' ..
  refine le_trans (le_of_eq ?_) (le_cacheAt man buckets shown ?_)
  · simp only [cacheBlocks, cacheFields, CacheBench.createCache, List.map_map,
      Function.comp_def, List.map_id', List.length_replicate]
    ac_rfl
  · simpa using length

/-- What is left of a destroyed cache: the array of pointers to its buckets. -/
def arrayAt : Assertion Block :=
  ⨆ (buckets : Nat) (lists : List Nat) (_ : lists.length = 30),
    pointsTo buckets (.bucketArray lists)

theorem forM_llDestroy_refines (table : Table) :
    Refines (tableAt table) (forM (table.map Prod.fst) llDestroy) (.ok ())
      fun _ _ => 1 := by
  induction table with
  | nil =>
      exact Refines.pure le_rfl
  | cons bucket rest inductionHypothesis =>
      rw [List.map_cons, List.forM_cons, tableAt_cons, bucketAt]
      refine Refines.step
        (@llDestroy_refines _ .metaObj bucket.1 .metaCompare .metaDestroy bucket.2)
        fun _ => ?_
      rw [one_mul]
      exact inductionHypothesis

/-- `destroy_cache` gives everything back but the array of buckets. -/
theorem destroyCache_refines :
    Refines (cacheAt address cache) (destroyCache address) (.ok ())
      fun _ _ => arrayAt := by
  refine refines_cacheAt fun man buckets table shown count => ?_
  refine Refines.loadAs Focus.le_has rfl ?_
  refine Refines.step (@manDestroy_refines man cache.slabManager) fun _ => ?_
  refine Refines.read (bucketLists_reads shown Focus.le_has) ?_
  refine Refines.step (forM_llDestroy_refines table) fun _ => ?_
  refine Refines.last (Refines.free (Refines.pure ?_))
  refine le_iSup₂_of_le buckets (table.map Prod.fst)
    (le_iSup_of_le (by simpa using count) (le_of_eq ?_))
  simp

end Lifetime

section Accounting

/-- The buckets take one block each, and two for each meta. -/
theorem tableAt_le_exactly (table : Table) :
    tableAt table ≤
      exactly (table.length + 2 * (table.flatMap Prod.snd).length) := by
  induction table with
  | nil =>
      exact one_le_exactly
  | cons bucket rest inductionHypothesis =>
      rw [tableAt_cons, bucketAt]
      refine (mul_le_exactly (listAt_le_exactly bucket.2) inductionHypothesis).trans
        (le_of_eq (congrArg exactly ?_))
      simp only [List.length_cons, List.flatMap_cons, List.length_append]
      omega

/-- A cache takes 35 blocks, and two for each slab and each value. -/
theorem cacheAt_le_exactly (address : Nat) (cache : Cache) :
    cacheAt address cache ≤
      exactly (35 + 2 * cache.slabManager.slabs.length + 2 * cache.metas.length) := by
  refine iSup₂_le fun man buckets => iSup₂_le fun table shown => iSup_le fun count => ?_
  refine le_trans
    (mul_le_exactly
      (mul_le_exactly
        (mul_le_exactly (pointsTo_le_exactly _ _) (managerAt_le_exactly _ _))
        (pointsTo_le_exactly _ _))
      (tableAt_le_exactly table))
    (le_of_eq (congrArg exactly ?_))
  rw [metas_eq shown, List.length_map, count]
  omega

theorem arrayAt_le_exactly : arrayAt ≤ exactly 1 :=
  iSup₂_le fun _ _ => iSup_le fun _ => pointsTo_le_exactly _ _

end Accounting

end CacheBench.OnHeap
