import CacheBench.HeapProgram
import CacheBench.Cache

namespace CacheBench.OnHeap

open HeapProgram

/-!
# `list.c`, `slabs.c` and `cache.c` over a heap

The functions of the three files with the blocks they allocate, the pointers
they follow and the order in which they read, write and free.  A pointer is the
address of a block, `none` the null pointer.

A walk along a list reads each node once, so it takes at most as many steps as
there are blocks; one that is not over by then never ends.  The address of a
value lies inside a slab; `memcpy` and `strlen` find that slab through the
manager's list.
-/

/-- The functions a list is created with for comparing objects. -/
inductive EqFunc where
  | metaCompare
  | findVal

/-- The functions a list is created with for giving back its objects. -/
inductive DestroyFunc where
  | metaDestroy
  | destroySlab

/-- `struct linked_list`. -/
structure LinkedList where
  head : Option Nat
  eq : EqFunc
  destroy : DestroyFunc

/-- `struct node`. -/
structure Node where
  obj : Nat
  next : Option Nat

/--
`struct manager_obj`.  `blocks` holds what `malloc` returns for the slabs, as in
`Manager`, and `mallocs` counts these calls.
-/
structure ManagerObj where
  classes : Nat
  slabs : Nat
  numSlabs : UInt32
  blocks : Nat → Slab
  mallocs : Nat

/-- `struct cache_obj`, with the count of `Cache.ticks`. -/
structure CacheObj where
  hasher : HashFunc
  size : UInt32
  slabManager : Nat
  buckets : Nat
  numBuckets : Nat
  maxmem : UInt64
  numValues : UInt32
  ticks : Nat

/-- What one call of `malloc` or `calloc` is for. -/
inductive Block where
  | linkedList (fields : LinkedList)
  | node (fields : Node)
  | metaObj (item : Meta)
  | slabObj (slab : Slab)
  | classTable (classes : List Nat)
  | managerObj (fields : ManagerObj)
  | bucketArray (lists : List Nat)
  | cacheObj (fields : CacheObj)

namespace Block

def linkedList? : Block → Option LinkedList
  | .linkedList fields => some fields
  | _ => none

def node? : Block → Option Node
  | .node fields => some fields
  | _ => none

def metaObj? : Block → Option Meta
  | .metaObj item => some item
  | _ => none

def slabObj? : Block → Option Slab
  | .slabObj slab => some slab
  | _ => none

def classTable? : Block → Option (List Nat)
  | .classTable classes => some classes
  | _ => none

def managerObj? : Block → Option ManagerObj
  | .managerObj fields => some fields
  | _ => none

def bucketArray? : Block → Option (List Nat)
  | .bucketArray lists => some lists
  | _ => none

def cacheObj? : Block → Option CacheObj
  | .cacheObj fields => some fields
  | _ => none

end Block

/-- Code of the three files. -/
abbrev Code := Program Block Fault

/--
A pointer to a key: a string outside of this heap, or the `key` field of a meta,
which is gone once the meta is freed.
-/
inductive Key where
  | text (key : CString)
  | ofMeta (address : Nat)

/-- The string a key pointer points to. -/
def readKey : Key → Code CString
  | .text key =>
      pure key
  | .ofMeta address => do
      let item ← loadAs Block.metaObj? address
      pure item.storedKey

/-- What `LL_find` and `LL_delete` are given to compare with. -/
inductive Sought where
  | key (key : Key)
  | address (valPtr : Nat)

/-- `LL->eq(obj, sought)`.  `find_val` compares the pointers themselves. -/
def applyEq (eq : EqFunc) (obj : Nat) (sought : Sought) : Code Bool :=
  match eq, sought with
  | .metaCompare, .key key => do
      let item ← loadAs Block.metaObj? obj
      let key ← readKey key
      pure (CacheBench.metaCompare item key)
  | .findVal, .address valPtr => do
      let slab ← loadAs Block.slabObj? obj
      pure (CacheBench.findVal { slab with addr := obj } valPtr)
  | _, _ =>
      wrongBlock

/-- `LL->destroy(obj)`; both functions call `free`. -/
def applyDestroy (destroy : DestroyFunc) (obj : Nat) : Code Unit :=
  match destroy with
  | .metaDestroy => free obj
  | .destroySlab => free obj

/-- A list without nodes. -/
def llCreate (eq : EqFunc) (destroy : DestroyFunc) : Code Nat :=
  malloc (.linkedList { head := none, eq := eq, destroy := destroy })

/-- The last node `LL_append` passes, `previous` being the one before. -/
def lastFrom : Nat → Option Nat → Option Nat → Code (Option Nat)
  | 0, _, _ =>
      lift (.error .endless)
  | _ + 1, previous, none =>
      pure previous
  | steps + 1, _, some current => do
      let node ← loadAs Block.node? current
      lastFrom steps (some current) node.next

/-- Add an object behind the last node. -/
def llAppend (list obj : Nat) : Code Unit := do
  let new ← malloc (.node { obj := obj, next := none })
  let fields ← loadAs Block.linkedList? list
  let steps ← countBlocks
  let last ← lastFrom (steps + 1) none fields.head
  match last with
  | none =>
      store list (.linkedList { fields with head := some new })
  | some previous => do
      let node ← loadAs Block.node? previous
      store previous (.node { node with next := some new })

/-- The loop of `LL_find`. -/
def findFrom (eq : EqFunc) (sought : Sought) : Nat → Option Nat → Code (Option Nat)
  | 0, _ =>
      lift (.error .endless)
  | _ + 1, none =>
      pure none
  | steps + 1, some current => do
      let node ← loadAs Block.node? current
      let same ← applyEq eq node.obj sought
      if same then
        pure (some node.obj)
      else
        findFrom eq sought steps node.next

/-- The first object that equals the one sought. -/
def llFind (list : Nat) (sought : Sought) : Code (Option Nat) := do
  let fields ← loadAs Block.linkedList? list
  let steps ← countBlocks
  findFrom fields.eq sought (steps + 1) fields.head

/-- The loop of `LL_delete`; the object of `previous` is not the one sought. -/
def deleteFrom (fields : LinkedList) (sought : Sought) : Nat → Nat → Code Unit
  | 0, _ =>
      lift (.error .endless)
  | steps + 1, previous => do
      let before ← loadAs Block.node? previous
      match before.next with
      | none =>
          pure ()
      | some current => do
          let node ← loadAs Block.node? current
          let same ← applyEq fields.eq node.obj sought
          if same then do
            store previous (.node { before with next := node.next })
            applyDestroy fields.destroy node.obj
            free current
          else
            deleteFrom fields sought steps current

/-- Remove and give back the first object that equals the one sought. -/
def llDelete (list : Nat) (sought : Sought) : Code Unit := do
  let fields ← loadAs Block.linkedList? list
  match fields.head with
  | none =>
      pure ()
  | some current => do
      let node ← loadAs Block.node? current
      let same ← applyEq fields.eq node.obj sought
      if same then do
        store list (.linkedList { fields with head := node.next })
        applyDestroy fields.destroy node.obj
        free current
      else do
        let steps ← countBlocks
        deleteFrom fields sought (steps + 1) current

/-- The loop of `LL_destroy`. -/
def destroyFrom (destroy : DestroyFunc) : Nat → Option Nat → Code Unit
  | 0, _ =>
      lift (.error .endless)
  | _ + 1, none =>
      pure ()
  | steps + 1, some current => do
      let node ← loadAs Block.node? current
      applyDestroy destroy node.obj
      free current
      destroyFrom destroy steps node.next

/-- Give back a list, its nodes and their objects. -/
def llDestroy (list : Nat) : Code Unit := do
  let fields ← loadAs Block.linkedList? list
  let steps ← countBlocks
  destroyFrom fields.destroy (steps + 1) fields.head
  free list

/--
A manager without slabs, with the default classes.  Its pointers are set once
the blocks they point to are there.
-/
def initializeManager (blocks : Nat → Slab) : Code Nat := do
  let fields : ManagerObj :=
    { classes := 0, slabs := 0, numSlabs := 0, blocks := blocks, mallocs := 0 }
  let ret ← malloc (.managerObj fields)
  let classes ← malloc (.classTable defaultClasses)
  let slabs ← llCreate .findVal .destroySlab
  store ret (.managerObj { fields with classes := classes, slabs := slabs })
  pure ret

/-- Give back the slabs, the classes and the manager. -/
def manDestroy (man : Nat) : Code Unit := do
  let fields ← loadAs Block.managerObj? man
  llDestroy fields.slabs
  free fields.classes
  free man

/-- The slab class a value of the given size would fit in most tightly. -/
def getSlabClass (man size : Nat) : Code Nat := do
  let fields ← loadAs Block.managerObj? man
  let classes ← loadAs Block.classTable? fields.classes
  pure (getSlabClassFrom size 0 classes)

/--
Add a blank slab.  The block `malloc` returns for it is the manager's next one;
`allocate_slab` fills it in.
-/
def slabAdd (man slabClass : Nat) : Code Unit := do
  let fields ← loadAs Block.managerObj? man
  let block := fields.blocks fields.mallocs
  mallocAt block.addr (.slabObj block)
  let slab ← lift (allocateSlab block slabClass)
  store block.addr (.slabObj slab)
  llAppend fields.slabs block.addr
  store man (.managerObj { fields with
    numSlabs := fields.numSlabs + 1
    mallocs := fields.mallocs + 1 })

/-- The loop of `get_slab`. -/
def openFrom (slabClass : Nat) : Nat → Option Nat → Code (Option Nat)
  | 0, _ =>
      lift (.error .endless)
  | _ + 1, none =>
      pure none
  | steps + 1, some current => do
      let node ← loadAs Block.node? current
      let slab ← loadAs Block.slabObj? node.obj
      if isOpen slab slabClass then
        pure (some node.obj)
      else
        openFrom slabClass steps node.next

/-- A slab with free entries, or nothing if there is none. -/
def getSlab (man slabClass : Nat) : Code (Option Nat) := do
  let fields ← loadAs Block.managerObj? man
  let list ← loadAs Block.linkedList? fields.slabs
  let steps ← countBlocks
  openFrom slabClass (steps + 1) list.head

/-- The slab an address lies in: `LL_find(man->slabs, address)`. -/
def slabAround (man address : Nat) : Code (Option Nat) := do
  let fields ← loadAs Block.managerObj? man
  llFind fields.slabs (.address address)

/-- Delete the value at an address from its slab. -/
def manDelete (man valPtr : Nat) : Code Unit := do
  let found ← slabAround man valPtr
  match found with
  | none =>
      pure ()
  | some toAdjust => do
      let slab ← loadAs Block.slabObj? toAdjust
      if slab.slabClass = 0 then
        lift (.error .divisionByZero)
      else do
        let adjusted ←
          lift (slabDelete slab ((valPtr - toAdjust) / slab.slabClass))
        store toAdjust (.slabObj adjusted)

/-- `get_address`; `calls` bounds the depth of its calls of itself. -/
def getAddressWithin : Nat → Nat → Nat → Code (Option Nat)
  | 0, _, _ =>
      lift (.error .endless)
  | calls + 1, man, valSize => do
      let slabClass ← getSlabClass man valSize
      let found ← getSlab man slabClass
      match found with
      | none =>
          pure none
      | some address => do
          let slab ← loadAs Block.slabObj? address
          let i := getFreeIndex slab
          if i = 0 then do
            store address (.slabObj { slab with isFull := 1 })
            getAddressWithin calls man valSize
          else do
            let reserved ← lift (toggleBit slab (i - 1))
            store address (.slabObj reserved)
            pure (some (address + slab.slabClass * (i - 1) % 2 ^ 32))

/--
An available address for a value of the given size, marked allocated.  A call
that recurses marks a slab full that was not, so there are no more calls than
blocks, and a last one.
-/
def getAddress (man valSize : Nat) : Code (Option Nat) := do
  let calls ← countBlocks
  getAddressWithin (calls + 1) man valSize

/-- `memcpy` to an address inside a slab's block. -/
def memcpy (man address : Nat) (source : Nat → UInt8) (count : Nat) : Code Unit :=
  if count = 0 then
    pure ()
  else do
    let found ← slabAround man address
    match found with
    | none =>
        lift (.error .outOfBounds)
    | some start => do
        let slab ← loadAs Block.slabObj? start
        if address - start + count ≤ getSlabSize then
          store start (.slabObj (slab.write (address - start) count source))
        else
          lift (.error .outOfBounds)

/-- `strlen` of the string stored at an address inside a slab's block. -/
def strlen (man address : Nat) : Code Nat := do
  let found ← slabAround man address
  match found with
  | none =>
      lift (.error .outOfBounds)
  | some start => do
      let slab ← loadAs Block.slabObj? start
      match strlenFrom slab.byteAt
          (getSlabSize - (address - start)) (address - start) with
      | none => lift (.error .outOfBounds)
      | some length => pure length

/-- `cache->buckets[cache->hasher(key) % cache->num_buckets]`. -/
def bucketFor (cache : CacheObj) (key : Key) : Code Nat := do
  let text ← readKey key
  let lists ← loadAs Block.bucketArray? cache.buckets
  if cache.numBuckets = 0 then
    lift (.error .divisionByZero)
  else
    match lists[(cache.hasher text).toNat % cache.numBuckets]? with
    | some list => pure list
    | none => wrongBlock

/-- `cache->buckets[i]` for `i` from 0 to `cache->num_buckets`. -/
def bucketLists (cache : CacheObj) : Code (List Nat) := do
  let lists ← loadAs Block.bucketArray? cache.buckets
  if cache.numBuckets ≤ lists.length then
    pure (lists.take cache.numBuckets)
  else
    wrongBlock

/-- The meta of a key, if the key is in the table. -/
def getMeta (cache : Nat) (key : Key) : Code (Option Nat) := do
  let fields ← loadAs Block.cacheObj? cache
  let bucket ← bucketFor fields key
  llFind bucket (.key key)

/-- The lists `create_cache` fills the array of buckets with. -/
def createLists : Nat → Code (List Nat)
  | 0 =>
      pure []
  | count + 1 => do
      let list ← llCreate .metaCompare .metaDestroy
      let lists ← createLists count
      pure (list :: lists)

/-- `create_cache`; the limit is brought into its range first. -/
def createCache
    (blocks : Nat → Slab)
    (maxmem : UInt64)
    (hasher : Option HashFunc) :
    Code Nat := do
  let maxmem :=
    if maxmem < UInt64.ofNat getSlabSize then
      2 * UInt64.ofNat getSlabSize
    else
      maxmem
  let maxmem :=
    if maxmem > UInt64.ofNat (2 ^ 32) then
      UInt64.ofNat (2 ^ 32)
    else
      maxmem
  let fields : CacheObj :=
    { hasher := hasher.getD hash
      size := 0
      slabManager := 0
      buckets := 0
      numBuckets := 30
      maxmem := maxmem
      numValues := 0
      ticks := 0 }
  let cache ← malloc (.cacheObj fields)
  let buckets ← malloc (.bucketArray [])
  let lists ← createLists fields.numBuckets
  store buckets (.bucketArray lists)
  let slabManager ← initializeManager blocks
  store cache (.cacheObj { fields with
    buckets := buckets, slabManager := slabManager })
  pure cache

/-- Allocate a new slab if the memory limit allows one more. -/
def expandCache (cache slabClass : Nat) : Code Unit := do
  let fields ← loadAs Block.cacheObj? cache
  if fields.maxmem - fields.size.toUInt64 > UInt64.ofNat getSlabSize then do
    slabAdd fields.slabManager slabClass
    store cache (.cacheObj { fields with
      size := fields.size + UInt32.ofNat getSlabSize })
  else
    pure ()

/-- The loop of `update_timers` over one bucket. -/
def tickFrom : Nat → Option Nat → Code Unit
  | 0, _ =>
      lift (.error .endless)
  | _ + 1, none =>
      pure ()
  | steps + 1, some current => do
      let node ← loadAs Block.node? current
      let item ← loadAs Block.metaObj? node.obj
      store node.obj (.metaObj (tick item))
      tickFrom steps node.next

/-- Increment the timer of every meta of a list. -/
def tickList (list : Nat) : Code Unit := do
  let fields ← loadAs Block.linkedList? list
  let steps ← countBlocks
  tickFrom (steps + 1) fields.head

/-- Increment the timer of every meta. -/
def updateTimers (cache : Nat) : Code Unit := do
  let fields ← loadAs Block.cacheObj? cache
  let lists ← bucketLists fields
  forM lists tickList
  store cache (.cacheObj { fields with ticks := fields.ticks + 1 })

/--
Delete a key and its value if the key is in the table.  The key may be that of
the meta this frees.
-/
def cacheDelete (cache : Nat) (key : Key) : Code UInt8 := do
  let found ← getMeta cache key
  match found with
  | none =>
      pure 255
  | some keyLoc => do
      let fields ← loadAs Block.cacheObj? cache
      let item ← loadAs Block.metaObj? keyLoc
      manDelete fields.slabManager item.address
      let bucket ← bucketFor fields key
      llDelete bucket (.key key)
      store cache (.cacheObj { fields with numValues := fields.numValues - 1 })
      updateTimers cache
      pure 0

/--
A walk over the metas of a list that only reads: the searches of `cache_evict`
and `cache_space_used`.  `visit` is what the loop does with a meta.
-/
def walkFrom {σ : Type} (visit : σ → Nat → Meta → σ) :
    Nat → Option Nat → σ → Code σ
  | 0, _, _ =>
      lift (.error .endless)
  | _ + 1, none, state =>
      pure state
  | steps + 1, some current, state => do
      let node ← loadAs Block.node? current
      let item ← loadAs Block.metaObj? node.obj
      walkFrom visit steps node.next (visit state node.obj item)

/-- The walk over one list. -/
def walkList {σ : Type}
    (visit : σ → Nat → Meta → σ)
    (state : σ)
    (list : Nat) :
    Code σ := do
  let fields ← loadAs Block.linkedList? list
  let steps ← countBlocks
  walkFrom visit (steps + 1) fields.head state

/-- The walk over all buckets. -/
def walkBuckets {σ : Type}
    (visit : σ → Nat → Meta → σ)
    (state : σ)
    (cache : Nat) :
    Code σ := do
  let fields ← loadAs Block.cacheObj? cache
  let lists ← bucketLists fields
  lists.foldlM (walkList visit) state

/-- `cache_evict` keeps the greatest timer of the class and its meta. -/
def considerVictim
    (slabClass : Nat)
    (best : UInt8 × Option Nat)
    (address : Nat)
    (item : Meta) :
    UInt8 × Option Nat :=
  if item.timer > best.1 ∧ slabClass = item.slabClass then
    (item.timer, some address)
  else
    best

/-- Evict a value of the given class: its key is read from its own meta. -/
def cacheEvict (cache slabClass : Nat) : Code Unit := do
  let best ← walkBuckets (considerVictim slabClass) (0, none) cache
  match best.2 with
  | none =>
      pure ()
  | some maxMeta => do
      let _ ← cacheDelete cache (.ofMeta maxMeta)
      pure ()

/-- A free address of the class, from a new slab if need be. -/
def freeSpace (cache slabClass : Nat) : Code (Option Nat) := do
  let fields ← loadAs Block.cacheObj? cache
  let ret ← getAddress fields.slabManager slabClass
  match ret with
  | some address =>
      pure (some address)
  | none =>
      if fields.size.toUInt64 < fields.maxmem then do
        expandCache cache slabClass
        let fields ← loadAs Block.cacheObj? cache
        getAddress fields.slabManager slabClass
      else
        pure none

/-- `cache_set` looks for space, and once more after an eviction. -/
def makeSpace (cache slabClass : Nat) : Code (Option Nat) := do
  let address ← freeSpace cache slabClass
  match address with
  | some address =>
      pure (some address)
  | none => do
      cacheEvict cache slabClass
      freeSpace cache slabClass

/-- `cache_set` deletes the value if the key is already in the cache. -/
def deleteOld (cache : Nat) (key : Key) : Code Unit := do
  let old ← getMeta cache key
  match old with
  | none =>
      pure ()
  | some _ => do
      let _ ← cacheDelete cache key
      pure ()

/--
`cache_set` creates the meta, copies the value, ages the other metas and files
the new one.
-/
def storeValue
    (cache : Nat)
    (key : CString)
    (val : Nat → UInt8)
    (valSize slabClass address : Nat) :
    Code Unit := do
  let nextMeta ← malloc (.metaObj (createMeta key valSize))
  let fields ← loadAs Block.cacheObj? cache
  store nextMeta (.metaObj { createMeta key valSize with address := address })
  memcpy fields.slabManager address val valSize
  store nextMeta (.metaObj { createMeta key valSize with
    address := address
    slabClass := slabClass
    lastAccess := fields.ticks + 1 })
  updateTimers cache
  let fields ← loadAs Block.cacheObj? cache
  let bucket ← bucketFor fields (.text key)
  llAppend bucket nextMeta
  store cache (.cacheObj { fields with numValues := fields.numValues + 1 })

/-- Add a key and its value to the cache. -/
def cacheSet
    (cache : Nat)
    (key : CString)
    (val : Nat → UInt8)
    (valSize : UInt32) :
    Code UInt8 := do
  let fields ← loadAs Block.cacheObj? cache
  match refusalWithin fields.maxmem key val valSize with
  | some code =>
      pure code
  | none => do
      deleteOld cache (.text key)
      let fields ← loadAs Block.cacheObj? cache
      let slabClass ← getSlabClass fields.slabManager valSize.toNat
      let address ← makeSpace cache slabClass
      match address with
      | none =>
          pure 4
      | some address => do
          storeValue cache key val valSize.toNat slabClass address
          pure 0

/-- Retrieve the value of a key; a hit resets the key's timer. -/
def cacheGet (cache : Nat) (key : CString) : Code Found := do
  let found ← getMeta cache (.text key)
  match found with
  | none =>
      pure { address := none, size := 0 }
  | some keyLoc => do
      let fields ← loadAs Block.cacheObj? cache
      let item ← loadAs Block.metaObj? keyLoc
      store keyLoc (.metaObj { item with timer := 0, lastAccess := fields.ticks })
      let length ← strlen fields.slabManager item.address
      if length + 1 = item.size then
        pure { address := some item.address, size := item.size }
      else
        lift (.error .assertionFailed)

/-- The total size of all values in the cache. -/
def cacheSpaceUsed (cache : Nat) : Code UInt64 :=
  walkBuckets (fun size _ item => size + UInt64.ofNat item.size) 0 cache

/-- Give back the slabs, the lists and the cache; the array of lists stays. -/
def destroyCache (cache : Nat) : Code Unit := do
  let fields ← loadAs Block.cacheObj? cache
  manDestroy fields.slabManager
  let lists ← bucketLists fields
  forM lists llDestroy
  free cache

end CacheBench.OnHeap
