import CacheBench.Slab

namespace CacheBench

/-!
# The slab manager of `tools/slabs.c`

The manager keeps the slabs in one list, in the order they were added, and the
zero-terminated table of slab classes.  `malloc` is not part of the program:
`blocks` answers its calls for this manager, block `n` being what the call for
the `n`-th slab returns, with whatever address and contents it then has.
-/

/-- `manager_obj`, together with the blocks `malloc` will return. -/
structure Manager where
  classes : List Nat
  slabs : List Slab
  numSlabs : UInt32
  blocks : Nat → Slab

/--
The loop of `get_slab_class`.  `previous` is the entry before the current one;
it is what the function returns at the terminating 0.
-/
def getSlabClassFrom (size : Nat) : (previous : Nat) → List Nat → Nat
  | previous, [] => previous
  | previous, candidate :: rest =>
      if candidate = 0 then
        previous
      else if size ≤ candidate then
        candidate
      else
        getSlabClassFrom size candidate rest

/-- The slab class a value of the given size would fit in most tightly. -/
def getSlabClass (man : Manager) (size : Nat) : Nat :=
  getSlabClassFrom size 0 man.classes

/-- Add a blank slab at the end of the list of slabs. -/
def slabAdd (man : Manager) (slabClass : Nat) : Outcome Manager := do
  let slab ← allocateSlab (man.blocks man.slabs.length) slabClass
  .ok { man with
    slabs := llAppend man.slabs slab
    numSlabs := man.numSlabs + 1 }

/-- The test of `get_slab`: a slab of the class that is not marked full. -/
def isOpen (slab : Slab) (slabClass : Nat) : Bool :=
  slab.slabClass = slabClass && slab.isFull = 0

/-- A slab with free entries, or nothing if there is none. -/
def getSlab (man : Manager) (slabClass : Nat) : Option Slab :=
  llFind isOpen man.slabs slabClass

/-- Delete the value at an address from its slab. -/
def manDelete (man : Manager) (valPtr : Nat) : Outcome Manager :=
  match llFind findVal man.slabs valPtr with
  | none =>
      .ok man
  | some toAdjust =>
      if toAdjust.slabClass = 0 then
        .error .divisionByZero
      else do
        let adjusted ←
          slabDelete toAdjust
            ((valPtr - toAdjust.addr) / toAdjust.slabClass)
        .ok { man with
          slabs := llUpdate findVal man.slabs valPtr fun _ => adjusted }

/--
`get_address`, which calls itself after marking a slab full.  `calls` bounds
the depth of these calls.
-/
def getAddressWithin :
    (calls : Nat) → Manager → Nat → Outcome (Option Nat × Manager)
  | 0, _, _ =>
      .error .endless
  | calls + 1, man, valSize =>
      let slabClass := getSlabClass man valSize
      match getSlab man slabClass with
      | none =>
          .ok (none, man)
      | some slab =>
          let i := getFreeIndex slab
          if i = 0 then
            getAddressWithin calls
              { man with
                slabs := llUpdate isOpen man.slabs slabClass
                  fun _ => { slab with isFull := 1 } }
              valSize
          else do
            let reserved ← toggleBit slab (i - 1)
            .ok
              (some (slab.addr + slab.slabClass * (i - 1) % 2 ^ 32),
                { man with
                  slabs := llUpdate isOpen man.slabs slabClass
                    fun _ => reserved })

/--
An available address for a value of the given size, marked allocated.  Every
call that recurses marks one more slab full, so one call for each slab and a
last one are enough.
-/
def getAddress (man : Manager) (valSize : Nat) :
    Outcome (Option Nat × Manager) :=
  getAddressWithin (man.slabs.length + 1) man valSize

/-- Slab classes from 64 bytes to 1 MB by powers of 2, and the final 0. -/
def defaultClasses : List Nat :=
  (List.range' 6 15).map (2 ^ ·) ++ [0]

/-- A manager without slabs. -/
def initializeManager (blocks : Nat → Slab) (classes : Option (List Nat)) : Manager where
  classes := classes.getD defaultClasses
  slabs := []
  numSlabs := 0
  blocks := blocks

namespace Manager

/-- One byte of the memory the slabs occupy. -/
def byteAt (man : Manager) (addr : Nat) : UInt8 :=
  match llFind findVal man.slabs addr with
  | none => 0
  | some slab => slab.byteAt (addr - slab.addr)

/--
`memcpy` to an address inside a slab's block.  Copying nothing is always
possible; copying past the end of the block is not.
-/
def memcpy
    (man : Manager)
    (address : Nat)
    (source : Nat → UInt8)
    (count : Nat) :
    Outcome Manager :=
  if count = 0 then
    .ok man
  else
    match llFind findVal man.slabs address with
    | none =>
        .error .outOfBounds
    | some slab =>
        if address - slab.addr + count ≤ getSlabSize then
          .ok { man with
            slabs := llUpdate findVal man.slabs address fun _ =>
              slab.write (address - slab.addr) count source }
        else
          .error .outOfBounds

/-- `strlen` of the string stored at an address inside a slab's block. -/
def strlen (man : Manager) (address : Nat) : Outcome Nat :=
  match llFind findVal man.slabs address with
  | none =>
      .error .outOfBounds
  | some slab =>
      match strlenFrom slab.byteAt
          (getSlabSize - (address - slab.addr)) (address - slab.addr) with
      | none => .error .outOfBounds
      | some length => .ok length

end Manager

end CacheBench
