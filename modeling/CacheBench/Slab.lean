import Mathlib.Algebra.Ring.Int.Defs
import CacheBench.Bitmap
import CacheBench.CString
import CacheBench.LinkedList

namespace CacheBench

/-!
# One slab of `tools/slabs.c`

A `slab_obj` is one block from `malloc`: one megabyte of value memory followed
by the slab class, 512 status words and the full flag.  The fields are kept
apart, and `byteAt` and `ofBytes` fix where each of them lies in the block, so
that a copy which runs past `memory` lands in the fields that follow it.

Code that would leave the block, divide by zero, fail an assertion or call
`exit` has no result; it raises a `Fault` instead.
-/

/-- How a call can end without returning. -/
inductive Fault where
  | outOfBounds
  | divisionByZero
  | assertionFailed
  | exited
  | endless
  deriving Repr, DecidableEq

/-- The result of code that may end without returning. -/
abbrev Outcome := Except Fault

/-- A sequence of two computations that returned. -/
theorem bind_eq_ok
    {α β : Type}
    {first : Outcome α}
    {next : α → Outcome β}
    {result : β} :
    first >>= next = .ok result ↔
      ∃ value, first = .ok value ∧ next value = .ok result := by
  cases first with
  | error fault =>
      simp [bind, Except.bind]
  | ok value =>
      simp [bind, Except.bind]

/-- A sequence of two computations one of which faulted. -/
theorem bind_eq_error
    {α β : Type}
    {first : Outcome α}
    {next : α → Outcome β}
    {fault : Fault} :
    first >>= next = .error fault ↔
      first = .error fault ∨
        ∃ value, first = .ok value ∧ next value = .error fault := by
  cases first with
  | error other =>
      simp [bind, Except.bind]
  | ok value =>
      simp [bind, Except.bind]

/-- `slab_obj`, together with the address of its block. -/
structure Slab where
  addr : Nat
  memory : Nat → UInt8
  slabClass : Nat
  status : Vector (BitVec 32) 512
  isFull : UInt8
  padding : Nat → UInt8

/-- Bytes of `memory`, the first field. -/
def memorySize : Nat := 2 ^ 20

/-- Number of words in `status`. -/
def statusWords : Nat := 512

/-- Offset of `class` in the block. -/
def classOffset : Nat := memorySize

/-- Offset of `status` in the block. -/
def statusOffset : Nat := classOffset + 4

/-- Offset of `isFull` in the block. -/
def isFullOffset : Nat := statusOffset + 4 * statusWords

/-- `sizeof(slab_obj)`: the fields, rounded up to the alignment of a word. -/
def getSlabSize : Nat := (isFullOffset + 1 + 3) / 4 * 4

namespace Slab

/-- One byte of the block. -/
def byteAt (slab : Slab) (offset : Nat) : UInt8 :=
  if offset < classOffset then
    slab.memory offset
  else if offset < statusOffset then
    leByte slab.slabClass (offset - classOffset)
  else if offset < isFullOffset then
    leByte
      (slab.status[(offset - statusOffset) / 4]?.getD 0#32).toNat
      ((offset - statusOffset) % 4)
  else if offset = isFullOffset then
    slab.isFull
  else
    slab.padding (offset - isFullOffset - 1)

/-- The slab whose block at `addr` holds the given bytes. -/
def ofBytes (addr : Nat) (bytes : Nat → UInt8) : Slab where
  addr := addr
  memory := bytes
  slabClass := leWord fun position => bytes (classOffset + position)
  status := Vector.ofFn fun word =>
    BitVec.ofNat 32 <| leWord fun position =>
      bytes (statusOffset + 4 * word.val + position)
  isFull := bytes isFullOffset
  padding := fun position => bytes (isFullOffset + 1 + position)

/-- Bytes after `count` of them were copied to `offset`. -/
def overlay
    (bytes : Nat → UInt8)
    (offset count : Nat)
    (source : Nat → UInt8)
    (query : Nat) :
    UInt8 :=
  if offset ≤ query ∧ query < offset + count then
    source (query - offset)
  else
    bytes query

/--
`memcpy` of `count` bytes to `offset`.  A copy that ends inside `memory`
changes nothing else; a longer one overwrites the fields that follow.
-/
def write
    (slab : Slab)
    (offset count : Nat)
    (source : Nat → UInt8) :
    Slab :=
  if offset + count ≤ memorySize then
    { slab with memory := overlay slab.memory offset count source }
  else
    ofBytes slab.addr (overlay slab.byteAt offset count source)

/--
Read `status[index]`.  One word past the array are `isFull` and the padding
that ends the block.
-/
def getStatus (slab : Slab) (index : Nat) : Outcome (BitVec 32) :=
  if inBounds : index < 512 then
    .ok slab.status[index]
  else if index = 512 then
    .ok (BitVec.ofNat 32 <| leWord fun position =>
      slab.byteAt (isFullOffset + position))
  else
    .error .outOfBounds

/-- Write `status[index]`, with the same layout as `getStatus`. -/
def setStatus
    (slab : Slab)
    (index : Nat)
    (word : BitVec 32) :
    Outcome Slab :=
  if inBounds : index < 512 then
    .ok { slab with status := slab.status.set index word inBounds }
  else if index = 512 then
    .ok { slab with
      isFull := leByte word.toNat 0
      padding := fun position => leByte word.toNat (position + 1) }
  else
    .error .outOfBounds

end Slab

/-- Flip one allocation bit. -/
def toggleBit (slab : Slab) (bit : Nat) : Outcome Slab := do
  let chunk ← slab.getStatus (bit / 32)
  slab.setStatus (bit / 32)
    (chunk ^^^ (0x80000000#32 >>> (bit % 32)))

/-- Set an entry's allocation status to 0 by xoring it. -/
def slabDelete (slab : Slab) (item : Nat) : Outcome Slab := do
  let slab ← toggleBit slab item
  .ok { slab with isFull := 0 }

/-- The loop of `get_free_index` over the words from position `i` on. -/
def getFreeIndexFrom : Nat → List (BitVec 32) → Nat
  | _, [] => 0
  | i, word :: rest =>
      if word = BitVec.allOnes 32 then
        getFreeIndexFrom (i + 1) rest
      else if word = 0#32 then
        32 * i + 1
      else
        32 * i + (BitVec.clz (~~~word)).toNat + 1

/-- 0 if there are no free indices, else one more than the first of them. -/
def getFreeIndex (slab : Slab) : Nat :=
  getFreeIndexFrom 0 slab.status.toList

/-- `for (i = start; i < start + count; i++) s->status[i] = word;` -/
def fillStatus
    (slab : Slab)
    (start count : Nat)
    (word : BitVec 32) :
    Outcome Slab :=
  (List.range' start count).foldlM
    (fun slab i => slab.setStatus i word) slab

/-- `for (j = remainder; j < 32; j++) s->status[i] |= 1 << (31 - j);` -/
def markTail (slab : Slab) (i remainder : Nat) : Outcome Slab :=
  (List.range' remainder (32 - remainder)).foldlM
    (fun slab j => do
      let word ← slab.getStatus i
      slab.setStatus i (word ||| 1#32 <<< (31 - j)))
    slab

/--
`allocate_slab` on the block that `malloc` returned.  The block's previous
contents are those of `block`.
-/
def allocateSlab (block : Slab) (slabClass : Nat) : Outcome Slab :=
  if slabClass = 0 then
    .error .divisionByZero
  else
    let i := 2 ^ 20 / slabClass / 32
    let remainder := (2 ^ 20 - i * 32 * slabClass) / slabClass
    if 31 < remainder then
      .error .exited
    else do
      let slab ← fillStatus { block with slabClass := slabClass } 0 i 0#32
      let slab ← markTail slab i remainder
      let slab ← fillStatus slab (i + 1) (512 - (i + 1)) (BitVec.allOnes 32)
      .ok { slab with isFull := 0 }

/-- Whether an address lies in the slab's block. -/
def findVal (slab : Slab) (valPtr : Nat) : Bool :=
  slab.addr ≤ valPtr && valPtr < slab.addr + getSlabSize

end CacheBench
