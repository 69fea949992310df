import Mathlib.Data.Finset.Card
import Mathlib.Data.Finset.Range
import CacheBench.Slab

namespace CacheBench

/-!
# Allocation bits of one slab

Specifications of the functions that read and write `status`.  `Slab.bit`
numbers the bits as `toggle_bit` does: bit `i` is in word `i / 32`, counted
from the most significant end.
-/

/-- One allocation bit. -/
def Slab.bit (slab : Slab) (index : Nat) : Bool :=
  Bitmap.bit slab.status index

/-- Number of allocation bits in `status`. -/
def statusBits : Nat := 32 * statusWords

/-- Number of values of a class that fit in one slab. -/
def capacity (slabClass : Nat) : Nat :=
  memorySize / slabClass

/-- A status access inside the array reads that word. -/
theorem Slab.getStatus_of_lt
    (slab : Slab)
    {index : Nat}
    (inBounds : index < 512) :
    slab.getStatus index = .ok slab.status[index] := by
  simp [getStatus, inBounds]

/-- A status store inside the array changes that word only. -/
theorem Slab.setStatus_of_lt
    (slab : Slab)
    (word : BitVec 32)
    {index : Nat}
    (inBounds : index < 512) :
    slab.setStatus index word =
      .ok { slab with status := slab.status.set index word inBounds } := by
  simp [setStatus, inBounds]

/-- Toggling a bit of the array flips exactly that bit. -/
theorem toggleBit_eq_ok
    (slab : Slab)
    {bit : Nat}
    (inBounds : bit / 32 < 512) :
    toggleBit slab bit =
      .ok { slab with
        status := Bitmap.toggle slab.status bit inBounds } := by
  rw [toggleBit, slab.getStatus_of_lt inBounds]
  exact slab.setStatus_of_lt _ inBounds

/-- Deleting an entry flips its bit and clears the full flag. -/
theorem slabDelete_eq_ok
    (slab : Slab)
    {item : Nat}
    (inBounds : item / 32 < 512) :
    slabDelete slab item =
      .ok { slab with
        status := Bitmap.toggle slab.status item inBounds
        isFull := 0 } := by
  rw [slabDelete, toggleBit_eq_ok slab inBounds]
  rfl

/-- The loop of `get_free_index` is the search for the least clear bit. -/
theorem getFreeIndexFrom_eq
    (i : Nat)
    (words : List (BitVec 32)) :
    getFreeIndexFrom i words =
      match Bitmap.firstClear? words with
      | none => 0
      | some index => 32 * i + index + 1 := by
  induction words generalizing i with
  | nil =>
      rfl
  | cons word rest inductionHypothesis =>
      by_cases full : word = BitVec.allOnes 32
      · simp only [getFreeIndexFrom, full, ↓reduceIte,
          inductionHypothesis, Bitmap.firstClear?]
        cases Bitmap.firstClear? rest with
        | none =>
            rfl
        | some index =>
            have shifted :
                32 * (i + 1) + index + 1 = 32 * i + (index + 32) + 1 := by
              omega
            exact shifted
      · by_cases empty : word = 0#32
        · subst word
          simp [getFreeIndexFrom, Bitmap.firstClear?,
            Bitmap.leadingOnes]
        · simp only [getFreeIndexFrom, Bitmap.firstClear?, full, empty,
            ↓reduceIte, Bitmap.leadingOnes]

/-- The search passes full words up to an empty one. -/
theorem getFreeIndexFrom_replicate
    (i count : Nat)
    (rest : List (BitVec 32)) :
    getFreeIndexFrom i
        (List.replicate count (BitVec.allOnes 32) ++ 0#32 :: rest) =
      32 * (i + count) + 1 := by
  induction count generalizing i with
  | zero =>
      rfl
  | succ count inductionHypothesis =>
      rw [List.replicate_succ, List.cons_append, getFreeIndexFrom,
        if_pos rfl, inductionHypothesis (i + 1), Nat.add_assoc i 1 count,
        Nat.add_comm 1 count]

/-- Without a free index, every allocation bit is set. -/
theorem bit_of_getFreeIndex_eq_zero
    {slab : Slab}
    (noneFree : getFreeIndex slab = 0)
    {index : Nat}
    (inBounds : index < statusBits) :
    slab.bit index = true := by
  rw [getFreeIndex, getFreeIndexFrom_eq] at noneFree
  cases search : Bitmap.firstClear? slab.status.toList with
  | none =>
      apply Bitmap.firstClear?_none (by decide) search
      simpa [statusBits, statusWords] using inBounds
  | some found =>
      simp [search] at noneFree

/-- A free index is one more than the least clear bit. -/
theorem isFirstClear_of_getFreeIndex
    {slab : Slab}
    (someFree : getFreeIndex slab ≠ 0) :
    getFreeIndex slab - 1 < statusBits ∧
      slab.bit (getFreeIndex slab - 1) = false ∧
      ∀ earlier < getFreeIndex slab - 1, slab.bit earlier = true := by
  rw [getFreeIndex, getFreeIndexFrom_eq] at someFree ⊢
  cases search : Bitmap.firstClear? slab.status.toList with
  | none =>
      simp [search] at someFree
  | some found =>
      have first := Bitmap.firstClear?_sound (by decide) search
      have inBounds := first.inBounds
      simp only [Vector.length_toList] at inBounds
      simp only [Nat.mul_zero, Nat.zero_add, Nat.add_sub_cancel]
      exact ⟨inBounds, first.clear,
        fun earlier before => first.least before⟩

/-- No status bit is clear. -/
def Slab.AllUsed (slab : Slab) : Prop :=
  ∀ index < statusBits, slab.bit index = true

/-- The least clear status bit. -/
structure Slab.FirstClear (slab : Slab) (index : Nat) : Prop where
  inBounds : index < statusBits
  clear : slab.bit index = false
  least : ∀ earlier < index, slab.bit earlier = true

theorem Slab.FirstClear.unique
    {slab : Slab}
    {index other : Nat}
    (first : slab.FirstClear index)
    (otherFirst : slab.FirstClear other) :
    index = other := by
  rcases Nat.lt_trichotomy index other with before | same | after
  · have isUsed := otherFirst.least index before
    rw [first.clear] at isUsed
    cases isUsed
  · exact same
  · have isUsed := first.least other after
    rw [otherFirst.clear] at isUsed
    cases isUsed

/-- `get_free_index` returns 0 exactly if no status bit is clear. -/
theorem getFreeIndex_eq_zero_iff (slab : Slab) :
    getFreeIndex slab = 0 ↔ slab.AllUsed := by
  constructor
  · intro noneFree index inBounds
    exact bit_of_getFreeIndex_eq_zero noneFree inBounds
  · intro allUsed
    by_contra someFree
    obtain ⟨inBounds, clear, -⟩ := isFirstClear_of_getFreeIndex someFree
    rw [allUsed _ inBounds] at clear
    cases clear

/-- Otherwise it returns one more than the least clear bit. -/
theorem exists_firstClear
    {slab : Slab}
    (someFree : getFreeIndex slab ≠ 0) :
    ∃ index, getFreeIndex slab = index + 1 ∧ slab.FirstClear index := by
  obtain ⟨inBounds, clear, least⟩ := isFirstClear_of_getFreeIndex someFree
  exact ⟨getFreeIndex slab - 1, by omega, inBounds, clear, least⟩

/-- The number of clear status bits. -/
def Slab.freeBits (slab : Slab) : Nat :=
  ((Finset.range statusBits).filter fun index =>
    slab.bit index = false).card

/-- Setting a clear bit and no other leaves fewer clear bits. -/
theorem freeBits_lt_of_marked
    {slab marked : Slab}
    {index : Nat}
    (inBounds : index < statusBits)
    (clear : slab.bit index = false)
    (bits :
      ∀ query, marked.bit query =
        if query = index then !slab.bit index else slab.bit query) :
    marked.freeBits < slab.freeBits := by
  apply Finset.card_lt_card
  rw [Finset.ssubset_iff_of_subset]
  · refine ⟨index, ?_, ?_⟩
    · simp [inBounds, clear]
    · simp [bits, clear]
  · intro query
    simp only [Finset.mem_filter, bits]
    rintro ⟨queryInBounds, stillClear⟩
    split at stillClear
    · rw [clear] at stillClear
      cases stillClear
    · exact ⟨queryInBounds, stillClear⟩

/--
`get_free_index` and `toggle_bit` number the bits alike: the search returns 0
or one more than the least clear bit, and toggling a bit flips that bit of the
numbering.  Toggling the bit that was found sets it.
-/
theorem free_index_agrees_with_toggle (slab : Slab) :
    (getFreeIndex slab = 0 ↔
      ∀ index < 16384, slab.bit index = true) ∧
      (getFreeIndex slab ≠ 0 →
        ∃ index < 16384,
          getFreeIndex slab = index + 1 ∧
            slab.bit index = false ∧
            ∀ earlier < index, slab.bit earlier = true) ∧
      (∀ index < 16384, ∃ status,
        toggleBit slab index = .ok { slab with status := status } ∧
          ∀ query, Bitmap.bit status query =
            if query = index then !slab.bit index else slab.bit query) ∧
      ∀ index, getFreeIndex slab = index + 1 →
        ∃ toggled,
          toggleBit slab index = .ok toggled ∧
            toggled.bit index = true ∧
            toggled.freeBits < slab.freeBits := by
  refine ⟨getFreeIndex_eq_zero_iff slab, ?_, ?_, ?_⟩
  · intro someFree
    obtain ⟨index, found, first⟩ := exists_firstClear someFree
    exact ⟨index, first.inBounds, found, first.clear, first.least⟩
  · intro index inBounds
    have inArray : index / 32 < 512 := by
      omega
    exact ⟨_, toggleBit_eq_ok slab inArray,
      Bitmap.bit_toggle slab.status inArray (by decide)⟩
  · intro index found
    have someFree : getFreeIndex slab ≠ 0 := by
      omega
    obtain ⟨first, sameIndex, isFirst⟩ := exists_firstClear someFree
    obtain rfl : first = index := by
      omega
    have inBounds := isFirst.inBounds
    unfold statusBits statusWords at inBounds
    have inArray : first / 32 < 512 := by
      omega
    have bits := Bitmap.bit_toggle slab.status inArray (by decide)
    refine ⟨_, toggleBit_eq_ok slab inArray, ?_, ?_⟩
    · rw [Slab.bit, bits, if_pos rfl]
      simp only [Bool.not_eq_eq_eq_not, Bool.not_true]
      exact isFirst.clear
    · exact freeBits_lt_of_marked isFirst.inBounds isFirst.clear bits

/-- Two slabs that differ in their allocation status at most. -/
structure SameBlock (slab other : Slab) : Prop where
  addr : other.addr = slab.addr
  memory : other.memory = slab.memory
  slabClass : other.slabClass = slab.slabClass

/-- Changes of the allocation status compose. -/
theorem SameBlock.trans
    {first second third : Slab}
    (earlier : SameBlock first second)
    (later : SameBlock second third) :
    SameBlock first third where
  addr := later.addr.trans earlier.addr
  memory := later.memory.trans earlier.memory
  slabClass := later.slabClass.trans earlier.slabClass

/-- Filling a range of words inside the array. -/
theorem fillStatus_spec
    (slab : Slab)
    (word : BitVec 32)
    {start count : Nat}
    (inBounds : 0 < count → start + count ≤ 512) :
    ∃ filled,
      fillStatus slab start count word = .ok filled ∧
        SameBlock slab filled ∧
        ∀ index,
          filled.bit index =
            if start ≤ index / 32 ∧ index / 32 < start + count then
              word.getMsbD (index % 32)
            else
              slab.bit index := by
  induction count generalizing slab start with
  | zero =>
      refine ⟨slab, rfl, ⟨rfl, rfl, rfl⟩, ?_⟩
      intro index
      have outside :
          ¬ (start ≤ index / 32 ∧ index / 32 < start + 0) := by
        omega
      rw [if_neg outside]
  | succ count inductionHypothesis =>
      have startInBounds : start < 512 := by
        omega
      obtain ⟨filled, stored, same, bits⟩ :=
        inductionHypothesis
          { slab with
            status := slab.status.set start word startInBounds }
          (by omega : 0 < count → start + 1 + count ≤ 512)
      refine ⟨filled, ?_, ⟨same.addr, same.memory, same.slabClass⟩, ?_⟩
      · rw [fillStatus, List.range'_succ, List.foldlM_cons,
          slab.setStatus_of_lt word startInBounds]
        exact stored
      · intro index
        rw [bits index, Slab.bit, Bitmap.bit_set]
        by_cases atStart : index / 32 = start
        · have inside :
              start ≤ index / 32 ∧
                index / 32 < start + (count + 1) := by
            omega
          have notLater :
              ¬ (start + 1 ≤ index / 32 ∧
                index / 32 < start + 1 + count) := by
            omega
          rw [if_neg notLater, if_pos atStart, if_pos inside]
        · have sameRange :
              (start + 1 ≤ index / 32 ∧
                index / 32 < start + 1 + count) ↔
              (start ≤ index / 32 ∧
                index / 32 < start + (count + 1)) := by
            omega
          simp only [sameRange, atStart, ↓reduceIte]
          rfl

/-- Setting one bit of a word; the word past the array holds no bit. -/
private theorem markBit_spec
    (slab : Slab)
    {position mark : Nat}
    (inBounds : position ≤ 512)
    (inWord : mark < 32) :
    ∃ marked,
      (do
        let word ← slab.getStatus position
        slab.setStatus position (word ||| 1#32 <<< (31 - mark))) =
        .ok marked ∧
        SameBlock slab marked ∧
        ∀ index < statusBits,
          marked.bit index =
            (slab.bit index ||
              decide (index / 32 = position ∧ index % 32 = mark)) := by
  by_cases inArray : position < 512
  · rw [slab.getStatus_of_lt inArray]
    simp only [bind, Except.bind]
    rw [slab.setStatus_of_lt _ inArray]
    refine ⟨_, rfl, ⟨rfl, rfl, rfl⟩, ?_⟩
    intro index _
    have positionInWord : index % 32 < 32 :=
      Nat.mod_lt _ (by decide)
    rw [Slab.bit, Bitmap.bit_set]
    by_cases atPosition : index / 32 = position
    · subst position
      have maskBit :
          (1#32 <<< (31 - mark)).getMsbD (index % 32) =
            decide (index % 32 = mark) := by
        rw [BitVec.getMsbD_shiftLeft, BitVec.getMsbD_one]
        grind
      rw [if_pos rfl, BitVec.getMsbD_or, maskBit, Slab.bit,
        Bitmap.bit_eq_getMsbD inArray]
      simp
    · simp [atPosition, Slab.bit]
  · have pastEnd : position = 512 := by
      omega
    subst position
    refine ⟨_, rfl, ⟨rfl, rfl, rfl⟩, ?_⟩
    intro index indexInBounds
    have notPastEnd : index / 32 ≠ 512 := by
      unfold statusBits statusWords at indexInBounds
      omega
    simp [notPastEnd, Slab.bit]

/-- Marking the tail of a word. -/
theorem markTail_spec
    (slab : Slab)
    {position : Nat}
    (remainder : Nat)
    (inBounds : position ≤ 512) :
    ∃ marked,
      markTail slab position remainder = .ok marked ∧
        SameBlock slab marked ∧
        ∀ index < statusBits,
          marked.bit index =
            (slab.bit index ||
              decide (index / 32 = position ∧ remainder ≤ index % 32)) := by
  have marks :
      ∀ (todo : List Nat) (slab : Slab),
        (∀ mark ∈ todo, mark < 32) →
        ∃ marked,
          todo.foldlM
              (fun slab j => do
                let word ← Slab.getStatus slab position
                slab.setStatus position (word ||| 1#32 <<< (31 - j)))
              slab =
            .ok marked ∧
            SameBlock slab marked ∧
            ∀ index < statusBits,
              marked.bit index =
                (slab.bit index ||
                  decide (index / 32 = position ∧ index % 32 ∈ todo)) := by
    intro todo
    induction todo with
    | nil =>
        intro slab _
        exact ⟨slab, rfl, ⟨rfl, rfl, rfl⟩, by simp⟩
    | cons mark rest inductionHypothesis =>
        intro slab inWord
        obtain ⟨first, firstStored, firstSame, firstBits⟩ :=
          markBit_spec slab inBounds (inWord mark (by simp))
        obtain ⟨marked, stored, same, bits⟩ :=
          inductionHypothesis first
            (fun later member => inWord later (by simp [member]))
        refine ⟨marked, ?_, firstSame.trans same, ?_⟩
        · rw [List.foldlM_cons, firstStored]
          exact stored
        · intro index indexInBounds
          rw [bits index indexInBounds, firstBits index indexInBounds]
          by_cases atPosition : index / 32 = position
          · simp [atPosition, Bool.or_assoc]
          · simp [atPosition]
  obtain ⟨marked, stored, same, bits⟩ :=
    marks (List.range' remainder (32 - remainder)) slab
      (by
        intro mark member
        simp only [List.mem_range'_1] at member
        omega)
  refine ⟨marked, stored, same, ?_⟩
  intro index indexInBounds
  have sameMarks :
      index % 32 ∈ List.range' remainder (32 - remainder) ↔
        remainder ≤ index % 32 := by
    simp only [List.mem_range'_1]
    omega
  rw [bits index indexInBounds]
  simp only [sameMarks]

/--
The allocation bits of a new slab.  Whole words below the capacity are cleared
and bits from the capacity on are set; in the word that holds the capacity the
bits below it keep what the block held before.
-/
def freshBit (block : Slab) (slabClass index : Nat) : Bool :=
  if index / 32 < capacity slabClass / 32 then
    false
  else if index < capacity slabClass then
    block.bit index
  else
    true

/-- The number of entries left after the whole words. -/
theorem remainder_eq
    (slabClass : Nat) :
    (2 ^ 20 - 2 ^ 20 / slabClass / 32 * 32 * slabClass) / slabClass =
      capacity slabClass % 32 := by
  rw [Nat.mul_comm _ slabClass, Nat.sub_mul_div]
  unfold capacity memorySize
  omega

/-- A slab never has more entries than allocation bits. -/
theorem capacity_le_statusBits
    {slabClass : Nat}
    (smallest : 64 ≤ slabClass) :
    capacity slabClass ≤ statusBits := by
  calc
    capacity slabClass ≤ memorySize / 64 :=
      Nat.div_le_div_left smallest (by decide)
    _ = statusBits := by decide

/-- What `allocate_slab` makes of a block. -/
structure Allocated (block : Slab) (newClass : Nat) (slab : Slab) : Prop where
  addr : slab.addr = block.addr
  memory : slab.memory = block.memory
  slabClass : slab.slabClass = newClass
  isFull : slab.isFull = 0
  bits : ∀ index < statusBits,
    slab.bit index = freshBit block newClass index

/-- Allocation succeeds for every class the status array has room for. -/
theorem allocateSlab_spec
    (block : Slab)
    {slabClass : Nat}
    (smallest : 64 ≤ slabClass) :
    ∃ slab,
      allocateSlab block slabClass = .ok slab ∧
        Allocated block slabClass slab := by
  have capacityBound := capacity_le_statusBits smallest
  unfold statusBits statusWords at capacityBound
  obtain ⟨cleared, clearedStored, clearedSame, clearedBits⟩ :=
    fillStatus_spec { block with slabClass := slabClass } 0#32
      (by omega :
        0 < capacity slabClass / 32 →
          0 + capacity slabClass / 32 ≤ 512)
  obtain ⟨marked, markedStored, markedSame, markedBits⟩ :=
    markTail_spec cleared (capacity slabClass % 32)
      (by omega : capacity slabClass / 32 ≤ 512)
  obtain ⟨filled, filledStored, filledSame, filledBits⟩ :=
    fillStatus_spec marked (BitVec.allOnes 32)
      (by omega :
        0 < 512 - (capacity slabClass / 32 + 1) →
          capacity slabClass / 32 + 1 +
            (512 - (capacity slabClass / 32 + 1)) ≤ 512)
  have same := (clearedSame.trans markedSame).trans filledSame
  refine ⟨{ filled with isFull := 0 }, ?_,
    ⟨same.addr, same.memory, same.slabClass, rfl, ?_⟩⟩
  · have positive : slabClass ≠ 0 := by
      omega
    have remainderInWord : ¬ 31 < capacity slabClass % 32 := by
      omega
    simp only [allocateSlab, positive, ↓reduceIte, remainder_eq,
      remainderInWord]
    rw [show 2 ^ 20 / slabClass / 32 = capacity slabClass / 32 from rfl,
      clearedStored]
    simp only [bind, Except.bind]
    rw [markedStored]
    simp only [filledStored]
  · intro index inBounds
    have wordInArray : index / 32 < 512 := by
      unfold statusBits statusWords at inBounds
      omega
    have positionInWord : index % 32 < 32 := by
      omega
    change filled.bit index = _
    rw [filledBits, markedBits index inBounds, clearedBits, freshBit]
    have blockBit :
        Slab.bit { block with slabClass := slabClass } index =
          block.bit index := rfl
    simp only [blockBit, BitVec.getMsbD_allOnes, BitVec.getMsbD_zero]
    grind

/--
The allocation bits of a new slab are clear below the capacity and set from it
on exactly if the block held no set bit below the capacity in the word that is
only partly used.
-/
theorem fresh_bitmap_exact_iff
    (block : Slab)
    {slabClass : Nat}
    (smallest : 64 ≤ slabClass) :
    ∃ slab,
      allocateSlab block slabClass = .ok slab ∧
        slab.slabClass = slabClass ∧
        slab.isFull = 0 ∧
        ((∀ index < statusBits,
            slab.bit index = decide (2 ^ 20 / slabClass ≤ index)) ↔
          ∀ index < 2 ^ 20 / slabClass,
            2 ^ 20 / slabClass / 32 ≤ index / 32 →
              block.bit index = false) := by
  obtain ⟨slab, returned, allocated⟩ := allocateSlab_spec block smallest
  refine ⟨slab, returned, allocated.slabClass, allocated.isFull, ?_⟩
  have capacityBound := capacity_le_statusBits smallest
  change
    (∀ index < statusBits,
        slab.bit index = decide (capacity slabClass ≤ index)) ↔
      ∀ index < capacity slabClass,
        capacity slabClass / 32 ≤ index / 32 → block.bit index = false
  constructor
  · intro exact index inCapacity inLastWord
    have inBounds := Nat.lt_of_lt_of_le inCapacity capacityBound
    have isBit := exact index inBounds
    rw [allocated.bits index inBounds, freshBit,
      if_neg (Nat.not_lt_of_le inLastWord), if_pos inCapacity] at isBit
    rw [isBit]
    exact decide_eq_false (Nat.not_le_of_lt inCapacity)
  · intro clear index inBounds
    rw [allocated.bits index inBounds, freshBit]
    by_cases inCapacity : index < capacity slabClass
    · rw [decide_eq_false (Nat.not_le_of_lt inCapacity)]
      by_cases wholeWord : index / 32 < capacity slabClass / 32
      · rw [if_pos wholeWord]
      · rw [if_neg wholeWord, if_pos inCapacity]
        exact clear index inCapacity (Nat.le_of_not_lt wholeWord)
    · have notWhole : ¬ index / 32 < capacity slabClass / 32 := by
        omega
      rw [if_neg notWhole, if_neg inCapacity,
        decide_eq_true (Nat.le_of_not_lt inCapacity)]

/-- A block whose status words all held the given word. -/
def blockOf (word : BitVec 32) : Slab where
  addr := 16
  memory := fun _ => 0
  slabClass := 0
  status := Vector.replicate 512 word
  isFull := 0
  padding := fun _ => 0

/-- In a zero-filled block a slab of 1 MB has one free slot. -/
theorem fresh_bitmap_exact_iff_of_zeros :
    ∃ slab,
      allocateSlab (blockOf 0#32) 1048576 = .ok slab ∧
        ∀ index < statusBits,
          slab.bit index = decide (2 ^ 20 / 1048576 ≤ index) := by
  obtain ⟨slab, returned, -, -, exactly⟩ :=
    fresh_bitmap_exact_iff (blockOf 0#32) (by decide : 64 ≤ 1048576)
  refine ⟨slab, returned, exactly.mpr ?_⟩
  intro index _ _
  exact Bitmap.bit_replicate_zero 32 512 index

/--
In a block that held ones, such as one freed and used again, the only slot of a
1 MB slab is marked as used.
-/
theorem fresh_bitmap_keeps_old_bit :
    ∃ slab,
      allocateSlab (blockOf (BitVec.allOnes 32)) 1048576 = .ok slab ∧
        slab.bit 0 = true ∧
        decide (2 ^ 20 / 1048576 ≤ 0) = false := by
  obtain ⟨slab, returned, allocated⟩ :=
    allocateSlab_spec (blockOf (BitVec.allOnes 32))
      (by decide : 64 ≤ 1048576)
  refine ⟨slab, returned, ?_, by decide⟩
  rw [allocated.bits 0 (by decide)]
  decide

end CacheBench
