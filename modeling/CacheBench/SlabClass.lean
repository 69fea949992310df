import CacheBench.SlabManager
import CacheBench.SlabBits

namespace CacheBench

/-!
# Selecting a slab class

A class table lists its classes in strictly ascending order and ends with a 0.
On such a table `get_slab_class` returns the least class that is large enough,
or the largest class when none is.  The second part fixes what the rest of the
development uses of the default table.
-/

/-- A zero-terminated, non-empty and strictly ascending class table. -/
structure ClassTable (classes : List Nat) where
  entries : List Nat
  shape : classes = entries ++ [0]
  nonempty : entries ≠ []
  positive : ∀ entry ∈ entries, 0 < entry
  ascending : entries.Pairwise (· < ·)

/-- The loop returns the first large enough entry, else the last one seen. -/
theorem getSlabClassFrom_eq
    (size previous : Nat)
    {entries : List Nat}
    (positive : ∀ entry ∈ entries, 0 < entry) :
    getSlabClassFrom size previous (entries ++ [0]) =
      (entries.find? (fun entry => decide (size ≤ entry))).getD
        ((previous :: entries).getLast (by simp)) := by
  induction entries generalizing previous with
  | nil =>
      simp [getSlabClassFrom]
  | cons entry rest inductionHypothesis =>
      have entryPositive : entry ≠ 0 :=
        Nat.ne_of_gt (positive entry (by simp))
      have restPositive : ∀ later ∈ rest, 0 < later :=
        fun later member => positive later (by simp [member])
      by_cases fits : size ≤ entry
      · simp [getSlabClassFrom, entryPositive, fits]
      · simp [getSlabClassFrom, entryPositive, fits,
          inductionHypothesis entry restPositive]

namespace ClassTable

/-- The largest class of a table. -/
def largest {classes : List Nat} (table : ClassTable classes) : Nat :=
  table.entries.getLast table.nonempty

/-- Selection on a table is a search with the largest class as fallback. -/
theorem select_eq
    {classes : List Nat}
    (table : ClassTable classes)
    (size : Nat) :
    getSlabClassFrom size 0 classes =
      (table.entries.find? (fun entry => decide (size ≤ entry))).getD
        table.largest := by
  have selected :=
    getSlabClassFrom_eq size 0 table.positive
  rw [List.getLast_cons table.nonempty] at selected
  exact (congrArg (getSlabClassFrom size 0) table.shape).trans selected

/-- Selection always returns a class of the table. -/
theorem select_mem
    {classes : List Nat}
    (table : ClassTable classes)
    (size : Nat) :
    getSlabClassFrom size 0 classes ∈ table.entries := by
  rw [table.select_eq size]
  cases search :
      table.entries.find? (fun entry => decide (size ≤ entry)) with
  | none =>
      exact List.getLast_mem table.nonempty
  | some entry =>
      exact List.mem_of_find?_eq_some search

/-- No entry of the table exceeds the largest class. -/
theorem le_largest
    {classes : List Nat}
    (table : ClassTable classes)
    {entry : Nat}
    (member : entry ∈ table.entries) :
    entry ≤ table.largest := by
  obtain ⟨front, shape⟩ :
      ∃ front, table.entries = front ++ [table.largest] :=
    ⟨table.entries.dropLast,
      (List.dropLast_append_getLast table.nonempty).symm⟩
  have ascending := table.ascending
  rw [shape] at member ascending
  rcases List.mem_append.mp member with inFront | isLast
  · exact Nat.le_of_lt
      ((List.pairwise_append.mp ascending).2.2
        entry inFront table.largest (by simp))
  · exact Nat.le_of_eq (List.mem_singleton.mp isLast)

/-- A size up to the largest class is covered by the selected class. -/
theorem le_select
    {classes : List Nat}
    (table : ClassTable classes)
    {size : Nat}
    (bounded : size ≤ table.largest) :
    size ≤ getSlabClassFrom size 0 classes := by
  rw [table.select_eq size]
  cases search :
      table.entries.find? (fun entry => decide (size ≤ entry)) with
  | none =>
      exact bounded
  | some entry =>
      simpa using List.find?_some search

/-- No class that is large enough is smaller than the selected one. -/
theorem select_le
    {classes : List Nat}
    (table : ClassTable classes)
    {size entry : Nat}
    (member : entry ∈ table.entries)
    (fits : size ≤ entry) :
    getSlabClassFrom size 0 classes ≤ entry := by
  rw [table.select_eq size]
  cases search :
      table.entries.find? (fun entry => decide (size ≤ entry)) with
  | none =>
      have tooSmall := List.find?_eq_none.mp search entry member
      simp [fits] at tooSmall
  | some found =>
      obtain ⟨-, before, after, shape, tooSmall⟩ :=
        List.find?_eq_some_iff_append.mp search
      have ascending := table.ascending
      rw [shape] at member ascending
      rcases List.mem_append.mp member with isBefore | fromFound
      · have rejected := tooSmall entry isBefore
        simp [fits] at rejected
      · rcases List.mem_cons.mp fromFound with rfl | isAfter
        · exact Nat.le_refl entry
        · have later := (List.pairwise_append.mp ascending).2.1
          exact Nat.le_of_lt (List.rel_of_pairwise_cons later isAfter)

/-- A size above every class selects the largest class. -/
theorem select_of_largest_lt
    {classes : List Nat}
    (table : ClassTable classes)
    {size : Nat}
    (above : table.largest < size) :
    getSlabClassFrom size 0 classes = table.largest := by
  rw [table.select_eq size]
  cases search :
      table.entries.find? (fun entry => decide (size ≤ entry)) with
  | none =>
      rfl
  | some entry =>
      have fits : size ≤ entry := by
        simpa using List.find?_some search
      have bounded :=
        table.le_largest (List.mem_of_find?_eq_some search)
      omega

/-- Selecting for the size of a class returns that class. -/
theorem select_of_mem
    {classes : List Nat}
    (table : ClassTable classes)
    {entry : Nat}
    (member : entry ∈ table.entries) :
    getSlabClassFrom entry 0 classes = entry := by
  rw [table.select_eq entry]
  obtain ⟨front, back, shape⟩ := List.append_of_mem member
  have ascending := table.ascending
  rw [shape] at ascending ⊢
  have smaller :
      ∀ earlier ∈ front, ¬ entry ≤ earlier := by
    intro earlier inFront
    have before :=
      (List.pairwise_append.mp ascending).2.2
        earlier inFront entry (by simp)
    omega
  rw [List.find?_append, List.find?_eq_none.mpr (by simpa using smaller)]
  simp

end ClassTable

/-- The table `initialize` builds has the required shape. -/
def defaultTable : ClassTable defaultClasses where
  entries := (List.range' 6 15).map (2 ^ ·)
  shape := rfl
  nonempty := by decide
  positive := by decide
  ascending := by decide

/-- A slab class of the default table. -/
def IsClass (slabClass : Nat) : Prop :=
  slabClass ∈ defaultTable.entries

/-- The largest default class is all of a slab's memory. -/
theorem defaultTable_largest : defaultTable.largest = memorySize := by
  decide

namespace IsClass

/-- Default classes are at least 64 bytes. -/
theorem smallest
    {slabClass : Nat}
    (isClass : IsClass slabClass) :
    64 ≤ slabClass := by
  revert isClass
  exact (by decide :
    ∀ entry ∈ defaultTable.entries, 64 ≤ entry) slabClass

/-- Default classes are multiples of 64 bytes. -/
theorem dvd
    {slabClass : Nat}
    (isClass : IsClass slabClass) :
    64 ∣ slabClass := by
  revert isClass
  exact (by decide :
    ∀ entry ∈ defaultTable.entries, 64 ∣ entry) slabClass

/-- Default classes are at most one slab's memory. -/
theorem le_memorySize
    {slabClass : Nat}
    (isClass : IsClass slabClass) :
    slabClass ≤ memorySize := by
  rw [← defaultTable_largest]
  exact defaultTable.le_largest isClass

theorem pos
    {slabClass : Nat}
    (isClass : IsClass slabClass) :
    0 < slabClass :=
  Nat.lt_of_lt_of_le (by decide) isClass.smallest

/-- A slab of every default class has a slot. -/
theorem capacity_pos
    {slabClass : Nat}
    (isClass : IsClass slabClass) :
    0 < capacity slabClass :=
  Nat.div_pos isClass.le_memorySize isClass.pos

/-- Every slot below the capacity ends inside `memory`. -/
theorem slot_le_memorySize
    {slabClass item : Nat}
    (inCapacity : item < capacity slabClass) :
    slabClass * item + slabClass ≤ memorySize := by
  rw [← Nat.mul_succ]
  exact
    (Nat.mul_le_mul_left slabClass (Nat.succ_le_of_lt inCapacity)).trans
      (Nat.mul_div_le memorySize slabClass)

/-- The slot number is recovered from the slot's offset by division. -/
theorem slot_div
    {slabClass : Nat}
    (isClass : IsClass slabClass)
    (item : Nat) :
    slabClass * item / slabClass = item :=
  Nat.mul_div_cancel_left item isClass.pos

end IsClass

end CacheBench
