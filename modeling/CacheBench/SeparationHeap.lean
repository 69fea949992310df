import Mathlib

namespace CacheBench.SeparationHeap

/-!
# Assertions about parts of a heap

A heap maps finitely many addresses to blocks.  An assertion is a set of heaps:
a part of memory that a piece of code owns.  Assertions form a commutative
quantale.  The product `P * Q` holds of a heap that splits into a part where `P`
holds and a part where `Q` does, `1` of the empty heap; `P ≤ Q` is entailment
and `⨆` is both the existential quantifier and, over a proposition, a fact that
owns nothing.
-/

universe u

/-- The allocated blocks by address. -/
abbrev Heap (β : Type u) := Finmap (fun _ : Nat => β)

/-- A set of heaps. -/
def Assertion (β : Type u) := Heap β → Prop

variable {β : Type u}

namespace Assertion

instance : CompleteLattice (Assertion β) :=
  inferInstanceAs (CompleteLattice (Heap β → Prop))

/-- The heap is empty. -/
instance : One (Assertion β) :=
  ⟨fun heap => heap = ∅⟩

/-- The heap splits into a part for each assertion. -/
instance : Mul (Assertion β) :=
  ⟨fun P Q heap =>
    ∃ left right, left.Disjoint right ∧ heap = left ∪ right ∧ P left ∧ Q right⟩

theorem iSup_apply {ι : Sort*} {P : ι → Assertion β} {heap : Heap β} :
    (⨆ i, P i) heap ↔ ∃ i, P i heap := by
  let some : Assertion β := fun heap => ∃ i, P i heap
  have upper : ⨆ i, P i ≤ some := iSup_le fun i _ holds => ⟨i, holds⟩
  exact ⟨upper heap, fun ⟨i, holds⟩ => le_iSup P i heap holds⟩

theorem sSup_apply {family : Set (Assertion β)} {heap : Heap β} :
    sSup family heap ↔ ∃ P ∈ family, P heap := by
  rw [sSup_eq_iSup, iSup_apply]
  simp only [iSup_apply, exists_prop]

theorem ext {P Q : Assertion β} (same : ∀ heap, P heap ↔ Q heap) : P = Q :=
  funext fun heap => propext (same heap)

private theorem mul_comm_le (P Q : Assertion β) : P * Q ≤ Q * P := by
  rintro heap ⟨left, right, apart, rfl, holdsLeft, holdsRight⟩
  exact ⟨right, left, apart.symm, Finmap.union_comm_of_disjoint apart,
    holdsRight, holdsLeft⟩

private theorem mul_assoc_le (P Q R : Assertion β) :
    P * Q * R ≤ P * (Q * R) := by
  rintro heap ⟨_, third, apart, rfl, ⟨first, second, inner, rfl, p, q⟩, r⟩
  obtain ⟨firstThird, secondThird⟩ := (Finmap.disjoint_union_left _ _ _).mp apart
  exact ⟨first, second ∪ third,
    (Finmap.disjoint_union_right _ _ _).mpr ⟨inner, firstThird⟩,
    Finmap.union_assoc, p, second, third, secondThird, rfl, q, r⟩

private theorem mul_comm_eq (P Q : Assertion β) : P * Q = Q * P :=
  le_antisymm (mul_comm_le P Q) (mul_comm_le Q P)

private theorem one_mul_eq (P : Assertion β) : 1 * P = P := by
  refine ext fun heap => ⟨?_, fun holds => ?_⟩
  · rintro ⟨_, right, _, rfl, rfl, holds⟩
    rwa [Finmap.empty_union]
  · exact ⟨∅, heap, Finmap.disjoint_empty heap, Finmap.empty_union.symm, rfl, holds⟩

/-- Splitting a heap is associative and commutative. -/
instance : CommMonoid (Assertion β) where
  mul_comm := mul_comm_eq
  one_mul := one_mul_eq
  mul_one P := by rw [mul_comm_eq, one_mul_eq]
  mul_assoc P Q R := by
    refine le_antisymm (mul_assoc_le P Q R) ?_
    -- The other direction is the same one, read backwards.
    calc
      P * (Q * R) = R * Q * P := by rw [mul_comm_eq, mul_comm_eq Q]
      _ ≤ R * (Q * P) := mul_assoc_le R Q P
      _ = P * Q * R := by rw [mul_comm_eq, mul_comm_eq Q]

private theorem mul_sSup_eq (P : Assertion β) (family : Set (Assertion β)) :
    P * sSup family = ⨆ Q ∈ family, P * Q := by
  refine ext fun heap => ?_
  simp only [iSup_apply, exists_prop]
  constructor
  · rintro ⟨left, right, apart, rfl, p, holds⟩
    obtain ⟨Q, member, q⟩ := sSup_apply.mp holds
    exact ⟨Q, member, left, right, apart, rfl, p, q⟩
  · rintro ⟨Q, member, left, right, apart, rfl, p, q⟩
    exact ⟨left, right, apart, rfl, p, sSup_apply.mpr ⟨Q, member, q⟩⟩

/-- A split distributes over existentials. -/
instance : IsQuantale (Assertion β) where
  mul_sSup_distrib := mul_sSup_eq
  sSup_mul_distrib family P := by
    rw [mul_comm, mul_sSup_eq]
    simp only [mul_comm]

/-- `Quantale.iSup_mul_distrib` for propositions as well as types. -/
theorem iSup_mul {ι : Sort*} (P : ι → Assertion β) (Q : Assertion β) :
    (⨆ i, P i) * Q = ⨆ i, P i * Q := by
  rw [iSup, IsQuantale.sSup_mul_distrib, iSup_range]

theorem mul_iSup {ι : Sort*} (Q : Assertion β) (P : ι → Assertion β) :
    (Q * ⨆ i, P i) = ⨆ i, Q * P i := by
  rw [iSup, IsQuantale.mul_sSup_distrib, iSup_range]

end Assertion

/-- The heap is the one block at the address. -/
def pointsTo (address : Nat) (block : β) : Assertion β :=
  fun heap => heap = Finmap.singleton address block

/-- The block at the address, in a heap that may hold more. -/
def has (address : Nat) (block : β) : Assertion β :=
  fun heap => heap.lookup address = some block

/-- The heap is the given one. -/
def isHeap (heap : Heap β) : Assertion β :=
  fun other => other = heap

/-- The heap has so many blocks. -/
def exactly (count : Nat) : Assertion β :=
  fun heap => heap.keys.card = count

/-- The heap has at least so many blocks. -/
def atLeast (count : Nat) : Assertion β :=
  fun heap => count ≤ heap.keys.card

theorem pointsTo_mul_apply
    {address : Nat}
    {block : β}
    {F : Assertion β}
    {heap : Heap β} :
    (pointsTo address block * F) heap ↔
      ∃ rest, address ∉ rest ∧
        heap = Finmap.singleton address block ∪ rest ∧ F rest := by
  constructor
  · rintro ⟨_, rest, apart, rfl, rfl, frame⟩
    exact ⟨rest, apart address ((Finmap.mem_singleton _ _ _).mpr rfl), rfl, frame⟩
  · rintro ⟨rest, fresh, rfl, frame⟩
    refine ⟨_, rest, fun other owned => ?_, rfl, rfl, frame⟩
    rwa [(Finmap.mem_singleton _ _ _).mp owned]

/-- What is owned is there. -/
theorem pointsTo_mul_le_has (address : Nat) (block : β) (F : Assertion β) :
    pointsTo address block * F ≤ has address block := by
  intro heap holds
  obtain ⟨rest, -, rfl, -⟩ := pointsTo_mul_apply.mp holds
  change Finmap.lookup address _ = _
  rw [Finmap.lookup_union_left ((Finmap.mem_singleton _ _ _).mpr rfl),
    Finmap.lookup_singleton_eq]

/-- What is there is still there in a larger heap. -/
theorem has_mul_le (address : Nat) (block : β) (F : Assertion β) :
    has address block * F ≤ has address block := by
  rintro heap ⟨left, right, -, rfl, present, -⟩
  change Finmap.lookup address _ = _
  rw [Finmap.lookup_union_left (Finmap.mem_of_lookup_eq_some present)]
  exact present

theorem has_left
    {P Q : Assertion β}
    {address : Nat}
    {block : β}
    (owned : P ≤ has address block) :
    P * Q ≤ has address block :=
  (mul_le_mul_left owned Q).trans (has_mul_le address block Q)

theorem has_right
    {P Q : Assertion β}
    {address : Nat}
    {block : β}
    (owned : Q ≤ has address block) :
    P * Q ≤ has address block := by
  rw [mul_comm]
  exact has_left owned

/-- The blocks of the parts add up. -/
theorem exactly_mul_le (first second : Nat) :
    exactly first * exactly second ≤ (exactly (first + second) : Assertion β) := by
  rintro heap ⟨left, right, apart, rfl, leftCount, rightCount⟩
  change (left ∪ right).keys.card = first + second
  have disjoint : Disjoint left.keys right.keys :=
    Finset.disjoint_left.mpr fun address inLeft inRight =>
      apart address (Finmap.mem_keys.mp inLeft) (Finmap.mem_keys.mp inRight)
  rw [Finmap.keys_union, Finset.card_union_of_disjoint disjoint, leftCount, rightCount]

theorem mul_le_exactly
    {P Q : Assertion β}
    {first second : Nat}
    (left : P ≤ exactly first)
    (right : Q ≤ exactly second) :
    P * Q ≤ exactly (first + second) :=
  (mul_le_mul' left right).trans (exactly_mul_le first second)

theorem one_le_exactly : (1 : Assertion β) ≤ exactly 0 := by
  rintro heap rfl
  change (∅ : Heap β).keys.card = 0
  rw [Finmap.keys_empty, Finset.card_empty]

theorem pointsTo_le_exactly (address : Nat) (block : β) :
    pointsTo address block ≤ exactly 1 := by
  rintro heap rfl
  change (Finmap.singleton address block).keys.card = 1
  rw [Finmap.keys_singleton, Finset.card_singleton]

theorem pow_le_exactly {P : Assertion β} (single : P ≤ exactly 1) (count : Nat) :
    P ^ count ≤ exactly count := by
  induction count with
  | zero =>
      rw [pow_zero]
      exact one_le_exactly
  | succ count inductionHypothesis =>
      rw [pow_succ]
      exact mul_le_exactly inductionHypothesis single

theorem atLeast_left
    {P Q : Assertion β}
    {count : Nat}
    (owned : P ≤ atLeast count) :
    P * Q ≤ atLeast count := by
  rintro heap ⟨left, right, -, rfl, holds, -⟩
  have part : count ≤ left.keys.card := owned left holds
  change count ≤ (left ∪ right).keys.card
  rw [Finmap.keys_union]
  exact part.trans (Finset.card_le_card Finset.subset_union_left)

/-!
A rule about one part of what is owned needs that part and the rest.  Both are
found by instances, which search a product of assertions factor by factor.
-/

/-- `P` owns the block at the address and the rest. -/
class Focus
    (P : Assertion β)
    (address : Nat)
    (block : outParam β)
    (rest : outParam (Assertion β)) :
    Prop where
  eq : P = pointsTo address block * rest

/-- `P` owns `Q` and the rest. -/
class Splits (P Q : Assertion β) (rest : outParam (Assertion β)) : Prop where
  eq : P = Q * rest

namespace Focus

variable {P Q R : Assertion β} {address : Nat} {block : β}

instance alone : Focus (pointsTo address block) address block 1 where
  eq := (mul_one _).symm

instance left [focus : Focus P address block R] :
    Focus (P * Q) address block (R * Q) where
  eq := by rw [focus.eq, mul_assoc]

instance right [focus : Focus Q address block R] :
    Focus (P * Q) address block (P * R) where
  eq := by rw [focus.eq, mul_left_comm]

instance (priority := high) first :
    Focus (pointsTo address block * Q) address block Q where
  eq := rfl

instance (priority := high) second :
    Focus (Q * pointsTo address block) address block Q where
  eq := mul_comm _ _

theorem le_has [focus : Focus P address block R] : P ≤ has address block := by
  rw [focus.eq]
  exact pointsTo_mul_le_has address block R

end Focus

namespace Splits

variable {P P' Q Q' R R' : Assertion β}

instance alone : Splits P P 1 where
  eq := (mul_one P).symm

instance left [splits : Splits P Q R] : Splits (P * P') Q (R * P') where
  eq := by rw [splits.eq, mul_assoc]

instance right [splits : Splits P' Q R] : Splits (P * P') Q (P * R) where
  eq := by rw [splits.eq, mul_left_comm]

instance (priority := high) first : Splits (Q * R) Q R where
  eq := rfl

instance (priority := high) second : Splits (R * Q) Q R where
  eq := mul_comm R Q

instance nothing : Splits P 1 P where
  eq := (one_mul P).symm

instance (priority := low) pair [whole : Splits P Q R] [rest : Splits R Q' R'] :
    Splits P (Q * Q') R' where
  eq := by rw [whole.eq, rest.eq, mul_assoc]

theorem le [splits : Splits P Q R] : P ≤ Q * ⊤ := by
  rw [splits.eq]
  exact mul_le_mul_right le_top Q

end Splits

/-- What a part has, the whole has. -/
theorem has_of_owns
    {P Q : Assertion β}
    {address : Nat}
    {block : β}
    (owns : P ≤ Q * ⊤)
    (owned : Q ≤ has address block) :
    P ≤ has address block :=
  owns.trans (has_left owned)

/-- The whole has no fewer blocks than a part. -/
theorem atLeast_of_owns
    {P Q : Assertion β}
    {count : Nat}
    (owns : P ≤ Q * ⊤)
    (owned : Q ≤ exactly count) :
    P ≤ atLeast count :=
  owns.trans (atLeast_left fun heap holds => (owned heap holds).ge)

end CacheBench.SeparationHeap
