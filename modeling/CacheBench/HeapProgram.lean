import CacheBench.SeparationHeap

namespace CacheBench.HeapProgram

open SeparationHeap

/-!
# Programs over a heap and what they compute

A program reads, writes, allocates and frees blocks.  It stops when it touches
an address that holds no block, or a block of another type, and it may end in a
fault of its own.  Where `malloc` puts a block is not up to the program: the
memory comes with the addresses `malloc` will answer with, and a run in which it
answers with an address in use is not one of a C program.

`Refines P program outcome Q` compares a program with a computation that knows
no memory.  Started where `P` holds, the program touches what `P` owns and what
it allocates itself, ends in the fault the computation ends in, or returns where
the computation does, with `Q` between the two results.  Everything else in the
heap is left alone, so that what is proved about a program holds in any larger
heap.
-/

/-- The heap, and the addresses `malloc` answers with, in order. -/
structure Memory (β : Type) where
  heap : Heap β
  supply : Nat → Nat
  used : Nat

/-- How a program can end without returning. -/
inductive Stop (φ : Type) where
  /-- It touched an address without a block, or a block of another type. -/
  | invalidAccess
  /-- `malloc` answered with the address of a block in use. -/
  | addressInUse
  /-- It ended in a fault of its own. -/
  | fault (fault : φ)

/-- A program over blocks with faults of its own. -/
abbrev Program (β φ : Type) :=
  StateT (Memory β) (Except (Stop φ))

section Operations

variable {β φ α : Type}

/-- Read a block. -/
def load (address : Nat) : Program β φ β := fun memory =>
  match memory.heap.lookup address with
  | some block => .ok (block, memory)
  | none => .error .invalidAccess

/-- Overwrite a block. -/
def store (address : Nat) (block : β) : Program β φ Unit := fun memory =>
  if address ∈ memory.heap then
    .ok ((), { memory with heap := memory.heap.insert address block })
  else
    .error .invalidAccess

/-- `malloc` answers with the given address. -/
def mallocAt (address : Nat) (block : β) : Program β φ Unit := fun memory =>
  if address ∈ memory.heap then
    .error .addressInUse
  else
    .ok ((), { memory with heap := memory.heap.insert address block })

/-- `malloc` answers with the next address of the supply. -/
def malloc (block : β) : Program β φ Nat := fun memory =>
  (mallocAt (memory.supply memory.used) block >>= fun _ =>
    pure (memory.supply memory.used))
    { memory with used := memory.used + 1 }

/-- Give a block back. -/
def free (address : Nat) : Program β φ Unit := fun memory =>
  if address ∈ memory.heap then
    .ok ((), { memory with heap := memory.heap.erase address })
  else
    .error .invalidAccess

/-- The number of blocks, a bound for walks that read each block once. -/
def countBlocks : Program β φ Nat := fun memory =>
  .ok (memory.heap.keys.card, memory)

/-- A block was not of the type the program takes it for. -/
def wrongBlock : Program β φ α := fun _ =>
  .error .invalidAccess

/-- A computation without memory. -/
def lift (outcome : Except φ α) : Program β φ α := fun memory =>
  match outcome with
  | .ok value => .ok (value, memory)
  | .error fault => .error (.fault fault)

/-- Read a block as one of a type. -/
def loadAs (view : β → Option α) (address : Nat) : Program β φ α := do
  let block ← load address
  match view block with
  | some value => pure value
  | none => wrongBlock

end Operations

section Judgements

variable {β φ α γ ρ σ : Type}

/-- How a program run in the frame `F` compares with a computation. -/
inductive Agrees
    (F : Assertion β)
    (outcome : Except φ α)
    (Q : α → ρ → Assertion β) :
    Except (Stop φ) (ρ × Memory β) → Prop where
  | addressInUse :
      Agrees F outcome Q (.error .addressInUse)
  | fault {fault : φ} (same : outcome = .error fault) :
      Agrees F outcome Q (.error (.fault fault))
  | returned
      {result : ρ}
      {after : Memory β}
      {value : α}
      (same : outcome = .ok value)
      (holds : (Q value result * F) after.heap) :
      Agrees F outcome Q (.ok (result, after))

/-- Started in `P`, the program computes the outcome and ends in `Q`. -/
def Refines
    (P : Assertion β)
    (program : Program β φ ρ)
    (outcome : Except φ α)
    (Q : α → ρ → Assertion β) :
    Prop :=
  ∀ (F : Assertion β) (memory : Memory β),
    (P * F) memory.heap → Agrees F outcome Q (program memory)

/-- The program returns `answer value` and ends in `Q value`. -/
def answers
    (answer : α → ρ)
    (Q : α → Assertion β)
    (value : α)
    (result : ρ) :
    Assertion β :=
  ⨆ _ : result = answer value, Q value

/-- Started in `P`, the program changes nothing and returns the result. -/
def Reads (P : Assertion β) (program : Program β φ ρ) (result : ρ) : Prop :=
  ∀ (F : Assertion β) (memory : Memory β),
    (P * F) memory.heap → program memory = .ok (result, memory)

theorem bind_apply
    (program : Program β φ ρ)
    (next : ρ → Program β φ σ)
    (memory : Memory β) :
    (program >>= next) memory =
      match program memory with
      | .ok (result, after) => next result after
      | .error stop => .error stop := by
  change (program memory >>= fun (result, after) => next result after) = _
  cases program memory <;> rfl

variable {P P' R : Assertion β} {program : Program β φ ρ} {next : ρ → Program β φ σ}
variable {outcome : Except φ α} {more : α → Except φ γ}
variable {Q Q' : α → ρ → Assertion β} {S : γ → σ → Assertion β}

namespace Reads

protected theorem pure (result : ρ) :
    Reads P (pure result : Program β φ ρ) result :=
  fun _ _ _ => rfl

theorem before
    {result : ρ}
    (entails : P' ≤ P)
    (reads : Reads P program result) :
    Reads P' program result :=
  fun F memory holds => reads F memory (mul_le_mul_left entails F _ holds)

/-- What is read in a part of the heap can be read in the whole. -/
theorem within
    {result : ρ}
    (reads : Reads P program result)
    (owns : P' ≤ P * ⊤) :
    Reads P' program result := by
  intro F memory holds
  have larger := mul_le_mul_left owns F _ holds
  rw [mul_assoc] at larger
  exact reads (⊤ * F) memory larger

theorem exists_before
    {ι : Sort*}
    {P : ι → Assertion β}
    {result : ρ}
    (each : ∀ i, Reads (P i) program result) :
    Reads (⨆ i, P i) program result := by
  intro F memory holds
  rw [Assertion.iSup_mul] at holds
  obtain ⟨i, held⟩ := Assertion.iSup_apply.mp holds
  exact each i F memory held

protected theorem bind
    {value : ρ}
    {result : σ}
    (first : Reads P program value)
    (second : Reads P (next value) result) :
    Reads P (program >>= next) result := by
  intro F memory holds
  rw [bind_apply, first F memory holds]
  exact second F memory holds

protected theorem load
    {address : Nat}
    {block : β}
    (owned : P ≤ has address block) :
    Reads P (load address : Program β φ β) block := by
  intro F memory holds
  have present : memory.heap.lookup address = some block :=
    has_left owned _ holds
  simp only [HeapProgram.load, present]

protected theorem loadAs
    {view : β → Option ρ}
    {address : Nat}
    {block : β}
    {value : ρ}
    (owned : P ≤ has address block)
    (seen : view block = some value) :
    Reads P (loadAs view address : Program β φ ρ) value := by
  refine (Reads.load owned).bind ?_
  simp only [seen]
  exact Reads.pure value

theorem loadAs_bind
    {view : β → Option ρ}
    {address : Nat}
    {block : β}
    {value : ρ}
    {result : σ}
    (owned : P ≤ has address block)
    (seen : view block = some value)
    (second : Reads P (next value) result) :
    Reads P (loadAs view address >>= next) result :=
  (Reads.loadAs owned seen).bind second

/-- A loop that reads something for each element of a list. -/
protected theorem mapM
    {ι : Type}
    {body : ι → Program β φ ρ}
    {value : ι → ρ}
    {items : List ι}
    (each : ∀ item ∈ items, Reads P (body item) (value item)) :
    Reads P (items.mapM body) (items.map value) := by
  induction items with
  | nil =>
      exact Reads.pure []
  | cons item rest inductionHypothesis =>
      rw [List.mapM_cons, List.map_cons]
      refine (each item (by simp)).bind ?_
      refine (inductionHypothesis fun other member => each other (by simp [member])).bind ?_
      exact Reads.pure _

/-- Nothing is claimed where no heap is. -/
theorem of_bot {result : ρ} : Reads ⊥ program result := by
  intro F memory holds
  rw [Quantale.bot_mul] at holds
  exact holds.elim

/-- A walk may take as many steps as blocks are owned. -/
protected theorem countBlocks
    {next : Nat → Program β φ σ}
    {result : σ}
    {count : Nat}
    (owned : P ≤ atLeast count)
    (rest : ∀ bound, count ≤ bound → Reads P (next bound) result) :
    Reads P (countBlocks >>= next) result := by
  intro F memory holds
  have enough : count ≤ memory.heap.keys.card :=
    atLeast_left owned _ holds
  rw [bind_apply]
  exact rest _ enough F memory holds

end Reads

namespace Refines

/-- Nothing but the parts of the heap the program owns matters. -/
theorem frame (correct : Refines P program outcome Q) (R : Assertion β) :
    Refines (P * R) program outcome fun value result => Q value result * R := by
  intro F memory holds
  rw [mul_assoc] at holds
  have agrees := correct (R * F) memory holds
  generalize program memory = ending at agrees
  cases agrees with
  | addressInUse => exact .addressInUse
  | fault same => exact .fault same
  | returned same after =>
      rw [← mul_assoc] at after
      exact .returned same after

theorem consequence
    (correct : Refines P program outcome Q)
    (before : P' ≤ P)
    (after : ∀ value result, Q value result ≤ Q' value result) :
    Refines P' program outcome Q' := by
  intro F memory holds
  have agrees := correct F memory (mul_le_mul_left before F _ holds)
  generalize program memory = ending at agrees
  cases agrees with
  | addressInUse => exact .addressInUse
  | fault same => exact .fault same
  | returned same held =>
      exact .returned same (mul_le_mul_left (after _ _) F _ held)

theorem before
    (entails : P' ≤ P)
    (correct : Refines P program outcome Q) :
    Refines P' program outcome Q :=
  correct.consequence entails fun _ _ => le_rfl

/-- What is owned, as the assertion that the rest of the proof is about. -/
theorem through
    (middle : Assertion β)
    (entails : P ≤ middle)
    (correct : Refines middle program outcome Q) :
    Refines P program outcome Q :=
  correct.before entails

/-- An existential, or a fact, before a program is a variable of the proof. -/
theorem exists_before
    {ι : Sort*}
    {P : ι → Assertion β}
    (each : ∀ i, Refines (P i) program outcome Q) :
    Refines (⨆ i, P i) program outcome Q := by
  intro F memory holds
  rw [Assertion.iSup_mul] at holds
  obtain ⟨i, held⟩ := Assertion.iSup_apply.mp holds
  exact each i F memory held

/-- Nothing is claimed where no heap is. -/
theorem of_bot : Refines ⊥ program outcome Q := by
  intro F memory holds
  rw [Quantale.bot_mul] at holds
  exact holds.elim

protected theorem pure
    {value : α}
    {result : ρ}
    (entails : P ≤ Q value result) :
    Refines P (pure result : Program β φ ρ) (.ok value) Q :=
  fun F _ holds => .returned rfl (mul_le_mul_left entails F _ holds)

/-- A program that returns returns an answer. -/
theorem pure_answers
    {value : α}
    {answer : α → ρ}
    {result : ρ}
    {Q : α → Assertion β}
    (same : result = answer value)
    (entails : P ≤ Q value) :
    Refines P (pure result : Program β φ ρ) (.ok value) (answers answer Q) :=
  Refines.pure (entails.trans (le_iSup_of_le same le_rfl))

/-- A program in sequence refines a computation in sequence. -/
protected theorem bind
    (first : Refines P program outcome Q)
    (second : ∀ value result, outcome = .ok value →
      Refines (Q value result) (next result) (more value) S) :
    Refines P (program >>= next) (outcome >>= more) S := by
  intro F memory holds
  have agrees := first F memory holds
  rw [bind_apply]
  generalize program memory = ending at agrees
  cases agrees with
  | addressInUse =>
      exact .addressInUse
  | fault same =>
      subst same
      exact .fault rfl
  | returned same held =>
      subst same
      exact second _ _ rfl F _ held

/-- A call that has no counterpart in the computation, of all that is owned. -/
theorem stepAll
    {value : α}
    {ending : Except φ γ}
    (first : Refines P program (.ok value) Q)
    (second : ∀ result, Refines (Q value result) (next result) ending S) :
    Refines P (program >>= next) ending S := by
  change Refines P (program >>= next)
    ((Except.ok value : Except φ α) >>= fun _ => ending) S
  refine first.bind fun other result same => ?_
  obtain rfl : value = other := Except.ok.inj same
  exact second result

/-- A call that has no counterpart in the computation. -/
theorem step
    {value : α}
    {ending : Except φ γ}
    (first : Refines P program (.ok value) Q)
    [splits : Splits P' P R]
    (second : ∀ result, Refines (Q value result * R) (next result) ending S) :
    Refines P' (program >>= next) ending S := by
  rw [splits.eq]
  exact (first.frame R).stepAll second

/-- A call, of all that is owned, whose result is the one of the computation. -/
theorem answerAll
    {result : α → ρ}
    {Q : α → Assertion β}
    (first : Refines P program outcome (answers result Q))
    (second : ∀ value, outcome = .ok value →
      Refines (Q value) (next (result value)) (more value) S) :
    Refines P (program >>= next) (outcome >>= more) S := by
  refine first.bind fun value answer returned => ?_
  refine Refines.exists_before fun same => ?_
  subst same
  exact second value returned

/-- A call whose result is the one of the computation. -/
theorem answer
    {result : α → ρ}
    {Q : α → Assertion β}
    (first : Refines P program outcome (answers result Q))
    [splits : Splits P' P R]
    (second : ∀ value, outcome = .ok value →
      Refines (Q value * R) (next (result value)) (more value) S) :
    Refines P' (program >>= next) (outcome >>= more) S := by
  rw [splits.eq]
  refine answerAll ((first.frame R).consequence le_rfl fun value answer => ?_) second
  rw [answers, Assertion.iSup_mul]
  exact le_rfl

/-- A call that ends a program as it ends the computation. -/
theorem finish
    {result : α → ρ}
    {Q : α → Assertion β}
    (first : Refines P program outcome (answers result Q))
    [splits : Splits P' P R]
    {S : α → ρ → Assertion β}
    (after : ∀ value, Q value * R ≤ S value (result value)) :
    Refines P' program outcome S := by
  rw [splits.eq]
  refine (first.frame R).consequence le_rfl fun value answer => ?_
  rw [answers, Assertion.iSup_mul]
  refine iSup_le fun same => ?_
  subst same
  exact after value

/-- The last call of a program, for the rules about a call and what follows. -/
theorem last
    (correct : Refines P (program >>= pure) outcome Q) :
    Refines P program outcome Q := by
  rwa [bind_pure] at correct

section Rules

variable {ending : Except φ γ}

theorem read
    {value : ρ}
    (first : Reads P program value)
    (second : Refines P (next value) ending S) :
    Refines P (program >>= next) ending S := by
  intro F memory holds
  rw [bind_apply, first F memory holds]
  exact second F memory holds

protected theorem loadAs
    {view : β → Option ρ}
    {address : Nat}
    {block : β}
    {value : ρ}
    (owned : P ≤ has address block)
    (seen : view block = some value)
    (second : Refines P (next value) ending S) :
    Refines P (loadAs view address >>= next) ending S :=
  Refines.read (Reads.loadAs owned seen) second

/-- A computation without memory is the same one on both sides. -/
protected theorem lift
    {outcome : Except φ ρ}
    {more : ρ → Except φ γ}
    (second : ∀ value, outcome = .ok value →
      Refines P (next value) (more value) S) :
    Refines P (lift outcome >>= next) (outcome >>= more) S := by
  intro F memory holds
  rw [bind_apply]
  cases outcome with
  | error fault => exact .fault rfl
  | ok value => exact second value rfl F memory holds

/-- A fault ends the program and the computation. -/
theorem fault
    {fault : φ} :
    Refines P (lift (.error fault) : Program β φ ρ) (.error fault) Q :=
  fun _ _ _ => .fault rfl

protected theorem store
    {next : Unit → Program β φ σ}
    {address : Nat}
    {old new : β}
    [focus : Focus P address old R]
    (second : Refines (pointsTo address new * R) (next ()) ending S) :
    Refines P (store address new >>= next) ending S := by
  intro F memory holds
  rw [focus.eq, mul_assoc] at holds
  obtain ⟨rest, fresh, split, held⟩ := pointsTo_mul_apply.mp holds
  have present : address ∈ memory.heap := by
    rw [split, Finmap.mem_union, Finmap.mem_singleton]
    exact .inl rfl
  rw [bind_apply]
  simp only [HeapProgram.store, if_pos present]
  apply second F
  rw [mul_assoc]
  refine pointsTo_mul_apply.mpr ⟨rest, fresh, ?_, held⟩
  change memory.heap.insert address new = _
  rw [split, Finmap.insert_union, Finmap.insert_singleton_eq]

protected theorem mallocAt
    {next : Unit → Program β φ σ}
    {address : Nat}
    {block : β}
    (second : Refines (pointsTo address block * P) (next ()) ending S) :
    Refines P (mallocAt address block >>= next) ending S := by
  intro F memory holds
  rw [bind_apply]
  by_cases taken : address ∈ memory.heap
  · simp only [HeapProgram.mallocAt, if_pos taken]
    exact .addressInUse
  · simp only [HeapProgram.mallocAt, if_neg taken]
    apply second F
    rw [mul_assoc]
    refine pointsTo_mul_apply.mpr ⟨memory.heap, taken, ?_, holds⟩
    change memory.heap.insert address block = _
    rw [← @Finmap.empty_union _ _ _ memory.heap, Finmap.insert_union,
      Finmap.empty_union]
    rfl

protected theorem malloc
    {next : Nat → Program β φ σ}
    {block : β}
    (second : ∀ address,
      Refines (pointsTo address block * P) (next address) ending S) :
    Refines P (malloc block >>= next) ending S := by
  intro F memory holds
  have placed :
      Refines P
        (mallocAt (memory.supply memory.used) block >>= fun _ =>
          next (memory.supply memory.used))
        ending S :=
    Refines.mallocAt (second _)
  have agrees := placed F { memory with used := memory.used + 1 } holds
  rw [bind_apply] at agrees
  rw [bind_apply, HeapProgram.malloc, bind_apply]
  -- After the allocation both sides run `next` at the address.
  revert agrees
  rcases mallocAt (memory.supply memory.used) block
    { memory with used := memory.used + 1 } with stop | ⟨_, after⟩ <;> exact id

protected theorem free
    {next : Unit → Program β φ σ}
    {address : Nat}
    {block : β}
    [focus : Focus P address block R]
    (second : Refines R (next ()) ending S) :
    Refines P (free address >>= next) ending S := by
  intro F memory holds
  rw [focus.eq, mul_assoc] at holds
  obtain ⟨rest, fresh, split, held⟩ := pointsTo_mul_apply.mp holds
  have present : address ∈ memory.heap := by
    rw [split, Finmap.mem_union, Finmap.mem_singleton]
    exact .inl rfl
  rw [bind_apply]
  simp only [HeapProgram.free, if_pos present]
  apply second F
  have left : memory.heap.erase address = rest := by
    refine Finmap.ext_lookup fun other => ?_
    by_cases same : other = address
    · subst same
      rw [Finmap.lookup_erase, Finmap.lookup_eq_none.mpr fresh]
    · rw [Finmap.lookup_erase_ne same, split, Finmap.lookup_union_right]
      rwa [Finmap.mem_singleton]
  change (R * F) (memory.heap.erase address)
  rwa [left]

/-- A walk may take as many steps as blocks are owned. -/
protected theorem countBlocks
    {next : Nat → Program β φ σ}
    {count : Nat}
    (owned : P ≤ atLeast count)
    (rest : ∀ bound, count ≤ bound → Refines P (next bound) ending S) :
    Refines P (countBlocks >>= next) ending S := by
  intro F memory holds
  have enough : count ≤ memory.heap.keys.card :=
    atLeast_left owned _ holds
  rw [bind_apply]
  exact rest _ enough F memory holds

end Rules

end Refines

end Judgements

end CacheBench.HeapProgram
