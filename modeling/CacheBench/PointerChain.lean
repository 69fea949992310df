import Mathlib.Data.List.Basic
import Mathlib.Data.List.Nodup
import Mathlib.Logic.Function.Basic
import Mathlib.Logic.Pairwise
import Mathlib.Tactic.Common

namespace CacheBench.PointerChain

/-!
# Chains of nodes in a heap

Singly linked nodes at addresses of a heap.  A chain follows the links from a
head to the null pointer and lists the addresses it visits, no address twice,
and the objects the nodes there hold.  Several chains share a heap if they
visit no address in common; a change to the nodes of one of them and to free
addresses leaves the others as they are.
-/

universe u v

/-- A node; `none` is the null pointer. -/
structure Node (α : Type u) where
  obj : α
  next : Option Nat

/-- The nodes that are allocated, by address. -/
abbrev Heap (α : Type u) := Nat → Option (Node α)

/-- The chain from a head, with its addresses and objects. -/
inductive Chain {α : Type u} (heap : Heap α) :
    Option Nat → List Nat → List α → Prop where
  | nil :
      Chain heap none [] []
  | cons
      {address : Nat}
      {obj : α}
      {next : Option Nat}
      {addresses : List Nat}
      {objects : List α}
      (present : heap address = some ⟨obj, next⟩)
      (fresh : address ∉ addresses)
      (rest : Chain heap next addresses objects) :
      Chain heap (some address) (address :: addresses) (obj :: objects)

namespace Chain

variable {α : Type u} {heap other : Heap α} {head : Option Nat}
variable {addresses : List Nat} {objects : List α}

theorem length_eq (chain : Chain heap head addresses objects) :
    addresses.length = objects.length := by
  induction chain with
  | nil => rfl
  | cons present fresh rest inductionHypothesis =>
      simp [inductionHypothesis]

/-- A chain visits allocated addresses. -/
theorem allocated
    (chain : Chain heap head addresses objects)
    {address : Nat}
    (visited : address ∈ addresses) :
    heap address ≠ none := by
  induction chain with
  | nil =>
      cases visited
  | cons present fresh rest inductionHypothesis =>
      rcases List.mem_cons.mp visited with rfl | later
      · simp [present]
      · exact inductionHypothesis later

/-- A chain depends on the nodes it visits. -/
theorem frame
    (chain : Chain heap head addresses objects)
    (same : ∀ address ∈ addresses, other address = heap address) :
    Chain other head addresses objects := by
  induction chain with
  | nil =>
      exact .nil
  | @cons address _ _ _ _ present fresh rest inductionHypothesis =>
      refine .cons ?_ fresh (inductionHypothesis ?_)
      · rw [same address List.mem_cons_self, present]
      · intro later visited
        exact same later (List.mem_cons_of_mem address visited)

/-- A change at an address that is not visited. -/
theorem update
    (chain : Chain heap head addresses objects)
    {address : Nat}
    (unvisited : address ∉ addresses)
    (node : Option (Node α)) :
    Chain (Function.update heap address node) head addresses objects := by
  apply chain.frame
  intro later visited
  apply Function.update_of_ne
  rintro rfl
  exact unvisited visited

/-- Linking a new node to the last one. -/
theorem concat
    (chain : Chain heap head addresses objects)
    {new last : Nat}
    {obj : α}
    {lastNode : Node α}
    (isNew : heap new = some ⟨obj, none⟩)
    (unvisited : new ∉ addresses)
    (isLast : addresses.getLast? = some last)
    (lastPresent : heap last = some lastNode) :
    Chain
      (Function.update heap last
        (some { lastNode with next := some new }))
      head (addresses ++ [new]) (objects ++ [obj]) := by
  induction chain with
  | nil =>
      cases isLast
  | @cons address first _ others _ present fresh rest inductionHypothesis =>
      obtain ⟨notHere, notLater⟩ :
          new ≠ address ∧ new ∉ others := by
        simpa using unvisited
      have stillFresh : address ∉ others ++ [new] := by
        simpa [fresh] using notHere.symm
      cases others with
      | nil =>
          obtain rfl : address = last := by
            simpa using isLast
          rw [present, Option.some.injEq] at lastPresent
          subst lastNode
          obtain rfl := List.length_eq_zero_iff.mp rest.length_eq.symm
          refine .cons (Function.update_self _ _ heap) stillFresh
            (.cons ?_ List.not_mem_nil .nil)
          rw [Function.update_of_ne notHere, isNew]
      | cons second later =>
          rw [List.getLast?_cons_cons] at isLast
          have different : address ≠ last := by
            rintro rfl
            exact fresh (List.mem_of_getLast? isLast)
          refine .cons ?_ stillFresh
            (inductionHypothesis notLater isLast)
          rw [Function.update_of_ne different, present]

/-- Unlinking the node after the first one. -/
theorem unlink
    {address current : Nat}
    {obj : α}
    {next : Option Nat}
    (fresh : address ∉ current :: addresses)
    (currentFresh : current ∉ addresses)
    (rest : Chain heap next addresses objects) :
    Chain
      (Function.update
        (Function.update heap address (some ⟨obj, next⟩)) current none)
      (some address) (address :: addresses) (obj :: objects) := by
  obtain ⟨different, unvisited⟩ :
      address ≠ current ∧ address ∉ addresses := by
    simpa using fresh
  have linked :
      Chain (Function.update heap address (some ⟨obj, next⟩))
        (some address) (address :: addresses) (obj :: objects) :=
    .cons (Function.update_self _ _ heap) unvisited
      (rest.update unvisited _)
  apply linked.update
  simpa [currentFresh] using different.symm

end Chain

/-! ## Chains that share a heap -/

/-- A chain that may be absent, which then visits nothing. -/
inductive Holds {α : Type u} (heap : Heap α) :
    Option (Option Nat) → List Nat → List α → Prop where
  | absent :
      Holds heap none [] []
  | present
      {head : Option Nat}
      {addresses : List Nat}
      {objects : List α}
      (chain : Chain heap head addresses objects) :
      Holds heap (some head) addresses objects

namespace Holds

variable {α : Type u} {heap other : Heap α}
variable {head : Option (Option Nat)}
variable {addresses : List Nat} {objects : List α}

theorem allocated
    (holds : Holds heap head addresses objects)
    {address : Nat}
    (visited : address ∈ addresses) :
    heap address ≠ none := by
  cases holds with
  | absent => cases visited
  | present chain => exact chain.allocated visited

theorem frame
    (holds : Holds heap head addresses objects)
    (same : ∀ address ∈ addresses, other address = heap address) :
    Holds other head addresses objects := by
  cases holds with
  | absent => exact .absent
  | present chain => exact .present (chain.frame same)

end Holds

/-- Chains of one heap that visit no address in common. -/
structure Chains
    {ι : Type v}
    {α : Type u}
    (heap : Heap α)
    (heads : ι → Option (Option Nat))
    (addresses : ι → List Nat)
    (objects : ι → List α) : Prop where
  holds : ∀ index, Holds heap (heads index) (addresses index) (objects index)
  disjoint :
    ∀ {first second}, first ≠ second →
      (addresses first).Disjoint (addresses second)

/-- The chain from a head that is present. -/
theorem Chains.chain
    {ι : Type v}
    {α : Type u}
    {heap : Heap α}
    {heads : ι → Option (Option Nat)}
    {addresses : ι → List Nat}
    {objects : ι → List α}
    (chains : Chains heap heads addresses objects)
    {index : ι}
    {head : Option Nat}
    (isHead : heads index = some head) :
    Chain heap head (addresses index) (objects index) := by
  have holds := chains.holds index
  rw [isHead] at holds
  cases holds with
  | present chain => exact chain

/--
The frame rule.  One chain is replaced, by one that visits nodes of the old one
and addresses that were free, and the nodes elsewhere are kept.
-/
theorem Chains.replace
    {ι : Type v}
    {α : Type u}
    [DecidableEq ι]
    {heap other : Heap α}
    {heads : ι → Option (Option Nat)}
    {addresses : ι → List Nat}
    {objects : ι → List α}
    (chains : Chains heap heads addresses objects)
    {index : ι}
    {newHead : Option (Option Nat)}
    {newAddresses : List Nat}
    {newObjects : List α}
    (holds : Holds other newHead newAddresses newObjects)
    (owned :
      ∀ address ∈ newAddresses,
        address ∈ addresses index ∨ heap address = none)
    (kept :
      ∀ address ∉ addresses index, heap address ≠ none →
        other address = heap address) :
    Chains other (Function.update heads index newHead)
      (Function.update addresses index newAddresses)
      (Function.update objects index newObjects) := by
  have apart {second : ι} (different : second ≠ index) :
      newAddresses.Disjoint (addresses second) := by
    intro address visited otherVisited
    rcases owned address visited with wasVisited | wasFree
    · exact chains.disjoint different otherVisited wasVisited
    · exact (chains.holds second).allocated otherVisited wasFree
  refine ⟨?_, ?_⟩
  · intro second
    by_cases same : second = index
    · subst second
      simpa only [Function.update_self] using holds
    · simp only [Function.update_of_ne same]
      apply (chains.holds second).frame
      intro address visited
      apply kept address
      · exact fun shared => chains.disjoint same visited shared
      · exact (chains.holds second).allocated visited
  · intro first second different
    by_cases isFirst : first = index
    · subst first
      rw [Function.update_self, Function.update_of_ne different.symm]
      exact apart different.symm
    · rw [Function.update_of_ne isFirst]
      by_cases isSecond : second = index
      · subst second
        rw [Function.update_self]
        exact List.disjoint_symm (apart isFirst)
      · rw [Function.update_of_ne isSecond]
        exact chains.disjoint different

end CacheBench.PointerChain
