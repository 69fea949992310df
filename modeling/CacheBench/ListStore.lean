import CacheBench.Execution
import CacheBench.PointerChain
import CacheBench.Slab

namespace CacheBench

open Execution PointerChain

/-!
# The nodes of `tools/list.c`

The rest of the development takes a list of `tools/list.c` to be the sequence
of its objects.  Here are the functions on nodes and pointers, in a store that
several lists share, and the proof that they act on sequences as `llAppend`,
`llFind` and `llDelete` do.

`malloc` and `free` are not part of the program: the address of a new node is
an argument, and a node that is freed is no longer there to be read.  A loop is
given a number of rounds and is `endless` if these do not suffice.

The objects, the comparison and `destroy` are those of any caller, and none of
them touches the nodes: this is `list.c` for whoever uses it.  `cache.c` keeps its
objects in the heap of the nodes; its lists are in `HeapLists`.
-/

/-- `struct linked_list`. -/
structure LinkedList (α β δ : Type) where
  head : Option Nat
  eq : α → β → Bool
  destroy : δ

/-- The nodes and lists that are allocated, and the calls to `destroy`. -/
structure ListStore (α β δ : Type) where
  nodes : Heap α
  lists : Nat → Option (LinkedList α β δ)
  destroyed : List (δ × α)

namespace ListStore

variable {α β δ : Type}

/-- Read a node. -/
def node (store : ListStore α β δ) (address : Nat) : Outcome (Node α) :=
  match store.nodes address with
  | none => .error .outOfBounds
  | some node => .ok node

/-- Read a list. -/
def list (store : ListStore α β δ) (ll : Nat) :
    Outcome (LinkedList α β δ) :=
  match store.lists ll with
  | none => .error .outOfBounds
  | some list => .ok list

/-- Write a node, or give its memory back. -/
def setNode
    (store : ListStore α β δ)
    (address : Nat)
    (node : Option (Node α)) :
    ListStore α β δ :=
  { store with nodes := Function.update store.nodes address node }

/-- Write a list, or give its memory back. -/
def setList
    (store : ListStore α β δ)
    (ll : Nat)
    (list : Option (LinkedList α β δ)) :
    ListStore α β δ :=
  { store with lists := Function.update store.lists ll list }

/-- Call the `destroy` of a list. -/
def callDestroy
    (store : ListStore α β δ)
    (destroy : δ)
    (obj : α) :
    ListStore α β δ :=
  { store with destroyed := store.destroyed ++ [(destroy, obj)] }

/-- Create a list that `malloc` put at `ll`. -/
def llCreate
    (store : ListStore α β δ)
    (eq : α → β → Bool)
    (destroy : δ)
    (ll : Nat) :
    ListStore α β δ :=
  store.setList ll (some { head := none, eq := eq, destroy := destroy })

/-- The traversal of `LL_append`: the last node, or nothing if there is none. -/
def lastNode
    (store : ListStore α β δ) :
    (rounds : Nat) → (prev current : Option Nat) → Outcome (Option Nat)
  | 0, _, _ => .error .endless
  | _ + 1, prev, none => .ok prev
  | rounds + 1, _, some current => do
      let node ← store.node current
      lastNode store rounds (some current) node.next

/-- Append an object in a node that `malloc` put at `new`. -/
def llAppend
    (rounds : Nat)
    (store : ListStore α β δ)
    (ll : Nat)
    (obj : α)
    (new : Nat) :
    Outcome (ListStore α β δ) := do
  let store := store.setNode new (some { obj := obj, next := none })
  let list ← store.list ll
  match ← store.lastNode rounds none list.head with
  | none =>
      .ok (store.setList ll (some { list with head := some new }))
  | some prev => do
      let node ← store.node prev
      .ok (store.setNode prev (some { node with next := some new }))

/-- The loop of `LL_find`. -/
def findFrom
    (store : ListStore α β δ)
    (eq : α → β → Bool)
    (obj : β) :
    (rounds : Nat) → (current : Option Nat) → Outcome (Option α)
  | 0, _ => .error .endless
  | _ + 1, none => .ok none
  | rounds + 1, some current => do
      let node ← store.node current
      if eq node.obj obj then
        .ok (some node.obj)
      else
        findFrom store eq obj rounds node.next

/-- The first object in the list that equals the given one. -/
def llFind
    (rounds : Nat)
    (store : ListStore α β δ)
    (ll : Nat)
    (obj : β) :
    Outcome (Option α) := do
  let list ← store.list ll
  store.findFrom list.eq obj rounds list.head

/--
The loop of `LL_delete`, which looks at the node after `current`.  It leaves
through a return; the message after the loop is not reached from a node.
-/
def deleteFrom
    (store : ListStore α β δ)
    (list : LinkedList α β δ)
    (obj : β) :
    (rounds : Nat) → (current : Option Nat) → Outcome (ListStore α β δ)
  | 0, _ => .error .endless
  | _ + 1, none => .ok store
  | rounds + 1, some previous => do
      let previousNode ← store.node previous
      match previousNode.next with
      | none => .ok store
      | some current => do
          let node ← store.node current
          if list.eq node.obj obj then
            .ok
              (((store.setNode previous
                  (some { previousNode with next := node.next })).callDestroy
                list.destroy node.obj).setNode current none)
          else
            deleteFrom store list obj rounds (some current)

/-- Delete the first object that equals the given one. -/
def llDelete
    (rounds : Nat)
    (store : ListStore α β δ)
    (ll : Nat)
    (obj : β) :
    Outcome (ListStore α β δ) := do
  let list ← store.list ll
  match list.head with
  | none => .ok store
  | some current => do
      let node ← store.node current
      if list.eq node.obj obj then
        .ok
          (((store.setList ll (some { list with head := node.next })).callDestroy
            list.destroy node.obj).setNode current none)
      else
        store.deleteFrom list obj rounds (some current)

/-- The loop of `LL_destroy`. -/
def destroyFrom
    (destroy : δ) :
    (rounds : Nat) → ListStore α β δ → (current : Option Nat) →
      Outcome (ListStore α β δ)
  | 0, _, _ => .error .endless
  | _ + 1, store, none => .ok store
  | rounds + 1, store, some current => do
      let node ← store.node current
      destroyFrom destroy rounds
        ((store.callDestroy destroy node.obj).setNode current none)
        node.next

/-- Destroy every object and free the list. -/
def llDestroy
    (rounds : Nat)
    (store : ListStore α β δ)
    (ll : Nat) :
    Outcome (ListStore α β δ) := do
  let list ← store.list ll
  let store ← destroyFrom list.destroy rounds store list.head
  .ok (store.setList ll none)

/-! ## The loops on a chain -/

section Loops

variable {store : ListStore α β δ} {current : Option Nat}
variable {addresses : List Nat} {objects : List α} {rounds : Nat}

theorem node_eq_ok
    {address : Nat}
    {node : Node α}
    (present : store.nodes address = some node) :
    store.node address = .ok node := by
  rw [ListStore.node, present]

theorem list_eq_ok
    {ll : Nat}
    {list : LinkedList α β δ}
    (present : store.lists ll = some list) :
    store.list ll = .ok list := by
  rw [ListStore.list, present]

/-- There is a round for the test that ends a loop. -/
theorem exists_fewer
    {length : Nat}
    (enough : length < rounds) :
    ∃ fewer, rounds = fewer + 1 :=
  Nat.exists_eq_add_one_of_ne_zero (Nat.ne_zero_of_lt enough)

/-- The traversal ends at the last address of the chain. -/
theorem lastNode_of_chain
    (chain : Chain store.nodes current addresses objects)
    (enough : addresses.length < rounds)
    (prev : Option Nat) :
    store.lastNode rounds prev current =
      .ok (addresses.getLast?.or prev) := by
  induction chain generalizing rounds prev with
  | nil =>
      obtain ⟨fewer, rfl⟩ := exists_fewer enough
      rfl
  | @cons address _ _ others _ present _ _ inductionHypothesis =>
      obtain ⟨fewer, rfl⟩ := exists_fewer enough
      rw [lastNode, node_eq_ok present]
      simp only [bind, Except.bind]
      rw [inductionHypothesis (Nat.succ_lt_succ_iff.mp enough)]
      cases others with
      | nil =>
          rfl
      | cons second later =>
          rw [List.getLast?_cons_cons,
            List.getLast?_eq_some_getLast (List.cons_ne_nil second later)]
          rfl

/-- The search returns the first object that matches. -/
theorem findFrom_of_chain
    (chain : Chain store.nodes current addresses objects)
    (enough : addresses.length < rounds)
    (eq : α → β → Bool)
    (obj : β) :
    store.findFrom eq obj rounds current =
      .ok (CacheBench.llFind eq objects obj) := by
  induction chain generalizing rounds with
  | nil =>
      obtain ⟨fewer, rfl⟩ := exists_fewer enough
      rfl
  | @cons _ first _ _ _ present _ _ inductionHypothesis =>
      obtain ⟨fewer, rfl⟩ := exists_fewer enough
      rw [findFrom, node_eq_ok present]
      simp only [bind, Except.bind]
      rw [inductionHypothesis (Nat.succ_lt_succ_iff.mp enough),
        llFind_cons]
      split <;> rfl

/-- The calls to `destroy` for an object that is deleted, if one is. -/
def deleteCalls
    (list : LinkedList α β δ)
    (objects : List α)
    (obj : β) :
    List (δ × α) :=
  (CacheBench.llFind list.eq objects obj).toList.map
    (Prod.mk list.destroy)

theorem deleteCalls_cons
    (list : LinkedList α β δ)
    (first : α)
    (rest : List α)
    (obj : β) :
    deleteCalls list (first :: rest) obj =
      if list.eq first obj then
        [(list.destroy, first)]
      else
        deleteCalls list rest obj := by
  rw [deleteCalls, llFind_cons]
  split <;> rfl

/-- What deleting an object does to the chain it is in. -/
structure DeletedFrom
    (store : ListStore α β δ)
    (list : LinkedList α β δ)
    (obj : β)
    (addresses : List Nat)
    (objects : List α)
    (head : Option Nat)
    (after : ListStore α β δ) : Prop where
  chain :
    ∃ remaining,
      remaining ⊆ addresses ∧
        Chain after.nodes head remaining
          (CacheBench.llDelete list.eq objects obj)
  kept :
    ∀ address ∉ addresses, after.nodes address = store.nodes address
  destroyed :
    after.destroyed = store.destroyed ++ deleteCalls list objects obj

/-- A node that does not match stays before what the loop goes on with. -/
theorem DeletedFrom.cons
    {list : LinkedList α β δ}
    {obj : β}
    {previous : Nat}
    {first : α}
    {after : ListStore α β δ}
    (present : store.nodes previous = some ⟨first, current⟩)
    (fresh : previous ∉ addresses)
    (different : list.eq first obj = false)
    (deleted :
      DeletedFrom store list obj addresses objects current after) :
    DeletedFrom store list obj (previous :: addresses)
      (first :: objects) (some previous) after := by
  obtain ⟨remaining, subset, chain⟩ := deleted.chain
  refine ⟨⟨previous :: remaining, ?_, ?_⟩, ?_, ?_⟩
  · exact List.cons_subset_cons previous subset
  · rw [llDelete_cons, different]
    refine .cons ?_ (fun visited => fresh (subset visited)) chain
    rw [deleted.kept previous fresh, present]
  · intro address unvisited
    exact deleted.kept address
      (fun visited => unvisited (List.mem_cons_of_mem previous visited))
  · rw [deleted.destroyed, deleteCalls_cons, different]
    rfl

/--
The loop of `LL_delete` at a node that does not match.  The induction is on the
chain after that node.
-/
theorem deleteFrom_of_chain
    {list : LinkedList α β δ}
    {obj : β}
    {previous : Nat}
    {first : α}
    (present : store.nodes previous = some ⟨first, current⟩)
    (fresh : previous ∉ addresses)
    (different : list.eq first obj = false)
    (rest : Chain store.nodes current addresses objects) :
    ∃ after,
      (∀ rounds, addresses.length < rounds →
        store.deleteFrom list obj rounds (some previous) = .ok after) ∧
        after.lists = store.lists ∧
        DeletedFrom store list obj (previous :: addresses)
          (first :: objects) (some previous) after := by
  induction rest generalizing previous first with
  | nil =>
      refine ⟨store, ?_, rfl, .cons present fresh different
        ⟨⟨[], List.Subset.refl [], .nil⟩, fun _ _ => rfl, ?_⟩⟩
      · intro rounds enough
        obtain ⟨fewer, rfl⟩ := exists_fewer enough
        rw [deleteFrom, node_eq_ok present]
        rfl
      · exact (List.append_nil _).symm
  | @cons found second next others later atFound foundFresh chain
      inductionHypothesis =>
      by_cases isEqual : list.eq second obj = true
      · refine ⟨((store.setNode previous (some ⟨first, next⟩)).callDestroy
            list.destroy second).setNode found none, ?_, rfl,
          ⟨⟨previous :: others, ?_, ?_⟩, ?_, ?_⟩⟩
        · intro rounds enough
          obtain ⟨fewer, rfl⟩ := exists_fewer enough
          rw [deleteFrom, node_eq_ok present]
          simp only [bind, Except.bind, node_eq_ok atFound]
          rw [if_pos isEqual]
        · exact List.cons_subset_cons previous
            (List.subset_cons_self found others)
        · rw [llDelete_cons, different, llDelete_cons, isEqual]
          exact .unlink fresh foundFresh chain
        · intro address unvisited
          obtain ⟨notPrevious, notFound, -⟩ :
              address ≠ previous ∧ address ≠ found ∧ address ∉ others := by
            simpa using unvisited
          exact (Function.update_of_ne notFound _ _).trans
            (Function.update_of_ne notPrevious _ _)
        · rw [deleteCalls_cons, different, deleteCalls_cons, isEqual]
          rfl
      · obtain ⟨after, returned, sameLists, deleted⟩ :=
          inductionHypothesis atFound foundFresh
            (Bool.eq_false_iff.mpr isEqual)
        refine ⟨after, ?_, sameLists, .cons present fresh different deleted⟩
        intro rounds enough
        obtain ⟨fewer, rfl⟩ := exists_fewer enough
        rw [deleteFrom, node_eq_ok present]
        simp only [bind, Except.bind, node_eq_ok atFound]
        rw [if_neg isEqual]
        exact returned fewer (Nat.succ_lt_succ_iff.mp enough)

end Loops

/-! ## Lists and sequences -/

/-- The heads of the lists that are allocated. -/
def heads (store : ListStore α β δ) (ll : Nat) : Option (Option Nat) :=
  (store.lists ll).map LinkedList.head

/-- The functions each list was created with. -/
def functions
    (store : ListStore α β δ)
    (ll : Nat) :
    Option ((α → β → Bool) × δ) :=
  (store.lists ll).map fun list => (list.eq, list.destroy)

/-- The lists are disjoint chains that hold the given sequences. -/
def Represents
    (store : ListStore α β δ)
    (contents : Nat → List α) : Prop :=
  ∃ addresses, Chains store.nodes store.heads addresses contents

/-- One list holds another sequence, and objects were destroyed. -/
structure Changed
    (store : ListStore α β δ)
    (contents : Nat → List α)
    (ll : Nat)
    (objects : List α)
    (calls : List (δ × α))
    (after : ListStore α β δ) : Prop where
  represents : after.Represents (Function.update contents ll objects)
  functions : after.functions = store.functions
  destroyed : after.destroyed = store.destroyed ++ calls

section Operations

variable {store after : ListStore α β δ} {contents : Nat → List α}
variable {addresses : Nat → List Nat} {ll : Nat}
variable {list : LinkedList α β δ}

/-- Writing a list writes its head. -/
theorem heads_of_lists
    {newList : Option (LinkedList α β δ)}
    (lists : after.lists = Function.update store.lists ll newList) :
    after.heads =
      Function.update store.heads ll (newList.map LinkedList.head) := by
  funext other
  by_cases same : other = ll
  · subst other
    simp [heads, lists]
  · simp [heads, lists, same]

/-- The chain of a list. -/
theorem chain_of_list
    (chains : Chains store.nodes store.heads addresses contents)
    (isList : store.lists ll = some list) :
    Chain store.nodes list.head (addresses ll) (contents ll) := by
  apply chains.chain
  rw [heads, isList]
  rfl

/-- A list that is written back is the list it was. -/
theorem lists_eq_update (isList : store.lists ll = some list) :
    store.lists =
      Function.update store.lists ll
        (some { list with head := list.head }) := by
  rw [← isList, Function.update_eq_self]

/--
The frame rule for a call that links nodes of one list and free ones to a chain
and assigns its head to the list.
-/
theorem changed_of_chain
    (chains : Chains store.nodes store.heads addresses contents)
    (isList : store.lists ll = some list)
    {head : Option Nat}
    (lists :
      after.lists =
        Function.update store.lists ll (some { list with head := head }))
    {newAddresses : List Nat}
    {newObjects : List α}
    (chain : Chain after.nodes head newAddresses newObjects)
    (owned :
      ∀ address ∈ newAddresses,
        address ∈ addresses ll ∨ store.nodes address = none)
    (kept :
      ∀ address ∉ addresses ll, store.nodes address ≠ none →
        after.nodes address = store.nodes address)
    {calls : List (δ × α)}
    (destroyed : after.destroyed = store.destroyed ++ calls) :
    store.Changed contents ll newObjects calls after := by
  have sameFunctions : after.functions = store.functions := by
    funext other
    by_cases same : other = ll
    · subst other
      simp [functions, lists, isList]
    · simp [functions, lists, same]
  refine ⟨⟨Function.update addresses ll newAddresses, ?_⟩, sameFunctions,
    destroyed⟩
  rw [heads_of_lists lists]
  exact chains.replace (.present chain) owned kept

/-- The node with the object is linked to the last one, if there is one. -/
theorem llAppend_eq
    {visited : List Nat}
    {objects : List α}
    (chain : Chain store.nodes list.head visited objects)
    (isList : store.lists ll = some list)
    (obj : α)
    {new rounds : Nat}
    (unvisited : new ∉ visited)
    (enough : objects.length < rounds) :
    llAppend rounds store ll obj new =
      let allocated := store.setNode new (some { obj := obj, next := none })
      match visited.getLast? with
      | none =>
          .ok (allocated.setList ll (some { list with head := some new }))
      | some prev =>
          allocated.node prev >>= fun node =>
            .ok (allocated.setNode prev
              (some { node with next := some new })) := by
  have stillList :
      (store.setNode new (some ⟨obj, none⟩)).list ll = .ok list :=
    list_eq_ok isList
  have newChain :
      Chain (store.setNode new (some ⟨obj, none⟩)).nodes list.head visited
        objects :=
    chain.update unvisited _
  rw [← chain.length_eq] at enough
  simp only [llAppend, stillList, lastNode_of_chain newChain enough,
    Option.or_none, bind, Except.bind]

/-- Appending to a list. -/
theorem llAppend_changed
    (represents : store.Represents contents)
    (isList : store.lists ll = some list)
    (obj : α)
    {new : Nat}
    (isFree : store.nodes new = none) :
    ∃ after,
      (∀ rounds, (contents ll).length < rounds →
        llAppend rounds store ll obj new = .ok after) ∧
        store.Changed contents ll (CacheBench.llAppend (contents ll) obj)
          [] after := by
  obtain ⟨addresses, chains⟩ := represents
  have chain := chain_of_list chains isList
  have unvisited : new ∉ addresses ll :=
    fun visited => chain.allocated visited isFree
  have returned {rounds : Nat} (enough : (contents ll).length < rounds) :=
    llAppend_eq chain isList obj unvisited enough
  have isNew :
      (store.setNode new (some ⟨obj, none⟩)).nodes new =
        some ⟨obj, none⟩ :=
    Function.update_self _ _ _
  have elsewhere {address : Nat} (wasThere : store.nodes address ≠ none) :
      (store.setNode new (some ⟨obj, none⟩)).nodes address =
        store.nodes address := by
    apply Function.update_of_ne
    rintro rfl
    exact wasThere isFree
  cases isLast : (addresses ll).getLast? with
  | none =>
      rw [isLast] at returned
      have noObject : contents ll = [] := by
        rw [← List.length_eq_zero_iff, ← chain.length_eq,
          List.getLast?_eq_none_iff.mp isLast]
        rfl
      refine ⟨_, fun rounds enough => returned enough, ?_⟩
      rw [CacheBench.llAppend, noObject, List.nil_append]
      apply changed_of_chain chains isList
      case lists => rfl
      case chain => exact .cons isNew List.not_mem_nil .nil
      case owned =>
        intro address visited
        rw [List.mem_singleton.mp visited]
        exact Or.inr isFree
      case kept => exact fun _ _ wasThere => elsewhere wasThere
      case destroyed => exact (List.append_nil _).symm
  | some last =>
      rw [isLast] at returned
      have lastVisited := List.mem_of_getLast? isLast
      obtain ⟨lastNode, lastPresent⟩ :=
        Option.ne_none_iff_exists'.mp (chain.allocated lastVisited)
      rw [← elsewhere (chain.allocated lastVisited)] at lastPresent
      dsimp only at returned
      rw [node_eq_ok lastPresent] at returned
      refine ⟨_, fun rounds enough => returned enough, ?_⟩
      apply changed_of_chain chains isList
      case lists => exact lists_eq_update isList
      case chain =>
        exact (chain.update unvisited _).concat isNew unvisited isLast
          lastPresent
      case owned =>
        intro address visited
        rcases List.mem_append.mp visited with wasVisited | isLastOne
        · exact Or.inl wasVisited
        · rw [List.mem_singleton.mp isLastOne]
          exact Or.inr isFree
      case kept =>
        intro address unvisitedBefore wasThere
        have notLast : address ≠ last := by
          rintro rfl
          exact unvisitedBefore lastVisited
        exact (Function.update_of_ne notLast _ _).trans
          (elsewhere wasThere)
      case destroyed => exact (List.append_nil _).symm

/-- Searching a list. -/
theorem llFind_returns
    (represents : store.Represents contents)
    (isList : store.lists ll = some list)
    (obj : β)
    {rounds : Nat}
    (enough : (contents ll).length < rounds) :
    llFind rounds store ll obj =
      .ok (CacheBench.llFind list.eq (contents ll) obj) := by
  obtain ⟨addresses, chains⟩ := represents
  have chain := chain_of_list chains isList
  rw [← chain.length_eq] at enough
  simp only [llFind, list_eq_ok isList, bind, Except.bind]
  exact findFrom_of_chain chain enough list.eq obj

/-- Deleting from a list. -/
theorem llDelete_changed
    (represents : store.Represents contents)
    (isList : store.lists ll = some list)
    (obj : β) :
    ∃ after,
      (∀ rounds, (contents ll).length < rounds →
        llDelete rounds store ll obj = .ok after) ∧
        store.Changed contents ll
          (CacheBench.llDelete list.eq (contents ll) obj)
          (deleteCalls list (contents ll) obj) after := by
  obtain ⟨addresses, chains⟩ := represents
  have chain := chain_of_list chains isList
  -- What the paths of `LL_delete` have in common.
  have changed {after : ListStore α β δ} {head : Option Nat}
      (lists :
        after.lists =
          Function.update store.lists ll (some { list with head := head }))
      (deleted :
        DeletedFrom store list obj (addresses ll) (contents ll) head
          after) :
      store.Changed contents ll
        (CacheBench.llDelete list.eq (contents ll) obj)
        (deleteCalls list (contents ll) obj) after := by
    obtain ⟨remaining, subset, remainingChain⟩ := deleted.chain
    exact changed_of_chain chains isList lists remainingChain
      (fun _ visited => Or.inl (subset visited))
      (fun address unvisited _ => deleted.kept address unvisited)
      deleted.destroyed
  generalize isHead : list.head = start at chain
  generalize addresses ll = visited, contents ll = objects at chain changed
  cases chain with
  | nil =>
      refine ⟨store, ?_, changed (lists_eq_update isList) ?_⟩
      · intro rounds _
        simp only [llDelete, list_eq_ok isList, isHead, bind, Except.bind]
      · rw [isHead]
        exact ⟨⟨[], List.Subset.refl [], .nil⟩, fun _ _ => rfl,
          (List.append_nil _).symm⟩
  | @cons current first next others rest present fresh chain =>
      by_cases isEqual : list.eq first obj = true
      · refine ⟨((store.setList ll
            (some { list with head := next })).callDestroy
              list.destroy first).setNode current none, ?_,
          changed rfl ⟨⟨others, List.subset_cons_self current others, ?_⟩,
            ?_, ?_⟩⟩
        · intro rounds _
          simp only [llDelete, list_eq_ok isList, isHead,
            node_eq_ok present, isEqual, ↓reduceIte, bind, Except.bind]
        · rw [llDelete_cons, isEqual]
          exact chain.update fresh none
        · intro address unvisited
          obtain ⟨different, -⟩ :
              address ≠ current ∧ address ∉ others := by
            simpa using unvisited
          exact Function.update_of_ne different _ _
        · rw [deleteCalls_cons, isEqual]
          rfl
      · obtain ⟨after, returned, sameLists, deleted⟩ :=
          deleteFrom_of_chain present fresh
            (Bool.eq_false_iff.mpr isEqual) chain
        refine ⟨after, ?_, changed ?_ (isHead ▸ deleted)⟩
        · intro rounds enough
          simp only [llDelete, list_eq_ok isList, isHead,
            node_eq_ok present, isEqual, Bool.false_eq_true, ↓reduceIte,
            bind, Except.bind]
          apply returned rounds
          rw [chain.length_eq]
          exact Nat.lt_of_succ_lt enough
        · rw [sameLists]
          exact lists_eq_update isList

/-- Creating a list. -/
theorem llCreate_represents
    (represents : store.Represents contents)
    (eq : α → β → Bool)
    (destroy : δ) :
    (llCreate store eq destroy ll).Represents
      (Function.update contents ll []) := by
  obtain ⟨addresses, chains⟩ := represents
  have lists :
      (llCreate store eq destroy ll).lists =
        Function.update store.lists ll (some ⟨none, eq, destroy⟩) :=
    rfl
  refine ⟨Function.update addresses ll [], ?_⟩
  rw [heads_of_lists lists]
  apply chains.replace (.present .nil)
  · intro address visited
    cases visited
  · intro address _ _
    rfl

/-- The loop of `LL_destroy` frees the chain and nothing else. -/
theorem destroyFrom_of_chain
    {current : Option Nat}
    {visited : List Nat}
    {objects : List α}
    (destroy : δ)
    (chain : Chain store.nodes current visited objects) :
    ∃ after,
      (∀ rounds, visited.length < rounds →
        destroyFrom destroy rounds store current = .ok after) ∧
        after.lists = store.lists ∧
        (∀ address ∉ visited,
          after.nodes address = store.nodes address) ∧
        after.destroyed =
          store.destroyed ++ objects.map (Prod.mk destroy) := by
  induction visited generalizing store current objects with
  | nil =>
      cases chain
      refine ⟨store, ?_, rfl, fun _ _ => rfl, (List.append_nil _).symm⟩
      intro rounds enough
      obtain ⟨fewer, rfl⟩ := exists_fewer enough
      rfl
  | cons address others inductionHypothesis =>
      cases chain with
      | @cons _ first next _ rest present fresh chain =>
          obtain ⟨after, returned, sameLists, kept, destroyed⟩ :=
            @inductionHypothesis
              ((store.callDestroy destroy first).setNode address none) _ _
              (chain.update fresh none)
          refine ⟨after, ?_, sameLists, ?_, ?_⟩
          · intro rounds enough
            obtain ⟨fewer, rfl⟩ := exists_fewer enough
            rw [destroyFrom, node_eq_ok present]
            exact returned fewer (Nat.succ_lt_succ_iff.mp enough)
          · intro query unvisited
            obtain ⟨different, notLater⟩ :
                query ≠ address ∧ query ∉ others := by
              simpa using unvisited
            rw [kept query notLater]
            exact Function.update_of_ne different _ _
          · rw [destroyed]
            exact List.append_assoc _ _ _

/-- Destroying a list. -/
theorem llDestroy_returns
    (represents : store.Represents contents)
    (isList : store.lists ll = some list) :
    ∃ after,
      (∀ rounds, (contents ll).length < rounds →
        llDestroy rounds store ll = .ok after) ∧
        after.Represents (Function.update contents ll []) ∧
        after.lists = Function.update store.lists ll none ∧
        after.destroyed =
          store.destroyed ++ (contents ll).map (Prod.mk list.destroy) := by
  obtain ⟨addresses, chains⟩ := represents
  have chain := chain_of_list chains isList
  obtain ⟨freed, returned, sameLists, kept, destroyed⟩ :=
    destroyFrom_of_chain list.destroy chain
  have lists :
      (freed.setList ll none).lists =
        Function.update store.lists ll none := by
    rw [setList, sameLists]
  refine ⟨freed.setList ll none, ?_,
    ⟨Function.update addresses ll [], ?_⟩, lists, destroyed⟩
  · intro rounds enough
    rw [← chain.length_eq] at enough
    simp only [llDestroy, list_eq_ok isList, returned rounds enough, bind,
      Except.bind]
  · rw [heads_of_lists lists]
    apply chains.replace .absent
    · intro address visited
      cases visited
    · exact fun address unvisited _ => kept address unvisited

end Operations

/--
Lists of one store refine sequences.  `LL_append`, `LL_find` and `LL_delete`
return after as many rounds as the list has nodes, do to its sequence what the
functions on sequences do, and leave the sequence of every other list as it is.
`LL_delete` destroys the object that `LL_find` would return and no other.
-/
theorem lists_refine_sequences
    {store : ListStore α β δ}
    {contents : Nat → List α}
    (represents : store.Represents contents)
    {ll : Nat}
    {list : LinkedList α β δ}
    (isList : store.lists ll = some list) :
    (∀ obj new, store.nodes new = none →
      ∃ after,
        (∀ rounds, (contents ll).length < rounds →
          llAppend rounds store ll obj new = .ok after) ∧
          after.Represents
            (Function.update contents ll
              (CacheBench.llAppend (contents ll) obj)) ∧
          after.functions = store.functions ∧
          after.destroyed = store.destroyed) ∧
      (∀ obj rounds, (contents ll).length < rounds →
        llFind rounds store ll obj =
          .ok (CacheBench.llFind list.eq (contents ll) obj)) ∧
      ∀ obj,
        ∃ after,
          (∀ rounds, (contents ll).length < rounds →
            llDelete rounds store ll obj = .ok after) ∧
            after.Represents
              (Function.update contents ll
                (CacheBench.llDelete list.eq (contents ll) obj)) ∧
            after.functions = store.functions ∧
            after.destroyed =
              store.destroyed ++
                (CacheBench.llFind list.eq (contents ll) obj).toList.map
                  (Prod.mk list.destroy) := by
  refine ⟨?_, ?_, ?_⟩
  · intro obj new isFree
    obtain ⟨after, returned, changed⟩ :=
      llAppend_changed represents isList obj isFree
    refine ⟨after, returned, changed.represents, changed.functions, ?_⟩
    rw [changed.destroyed, List.append_nil]
  · intro obj rounds enough
    exact llFind_returns represents isList obj enough
  · intro obj
    obtain ⟨after, returned, changed⟩ :=
      llDelete_changed represents isList obj
    exact ⟨after, returned, changed.represents, changed.functions,
      changed.destroyed⟩

/-- Two lists, of two nodes and of one. -/
def twoLists : ListStore Nat Nat Unit where
  nodes
    | 10 => some { obj := 5, next := some 11 }
    | 11 => some { obj := 7, next := none }
    | 12 => some { obj := 7, next := none }
    | _ => none
  lists
    | 0 => some { head := some 10, eq := (· == ·), destroy := () }
    | 1 => some { head := some 12, eq := (· == ·), destroy := () }
    | _ => none
  destroyed := []

/-- The sequences of the two lists. -/
def twoSequences : Nat → List Nat
  | 0 => [5, 7]
  | 1 => [7]
  | _ => []

theorem represents_twoLists : twoLists.Represents twoSequences := by
  let addresses : Nat → List Nat
    | 0 => [10, 11]
    | 1 => [12]
    | _ => []
  refine ⟨addresses, ?_, ?_⟩
  · intro ll
    match ll with
    | 0 =>
        exact .present
          (.cons rfl (by decide) (.cons rfl List.not_mem_nil .nil))
    | 1 => exact .present (.cons rfl List.not_mem_nil .nil)
    | _ + 2 => exact .absent
  · intro first second different
    match first, second with
    | 0, 0 => exact absurd rfl different
    | 0, 1 => simp [addresses]
    | 1, 0 => simp [addresses]
    | 1, 1 => exact absurd rfl different
    | _ + 2, _ => exact List.disjoint_nil_left _
    | 0, _ + 2 => exact List.disjoint_nil_right _
    | 1, _ + 2 => exact List.disjoint_nil_right _

/-- Deleting 7 from the first list destroys its last object. -/
theorem lists_refine_sequences_two :
    ∃ after,
      llDelete 3 twoLists 0 7 = .ok after ∧
        after.Represents (Function.update twoSequences 0 [5]) ∧
        after.destroyed = [((), 7)] := by
  obtain ⟨-, -, deletes⟩ :=
    lists_refine_sequences represents_twoLists
      (rfl : twoLists.lists 0 = some ⟨some 10, (· == ·), ()⟩)
  obtain ⟨after, returned, represents, -, destroyed⟩ := deletes 7
  exact ⟨after, returned 3 (by decide), represents, destroyed⟩

/-! ## Runs of calls -/

/-- A call returns the result, given enough rounds. -/
def Returns {γ : Type} (call : Nat → Outcome γ) (result : γ) : Prop :=
  ∃ bound, ∀ rounds, bound < rounds → call rounds = .ok result

theorem Returns.unique
    {γ : Type}
    {call : Nat → Outcome γ}
    {result other : γ}
    (returns : Returns call result)
    (returnsOther : Returns call other) :
    result = other := by
  obtain ⟨bound, returned⟩ := returns
  obtain ⟨otherBound, otherReturned⟩ := returnsOther
  have same :=
    (returned (bound + otherBound + 1) (by omega)).symm.trans
      (otherReturned (bound + otherBound + 1) (by omega))
  cases same
  rfl

/-- A call that changes the store, on one of the lists. -/
inductive ListCall (α β δ : Type) where
  | create (eq : α → β → Bool) (destroy : δ)
  | append (obj : α)
  | delete (obj : β)
  | destroy

/-- A store, and the sequences its lists should hold. -/
structure Tracked (α β δ : Type) where
  store : ListStore α β δ
  contents : Nat → List α

/-- One call on the store, and the same call on the sequence of the list. -/
inductive Tracked.Step :
    Tracked α β δ → Nat × ListCall α β δ → Tracked α β δ → Prop where
  | create
      {tracked : Tracked α β δ}
      {ll : Nat}
      {eq : α → β → Bool}
      {destroy : δ} :
      Step tracked (ll, .create eq destroy)
        ⟨llCreate tracked.store eq destroy ll,
          Function.update tracked.contents ll []⟩
  | append
      {tracked : Tracked α β δ}
      {ll new : Nat}
      {list : LinkedList α β δ}
      {obj : α}
      {after : ListStore α β δ}
      (isList : tracked.store.lists ll = some list)
      (isFree : tracked.store.nodes new = none)
      (returns :
        Returns (llAppend · tracked.store ll obj new) after) :
      Step tracked (ll, .append obj)
        ⟨after,
          Function.update tracked.contents ll
            (CacheBench.llAppend (tracked.contents ll) obj)⟩
  | delete
      {tracked : Tracked α β δ}
      {ll : Nat}
      {list : LinkedList α β δ}
      {obj : β}
      {after : ListStore α β δ}
      (isList : tracked.store.lists ll = some list)
      (returns : Returns (llDelete · tracked.store ll obj) after) :
      Step tracked (ll, .delete obj)
        ⟨after,
          Function.update tracked.contents ll
            (CacheBench.llDelete list.eq (tracked.contents ll) obj)⟩
  | destroy
      {tracked : Tracked α β δ}
      {ll : Nat}
      {list : LinkedList α β δ}
      {after : ListStore α β δ}
      (isList : tracked.store.lists ll = some list)
      (returns : Returns (llDestroy · tracked.store ll) after) :
      Step tracked (ll, .destroy)
        ⟨after, Function.update tracked.contents ll []⟩

/-- Every call keeps the lists and the sequences together. -/
theorem Tracked.Step.represents
    {tracked after : Tracked α β δ}
    {call : Nat × ListCall α β δ}
    (represents : tracked.store.Represents tracked.contents)
    (step : tracked.Step call after) :
    after.store.Represents after.contents := by
  cases step with
  | create =>
      exact llCreate_represents represents _ _
  | append isList isFree returns =>
      obtain ⟨expected, returned, changed⟩ :=
        llAppend_changed represents isList _ isFree
      rw [returns.unique ⟨_, returned⟩]
      exact changed.represents
  | delete isList returns =>
      obtain ⟨expected, returned, changed⟩ :=
        llDelete_changed represents isList _
      rw [returns.unique ⟨_, returned⟩]
      exact changed.represents
  | destroy isList returns =>
      obtain ⟨expected, returned, stillRepresents, -⟩ :=
        llDestroy_returns represents isList
      rw [returns.unique ⟨_, returned⟩]
      exact stillRepresents

/-- The lists hold the sequences after every run of calls. -/
theorem represents_of_run
    {start final : Tracked α β δ}
    {history : List (Nat × ListCall α β δ)}
    (represents : start.store.Represents start.contents)
    (run : Run Tracked.Step start history final) :
    final.store.Represents final.contents :=
  run.invariant (fun tracked => tracked.store.Represents tracked.contents)
    represents
    (fun represents (_ : True) step =>
      Tracked.Step.represents represents step)
    fun _ _ => trivial

end ListStore

end CacheBench
