import CacheBench.CacheHeap

namespace CacheBench.OnHeap

open SeparationHeap HeapProgram

/-!
# The lists of `list.c` on the heap

`listAt` owns a list, its nodes and its objects.  The objects are given as pairs
of an address and a value, so that a pointer to an object says which value it
is.  The functions of `list.c` act on these pairs as the functions on sequences
do, whatever else is in the heap.

`ListStore` has these functions over objects that are values and a comparison
that is a function of them.  Here an object is a pointer: comparing reads the
block it points to, and destroying it frees that block, so the same heap changes
under the list.  The lists of `cache.c` are therefore not an instance of that
store, and the loops are proved again over the heap.
-/

/-- The nodes of a stretch of a list: the address and the object of each. -/
abbrev Cells := List (Nat × Nat)

/-- The pointer to the first of the nodes, or to what follows them. -/
def headOr (tail : Option Nat) : Cells → Option Nat
  | [] => tail
  | (address, _) :: _ => some address

/-- The nodes, linked in order, the last of them to `tail`. -/
def segment (tail : Option Nat) : Cells → Assertion Block
  | [] => 1
  | (address, obj) :: rest =>
      pointsTo address (.node { obj := obj, next := headOr tail rest }) *
        segment tail rest

/-- The objects at the given addresses. -/
def objectsAt {α : Type} (wrap : α → Block) (objects : List (Nat × α)) :
    Assertion Block :=
  (objects.map fun object => pointsTo object.1 (wrap object.2)).prod

/-- A list with the given objects. -/
def listAt {α : Type}
    (list : Nat)
    (eq : EqFunc)
    (destroy : DestroyFunc)
    (wrap : α → Block)
    (objects : List (Nat × α)) :
    Assertion Block :=
  ⨆ (cells : Cells) (_ : cells.map Prod.snd = objects.map Prod.fst),
    pointsTo list
        (.linkedList { head := headOr none cells, eq := eq, destroy := destroy }) *
      segment none cells * objectsAt wrap objects

section Assertions

variable {α : Type} {wrap : α → Block} {P Q : Assertion Block}

@[simp]
theorem headOr_nil (tail : Option Nat) : headOr tail [] = tail :=
  rfl

@[simp]
theorem headOr_cons (tail : Option Nat) (cell : Nat × Nat) (rest : Cells) :
    headOr tail (cell :: rest) = some cell.1 :=
  rfl

@[simp]
theorem headOr_append (tail : Option Nat) (front back : Cells) :
    headOr tail (front ++ back) = headOr (headOr tail back) front := by
  cases front <;> rfl

@[simp]
theorem segment_nil (tail : Option Nat) : segment tail [] = 1 :=
  rfl

@[simp]
theorem segment_cons (tail : Option Nat) (cell : Nat × Nat) (rest : Cells) :
    segment tail (cell :: rest) =
      pointsTo cell.1 (.node { obj := cell.2, next := headOr tail rest }) *
        segment tail rest :=
  rfl

@[simp]
theorem segment_append (tail : Option Nat) (front back : Cells) :
    segment tail (front ++ back) =
      segment (headOr tail back) front * segment tail back := by
  induction front with
  | nil =>
      simp
  | cons cell rest inductionHypothesis =>
      simp only [List.cons_append, segment_cons, headOr_append,
        inductionHypothesis, mul_assoc]

@[simp]
theorem objectsAt_nil : objectsAt wrap [] = 1 :=
  rfl

@[simp]
theorem objectsAt_cons (object : Nat × α) (rest : List (Nat × α)) :
    objectsAt wrap (object :: rest) =
      pointsTo object.1 (wrap object.2) * objectsAt wrap rest := by
  simp [objectsAt]

@[simp]
theorem objectsAt_append (front back : List (Nat × α)) :
    objectsAt wrap (front ++ back) =
      objectsAt wrap front * objectsAt wrap back := by
  simp [objectsAt]

/-- An object that is owned is there. -/
theorem objectsAt_le_has
    {objects : List (Nat × α)}
    {object : Nat × α}
    (member : object ∈ objects) :
    objectsAt wrap objects ≤ has object.1 (wrap object.2) := by
  obtain ⟨front, back, rfl⟩ := List.append_of_mem member
  rw [objectsAt_append, objectsAt_cons]
  exact Focus.le_has

/-- A node that is owned is there. -/
theorem segment_le_has
    (tail : Option Nat)
    (front rest : Cells)
    (cell : Nat × Nat) :
    segment tail (front ++ cell :: rest) ≤
      has cell.1 (.node { obj := cell.2, next := headOr tail rest }) := by
  rw [segment_append, segment_cons]
  exact Focus.le_has

theorem segment_le_exactly (tail : Option Nat) (cells : Cells) :
    segment tail cells ≤ exactly cells.length := by
  induction cells with
  | nil =>
      exact one_le_exactly
  | cons cell rest inductionHypothesis =>
      rw [List.length_cons, Nat.add_comm]
      exact mul_le_exactly (pointsTo_le_exactly _ _) inductionHypothesis

theorem objectsAt_le_exactly (objects : List (Nat × α)) :
    objectsAt wrap objects ≤ exactly objects.length := by
  induction objects with
  | nil =>
      exact one_le_exactly
  | cons object rest inductionHypothesis =>
      rw [objectsAt_cons, List.length_cons, Nat.add_comm]
      exact mul_le_exactly (pointsTo_le_exactly _ _) inductionHypothesis

/-- A list takes one block, and two for each object. -/
theorem listAt_le_exactly
    {list : Nat}
    {eq : EqFunc}
    {destroy : DestroyFunc}
    (objects : List (Nat × α)) :
    listAt list eq destroy wrap objects ≤ exactly (1 + 2 * objects.length) := by
  refine iSup₂_le fun cells objs => ?_
  have lengths := congrArg List.length objs
  rw [List.length_map, List.length_map] at lengths
  have total := mul_le_exactly
    (mul_le_exactly
      (pointsTo_le_exactly list
        (.linkedList { head := headOr none cells, eq := eq, destroy := destroy }))
      (segment_le_exactly none cells))
    (@objectsAt_le_exactly _ wrap objects)
  rwa [lengths, Nat.add_assoc, ← Nat.two_mul] at total

end Assertions

section Walks

variable {P : Assertion Block}

/-- The nodes a walk from the head to the null pointer reads. -/
def Follows (P : Assertion Block) : Option Nat → Cells → Prop
  | head, [] =>
      head = none
  | head, (address, obj) :: rest =>
      head = some address ∧
        P ≤ has address (.node { obj := obj, next := headOr none rest }) ∧
          Follows P (headOr none rest) rest

/-- Whoever owns the nodes can walk along them. -/
theorem follows_segment
    (cells : Cells)
    (owned : P ≤ segment none cells * ⊤) :
    Follows P (headOr none cells) cells := by
  induction cells with
  | nil =>
      rfl
  | cons cell rest inductionHypothesis =>
      refine ⟨rfl, owned.trans ?_, inductionHypothesis (owned.trans ?_)⟩
      · rw [segment_cons, mul_assoc]
        exact pointsTo_mul_le_has _ _ _
      · rw [segment_cons, mul_comm (pointsTo _ _), mul_assoc]
        exact mul_le_mul_right le_top _

/-- A walk with a test finds the first object that passes it. -/
theorem findFrom_reads
    {α : Type}
    {eq : EqFunc}
    {sought : Sought}
    {same : α → Bool}
    {steps : Nat}
    {head : Option Nat}
    {cells : Cells}
    {objects : List (Nat × α)}
    (follows : Follows P head cells)
    (objs : cells.map Prod.snd = objects.map Prod.fst)
    (tests : ∀ object ∈ objects,
      Reads P (applyEq eq object.1 sought) (same object.2))
    (enough : cells.length < steps) :
    Reads P (findFrom eq sought steps head)
      ((objects.find? fun object => same object.2).map Prod.fst) := by
  induction cells generalizing steps head objects with
  | nil =>
      obtain ⟨steps, rfl⟩ := Nat.exists_eq_add_of_lt enough
      obtain rfl : head = none := follows
      obtain rfl : objects = [] := by simpa using objs.symm
      simp only [findFrom]
      exact Reads.pure _
  | cons cell rest inductionHypothesis =>
      obtain ⟨rfl, present, onward⟩ := follows
      obtain ⟨steps, rfl⟩ : ∃ fewer, steps = fewer + 1 :=
        Nat.exists_eq_succ_of_ne_zero (by omega)
      obtain _ | ⟨object, objects⟩ := objects
      · simp at objs
      obtain ⟨objHead, objRest⟩ : cell.2 = object.1 ∧
          rest.map Prod.snd = objects.map Prod.fst := by
        simpa using objs
      simp only [findFrom]
      refine Reads.loadAs_bind present rfl ?_
      simp only [objHead]
      refine (tests object (by simp)).bind ?_
      by_cases accepted : same object.2 = true
      · simp only [accepted, List.find?_cons, Option.map_some, if_true]
        exact Reads.pure _
      · simp only [accepted, List.find?_cons]
        exact inductionHypothesis onward objRest
          (fun other member => tests other (by simp [member]))
          (by simp at enough; omega)

/-- The last node of a walk, or the node before it if there is nothing. -/
theorem lastFrom_reads
    {steps : Nat}
    {previous head : Option Nat}
    {cells : Cells}
    (follows : Follows P head cells)
    (enough : cells.length < steps) :
    Reads P (lastFrom steps previous head)
      ((cells.getLast?.map Prod.fst).or previous) := by
  induction cells generalizing steps previous head with
  | nil =>
      obtain ⟨steps, rfl⟩ := Nat.exists_eq_add_of_lt enough
      obtain rfl : head = none := follows
      simp only [lastFrom]
      exact Reads.pure _
  | cons cell rest inductionHypothesis =>
      obtain ⟨rfl, present, onward⟩ := follows
      obtain ⟨steps, rfl⟩ : ∃ fewer, steps = fewer + 1 :=
        Nat.exists_eq_succ_of_ne_zero (by omega)
      simp only [lastFrom]
      refine Reads.loadAs_bind present rfl ?_
      have shape :
          ((cell :: rest).getLast?.map Prod.fst).or previous =
            (rest.getLast?.map Prod.fst).or (some cell.1) := by
        rw [List.getLast?_cons]
        cases rest.getLast? <;> rfl
      rw [shape]
      exact inductionHypothesis onward (by simp at enough; omega)

end Walks

section Changes

variable {α : Type} {wrap : α → Block} {list : Nat}
variable {eq : EqFunc} {destroy : DestroyFunc} {R : Assertion Block}

theorem le_listAt
    {cells : Cells}
    {objects : List (Nat × α)}
    (objs : cells.map Prod.snd = objects.map Prod.fst) :
    pointsTo list
          (.linkedList { head := headOr none cells, eq := eq, destroy := destroy }) *
        segment none cells * objectsAt wrap objects ≤
      listAt list eq destroy wrap objects :=
  le_iSup₂_of_le cells objs le_rfl

/-- The nodes of a list are variables of a proof about a program that owns it. -/
theorem refines_listAt
    {ρ γ : Type}
    {program : Code ρ}
    {outcome : Outcome γ}
    {S : γ → ρ → Assertion Block}
    {objects : List (Nat × α)}
    (each : ∀ cells : Cells, cells.map Prod.snd = objects.map Prod.fst →
      Refines
        (pointsTo list
            (.linkedList
              { head := headOr none cells, eq := eq, destroy := destroy }) *
          segment none cells * objectsAt wrap objects * R)
        program outcome S) :
    Refines (listAt list eq destroy wrap objects * R) program outcome S := by
  rw [listAt, Assertion.iSup_mul]
  refine Refines.exists_before fun cells => ?_
  rw [Assertion.iSup_mul]
  exact Refines.exists_before fun objs => each cells objs

theorem llCreate_refines :
    Refines 1 (llCreate eq destroy) (.ok ())
      fun _ list => listAt list eq destroy wrap [] := by
  refine Refines.last (Refines.malloc fun list => Refines.pure ?_)
  refine le_trans (le_of_eq ?_) (@le_listAt _ _ _ _ _ [] [] rfl)
  simp

/-- `LL_append` puts an object behind the others. -/
theorem llAppend_refines
    (eq : EqFunc)
    (destroy : DestroyFunc)
    (wrap : α → Block)
    (objects : List (Nat × α))
    (obj : Nat)
    (value : α) :
    Refines (listAt list eq destroy wrap objects * pointsTo obj (wrap value))
      (llAppend list obj) (.ok ())
      fun _ _ => listAt list eq destroy wrap (objects ++ [(obj, value)]) := by
  refine refines_listAt fun cells objs => ?_
  refine Refines.malloc fun new => ?_
  refine Refines.loadAs Focus.le_has rfl ?_
  refine Refines.countBlocks
    (atLeast_of_owns Splits.le (segment_le_exactly none cells)) fun bound enough => ?_
  refine Refines.read
    (lastFrom_reads (follows_segment cells Splits.le) (by omega)) ?_
  have newObjs :
      (cells ++ [(new, obj)]).map Prod.snd =
        (objects ++ [(obj, value)]).map Prod.fst := by
    simp [objs]
  rcases cells.eq_nil_or_concat' with rfl | ⟨front, ⟨previous, last⟩, rfl⟩
  · -- The list was empty: its head points to the new node.
    refine Refines.last (Refines.store (Refines.pure ?_))
    refine le_trans (le_of_eq ?_) (le_listAt newObjs)
    simp only [List.nil_append, segment_cons, segment_nil, headOr_cons, headOr_nil,
      objectsAt_append, objectsAt_cons, objectsAt_nil, mul_one]
    ac_rfl
  · -- The last node points to the new one.
    simp only [List.getLast?_concat, Option.map_some, Option.some_or, segment_append,
      segment_cons, segment_nil, headOr_cons, headOr_nil, mul_one]
    refine Refines.loadAs Focus.le_has rfl ?_
    refine Refines.last (Refines.store (Refines.pure ?_))
    refine le_trans (le_of_eq ?_) (le_listAt newObjs)
    simp only [headOr_append, segment_append, segment_cons, segment_nil, headOr_cons,
      headOr_nil, objectsAt_append, objectsAt_cons, objectsAt_nil, mul_one]
    ac_rfl

/-- Writing through the pointer a search returned changes that object. -/
theorem storeObject_refines
    (list : Nat)
    (eq : EqFunc)
    (destroy : DestroyFunc)
    (wrap : α → Block)
    {test : Nat × α → Bool}
    {objects : List (Nat × α)}
    {object : Nat × α}
    (found : objects.find? test = some object)
    (new : α) :
    Refines (listAt list eq destroy wrap objects)
      (store object.1 (wrap new) : Code Unit) (.ok ())
      fun _ _ => listAt list eq destroy wrap
        (FirstMatch.updateFirst test (fun _ => (object.1, new)) objects) := by
  obtain ⟨accepted, before, after, rfl, rejected⟩ :=
    FirstMatch.split_of_find? found
  rw [FirstMatch.updateFirst_split _ _ accepted rejected,
    ← mul_one (listAt list eq destroy wrap (before ++ object :: after))]
  refine refines_listAt fun cells objs => ?_
  have newObjs :
      cells.map Prod.snd = (before ++ (object.1, new) :: after).map Prod.fst := by
    simpa using objs
  rw [objectsAt_append, objectsAt_cons]
  refine Refines.last (Refines.store (Refines.pure ?_))
  refine le_trans (le_of_eq ?_) (le_listAt newObjs)
  simp only [objectsAt_append, objectsAt_cons, mul_one]
  ac_rfl

theorem applyDestroy_eq (obj : Nat) : applyDestroy destroy obj = free obj := by
  cases destroy <;> rfl

/-- The nodes and objects without one of them, out of the list and freed. -/
theorem delete_refines
    (front : Cells)
    {rest : Cells}
    {cell : Nat × Nat}
    (passed : List (Nat × α))
    {objects : List (Nat × α)}
    {object : Nat × α}
    {head : Option Nat}
    (passedObjs : front.map Prod.snd = passed.map Prod.fst)
    (obj : cell.2 = object.1)
    (objs : rest.map Prod.snd = objects.map Prod.fst)
    (linked : head = headOr (headOr none rest) front) :
    Refines
      (pointsTo list (.linkedList { head := head, eq := eq, destroy := destroy }) *
        (segment (headOr none rest) front *
          (pointsTo cell.1 (.node { obj := cell.2, next := headOr none rest }) *
            segment none rest)) *
        objectsAt wrap (passed ++ object :: objects) * R)
      (do
        applyDestroy destroy cell.2
        free cell.1)
      (.ok ())
      fun _ _ => listAt list eq destroy wrap (passed ++ objects) * R := by
  subst linked
  rw [applyDestroy_eq, obj, objectsAt_append, objectsAt_cons]
  refine Refines.free ?_
  refine Refines.last (Refines.free (Refines.pure ?_))
  refine le_trans (le_of_eq ?_)
    (mul_le_mul_left (@le_listAt _ _ _ _ _ (front ++ rest) (passed ++ objects)
      (by simp [passedObjs, objs])) R)
  simp only [headOr_append, segment_append, objectsAt_append]

/--
`LL_delete` inside a list: the node it looks at is `previous`, and what comes up
to it, `front` and the objects `passed`, was compared without success.
-/
structure Passing
    (same : α → Bool)
    (cells : Cells)
    (all : List (Nat × α))
    (front : Cells)
    (previous : Nat × Nat)
    (rest : Cells)
    (passed objects : List (Nat × α)) : Prop where
  cellsShape : cells = front ++ previous :: rest
  allShape : all = passed ++ objects
  passedObjs : (front ++ [previous]).map Prod.snd = passed.map Prod.fst
  objs : rest.map Prod.snd = objects.map Prod.fst
  rejected : ∀ object ∈ passed, same object.2 = false

namespace Passing

variable {same : α → Bool} {cells front rest : Cells} {previous cell : Nat × Nat}
variable {all passed objects : List (Nat × α)} {object : Nat × α}

/-- The nodes of the list are those of its objects. -/
theorem cellObjs
    (passing : Passing same cells all front previous rest passed objects) :
    cells.map Prod.snd = all.map Prod.fst := by
  rw [passing.cellsShape, passing.allShape, List.append_cons, List.map_append,
    passing.passedObjs, passing.objs, List.map_append]

/-- The node looked at is in the list. -/
theorem atPrevious
    (passing : Passing same cells all front previous rest passed objects) :
    segment none cells ≤
      has previous.1 (.node { obj := previous.2, next := headOr none rest }) := by
  rw [passing.cellsShape]
  exact segment_le_has none front rest previous

/-- At the last node every object was compared. -/
theorem nothing_erased
    (passing : Passing same cells all front previous [] passed objects) :
    all.eraseP (fun object => same object.2) = all := by
  obtain rfl : objects = [] := by
    simpa using passing.objs.symm
  refine List.eraseP_of_forall_not fun object member => ?_
  rw [passing.allShape, List.append_nil] at member
  simp [passing.rejected object member]

/-- There is an object for the next node. -/
theorem exists_object
    (passing : Passing same cells all front previous (cell :: rest) passed objects) :
    ∃ object later, objects = object :: later := by
  obtain _ | ⟨object, later⟩ := objects
  · simpa using passing.objs
  · exact ⟨object, later, rfl⟩

/-- The next node is that of the next object. -/
theorem objs_cons
    (passing :
      Passing same cells all front previous (cell :: rest) passed
        (object :: objects)) :
    cell.2 = object.1 ∧ rest.map Prod.snd = objects.map Prod.fst := by
  simpa using passing.objs

/-- An object that does not pass the test is passed by. -/
theorem next
    (passing :
      Passing same cells all front previous (cell :: rest) passed
        (object :: objects))
    (differs : same object.2 = false) :
    Passing same cells all (front ++ [previous]) cell rest (passed ++ [object])
      objects where
  cellsShape := by
    simp [passing.cellsShape]
  allShape := by
    simp [passing.allShape]
  passedObjs := by
    rw [List.map_append, passing.passedObjs, List.map_append, List.map_singleton,
      List.map_singleton, passing.objs_cons.1]
  objs :=
    passing.objs_cons.2
  rejected := by
    intro other member
    rcases List.mem_append.mp member with earlier | here
    · exact passing.rejected other earlier
    · rwa [List.mem_singleton.mp here]

/-- The next node and its object, taken out of the list and freed. -/
theorem unlink_refines
    (passing :
      Passing same cells all front previous (cell :: rest) passed
        (object :: objects))
    (accepted : same object.2 = true) :
    Refines
      (pointsTo list
          (.linkedList { head := headOr none cells, eq := eq, destroy := destroy }) *
        segment none cells * objectsAt wrap all * R)
      (do
        store previous.1
          (.node { obj := previous.2, next := headOr none rest })
        applyDestroy destroy cell.2
        free cell.1)
      (.ok ())
      fun _ _ =>
        listAt list eq destroy wrap (all.eraseP fun object => same object.2) * R := by
  obtain ⟨obj, restObjs⟩ := passing.objs_cons
  have erased :
      all.eraseP (fun object => same object.2) = passed ++ objects := by
    rw [passing.allShape]
    exact FirstMatch.eraseP_split _ accepted passing.rejected
  rw [erased, passing.cellsShape, passing.allShape]
  simp only [segment_append, segment_cons, headOr_cons]
  refine Refines.store ?_
  have linked :
      headOr none (front ++ previous :: cell :: rest) =
        headOr (headOr none rest) (front ++ [previous]) := by
    simp
  refine Refines.before (le_of_eq ?_)
    (delete_refines _ passed passing.passedObjs obj restObjs linked)
  simp only [headOr_append, headOr_cons, segment_append, segment_cons,
    segment_nil, headOr_nil]
  ac_rfl

end Passing

/-- The loop of `LL_delete` removes the first object that passes the test. -/
theorem deleteFrom_refines
    {sought : Sought}
    {same : α → Bool}
    {steps : Nat}
    {previous : Nat × Nat}
    {cells front rest : Cells}
    {all passed objects : List (Nat × α)}
    (passing : Passing same cells all front previous rest passed objects)
    (tests : ∀ object ∈ all,
      Reads (listAt list eq destroy wrap all * R)
        (applyEq eq object.1 sought) (same object.2))
    (enough : rest.length < steps) :
    Refines
      (pointsTo list
          (.linkedList { head := headOr none cells, eq := eq, destroy := destroy }) *
        segment none cells * objectsAt wrap all * R)
      (deleteFrom { head := headOr none cells, eq := eq, destroy := destroy }
        sought steps previous.1)
      (.ok ())
      fun _ _ =>
        listAt list eq destroy wrap (all.eraseP fun object => same object.2) * R := by
  have whole :
      pointsTo list
            (.linkedList
              { head := headOr none cells, eq := eq, destroy := destroy }) *
          segment none cells * objectsAt wrap all * R ≤
        listAt list eq destroy wrap all * R :=
    mul_le_mul_left (le_listAt passing.cellObjs) R
  induction rest generalizing steps front previous passed objects with
  | nil =>
      obtain ⟨steps, rfl⟩ := Nat.exists_eq_add_of_lt enough
      rw [passing.nothing_erased]
      exact Refines.loadAs (has_of_owns Splits.le passing.atPrevious) rfl
        (Refines.pure whole)
  | cons cell rest inductionHypothesis =>
      obtain ⟨steps, rfl⟩ : ∃ fewer, steps = fewer + 1 :=
        Nat.exists_eq_succ_of_ne_zero (by omega)
      obtain ⟨object, objects, rfl⟩ := passing.exists_object
      have atCurrent := segment_le_has none (front ++ [previous]) rest cell
      rw [← List.append_cons, ← passing.cellsShape] at atCurrent
      refine Refines.loadAs (has_of_owns Splits.le passing.atPrevious) rfl ?_
      refine Refines.loadAs (has_of_owns Splits.le atCurrent) rfl ?_
      have test := (tests object (by simp [passing.allShape])).before whole
      rw [← passing.objs_cons.1] at test
      refine Refines.read test ?_
      cases accepted : same object.2 with
      | true =>
          exact passing.unlink_refines accepted
      | false =>
          exact inductionHypothesis (passing.next accepted)
            (Nat.lt_of_succ_lt_succ enough)

/-- `LL_delete` removes the first object that passes the test. -/
theorem llDelete_refines
    {sought : Sought}
    (same : α → Bool)
    {objects : List (Nat × α)}
    (tests : ∀ object ∈ objects,
      Reads (listAt list eq destroy wrap objects * R)
        (applyEq eq object.1 sought) (same object.2)) :
    Refines (listAt list eq destroy wrap objects * R) (llDelete list sought) (.ok ())
      fun _ _ =>
        listAt list eq destroy wrap (objects.eraseP fun object => same object.2) *
          R := by
  refine refines_listAt fun cells objs => ?_
  refine Refines.loadAs Focus.le_has rfl ?_
  obtain _ | ⟨cell, rest⟩ := cells
  · obtain rfl : objects = [] := by simpa using objs.symm
    exact Refines.pure (mul_le_mul_left (le_listAt objs) R)
  obtain _ | ⟨object, objects⟩ := objects
  · simp at objs
  obtain ⟨obj, restObjs⟩ : cell.2 = object.1 ∧
      rest.map Prod.snd = objects.map Prod.fst := by
    simpa using objs
  have test := (tests object (by simp)).before (mul_le_mul_left (le_listAt objs) R)
  rw [← obj] at test
  have atFirst : segment none (cell :: rest) ≤ _ := segment_le_has none [] rest cell
  refine Refines.loadAs (has_of_owns Splits.le atFirst) rfl ?_
  refine Refines.read test ?_
  by_cases accepted : same object.2 = true
  · simp only [accepted, if_true, List.eraseP_cons, segment_cons, cond_true]
    refine Refines.store ?_
    refine Refines.before (le_of_eq ?_)
      (delete_refines [] [] rfl obj restObjs rfl)
    simp only [segment_nil, headOr_nil, one_mul, List.nil_append]
    ac_rfl
  · simp only [accepted]
    refine Refines.countBlocks
      (atLeast_of_owns Splits.le (segment_le_exactly none (cell :: rest)))
      fun bound enough => ?_
    have passing :
        Passing same (cell :: rest) (object :: objects) [] cell rest [object]
          objects :=
      ⟨rfl, rfl, by simp [obj], restObjs, by simpa using accepted⟩
    refine deleteFrom_refines passing tests ?_
    simp at enough
    omega

/-- A walk that frees nodes and objects leaves nothing of them. -/
theorem destroyFrom_refines
    {steps : Nat}
    {cells : Cells}
    {objects : List (Nat × α)}
    (objs : cells.map Prod.snd = objects.map Prod.fst)
    (enough : cells.length < steps) :
    Refines (segment none cells * objectsAt wrap objects)
      (destroyFrom destroy steps (headOr none cells)) (.ok ())
      fun _ _ => 1 := by
  induction cells generalizing steps objects with
  | nil =>
      obtain ⟨steps, rfl⟩ := Nat.exists_eq_add_of_lt enough
      obtain rfl : objects = [] := by simpa using objs.symm
      exact Refines.pure (by simp)
  | cons cell rest inductionHypothesis =>
      obtain ⟨steps, rfl⟩ : ∃ fewer, steps = fewer + 1 :=
        Nat.exists_eq_succ_of_ne_zero (by omega)
      obtain _ | ⟨object, objects⟩ := objects
      · simp at objs
      obtain ⟨obj, restObjs⟩ : cell.2 = object.1 ∧
          rest.map Prod.snd = objects.map Prod.fst := by
        simpa using objs
      rw [segment_cons, objectsAt_cons]
      refine Refines.loadAs Focus.le_has rfl ?_
      rw [applyDestroy_eq, obj]
      refine Refines.free (Refines.free ?_)
      exact inductionHypothesis restObjs (by simp at enough; omega)

/-- `LL_destroy` gives back the list, its nodes and their objects. -/
theorem llDestroy_refines (objects : List (Nat × α)) :
    Refines (listAt list eq destroy wrap objects) (llDestroy list) (.ok ())
      fun _ _ => 1 := by
  rw [← mul_one (listAt _ _ _ _ _)]
  refine refines_listAt fun cells objs => ?_
  refine Refines.loadAs Focus.le_has rfl ?_
  refine Refines.countBlocks
    (atLeast_of_owns Splits.le (segment_le_exactly none cells)) fun bound enough => ?_
  refine Refines.step (@destroyFrom_refines _ wrap _ _ _ _ objs (by omega)) fun _ => ?_
  exact Refines.last (Refines.free (Refines.pure (by simp)))

end Changes

section Searches

variable {α : Type} {wrap : α → Block} {list : Nat}
variable {eq : EqFunc} {destroy : DestroyFunc} {P : Assertion Block}

/-- `LL_find` returns a pointer to the first object that passes the test. -/
theorem llFind_reads
    {sought : Sought}
    (same : α → Bool)
    {cells : Cells}
    {objects : List (Nat × α)}
    (fields : P ≤ has list
      (.linkedList { head := headOr none cells, eq := eq, destroy := destroy }))
    (nodes : P ≤ segment none cells * ⊤)
    (objs : cells.map Prod.snd = objects.map Prod.fst)
    (tests : ∀ object ∈ objects,
      Reads P (applyEq eq object.1 sought) (same object.2)) :
    Reads P (llFind list sought)
      ((objects.find? fun object => same object.2).map Prod.fst) := by
  refine Reads.loadAs_bind fields rfl ?_
  refine Reads.countBlocks
    (atLeast_of_owns nodes (segment_le_exactly none cells)) fun bound enough => ?_
  exact findFrom_reads (follows_segment cells nodes) objs tests (by omega)

/-- An object of a list is there. -/
theorem listAt_le_has
    {objects : List (Nat × α)}
    {object : Nat × α}
    (member : object ∈ objects) :
    listAt list eq destroy wrap objects ≤ has object.1 (wrap object.2) :=
  iSup₂_le fun _ _ => has_right (objectsAt_le_has member)

/-- The nodes of a list are variables of a proof about what is read in it. -/
theorem reads_listAt
    {ρ : Type}
    {R : Assertion Block}
    {program : Code ρ}
    {result : ρ}
    {objects : List (Nat × α)}
    (each : ∀ cells : Cells, cells.map Prod.snd = objects.map Prod.fst →
      Reads
        (pointsTo list
            (.linkedList
              { head := headOr none cells, eq := eq, destroy := destroy }) *
          segment none cells * objectsAt wrap objects * R)
        program result) :
    Reads (listAt list eq destroy wrap objects * R) program result := by
  rw [listAt, Assertion.iSup_mul]
  refine Reads.exists_before fun cells => ?_
  rw [Assertion.iSup_mul]
  exact Reads.exists_before fun objs => each cells objs

end Searches

end CacheBench.OnHeap
