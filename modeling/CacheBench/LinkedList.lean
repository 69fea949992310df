import CacheBench.FirstMatch

namespace CacheBench

/-!
# The linked lists of `tools/list.c`

Each list is the sequence of the objects its nodes hold.  The equality
function a list was created with is an argument here.
-/

/-- Append an object after the last node. -/
def llAppend (list : List α) (object : α) : List α :=
  list ++ [object]

/-- The first object that equals the given one. -/
def llFind (eq : α → β → Bool) (list : List α) (object : β) : Option α :=
  list.find? (eq · object)

/-- Remove the node of the first object that equals the given one. -/
def llDelete (eq : α → β → Bool) (list : List α) (object : β) : List α :=
  list.eraseP (eq · object)

theorem llFind_cons
    (eq : α → β → Bool)
    (first : α)
    (rest : List α)
    (object : β) :
    llFind eq (first :: rest) object =
      if eq first object then some first else llFind eq rest object := by
  rw [llFind, List.find?_cons]
  cases eq first object <;> rfl

theorem llDelete_cons
    (eq : α → β → Bool)
    (first : α)
    (rest : List α)
    (object : β) :
    llDelete eq (first :: rest) object =
      if eq first object then rest else first :: llDelete eq rest object := by
  rw [llDelete, List.eraseP_cons]
  cases eq first object <;> rfl

/--
Write through the pointer `llFind` returned: the first object that equals the
given one changes in place.
-/
def llUpdate
    (eq : α → β → Bool)
    (list : List α)
    (object : β)
    (change : α → α) :
    List α :=
  FirstMatch.updateFirst (eq · object) change list

end CacheBench
