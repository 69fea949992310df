import Mathlib.Data.List.Basic
import Mathlib.Tactic.Common

namespace CacheBench.FirstMatch

/-!
# Operations on the first matching element of a list

A linear search that hands out a reference to the element it found lets the
caller change or remove exactly that element.  `updateFirst` and `List.eraseP`
are the two effects.  Both are described by one decomposition of the list
around the element the search returned.
-/

/-- Change the first element that satisfies a test. -/
def updateFirst (test : α → Bool) (change : α → α) : List α → List α
  | [] => []
  | head :: rest =>
      if test head then
        change head :: rest
      else
        head :: updateFirst test change rest

/-- A successful search splits the list around the first match. -/
theorem split_of_find?
    {test : α → Bool}
    {items : List α}
    {found : α}
    (search : items.find? test = some found) :
    test found = true ∧
      ∃ before after,
        items = before ++ found :: after ∧
          ∀ item ∈ before, test item = false := by
  obtain ⟨accepted, before, after, shape, rejected⟩ :=
    List.find?_eq_some_iff_append.mp search
  exact ⟨accepted, before, after, shape, by simpa using rejected⟩

/-- Updating the first match replaces the element between the two parts. -/
theorem updateFirst_split
    (test : α → Bool)
    {found : α}
    {before after : List α}
    (change : α → α)
    (accepted : test found = true)
    (rejected : ∀ item ∈ before, test item = false) :
    updateFirst test change (before ++ found :: after) =
      before ++ change found :: after := by
  induction before with
  | nil =>
      simp [updateFirst, accepted]
  | cons head rest inductionHypothesis =>
      have headRejected := rejected head (by simp)
      have restRejected :
          ∀ item ∈ rest, test item = false :=
        fun item member => rejected item (by simp [member])
      simp [updateFirst, headRejected,
        inductionHypothesis restRejected]

/-- Removing the first match joins the two parts. -/
theorem eraseP_split
    (test : α → Bool)
    {found : α}
    {before after : List α}
    (accepted : test found = true)
    (rejected : ∀ item ∈ before, test item = false) :
    (before ++ found :: after).eraseP test = before ++ after := by
  rw [List.eraseP_append_right]
  · simp [accepted]
  · simpa using rejected

/--
A successful search stops at a position before which nothing matches, and an
update stores at that position.
-/
theorem position_of_find?
    {test : α → Bool}
    {items : List α}
    {found : α}
    (search : items.find? test = some found) :
    ∃ position,
      items[position]? = some found ∧
        test found = true ∧
        (∀ earlier < position, ∀ item,
          items[earlier]? = some item → test item = false) ∧
        ∀ change,
          updateFirst test change items =
            items.set position (change found) := by
  obtain ⟨accepted, before, after, rfl, rejected⟩ :=
    split_of_find? search
  refine ⟨before.length, by simp, accepted, ?_, ?_⟩
  · intro earlier isEarlier item atEarlier
    rw [List.getElem?_append_left isEarlier] at atEarlier
    exact rejected item (List.mem_of_getElem? atEarlier)
  · intro change
    rw [updateFirst_split test change accepted rejected]
    simp

/-- Replacing the first match keeps what it has in common with it. -/
theorem map_updateFirst_of_find?
    {test : α → Bool}
    {items : List α}
    {found replacement : α}
    {project : α → β}
    (search : items.find? test = some found)
    (same : project replacement = project found) :
    (updateFirst test (fun _ => replacement) items).map project =
      items.map project := by
  obtain ⟨accepted, before, after, rfl, rejected⟩ := split_of_find? search
  rw [updateFirst_split test _ accepted rejected]
  simp [same]

/-- An update that keeps a projection keeps the projected list. -/
theorem map_updateFirst
    (test : α → Bool)
    {change : α → α}
    {project : α → β}
    (same : ∀ item, project (change item) = project item)
    (items : List α) :
    (updateFirst test change items).map project = items.map project := by
  induction items with
  | nil =>
      rfl
  | cons head rest inductionHypothesis =>
      by_cases accepted : test head = true
      · simp [updateFirst, accepted, same]
      · simp [updateFirst, accepted, inductionHypothesis]

/-- Removing an element that a search does not look for leaves its result. -/
theorem find?_eraseP
    {test other : α → Bool}
    (apart : ∀ item, test item = true → other item = false)
    (items : List α) :
    (items.eraseP other).find? test = items.find? test := by
  induction items with
  | nil =>
      rfl
  | cons head rest inductionHypothesis =>
      by_cases accepted : test head = true
      · simp [apart head accepted, accepted]
      · by_cases erased : other head = true
        · simp [erased, accepted]
        · simp [erased, accepted, inductionHypothesis]

end CacheBench.FirstMatch
