import Mathlib

namespace CacheBench.WorkingSet

/-!
# The space a map asks for

A finite map over arbitrary keys and values, changed by a sequence of updates.
Every value is of a kind, and space is handed out in pages of one kind that are
never given back.  What a sequence of updates asks for is then the largest
number of values of each kind that are in the map at the same time, rounded up
to whole pages.
-/

universe u v w

/-- A finite map, as the list of its entries. -/
abbrev Map (κ : Type u) (ν : Type v) :=
  AList fun _ : κ => ν

/-- A change to a map. -/
inductive Update (κ : Type u) (ν : Type v) where
  | put (key : κ) (value : ν)
  | drop (key : κ)
  | keep

section Updates

variable {κ : Type u} {ν : Type v} {γ : Type w}
variable [DecidableEq κ] [DecidableEq γ]

/-- The map after an update. -/
def Update.apply (map : Map κ ν) : Update κ ν → Map κ ν
  | .put key value => map.insert key value
  | .drop key => map.erase key
  | .keep => map

variable (kindOf : ν → γ)

/-- The number of values of a kind. -/
def live (map : Map κ ν) (kind : γ) : Nat :=
  map.entries.countP fun entry => kindOf entry.2 = kind

/-- The largest number of values of a kind before, during and after updates. -/
def peak (kind : γ) : Map κ ν → List (Update κ ν) → Nat
  | map, [] => live kindOf map kind
  | map, update :: rest =>
      max (live kindOf map kind) (peak kind (update.apply map) rest)

/-- The pages for the values of all kinds, from the empty map on. -/
def pages
    (kinds : Finset γ)
    (capacity : γ → Nat)
    (updates : List (Update κ ν)) : Nat :=
  ∑ kind ∈ kinds, peak kindOf kind ∅ updates ⌈/⌉ capacity kind

variable {kindOf}

/-- A put adds one value to the map without the key. -/
theorem live_put (map : Map κ ν) (key : κ) (value : ν) (kind : γ) :
    live kindOf (map.insert key value) kind =
      live kindOf (map.erase key) kind +
        if kindOf value = kind then 1 else 0 := by
  rw [live, AList.entries_insert, List.countP_cons]
  simp [live, AList.erase]

theorem live_le_peak
    (map : Map κ ν)
    (kind : γ)
    (updates : List (Update κ ν)) :
    live kindOf map kind ≤ peak kindOf kind map updates := by
  cases updates with
  | nil => exact Nat.le_refl _
  | cons update rest => exact Nat.le_max_left _ _

theorem peak_le_cons
    (map : Map κ ν)
    (kind : γ)
    (update : Update κ ν)
    (rest : List (Update κ ν)) :
    peak kindOf kind (update.apply map) rest ≤
      peak kindOf kind map (update :: rest) :=
  Nat.le_max_right _ _

variable {kinds : Finset γ} {capacity : γ → Nat}
variable {updates : List (Update κ ν)}

/-- The pages are enough for the peaks. -/
theorem peak_le_pages
    {kind : γ}
    (positive : 0 < capacity kind) :
    peak kindOf kind ∅ updates ≤
      capacity kind * (peak kindOf kind ∅ updates ⌈/⌉ capacity kind) :=
  le_smul_ceilDiv positive

/-- Fewer pages are not enough. -/
theorem pages_le_sum
    (positive : ∀ kind ∈ kinds, 0 < capacity kind)
    {share : γ → Nat}
    (enough :
      ∀ kind ∈ kinds,
        peak kindOf kind ∅ updates ≤ capacity kind * share kind) :
    pages kindOf kinds capacity updates ≤ ∑ kind ∈ kinds, share kind :=
  Finset.sum_le_sum fun kind member =>
    (ceilDiv_le_iff_le_smul (positive kind member)).mpr
      (enough kind member)

end Updates

end CacheBench.WorkingSet
