import CacheBench.Execution
import Mathlib.Logic.Function.Basic

namespace CacheBench.EvictingMap

open Execution

/-!
# A finite map that may forget

The abstract behaviour of a cache over arbitrary keys and values.  A set that
succeeds may drop one other entry, of the same class as the new value; a set
that fails drops the entry it was to replace.  Nothing else changes a value.
-/

universe u v

/-- What a client sees of one operation. -/
inductive Action (κ : Type u) (ν : Type v) where
  | set (key : κ) (value : ν) (stored : Bool)
  | get (key : κ) (found : Option ν)
  | delete (key : κ) (removed : Bool)

/-- The map without entries. -/
def empty {κ : Type u} {ν : Type v} : κ → Option ν :=
  fun _ => none

section Step

variable {κ : Type u} {ν : Type v} [DecidableEq κ]

/-- The map with one entry dropped. -/
def drop (map : κ → Option ν) (key : κ) : κ → Option ν :=
  Function.update map key none

/-- The map with one entry put in. -/
def put (map : κ → Option ν) (key : κ) (value : ν) : κ → Option ν :=
  Function.update map key (some value)

/-- The operations of the map; `SameClass` limits what a set may drop. -/
inductive Step (SameClass : ν → ν → Prop) :
    (κ → Option ν) → Action κ ν → (κ → Option ν) → Prop where
  | get
      {map : κ → Option ν}
      {key : κ}
      {found : Option ν}
      (entry : map key = found) :
      Step SameClass map (.get key found) map
  | delete
      {map : κ → Option ν}
      {key : κ}
      {value : ν}
      (present : map key = some value) :
      Step SameClass map (.delete key true) (drop map key)
  | deleteAbsent
      {map : κ → Option ν}
      {key : κ}
      (absent : map key = none) :
      Step SameClass map (.delete key false) map
  | set
      (map : κ → Option ν)
      (key : κ)
      (value : ν) :
      Step SameClass map (.set key value true) (put map key value)
  | setEvicting
      {map : κ → Option ν}
      {key victim : κ}
      {value old : ν}
      (other : victim ≠ key)
      (present : map victim = some old)
      (sameClass : SameClass old value) :
      Step SameClass map (.set key value true)
        (put (drop map victim) key value)
  | setRefused
      (map : κ → Option ν)
      (key : κ)
      (value : ν) :
      Step SameClass map (.set key value false) (drop map key)

/-- An action that may change the entry of a key on purpose. -/
def Action.Touches (key : κ) : Action κ ν → Prop
  | .set other _ _ => other = key
  | .get _ _ => False
  | .delete other removed => other = key ∧ removed = true

variable {SameClass : ν → ν → Prop}

/-- A get returns the entry and changes nothing. -/
theorem Step.of_get
    {map next : κ → Option ν}
    {key : κ}
    {found : Option ν}
    (step : Step SameClass map (.get key found) next) :
    map key = found ∧ next = map := by
  cases step with
  | get entry => exact ⟨entry, rfl⟩

/-- An entry after a step was put there by the step, or was there before. -/
theorem Step.entry
    {map next : κ → Option ν}
    {action : Action κ ν}
    (step : Step SameClass map action next)
    {key : κ}
    {value : ν}
    (present : next key = some value) :
    action = .set key value true ∨
      (map key = some value ∧ ¬ action.Touches key) := by
  cases step with
  | get entry =>
      exact Or.inr ⟨present, fun touches => touches⟩
  | delete =>
      rename_i other old otherPresent
      by_cases same : key = other
      · simp [drop, same] at present
      · refine Or.inr ⟨by simpa [drop, same] using present, ?_⟩
        exact fun touches => same touches.1.symm
  | deleteAbsent =>
      exact Or.inr ⟨present, fun touches => Bool.noConfusion touches.2⟩
  | set other stored =>
      by_cases same : key = other
      · subst other
        simp only [put, Function.update_self, Option.some.injEq] at present
        rw [present]
        exact Or.inl rfl
      · refine Or.inr ⟨by simpa [put, same] using present, ?_⟩
        exact fun touches => same touches.symm
  | setEvicting otherVictim victimPresent sameClass =>
      rename_i other victim stored old
      by_cases same : key = other
      · subst other
        simp only [put, Function.update_self, Option.some.injEq] at present
        rw [present]
        exact Or.inl rfl
      · by_cases isVictim : key = victim
        · subst victim
          simp [put, drop, same] at present
        · refine Or.inr ⟨by simpa [put, drop, same, isVictim] using present,
            fun touches => same touches.symm⟩
  | setRefused other stored =>
      by_cases same : key = other
      · simp [drop, same] at present
      · refine Or.inr ⟨by simpa [drop, same] using present, ?_⟩
        exact fun touches => same touches.symm

/--
In every run from the empty map, an entry is the value of the latest set of its
key, which was stored, and the key was not deleted since.
-/
theorem entry_since
    {history : List (Action κ ν)}
    {map : κ → Option ν}
    (run : Run (Step SameClass) empty history map)
    {key : κ}
    {value : ν}
    (present : map key = some value) :
    Since (fun action => ¬ action.Touches key)
      (fun action => action = .set key value true) history := by
  induction run generalizing value with
  | nil =>
      simp [empty] at present
  | snoc earlier last inductionHypothesis =>
      rcases last.entry present with isSet | ⟨before, keeps⟩
      · exact since_of_holds _ isSet
      · exact (inductionHypothesis before).snoc keeps

end Step

end CacheBench.EvictingMap
