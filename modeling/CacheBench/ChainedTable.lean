import CacheBench.FirstMatch
import Mathlib.Data.List.Count
import Mathlib.Data.List.Perm.Basic

namespace CacheBench.ChainedTable

open FirstMatch

/-!
# Hash tables with chained buckets

A table is a list of buckets.  An entry is filed in the bucket selected by an
index function on keys, and a bucket is searched linearly.  The representation
invariant has two parts: entries with an admissible key are in the bucket of
that key, and an admissible key occurs at most once.  Under both, looking a key
up is membership in the table as a whole, so the effect of every operation on
lookups follows from its effect on the entries up to permutation.

`Admissible` is a parameter because a client may file entries whose stored key
is not the key they were filed under.
-/

universe u v

variable {κ : Type u} {ε : Type v}

section Operations

variable [DecidableEq κ]

/-- The bucket at one position, empty outside the table. -/
def bucketAt (buckets : List (List ε)) (position : Nat) : List ε :=
  buckets[position]?.getD []

/-- The first entry with the given key in the bucket of that key. -/
def lookup
    (keyOf : ε → κ)
    (index : κ → Nat)
    (buckets : List (List ε))
    (key : κ) :
    Option ε :=
  (bucketAt buckets (index key)).find? (fun entry => keyOf entry = key)

/-- File an entry at the end of the bucket of a key. -/
def insert
    (index : κ → Nat)
    (buckets : List (List ε))
    (key : κ)
    (entry : ε) :
    List (List ε) :=
  buckets.modify (index key) (· ++ [entry])

/-- Remove the first entry with the given key from the bucket of that key. -/
def erase
    (keyOf : ε → κ)
    (index : κ → Nat)
    (buckets : List (List ε))
    (key : κ) :
    List (List ε) :=
  buckets.modify (index key)
    (·.eraseP fun entry => keyOf entry = key)

/-- Change the first entry with the given key in the bucket of that key. -/
def update
    (keyOf : ε → κ)
    (index : κ → Nat)
    (buckets : List (List ε))
    (key : κ)
    (change : ε → ε) :
    List (List ε) :=
  buckets.modify (index key)
    (updateFirst (fun entry => keyOf entry = key) change)

/-- Change every entry in place. -/
def mapEntries
    (change : ε → ε)
    (buckets : List (List ε)) :
    List (List ε) :=
  buckets.map (·.map change)

end Operations

/-- Entries with an admissible key are in the bucket of that key. -/
def Placed
    (Admissible : κ → Prop)
    (keyOf : ε → κ)
    (index : κ → Nat)
    (buckets : List (List ε)) : Prop :=
  ∀ position, ∀ entry ∈ bucketAt buckets position,
    Admissible (keyOf entry) →
    index (keyOf entry) = position

/-- An admissible key is the key of at most one entry. -/
def Unique
    [DecidableEq κ]
    (Admissible : κ → Prop)
    (keyOf : ε → κ)
    (buckets : List (List ε)) : Prop :=
  ∀ key, Admissible key →
    (buckets.flatten.map keyOf).count key ≤ 1

/-- The table splits around the bucket at a valid position. -/
theorem split_bucket
    {buckets : List (List ε)}
    {position : Nat}
    (inBounds : position < buckets.length) :
    ∃ before after,
      buckets = before ++ bucketAt buckets position :: after ∧
        before.length = position ∧
        ∀ change,
          buckets.modify position change =
            before ++ change (bucketAt buckets position) :: after := by
  refine ⟨buckets.take position, buckets.drop (position + 1), ?_, ?_, ?_⟩
  · simp [bucketAt, inBounds]
  · simp [Nat.le_of_lt inBounds]
  · intro change
    rw [List.modify_eq_take_cons_drop inBounds]
    simp [bucketAt, inBounds]

/-- The bucket at a position after a change of one bucket. -/
theorem bucketAt_modify
    (buckets : List (List ε))
    (position query : Nat)
    {change : List ε → List ε}
    (inBounds : position < buckets.length) :
    bucketAt (buckets.modify position change) query =
      if query = position then
        change (bucketAt buckets position)
      else
        bucketAt buckets query := by
  by_cases same : query = position
  · subst query
    simp [bucketAt, inBounds]
  · simp [bucketAt, same, Ne.symm same]

/-- Every entry of a bucket is an entry of the table. -/
theorem mem_flatten_of_mem_bucketAt
    {buckets : List (List ε)}
    {position : Nat}
    {entry : ε}
    (member : entry ∈ bucketAt buckets position) :
    entry ∈ buckets.flatten := by
  unfold bucketAt at member
  cases bucket : buckets[position]? with
  | none =>
      simp [bucket] at member
  | some items =>
      simp only [bucket, Option.getD_some] at member
      exact List.mem_flatten_of_mem
        (List.mem_of_getElem? bucket) member

/-- Every entry of the table is in some bucket. -/
theorem exists_bucketAt_of_mem_flatten
    {buckets : List (List ε)}
    {entry : ε}
    (member : entry ∈ buckets.flatten) :
    ∃ position, entry ∈ bucketAt buckets position := by
  obtain ⟨items, itemsMember, entryMember⟩ :=
    List.mem_flatten.mp member
  obtain ⟨position, inBounds, bucket⟩ :=
    List.getElem_of_mem itemsMember
  refine ⟨position, ?_⟩
  simpa [bucketAt, inBounds, bucket] using entryMember

section Lookup

variable [DecidableEq κ]
variable {Admissible : κ → Prop} {keyOf : ε → κ} {index : κ → Nat}
variable {buckets : List (List ε)}

/-- A found entry is in the table and carries the key. -/
theorem lookup_sound
    {key : κ}
    {entry : ε}
    (found : lookup keyOf index buckets key = some entry) :
    entry ∈ buckets.flatten ∧ keyOf entry = key := by
  have accepted := List.find?_some found
  have member := List.mem_of_find?_eq_some found
  exact ⟨mem_flatten_of_mem_bucketAt member,
    by simpa using accepted⟩

/-- Two entries of the table with one admissible key are the same entry. -/
theorem Unique.eq_of_key_eq
    (unique : Unique Admissible keyOf buckets)
    {first second : ε}
    (firstMember : first ∈ buckets.flatten)
    (secondMember : second ∈ buckets.flatten)
    (sameKey : keyOf first = keyOf second)
    (admissible : Admissible (keyOf first)) :
    first = second := by
  by_contra different
  obtain ⟨before, after, shape⟩ := List.append_of_mem firstMember
  have atMostOnce := unique (keyOf first) admissible
  have secondElsewhere : second ∈ before ++ after := by
    rw [shape] at secondMember
    simp only [List.mem_append, List.mem_cons] at secondMember ⊢
    rcases secondMember with inBefore | isFirst | inAfter
    · exact Or.inl inBefore
    · exact (different isFirst.symm).elim
    · exact Or.inr inAfter
  have positive :
      0 < ((before ++ after).map keyOf).count (keyOf first) := by
    rw [List.count_pos_iff, sameKey]
    exact List.mem_map_of_mem secondElsewhere
  rw [shape] at atMostOnce
  simp only [List.map_append, List.map_cons, List.count_append,
    List.count_cons_self] at atMostOnce positive
  omega

/-- Under the invariant, lookup is membership in the table. -/
theorem lookup_eq_some_iff
    (placed : Placed Admissible keyOf index buckets)
    (unique : Unique Admissible keyOf buckets)
    {key : κ}
    (admissible : Admissible key)
    {entry : ε} :
    lookup keyOf index buckets key = some entry ↔
      entry ∈ buckets.flatten ∧ keyOf entry = key := by
  constructor
  · exact lookup_sound
  · rintro ⟨member, rfl⟩
    obtain ⟨position, inBucket⟩ :=
      exists_bucketAt_of_mem_flatten member
    have position_eq := placed position entry inBucket admissible
    subst position
    cases search : lookup keyOf index buckets (keyOf entry) with
    | none =>
        have rejected := List.find?_eq_none.mp search entry inBucket
        simp at rejected
    | some found =>
        obtain ⟨foundMember, foundKey⟩ := lookup_sound search
        rw [unique.eq_of_key_eq member foundMember foundKey.symm admissible]

/-- Under the invariant, a failed lookup means the key does not occur. -/
theorem lookup_eq_none_iff
    (placed : Placed Admissible keyOf index buckets)
    {key : κ}
    (admissible : Admissible key) :
    lookup keyOf index buckets key = none ↔
      ∀ entry ∈ buckets.flatten, keyOf entry ≠ key := by
  constructor
  · intro missing entry member sameKey
    subst key
    obtain ⟨position, inBucket⟩ :=
      exists_bucketAt_of_mem_flatten member
    have position_eq := placed position entry inBucket admissible
    subst position
    have rejected := List.find?_eq_none.mp missing entry inBucket
    simp at rejected
  · intro absent
    apply List.find?_eq_none.mpr
    intro entry member
    simpa using absent entry (mem_flatten_of_mem_bucketAt member)

end Lookup

section Effects

variable {index : κ → Nat} {buckets : List (List ε)} {key : κ}

/-- Inserting adds one entry to the table. -/
theorem insert_perm
    (inBounds : index key < buckets.length)
    (entry : ε) :
    (insert index buckets key entry).flatten.Perm
      (entry :: buckets.flatten) := by
  obtain ⟨before, after, shape, -, changed⟩ := split_bucket inBounds
  rw [insert, changed]
  conv =>
    rhs
    rw [shape]
  simp only [List.flatten_append, List.flatten_cons, List.append_assoc]
  rw [← List.append_assoc, ← List.append_assoc]
  have moved :
      (before.flatten ++ bucketAt buckets (index key) ++
        entry :: after.flatten).Perm
      (entry ::
        (before.flatten ++ bucketAt buckets (index key) ++
          after.flatten)) :=
    List.perm_middle
  simpa using moved

end Effects

section KeyedEffects

variable [DecidableEq κ]
variable {keyOf : ε → κ} {index : κ → Nat}
variable {buckets : List (List ε)} {key : κ}

/-- Erasing a found entry removes exactly that entry. -/
theorem erase_perm
    (inBounds : index key < buckets.length)
    {entry : ε}
    (found : lookup keyOf index buckets key = some entry) :
    buckets.flatten.Perm
      (entry :: (erase keyOf index buckets key).flatten) := by
  obtain ⟨before, after, shape, -, changed⟩ := split_bucket inBounds
  obtain ⟨accepted, front, back, bucketShape, rejected⟩ :=
    split_of_find? found
  rw [erase, changed, bucketShape,
    eraseP_split (fun candidate => decide (keyOf candidate = key))
      accepted rejected]
  conv =>
    lhs
    rw [shape, bucketShape]
  simp only [List.flatten_append, List.flatten_cons, List.append_assoc]
  rw [← List.append_assoc, ← List.append_assoc before.flatten front]
  exact List.perm_middle

/-- Updating a found entry replaces exactly that entry. -/
theorem update_perm
    (inBounds : index key < buckets.length)
    {entry : ε}
    (found : lookup keyOf index buckets key = some entry)
    (change : ε → ε) :
    ∃ rest,
      buckets.flatten.Perm (entry :: rest) ∧
        (update keyOf index buckets key change).flatten.Perm
          (change entry :: rest) := by
  obtain ⟨before, after, shape, -, changed⟩ := split_bucket inBounds
  obtain ⟨accepted, front, back, bucketShape, rejected⟩ :=
    split_of_find? found
  refine ⟨before.flatten ++ front ++ (back ++ after.flatten), ?_, ?_⟩
  · conv =>
      lhs
      rw [shape, bucketShape]
    simp only [List.flatten_append, List.flatten_cons, List.append_assoc]
    rw [← List.append_assoc, ← List.append_assoc before.flatten front]
    exact List.perm_middle
  · rw [update, changed, bucketShape,
      updateFirst_split
        (fun candidate => decide (keyOf candidate = key))
        change accepted rejected]
    simp only [List.flatten_append, List.flatten_cons, List.append_assoc]
    rw [← List.append_assoc, ← List.append_assoc before.flatten front]
    exact List.perm_middle

/-- Changing every entry changes the flattened table pointwise. -/
theorem flatten_mapEntries
    (change : ε → ε)
    (buckets : List (List ε)) :
    (mapEntries change buckets).flatten = buckets.flatten.map change := by
  rw [mapEntries, List.map_flatten]

/-- Removing an entry does not affect lookups of other keys. -/
theorem lookup_erase_of_ne
    {keyOf : ε → κ}
    {index : κ → Nat}
    {buckets : List (List ε)}
    {key query : κ}
    (inBounds : index key < buckets.length)
    (different : query ≠ key) :
    lookup keyOf index (erase keyOf index buckets key) query =
      lookup keyOf index buckets query := by
  have apart :
      ∀ entry : ε, decide (keyOf entry = query) = true →
        decide (keyOf entry = key) = false := by
    intro entry isQuery
    rw [decide_eq_true_eq] at isQuery
    rw [decide_eq_false_iff_not, isQuery]
    exact different
  rw [lookup, erase, bucketAt_modify buckets _ _ inBounds]
  split
  · rename_i same
    rw [find?_eraseP apart, lookup, same]
  · rfl

/-- Filing an entry does not affect lookups that succeed. -/
theorem lookup_insert_of_some
    {keyOf : ε → κ}
    {index : κ → Nat}
    {buckets : List (List ε)}
    {key query : κ}
    {found : ε}
    (inBounds : index key < buckets.length)
    (entry : ε)
    (search : lookup keyOf index buckets query = some found) :
    lookup keyOf index (insert index buckets key entry) query =
      some found := by
  rw [lookup, insert, bucketAt_modify buckets _ _ inBounds]
  split
  · rename_i same
    rw [lookup, same] at search
    rw [List.find?_append, search]
    rfl
  · exact search

/-- Changing every entry without touching keys changes what lookups return. -/
theorem lookup_mapEntries
    {change : ε → ε}
    (sameKey : ∀ entry, keyOf (change entry) = keyOf entry)
    (buckets : List (List ε))
    (key : κ) :
    lookup keyOf index (mapEntries change buckets) key =
      (lookup keyOf index buckets key).map change := by
  have bucket :
      bucketAt (mapEntries change buckets) (index key) =
        (bucketAt buckets (index key)).map change := by
    unfold bucketAt mapEntries
    rw [List.getElem?_map]
    cases buckets[index key]? <;> rfl
  rw [lookup, bucket, List.find?_map]
  simp only [lookup, Function.comp_def, sameKey]

end KeyedEffects

section Placement

variable {Admissible : κ → Prop} {keyOf : ε → κ} {index : κ → Nat}
variable {buckets : List (List ε)} {key : κ}

/-- Filing an entry under its own key keeps the table placed. -/
theorem Placed.insert
    (placed : Placed Admissible keyOf index buckets)
    (inBounds : index key < buckets.length)
    {entry : ε}
    (ownKey : Admissible (keyOf entry) → keyOf entry = key) :
    Placed Admissible keyOf index
      (ChainedTable.insert index buckets key entry) := by
  intro position candidate member admissible
  rw [ChainedTable.insert, bucketAt_modify _ _ _ inBounds] at member
  by_cases same : position = index key
  · subst position
    simp only [↓reduceIte, List.mem_append, List.mem_singleton] at member
    rcases member with inBucket | isEntry
    · exact placed _ candidate inBucket admissible
    · subst candidate
      rw [ownKey admissible]
  · rw [if_neg same] at member
    exact placed position candidate member admissible

/-- A bucket change that adds no entry and no key keeps the table placed. -/
theorem Placed.modify
    (placed : Placed Admissible keyOf index buckets)
    {position : Nat}
    (inBounds : position < buckets.length)
    {change : List ε → List ε}
    (fromOld :
      ∀ candidate ∈ change (bucketAt buckets position),
        ∃ old ∈ bucketAt buckets position,
          keyOf candidate = keyOf old) :
    Placed Admissible keyOf index (buckets.modify position change) := by
  intro query candidate member admissible
  rw [bucketAt_modify _ _ _ inBounds] at member
  by_cases same : query = position
  · subst query
    rw [if_pos rfl] at member
    obtain ⟨old, oldMember, sameKey⟩ := fromOld candidate member
    rw [sameKey] at admissible ⊢
    exact placed position old oldMember admissible
  · rw [if_neg same] at member
    exact placed query candidate member admissible

/-- Changing every entry without touching keys keeps the table placed. -/
theorem Placed.mapEntries
    (placed : Placed Admissible keyOf index buckets)
    {change : ε → ε}
    (sameKey : ∀ entry, keyOf (change entry) = keyOf entry) :
    Placed Admissible keyOf index
      (ChainedTable.mapEntries change buckets) := by
  intro position candidate member admissible
  unfold bucketAt ChainedTable.mapEntries at member
  rw [List.getElem?_map] at member
  cases bucket : buckets[position]? with
  | none =>
      simp [bucket] at member
  | some items =>
      simp only [bucket, Option.map_some, Option.getD_some,
        List.mem_map] at member
      obtain ⟨old, oldMember, rfl⟩ := member
      rw [sameKey] at admissible ⊢
      exact placed position old
        (by simpa [bucketAt, bucket] using oldMember) admissible

end Placement

section Preservation

variable [DecidableEq κ]
variable {Admissible : κ → Prop} {keyOf : ε → κ} {index : κ → Nat}
variable {buckets : List (List ε)} {key : κ}

/-- Erasing keeps the table placed. -/
theorem Placed.erase
    (placed : Placed Admissible keyOf index buckets)
    (inBounds : index key < buckets.length) :
    Placed Admissible keyOf index
      (ChainedTable.erase keyOf index buckets key) := by
  apply placed.modify inBounds
  intro candidate member
  exact ⟨candidate, List.mem_of_mem_eraseP member, rfl⟩

/-- Updating an entry without touching its key keeps the table placed. -/
theorem Placed.update
    (placed : Placed Admissible keyOf index buckets)
    (inBounds : index key < buckets.length)
    {change : ε → ε}
    (sameKey : ∀ entry, keyOf (change entry) = keyOf entry) :
    Placed Admissible keyOf index
      (ChainedTable.update keyOf index buckets key change) := by
  apply placed.modify inBounds
  intro candidate member
  have keysKept :=
    map_updateFirst (fun entry => decide (keyOf entry = key))
      sameKey (bucketAt buckets (index key))
  have keyMember :
      keyOf candidate ∈ (bucketAt buckets (index key)).map keyOf := by
    rw [← keysKept]
    exact List.mem_map_of_mem member
  obtain ⟨old, oldMember, same⟩ := List.mem_map.mp keyMember
  exact ⟨old, oldMember, same.symm⟩

/-- Uniqueness only depends on the entries up to order. -/
theorem Unique.of_perm_keys
    {other : List (List ε)}
    (unique : Unique Admissible keyOf buckets)
    (sameKeys :
      (other.flatten.map keyOf).Perm (buckets.flatten.map keyOf)) :
    Unique Admissible keyOf other := by
  intro query admissible
  rw [sameKeys.count_eq]
  exact unique query admissible

/-- Inserting a key that does not occur keeps keys unique. -/
theorem Unique.insert
    (unique : Unique Admissible keyOf buckets)
    (inBounds : index key < buckets.length)
    {entry : ε}
    (fresh :
      Admissible (keyOf entry) →
      ∀ other ∈ buckets.flatten, keyOf other ≠ keyOf entry) :
    Unique Admissible keyOf
      (ChainedTable.insert index buckets key entry) := by
  intro query admissible
  rw [((insert_perm inBounds entry).map keyOf).count_eq,
    List.map_cons, List.count_cons]
  by_cases same : keyOf entry = query
  · subst query
    have absent :
        (buckets.flatten.map keyOf).count (keyOf entry) = 0 := by
      rw [List.count_eq_zero]
      intro member
      obtain ⟨other, otherMember, sameKey⟩ := List.mem_map.mp member
      exact fresh admissible other otherMember sameKey
    rw [absent]
    simp
  · have atMostOnce := unique query admissible
    simpa only [beq_iff_eq, same, ↓reduceIte, Nat.add_zero] using
      atMostOnce

/-- Removing entries keeps keys unique. -/
theorem Unique.erase
    (unique : Unique Admissible keyOf buckets)
    (inBounds : index key < buckets.length)
    {entry : ε}
    (found : lookup keyOf index buckets key = some entry) :
    Unique Admissible keyOf
      (ChainedTable.erase keyOf index buckets key) := by
  intro query admissible
  have atMostOnce := unique query admissible
  rw [((erase_perm inBounds found).map keyOf).count_eq,
    List.map_cons, List.count_cons] at atMostOnce
  omega

/-- Changing every entry without touching keys keeps keys unique. -/
theorem Unique.mapEntries
    (unique : Unique Admissible keyOf buckets)
    {change : ε → ε}
    (sameKey : ∀ entry, keyOf (change entry) = keyOf entry) :
    Unique Admissible keyOf
      (ChainedTable.mapEntries change buckets) := by
  apply unique.of_perm_keys
  rw [flatten_mapEntries, List.map_map]
  simp [Function.comp_def, sameKey]

/-- Updating an entry without touching its key keeps keys unique. -/
theorem Unique.update
    (unique : Unique Admissible keyOf buckets)
    (inBounds : index key < buckets.length)
    {entry : ε}
    (found : lookup keyOf index buckets key = some entry)
    {change : ε → ε}
    (sameKey : ∀ entry, keyOf (change entry) = keyOf entry) :
    Unique Admissible keyOf
      (ChainedTable.update keyOf index buckets key change) := by
  obtain ⟨rest, oldPerm, newPerm⟩ := update_perm inBounds found change
  apply unique.of_perm_keys
  refine (newPerm.map keyOf).trans ?_
  rw [List.map_cons, sameKey, ← List.map_cons]
  exact (oldPerm.map keyOf).symm

end Preservation

end CacheBench.ChainedTable
