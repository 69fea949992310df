import Mathlib.Data.Nat.Basic
import Mathlib.Tactic.Common

namespace CacheBench.Bitmap

open BitVec

/-!
# Bitmaps over arrays of machine words

A bitmap is a fixed-length array of `w`-bit words.  Bit `index` lives in word
`index / w` and is counted from the most significant end of that word.  The
module proves how toggling one bit changes the whole bitmap and that a
word-by-word search finds the least clear bit.  Nothing here depends on what
the bits stand for.
-/

/-- One bit of a word list, most significant bit of the first word first. -/
def bitOf (words : List (BitVec w)) (index : Nat) : Bool :=
  (words[index / w]?.getD 0#w).getMsbD (index % w)

/-- One bit of a fixed-length word array. -/
def bit (words : Vector (BitVec w) n) (index : Nat) : Bool :=
  bitOf words.toList index

/-- The mask selecting one position of a word, counted from the top. -/
def mask (w position : Nat) : BitVec w :=
  intMin w >>> position

/-- A mask has exactly its own bit set. -/
theorem getMsbD_mask
    {position index : Nat}
    (inWord : index < w) :
    (mask w position).getMsbD index = decide (index = position) := by
  rw [mask, getMsbD_ushiftRight, getMsbD_intMin]
  grind

/-- A bit of the array is a bit of the word that holds it. -/
theorem bit_eq_getMsbD
    {words : Vector (BitVec w) n}
    {index : Nat}
    (inBounds : index / w < n) :
    bit words index = words[index / w].getMsbD (index % w) := by
  simp [bit, bitOf, inBounds]

/-- An array of zero words has no bit set. -/
theorem bit_replicate_zero
    (w n index : Nat) :
    bit (Vector.replicate n 0#w) index = false := by
  rw [bit, bitOf, Vector.toList_replicate, List.getElem?_replicate]
  split <;> simp

/-- Storing one word changes exactly the bits of that word. -/
theorem bit_set
    (words : Vector (BitVec w) n)
    (word : BitVec w)
    {position : Nat}
    (inBounds : position < n)
    (index : Nat) :
    bit (words.set position word inBounds) index =
      if index / w = position then
        word.getMsbD (index % w)
      else
        bit words index := by
  by_cases indexInBounds : index / w < n
  · rw [bit_eq_getMsbD indexInBounds, Vector.getElem_set]
    by_cases same : position = index / w
    · simp [same]
    · rw [if_neg same, if_neg (Ne.symm same),
        bit_eq_getMsbD indexInBounds]
  · have notSame : index / w ≠ position := by
      omega
    simp [bit, bitOf, indexInBounds, notSame]

/-- Flip one bit by an exclusive or with its mask. -/
def toggle
    (words : Vector (BitVec w) n)
    (index : Nat)
    (inBounds : index / w < n) :
    Vector (BitVec w) n :=
  words.set (index / w)
    (words[index / w] ^^^ mask w (index % w)) inBounds

/-- Toggling flips the addressed bit and keeps every other bit. -/
theorem bit_toggle
    (words : Vector (BitVec w) n)
    {index : Nat}
    (inBounds : index / w < n)
    (positive : 0 < w)
    (query : Nat) :
    bit (toggle words index inBounds) query =
      if query = index then
        !(bit words index)
      else
        bit words query := by
  rw [toggle, bit_set]
  by_cases sameWord : query / w = index / w
  · have queryInBounds : query / w < n := by
      omega
    have positionInWord : query % w < w :=
      Nat.mod_lt _ positive
    have sameBit : query % w = index % w ↔ query = index := by
      constructor
      · intro samePosition
        rw [← Nat.div_add_mod query w, ← Nat.div_add_mod index w,
          sameWord, samePosition]
      · intro same
        rw [same]
    rw [if_pos sameWord, getMsbD_xor, getMsbD_mask positionInWord]
    simp only [sameBit]
    by_cases same : query = index
    · subst query
      simp [bit_eq_getMsbD inBounds]
    · simp [same, bit_eq_getMsbD queryInBounds, sameWord]
  · have different : query ≠ index := by
      intro same
      exact sameWord (by rw [same])
    rw [if_neg sameWord, if_neg different]

/-- The number of leading ones of a word. -/
def leadingOnes (word : BitVec w) : Nat :=
  (clz (~~~word)).toNat

/-- The complement of a word that is not full is not zero. -/
private theorem not_ne_zero
    {word : BitVec w}
    (notFull : word ≠ allOnes w) :
    ~~~word ≠ 0#w := by
  intro isZero
  apply notFull
  rw [← BitVec.not_not (b := word), isZero, BitVec.not_zero]

/-- Leading ones never exceed the word. -/
private theorem leadingOnes_le (word : BitVec w) :
    leadingOnes word ≤ w := by
  have bounded := clz_le (x := ~~~word)
  have fits : w < 2 ^ w := Nat.lt_two_pow_self
  rw [BitVec.le_def] at bounded
  simpa [leadingOnes, Nat.mod_eq_of_lt fits] using bounded

/-- A word with a clear bit has its leading ones end inside the word. -/
theorem leadingOnes_lt
    {word : BitVec w}
    (notFull : word ≠ allOnes w) :
    leadingOnes word < w := by
  have below :=
    (clz_lt_iff_ne_zero (x := ~~~word)).mpr (not_ne_zero notFull)
  have fits : w < 2 ^ w := Nat.lt_two_pow_self
  rw [BitVec.lt_def] at below
  simpa [leadingOnes, Nat.mod_eq_of_lt fits] using below

/-- The bit after the leading ones is clear. -/
theorem getMsbD_leadingOnes
    {word : BitVec w}
    (notFull : word ≠ allOnes w) :
    word.getMsbD (leadingOnes word) = false := by
  have inWord := leadingOnes_lt notFull
  have complementSet :=
    getLsbD_true_clz_of_ne_zero
      (x := ~~~word) (by omega) (not_ne_zero notFull)
  rw [← leadingOnes, getLsbD_not] at complementSet
  rw [getMsbD_eq_getLsbD]
  grind

/-- Every bit among the leading ones is set. -/
theorem getMsbD_of_lt_leadingOnes
    {word : BitVec w}
    {index : Nat}
    (below : index < leadingOnes word) :
    word.getMsbD index = true := by
  have bounded := leadingOnes_le word
  have complementClear :=
    getLsbD_false_of_clzAuxRec
      (x := ~~~word) (n := w - 1)
      (by
        intro position above
        simp [show w ≤ position by omega])
      (leadingOnes word - 1 - index)
  change
    (~~~word).getLsbD
      (w - leadingOnes word + (leadingOnes word - 1 - index)) =
        false at complementClear
  rw [show w - leadingOnes word + (leadingOnes word - 1 - index) =
      w - 1 - index by omega, getLsbD_not] at complementClear
  rw [getMsbD_eq_getLsbD]
  grind

/-- The least clear bit of a word list, searched word by word. -/
def firstClear? : List (BitVec w) → Option Nat
  | [] => none
  | word :: rest =>
      if word = allOnes w then
        (firstClear? rest).map (· + w)
      else
        some (leadingOnes word)

/-- Bits of the head word come first. -/
theorem bitOf_cons_of_lt
    (word : BitVec w)
    (rest : List (BitVec w))
    {index : Nat}
    (inHead : index < w) :
    bitOf (word :: rest) index = word.getMsbD index := by
  simp [bitOf, Nat.div_eq_of_lt inHead, Nat.mod_eq_of_lt inHead]

/-- Bits past the head word are the bits of the remaining words. -/
theorem bitOf_cons_add
    (word : BitVec w)
    (rest : List (BitVec w))
    (positive : 0 < w)
    (index : Nat) :
    bitOf (word :: rest) (index + w) = bitOf rest index := by
  simp [bitOf, Nat.add_div_right index positive]

/-- What the search promises about the bit it returns. -/
structure IsFirstClear
    (words : List (BitVec w))
    (index : Nat) : Prop where
  inBounds : index < w * words.length
  clear : bitOf words index = false
  least : ∀ {earlier}, earlier < index → bitOf words earlier = true

/-- A search that succeeds returns the least clear bit. -/
theorem firstClear?_sound
    {words : List (BitVec w)}
    {index : Nat}
    (positive : 0 < w)
    (found : firstClear? words = some index) :
    IsFirstClear words index := by
  induction words generalizing index with
  | nil =>
      simp [firstClear?] at found
  | cons word rest inductionHypothesis =>
      by_cases full : word = allOnes w
      · simp only [firstClear?, full, ↓reduceIte, Option.map_eq_some_iff]
          at found
        obtain ⟨later, foundLater, rfl⟩ := found
        have tail := inductionHypothesis foundLater
        refine ⟨?_, ?_, ?_⟩
        · have := tail.inBounds
          rw [List.length_cons, Nat.mul_succ]
          omega
        · rw [bitOf_cons_add word rest positive]
          exact tail.clear
        · intro earlier before
          by_cases inHead : earlier < w
          · rw [bitOf_cons_of_lt word rest inHead, full]
            simp [inHead]
          · obtain ⟨offset, rfl⟩ := Nat.exists_eq_add_of_le' (Nat.le_of_not_lt inHead)
            rw [bitOf_cons_add word rest positive]
            exact tail.least (by omega)
      · simp only [firstClear?, full, ↓reduceIte, Option.some.injEq]
          at found
        subst index
        have inHead := leadingOnes_lt full
        refine ⟨?_, ?_, ?_⟩
        · rw [List.length_cons, Nat.mul_succ]
          omega
        · rw [bitOf_cons_of_lt word rest inHead]
          exact getMsbD_leadingOnes full
        · intro earlier before
          rw [bitOf_cons_of_lt word rest (by omega)]
          exact getMsbD_of_lt_leadingOnes before

/-- A search that fails has seen only set bits. -/
theorem firstClear?_none
    {words : List (BitVec w)}
    (positive : 0 < w)
    (notFound : firstClear? words = none)
    {index : Nat}
    (inBounds : index < w * words.length) :
    bitOf words index = true := by
  induction words generalizing index with
  | nil =>
      simp at inBounds
  | cons word rest inductionHypothesis =>
      by_cases full : word = allOnes w
      · simp only [firstClear?, full, ↓reduceIte, Option.map_eq_none_iff]
          at notFound
        by_cases inHead : index < w
        · rw [bitOf_cons_of_lt word rest inHead, full]
          simp [inHead]
        · obtain ⟨offset, rfl⟩ := Nat.exists_eq_add_of_le' (Nat.le_of_not_lt inHead)
          rw [bitOf_cons_add word rest positive]
          apply inductionHypothesis notFound
          rw [List.length_cons, Nat.mul_succ] at inBounds
          omega
      · simp [firstClear?, full] at notFound

end CacheBench.Bitmap
