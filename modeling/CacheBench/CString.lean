import Mathlib.Algebra.Ring.Nat
import Mathlib.Data.List.TakeWhile
import Mathlib.Data.Nat.Find
import Mathlib.Tactic.Common

namespace CacheBench

/-!
# Bytes, words and C strings

The data every part of the program shares: NUL-terminated strings, the
little-endian bytes of an integer, and the length of a string read from raw
memory.
-/

/-- A C string: the bytes before its terminating NUL. -/
structure CString where
  bytes : List UInt8
  noNul : 0 ∉ bytes
  deriving DecidableEq

namespace CString

/-- What `strlen` returns for the string. -/
def length (string : CString) : Nat :=
  string.bytes.length

/-- The string that starts at the first of the given bytes. -/
def read (memory : List UInt8) : CString where
  bytes := memory.takeWhile (fun byte => byte != 0)
  noNul := by
    intro member
    have accepted := List.mem_takeWhile_imp member
    simp at accepted

@[ext] theorem ext
    {first second : CString}
    (sameBytes : first.bytes = second.bytes) :
    first = second := by
  cases first
  cases second
  simp_all

/-- Every byte of a string passes the test that reading stops at. -/
theorem ne_nul_of_mem
    (string : CString) :
    ∀ byte ∈ string.bytes, (byte != 0) = true := by
  intro byte member
  have notNul : byte ≠ 0 := by
    intro isNul
    subst byte
    exact string.noNul member
  simpa using notNul

/-- Reading continues past bytes that hold no NUL. -/
theorem read_append
    (string : CString)
    (rest : List UInt8) :
    (read (string.bytes ++ rest)).bytes =
      string.bytes ++ (read rest).bytes :=
  List.takeWhile_append_of_pos string.ne_nul_of_mem

/-- Reading stops at the first NUL. -/
theorem read_append_nul
    (string : CString)
    (rest : List UInt8) :
    read (string.bytes ++ 0 :: rest) = string := by
  apply ext
  rw [read_append]
  simp [read]

/-- A string reads as itself when nothing follows it. -/
theorem read_bytes (string : CString) : read string.bytes = string := by
  apply ext
  have whole := string.read_append []
  simpa [read] using whole

/-- One string after the other. -/
instance : Append CString where
  append first second :=
    { bytes := first.bytes ++ second.bytes
      noNul := by
        simp [first.noNul, second.noNul] }

@[simp] theorem bytes_append (first second : CString) :
    (first ++ second).bytes = first.bytes ++ second.bytes :=
  rfl

@[simp] theorem length_append (first second : CString) :
    (first ++ second).length = first.length + second.length :=
  List.length_append

end CString

/-- The bytes of a text written in ASCII. -/
def ascii (text : String) : List UInt8 :=
  text.toList.map fun char => UInt8.ofNat char.toNat

/-- The C string of a text without NUL. -/
def CString.ofText (text : String) : CString :=
  CString.read (ascii text)

/-- The memory that holds the given bytes, and zeros after them. -/
def bytesAt (bytes : List UInt8) (position : Nat) : UInt8 :=
  bytes[position]?.getD 0

/-- Byte `position` of the little-endian representation of an integer. -/
def leByte (value position : Nat) : UInt8 :=
  UInt8.ofNat (value / 256 ^ position)

/-- The first `count` bytes of the little-endian representation. -/
def leBytes (count value : Nat) : List UInt8 :=
  (List.range count).map (leByte value)

/-- The 32-bit integer stored little-endian in four consecutive bytes. -/
def leWord (byteAt : Nat → UInt8) : Nat :=
  (byteAt 0).toNat + 256 * (byteAt 1).toNat +
    65536 * (byteAt 2).toNat + 16777216 * (byteAt 3).toNat

/--
The length of the string that starts at `offset`, when a NUL occurs within the
next `readable` bytes.
-/
def strlenFrom (byteAt : Nat → UInt8) : Nat → Nat → Option Nat
  | 0, _ => none
  | readable + 1, offset =>
      if byteAt offset = 0 then
        some 0
      else
        (strlenFrom byteAt readable (offset + 1)).map (· + 1)

/-- `count` consecutive bytes from `start`. -/
def bytesFrom (byteAt : Nat → UInt8) (start count : Nat) : List UInt8 :=
  (List.range count).map fun position => byteAt (start + position)

/-- A string whose NUL is within reach has the position of that NUL as length. -/
theorem strlenFrom_eq_some
    {byteAt : Nat → UInt8}
    {readable offset length : Nat}
    (inReach : length < readable)
    (nonzero : ∀ position < length, byteAt (offset + position) ≠ 0)
    (terminated : byteAt (offset + length) = 0) :
    strlenFrom byteAt readable offset = some length := by
  induction length generalizing readable offset with
  | zero =>
      obtain ⟨remaining, rfl⟩ := Nat.exists_eq_succ_of_ne_zero (by omega : readable ≠ 0)
      have atStart : byteAt offset = 0 := by
        simpa using terminated
      simp [strlenFrom, atStart]
  | succ length inductionHypothesis =>
      obtain ⟨remaining, rfl⟩ := Nat.exists_eq_succ_of_ne_zero (by omega : readable ≠ 0)
      have startNonzero : byteAt offset ≠ 0 := by
        simpa using nonzero 0 (by omega)
      have tail :
          strlenFrom byteAt remaining (offset + 1) = some length :=
        inductionHypothesis
          (by omega)
          (by
            intro position inside
            have := nonzero (position + 1) (by omega)
            rwa [show offset + 1 + position = offset + (position + 1) by omega])
          (by
            rwa [show offset + 1 + length = offset + (length + 1) by omega])
      simp [strlenFrom, startNonzero, tail]

/-- A length found by reading is the position of the first NUL. -/
theorem strlenFrom_sound
    {byteAt : Nat → UInt8}
    {readable offset length : Nat}
    (found : strlenFrom byteAt readable offset = some length) :
    length < readable ∧
      (∀ position < length, byteAt (offset + position) ≠ 0) ∧
      byteAt (offset + length) = 0 := by
  induction readable generalizing offset length with
  | zero =>
      simp [strlenFrom] at found
  | succ readable inductionHypothesis =>
      by_cases atStart : byteAt offset = 0
      · simp only [strlenFrom, atStart, ↓reduceIte, Option.some.injEq] at found
        subst length
        refine ⟨by omega, ?_, by simpa using atStart⟩
        intro position inside
        omega
      · simp only [strlenFrom, atStart, ↓reduceIte,
          Option.map_eq_some_iff] at found
        obtain ⟨tailLength, tailFound, rfl⟩ := found
        obtain ⟨inReach, nonzero, terminated⟩ :=
          inductionHypothesis tailFound
        refine ⟨by omega, ?_, ?_⟩
        · intro position inside
          cases position with
          | zero =>
              simpa using atStart
          | succ position =>
              have := nonzero position (by omega)
              rwa [show offset + (position + 1) = offset + 1 + position by omega]
        · rwa [show offset + (tailLength + 1) = offset + 1 + tailLength by omega]

/-- A length is found exactly if a NUL is within reach. -/
theorem exists_strlenFrom_iff
    {byteAt : Nat → UInt8}
    {readable offset : Nat} :
    (∃ length, strlenFrom byteAt readable offset = some length) ↔
      ∃ position < readable, byteAt (offset + position) = 0 := by
  constructor
  · rintro ⟨length, found⟩
    obtain ⟨inReach, -, terminated⟩ := strlenFrom_sound found
    exact ⟨length, inReach, terminated⟩
  · rintro ⟨position, inReach, terminated⟩
    have occurs : ∃ position, byteAt (offset + position) = 0 :=
      ⟨position, terminated⟩
    exact ⟨Nat.find occurs, strlenFrom_eq_some
      (Nat.lt_of_le_of_lt (Nat.find_min' occurs terminated) inReach)
      (fun _ before => Nat.find_min occurs before)
      (Nat.find_spec occurs)⟩

@[simp] theorem length_bytesFrom
    (byteAt : Nat → UInt8)
    (start count : Nat) :
    (bytesFrom byteAt start count).length = count := by
  simp [bytesFrom]

/-- Byte sequences agree when every byte read agrees. -/
theorem bytesFrom_congr
    {first second : Nat → UInt8}
    {firstStart secondStart count : Nat}
    (same :
      ∀ position < count,
        first (firstStart + position) = second (secondStart + position)) :
    bytesFrom first firstStart count =
      bytesFrom second secondStart count := by
  apply List.map_congr_left
  intro position member
  exact same position (by simpa using member)

/-- Bytes up to a first NUL are a string with its terminator. -/
theorem exists_string
    {byteAt : Nat → UInt8}
    {address length : Nat}
    (nonzero : ∀ position < length, byteAt (address + position) ≠ 0)
    (terminated : byteAt (address + length) = 0) :
    ∃ string : CString,
      string.length = length ∧
        bytesFrom byteAt address (length + 1) = string.bytes ++ [0] := by
  refine ⟨⟨bytesFrom byteAt address length, ?_⟩, ?_, ?_⟩
  · intro isNul
    obtain ⟨position, inRange, isZero⟩ := List.mem_map.mp isNul
    exact nonzero position (List.mem_range.mp inRange) isZero
  · exact length_bytesFrom byteAt address length
  · simp [bytesFrom, List.range_succ, terminated]

/-- What is read up to the terminator of a string is the string. -/
theorem bytesFrom_of_string
    {byteAt : Nat → UInt8}
    {address length size : Nat}
    (measured : length + 1 = size)
    {string : CString}
    (isString : bytesFrom byteAt address size = string.bytes ++ [0]) :
    bytesFrom byteAt address length = string.bytes := by
  subst size
  have split :
      bytesFrom byteAt address (length + 1) =
        bytesFrom byteAt address length ++ [byteAt (address + length)] := by
    simp [bytesFrom, List.range_succ]
  rw [split] at isString
  exact (List.append_inj' isString rfl).1

/-- Reading further on in memory skips what comes first. -/
theorem bytesAt_append
    (leading rest : List UInt8)
    (position : Nat) :
    bytesAt (leading ++ rest) (leading.length + position) =
      bytesAt rest position := by
  rw [bytesAt, bytesAt,
    List.getElem?_append_right (Nat.le_add_right _ _),
    Nat.add_sub_cancel_left]

/-- The bytes of a string in memory are not NUL. -/
theorem CString.bytesAt_ne_nul
    (string : CString)
    (rest : List UInt8)
    {position : Nat}
    (inside : position < string.length) :
    bytesAt (string.bytes ++ rest) position ≠ 0 := by
  have inside : position < string.bytes.length := inside
  have notNul := string.ne_nul_of_mem _ (List.getElem_mem inside)
  rw [bytesAt, List.getElem?_append_left inside,
    List.getElem?_eq_getElem inside]
  simpa using notNul

/-- From an offset inside a string its length is that of the rest. -/
theorem CString.strlenFrom_eq
    (string : CString)
    (following : List UInt8)
    {offset : Nat}
    (inside : offset ≤ string.length) :
    strlenFrom (bytesAt (string.bytes ++ 0 :: following))
        ((string.bytes ++ 0 :: following).length - offset) offset =
      some (string.length - offset) := by
  apply strlenFrom_eq_some
  · simp only [List.length_append, List.length_cons, CString.length]
      at inside ⊢
    omega
  · intro position beforeEnd
    exact string.bytesAt_ne_nul _ (by omega)
  · have atEnd :
        offset + (string.length - offset) = string.bytes.length := by
      dsimp only [CString.length] at inside ⊢
      omega
    simp [bytesAt, atEnd]

/-- A string of as many letters. -/
def lettersString (count : Nat) : CString where
  bytes := List.replicate count 97
  noNul := by
    intro isNul
    exact absurd (List.eq_of_mem_replicate isNul) (by decide)

@[simp] theorem length_lettersString (count : Nat) :
    (lettersString count).length = count :=
  List.length_replicate

/-- The first bytes of a memory. -/
theorem bytesFrom_bytesAt
    (leading rest : List UInt8) :
    bytesFrom (bytesAt (leading ++ rest)) 0 leading.length = leading := by
  apply List.ext_getElem
  · simp
  · intro position inFirst inSecond
    simp [bytesFrom, bytesAt, List.getElem?_append_left inSecond,
      List.getElem?_eq_getElem inSecond]

end CacheBench
