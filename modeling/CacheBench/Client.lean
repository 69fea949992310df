import CacheBench.Server

namespace CacheBench

/-!
# The client of `client.c`

The client formats a request in its buffer and sends it with the terminator.
Keys and values are put into the text as they are.  A text that is too long for
the buffer overruns it.
-/

/-- The digits of a number are those from 0 to 9. -/
theorem toNat_of_mem_toDigits
    {number : Nat}
    {digit : Char}
    (member : digit ∈ Nat.toDigits 10 number) :
    48 ≤ digit.toNat ∧ digit.toNat ≤ 57 := by
  have isDigit :=
    Nat.isDigit_of_mem_toDigits (by decide) (by decide) member
  simp only [Char.isDigit, Bool.and_eq_true, decide_eq_true_eq,
    UInt32.le_iff_toNat_le] at isDigit
  exact isDigit

/-- A digit as a byte. -/
theorem toNat_digit
    {digit : Char}
    (bounded : digit.toNat ≤ 57) :
    (UInt8.ofNat digit.toNat).toNat = digit.toNat := by
  rw [UInt8.toNat_ofNat', Nat.mod_eq_of_lt (by omega)]

/-- The bytes of a number are the digits from 0 to 9. -/
theorem toNat_of_mem_decimal
    {number : Nat}
    {byte : UInt8}
    (member : byte ∈ decimal number) :
    48 ≤ byte.toNat ∧ byte.toNat ≤ 57 := by
  obtain ⟨digit, isDigit, rfl⟩ := List.mem_map.mp member
  obtain ⟨lower, upper⟩ := toNat_of_mem_toDigits isDigit
  rw [toNat_digit upper]
  exact ⟨lower, upper⟩

/-- The digits of a number are not NUL. -/
theorem decimal_noNul (number : Nat) : 0 ∉ decimal number := by
  intro isNul
  exact absurd (toNat_of_mem_decimal isNul).1 (by decide)

/-- `%lu` as a string. -/
def decimalString (number : Nat) : CString where
  bytes := decimal number
  noNul := decimal_noNul number

namespace Client

/-- `buffer_size`. -/
def bufferSize : Nat := 2 ^ 20

/-- `sprintf` into the buffer, terminator included. -/
def intoBuffer (text : CString) : Outcome CString :=
  if text.length < bufferSize then
    .ok text
  else
    .error .outOfBounds

/-- `cache_send`: what is passed to `nn_send`. -/
def cacheSend (msg : CString) : List UInt8 :=
  msg.bytes ++ [0]

/-- The text of `cache_get`. -/
def getText (key : CString) : CString :=
  CString.ofText "GET /" ++ key

/-- Send a GET request. -/
def cacheGet (key : CString) : Outcome (List UInt8) := do
  let msg ← intoBuffer (getText key)
  .ok (cacheSend msg)

/--
The text of `cache_set`.  The last byte of the value is checked to be NUL, so
that the string `sprintf` reads ends inside the value.
-/
def putText
    (key : CString)
    (val : Nat → UInt8)
    (size : UInt32) :
    Outcome CString :=
  if val (size - 1).toNat ≠ 0 then
    .error .assertionFailed
  else
    .ok
      (CString.ofText "PUT /" ++ key ++ CString.ofText "/" ++
        CString.read (bytesFrom val 0 ((size - 1).toNat + 1)))

/-- Send a PUT request. -/
def cacheSet
    (key : CString)
    (val : Nat → UInt8)
    (size : UInt32) :
    Outcome (List UInt8) := do
  let text ← putText key val size
  let msg ← intoBuffer text
  .ok (cacheSend msg)

/-- The text with which `create_cache` sets the size. -/
def memsizeText (maxmem : UInt64) : CString :=
  CString.ofText "POST /memsize/" ++ decimalString maxmem.toNat

/-- Connect, and set the size of the cache unless it is 0. -/
def createCache (maxmem : UInt64) : Outcome (Option (List UInt8)) :=
  if 0 < maxmem then do
    let msg ← intoBuffer (memsizeText maxmem)
    .ok (some (cacheSend msg))
  else
    .ok none

end Client

end CacheBench
