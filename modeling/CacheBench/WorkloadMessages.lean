import CacheBench.UnansweredRequests

namespace CacheBench

open Execution

/-!
# The messages of the workload

`sim_set` cuts a value of a random size out of `val_ls`, and `cache_set` of the
client formats it together with the key into a buffer that is as long as
`val_ls`.  The largest value leaves room for a key of four digits.
-/

namespace Workload

/-! ## Sizes -/

/-- The largest size leaves 11 bytes of `val_ls`. -/
theorem pickSize_le
    {roll next size : Nat}
    (picked : pickSize roll next = some size) :
    size ≤ 2 ^ 20 - 11 := by
  unfold pickSize at picked
  split_ifs at picked
  case neg =>
    split at picked <;> cases picked <;> decide
  all_goals
    rw [Option.some.injEq] at picked
    omega

/-- The message for a value cut out of an array without NULs. -/
theorem exists_putText
    {valLs : Nat → UInt8}
    {size : Nat}
    (nonzero : ∀ index < size, valLs index ≠ 0)
    (small : size < 2 ^ 20)
    (key : CString) :
    ∃ text,
      Client.putText key (Function.update valLs size 0)
          (UInt32.ofNat (size + 1)) =
        .ok text ∧
        text.length = 6 + key.length + size := by
  have lastIndex : (UInt32.ofNat (size + 1) - 1).toNat = size := by
    rw [UInt32.ofNat_add, UInt32.ofNat_one, UInt32.add_sub_cancel,
      UInt32.toNat_ofNat', Nat.mod_eq_of_lt (by omega)]
  obtain ⟨string, length, isString⟩ :=
    @exists_string (Function.update valLs size 0) 0 size
      (by
        intro position inside
        rw [Nat.zero_add, Function.update_of_ne (Nat.ne_of_lt inside)]
        exact nonzero position inside)
      (by simp)
  refine ⟨CString.ofText "PUT /" ++ key ++ CString.ofText "/" ++ string,
    ?_, ?_⟩
  · rw [Client.putText, lastIndex, if_neg (by simp), isString,
      string.read_append_nul]
  · have first : (CString.ofText "PUT /").length = 5 := by
      decide
    have second : (CString.ofText "/").length = 1 := by
      decide
    simp only [CString.length_append, first, second, length]
    omega

/-- A key number takes at most four digits exactly if it is below 10000. -/
theorem length_decimalString_le_iff (number : Nat) :
    (decimalString number).length ≤ 4 ↔ number < 10000 := by
  have length :
      (decimalString number).length = (Nat.toDigits 10 number).length :=
    List.length_map _
  rw [length, Nat.length_toDigits_le_iff (by decide) (by decide)]

/-! ## The array of the program -/

/-- `val_ls` holds what `main` filled it with. -/
def Filled (valLs : Nat → UInt8) : Prop :=
  ∀ index, valLs index = 41

theorem Filled.ne_nul
    {valLs : Nat → UInt8}
    (filled : Filled valLs)
    (index : Nat) :
    valLs index ≠ 0 := by
  rw [filled index]
  decide

/-- An assignment that was in bounds. -/
theorem assign_eq_ok
    {valLs after : Nat → UInt8}
    {index : Nat}
    {byte : UInt8}
    (assigned : assign valLs index byte = .ok after) :
    after = Function.update valLs index byte := by
  unfold assign at assigned
  split at assigned
  · cases assigned
    rfl
  · cases assigned

/-- `sim_set` leaves the array as it found it. -/
theorem simSet_filled
    {keyNum : UInt64}
    {valLs after : Nat → UInt8}
    {rand : Nat → Nat}
    {message : Option (List UInt8)}
    (filled : Filled valLs)
    (returned : simSet keyNum valLs rand = .ok (message, after)) :
    Filled after := by
  obtain ⟨size, picked⟩ := exists_pickSize (rand 0 % 500) (rand 1)
  obtain ⟨key, -, rest⟩ := bind_eq_ok.mp returned
  rw [picked] at rest
  obtain ⟨cut, cutting, rest⟩ := bind_eq_ok.mp rest
  obtain ⟨sent, -, rest⟩ := bind_eq_ok.mp rest
  obtain ⟨restored, restoring, rest⟩ := bind_eq_ok.mp rest
  cases rest
  rw [assign_eq_ok restoring, assign_eq_ok cutting]
  intro index
  by_cases atSize : index = size
  · simp [atSize]
  · simp [atSize, filled index]

/-- Every step of either program leaves the array filled. -/
theorem filled_step
    {system after : System}
    {action : Action}
    (filled : Filled system.vars.valLs)
    (step : system.Step action after) :
    Filled after.vars.valLs := by
  cases step with
  | preliminarySet created set =>
      exact simSet_filled filled set
  | sendRequest looping sent =>
      unfold sendRequest at sent
      split at sent
      · obtain ⟨⟨message, valLs⟩, set, rest⟩ := bind_eq_ok.mp sent
        cases rest
        exact simSet_filled filled set
      · obtain ⟨message, -, rest⟩ := bind_eq_ok.mp sent
        cases rest
        exact filled
  | createCache _ _ => exact filled
  | countSend _ => exact filled
  | receive _ _ => exact filled
  | receiveNothing _ => exact filled
  | write _ => exact filled
  | serve _ _ => exact filled

/-- The array is filled in every run. -/
theorem filled_of_run
    {server : Server}
    {history : List Action}
    {system : System}
    (run : Run System.Step (System.start server) history system) :
    Filled system.vars.valLs :=
  run.invariant (fun system => Filled system.vars.valLs) (fun _ => rfl)
    (fun filled (_ : True) step => filled_step filled step)
    fun _ _ => trivial

/-! ## Messages -/

/-- The message `sim_set` formats for a key, and that it fits the buffer. -/
def MessageFits
    (keyNum : UInt64)
    (valLs : Nat → UInt8)
    (rand : Nat → Nat) : Prop :=
  ∃ size text,
    pickSize (rand 0 % 500) (rand 1) = some size ∧
      Client.putText (decimalString keyNum.toNat)
          (Function.update valLs size 0) (UInt32.ofNat (size + 1)) =
        .ok text ∧
      text.length + 1 ≤ Client.bufferSize

section Fits

variable {keyNum : UInt64} {valLs : Nat → UInt8} {rand : Nat → Nat}

/-- A message takes 7 bytes, the digits of the key and the value. -/
theorem messageFits_iff
    (filled : Filled valLs)
    {size : Nat}
    (picked : pickSize (rand 0 % 500) (rand 1) = some size) :
    MessageFits keyNum valLs rand ↔
      7 + (decimalString keyNum.toNat).length + size ≤ 2 ^ 20 := by
  have largest := pickSize_le picked
  obtain ⟨text, formatted, length⟩ :=
    @exists_putText valLs size (fun index _ => filled.ne_nul index)
      (by omega) (decimalString keyNum.toNat)
  unfold MessageFits Client.bufferSize
  constructor
  · rintro ⟨other, otherText, otherPicked, otherFormatted, fits⟩
    rw [picked, Option.some.injEq] at otherPicked
    subst other
    rw [formatted, Except.ok.injEq] at otherFormatted
    subst otherText
    omega
  · intro fits
    exact ⟨size, text, picked, formatted, by omega⟩

/-- `sim_set` returns exactly if the message fits, for keys `key_ls` holds. -/
theorem simSet_returns_iff
    (filled : Filled valLs)
    (keyFits : (decimalString keyNum.toNat).length < 20) :
    (∃ result, simSet keyNum valLs rand = .ok result) ↔
      MessageFits keyNum valLs rand := by
  obtain ⟨size, picked⟩ := exists_pickSize (rand 0 % 500) (rand 1)
  have largest := pickSize_le picked
  have inArray : size < 2 ^ 20 := by
    omega
  obtain ⟨text, formatted, length⟩ :=
    exists_putText (fun index _ => filled.ne_nul index) inArray
      (decimalString keyNum.toNat)
  rw [messageFits_iff filled picked]
  simp only [simSet, keyText, keyFits, ↓reduceIte, bind, Except.bind,
    picked, assign, inArray, Client.cacheSet, formatted, Client.intoBuffer]
  unfold Client.bufferSize
  by_cases fits : text.length < 2 ^ 20
  · simp only [fits, ↓reduceIte]
    refine iff_of_true ⟨_, rfl⟩ ?_
    omega
  · simp only [fits, ↓reduceIte]
    refine iff_of_false (fun returns => ?_) ?_
    · obtain ⟨result, impossible⟩ := returns
      cases impossible
    · omega

end Fits

/-- Results of `rand()` for which the value is as long as it can be. -/
def largestRolls (call : Nat) : Nat :=
  if call = 0 then 0 else 1047565

theorem largestRolls_lt (call : Nat) : largestRolls call < 2 ^ 31 := by
  unfold largestRolls
  split <;> decide

theorem pickSize_largestRolls :
    pickSize (largestRolls 0 % 500) (largestRolls 1) =
      some (2 ^ 20 - 11) := by
  decide

/--
In every run `sim_set` stays inside `val_ls`, and its message fits the client's
buffer exactly if the digits of the key and the value leave room for 7 bytes.
That holds for all results of `rand()` exactly for keys of at most four digits.
-/
theorem messages_fit_iff
    {server : Server}
    {history : List Action}
    {system : System}
    (run : Run System.Step (System.start server) history system)
    (keyNum : UInt64) :
    (∀ rand : Nat → Nat, ∃ size,
      pickSize (rand 0 % 500) (rand 1) = some size ∧
        size < 2 ^ 20 ∧
        (MessageFits keyNum system.vars.valLs rand ↔
          7 + (decimalString keyNum.toNat).length + size ≤ 2 ^ 20)) ∧
      ((∀ rand : Nat → Nat,
        (∀ call, rand call < 2 ^ 31) →
          MessageFits keyNum system.vars.valLs rand) ↔
        keyNum.toNat < 10000) := by
  have filled := filled_of_run run
  refine ⟨?_, ?_⟩
  · intro rand
    obtain ⟨size, picked⟩ := exists_pickSize (rand 0 % 500) (rand 1)
    have largest := pickSize_le picked
    exact ⟨size, picked, by omega, messageFits_iff filled picked⟩
  · rw [← length_decimalString_le_iff]
    constructor
    · intro fits
      have longest :=
        (messageFits_iff filled pickSize_largestRolls).mp
          (fits largestRolls largestRolls_lt)
      omega
    · intro digits rand _
      obtain ⟨size, picked⟩ := exists_pickSize (rand 0 % 500) (rand 1)
      have largest := pickSize_le picked
      rw [messageFits_iff filled picked]
      omega

/-- The longest value with a key number of four digits. -/
theorem messages_fit_iff_key_9999 :
    MessageFits 9999
      (System.start (Server.start (fun _ => zeroBlocks) 0)).vars.valLs
      largestRolls :=
  (messages_fit_iff
    (.nil : Run System.Step
      (System.start (Server.start (fun _ => zeroBlocks) 0)) [] _)
    9999).2.mpr (by decide) largestRolls largestRolls_lt

/-- The longest value with key number 10000 overruns the buffer. -/
theorem message_of_key_10000_overruns :
    (∀ call, largestRolls call < 2 ^ 31) ∧
      ¬ MessageFits 10000 Variables.start.valLs largestRolls ∧
      ¬ ∃ result,
        simSet 10000 Variables.start.valLs largestRolls = .ok result := by
  have filled : Filled Variables.start.valLs :=
    fun _ => rfl
  have tooLong :
      ¬ MessageFits 10000 Variables.start.valLs largestRolls := by
    rw [messageFits_iff filled pickSize_largestRolls]
    decide
  refine ⟨largestRolls_lt, tooLong, ?_⟩
  rw [simSet_returns_iff filled (by decide)]
  exact tooLong

end Workload

end CacheBench
