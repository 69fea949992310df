import CacheBench.ServerReplies

namespace CacheBench

/-!
# Reading a key and a value back from a reply

The body of the answer to a get puts the key and the value between quotes and
escapes nothing.  A client that knows the format can tell the two apart only if
the text between them does not occur anywhere else where a key could end.
-/

/-- What `take_get_request` writes between the key and the value. -/
def valueSeparator : List UInt8 :=
  ascii "\", \"value\" : \""

/-- A key that a client can put, get and delete. -/
structure ReplyKey (key : CString) : Prop where
  nonempty : key.bytes ≠ []
  noSlash : 47 ∉ key.bytes
  keyFits : key.length ≤ 31

/-- Bodies agree exactly if key, separator and value together agree. -/
theorem getBody_eq_iff (key value otherKey otherValue : List UInt8) :
    getBody key value = getBody otherKey otherValue ↔
      key ++ (valueSeparator ++ value) =
        otherKey ++ (valueSeparator ++ otherValue) := by
  simp only [getBody, valueSeparator, List.append_assoc,
    List.append_cancel_left_eq]
  simp only [← List.append_assoc, List.append_cancel_right_eq]

/-- The parts of a text in front of an occurrence of the separator and after. -/
private theorem exists_split
    {text : List UInt8}
    {position : Nat}
    (occurs : valueSeparator <+: text.drop position) :
    ∃ value,
      text = text.take position ++ (valueSeparator ++ value) ∧
        (text.take position).length = position := by
  obtain ⟨value, isRest⟩ := occurs
  refine ⟨value, ?_, ?_⟩
  · rw [isRest, List.take_append_drop]
  · have notEmpty : text.drop position ≠ [] := by
      rw [← isRest]
      exact List.append_ne_nil_of_left_ne_nil (by decide) value
    rw [ne_eq, List.drop_eq_nil_iff, Nat.not_le] at notEmpty
    rw [List.length_take, Nat.min_eq_left (Nat.le_of_lt notEmpty)]

/--
A body identifies the key and the value exactly if the separator occurs at no
other place where a key of up to 31 bytes without a slash could end.
-/
theorem body_identifies_iff (key value : CString) :
    (∀ otherKey otherValue : CString,
      ReplyKey otherKey →
      getBody otherKey.bytes otherValue.bytes =
          getBody key.bytes value.bytes →
        otherKey = key ∧ otherValue = value) ↔
      ∀ position,
        1 ≤ position → position ≤ 31 → position ≠ key.length →
        47 ∉
          (key.bytes ++ (valueSeparator ++ value.bytes)).take position →
          ¬ valueSeparator <+:
            (key.bytes ++ (valueSeparator ++ value.bytes)).drop
              position := by
  constructor
  · intro identifies position atLeast atMost elsewhere noSlash occurs
    obtain ⟨rest, isText, length⟩ := exists_split occurs
    have noNul :
        0 ∉ key.bytes ++ (valueSeparator ++ value.bytes) := by
      have inSeparator : 0 ∉ valueSeparator := by
        decide
      simp [key.noNul, value.noNul, inSeparator]
    -- The text up to the other occurrence is a key, and the rest a value.
    have otherNoNul :
        0 ∉ (key.bytes ++ (valueSeparator ++ value.bytes)).take position :=
      fun isNul => noNul (List.mem_of_mem_take isNul)
    have restNoNul : 0 ∉ rest := by
      intro isNul
      rw [isText] at noNul
      exact noNul (by simp [isNul])
    have isKey : ReplyKey ⟨_, otherNoNul⟩ := by
      refine ⟨List.ne_nil_of_length_pos ?_, noSlash, ?_⟩
      · rw [length]
        exact atLeast
      · exact length.trans_le atMost
    obtain ⟨sameKey, -⟩ :=
      identifies _ ⟨rest, restNoNul⟩ isKey
        ((getBody_eq_iff _ _ _ _).mpr isText.symm)
    exact elsewhere
      (length.symm.trans (congrArg CString.length sameKey))
  · intro nowhereElse otherKey otherValue isKey sameBody
    rw [getBody_eq_iff] at sameBody
    have sameLength : otherKey.bytes.length = key.bytes.length := by
      by_contra elsewhere
      refine nowhereElse otherKey.bytes.length
        (List.length_pos_of_ne_nil isKey.nonempty) isKey.keyFits elsewhere
        ?_ ?_
      · rw [← sameBody, List.take_left]
        exact isKey.noSlash
      · rw [← sameBody, List.drop_left]
        exact List.prefix_append _ _
    obtain ⟨sameKey, sameRest⟩ := List.append_inj sameBody sameLength
    exact ⟨CString.ext sameKey,
      CString.ext (List.append_cancel_left sameRest)⟩

/-- Keys without a double quote are told apart. -/
theorem getBody_inj_of_noQuote
    {key value otherKey otherValue : List UInt8}
    (noQuote : 34 ∉ key)
    (otherNoQuote : 34 ∉ otherKey)
    (sameBody : getBody key value = getBody otherKey otherValue) :
    key = otherKey ∧ value = otherValue := by
  have upToQuote (bytes rest : List UInt8) (free : 34 ∉ bytes) :
      (bytes ++ (valueSeparator ++ rest)).takeWhile (fun byte => byte != 34) =
        bytes := by
    have accepted : ∀ byte ∈ bytes, (byte != 34) = true := by
      intro byte member
      have notQuote : byte ≠ 34 := by
        rintro rfl
        exact free member
      simpa using notQuote
    have stops :
        (valueSeparator ++ rest).takeWhile (fun byte => byte != 34) = [] :=
      rfl
    rw [List.takeWhile_append_of_pos accepted, stops, List.append_nil]
  rw [getBody_eq_iff] at sameBody
  have sameKey : key = otherKey := by
    rw [← upToQuote key value noQuote, sameBody,
      upToQuote otherKey otherValue otherNoQuote]
  subst otherKey
  exact ⟨rfl,
    List.append_cancel_left (List.append_cancel_left sameBody)⟩

/-- A value with quotes of its own is still told apart, with its key. -/
theorem body_identifies_iff_quoted_value :
    ReplyKey (CString.ofText "key") ∧
      ∀ otherKey otherValue : CString,
        ReplyKey otherKey →
        getBody otherKey.bytes otherValue.bytes =
            getBody (CString.ofText "key").bytes
              (CString.ofText "say \"hi\"").bytes →
          otherKey = CString.ofText "key" ∧
            otherValue = CString.ofText "say \"hi\"" := by
  refine ⟨⟨?_, ?_, ?_⟩, ?_⟩
  · decide
  · decide
  · decide
  · apply
      (body_identifies_iff (CString.ofText "key")
        (CString.ofText "say \"hi\"")).mpr
    decide

/-- Two keys with their values that give the same body. -/
theorem body_of_two_keys :
    ReplyKey (CString.ofText "a\", \"value\" : \"b") ∧
      ReplyKey (CString.ofText "a") ∧
      CString.ofText "a\", \"value\" : \"b" ≠ CString.ofText "a" ∧
      getBody (CString.ofText "a\", \"value\" : \"b").bytes
          (CString.ofText "c").bytes =
        getBody (CString.ofText "a").bytes
          (CString.ofText "b\", \"value\" : \"c").bytes := by
  refine ⟨⟨?_, ?_, ?_⟩, ⟨?_, ?_, ?_⟩, ?_, ?_⟩ <;> decide

end CacheBench
