import CacheBench.RequestParser

namespace CacheBench

/-!
# Where `parse_request` reads and writes

`sscanf` skips any amount of white space and stores tokens of any length.
`parse_request` then computes where the value starts from the lengths of the
method and the key, as if the method came first and one character stood before
the slash.  This module compares the two, says when the value starts inside the
message, and when the tokens fit their arrays.
-/

/-! ## The start of the value -/

namespace Spelling

variable (spelling : Spelling)

/-- The offset `parse_request` computes is at most that of the second slash. -/
theorem computed_le
    {value : List UInt8}
    (matched : spelling.rest = 47 :: value) :
    spelling.method.length + spelling.key.length + 3 ≤
      spelling.text.length - value.length := by
  have separator : 0 < spelling.separating.length :=
    List.length_pos_of_ne_nil spelling.hasSeparator
  simp only [text, matched, List.length_append, List.length_cons]
  omega

/-- It is that offset only with no white space but one character. -/
theorem computed_eq_iff
    {value : List UInt8}
    (matched : spelling.rest = 47 :: value) :
    spelling.method.length + spelling.key.length + 3 =
        spelling.text.length - value.length ↔
      spelling.leading = [] ∧ spelling.separating.length = 1 := by
  have separator : 0 < spelling.separating.length :=
    List.length_pos_of_ne_nil spelling.hasSeparator
  rw [← List.length_eq_zero_iff]
  simp only [text, matched, List.length_append, List.length_cons]
  omega

/-- What `parse_request` makes of a text with both slashes. -/
theorem parseRequest_text
    (noNul : 0 ∉ spelling.text)
    {value : List UInt8}
    (matched : spelling.rest = 47 :: value)
    (methodFits : spelling.method.length ≤ 15)
    (keyFits : spelling.key.length ≤ 199)
    (locals : Locals)
    (following : List UInt8) :
    ∃ request,
      parseRequest locals (spelling.text ++ 0 :: following) = .ok request ∧
        request.value =
          spelling.method.length + spelling.key.length + 3 ∧
        request.size =
          spelling.text.length -
            (spelling.method.length + spelling.key.length + 3) + 1 := by
  have inMethod : 0 ∉ spelling.method :=
    fun isNul => noNul (by simp [text, isNul])
  have inKey : 0 ∉ spelling.key :=
    fun isNul => noNul (by simp [text, isNul])
  have scanned := spelling.scanRequest_text
  rw [matched, List.takeWhile_cons_of_neg (by decide), List.append_nil]
    at scanned
  have methodStored :=
    scannedInto_string locals.requestString ⟨spelling.method, inMethod⟩
      (Nat.lt_succ_of_le methodFits)
  have keyStored :=
    scannedInto_string locals.key ⟨spelling.key, inKey⟩
      (Nat.lt_succ_of_le keyFits)
  have inside :
      spelling.method.length + spelling.key.length + 3 ≤
        spelling.text.length :=
    (spelling.computed_le matched).trans (Nat.sub_le _ _)
  have measured :=
    CString.strlenFrom_eq ⟨spelling.text, noNul⟩ following inside
  refine ⟨{
    requestType := RequestType.ofString ⟨spelling.method, inMethod⟩
    key := ⟨spelling.key, inKey⟩
    value := spelling.method.length + spelling.key.length + 3
    size :=
      spelling.text.length -
        (spelling.method.length + spelling.key.length + 3) + 1 },
    ?_, rfl, rfl⟩
  rw [@parseRequest_eq_ok_iff locals ⟨spelling.text, noNul⟩ following,
    scanned]
  exact ⟨⟨spelling.method, inMethod⟩, _, methodStored, keyStored, rfl, rfl,
    measured, rfl⟩

end Spelling

/--
The value of a message that matches the whole format.  `parse_request` finds it
right after the second slash exactly if the message starts with the method and
one character of white space stands before the first slash.
-/
theorem value_after_slash_iff
    (spelling : Spelling)
    (noNul : 0 ∉ spelling.text)
    {value : List UInt8}
    (matched : spelling.rest = 47 :: value)
    (methodFits : spelling.method.length ≤ 15)
    (keyFits : spelling.key.length ≤ 199)
    (locals : Locals)
    (following : List UInt8) :
    (∃ request,
      parseRequest locals (spelling.text ++ 0 :: following) = .ok request ∧
        request.value = spelling.text.length - value.length ∧
        request.size = value.length + 1) ↔
      spelling.leading = [] ∧ spelling.separating.length = 1 := by
  obtain ⟨request, parsed, isValue, isSize⟩ :=
    spelling.parseRequest_text noNul matched methodFits keyFits locals
      following
  rw [← spelling.computed_eq_iff matched]
  constructor
  · rintro ⟨found, foundParsed, foundValue, -⟩
    rw [parsed, Except.ok.injEq] at foundParsed
    subst found
    exact isValue.symm.trans foundValue
  · intro atValue
    have valueInText : value.length ≤ spelling.text.length := by
      simp only [Spelling.text, matched, List.length_append,
        List.length_cons]
      omega
    refine ⟨request, parsed, isValue.trans atValue, ?_⟩
    rw [isSize, atValue, Nat.sub_sub_self valueInText]

/-- `PUT /k/v`. -/
def putSpelling (separating : List UInt8)
    (hasSeparator : separating ≠ [])
    (separatingSpaces : ∀ byte ∈ separating, isSpace byte = true) :
    Spelling where
  leading := []
  method := ascii "PUT"
  separating := separating
  key := ascii "k"
  rest := ascii "/v"
  leadingSpaces := by simp
  hasMethod := by decide
  methodNoSpace := noSpace_of_all (by decide)
  hasSeparator := hasSeparator
  separatingSpaces := separatingSpaces
  hasKey := by decide
  keyNoSlash := by decide

/-- One blank: the value is the `v` at position 7. -/
theorem value_after_slash_iff_one_space :
    ∃ request,
      parseRequest zeroLocals (ascii "PUT /k/v" ++ [0]) = .ok request ∧
        request.value = 7 ∧ request.size = 2 :=
  (value_after_slash_iff
    (putSpelling [32] (by decide) (List.all_eq_true.mp (by decide)))
    (by decide) (rfl : _ = 47 :: ascii "v") (by decide) (by decide)
    zeroLocals []).mpr ⟨rfl, rfl⟩

/-- After two spaces the value is found to start at the second slash. -/
theorem value_before_slash_after_two_spaces :
    scanRequest (ascii "PUT  /k/v") =
        (some (ascii "PUT"), some (ascii "k")) ∧
      parseRequest zeroLocals (ascii "PUT  /k/v" ++ [0]) =
        .ok
          { requestType := .put
            key := CString.ofText "k"
            value := 7
            size := 3 } ∧
      bytesAt (ascii "PUT  /k/v") 7 = 47 :=
  ⟨by decide, rfl, by decide⟩

/-! ## Inside the message -/

/-- The offset computed for a documented request. -/
theorem Form.Scannable.value_le_iff
    {form : Form}
    (scannable : form.Scannable)
    {locals : Locals}
    {following : List UInt8}
    {request : Request}
    (parsed :
      parseRequest locals (form.message following) = .ok request) :
    request.value ≤ form.text.length ↔ form.value.isSome = true := by
  obtain ⟨length, -, -, isValue, -, -⟩ :=
    scannable.parseRequest_eq_ok_iff.mp parsed
  rw [isValue]
  cases hasValue : form.value with
  | none =>
      simp [Form.text, Form.tail, hasValue, CString.length]
      omega
  | some value =>
      simp [Form.text, Form.tail, hasValue, CString.length]
      omega

/-- A request is parsed from its own bytes alone if it has a value. -/
theorem Form.Scannable.parses_alone_iff
    {form : Form}
    (scannable : form.Scannable)
    (locals : Locals) :
    (∃ request, parseRequest locals (form.message []) = .ok request) ↔
      form.value.isSome = true := by
  constructor
  · rintro ⟨request, parsed⟩
    obtain ⟨length, -, -, -, measured, -⟩ :=
      scannable.parseRequest_eq_ok_iff.mp parsed
    obtain ⟨inside, -, -⟩ := strlenFrom_sound measured
    rw [← scannable.value_le_iff parsed]
    simp only [Form.message, List.length_append, List.length_cons,
      List.length_nil] at inside
    omega
  · intro hasValue
    obtain ⟨value, isValue⟩ := Option.isSome_iff_exists.mp hasValue
    exact ⟨_, scannable.parseRequest_value isValue locals []⟩

/-- A request is parsed exactly if it has a value or a NUL follows it. -/
theorem Form.Scannable.parses_iff
    {form : Form}
    (scannable : form.Scannable)
    (locals : Locals)
    (following : List UInt8) :
    (∃ request, parseRequest locals (form.message following) = .ok request) ↔
      form.value.isSome = true ∨ 0 ∈ following := by
  cases hasValue : form.value with
  | some value =>
      simp [scannable.parseRequest_value hasValue]
  | none =>
      have split : form.message following = (form.text ++ [0]) ++ following := by
        simp [Form.message]
      have offset :
          form.method.length + form.key.length + 3 =
            (form.text ++ [0]).length := by
        simp [Form.text, Form.tail, hasValue, CString.length]
        omega
      have readable :
          (form.message following).length -
              (form.method.length + form.key.length + 3) =
            following.length := by
        rw [offset, split, List.length_append, Nat.add_sub_cancel_left]
      have measured :
          (∃ request,
            parseRequest locals (form.message following) = .ok request) ↔
            ∃ length,
              strlenFrom (bytesAt (form.message following))
                  following.length
                  (form.method.length + form.key.length + 3) =
                some length := by
        simp only [scannable.parseRequest_eq_ok_iff]
        constructor
        · rintro ⟨request, length, -, -, isValue, measured, -⟩
          rw [isValue, readable] at measured
          exact ⟨length, measured⟩
        · rintro ⟨length, measured⟩
          rw [← readable] at measured
          exact ⟨form.request (length + 1), length, rfl, rfl, rfl, measured,
            rfl⟩
      rw [measured, exists_strlenFrom_iff, List.mem_iff_getElem]
      simp only [split, offset, bytesAt_append, Option.isSome_none,
        Bool.false_eq_true, false_or]
      refine exists_congr fun position => ?_
      constructor
      · rintro ⟨inside, isNul⟩
        refine ⟨inside, ?_⟩
        simpa [bytesAt, inside] using isNul
      · rintro ⟨inside, isNul⟩
        refine ⟨inside, ?_⟩
        simpa [bytesAt, inside] using isNul

/--
The documented requests.  The value starts inside the message, and is found
without reading past its terminator, exactly in the forms that have a value.
-/
theorem value_inside_message_iff
    (form : Form)
    (scannable : form.Scannable)
    (locals : Locals) :
    ((∃ request, parseRequest locals (form.message []) = .ok request) ↔
      form.value.isSome = true) ∧
      ∀ following request,
        parseRequest locals (form.message following) = .ok request →
          (request.value ≤ form.text.length ↔
            form.value.isSome = true) :=
  ⟨scannable.parses_alone_iff locals,
    fun _ _ parsed => scannable.value_le_iff parsed⟩

/-- The value of `PUT /k/v` is found in the message alone. -/
theorem value_inside_message_iff_put :
    ∃ request,
      parseRequest zeroLocals (ascii "PUT /k/v" ++ [0]) = .ok request ∧
        request.value ≤ (ascii "PUT /k/v").length := by
  obtain ⟨alone, inside⟩ :=
    value_inside_message_iff
      (.put (CString.ofText "k") (CString.ofText "v"))
      ⟨by decide, by decide, by decide⟩ zeroLocals
  obtain ⟨request, parsed⟩ := alone.mpr rfl
  exact ⟨request, parsed, (inside [] request parsed).mpr rfl⟩

/-- Parsing `GET /k` reads behind the terminator. -/
theorem get_value_outside_message :
    parseRequest zeroLocals (ascii "GET /k" ++ [0]) = .error .outOfBounds ∧
      ∃ request,
        parseRequest zeroLocals (ascii "GET /k" ++ [0, 0]) = .ok request ∧
          request.value = (ascii "GET /k").length + 1 :=
  ⟨rfl, _, rfl, rfl⟩

/-! ## Inside the arrays -/

/-- The tokens `sscanf` stores, with their terminators, fit their arrays. -/
structure TokensFit (text : List UInt8) : Prop where
  requestString :
    ∀ token, (scanRequest text).1 = some token → token.length + 1 ≤ 16
  key :
    ∀ token, (scanRequest text).2 = some token → token.length + 1 ≤ 200

/-- The method is what stands between the first two runs of white space. -/
theorem scanRequest_fst (text : List UInt8) :
    (scanRequest text).1 =
      if (text.dropWhile isSpace).takeWhile (fun byte => !isSpace byte) = []
      then none
      else
        some ((text.dropWhile isSpace).takeWhile
          fun byte => !isSpace byte) := by
  unfold scanRequest
  dsimp only
  split
  · rfl
  · split <;> rfl

/-- Bytes that follow leading white space are part of the method. -/
theorem exists_method
    {leading token rest : List UInt8}
    (leadingSpaces : ∀ byte ∈ leading, isSpace byte = true)
    (hasToken : token ≠ [])
    (tokenNoSpace : ∀ byte ∈ token, isSpace byte = false) :
    ∃ more,
      (scanRequest (leading ++ token ++ rest)).1 = some (token ++ more) := by
  have inToken : ∀ byte ∈ token, (!isSpace byte) = true := by
    intro byte member
    simp [tokenNoSpace byte member]
  have skipped :
      (leading ++ token ++ rest).dropWhile isSpace = token ++ rest := by
    rw [List.append_assoc, List.dropWhile_append_of_pos leadingSpaces]
    cases token with
    | nil =>
        exact absurd rfl hasToken
    | cons first others =>
        simp [tokenNoSpace first List.mem_cons_self]
  have nonempty :
      token ++ rest.takeWhile (fun byte => !isSpace byte) ≠ [] := by
    simp [hasToken]
  rw [scanRequest_fst, skipped, List.takeWhile_append_of_pos inToken,
    if_neg nonempty]
  exact ⟨_, rfl⟩

/-- The method that was scanned follows leading white space. -/
theorem exists_leading
    {text token : List UInt8}
    (scanned : (scanRequest text).1 = some token) :
    ∃ leading rest,
      (∀ byte ∈ leading, isSpace byte = true) ∧
        (∀ byte ∈ token, isSpace byte = false) ∧
        text = leading ++ token ++ rest := by
  rw [scanRequest_fst] at scanned
  split at scanned
  · cases scanned
  · cases scanned
    refine ⟨text.takeWhile isSpace,
      (text.dropWhile isSpace).dropWhile fun byte => !isSpace byte,
      ?_, ?_, ?_⟩
    · intro byte member
      exact List.mem_takeWhile_imp member
    · intro byte member
      simpa using List.mem_takeWhile_imp member
    · rw [List.append_assoc, List.takeWhile_append_dropWhile,
        List.takeWhile_append_dropWhile]

/--
The tokens fit exactly if no more than 15 bytes of a method and no more than
199 bytes of a key can be read off the start of the text.
-/
theorem tokens_fit_iff (text : CString) :
    TokensFit text.bytes ↔
      (∀ leading token rest,
        (∀ byte ∈ leading, isSpace byte = true) →
        (∀ byte ∈ token, isSpace byte = false) →
        text.bytes = leading ++ token ++ rest →
          token.length ≤ 15) ∧
        ∀ spelling : Spelling,
          spelling.text = text.bytes → spelling.key.length ≤ 199 := by
  constructor
  · intro fit
    refine ⟨?_, ?_⟩
    · intro leading token rest leadingSpaces tokenNoSpace isText
      by_cases hasToken : token = []
      · simp [hasToken]
      · obtain ⟨more, scanned⟩ :=
          @exists_method _ _ rest leadingSpaces hasToken tokenNoSpace
        rw [← isText] at scanned
        have short := fit.requestString _ scanned
        rw [List.length_append] at short
        omega
    · intro spelling isText
      have scanned := spelling.scanRequest_text
      rw [isText] at scanned
      have short := fit.key _ (congrArg Prod.snd scanned)
      rw [List.length_append] at short
      omega
  · rintro ⟨methodShort, keyShort⟩
    refine ⟨?_, ?_⟩
    · intro token scanned
      obtain ⟨leading, rest, leadingSpaces, tokenNoSpace, isText⟩ :=
        exists_leading scanned
      have short :=
        methodShort leading token rest leadingSpaces tokenNoSpace isText
      omega
    · intro token scanned
      obtain ⟨spelling, isText, -, rfl, -⟩ := exists_spelling scanned
      have short := keyShort spelling isText
      omega

/-- The tokens of `GET /k`. -/
theorem tokens_fit_iff_get_k :
    TokensFit (CString.ofText "GET /k").bytes ∧
      ∀ spelling : Spelling,
        spelling.text = (CString.ofText "GET /k").bytes →
          spelling.key.length ≤ 199 := by
  have scanned :
      scanRequest (CString.ofText "GET /k").bytes =
        (some (ascii "GET"), some (ascii "k")) := by
    decide
  have fit : TokensFit (CString.ofText "GET /k").bytes := by
    refine ⟨?_, ?_⟩
    · intro token isMethod
      rw [scanned, Option.some.injEq] at isMethod
      subst token
      decide
    · intro token isKey
      rw [scanned, Option.some.injEq] at isKey
      subst token
      decide
  exact ⟨fit, ((tokens_fit_iff (CString.ofText "GET /k")).mp fit).2⟩

/-- A method of 16 bytes and a key of 200 bytes do not fit. -/
theorem long_tokens_overrun :
    (scanRequest (lettersString 16).bytes).1 =
        some (lettersString 16).bytes ∧
      ∃ text : CString,
        text.length = 205 ∧
          (scanRequest text.bytes).2 = some (lettersString 200).bytes ∧
          ¬ TokensFit text.bytes := by
  have length : (lettersString 200).bytes.length = 200 :=
    length_lettersString 200
  have textLength (key : CString) :
      (Form.get key).text.length = 5 + key.bytes.length := by
    have method : (CString.ofText "GET").bytes.length = 3 := by
      decide
    simp [Form.text, Form.method, Form.key, Form.tail, Form.value, method]
    omega
  have scanned :
      (scanRequest (Form.get (lettersString 200)).text).2 =
        some (lettersString 200).bytes := by
    have parts :=
      @scanRequest_eq (CString.ofText "GET").bytes
        (lettersString 200).bytes [] (by decide)
        (noSpace_of_all (by decide))
        (List.ne_nil_of_length_pos (by omega))
        (fun isSlash =>
          absurd (List.eq_of_mem_replicate isSlash) (by decide))
        (by simp)
    exact congrArg Prod.snd parts
  refine ⟨by decide, ⟨(Form.get (lettersString 200)).text,
    (Form.get (lettersString 200)).text_noNul⟩, ?_, scanned, ?_⟩
  · exact (textLength (lettersString 200)).trans (by omega)
  · intro fit
    have short := fit.key _ scanned
    omega

end CacheBench
