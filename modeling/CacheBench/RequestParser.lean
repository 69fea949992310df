import CacheBench.Slab

namespace CacheBench

/-!
# Requests of `server.c`

`parse_request` reads a message with `sscanf` and then finds the value by
adding up lengths.  The request object and the method's buffer are local
variables: a conversion that fails leaves in them whatever the stack held, and
a token that is too long for its array overruns it.

A received message is the memory from its first byte on.  It goes on after the
terminator of the message, and reading further than it goes is a fault.
-/

/-- `isspace` of the C locale. -/
def isSpace (byte : UInt8) : Bool :=
  (9 ≤ byte && byte ≤ 13) || byte = 32

/-- A text is free of white space if a pass over it finds none. -/
theorem noSpace_of_all
    {text : List UInt8}
    (passed : text.all (fun byte => !isSpace byte) = true) :
    ∀ byte ∈ text, isSpace byte = false := by
  intro byte member
  simpa using List.all_eq_true.mp passed byte member

/--
`sscanf(text, "%s /%[^/]/", request_string, key)`: what each of the two
conversions stores, if it gets that far.  The last directive stores nothing.
-/
def scanRequest (text : List UInt8) :
    Option (List UInt8) × Option (List UInt8) :=
  let start := text.dropWhile isSpace
  let requestString := start.takeWhile (fun byte => !isSpace byte)
  if requestString = [] then
    (none, none)
  else
    match (start.dropWhile (fun byte => !isSpace byte)).dropWhile
        isSpace with
    | 47 :: rest =>
        let key := rest.takeWhile (fun byte => byte != 47)
        (some requestString, if key = [] then none else some key)
    | _ => (some requestString, none)

/-- What the local variables of a call hold before they are assigned. -/
structure Locals where
  requestString : Vector UInt8 16
  key : Vector UInt8 200
  msg : Nat → UInt8

/--
The string in a character array after `sscanf`: the token stored there, or what
was there before.
-/
def scannedInto
    {length : Nat}
    (array : Vector UInt8 length) :
    Option (List UInt8) → Outcome CString
  | some token =>
      if token.length < length then
        .ok (CString.read token)
      else
        .error .outOfBounds
  | none =>
      if 0 ∈ array.toList then
        .ok (CString.read array.toList)
      else
        .error .outOfBounds

/-- `request_type`, with the numbers 0 to 5 in this order. -/
inductive RequestType where
  | bad
  | delete
  | get
  | head
  | post
  | put
  deriving Repr, DecidableEq

/-- The comparisons of `parse_request`. -/
def RequestType.ofString (requestString : CString) : RequestType :=
  if requestString.bytes = ascii "DELETE" then
    .delete
  else if requestString.bytes = ascii "GET" then
    .get
  else if requestString.bytes = ascii "HEAD" then
    .head
  else if requestString.bytes = ascii "POST" then
    .post
  else if requestString.bytes = ascii "PUT" then
    .put
  else
    .bad

/-- Only the method PUT makes a put. -/
theorem RequestType.bytes_of_put
    {requestString : CString}
    (isPut : RequestType.ofString requestString = .put) :
    requestString.bytes = ascii "PUT" := by
  unfold RequestType.ofString at isPut
  split_ifs at isPut with _ _ _ _ isText
  exact isText

/-- `request_obj`; `value` is an offset into the message. -/
structure Request where
  requestType : RequestType
  key : CString
  value : Nat
  size : Nat

/-- Fill in a request object from a message. -/
def parseRequest (locals : Locals) (buf : List UInt8) : Outcome Request :=
  if 0 ∈ buf then do
    let (method, path) := scanRequest (CString.read buf).bytes
    let requestString ← scannedInto locals.requestString method
    let key ← scannedInto locals.key path
    let value := requestString.length + key.length + 3
    match strlenFrom (bytesAt buf) (buf.length - value) value with
    | none =>
        .error .outOfBounds
    | some length =>
        .ok
          { requestType := RequestType.ofString requestString
            key := key
            value := value
            size := length + 1 }
  else
    .error .outOfBounds

/-- `strtol(text, NULL, 10)`. -/
def strtol (text : List UInt8) : Int :=
  let magnitude (digits : List UInt8) : Int :=
    (digits.takeWhile fun byte => 48 ≤ byte && byte ≤ 57).foldl
      (fun number byte => 10 * number + (byte.toNat - 48)) 0
  match text.dropWhile isSpace with
  | 45 :: digits => max (-2 ^ 63) (-magnitude digits)
  | 43 :: digits => min (2 ^ 63 - 1) (magnitude digits)
  | digits => min (2 ^ 63 - 1) (magnitude digits)

/-- `atoi`, which keeps the low 32 bits of `strtol` as a signed number. -/
def atoi (text : List UInt8) : Int :=
  (strtol text).bmod (2 ^ 32)

/-! ## The documented requests -/

/-- The requests `server.c` documents. -/
inductive Form where
  | get (key : CString)
  | put (key value : CString)
  | delete (key : CString)
  | head (key : CString)
  | shutdown
  | memsize (value : CString)
  deriving DecidableEq

namespace Form

/-- The first word of a request. -/
def method : Form → CString
  | .get _ => CString.ofText "GET"
  | .put _ _ => CString.ofText "PUT"
  | .delete _ => CString.ofText "DELETE"
  | .head _ => CString.ofText "HEAD"
  | .shutdown => CString.ofText "POST"
  | .memsize _ => CString.ofText "POST"

/-- What follows the first slash. -/
def key : Form → CString
  | .get key => key
  | .put key _ => key
  | .delete key => key
  | .head key => key
  | .shutdown => CString.ofText "shutdown"
  | .memsize _ => CString.ofText "memsize"

/-- What follows the second slash, if there is one. -/
def value : Form → Option CString
  | .put _ value => some value
  | .memsize value => some value
  | _ => none

/-- The type `parse_request` is to give the request. -/
def requestType : Form → RequestType
  | .get _ => .get
  | .put _ _ => .put
  | .delete _ => .delete
  | .head _ => .head
  | .shutdown => .post
  | .memsize _ => .post

/-- The rest of a request from the second slash on. -/
def tail (form : Form) : List UInt8 :=
  match form.value with
  | some value => 47 :: value.bytes
  | none => []

/-- The text of a request. -/
def text (form : Form) : List UInt8 :=
  form.method.bytes ++ 32 :: 47 :: (form.key.bytes ++ form.tail)

/-- A key without slashes that fits, in a message of at most 2^20 bytes. -/
structure Valid (form : Form) : Prop where
  nonempty : form.key.bytes ≠ []
  noSlash : 47 ∉ form.key.bytes
  keyFits : form.key.length ≤ 31
  bounded : form.text.length ≤ 2 ^ 20

theorem text_noNul (form : Form) : 0 ∉ form.text := by
  have methodNoNul := form.method.noNul
  have keyNoNul := form.key.noNul
  have tailNoNul : 0 ∉ form.tail := by
    rw [tail]
    cases form.value with
    | none => simp
    | some value => simp [value.noNul]
  simp [text, methodNoNul, keyNoNul, tailNoNul]

theorem method_spec (form : Form) :
    form.method.bytes ≠ [] ∧
      (∀ byte ∈ form.method.bytes, isSpace byte = false) ∧
      form.method.length ≤ 6 ∧
      RequestType.ofString form.method = form.requestType := by
  refine ⟨?_, noSpace_of_all ?_, ?_⟩
  · cases form <;> dsimp only [method] <;> decide
  · cases form <;> dsimp only [method] <;> decide
  · cases form <;> dsimp only [method, requestType] <;> decide

end Form

/-- The part of a list before the first element that fails a test. -/
private theorem takeWhile_append_stop
    {test : UInt8 → Bool}
    {leading rest : List UInt8}
    (accepted : ∀ byte ∈ leading, test byte = true)
    (stops : ∀ byte ∈ rest.head?, test byte = false) :
    (leading ++ rest).takeWhile test = leading ∧
      (leading ++ rest).dropWhile test = rest := by
  rw [List.takeWhile_append_of_pos accepted,
    List.dropWhile_append_of_pos accepted]
  cases rest with
  | nil =>
      simp
  | cons byte rest =>
      have rejected : test byte = false := stops byte rfl
      simp [rejected]

/-- The parts of a text with a method, a slash and a key. -/
structure Spelling where
  leading : List UInt8
  method : List UInt8
  separating : List UInt8
  key : List UInt8
  rest : List UInt8
  leadingSpaces : ∀ byte ∈ leading, isSpace byte = true
  hasMethod : method ≠ []
  methodNoSpace : ∀ byte ∈ method, isSpace byte = false
  hasSeparator : separating ≠ []
  separatingSpaces : ∀ byte ∈ separating, isSpace byte = true
  hasKey : key ≠ []
  keyNoSlash : 47 ∉ key

namespace Spelling

/-- The text with these parts. -/
def text (spelling : Spelling) : List UInt8 :=
  spelling.leading ++ (spelling.method ++ (spelling.separating ++
    47 :: (spelling.key ++ spelling.rest)))

/-- The method is scanned as such, and the key up to the next slash. -/
theorem scanRequest_text (spelling : Spelling) :
    scanRequest spelling.text =
      (some spelling.method,
        some (spelling.key ++
          spelling.rest.takeWhile fun byte => byte != 47)) := by
  obtain ⟨leading, method, separating, key, rest, leadingSpaces, hasMethod,
    methodNoSpace, hasSeparator, separatingSpaces, hasKey, keyNoSlash⟩ :=
    spelling
  have atMethod :
      ∀ byte ∈ (method ++ (separating ++ 47 :: (key ++ rest))).head?,
        isSpace byte = false := by
    intro byte isHead
    rw [List.head?_append_of_ne_nil _ hasMethod] at isHead
    exact methodNoSpace byte (List.mem_of_mem_head? isHead)
  have atSeparator :
      ∀ byte ∈ (separating ++ 47 :: (key ++ rest)).head?,
        (!isSpace byte) = false := by
    intro byte isHead
    rw [List.head?_append_of_ne_nil _ hasSeparator] at isHead
    simp [separatingSpaces byte (List.mem_of_mem_head? isHead)]
  have inMethod : ∀ byte ∈ method, (!isSpace byte) = true := by
    intro byte member
    simp [methodNoSpace byte member]
  have atSlash :
      ∀ byte ∈ (47 :: (key ++ rest)).head?, isSpace byte = false := by
    intro byte isHead
    cases isHead
    decide
  have inKey : ∀ byte ∈ key, (byte != 47) = true := by
    intro byte member
    have notSlash : byte ≠ 47 := by
      rintro rfl
      exact keyNoSlash member
    simpa using notSlash
  obtain ⟨-, leadingSkipped⟩ :=
    takeWhile_append_stop leadingSpaces atMethod
  obtain ⟨methodTaken, methodDropped⟩ :=
    takeWhile_append_stop inMethod atSeparator
  obtain ⟨-, separatorSkipped⟩ :=
    takeWhile_append_stop separatingSpaces atSlash
  have keyTaken :
      (key ++ rest).takeWhile (fun byte => byte != 47) =
        key ++ rest.takeWhile fun byte => byte != 47 :=
    List.takeWhile_append_of_pos inKey
  have keyFound :
      key ++ (rest.takeWhile fun byte => byte != 47) ≠ [] := by
    simp [hasKey]
  simp only [scanRequest, text, leadingSkipped, methodTaken, methodDropped,
    separatorSkipped, keyTaken, hasMethod, keyFound, ↓reduceIte]

end Spelling

/-- A method, a space, a slash and a key are scanned as such. -/
theorem scanRequest_eq
    {method key rest : List UInt8}
    (hasMethod : method ≠ [])
    (noSpace : ∀ byte ∈ method, isSpace byte = false)
    (hasKey : key ≠ [])
    (noSlash : 47 ∉ key)
    (restStarts : ∀ byte ∈ rest.head?, byte = 47) :
    scanRequest (method ++ 32 :: 47 :: (key ++ rest)) =
      (some method, some key) := by
  have scanned :=
    Spelling.scanRequest_text
      { leading := []
        method := method
        separating := [32]
        key := key
        rest := rest
        leadingSpaces := by simp
        hasMethod := hasMethod
        methodNoSpace := noSpace
        hasSeparator := by simp
        separatingSpaces := by simp [isSpace]
        hasKey := hasKey
        keyNoSlash := noSlash }
  have nothingMore : rest.takeWhile (fun byte => byte != 47) = [] := by
    cases rest with
    | nil =>
        rfl
    | cons byte rest =>
        simp [restStarts byte rfl]
  simpa [Spelling.text, nothingMore] using scanned

/-- Where skipping stops, the test fails. -/
private theorem head_dropWhile
    {test : UInt8 → Bool}
    {bytes : List UInt8} :
    ∀ byte ∈ (bytes.dropWhile test).head?, test byte = false := by
  intro byte isHead
  have fails := List.head?_dropWhile_not test bytes
  rw [Option.mem_def.mp isHead] at fails
  simpa using fails

/-- A slash that white space separates from the method has some before it. -/
private theorem separator_ne_nil
    {start afterSlash : List UInt8}
    (atSlash :
      (start.dropWhile fun byte => !isSpace byte).dropWhile isSpace =
        47 :: afterSlash) :
    (start.dropWhile fun byte => !isSpace byte).takeWhile isSpace ≠ [] := by
  intro nothing
  -- Without white space the slash would have been part of the method.
  have unskipped :
      start.dropWhile (fun byte => !isSpace byte) = 47 :: afterSlash := by
    rw [← atSlash, ← List.nil_append (List.dropWhile isSpace _), ← nothing,
      List.takeWhile_append_dropWhile]
  have stops :=
    @head_dropWhile (fun byte => !isSpace byte) start 47
  rw [unskipped] at stops
  exact absurd (stops rfl) (by decide)

/-- A text in which a key was scanned has the parts that were scanned. -/
theorem exists_spelling
    {text key : List UInt8}
    (scanned : (scanRequest text).2 = some key) :
    ∃ spelling : Spelling,
      spelling.text = text ∧
        (scanRequest text).1 = some spelling.method ∧
        spelling.key = key ∧
        ∀ byte ∈ spelling.rest.head?, byte = 47 := by
  unfold scanRequest at scanned ⊢
  dsimp only at scanned ⊢
  split at scanned
  · cases scanned
  · rename_i hasMethod
    split at scanned
    · rename_i afterSlash atSlash
      dsimp only at scanned
      split at scanned
      · cases scanned
      · rename_i hasKey
        cases scanned
        refine ⟨{
          leading := text.takeWhile isSpace
          method :=
            (text.dropWhile isSpace).takeWhile fun byte => !isSpace byte
          separating :=
            ((text.dropWhile isSpace).dropWhile
              fun byte => !isSpace byte).takeWhile isSpace
          key := afterSlash.takeWhile fun byte => byte != 47
          rest := afterSlash.dropWhile fun byte => byte != 47
          leadingSpaces := fun _ member => List.mem_takeWhile_imp member
          hasMethod := hasMethod
          methodNoSpace := fun _ member => by
            simpa using List.mem_takeWhile_imp member
          hasSeparator := separator_ne_nil atSlash
          separatingSpaces := fun _ member => List.mem_takeWhile_imp member
          hasKey := hasKey
          keyNoSlash := fun member => by
            simpa using List.mem_takeWhile_imp member }, ?_, ?_, rfl, ?_⟩
        · dsimp only [Spelling.text]
          rw [List.takeWhile_append_dropWhile, ← atSlash,
            List.takeWhile_append_dropWhile,
            List.takeWhile_append_dropWhile,
            List.takeWhile_append_dropWhile]
        · rw [if_neg hasMethod]
        · intro byte isHead
          simpa using head_dropWhile byte isHead
    · cases scanned

/-- A key that was scanned is a part of the text without a slash. -/
theorem scanRequest_key
    {text key : List UInt8}
    (scanned : (scanRequest text).2 = some key) :
    key ≠ [] ∧ 47 ∉ key ∧ key ⊆ text := by
  obtain ⟨spelling, rfl, -, rfl, -⟩ := exists_spelling scanned
  refine ⟨spelling.hasKey, spelling.keyNoSlash, ?_⟩
  intro byte member
  simp [Spelling.text, member]

/-- What `parse_request` returns, by what `sscanf` left in the two arrays. -/
theorem parseRequest_eq_ok_iff
    {locals : Locals}
    {text : CString}
    {following : List UInt8}
    {request : Request} :
    parseRequest locals (text.bytes ++ 0 :: following) = .ok request ↔
      ∃ requestString length,
        scannedInto locals.requestString (scanRequest text.bytes).1 =
            .ok requestString ∧
          scannedInto locals.key (scanRequest text.bytes).2 =
            .ok request.key ∧
          request.requestType = RequestType.ofString requestString ∧
          request.value =
            requestString.length + request.key.length + 3 ∧
          strlenFrom (bytesAt (text.bytes ++ 0 :: following))
              ((text.bytes ++ 0 :: following).length - request.value)
              request.value =
            some length ∧
          request.size = length + 1 := by
  have terminated : 0 ∈ text.bytes ++ 0 :: following := by
    simp
  rw [parseRequest, if_pos terminated, CString.read_append_nul]
  constructor
  · intro parsed
    obtain ⟨requestString, stored, parsed⟩ := bind_eq_ok.mp parsed
    obtain ⟨key, keyStored, parsed⟩ := bind_eq_ok.mp parsed
    dsimp only at parsed
    split at parsed
    · cases parsed
    · rename_i length measured
      cases parsed
      exact ⟨requestString, length, stored, keyStored, rfl, rfl, measured,
        rfl⟩
  · rintro ⟨requestString, length, stored, keyStored, isType, isValue,
      measured, isSize⟩
    obtain ⟨requestType, key, value, size⟩ := request
    dsimp only at keyStored isType isValue measured isSize
    subst isType isValue isSize
    simp only [stored, keyStored, bind, Except.bind, measured]

/-- The message of a request: its text, the terminator and what follows. -/
def Form.message (form : Form) (following : List UInt8) : List UInt8 :=
  form.text ++ 0 :: following

/-- What `parse_request` finds in the message of a request. -/
structure Parsed
    (form : Form)
    (buf : List UInt8)
    (request : Request) : Prop where
  requestType : request.requestType = form.requestType
  key : request.key = form.key
  size :
    ∀ value, form.value = some value → request.size = value.length + 1
  value :
    ∀ value, form.value = some value →
      bytesFrom (fun position => bytesAt buf (request.value + position)) 0
          request.size =
        value.bytes ++ [0]

/-- A token that fits is what the array then holds. -/
theorem scannedInto_string
    {length : Nat}
    (array : Vector UInt8 length)
    (string : CString)
    (fits : string.length < length) :
    scannedInto array (some string.bytes) = .ok string := by
  have fits : string.bytes.length < length := fits
  simp [scannedInto, fits, string.read_bytes]

/-- Local variables that hold the given strings. -/
def Locals.holding (requestString key : CString) : Locals where
  requestString := Vector.ofFn fun index => bytesAt requestString.bytes index
  key := Vector.ofFn fun index => bytesAt key.bytes index
  msg := fun _ => 0

/-- Local variables that hold zeros. -/
def zeroLocals : Locals where
  requestString := Vector.replicate 16 0
  key := Vector.replicate 200 0
  msg := fun _ => 0

/-- A conversion that fails leaves the string that was there. -/
theorem scannedInto_none
    {length : Nat}
    (string : CString)
    (fits : string.length < length) :
    scannedInto
        (Vector.ofFn fun index : Fin length =>
          bytesAt string.bytes index)
        none =
      .ok string := by
  have fits : string.bytes.length < length := fits
  have contents :
      (Vector.ofFn fun index : Fin length =>
          bytesAt string.bytes index).toList =
        string.bytes ++
          0 :: List.replicate (length - string.bytes.length - 1) 0 := by
    rw [← List.replicate_succ]
    apply List.ext_getElem
    · simp
      omega
    · intro index inArray inBytes
      by_cases inString : index < string.bytes.length
      · simp [bytesAt, inString]
      · rw [List.getElem_append_right (Nat.le_of_not_lt inString)]
        simp [bytesAt, inString]
  rw [scannedInto, contents, if_pos (by simp), string.read_append_nul]

/-- Behind the second slash lies the value. -/
private theorem Form.bytesAt_value
    {form : Form}
    {value : CString}
    (hasValue : form.value = some value)
    (following : List UInt8)
    (position : Nat) :
    bytesAt (form.message following)
        (form.method.length + form.key.length + 3 + position) =
      bytesAt (value.bytes ++ 0 :: following) position := by
  have split :
      form.message following =
        (form.method.bytes ++ 32 :: 47 :: (form.key.bytes ++ [47])) ++
          (value.bytes ++ 0 :: following) := by
    simp [Form.message, Form.text, Form.tail, hasValue]
  have length :
      (form.method.bytes ++
          32 :: 47 :: (form.key.bytes ++ [47])).length =
        form.method.length + form.key.length + 3 := by
    simp [CString.length]
    omega
  rw [split, ← length, bytesAt_append]

/-- The length of the value is found. -/
theorem Form.strlenFrom_value
    {form : Form}
    {value : CString}
    (hasValue : form.value = some value)
    (following : List UInt8) :
    strlenFrom (bytesAt (form.message following))
        ((form.message following).length -
          (form.method.length + form.key.length + 3))
        (form.method.length + form.key.length + 3) =
      some value.length := by
  have textLength :
      form.text.length =
        form.method.length + form.key.length + 3 + value.length := by
    simp [Form.text, Form.tail, hasValue, CString.length]
    omega
  have measured :=
    @CString.strlenFrom_eq ⟨form.text, form.text_noNul⟩ following
      (form.method.length + form.key.length + 3)
      (textLength.ge.trans' (Nat.le_add_right _ _))
  have valueLength :
      form.text.length - (form.method.length + form.key.length + 3) =
        value.length := by
    omega
  exact measured.trans (congrArg some valueLength)

/-- A request whose key `sscanf` stores whole. -/
structure Form.Scannable (form : Form) : Prop where
  nonempty : form.key.bytes ≠ []
  noSlash : 47 ∉ form.key.bytes
  keyFits : form.key.length < 200

theorem Form.Valid.scannable
    {form : Form}
    (valid : form.Valid) :
    form.Scannable where
  nonempty := valid.nonempty
  noSlash := valid.noSlash
  keyFits := Nat.lt_of_le_of_lt valid.keyFits (by decide)

theorem Form.scannable_memsize (value : CString) :
    (Form.memsize value).Scannable where
  nonempty := by
    dsimp only [Form.key]
    decide
  noSlash := by
    dsimp only [Form.key]
    decide
  keyFits := by
    dsimp only [Form.key]
    decide

/-- The method and the key of a documented request are scanned. -/
theorem Form.Scannable.scanned
    {form : Form}
    (scannable : form.Scannable) :
    scanRequest form.text =
      (some form.method.bytes, some form.key.bytes) := by
  obtain ⟨hasMethod, noSpace, -, -⟩ := form.method_spec
  refine scanRequest_eq hasMethod noSpace scannable.nonempty
    scannable.noSlash ?_
  rw [Form.tail]
  cases form.value with
  | none =>
      simp
  | some value =>
      simp

/-- What `parse_request` returns for a documented request. -/
theorem Form.Scannable.parseRequest_eq_ok_iff
    {form : Form}
    (scannable : form.Scannable)
    {locals : Locals}
    {following : List UInt8}
    {request : Request} :
    parseRequest locals (form.message following) = .ok request ↔
      ∃ length,
        request.requestType = form.requestType ∧
          request.key = form.key ∧
          request.value = form.method.length + form.key.length + 3 ∧
          strlenFrom (bytesAt (form.message following))
              ((form.message following).length - request.value)
              request.value =
            some length ∧
          request.size = length + 1 := by
  obtain ⟨-, -, methodFits, isType⟩ := form.method_spec
  have methodStored :=
    scannedInto_string locals.requestString form.method (by omega)
  have keyStored :=
    scannedInto_string locals.key form.key scannable.keyFits
  have general :
      parseRequest locals (form.message following) = .ok request ↔ _ :=
    @CacheBench.parseRequest_eq_ok_iff locals
      ⟨form.text, form.text_noNul⟩ following request
  rw [general]
  simp only [scannable.scanned, methodStored, keyStored,
    Except.ok.injEq]
  constructor
  · rintro ⟨requestString, length, rfl, isKey, hasType, isValue, measured,
      isSize⟩
    exact ⟨length, hasType.trans isType, isKey.symm, isKey ▸ isValue,
      measured, isSize⟩
  · rintro ⟨length, hasType, isKey, isValue, measured, isSize⟩
    exact ⟨form.method, length, rfl, isKey.symm, hasType.trans isType.symm,
      isKey ▸ isValue, measured, isSize⟩

/-- The request object of a documented request. -/
def Form.request (form : Form) (size : Nat) : Request where
  requestType := form.requestType
  key := form.key
  value := form.method.length + form.key.length + 3
  size := size

/-- The request found in a message with a value. -/
theorem Form.Scannable.parseRequest_value
    {form : Form}
    (scannable : form.Scannable)
    {value : CString}
    (hasValue : form.value = some value)
    (locals : Locals)
    (following : List UInt8) :
    parseRequest locals (form.message following) =
      .ok (form.request (value.length + 1)) :=
  scannable.parseRequest_eq_ok_iff.mpr
    ⟨value.length, rfl, rfl, rfl, Form.strlenFrom_value hasValue following,
      rfl⟩

/-- The request found in a message without a value that a NUL follows. -/
theorem Form.Scannable.parseRequest_noValue
    {form : Form}
    (scannable : form.Scannable)
    (noValue : form.value = none)
    (locals : Locals)
    (following : List UInt8) :
    parseRequest locals (form.message (0 :: following)) =
      .ok (form.request 1) := by
  have textLength :
      form.text.length = form.method.length + form.key.length + 2 := by
    simp [Form.text, Form.tail, noValue, CString.length]
    omega
  refine scannable.parseRequest_eq_ok_iff.mpr
    ⟨0, rfl, rfl, rfl, ?_, rfl⟩
  dsimp only [Form.request]
  apply strlenFrom_eq_some
  · simp [Form.message, textLength]
    omega
  · intro position inside
    exact absurd inside (Nat.not_lt_zero position)
  · have offset :
        form.method.length + form.key.length + 3 + 0 =
          form.text.length + 1 := by
      omega
    rw [offset, Form.message, bytesAt_append]
    rfl

/-- The value of a documented request is read back as it was sent. -/
theorem Form.bytesFrom_value
    {form : Form}
    {value : CString}
    (hasValue : form.value = some value)
    (following : List UInt8) :
    bytesFrom
        (fun position =>
          bytesAt (form.message following)
            (form.method.length + form.key.length + 3 + position))
        0 (value.length + 1) =
      value.bytes ++ [0] := by
  have sameBytes :
      bytesFrom
          (fun position =>
            bytesAt (form.message following)
              (form.method.length + form.key.length + 3 + position))
          0 (value.length + 1) =
        bytesFrom (bytesAt ((value.bytes ++ [0]) ++ following)) 0
          (value.bytes ++ [0]).length := by
    rw [List.append_assoc, List.length_append]
    apply bytesFrom_congr
    intro position _
    rw [Nat.zero_add, Form.bytesAt_value hasValue]
    rfl
  rw [sameBytes, bytesFrom_bytesAt]

/-- Every request is parsed as what it is. -/
theorem parseRequest_form
    {form : Form}
    (valid : form.Valid)
    {locals : Locals}
    {following : List UInt8}
    {request : Request}
    (parsed :
      parseRequest locals (form.message following) = .ok request) :
    Parsed form (form.message following) request := by
  obtain ⟨length, hasType, isKey, isValue, measured, isSize⟩ :=
    valid.scannable.parseRequest_eq_ok_iff.mp parsed
  have size (value : CString) (hasValue : form.value = some value) :
      request.size = value.length + 1 := by
    rw [isValue, Form.strlenFrom_value hasValue, Option.some.injEq]
      at measured
    rw [isSize, measured]
  refine ⟨hasType, isKey, size, ?_⟩
  intro value hasValue
  rw [size value hasValue, isValue]
  exact Form.bytesFrom_value hasValue following

end CacheBench
