import CacheBench.Client
import CacheBench.ServerRun

namespace CacheBench

open Client

/-!
# Requests on the wire

What the server reads from the messages the client formats.  Nothing is
escaped, so a key with a slash in it ends early and a value ends at its first
NUL; a number is printed in 64 bits and read in 32.
-/

section Put

variable {key : CString} {val : Nat → UInt8} {size : UInt32}

/-- What the server is to find in the message of a set. -/
structure DecodesPut
    (key : CString)
    (val : Nat → UInt8)
    (size : Nat)
    (buf : List UInt8)
    (request : Request) : Prop where
  isPut : request.requestType = .put
  sameKey : request.key = key
  sameSize : request.size = size
  sameValue :
    bytesFrom (fun position => bytesAt buf (request.value + position)) 0
        request.size =
      bytesFrom val 0 size

/-- The message of a set is that of a PUT request. -/
theorem cacheSend_put
    (key value : CString)
    (following : List UInt8) :
    cacheSend
          (CString.ofText "PUT /" ++ key ++ CString.ofText "/" ++ value) ++
        following =
      (Form.put key value).message following := by
  have leading : (CString.ofText "PUT /").bytes = [80, 85, 84, 32, 47] := by
    decide
  have slash : (CString.ofText "/").bytes = [47] := by
    decide
  have method : (CString.ofText "PUT").bytes = [80, 85, 84] := by
    decide
  simp [cacheSend, Form.message, Form.text, Form.method, Form.key,
    Form.tail, Form.value, leading, slash, method]

/-- The message of a get is that of a GET request. -/
theorem cacheSend_get (key : CString) (following : List UInt8) :
    cacheSend (getText key) ++ following =
      (Form.get key).message following := by
  have leading : (CString.ofText "GET /").bytes = [71, 69, 84, 32, 47] := by
    decide
  have method : (CString.ofText "GET").bytes = [71, 69, 84] := by
    decide
  simp [cacheSend, getText, Form.message, Form.text,
    Form.method, Form.key, Form.tail, Form.value, leading, method]

/-- A text that fits is sent as it is. -/
theorem intoBuffer_eq_ok
    {text msg : CString}
    (copied : intoBuffer text = .ok msg) :
    msg = text ∧ text.length < 2 ^ 20 := by
  unfold intoBuffer at copied
  split at copied
  · rename_i fits
    cases copied
    exact ⟨rfl, fits⟩
  · cases copied

/-- A value without a NUL before its last byte is its string and that NUL. -/
theorem read_of_string
    {count : Nat}
    (last : val count = 0)
    (nonzero : ∀ position < count, val position ≠ 0) :
    (CString.read (bytesFrom val 0 (count + 1))).bytes ++ [0] =
      bytesFrom val 0 (count + 1) := by
  have split :
      bytesFrom val 0 (count + 1) = bytesFrom val 0 count ++ [0] := by
    simp [bytesFrom, List.range_succ, last]
  have noNul : 0 ∉ bytesFrom val 0 count := by
    intro isNul
    obtain ⟨position, inRange, isZero⟩ := List.mem_map.mp isNul
    rw [Nat.zero_add] at isZero
    exact nonzero position (List.mem_range.mp inRange) isZero
  rw [split, CString.read_append_nul ⟨bytesFrom val 0 count, noNul⟩ []]

/-- The string of a value has no byte that is NUL. -/
theorem ne_nul_of_lt_length_read
    {count position : Nat}
    (inString :
      position < (CString.read (bytesFrom val 0 count)).length) :
    val position ≠ 0 := by
  have isPart :
      (CString.read (bytesFrom val 0 count)).bytes <+:
        bytesFrom val 0 count :=
    List.takeWhile_prefix _
  have inString :
      position < (CString.read (bytesFrom val 0 count)).bytes.length :=
    inString
  have sameByte := isPart.getElem inString
  have notNul :=
    (CString.read (bytesFrom val 0 count)).ne_nul_of_mem _
      (List.getElem_mem inString)
  rw [sameByte] at notNul
  simpa [bytesFrom] using notNul

/-- A key that is found whatever the locals held before was scanned. -/
theorem scanned_of_every_locals
    (form : Form)
    {following : List UInt8}
    (parsed :
      ∀ locals, ∃ request,
        parseRequest locals (form.message following) = .ok request ∧
          request.key = key) :
    (scanRequest form.text).2 = some key.bytes := by
  have stored (prior : CString) :
      scannedInto (Locals.holding (CString.ofText "") prior).key
          (scanRequest form.text).2 =
        .ok key := by
    obtain ⟨request, returned, isKey⟩ :=
      parsed (Locals.holding (CString.ofText "") prior)
    obtain ⟨-, -, -, keyStored, -⟩ :=
      (@parseRequest_eq_ok_iff _ ⟨form.text, form.text_noNul⟩ _ _).mp
        returned
    rw [keyStored, isKey]
  cases search : (scanRequest form.text).2 with
  | none =>
      have isA := stored (CString.ofText "a")
      have isB := stored (CString.ofText "b")
      rw [search, Locals.holding, scannedInto_none _ (by decide),
        Except.ok.injEq] at isA isB
      exact absurd (isA.trans isB.symm) (by decide)
  | some token =>
      have isToken := stored (CString.ofText "")
      obtain ⟨-, -, inText⟩ := scanRequest_key search
      have noNul : 0 ∉ token :=
        fun isNul => form.text_noNul (inText isNul)
      rw [search, scannedInto] at isToken
      split at isToken
      · rw [Except.ok.injEq] at isToken
        rw [← isToken, CString.read_bytes ⟨token, noNul⟩]
      · cases isToken

/-- The request the server finds in the message of a scannable key. -/
theorem parseRequest_put
    {value : CString}
    (scannable : (Form.put key value).Scannable)
    (locals : Locals)
    (following : List UInt8) :
    ∃ request,
      parseRequest locals ((Form.put key value).message following) =
          .ok request ∧
        request.requestType = .put ∧
        request.key = key ∧
        request.size = value.length + 1 ∧
        bytesFrom
            (fun position =>
              bytesAt ((Form.put key value).message following)
                (request.value + position))
            0 request.size =
          value.bytes ++ [0] := by
  refine ⟨_, scannable.parseRequest_value rfl locals following, rfl, rfl,
    rfl, ?_⟩
  exact Form.bytesFrom_value (rfl : (Form.put key value).value = _) following

/-- What is read back for all locals has a key that is scanned. -/
theorem scannable_of_decoded
    (keyFits : key.length ≤ 199)
    {value : CString}
    {size : Nat}
    (decoded :
      ∀ locals following, ∃ request,
        parseRequest locals ((Form.put key value).message following) =
            .ok request ∧
          DecodesPut key val size ((Form.put key value).message following)
            request) :
    (Form.put key value).Scannable ∧ value.length + 1 = size := by
  have isScanned : (scanRequest (Form.put key value).text).2 = _ :=
    scanned_of_every_locals (.put key value) fun locals => by
      obtain ⟨request, parsed, decodes⟩ := decoded locals []
      exact ⟨request, parsed, decodes.sameKey⟩
  obtain ⟨nonempty, noSlash, -⟩ := scanRequest_key isScanned
  have scannable : (Form.put key value).Scannable :=
    ⟨nonempty, noSlash, Nat.lt_succ_of_le keyFits⟩
  obtain ⟨request, parsed, decodes⟩ := decoded (Locals.holding key key) []
  obtain ⟨other, otherParsed, -, -, otherSize, -⟩ :=
    parseRequest_put scannable (Locals.holding key key) []
  rw [parsed, Except.ok.injEq] at otherParsed
  subst other
  exact ⟨scannable, otherSize.symm.trans decodes.sameSize⟩

/-- A value that is one string is read back whole. -/
theorem decoded_of_scannable
    {value : CString}
    (scannable : (Form.put key value).Scannable)
    {size : Nat}
    (whole : value.bytes ++ [0] = bytesFrom val 0 size)
    (locals : Locals)
    (following : List UInt8) :
    ∃ request,
      parseRequest locals ((Form.put key value).message following) =
          .ok request ∧
        DecodesPut key val size ((Form.put key value).message following)
          request := by
  obtain ⟨request, parsed, isPut, sameKey, hasSize, hasValue⟩ :=
    parseRequest_put scannable locals following
  have lengths := congrArg List.length whole
  rw [List.length_append, length_bytesFrom] at lengths
  exact ⟨request, parsed, isPut, sameKey, hasSize.trans lengths,
    hasValue.trans whole⟩

/--
The server reads a set back as it was made, whatever its local variables held
before, exactly if the key is not empty and has no slash and the value has no
NUL before its last byte.
-/
theorem put_decoded_iff
    (key : CString)
    (keyFits : key.length ≤ 199)
    (val : Nat → UInt8)
    (size : UInt32)
    (positive : 1 ≤ size)
    (accepted : val (size - 1).toNat = 0) :
    ∃ text,
      putText key val size = .ok text ∧
        ((∀ locals following, ∃ request,
            parseRequest locals (cacheSend text ++ following) =
                .ok request ∧
              DecodesPut key val size.toNat (cacheSend text ++ following)
                request) ↔
          key.bytes ≠ [] ∧ 47 ∉ key.bytes ∧
            ∀ position, position + 1 < size.toNat →
              val position ≠ 0) := by
  have isSize : (size - 1).toNat + 1 = size.toNat := by
    rw [UInt32.toNat_sub_of_le _ _ positive]
    have atLeast : 1 ≤ size.toNat := UInt32.le_iff_toNat_le.mp positive
    change size.toNat - 1 + 1 = size.toNat
    omega
  refine ⟨_, if_neg (not_not.mpr accepted), ?_⟩
  simp only [cacheSend_put]
  generalize isString :
    CString.read (bytesFrom val 0 ((size - 1).toNat + 1)) = value
  constructor
  · intro decoded
    obtain ⟨scannable, sameSize⟩ := scannable_of_decoded keyFits decoded
    refine ⟨scannable.nonempty, scannable.noSlash, ?_⟩
    intro position inside
    apply ne_nul_of_lt_length_read
    rw [isString]
    omega
  · rintro ⟨nonempty, noSlash, nonzero⟩
    have whole : value.bytes ++ [0] = bytesFrom val 0 size.toNat := by
      rw [← isString, ← isSize]
      apply read_of_string accepted
      intro position inside
      exact nonzero position (by omega)
    exact decoded_of_scannable
      ⟨nonempty, noSlash, Nat.lt_succ_of_le keyFits⟩ whole

/-- A key with a space and a value with a slash are read back. -/
theorem put_decoded_iff_of_space :
    ∃ text,
      putText (CString.ofText "k k") (bytesAt (ascii "a/b")) 4 = .ok text ∧
        ∀ locals following, ∃ request,
          parseRequest locals (cacheSend text ++ following) = .ok request ∧
            DecodesPut (CString.ofText "k k") (bytesAt (ascii "a/b")) 4
              (cacheSend text ++ following) request := by
  obtain ⟨text, formatted, decoded⟩ :=
    put_decoded_iff (CString.ofText "k k") (by decide)
      (bytesAt (ascii "a/b")) 4 (by decide) (by decide)
  have nonzero :
      ∀ position < 3, bytesAt (ascii "a/b") position ≠ 0 := by
    decide
  refine ⟨text, formatted, decoded.mpr ⟨by decide, by decide, ?_⟩⟩
  exact fun position inside => nonzero position (Nat.lt_of_succ_lt_succ inside)

end Put

/-! ## Numbers -/

/-- The fold of `strtol` over digits reads them as a number. -/
theorem foldl_digits
    {digits : List Char}
    (areDigits :
      ∀ digit ∈ digits, 48 ≤ digit.toNat ∧ digit.toNat ≤ 57)
    (start : Nat) :
    (digits.map fun digit => UInt8.ofNat digit.toNat).foldl
        (fun (number : Int) byte => 10 * number + (byte.toNat - 48))
        (start : Int) =
      (Nat.ofDigitChars 10 digits start : Int) := by
  induction digits generalizing start with
  | nil =>
      rfl
  | cons digit rest inductionHypothesis =>
      obtain ⟨lower, upper⟩ := areDigits digit List.mem_cons_self
      have next :
          10 * (start : Int) +
              ((UInt8.ofNat digit.toNat).toNat - 48) =
            ((10 * start + (digit.toNat - 48) : Nat) : Int) := by
        rw [toNat_digit upper]
        omega
      rw [List.map_cons, List.foldl_cons, next, Nat.ofDigitChars_cons]
      exact inductionHypothesis
        (fun digit member =>
          areDigits digit (List.mem_cons_of_mem _ member))
        (10 * start + (digit.toNat - 48))

/-- `strtol` of what `%lu` prints is the number, up to the largest `long`. -/
theorem strtol_decimal (number : Nat) :
    strtol (decimal number) = min (2 ^ 63 - 1) (number : Int) := by
  have isNumber :
      (decimal number).foldl
          (fun (number : Int) byte => 10 * number + (byte.toNat - 48)) 0 =
        (number : Int) := by
    have folded :=
      @foldl_digits (Nat.toDigits 10 number)
        (fun _ member => toNat_of_mem_toDigits member) 0
    rw [Nat.ofDigitChars_ten_toDigits] at folded
    exact folded
  have allTaken :
      (decimal number).takeWhile (fun byte => 48 ≤ byte && byte ≤ 57) =
        decimal number := by
    rw [List.takeWhile_eq_self_iff]
    intro byte member
    simpa [UInt8.le_iff_toNat_le] using toNat_of_mem_decimal member
  have noneSkipped :
      (decimal number).dropWhile isSpace = decimal number := by
    cases shape : decimal number with
    | nil =>
        rfl
    | cons first rest =>
        have member : first ∈ decimal number := by
          rw [shape]
          exact List.mem_cons_self
        have lower := (toNat_of_mem_decimal member).1
        have notSpace : isSpace first = false := by
          have notBlank : first ≠ 32 := by
            rintro rfl
            exact absurd lower (by decide)
          simp [isSpace, UInt8.le_iff_toNat_le, notBlank]
          omega
        rw [List.dropWhile_cons_of_neg (by simp [notSpace])]
  have notSign (sign : UInt8) (digits : List UInt8)
      (below : sign.toNat < 48) : decimal number ≠ sign :: digits := by
    intro shape
    have member : sign ∈ decimal number := by
      rw [shape]
      exact List.mem_cons_self
    exact Nat.not_le_of_lt below (toNat_of_mem_decimal member).1
  unfold strtol
  dsimp only
  rw [noneSkipped]
  split
  · rename_i digits shape
    exact absurd shape (notSign 45 digits (by decide))
  · rename_i digits shape
    exact absurd shape (notSign 43 digits (by decide))
  · rw [allTaken, isNumber]

/-- What the server makes of a printed size: its low half, sign-extended. -/
theorem intToUInt64_atoi_decimal (maxmem : UInt64) :
    (intToUInt64 (atoi (decimal maxmem.toNat))).toNat =
      if min (2 ^ 63 - 1) maxmem.toNat % 2 ^ 32 < 2 ^ 31 then
        min (2 ^ 63 - 1) maxmem.toNat % 2 ^ 32
      else
        2 ^ 64 - 2 ^ 32 + min (2 ^ 63 - 1) maxmem.toNat % 2 ^ 32 := by
  rw [intToUInt64, atoi, strtol_decimal, UInt64.toNat_ofNat',
    Int.bmod_def]
  split_ifs <;> omega

/-- The limit of a new cache: at least two slabs and at most 4 GB. -/
theorem createCache_maxmem
    (blocks : Nat → Slab)
    (maxmem : UInt64)
    (hasher : Option HashFunc) :
    (CacheBench.createCache blocks maxmem hasher).maxmem.toNat =
      if maxmem.toNat < getSlabSize then
        2 * getSlabSize
      else
        min maxmem.toNat (2 ^ 32) := by
  have slabSize : (UInt64.ofNat getSlabSize).toNat = getSlabSize := by
    decide
  have twoSlabs : (2 * UInt64.ofNat getSlabSize).toNat = 2 * getSlabSize := by
    decide
  have atMost : (UInt64.ofNat (2 ^ 32)).toNat = 2 ^ 32 := by
    decide
  have below : 2 * getSlabSize < 2 ^ 32 := by
    decide
  simp only [CacheBench.createCache, UInt64.lt_iff_toNat_lt, slabSize,
    gt_iff_lt]
  split_ifs with small large large <;>
    simp only [atMost, twoSlabs] at * <;> omega

/-- The message with which the client sets the size. -/
theorem cacheSend_memsize
    (maxmem : UInt64)
    (following : List UInt8) :
    cacheSend (memsizeText maxmem) ++ following =
      (Form.memsize (decimalString maxmem.toNat)).message following := by
  have leading :
      (CString.ofText "POST /memsize/").bytes =
        (CString.ofText "POST").bytes ++
          32 :: 47 :: ((CString.ofText "memsize").bytes ++ [47]) := by
    decide
  simp [cacheSend, memsizeText, Form.message, Form.text, Form.method,
    Form.key, Form.tail, Form.value, leading]

/-- The size always fits in the client's buffer. -/
theorem createCache_eq_ok
    {maxmem : UInt64}
    (positive : 0 < maxmem) :
    Client.createCache maxmem = .ok (some (cacheSend (memsizeText maxmem))) := by
  have leading : (CString.ofText "POST /memsize/").length = 14 := by
    decide
  have digits : (decimalString maxmem.toNat).length ≤ 20 :=
    length_decimal_le maxmem
  have fits : (memsizeText maxmem).length < bufferSize := by
    rw [memsizeText, CString.length_append, leading, bufferSize]
    omega
  rw [Client.createCache, if_pos positive, intoBuffer, if_pos fits]
  rfl

/--
The cache the server creates has the limit the client asked for exactly if the
number is below 2^31, or at least 4 GB with bit 31 of its value as a `long` set.
-/
theorem memsize_survives_iff
    (maxmem : UInt64)
    (positive : 1 ≤ maxmem.toNat) :
    ∃ message,
      Client.createCache maxmem = .ok (some message) ∧
        ∀ server locals following,
          server.cacheHasBeenSet = false →
            ∃ reply after cache,
              recv server locals (message ++ following) =
                  .ok (reply, after) ∧
                after.globalCache = some cache ∧
                ∀ blocks hasher,
                  cache.maxmem =
                      (CacheBench.createCache blocks maxmem hasher).maxmem ↔
                    maxmem.toNat < 2 ^ 31 ∨
                      (2 ^ 32 ≤ maxmem.toNat ∧
                        2 ^ 31 ≤
                          min (2 ^ 63 - 1) maxmem.toNat % 2 ^ 32) := by
  refine ⟨_, createCache_eq_ok (UInt64.lt_iff_toNat_lt.mpr positive), ?_⟩
  intro server locals following unset
  obtain ⟨reply, -, returned⟩ :=
    recv_memsize unset (decimalString maxmem.toNat) locals following
  rw [cacheSend_memsize]
  refine ⟨reply, _, _, returned, rfl, ?_⟩
  intro blocks hasher
  have sent := intToUInt64_atoi_decimal maxmem
  have bounded := maxmem.toNat_lt
  have slabSize : getSlabSize = 1050632 := by
    decide
  rw [← UInt64.toNat_inj, createCache_maxmem, createCache_maxmem]
  change
    (intToUInt64 (atoi (decimalString maxmem.toNat).bytes)).toNat = _ at sent
  rw [sent, slabSize]
  split_ifs <;> omega

/-- The default limit survives. -/
theorem memsize_survives_iff_of_64_megabytes :
    ∃ message,
      Client.createCache 67108864 = .ok (some message) ∧
        ∀ locals, ∃ reply after cache,
          recv (Server.start (fun _ => zeroBlocks) 0) locals message =
              .ok (reply, after) ∧
            after.globalCache = some cache ∧
            cache.maxmem =
              (CacheBench.createCache zeroBlocks 67108864 none).maxmem := by
  obtain ⟨message, sent, survives⟩ :=
    memsize_survives_iff 67108864 (by decide)
  refine ⟨message, sent, ?_⟩
  intro locals
  obtain ⟨reply, after, cache, returned, left, sameMaxmem⟩ :=
    survives (Server.start (fun _ => zeroBlocks) 0) locals [] rfl
  rw [List.append_nil] at returned
  exact ⟨reply, after, cache, returned, left,
    (sameMaxmem zeroBlocks none).mpr (by decide)⟩

/-- 4 GB are read as 0, and the server creates a cache of two slabs. -/
theorem memsize_of_4_gigabytes_lost :
    ∃ message,
      Client.createCache 4294967296 = .ok (some message) ∧
        ∀ locals, ∃ reply after cache,
          recv (Server.start (fun _ => zeroBlocks) 0) locals message =
              .ok (reply, after) ∧
            after.globalCache = some cache ∧
            cache.maxmem = 2101264 ∧
            (CacheBench.createCache zeroBlocks 4294967296 none).maxmem =
              4294967296 := by
  refine ⟨_, createCache_eq_ok (by decide), ?_⟩
  intro locals
  obtain ⟨reply, -, returned⟩ :=
    @recv_memsize (Server.start (fun _ => zeroBlocks) 0) rfl
      (decimalString 4294967296) locals []
  have isMessage := cacheSend_memsize 4294967296 []
  rw [List.append_nil] at isMessage
  rw [isMessage]
  exact ⟨reply, _, _, returned, rfl, by decide +kernel, by decide⟩

end CacheBench
