import CacheBench.ServerRequests

namespace CacheBench

open Execution

/-!
# What a message means

`recv` ignores how many fields `sscanf` assigned.  A field that was not
assigned keeps what the stack held, most often the method or the key of an
earlier request.  This module compares two runs on one message.  What the
server does is fixed by the message exactly if `sscanf` assigns both fields:
a key that was not assigned is measured by `strlen` for every method, and the
array it is in need not hold a string.  For two runs that both come to an
answer, the second part says when the answers are the same.
-/

/--
What a call of `recv` does: the arguments of `cache_reply` and the state that is
left, or the fault it runs into.
-/
def recvEffect (server : Server) (locals : Locals) (buf : List UInt8) :
    Outcome (List UInt8 × List UInt8 × Server) := do
  let (reply, after) ← recv server locals buf
  .ok (reply.head, reply.body, after)

/-- The server does the same with a message, whatever the locals held. -/
def MeaningFixed (server : Server) (text : CString) : Prop :=
  ∀ following first second,
    recvEffect server second (text.bytes ++ 0 :: following) =
      recvEffect server first (text.bytes ++ 0 :: following)

/-- `sscanf` assigns the method and the key. -/
def BothScanned (text : CString) : Prop :=
  (scanRequest text.bytes).1.isSome ∧ (scanRequest text.bytes).2.isSome

/-- A state some run of the server ends in. -/
def Server.Reachable (server : Server) : Prop :=
  ∃ blocks maxmem history,
    Run Server.Receives (Server.start blocks maxmem) history server

/-- Without a method there is no key. -/
theorem scanRequest_of_none
    {text : List UInt8}
    (noMethod : (scanRequest text).1 = none) :
    scanRequest text = (none, none) := by
  unfold scanRequest at noMethod ⊢
  dsimp only at noMethod ⊢
  split at noMethod
  · rename_i isEmpty
    rw [if_pos isEmpty]
  · split at noMethod <;> cases noMethod

/-- The rest of the text from an offset on, or nothing. -/
theorem strlenFrom_text
    (text : CString)
    (following : List UInt8)
    {offset : Nat}
    (inMemory : offset ≤ text.length + following.length)
    (stops :
      text.length < offset →
        bytesAt (text.bytes ++ 0 :: following) offset = 0) :
    strlenFrom (bytesAt (text.bytes ++ 0 :: following))
        ((text.bytes ++ 0 :: following).length - offset) offset =
      some (text.length - offset) := by
  have length : text.length = text.bytes.length := rfl
  apply strlenFrom_eq_some
  · rw [List.length_append, List.length_cons]
    omega
  · intro position inside
    exact text.bytesAt_ne_nul _ (by omega)
  · rcases Nat.lt_or_ge text.length offset with beyond | inText
    · have noRest : text.length - offset = 0 := by
        omega
      rw [noRest, Nat.add_zero]
      exact stops beyond
    · have atEnd :
          offset + (text.length - offset) = text.bytes.length + 0 := by
        omega
      rw [atEnd, bytesAt_append]
      rfl

/-! ## Messages with a method and a key -/

section Scanned

variable {text : CString}

/-- Fields that are both assigned make the request what it is. -/
theorem BothScanned.parseRequest_eq
    (scanned : BothScanned text)
    (first second : Locals)
    (following : List UInt8) :
    parseRequest second (text.bytes ++ 0 :: following) =
      parseRequest first (text.bytes ++ 0 :: following) := by
  obtain ⟨hasMethod, hasKey⟩ := scanned
  obtain ⟨method, isMethod⟩ := Option.isSome_iff_exists.mp hasMethod
  obtain ⟨key, isKey⟩ := Option.isSome_iff_exists.mp hasKey
  have scanned : scanRequest text.bytes = (some method, some key) :=
    Prod.ext isMethod isKey
  simp only [parseRequest, CString.read_append_nul, scanned, scannedInto]

/-- A message with a method and a key has a fixed meaning. -/
theorem BothScanned.meaningFixed
    (scanned : BothScanned text)
    (server : Server) :
    MeaningFixed server text := by
  intro following first second
  have resent :=
    recv_resend server first second (text.bytes ++ 0 :: following)
      (scanned.parseRequest_eq first second following)
  rw [recvEffect, recvEffect, resent]
  cases recv server first (text.bytes ++ 0 :: following) with
  | error fault =>
      simp only [Except.map, bind, Except.bind]
  | ok answer =>
      simp only [Except.map, bind, Except.bind, resend]

/-- The key is the field that is missing, alone or with the method. -/
theorem noKey_of_not_bothScanned
    (notScanned : ¬ BothScanned text) :
    (scanRequest text.bytes).2 = none := by
  cases hasMethod : (scanRequest text.bytes).1 with
  | none =>
      rw [scanRequest_of_none hasMethod]
  | some method =>
      cases hasKey : (scanRequest text.bytes).2 with
      | none =>
          rfl
      | some key =>
          refine absurd ⟨?_, ?_⟩ notScanned
          · rw [hasMethod]
            rfl
          · rw [hasKey]
            rfl

end Scanned

/-! ## Messages that act on what was left over -/

/-- Zeros behind a message. -/
def zeroBytes : List UInt8 :=
  List.replicate 300 0

/-- The request read with the given method and key, before zeros. -/
def leftoverRequest (text requestString key : CString) : Request where
  requestType := RequestType.ofString requestString
  key := key
  value := requestString.length + key.length + 3
  size := text.length - (requestString.length + key.length + 3) + 1

section Leftovers

variable {text : CString} {method : List UInt8}

/-- Behind a message that zeros follow, every value ends. -/
theorem parseRequest_leftover
    {locals : Locals}
    {requestString key : CString}
    (methodStored :
      scannedInto locals.requestString (scanRequest text.bytes).1 =
        .ok requestString)
    (keyStored :
      scannedInto locals.key (scanRequest text.bytes).2 = .ok key)
    (methodFits : requestString.length ≤ 15)
    (keyFits : key.length ≤ 199) :
    parseRequest locals (text.bytes ++ 0 :: zeroBytes) =
      .ok (leftoverRequest text requestString key) := by
  have zeros : zeroBytes.length = 300 := List.length_replicate
  refine parseRequest_eq_ok_iff.mpr
    ⟨requestString, _, methodStored, keyStored, rfl, rfl, ?_, rfl⟩
  dsimp only [leftoverRequest]
  apply strlenFrom_text
  · omega
  · intro beyond
    obtain ⟨position, isOffset⟩ := Nat.exists_eq_add_of_lt beyond
    have length : text.length = text.bytes.length := rfl
    rw [isOffset, length, Nat.add_assoc, bytesAt_append, bytesAt,
      List.getElem?_cons_succ, zeroBytes, List.getElem?_replicate]
    split <;> rfl

/-- A method that was scanned, with a key that was not. -/
theorem parseRequest_leftover_key
    (scanned : scanRequest text.bytes = (some method, none))
    (methodFits : method.length ≤ 15)
    {key : CString}
    (keyFits : key.length ≤ 199) :
    parseRequest (Locals.holding (CString.ofText "") key)
        (text.bytes ++ 0 :: zeroBytes) =
      .ok (leftoverRequest text (CString.read method) key) := by
  have shorter : (CString.read method).length ≤ method.length :=
    (List.takeWhile_prefix _).length_le
  apply parseRequest_leftover
  · rw [scanned, scannedInto, if_pos (Nat.lt_succ_of_le methodFits)]
  · rw [scanned]
    exact scannedInto_none key (Nat.lt_succ_of_le keyFits)
  · exact shorter.trans methodFits
  · exact keyFits

/-- A key that was not scanned is the one left over. -/
theorem exists_parseRequest_leftover
    (methodFits :
      ∀ {token}, (scanRequest text.bytes).1 = some token →
        token.length ≤ 15)
    (noKey : (scanRequest text.bytes).2 = none)
    {key : CString}
    (keyFits : key.length ≤ 199) :
    ∃ requestString,
      parseRequest (Locals.holding (CString.ofText "") key)
          (text.bytes ++ 0 :: zeroBytes) =
        .ok (leftoverRequest text requestString key) := by
  cases hasMethod : (scanRequest text.bytes).1 with
  | some method =>
      exact ⟨_, parseRequest_leftover_key (Prod.ext hasMethod noKey)
        (methodFits hasMethod) keyFits⟩
  | none =>
      refine ⟨CString.ofText "", parseRequest_leftover ?_ ?_ ?_ keyFits⟩
      · rw [hasMethod]
        exact scannedInto_none (CString.ofText "") (by decide)
      · rw [noKey]
        exact scannedInto_none key (Nat.lt_succ_of_le keyFits)
      · decide

/-- Local variables whose array for the key holds no string. -/
def unterminatedLocals : Locals :=
  { zeroLocals with key := Vector.replicate 200 1 }

/-- Where no string was left over, `strlen` of the key finds no end. -/
theorem parseRequest_unterminated
    (noKey : (scanRequest text.bytes).2 = none)
    (following : List UInt8)
    (req : Request) :
    parseRequest unterminatedLocals (text.bytes ++ 0 :: following) ≠
      .ok req := by
  intro parsed
  obtain ⟨-, -, -, keyStored, -⟩ := parseRequest_eq_ok_iff.mp parsed
  have noNul : 0 ∉ unterminatedLocals.key.toList := by
    decide
  rw [noKey, scannedInto, if_neg noNul] at keyStored
  cases keyStored

/-- With a key that is too long for the cache every request is answered. -/
theorem newServer_answers_long_key
    {req : Request}
    (long : 32 < req.key.length)
    (locals : Locals)
    (buf : List UInt8) :
    ∃ answer, handleRequest newServer locals buf req = .ok answer := by
  have notNamed {name : List UInt8} (short : name.length ≤ 32) :
      req.key.bytes ≠ name := by
    rintro rfl
    exact Nat.not_lt_of_le short long
  have missing : getMeta newCache req.key = none :=
    getMeta_of_no_metas (createCache_metas _ _ _) req.key
  cases hasType : req.requestType with
  | bad =>
      rw [handleRequest, hasType]
      exact ⟨_, Server.reply_eq_ok ..⟩
  | delete =>
      rw [handleRequest_delete_missing hasType newServer_globalCache missing]
      exact ⟨_, Server.reply_eq_ok ..⟩
  | get =>
      rw [handleRequest_get_miss hasType newServer_globalCache missing]
      exact ⟨_, Server.reply_eq_ok ..⟩
  | head =>
      rw [handleRequest, hasType]
      exact ⟨_, Server.reply_eq_ok ..⟩
  | post =>
      rw [handleRequest_unknown hasType (notNamed (by decide))
        (notNamed (by decide))]
      exact ⟨_, Server.reply_eq_ok ..⟩
  | put =>
      have refused (cache : Cache) :
          setRefusal cache req.key
              (fun position => bytesAt buf (req.value + position))
              (UInt32.ofNat req.size) =
            some 1 :=
        if_pos long
      rw [handleRequest_put_refused hasType
        fun cache _ => ⟨1, refused cache⟩]
      exact ⟨_, Server.reply_eq_ok ..⟩

/-- Without a key the locals decide whether there is an answer at all. -/
theorem not_meaningFixed_of_no_key
    (methodFits :
      ∀ {token}, (scanRequest text.bytes).1 = some token →
        token.length ≤ 15)
    (noKey : (scanRequest text.bytes).2 = none) :
    ¬ MeaningFixed newServer text := by
  intro fixed
  have length : (lettersString 40).length = 40 := length_lettersString 40
  obtain ⟨requestString, parsed⟩ :=
    @exists_parseRequest_leftover text methodFits noKey (lettersString 40)
      (by omega)
  have long :
      32 < (leftoverRequest text requestString (lettersString 40)).key.length :=
    Nat.lt_of_lt_of_le (by decide) length.ge
  obtain ⟨answer, answered⟩ := newServer_answers_long_key long
    (Locals.holding (CString.ofText "") (lettersString 40))
    (text.bytes ++ 0 :: zeroBytes)
  have same := fixed zeroBytes
    (Locals.holding (CString.ofText "") (lettersString 40))
    unterminatedLocals
  rw [recvEffect, recvEffect, recv_of_parsed parsed, answered] at same
  obtain ⟨_, received, _⟩ := bind_eq_ok.mp same
  obtain ⟨req, otherParsed, -⟩ := bind_eq_ok.mp received
  exact parseRequest_unterminated noKey zeroBytes req otherParsed

end Leftovers

/--
What the server does with a message is fixed by the text, in every state or in
every reachable one, exactly if `sscanf` assigns the method and the key.
-/
theorem meaning_fixed_iff
    (text : CString)
    (methodFits :
      ∀ {token}, (scanRequest text.bytes).1 = some token →
        token.length ≤ 15) :
    ((∀ server, MeaningFixed server text) ↔ BothScanned text) ∧
      ((∀ server, server.Reachable → MeaningFixed server text) ↔
        BothScanned text) := by
  have scanned (reachable :
      ∀ server, server.Reachable → MeaningFixed server text) :
      BothScanned text := by
    by_contra notScanned
    exact not_meaningFixed_of_no_key methodFits
      (noKey_of_not_bothScanned notScanned)
      (reachable newServer ⟨_, _, [], .nil⟩)
  refine ⟨⟨?_, BothScanned.meaningFixed⟩, ⟨scanned, ?_⟩⟩
  · intro always
    exact scanned fun server _ => always server
  · intro both server _
    exact both.meaningFixed server

/--
GET /k means the same whatever was left over; what HEAD alone does depends on
it, although no key is asked for.
-/
theorem meaning_fixed_iff_of_key :
    (∀ server, MeaningFixed server (CString.ofText "GET /k")) ∧
      ¬ ∀ server, server.Reachable →
        MeaningFixed server (CString.ofText "HEAD") := by
  have scanned :
      scanRequest (CString.ofText "GET /k").bytes =
        (some (ascii "GET"), some (ascii "k")) := by
    decide
  have noKey :
      scanRequest (CString.ofText "HEAD").bytes =
        (some (ascii "HEAD"), none) := by
    decide
  constructor
  · refine (meaning_fixed_iff (CString.ofText "GET /k") ?_).1.mpr ?_
    · intro token isToken
      rw [scanned, Option.some.injEq] at isToken
      subst isToken
      decide
    · rw [BothScanned, scanned]
      exact ⟨rfl, rfl⟩
  · rw [(meaning_fixed_iff (CString.ofText "HEAD") ?_).2, BothScanned, noKey]
    · rintro ⟨-, ⟨⟩⟩
    · intro token isToken
      rw [noKey, Option.some.injEq] at isToken
      subst isToken
      decide

/-! ## Runs that both come to an answer -/

/-- Two runs on a message that are both answered are answered alike. -/
def AnswersAgree (server : Server) (text : CString) : Prop :=
  ∀ following first second reply after other otherAfter,
    recv server first (text.bytes ++ 0 :: following) =
        .ok (reply, after) →
    recv server second (text.bytes ++ 0 :: following) =
        .ok (other, otherAfter) →
      otherAfter = after ∧ other.head = reply.head ∧
        other.body = reply.body

/--
With every key that `cache_set` admits, the rest of the message is too long for
a value.  A size of 2^32 is excluded because it is 0 in 32 bits.
-/
def Oversized (text : CString) : Prop :=
  ∀ keyLength ≤ 32,
    getSlabSize < text.length - (keyLength + 6) + 1 ∧
      text.length - (keyLength + 6) + 1 ≠ 2 ^ 32

/-- The method and the key are scanned, or the key does not matter. -/
def AnswerByText (text : CString) : Prop :=
  match scanRequest text.bytes with
  | (some _, some _) => True
  | (some method, none) =>
      match RequestType.ofString (CString.read method) with
      | .bad => True
      | .head => True
      | .put => Oversized text
      | .delete => False
      | .get => False
      | .post => False
  | (none, _) => False

section Fixed

variable {server : Server} {text : CString}

/-- Where the message fixes what is done, it fixes the answer. -/
theorem MeaningFixed.answersAgree
    (fixed : MeaningFixed server text) :
    AnswersAgree server text := by
  intro following first second reply after other otherAfter received
    receivedAgain
  have same := fixed following first second
  rw [recvEffect, recvEffect, received, receivedAgain] at same
  simp only [bind, Except.bind, Except.ok.injEq, Prod.mk.injEq] at same
  exact ⟨same.2.2, same.1, same.2.1⟩

/-- When every request that may be read is answered alike, nothing differs. -/
theorem answersAgree_of_reply
    (head : List UInt8)
    (answered :
      ∀ {locals following req},
        parseRequest locals (text.bytes ++ 0 :: following) = .ok req →
          handleRequest server locals (text.bytes ++ 0 :: following) req =
            server.reply locals head []) :
    AnswersAgree server text := by
  intro following first second reply after other otherAfter received
    receivedAgain
  obtain ⟨req, parsed, handled⟩ := bind_eq_ok.mp received
  obtain ⟨otherReq, otherParsed, otherHandled⟩ :=
    bind_eq_ok.mp receivedAgain
  rw [answered parsed] at handled
  rw [answered otherParsed] at otherHandled
  obtain ⟨isHead, isBody, rfl⟩ := Server.reply_eq handled
  obtain ⟨otherHead, otherBody, rfl⟩ := Server.reply_eq otherHandled
  exact ⟨rfl, otherHead.trans isHead.symm, otherBody.trans isBody.symm⟩

/-- A method that is scanned gives the type. -/
theorem requestType_of_scanned
    {method : List UInt8}
    (scanned : (scanRequest text.bytes).1 = some method)
    {locals : Locals}
    {following : List UInt8}
    {req : Request}
    (parsed :
      parseRequest locals (text.bytes ++ 0 :: following) = .ok req) :
    req.requestType = RequestType.ofString (CString.read method) ∧
      req.value = (CString.read method).length + req.key.length + 3 := by
  obtain ⟨requestString, length, stored, -, isType, isValue, -⟩ :=
    parseRequest_eq_ok_iff.mp parsed
  rw [scanned, scannedInto] at stored
  split at stored
  · rw [Except.ok.injEq] at stored
    rw [stored]
    exact ⟨isType, isValue⟩
  · cases stored

/-- The index of the last byte, as `cache_set` computes it. -/
theorem toNat_ofNat_sub_one (size : Nat) :
    (UInt32.ofNat size - 1).toNat =
      (2 ^ 32 - 1 + size % 2 ^ 32) % 2 ^ 32 := by
  rw [UInt32.toNat_sub, UInt32.toNat_ofNat']
  rfl

/-- No key makes an oversized put acceptable. -/
theorem exists_setRefusal_of_oversized
    {method : List UInt8}
    (scanned : (scanRequest text.bytes).1 = some method)
    (isPut : (CString.read method).bytes = ascii "PUT")
    (oversized : Oversized text)
    {locals : Locals}
    {following : List UInt8}
    {req : Request}
    (parsed :
      parseRequest locals (text.bytes ++ 0 :: following) = .ok req)
    (cache : Cache) :
    ∃ code,
      setRefusal cache req.key
          (fun position =>
            bytesAt (text.bytes ++ 0 :: following)
              (req.value + position))
          (UInt32.ofNat req.size) =
        some code := by
  cases refusal :
      setRefusal cache req.key
        (fun position =>
          bytesAt (text.bytes ++ 0 :: following) (req.value + position))
        (UInt32.ofNat req.size) with
  | some code =>
      exact ⟨code, rfl⟩
  | none =>
      have admitted : req.key.length ≤ 32 :=
        admitted_of_setRefusal refusal
      have small := small_of_setRefusal refusal
      have terminated := terminated_of_setRefusal refusal
      obtain ⟨large, notWrapped⟩ := oversized req.key.length admitted
      have isValue : req.value = req.key.length + 6 := by
        have methodLength : (CString.read method).length = 3 := by
          rw [CString.length, isPut]
          decide
        rw [(requestType_of_scanned scanned parsed).2, methodLength]
        omega
      have inText : req.value ≤ text.length := by
        have positive : 1 ≤ getSlabSize := by
          decide
        omega
      have isSize : req.size = text.length - req.value + 1 := by
        obtain ⟨-, length, -, -, -, -, measured, isSize⟩ :=
          parseRequest_eq_ok_iff.mp parsed
        rw [strlenFrom_text text following (by omega)
          (fun beyond => absurd inText (Nat.not_le_of_lt beyond)),
          Option.some.injEq] at measured
        rw [isSize, measured]
      have inside :
          (UInt32.ofNat req.size - 1).toNat < text.length - req.value := by
        rw [UInt32.toNat_ofNat'] at small
        rw [toNat_ofNat_sub_one]
        have slabSize : getSlabSize < 2 ^ 32 := by
          decide
        omega
      exact absurd terminated (text.bytesAt_ne_nul _ (by omega))

/-- The messages whose answer is fixed. -/
theorem answersAgree_of_text
    (fixed : AnswerByText text)
    (server : Server) :
    AnswersAgree server text := by
  unfold AnswerByText at fixed
  split at fixed
  · rename_i scanned
    have both : BothScanned text := by
      rw [BothScanned, scanned]
      exact ⟨rfl, rfl⟩
    exact (both.meaningFixed server).answersAgree
  · rename_i method scanned
    have hasMethod : (scanRequest text.bytes).1 = some method := by
      rw [scanned]
    split at fixed
    · rename_i isBad
      refine answersAgree_of_reply (ascii "400 Bad Request")
        fun parsed => ?_
      have isType := (requestType_of_scanned hasMethod parsed).1
      rw [handleRequest, isType, isBad]
    · rename_i isHead
      refine answersAgree_of_reply (ascii "200 OK") fun parsed => ?_
      have isType := (requestType_of_scanned hasMethod parsed).1
      rw [handleRequest, isType, isHead]
    · rename_i isPut
      refine answersAgree_of_reply (ascii "500 Internal Server Error")
        fun parsed => ?_
      have isType := (requestType_of_scanned hasMethod parsed).1
      exact handleRequest_put_refused (isType.trans isPut)
        fun cache _ =>
          exists_setRefusal_of_oversized hasMethod
            (RequestType.bytes_of_put isPut) fixed parsed cache
    · cases fixed
    · cases fixed
    · cases fixed
  · cases fixed

end Fixed

section Answers

variable {text : CString} {method : List UInt8}

/-- Two requests answered differently show that the answer is not fixed. -/
theorem not_answersAgree
    {server after otherAfter : Server}
    {first second : Locals}
    {req other : Request}
    {head body otherHead otherBody : List UInt8}
    (parsed :
      parseRequest first (text.bytes ++ 0 :: zeroBytes) = .ok req)
    (otherParsed :
      parseRequest second (text.bytes ++ 0 :: zeroBytes) = .ok other)
    (answered :
      handleRequest server first (text.bytes ++ 0 :: zeroBytes) req =
        after.reply first head body)
    (otherAnswered :
      handleRequest server second (text.bytes ++ 0 :: zeroBytes) other =
        otherAfter.reply second otherHead otherBody)
    (different : otherHead ≠ head ∨ otherBody ≠ body) :
    ¬ AnswersAgree server text := by
  intro fixed
  rw [← recv_of_parsed parsed, Server.reply_eq_ok] at answered
  rw [← recv_of_parsed otherParsed, Server.reply_eq_ok] at otherAnswered
  obtain ⟨-, sameHead, sameBody⟩ :=
    fixed _ _ _ _ _ _ _ answered otherAnswered
  rcases different with differentHead | differentBody
  · exact differentHead sameHead
  · exact differentBody sameBody

/-- Without a method, the one that was left over is taken. -/
theorem not_answersAgree_of_no_method
    (noMethod : (scanRequest text.bytes).1 = none) :
    ¬ AnswersAgree newServer text := by
  have scanned := scanRequest_of_none noMethod
  have parsed (requestString : CString)
      (fits : requestString.length ≤ 15) :
      parseRequest (Locals.holding requestString (CString.ofText ""))
          (text.bytes ++ 0 :: zeroBytes) =
        .ok (leftoverRequest text requestString (CString.ofText "")) := by
    apply parseRequest_leftover
    · rw [scanned]
      exact scannedInto_none requestString (Nat.lt_succ_of_le fits)
    · rw [scanned]
      exact scannedInto_none (CString.ofText "") (by decide)
    · exact fits
    · decide
  exact not_answersAgree
    (parsed (CString.ofText "HEAD") (by decide))
    (parsed (CString.ofText "") (by decide)) rfl rfl
    (Or.inl (by decide))

/-- A delete names the key that was left over. -/
theorem not_answersAgree_of_delete
    (scanned : scanRequest text.bytes = (some method, none))
    (methodFits : method.length ≤ 15)
    (isDelete : RequestType.ofString (CString.read method) = .delete) :
    ¬ AnswersAgree newServer text := by
  have noMetas : newCache.metas = [] := createCache_metas _ _ _
  have answered (key : CString) (locals : Locals) :=
    @handleRequest_delete_missing newServer newCache locals
      (text.bytes ++ 0 :: zeroBytes)
      (leftoverRequest text (CString.read method) key) isDelete
      newServer_globalCache (getMeta_of_no_metas noMetas key)
  exact not_answersAgree
    (parseRequest_leftover_key scanned methodFits
      (by decide : (CString.ofText "a").length ≤ 199))
    (parseRequest_leftover_key scanned methodFits
      (by decide : (CString.ofText "b").length ≤ 199))
    (answered _ _) (answered _ _)
    (Or.inr (by
      dsimp only [leftoverRequest]
      decide))

/-- A post of the left-over key may shut the cache down. -/
theorem not_answersAgree_of_post
    (scanned : scanRequest text.bytes = (some method, none))
    (methodFits : method.length ≤ 15)
    (isPost : RequestType.ofString (CString.read method) = .post) :
    ¬ AnswersAgree newServer text := by
  have isShutdown :
      (CString.ofText "shutdown").bytes = ascii "shutdown" := by
    decide
  have notMemsize : (CString.ofText "a").bytes ≠ ascii "memsize" := by
    decide
  have notShutdown : (CString.ofText "a").bytes ≠ ascii "shutdown" := by
    decide
  exact not_answersAgree
    (parseRequest_leftover_key scanned methodFits
      (by decide : (CString.ofText "shutdown").length ≤ 199))
    (parseRequest_leftover_key scanned methodFits
      (by decide : (CString.ofText "a").length ≤ 199))
    (handleRequest_shutdown isPost newServer_globalCache isShutdown)
    (handleRequest_unknown isPost notMemsize notShutdown)
    (Or.inl (by decide))

/-- A get reads the value of the key that was left over. -/
theorem not_answersAgree_of_get
    (scanned : scanRequest text.bytes = (some method, none))
    (methodFits : method.length ≤ 15)
    (isGet : RequestType.ofString (CString.read method) = .get)
    {server : Server}
    {key value : CString}
    (keyFits : key.length ≤ 31)
    (serves : server.Serves key value) :
    ¬ AnswersAgree server text := by
  obtain ⟨after, hit⟩ :=
    @Server.Serves.handleRequest_get server key value serves
      (Locals.holding (CString.ofText "") key)
      (text.bytes ++ 0 :: zeroBytes)
      (leftoverRequest text (CString.read method) key) isGet rfl
  obtain ⟨present, keysFit, -, -⟩ := serves
  have long : 31 < (lettersString 40).length :=
    Nat.lt_of_lt_of_le (by decide) (length_lettersString 40).ge
  exact not_answersAgree
    (parseRequest_leftover_key scanned methodFits
      (keyFits.trans (by decide)))
    (parseRequest_leftover_key scanned methodFits
      (Nat.le_trans (length_lettersString 40).le (by decide)))
    hit
    (handleRequest_get_miss isGet present (keysFit.getMeta_eq_none long))
    (Or.inl (by decide))

/-- A new server stores a put that is small enough, or of 2^32 bytes. -/
theorem exists_put_answered
    {locals : Locals}
    {following : List UInt8}
    {req : Request}
    (parsed :
      parseRequest locals (text.bytes ++ 0 :: following) = .ok req)
    (isPut : req.requestType = .put)
    (admitted : req.key.length ≤ 32)
    (small : req.size ≤ getSlabSize ∨ req.size = 2 ^ 32) :
    ∃ after : Server,
      handleRequest newServer locals (text.bytes ++ 0 :: following) req =
        after.reply locals (ascii "204 No Content") [] := by
  obtain ⟨-, length, -, -, -, -, measured, isSize⟩ :=
    parseRequest_eq_ok_iff.mp parsed
  have terminated := (strlenFrom_sound measured).2.2
  have slabSize : getSlabSize < 2 ^ 26 := by
    decide
  have lastByte :
      (UInt32.ofNat req.size - 1).toNat = length := by
    rw [toNat_ofNat_sub_one]
    omega
  have sizeFits : (UInt32.ofNat req.size).toNat ≤ getSlabSize := by
    rw [UInt32.toNat_ofNat']
    omega
  have limit : newCache.maxmem.toNat = 2 ^ 26 := by
    decide
  have accepted :
      setRefusal newCache req.key
          (fun position =>
            bytesAt (text.bytes ++ 0 :: following)
              (req.value + position))
          (UInt32.ofNat req.size) =
        none := by
    rw [setRefusal, refusalWithin, if_neg (Nat.not_lt_of_le admitted),
      if_neg (Nat.not_lt_of_le sizeFits), if_neg, if_neg]
    · rw [lastByte]
      exact not_not.mpr terminated
    · rw [gt_iff_lt, UInt64.lt_iff_toNat_lt, UInt32.toNat_toUInt64, limit]
      omega
  obtain ⟨next, stored⟩ := exists_set_of_new (by decide) accepted
  exact ⟨_, (handleRequest_put isPut newServer_globalCache stored).trans
    (if_pos rfl)⟩

/-- A put that some key makes acceptable is stored under the key left over. -/
theorem not_answersAgree_of_put
    (scanned : scanRequest text.bytes = (some method, none))
    (methodFits : method.length ≤ 15)
    (isPut : RequestType.ofString (CString.read method) = .put)
    (notOversized : ¬ Oversized text) :
    ¬ AnswersAgree newServer text := by
  unfold Oversized at notOversized
  push Not at notOversized
  obtain ⟨keyLength, admitted, acceptable⟩ := notOversized
  have methodLength : (CString.read method).length = 3 := by
    rw [CString.length, RequestType.bytes_of_put isPut]
    decide
  have parsed :=
    parseRequest_leftover_key scanned methodFits
      (Nat.le_trans (length_lettersString keyLength).le
        (admitted.trans (by decide)))
  have longParsed :=
    parseRequest_leftover_key scanned methodFits
      (Nat.le_trans (length_lettersString 40).le (by decide))
  have isSize :
      (leftoverRequest text (CString.read method)
          (lettersString keyLength)).size =
        text.length - (keyLength + 6) + 1 := by
    change
      text.length -
          ((CString.read method).length +
            (lettersString keyLength).length + 3) + 1 =
        _
    rw [methodLength, length_lettersString]
    omega
  obtain ⟨after, answered⟩ :=
    exists_put_answered parsed isPut
      ((length_lettersString keyLength).le.trans admitted)
      (by rw [isSize]; omega)
  refine not_answersAgree longParsed parsed
    (handleRequest_put_refused isPut ?_) answered (Or.inl (by decide))
  intro cache _
  refine ⟨1, ?_⟩
  rw [setRefusal, refusalWithin, if_pos]
  exact Nat.lt_of_lt_of_le (by decide) (length_lettersString 40).ge

/-- A message whose answer the text does not fix has two of them. -/
theorem exists_not_answersAgree
    (methodFits :
      ∀ {token}, (scanRequest text.bytes).1 = some token →
        token.length ≤ 15)
    (notFixed : ¬ AnswerByText text) :
    ∃ server, server.Reachable ∧ ¬ AnswersAgree server text := by
  have isNew : newServer.Reachable := ⟨_, _, [], .nil⟩
  unfold AnswerByText at notFixed
  split at notFixed
  · exact absurd trivial notFixed
  · rename_i method scanned
    have methodFits : method.length ≤ 15 := methodFits (by rw [scanned])
    split at notFixed
    · exact absurd trivial notFixed
    · exact absurd trivial notFixed
    · rename_i isPut
      exact ⟨newServer, isNew,
        not_answersAgree_of_put scanned methodFits isPut notFixed⟩
    · rename_i isDelete
      exact ⟨newServer, isNew,
        not_answersAgree_of_delete scanned methodFits isDelete⟩
    · rename_i isGet
      obtain ⟨put, after, received, -, -, -, serves⟩ :=
        @exists_put (CString.ofText "a") (CString.ofText "")
          ⟨by decide, by decide, by decide⟩ (by decide) (by decide)
      exact ⟨after, ⟨_, _, [put], .snoc .nil received⟩,
        not_answersAgree_of_get scanned methodFits isGet (by decide)
          serves⟩
    · rename_i isPost
      exact ⟨newServer, isNew,
        not_answersAgree_of_post scanned methodFits isPost⟩
  · rename_i noMethod
    exact ⟨newServer, isNew,
      not_answersAgree_of_no_method (by rw [noMethod])⟩

end Answers

/--
Runs that both come to an answer give the same one, in every reachable state,
exactly if `sscanf` finds a method and a key, or finds the method and the
answer does not depend on a key.
-/
theorem answers_agree_iff
    (text : CString)
    (methodFits :
      ∀ {token}, (scanRequest text.bytes).1 = some token →
        token.length ≤ 15) :
    (∀ server, server.Reachable → AnswersAgree server text) ↔
      AnswerByText text := by
  constructor
  · intro agree
    by_contra notFixed
    obtain ⟨server, isReachable, notSame⟩ :=
      exists_not_answersAgree methodFits notFixed
    exact notSame (agree server isReachable)
  · intro byText server _
    exact answersAgree_of_text byText server

/--
After PUT /a/secret the message GET / is answered with the value of the key
that an earlier request left in memory.
-/
theorem get_of_leftover_key :
    ∃ put server after reply,
      Run Server.Receives newServer [put] server ∧
        put.buf =
          (Form.put (CString.ofText "a")
            (CString.ofText "secret")).message [] ∧
        recv server
            (Locals.holding (CString.ofText "") (CString.ofText "a"))
            ((CString.ofText "GET /").bytes ++ 0 :: zeroBytes) =
          .ok (reply, after) ∧
        reply.body =
          getBody (CString.ofText "a").bytes
            (CString.ofText "secret").bytes ∧
        ¬ MeaningFixed server (CString.ofText "GET /") := by
  have scanned :
      scanRequest (CString.ofText "GET /").bytes =
        (some (ascii "GET"), none) := by
    decide
  obtain ⟨put, server, received, isPut, -, -, serves⟩ :=
    @exists_put (CString.ofText "a") (CString.ofText "secret")
      ⟨by decide, by decide, by decide⟩ (by decide) (by decide)
  have parsed :=
    parseRequest_leftover_key scanned (by decide)
      (by decide : (CString.ofText "a").length ≤ 199)
  obtain ⟨after, answered⟩ :=
    @Server.Serves.handleRequest_get server _ _ serves
      (Locals.holding (CString.ofText "") (CString.ofText "a"))
      ((CString.ofText "GET /").bytes ++ 0 :: zeroBytes)
      (leftoverRequest (CString.ofText "GET /") (CString.read (ascii "GET"))
        (CString.ofText "a"))
      (by decide) rfl
  rw [Server.reply_eq_ok, ← recv_of_parsed parsed] at answered
  refine ⟨put, server, after, _, .snoc .nil received, isPut, answered,
    rfl, ?_⟩
  intro fixed
  exact not_answersAgree_of_get scanned (by decide) (by decide) (by decide)
    serves fixed.answersAgree

end CacheBench
