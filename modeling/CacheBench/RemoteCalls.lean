import CacheBench.ClientRequests
import CacheBench.Lockstep
import CacheBench.RequestScan
import CacheBench.ServerRequests

namespace CacheBench

open Execution

/-!
# Calls over the network

`client.c` and `cache.c` implement the same interface.  A set or a get made
through the client has, once the server has received it, exactly the outcome of
the same call made on the server's cache directly: the server faults where the
call would, and otherwise its cache is the one the call leaves and its reply
says what the call returned.  For a get this takes a NUL in the memory behind the
message.
-/

/-! ## Directly and over the network -/

namespace Event

/-- The first line of the reply to a call. -/
def replyHead : Event → List UInt8
  | .set _ _ _ code =>
      if code = 0 then
        ascii "204 No Content"
      else
        ascii "500 Internal Server Error"
  | .get _ (some _) _ => ascii "200 OK"
  | .get _ none _ => ascii "204 No Content"
  | .delete _ code =>
      if code = 0 then
        ascii "204 No Content"
      else
        ascii "500 Internal Server Error"

/-- The body of the reply to a set or a get; a value ends with its NUL. -/
def replyBody : Event → List UInt8
  | .get key (some value) _ => getBody key.bytes value.dropLast
  | .get _ none _ => notFoundText
  | _ => []

end Event

/-- The server when its cache has performed a call. -/
def Server.afterCall (server : Server) (event : Event) (next : Cache) :
    Server :=
  { server with
    globalCache := some next
    cacheHasBeenSet := server.cacheHasBeenSet || event.stored }

/--
The client sends the message for a call: a set of a string or a get, of a key
that `sscanf` stores whole.
-/
inductive Client.Transmits : Call → List UInt8 → Prop where
  | set
      {key : CString}
      {val : Nat → UInt8}
      {valSize : UInt32}
      {message : List UInt8}
      (scannable : (Form.get key).Scannable)
      (positive : 1 ≤ valSize)
      (isString :
        ∀ position, position + 1 < valSize.toNat → val position ≠ 0)
      (sent : Client.cacheSet key val valSize = .ok message) :
      Transmits (.set key val valSize) message
  | get
      {key : CString}
      {message : List UInt8}
      (scannable : (Form.get key).Scannable)
      (sent : Client.cacheGet key = .ok message) :
      Transmits (.get key) message

section Calls

variable {cache : Cache} {key : CString} {val other : Nat → UInt8}
variable {valSize : UInt32}

/-- Only the bytes of the value are copied. -/
theorem overlay_congr
    {bytes : Nat → UInt8}
    {offset count : Nat}
    (agree : ∀ position < count, val position = other position) :
    Slab.overlay bytes offset count val =
      Slab.overlay bytes offset count other := by
  funext query
  unfold Slab.overlay
  split
  · exact agree _ (by omega)
  · rfl

/-- `cache_set` looks at nothing but the bytes of the value. -/
theorem cacheSet_congr
    (positive : 1 ≤ valSize)
    (agree : ∀ position < valSize.toNat, val position = other position) :
    cacheSet cache key val valSize = cacheSet cache key other valSize := by
  have last : (valSize - 1).toNat < valSize.toNat := by
    have atLeast : 1 ≤ valSize.toNat := UInt32.le_iff_toNat_le.mp positive
    rw [UInt32.toNat_sub_of_le _ _ positive]
    exact Nat.sub_lt atLeast Nat.one_pos
  have copied (man : Manager) (address : Nat) :
      man.memcpy address val valSize.toNat =
        man.memcpy address other valSize.toNat := by
    simp only [Manager.memcpy, Slab.write, overlay_congr agree]
  have refused :
      setRefusal cache key val valSize = setRefusal cache key other valSize := by
    simp only [setRefusal, refusalWithin, agree _ last]
  simp only [cacheSet, refused, storeValue, copied]

/-- What the server finds in the message of a set. -/
theorem Client.cacheSet_message
    {message : List UInt8}
    (positive : 1 ≤ valSize)
    (isString :
      ∀ position, position + 1 < valSize.toNat → val position ≠ 0)
    (sent : Client.cacheSet key val valSize = .ok message)
    (following : List UInt8) :
    ∃ value : CString,
      message ++ following = (Form.put key value).message following ∧
        value.bytes ++ [0] = bytesFrom val 0 valSize.toNat := by
  have isSize : (valSize - 1).toNat + 1 = valSize.toNat := by
    have atLeast : 1 ≤ valSize.toNat := UInt32.le_iff_toNat_le.mp positive
    rw [UInt32.toNat_sub_of_le _ _ positive]
    exact Nat.sub_add_cancel atLeast
  obtain ⟨text, formatted, rest⟩ := bind_eq_ok.mp sent
  obtain ⟨msg, copied, rest⟩ := bind_eq_ok.mp rest
  cases rest
  obtain ⟨rfl, -⟩ := intoBuffer_eq_ok copied
  rw [Client.putText] at formatted
  split at formatted
  · cases formatted
  · rename_i terminated
    cases formatted
    refine ⟨_, cacheSend_put _ _ following, ?_⟩
    rw [← isSize]
    refine read_of_string (not_not.mp terminated) ?_
    intro position inside
    exact isString position (by omega)

end Calls

/-! ## One call -/

section OneCall

variable {server : Server} {cache : Cache} {locals : Locals}
variable {following : List UInt8} {key : CString}

/-- The reply to a call and the server after it. -/
def Answered
    (server : Server)
    (performed : Event × Cache)
    (answer : Reply × Server) : Prop :=
  answer.1.head = performed.1.replyHead ∧
    answer.1.body = performed.1.replyBody ∧
    answer.2 = server.afterCall performed.1 performed.2

/-- The call the server makes is the call the client made. -/
theorem cacheSet_of_request
    {val : Nat → UInt8}
    {valSize : UInt32}
    {value : CString}
    (positive : 1 ≤ valSize)
    (whole : value.bytes ++ [0] = bytesFrom val 0 valSize.toNat)
    {req : Request}
    (isRequest : req = (Form.put key value).request (value.length + 1)) :
    cacheSet cache req.key
        (fun position =>
          bytesAt ((Form.put key value).message following)
            (req.value + position))
        (UInt32.ofNat req.size) =
      cacheSet cache key val valSize := by
  subst isRequest
  have sameLength : value.length + 1 = valSize.toNat := by
    have lengths := congrArg List.length whole
    simpa [CString.length] using lengths
  have sameBytes :=
    (Form.bytesFrom_value (rfl : (Form.put key value).value = _)
      following).trans whole
  rw [sameLength] at sameBytes
  dsimp only [Form.request, Form.key]
  rw [sameLength, UInt32.ofNat_toNat]
  refine cacheSet_congr positive ?_
  intro position inside
  have same :=
    List.map_inj_left.mp sameBytes position (List.mem_range.mpr inside)
  rwa [Nat.zero_add] at same

theorem recv_set_agrees
    (present : server.globalCache = some cache)
    {val : Nat → UInt8}
    {valSize : UInt32}
    {message : List UInt8}
    (scannable : (Form.get key).Scannable)
    (positive : 1 ≤ valSize)
    (isString :
      ∀ position, position + 1 < valSize.toNat → val position ≠ 0)
    (sent : Client.cacheSet key val valSize = .ok message) :
    Agree (Answered server) (cache.perform (.set key val valSize))
      (recv server locals (message ++ following)) := by
  obtain ⟨value, isMessage, whole⟩ :=
    Client.cacheSet_message positive isString sent following
  have scannablePut : (Form.put key value).Scannable :=
    ⟨scannable.nonempty, scannable.noSlash, scannable.keyFits⟩
  rw [isMessage, recv_of_parsed
    (scannablePut.parseRequest_value rfl locals following)]
  generalize isRequest :
    (Form.put key value).request (value.length + 1) = req
  have isPut : req.requestType = .put := by
    rw [← isRequest]
    rfl
  have sameCall :=
    @cacheSet_of_request cache following key _ _ _ positive whole _
      isRequest.symm
  cases returned : cacheSet cache key val valSize with
  | error fault =>
      have failed :
          handleRequest server locals
              ((Form.put key value).message following) req =
            .error fault := by
        simp only [handleRequest, isPut, present, onCache, sameCall,
          returned, bind, Except.bind]
      rw [failed, Cache.perform, returned]
      exact .error fault
  | ok result =>
      obtain ⟨code, next⟩ := result
      rw [handleRequest_put isPut present (sameCall.trans returned),
        Cache.perform, returned]
      by_cases isZero : code = 0
      · rw [if_pos isZero, Server.reply_eq_ok]
        refine .ok ⟨?_, rfl, ?_⟩
        · simp [Event.replyHead, isZero]
        · simp [Server.afterCall, Event.stored, isZero]
      · rw [if_neg isZero, Server.reply_eq_ok]
        refine .ok ⟨?_, rfl, ?_⟩
        · simp [Event.replyHead, isZero]
        · simp [Server.afterCall, Event.stored, isZero]

/-- A get that hits is answered with the bytes before the last one. -/
theorem handleRequest_get_found
    {buf : List UInt8}
    {req : Request}
    {next : Cache}
    (isGet : req.requestType = .get)
    (present : server.globalCache = some cache)
    (isKey : req.key = key)
    {address size : Nat}
    (returned :
      cacheGet cache key =
        .ok ({ address := some address, size := size }, next)) :
    handleRequest server locals buf req =
      Server.reply { server with globalCache := some next } locals
        (ascii "200 OK")
        (getBody key.bytes
          (bytesFrom next.slabManager.byteAt address size).dropLast) := by
  obtain ⟨length, measured, rfl⟩ := strlen_of_cacheGet returned
  have allButLast :
      (bytesFrom next.slabManager.byteAt address (length + 1)).dropLast =
        bytesFrom next.slabManager.byteAt address length := by
    rw [bytesFrom, List.range_succ, List.map_append, List.map_singleton,
      List.dropLast_concat, bytesFrom]
  -- `cache_get` overwrote only the low half of `req->size`.
  have fits :
      (getBody key.bytes
          (bytesFrom next.slabManager.byteAt address length)).length <
        req.size / 2 ^ 32 * 2 ^ 32 + (length + 1) + key.length + 32 := by
    rw [length_getBody, length_bytesFrom, CString.length]
    omega
  simp only [handleRequest, isGet, takeGetRequest, present, onCache, isKey,
    returned, bind, Except.bind, measured, allButLast, fits, ↓reduceIte]

theorem recv_get_agrees
    (present : server.globalCache = some cache)
    {message : List UInt8}
    (scannable : (Form.get key).Scannable)
    (sent : Client.cacheGet key = .ok message)
    (nulFollows : 0 ∈ following) :
    Agree (Answered server) (cache.perform (.get key))
      (recv server locals (message ++ following)) := by
  obtain ⟨msg, copied, rest⟩ := bind_eq_ok.mp sent
  cases rest
  obtain ⟨rfl, -⟩ := intoBuffer_eq_ok copied
  rw [cacheSend_get]
  obtain ⟨req, parsed⟩ :=
    (scannable.parses_iff locals following).mpr (Or.inr nulFollows)
  obtain ⟨length, isGet, isKey, -, -, -⟩ :=
    scannable.parseRequest_eq_ok_iff.mp parsed
  have isGet : req.requestType = .get := isGet
  have isKey : req.key = key := isKey
  rw [recv_of_parsed parsed]
  cases returned : cacheGet cache key with
  | error fault =>
      have failed :
          handleRequest server locals ((Form.get key).message following)
              req =
            .error fault := by
        simp only [handleRequest, isGet, takeGetRequest, present, onCache,
          isKey, returned, bind, Except.bind]
      rw [failed, Cache.perform, returned]
      exact .error fault
  | ok result =>
      -- A miss leaves the table alone; a hit has touched its meta.
      obtain ⟨⟨address, size⟩, next⟩ := result
      cases address with
      | none =>
          have missed :
              handleRequest server locals
                  ((Form.get key).message following) req =
                Server.reply { server with globalCache := some next } locals
                  (ascii "204 No Content") notFoundText := by
            simp only [handleRequest, isGet, takeGetRequest, present,
              onCache, isKey, returned, bind, Except.bind]
          rw [missed, Cache.perform, returned, Server.reply_eq_ok]
          refine .ok ⟨rfl, rfl, ?_⟩
          simp [Server.afterCall, Event.stored]
      | some address =>
          rw [handleRequest_get_found isGet present isKey returned,
            Cache.perform, returned, Server.reply_eq_ok]
          refine .ok ⟨rfl, rfl, ?_⟩
          simp [Server.afterCall, Event.stored]

/-- Received by the server, a call has the outcome it has directly. -/
theorem recv_agrees
    (present : server.globalCache = some cache)
    {call : Call}
    {message : List UInt8}
    (transmits : Client.Transmits call message)
    (nulFollows : ∀ key, call = .get key → 0 ∈ following) :
    Agree (Answered server) (cache.perform call)
      (recv server locals (message ++ following)) := by
  cases transmits with
  | set scannable positive isString sent =>
      exact recv_set_agrees present scannable positive isString sent
  | get scannable sent =>
      exact recv_get_agrees present scannable sent (nulFollows _ rfl)

end OneCall

/-! ## Any number of calls -/

section Sequences

variable {server : Server} {cache : Cache}

/--
A message for a call, as the server gets it.  Behind a GET `parse_request` looks
for a NUL.  Neither program puts one there: that the memory behind the message
has one is assumed here, and without it the server reads past that memory where
the call itself returns (`Form.Scannable.parses_iff`).
-/
def Client.Delivers
    (call : Call)
    (received : Locals × List UInt8) : Prop :=
  ∃ message following,
    Client.Transmits call message ∧
      (∀ key, call = .get key → 0 ∈ following) ∧
      received.2 = message ++ following

/--
Calls made over the network have, in any number and order, exactly the outcome
of the same calls made directly: the server faults where they would, its
replies say what they return, and its cache is the one they leave.
-/
theorem remote_calls_are_direct_calls
    (present : server.globalCache = some cache)
    (running : server.exited = false)
    {calls : List Call}
    {received : List (Locals × List UInt8)}
    (delivered : List.Forall₂ Client.Delivers calls received) :
    Agree
      (fun performed served =>
        served.1.map (fun reply => (reply.head, reply.body)) =
            performed.1.map (fun event => (event.replyHead, event.replyBody)) ∧
          served.2.globalCache = some performed.2 ∧
          served.2.exited = false ∧
          served.2.cacheHasBeenSet =
            (server.cacheHasBeenSet || performed.1.any Event.stored))
      (cache.performAll calls) (sendRecv server received) := by
  induction delivered generalizing server cache with
  | nil =>
      exact .ok ⟨rfl, present, running, (Bool.or_false _).symm⟩
  | @cons call received calls rest delivers delivered
      inductionHypothesis =>
      obtain ⟨locals, buf⟩ := received
      obtain ⟨message, following, transmits, nulFollows, rfl⟩ := delivers
      rw [sendRecv, running, if_neg Bool.false_ne_true, Cache.performAll]
      refine (recv_agrees present transmits nulFollows).bind ?_
      rintro ⟨event, next⟩ ⟨reply, after⟩ - ⟨head, body, rfl⟩
      have later :=
        @inductionHypothesis (server.afterCall event next) next rfl running
      refine later.bind ?_
      rintro ⟨events, final⟩ ⟨replies, last⟩ - ⟨views, left, goesOn, flag⟩
      refine .ok ⟨?_, left, goesOn, ?_⟩
      · rw [List.map_cons, List.map_cons, head, body, views]
      · rw [flag, List.any_cons, ← Bool.or_assoc]
        rfl

end Sequences

/-- A put and a get of what was put. -/
theorem remote_calls_are_direct_calls_put_get :
    ∃ received : List (Locals × List UInt8),
      List.Forall₂ Client.Delivers
          [.set (CString.ofText "k") (bytesAt (ascii "v")) 2,
            .get (CString.ofText "k")]
          received ∧
        Agree
          (fun performed served =>
            served.1.map (fun reply => (reply.head, reply.body)) =
                performed.1.map
                  (fun event => (event.replyHead, event.replyBody)) ∧
              served.2.globalCache = some performed.2 ∧
              served.2.exited = false ∧
              served.2.cacheHasBeenSet =
                (newServer.cacheHasBeenSet ||
                  performed.1.any Event.stored))
          (newCache.performAll
            [.set (CString.ofText "k") (bytesAt (ascii "v")) 2,
              .get (CString.ofText "k")])
          (sendRecv newServer received) := by
  have scannable : (Form.get (CString.ofText "k")).Scannable :=
    ⟨by decide, by decide, by decide⟩
  obtain ⟨put, putSent, -⟩ :=
    exists_of_returnsSuch (by
      decide +kernel :
      returnsSuch
        (Client.cacheSet (CString.ofText "k") (bytesAt (ascii "v")) 2)
        (fun _ => true) = true)
  obtain ⟨get, getSent, -⟩ :=
    exists_of_returnsSuch (by
      decide +kernel :
      returnsSuch (Client.cacheGet (CString.ofText "k"))
        (fun _ => true) = true)
  have isString :
      ∀ position, position + 1 < (2 : UInt32).toNat →
        bytesAt (ascii "v") position ≠ 0 := by
    intro position inside
    have isFirst : position = 0 := Nat.lt_one_iff.mp
      (Nat.lt_of_succ_lt_succ inside)
    subst isFirst
    decide
  have delivered :
      List.Forall₂ Client.Delivers
        [.set (CString.ofText "k") (bytesAt (ascii "v")) 2,
          .get (CString.ofText "k")]
        [(zeroLocals, put ++ []), (zeroLocals, get ++ [0])] := by
    refine .cons ⟨put, [], ?_, ?_, rfl⟩ (.cons ⟨get, [0], ?_, ?_, rfl⟩ .nil)
    · exact .set scannable (by decide) isString putSent
    · intro key isGet
      cases isGet
    · exact .get scannable getSent
    · intro key _
      exact List.mem_singleton_self 0
  exact ⟨_, delivered,
    remote_calls_are_direct_calls newServer_globalCache rfl delivered⟩

end CacheBench
