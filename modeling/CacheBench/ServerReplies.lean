import CacheBench.Server
import CacheBench.SlabAllocator

namespace CacheBench

open Execution

/-!
# What the server sends

`cache_reply` formats its text in an array that is always large enough and
sends the whole array.  This module says which bytes are sent, and that a
request uses the stack of `cache_reply` for nothing else.
-/

/-- `%lu` of a 64-bit number takes at most 20 digits. -/
theorem length_decimal_le (number : UInt64) :
    (decimal number.toNat).length ≤ 20 := by
  rw [decimal, List.length_map,
    Nat.length_toDigits_le_iff (by decide) (by decide)]
  exact Nat.lt_trans number.toNat_lt (by decide)

/-- The fixed parts of a reply take 88 bytes. -/
theorem length_replyText (head body : List UInt8) (used : UInt64) :
    (replyText head body used).length =
      head.length + body.length + (decimal used.toNat).length + 88 := by
  have first : (ascii "HTTP/1.1 ").length = 9 := by
    decide
  have lineEnd : (ascii "\r\n").length = 2 := by
    decide
  have contentType :
      (ascii "Content-Type: application/json\r\n").length = 32 := by
    decide
  have date : (ascii "Date: Date goes here\r\n").length = 22 := by
    decide
  have spaceUsed : (ascii "cache-space-used: ").length = 18 := by
    decide
  have last : (ascii "\n").length = 1 := by
    decide
  simp only [replyText, List.length_append, first, lineEnd, contentType,
    date, spaceUsed, last]
  omega

/-- The fixed parts of the body of a get take 28 bytes. -/
theorem length_getBody (key value : List UInt8) :
    (getBody key value).length = key.length + value.length + 28 := by
  have leading : (ascii "\x7b \"key\" : \"").length = 11 := by
    decide
  have middle : (ascii "\", \"value\" : \"").length = 14 := by
    decide
  have last : (ascii "\" \x7d").length = 3 := by
    decide
  simp only [getBody, List.length_append, leading, middle, last]
  omega

/-- The array `cache_reply` sends, on a stack that held `msg`. -/
def sentBytes
    (msg : Nat → UInt8)
    (cache : Option Cache)
    (head body : List UInt8) :
    List UInt8 :=
  bytesFrom
    (fun position =>
      (replyText head body (spaceUsed cache) ++ [0])[position]?.getD
        (msg position))
    0 (head.length + body.length + 256)

@[simp] theorem length_sentBytes
    (msg : Nat → UInt8)
    (cache : Option Cache)
    (head body : List UInt8) :
    (sentBytes msg cache head body).length =
      head.length + body.length + 256 :=
  length_bytesFrom _ _ _

/-- `cache_reply` never overruns its array. -/
theorem cacheReply_eq
    (locals : Locals)
    (cache : Option Cache)
    (head body : List UInt8) :
    cacheReply locals cache head body =
      .ok
        { head := head
          body := body
          sent := sentBytes locals.msg cache head body } := by
  have digits := length_decimal_le (spaceUsed cache)
  have fits :
      (replyText head body (spaceUsed cache) ++ [0]).length ≤
        head.length + body.length + 256 := by
    rw [List.length_append, length_replyText, List.length_singleton]
    omega
  rw [cacheReply, replyWith, if_pos fits]
  rfl

/-- The last byte of the array is never written. -/
theorem sentBytes_ne
    {first second : Nat → UInt8}
    (cache : Option Cache)
    (head body : List UInt8)
    (different : ∀ position, first position ≠ second position) :
    sentBytes first cache head body ≠ sentBytes second cache head body := by
  intro same
  have digits := length_decimal_le (spaceUsed cache)
  have unwritten :
      (replyText head body (spaceUsed cache) ++ [0]).length ≤
        head.length + body.length + 255 := by
    rw [List.length_append, length_replyText, List.length_singleton]
    omega
  have lastByte (msg : Nat → UInt8) :
      (sentBytes msg cache head body)[head.length + body.length + 255]? =
        some (msg (head.length + body.length + 255)) := by
    rw [sentBytes, bytesFrom, List.getElem?_map,
      List.getElem?_range (by omega), Option.map_some, Nat.zero_add,
      List.getElem?_eq_none unwritten, Option.getD_none]
  have sameByte := lastByte first
  rw [same, lastByte second, Option.some.injEq] at sameByte
  exact different _ sameByte.symm

namespace Server

/-- A reply is sent and leaves the server as it is. -/
theorem reply_eq_ok
    (server : Server)
    (locals : Locals)
    (head body : List UInt8) :
    server.reply locals head body =
      .ok
        ({ head := head
           body := body
           sent := sentBytes locals.msg server.globalCache head body },
          server) := by
  rw [Server.reply, cacheReply_eq]
  rfl

end Server

/-- The head and the body of a reply are those it was called with. -/
theorem Server.reply_eq
    {server after : Server}
    {reply : Reply}
    {locals : Locals}
    {head body : List UInt8}
    (replied : server.reply locals head body = .ok (reply, after)) :
    reply.head = head ∧ reply.body = body ∧ after = server := by
  rw [Server.reply_eq_ok, Except.ok.injEq, Prod.mk.injEq] at replied
  obtain ⟨rfl, rfl⟩ := replied
  exact ⟨rfl, rfl, rfl⟩

/-- The two ways a call of a cache function goes. -/
theorem onCache_cases
    {α : Type}
    {cache : Option Cache}
    {null result : α}
    {call : Cache → Outcome (α × Cache)}
    {next : Option Cache}
    (called : onCache cache null call = .ok (result, next)) :
    (cache = none ∧ result = null ∧ next = none) ∨
      ∃ old new,
        cache = some old ∧ call old = .ok (result, new) ∧
          next = some new := by
  cases cache with
  | none =>
      cases called
      exact Or.inl ⟨rfl, rfl, rfl⟩
  | some old =>
      obtain ⟨⟨value, new⟩, returned, rest⟩ := bind_eq_ok.mp called
      cases rest
      exact Or.inr ⟨old, new, rfl, returned, rfl⟩

/-- The same answer, sent from a stack that held `msg`. -/
def resend
    (msg : Nat → UInt8)
    (answer : Reply × Server) :
    Reply × Server :=
  ({ answer.1 with
      sent := sentBytes msg answer.2.globalCache answer.1.head
        answer.1.body },
    answer.2)

section Stack

variable (server : Server) (locals other : Locals) (buf : List UInt8)
variable (req : Request)

theorem Server.reply_resend (head body : List UInt8) :
    server.reply other head body =
      (server.reply locals head body).map (resend other.msg) := by
  rw [Server.reply_eq_ok, Server.reply_eq_ok]
  rfl

/-- Getting a value uses the stack for the reply only. -/
theorem takeGetRequest_resend :
    takeGetRequest server other req =
      (takeGetRequest server locals req).map (resend other.msg) := by
  unfold takeGetRequest
  cases onCache server.globalCache { address := none, size := 0 }
      fun cache => cacheGet cache req.key with
  | error fault =>
      rfl
  | ok called =>
      obtain ⟨⟨address, size⟩, cache⟩ := called
      simp only [bind, Except.bind]
      cases address with
      | none =>
          exact Server.reply_resend _ locals other _ _
      | some address =>
          cases cache with
          | none =>
              exact Server.reply_resend _ locals other _ _
          | some cache =>
              dsimp only
              cases cache.slabManager.strlen address with
              | error fault =>
                  rfl
              | ok length =>
                  dsimp only
                  split
                  · exact Server.reply_resend _ locals other _ _
                  · rfl

/-- A POST request uses the stack for the reply only. -/
theorem handlePost_resend :
    handlePost server other buf req =
      (handlePost server locals buf req).map (resend other.msg) := by
  rw [handlePost_eq, handlePost_eq]
  split
  · split
    · exact Server.reply_resend _ locals other _ _
    · exact Server.reply_resend _ locals other _ _
  · split
    · split
      · exact Server.reply_resend _ locals other _ _
      · rw [Server.reply_eq_ok, Server.reply_eq_ok]
        rfl
    · exact Server.reply_resend _ locals other _ _

/-- Handling a request uses the stack for the reply only. -/
theorem handleRequest_resend :
    handleRequest server other buf req =
      (handleRequest server locals buf req).map (resend other.msg) := by
  unfold handleRequest
  split
  · exact handlePost_resend server locals other buf req
  · cases onCache server.globalCache 255
        fun cache => cacheDelete cache req.key with
    | error fault =>
        rfl
    | ok called =>
        simp only [bind, Except.bind]
        split
        · exact Server.reply_resend _ locals other _ _
        · split
          · exact Server.reply_resend _ locals other _ _
          · rfl
  · exact takeGetRequest_resend server locals other req
  · cases onCache server.globalCache 5 fun cache =>
        cacheSet cache req.key
          (fun position => bytesAt buf (req.value + position))
          (UInt32.ofNat req.size) with
    | error fault =>
        rfl
    | ok called =>
        simp only [bind, Except.bind]
        split
        · exact Server.reply_resend _ locals other _ _
        · exact Server.reply_resend _ locals other _ _
  · exact Server.reply_resend _ locals other _ _
  · exact Server.reply_resend _ locals other _ _

/--
With the same request object, what the stack held is only seen in the bytes that
are sent.
-/
theorem recv_resend
    (sameRequest : parseRequest other buf = parseRequest locals buf) :
    recv server other buf =
      (recv server locals buf).map (resend other.msg) := by
  unfold recv
  rw [sameRequest]
  cases parseRequest locals buf with
  | error fault =>
      rfl
  | ok req =>
      exact handleRequest_resend server locals other buf req

end Stack

/-! ## Two runs -/

/-- All of a delivery but the answer and what the stack of the reply held. -/
def Delivery.request (delivery : Delivery) :
    Vector UInt8 16 × Vector UInt8 200 × List UInt8 :=
  (delivery.locals.requestString, delivery.locals.key, delivery.buf)

/-- An answer is sent as its text in an array of the stack. -/
theorem Server.Receives.isSent
    {server after : Server}
    {delivery : Delivery}
    (received : server.Receives delivery after) :
    delivery.reply.sent =
      sentBytes delivery.locals.msg after.globalCache
        delivery.reply.head delivery.reply.body := by
  have again :=
    recv_resend server delivery.locals delivery.locals delivery.buf rfl
  rw [received.2, Except.map, Except.ok.injEq, Prod.mk.injEq] at again
  exact congrArg Reply.sent again.1

/-- Every answer could have been sent as other bytes. -/
theorem Server.Receives.exists_other
    {server after : Server}
    {delivery : Delivery}
    (received : server.Receives delivery after) :
    ∃ other : Delivery,
      server.Receives other after ∧
        other.request = delivery.request ∧
        other.reply.sent ≠ delivery.reply.sent := by
  have again :=
    recv_resend server delivery.locals
      { delivery.locals with
        msg := fun position => delivery.locals.msg position + 1 }
      delivery.buf rfl
  rw [received.2] at again
  refine ⟨{
      locals :=
        { delivery.locals with
          msg := fun position => delivery.locals.msg position + 1 }
      buf := delivery.buf
      reply := _ }, ⟨received.1, again⟩, rfl, ?_⟩
  rw [received.isSent]
  change
    sentBytes (fun position => delivery.locals.msg position + 1) _ _ _ ≠ _
  refine sentBytes_ne after.globalCache delivery.reply.head
    delivery.reply.body fun position same => ?_
  have asNat := congrArg UInt8.toNat same
  rw [UInt8.toNat_add] at asNat
  have bounded := (delivery.locals.msg position).toNat_lt
  change ((delivery.locals.msg position).toNat + 1) % 256 = _ at asNat
  omega

/--
Two runs on the same messages send the same bytes, whatever the stack of
`cache_reply` held, exactly if there are no messages.
-/
theorem replies_same_iff_no_request
    {blocks : Nat → Nat → Slab}
    {maxmem : UInt64}
    {history : List Delivery}
    {server : Server}
    (run :
      Run Server.Receives (Server.start blocks maxmem) history server) :
    (∀ other final,
      Run Server.Receives (Server.start blocks maxmem) other final →
      other.map Delivery.request = history.map Delivery.request →
        other.map (fun delivery => delivery.reply.sent) =
          history.map (fun delivery => delivery.reply.sent)) ↔
      history = [] := by
  constructor
  · intro same
    cases run with
    | nil =>
        rfl
    | snoc earlier last =>
        obtain ⟨other, received, sameRequest, differs⟩ :=
          last.exists_other
        have sent :=
          same _ _ (.snoc earlier received) (by simp [sameRequest])
        simp only [List.map_append, List.map_cons, List.map_nil,
          List.append_cancel_left_eq, List.cons.injEq, and_true] at sent
        exact absurd sent differs
  · rintro rfl other final _ sameRequests
    rw [List.map_nil, List.map_eq_nil_iff] at sameRequests
    rw [sameRequests]

/-- The answer to HEAD /k is sent from a stack that held `byte` all over. -/
private def headDelivery (byte : UInt8) : Delivery where
  locals :=
    { zeroLocals with msg := fun _ => byte }
  buf := (Form.head (CString.ofText "k")).message [0]
  reply :=
    { head := ascii "200 OK"
      body := []
      sent :=
        sentBytes (fun _ => byte)
          (Server.start (fun _ => zeroBlocks) 0).globalCache
          (ascii "200 OK") [] }

private theorem headDelivery_received (byte : UInt8) :
    (Server.start (fun _ => zeroBlocks) 0).Receives (headDelivery byte)
      (Server.start (fun _ => zeroBlocks) 0) := by
  have scannable : (Form.head (CString.ofText "k")).Scannable :=
    ⟨by decide, by decide, by decide⟩
  exact ⟨rfl, bind_eq_ok.mpr ⟨_, scannable.parseRequest_noValue rfl _ [],
    Server.reply_eq_ok _ _ _ _⟩⟩

/-- Two runs that answer HEAD /k send the bytes their stacks held. -/
theorem head_reply_from_stack :
    ∃ first second,
      Run Server.Receives (Server.start (fun _ => zeroBlocks) 0) [first]
          (Server.start (fun _ => zeroBlocks) 0) ∧
        Run Server.Receives (Server.start (fun _ => zeroBlocks) 0) [second]
          (Server.start (fun _ => zeroBlocks) 0) ∧
        [first].map Delivery.request = [second].map Delivery.request ∧
        first.reply.sent ≠ second.reply.sent :=
  ⟨headDelivery 0, headDelivery 1,
    .snoc .nil (headDelivery_received 0),
    .snoc .nil (headDelivery_received 1), rfl,
    @sentBytes_ne (fun _ => 0) (fun _ => 1) _ _ _ fun _ => by decide⟩

/-- After that request other runs on the same messages send other bytes. -/
theorem replies_same_iff_no_request_of_head :
    ¬ ∀ other final,
      Run Server.Receives (Server.start (fun _ => zeroBlocks) 0) other
          final →
      other.map Delivery.request =
          [headDelivery 0].map Delivery.request →
        other.map (fun delivery => delivery.reply.sent) =
          [headDelivery 0].map (fun delivery => delivery.reply.sent) :=
  fun same =>
    absurd
      ((replies_same_iff_no_request
        (.snoc .nil (headDelivery_received 0))).mp same)
      (by simp)

end CacheBench
