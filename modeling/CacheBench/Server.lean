import CacheBench.CacheRun
import CacheBench.RequestParser

namespace CacheBench

open Execution

/-!
# The server of `server.c`

The server keeps one cache, which is NULL after a shutdown, and answers one
message at a time.  Caches are created one after the other; `blocks` answers
the calls of `malloc` for the slabs of each of them.
-/

/-- The global variables, with what `malloc` will return. -/
structure Server where
  globalCache : Option Cache
  cacheHasBeenSet : Bool
  exited : Bool
  created : Nat
  blocks : Nat → Nat → Slab

/-- What `cache_reply` was called with, and the bytes it sends. -/
structure Reply where
  head : List UInt8
  body : List UInt8
  sent : List UInt8

/-- `cache_space_used` of a pointer that may be NULL. -/
def spaceUsed : Option Cache → UInt64
  | none => 0
  | some cache => cacheSpaceUsed cache

/-- `%lu`. -/
def decimal (number : Nat) : List UInt8 :=
  (Nat.toDigits 10 number).map fun digit => UInt8.ofNat digit.toNat

/-- The text `cache_reply` formats. -/
def replyText (head body : List UInt8) (used : UInt64) : List UInt8 :=
  ascii "HTTP/1.1 " ++ head ++ ascii "\r\n" ++
    ascii "Content-Type: application/json\r\n" ++
    ascii "Date: Date goes here\r\n" ++
    ascii "cache-space-used: " ++ decimal used.toNat ++ ascii "\r\n" ++
    ascii "\r\n" ++
    body ++ ascii "\n"

/--
The message `cache_reply` sends for the number of bytes used.  The whole array
is sent, and behind the text it holds what was on the stack.
-/
def replyWith
    (locals : Locals)
    (used : UInt64)
    (head body : List UInt8) :
    Outcome Reply :=
  let msgLen := head.length + body.length + 256
  let msg := replyText head body used ++ [0]
  if msg.length ≤ msgLen then
    .ok
      { head := head
        body := body
        sent :=
          bytesFrom
            (fun position => msg[position]?.getD (locals.msg position)) 0
            msgLen }
  else
    .error .outOfBounds

/-- Send a message back to the client. -/
def cacheReply
    (locals : Locals)
    (cache : Option Cache)
    (head body : List UInt8) :
    Outcome Reply :=
  replyWith locals (spaceUsed cache) head body

/-- Call a cache function that returns `null` for a NULL cache. -/
def onCache
    {α : Type}
    (cache : Option Cache)
    (null : α)
    (call : Cache → Outcome (α × Cache)) :
    Outcome (α × Option Cache) :=
  match cache with
  | none =>
      .ok (null, none)
  | some cache => do
      let (result, cache) ← call cache
      .ok (result, some cache)

/-- The code `destroy_cache` returns. -/
def destroyCache : Option Cache → UInt8
  | none => 255
  | some _ => 0

/-- An `int` where a `uint64_t` is expected. -/
def intToUInt64 (number : Int) : UInt64 :=
  UInt64.ofNat (number % 2 ^ 64).toNat

namespace Server

/-- Reply and go on with the given state. -/
def reply
    (server : Server)
    (locals : Locals)
    (head body : List UInt8) :
    Outcome (Reply × Server) := do
  let reply ← cacheReply locals server.globalCache head body
  .ok (reply, server)

/-- `global_cache = create_cache(maxmem, NULL)`. -/
def createGlobal (server : Server) (maxmem : UInt64) : Server :=
  { server with
    globalCache :=
      some (createCache (server.blocks server.created) maxmem none)
    created := server.created + 1 }

/-- The state in which `main` starts to receive; 0 stands for the default. -/
def start (blocks : Nat → Nat → Slab) (maxmem : UInt64) : Server :=
  createGlobal
    { globalCache := none
      cacheHasBeenSet := false
      exited := false
      created := 0
      blocks := blocks }
    (if maxmem = 0 then UInt64.ofNat (2 ^ 26) else maxmem)

end Server

/-- The body of the answer to a get that hits. -/
def getBody (key value : List UInt8) : List UInt8 :=
  ascii "\x7b \"key\" : \"" ++ key ++ ascii "\", \"value\" : \"" ++ value ++
    ascii "\" \x7d"

/-- The body of the answer to a get that misses. -/
def notFoundText : List UInt8 :=
  ascii "Value not found in cache."

/-- The text of `err` in the branch of `handle_request` for deletes. -/
def deleteError (key : CString) : List UInt8 :=
  ascii "Delete of key " ++ key.bytes ++ ascii " failed for some reason.\n"

theorem length_deleteError (key : CString) :
    (deleteError key).length = key.length + 39 := by
  have leading : (ascii "Delete of key ").length = 14 := by
    decide
  have trailing : (ascii " failed for some reason.\n").length = 25 := by
    decide
  rw [deleteError, List.length_append, List.length_append, leading, trailing,
    CString.length]
  omega

/--
Send the key and its value, or an error.  `cache_get` stores the size in the
low half of `req->size`.
-/
def takeGetRequest
    (server : Server)
    (locals : Locals)
    (req : Request) :
    Outcome (Reply × Server) := do
  let (found, cache) ←
    onCache server.globalCache { address := none, size := 0 }
      fun cache => cacheGet cache req.key
  let server := { server with globalCache := cache }
  match found.address, cache with
  | some address, some cache => do
      let length ← cache.slabManager.strlen address
      let value := bytesFrom cache.slabManager.byteAt address length
      let size := req.size / 2 ^ 32 * 2 ^ 32 + found.size
      let msg := getBody req.key.bytes value
      if msg.length < size + req.key.length + 32 then
        server.reply locals (ascii "200 OK") msg
      else
        .error .outOfBounds
  | _, _ =>
      server.reply locals (ascii "204 No Content") notFoundText

/-- What a POST comes to. -/
inductive Post where
  | refused
  | create (maxmem : UInt64)
  | shutdown
  | unknown

/-- The comparisons of a POST. -/
def postOf
    (cacheHasBeenSet : Bool)
    (buf : List UInt8)
    (req : Request) :
    Post :=
  if req.key.bytes = ascii "memsize" then
    if cacheHasBeenSet then
      .refused
    else
      .create (intToUInt64 (atoi (CString.read (buf.drop req.value)).bytes))
  else if req.key.bytes = ascii "shutdown" then
    .shutdown
  else
    .unknown

/-- The text for a cache that is not created. -/
def notCreatedText : List UInt8 :=
  ascii "Cache was not created because \"cache_has_been_set\" was true. Make sure you've destroyed all previous caches\n"

/-- The text for a shutdown without a cache. -/
def notDestroyedText : List UInt8 :=
  ascii "Shutdown failed; cache was not destroyed. Aborting server.\n"

/-- The text for any other POST. -/
def postUsage : List UInt8 :=
  ascii "Usage: POST /shutdown || POST /memsize/value\n"

/-- `POST /memsize/value` and `POST /shutdown`. -/
def handlePost
    (server : Server)
    (locals : Locals)
    (buf : List UInt8)
    (req : Request) :
    Outcome (Reply × Server) :=
  match postOf server.cacheHasBeenSet buf req with
  | .refused =>
      server.reply locals (ascii "500 Internal Server Error") notCreatedText
  | .create maxmem =>
      (server.createGlobal maxmem).reply locals (ascii "201 Created") []
  | .shutdown => do
      let failure := destroyCache server.globalCache
      let server :=
        { server with globalCache := none, cacheHasBeenSet := false }
      if failure = 0 then
        server.reply locals (ascii "204 No Content") []
      else do
        let (reply, server) ←
          server.reply locals (ascii "500 Internal Server Error")
            notDestroyedText
        .ok (reply, { server with exited := true })
  | .unknown =>
      server.reply locals (ascii "400 Bad Request") postUsage

/-- The cases of a POST as nested conditions. -/
theorem handlePost_eq
    (server : Server)
    (locals : Locals)
    (buf : List UInt8)
    (req : Request) :
    handlePost server locals buf req =
      if req.key.bytes = ascii "memsize" then
        if server.cacheHasBeenSet then
          server.reply locals (ascii "500 Internal Server Error")
            notCreatedText
        else
          (server.createGlobal
            (intToUInt64
              (atoi (CString.read (buf.drop req.value)).bytes))).reply
            locals (ascii "201 Created") []
      else if req.key.bytes = ascii "shutdown" then
        if destroyCache server.globalCache = 0 then
          Server.reply
            { server with globalCache := none, cacheHasBeenSet := false }
            locals (ascii "204 No Content") []
        else
          Server.reply
              { server with globalCache := none, cacheHasBeenSet := false }
              locals (ascii "500 Internal Server Error") notDestroyedText >>=
            fun replied =>
              .ok (replied.1, { replied.2 with exited := true })
      else
        server.reply locals (ascii "400 Bad Request") postUsage := by
  unfold handlePost postOf
  by_cases memsize : req.key.bytes = ascii "memsize"
  · rw [if_pos memsize, if_pos memsize]
    by_cases isSet : server.cacheHasBeenSet
    · rw [if_pos isSet, if_pos isSet]
    · rw [if_neg isSet, if_neg isSet]
  · rw [if_neg memsize, if_neg memsize]
    by_cases shutdown : req.key.bytes = ascii "shutdown"
    · rw [if_pos shutdown, if_pos shutdown]
    · rw [if_neg shutdown, if_neg shutdown]

/-- Call the relevant cache operation and respond to the client. -/
def handleRequest
    (server : Server)
    (locals : Locals)
    (buf : List UInt8)
    (req : Request) :
    Outcome (Reply × Server) :=
  match req.requestType with
  | .post =>
      handlePost server locals buf req
  | .delete => do
      let (failure, cache) ←
        onCache server.globalCache 255
          fun cache => cacheDelete cache req.key
      let server := { server with globalCache := cache }
      if failure = 0 then
        server.reply locals (ascii "204 No Content") []
      else
        let err := deleteError req.key
        if err.length < req.key.length + 64 then
          server.reply locals (ascii "500 Internal Server Error") err
        else
          .error .outOfBounds
  | .get =>
      takeGetRequest server locals req
  | .put => do
      let (failure, cache) ←
        onCache server.globalCache 5 fun cache =>
          cacheSet cache req.key
            (fun position => bytesAt buf (req.value + position))
            (UInt32.ofNat req.size)
      let server := { server with globalCache := cache }
      if failure = 0 then
        let server := { server with cacheHasBeenSet := true }
        server.reply locals (ascii "204 No Content") []
      else
        server.reply locals (ascii "500 Internal Server Error") []
  | .head =>
      server.reply locals (ascii "200 OK") []
  | .bad =>
      server.reply locals (ascii "400 Bad Request") []

/-- Receive a message, parse it and handle it. -/
def recv (server : Server) (locals : Locals) (buf : List UInt8) :
    Outcome (Reply × Server) := do
  let req ← parseRequest locals buf
  handleRequest server locals buf req

/--
The loop of `send_recv` on the messages that come, each with what the local
variables held.  A server that called `exit` receives nothing.
-/
def sendRecv (server : Server) :
    List (Locals × List UInt8) → Outcome (List Reply × Server)
  | [] =>
      .ok ([], server)
  | (locals, buf) :: rest =>
      if server.exited then
        .ok ([], server)
      else do
        let (reply, server) ← recv server locals buf
        let (replies, server) ← sendRecv server rest
        .ok (reply :: replies, server)

/-- A message that was parsed is handled. -/
theorem recv_of_parsed
    {locals : Locals}
    {buf : List UInt8}
    {req : Request}
    (parsed : parseRequest locals buf = .ok req)
    (server : Server) :
    recv server locals buf = handleRequest server locals buf req := by
  rw [recv, parsed]
  rfl

/-- Any message, what the local variables held, and the answer to it. -/
structure Delivery where
  locals : Locals
  buf : List UInt8
  reply : Reply

/-- The server receives a message and answers it. -/
def Server.Receives
    (server : Server)
    (delivery : Delivery)
    (after : Server) : Prop :=
  server.exited = false ∧
    recv server delivery.locals delivery.buf = .ok (delivery.reply, after)

/-- The loop is a run over the messages that were answered. -/
theorem run_of_sendRecv
    {server final : Server}
    {messages : List (Locals × List UInt8)}
    {replies : List Reply}
    (returned : sendRecv server messages = .ok (replies, final)) :
    ∃ history : List Delivery,
      Run Server.Receives server history final ∧
        history.map Delivery.reply = replies ∧
        history.map (fun delivery => (delivery.locals, delivery.buf)) =
          messages.take replies.length := by
  induction messages generalizing server replies with
  | nil =>
      cases returned
      exact ⟨[], .nil, rfl, rfl⟩
  | cons message rest inductionHypothesis =>
      obtain ⟨locals, buf⟩ := message
      rw [sendRecv] at returned
      split at returned
      · cases returned
        exact ⟨[], .nil, rfl, rfl⟩
      · rename_i running
        obtain ⟨⟨reply, next⟩, received, returned⟩ := bind_eq_ok.mp returned
        obtain ⟨⟨others, last⟩, later, returned⟩ := bind_eq_ok.mp returned
        cases returned
        obtain ⟨history, run, isReplies, isMessages⟩ :=
          inductionHypothesis later
        have first : server.Receives ⟨locals, buf, reply⟩ next :=
          ⟨by simpa using running, received⟩
        exact ⟨[⟨locals, buf, reply⟩] ++ history,
          (Run.snoc .nil first).append run, by simp [isReplies],
          by simp [isMessages]⟩

/-- A documented request and the answer to it. -/
structure Exchange where
  form : Form
  reply : Reply

namespace Server

/--
The server answers a request; the local variables and the memory behind the
message may hold anything.
-/
def Step (server : Server) (exchange : Exchange) (after : Server) : Prop :=
  server.exited = false ∧
    ∃ locals following,
      recv server locals (exchange.form.message following) =
        .ok (exchange.reply, after)

/-- The value of every key. -/
def contents (server : Server) (key : CString) : Option (List UInt8) :=
  server.globalCache.bind fun cache => cache.contents key

end Server

end CacheBench
