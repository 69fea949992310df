import CacheBench.CacheSetLimits
import CacheBench.ServerRun

namespace CacheBench

open Execution

/-!
# Requests and their answers

What `handle_request` answers to a request of each type, and what a new server
does with a first put and a get of the same key.  The reply to a get is longer
than the message of the put that stored the value, so that a value which the
server could receive may be too long to be sent back.
-/

section Requests

variable {server : Server} {cache next : Cache} {locals : Locals}
variable {buf : List UInt8} {req : Request}

/-- Setting the cache to what it is changes nothing. -/
theorem with_globalCache
    {found : Option Cache}
    (present : server.globalCache = found) :
    { server with globalCache := found } = server := by
  rw [← present]

/-- A put that returns from the cache is answered by its code. -/
theorem handleRequest_put
    (isPut : req.requestType = .put)
    (present : server.globalCache = some cache)
    {code : UInt8}
    (returned :
      cacheSet cache req.key
          (fun position => bytesAt buf (req.value + position))
          (UInt32.ofNat req.size) =
        .ok (code, next)) :
    handleRequest server locals buf req =
      if code = 0 then
        Server.reply
          { server with
            globalCache := some next
            cacheHasBeenSet := true }
          locals (ascii "204 No Content") []
      else
        Server.reply { server with globalCache := some next } locals
          (ascii "500 Internal Server Error") [] := by
  simp only [handleRequest, isPut, present, onCache, returned, bind,
    Except.bind]

/-- A put that is refused, or made without a cache, changes nothing. -/
theorem handleRequest_put_refused
    (isPut : req.requestType = .put)
    (refused :
      ∀ cache, server.globalCache = some cache →
        ∃ code,
          setRefusal cache req.key
              (fun position => bytesAt buf (req.value + position))
              (UInt32.ofNat req.size) =
            some code) :
    handleRequest server locals buf req =
      server.reply locals (ascii "500 Internal Server Error") [] := by
  cases present : server.globalCache with
  | none =>
      simp only [handleRequest, isPut, present, onCache, bind, Except.bind,
        with_globalCache present]
      rfl
  | some cache =>
      obtain ⟨code, refusal⟩ := refused cache present
      have returned :
          cacheSet cache req.key
              (fun position => bytesAt buf (req.value + position))
              (UInt32.ofNat req.size) =
            .ok (code, cache) := by
        rw [cacheSet, refusal]
      rw [handleRequest_put isPut present returned,
        if_neg (setRefusal_code refusal).1, with_globalCache present]

/-- A get that hits is answered with the key and its value. -/
theorem handleRequest_get_hit
    (isGet : req.requestType = .get)
    (present : server.globalCache = some cache)
    {address size : Nat}
    (returned :
      cacheGet cache req.key =
        .ok ({ address := some address, size := size }, next))
    {string : CString}
    (isString :
      bytesFrom next.slabManager.byteAt address size =
        string.bytes ++ [0]) :
    handleRequest server locals buf req =
      Server.reply { server with globalCache := some next } locals
        (ascii "200 OK") (getBody req.key.bytes string.bytes) := by
  obtain ⟨length, measured, isSize⟩ := strlen_of_cacheGet returned
  have value := bytesFrom_of_string isSize isString
  have lengths := congrArg List.length value
  rw [length_bytesFrom] at lengths
  have fits :
      (getBody req.key.bytes string.bytes).length <
        req.size / 2 ^ 32 * 2 ^ 32 + size + req.key.length + 32 := by
    rw [length_getBody, CString.length]
    omega
  simp only [handleRequest, isGet, takeGetRequest, present, onCache,
    returned, bind, Except.bind, measured, value, fits, ↓reduceIte]

/-- A delete of a key that is not in the table names the key. -/
theorem handleRequest_delete_missing
    (isDelete : req.requestType = .delete)
    (present : server.globalCache = some cache)
    (missing : getMeta cache req.key = none) :
    handleRequest server locals buf req =
      server.reply locals (ascii "500 Internal Server Error")
        (deleteError req.key) := by
  have fits : (deleteError req.key).length < req.key.length + 64 := by
    rw [length_deleteError]
    omega
  have notZero : ¬ ((255 : UInt8) = 0) := by
    decide
  simp only [handleRequest, isDelete, present, onCache,
    cacheDelete_of_none missing, bind, Except.bind,
    with_globalCache present, notZero, fits, ↓reduceIte]

/-- A get of a key that is not in the table is answered with 204. -/
theorem handleRequest_get_miss
    (isGet : req.requestType = .get)
    (present : server.globalCache = some cache)
    (missing : getMeta cache req.key = none) :
    handleRequest server locals buf req =
      server.reply locals (ascii "204 No Content") notFoundText := by
  simp only [handleRequest, isGet, takeGetRequest, present, onCache,
    cacheGet_of_none missing, bind, Except.bind,
    with_globalCache present]

/-- A shutdown leaves no cache. -/
theorem handleRequest_shutdown
    (isPost : req.requestType = .post)
    (present : server.globalCache = some cache)
    (isShutdown : req.key.bytes = ascii "shutdown") :
    handleRequest server locals buf req =
      Server.reply
        { server with globalCache := none, cacheHasBeenSet := false }
        locals (ascii "204 No Content") [] := by
  have notMemsize : ascii "shutdown" ≠ ascii "memsize" := by
    decide
  simp only [handleRequest, isPost, handlePost_eq, isShutdown, notMemsize,
    present, destroyCache, ↓reduceIte]

/-- A post of any other key is answered with the usage. -/
theorem handleRequest_unknown
    (isPost : req.requestType = .post)
    (notMemsize : req.key.bytes ≠ ascii "memsize")
    (notShutdown : req.key.bytes ≠ ascii "shutdown") :
    handleRequest server locals buf req =
      server.reply locals (ascii "400 Bad Request") postUsage := by
  simp only [handleRequest, isPost, handlePost_eq, notMemsize, notShutdown,
    ↓reduceIte]

end Requests

/-! ## Putting and getting back -/

/-- A server with zero-filled blocks and the default limit. -/
def newServer : Server :=
  Server.start (fun _ => zeroBlocks) 0

/-- The cache of that server. -/
def newCache : Cache :=
  createCache zeroBlocks (UInt64.ofNat (2 ^ 26)) none

theorem newServer_globalCache : newServer.globalCache = some newCache :=
  rfl

/-- The server holds a value, and only keys that fit. -/
inductive Server.Serves
    (server : Server)
    (key value : CString) :
    Prop where
  | intro
      {cache final : Cache}
      {address : Nat}
      (present : server.globalCache = some cache)
      (keysFit : KeysFit cache)
      (returned :
        cacheGet cache key =
          .ok ({ address := some address, size := value.length + 1 },
            final))
      (bytes :
        bytesFrom final.slabManager.byteAt address (value.length + 1) =
          value.bytes ++ [0])

/-- A get of a value that is held hits. -/
theorem Server.Serves.handleRequest_get
    {server : Server}
    {key value : CString}
    (serves : server.Serves key value)
    (locals : Locals)
    (buf : List UInt8)
    {req : Request}
    (isGet : req.requestType = .get)
    (isKey : req.key = key) :
    ∃ after : Server,
      handleRequest server locals buf req =
        after.reply locals (ascii "200 OK")
          (getBody key.bytes value.bytes) := by
  obtain ⟨present, -, returned, bytes⟩ := serves
  subst isKey
  exact ⟨_, handleRequest_get_hit isGet present returned bytes⟩

/-- A new cache stores a value and finds it again. -/
theorem exists_stored
    {key value : CString}
    {val : Nat → UInt8}
    (keyFits : key.length ≤ 31)
    (bounded : value.length + 1 ≤ 2 ^ 20)
    (isString :
      bytesFrom val 0 (value.length + 1) = value.bytes ++ [0]) :
    ∃ next,
      cacheSet newCache key val (UInt32.ofNat (value.length + 1)) =
          .ok (0, next) ∧
        ∀ server : Server, server.globalCache = some next →
          server.Serves key value := by
  have toNat :
      (UInt32.ofNat (value.length + 1)).toNat = value.length + 1 := by
    rw [UInt32.toNat_ofNat', Nat.mod_eq_of_lt (by omega)]
  have ok : CacheOk [] newCache :=
    createCache_ok zeroBlocks_disjoint _ none
  have bounded : (UInt32.ofNat (value.length + 1)).toNat ≤ 2 ^ 20 := by
    rw [toNat]
    exact bounded
  rw [← toNat] at isString
  have accepted :
      setRefusal newCache key val (UInt32.ofNat (value.length + 1)) =
        none :=
    ok.limits.setRefusal_eq_none (Nat.le_succ_of_le keyFits) bounded
      isString
  obtain ⟨next, stored⟩ := exists_set_of_new (by decide) accepted
  obtain ⟨address, final, got, bytes⟩ :=
    (foundAgain_of_short ok keyFits ⟨value, isString⟩ bounded stored).get
  have noKeys : KeysFit newCache := by
    rw [KeysFit, newCache, createCache_metas]
    simp
  have keysFit : KeysFit next :=
    noKeys.moves ok.table keyFits (cacheSet_moves ok.table stored)
  rw [toNat] at got bytes isString
  exact ⟨next, stored, fun server present =>
    ⟨present, keysFit, got, bytes.trans isString⟩⟩

/-- Every documented put is stored by a new server. -/
theorem exists_put
    {key value : CString}
    (scannable : (Form.put key value).Scannable)
    (keyFits : key.length ≤ 31)
    (bounded : value.length + 1 ≤ 2 ^ 20) :
    ∃ put after,
      newServer.Receives put after ∧
        put.buf = (Form.put key value).message [] ∧
        put.reply.head = ascii "204 No Content" ∧
        after.exited = false ∧
        after.Serves key value := by
  obtain ⟨next, stored, serves⟩ :=
    exists_stored keyFits bounded
      (Form.bytesFrom_value (rfl : (Form.put key value).value = _) [])
  have returns :=
    @handleRequest_put newServer newCache next zeroLocals
      ((Form.put key value).message [])
      ((Form.put key value).request (value.length + 1)) rfl
      newServer_globalCache 0 stored
  rw [if_pos rfl, Server.reply_eq_ok,
    ← recv_of_parsed (scannable.parseRequest_value rfl zeroLocals [])]
    at returns
  exact ⟨⟨zeroLocals, _, _⟩, _, ⟨rfl, returns⟩, rfl, rfl, rfl, serves _ rfl⟩

/-- A put that was answered with 204 and a get that found its value. -/
structure GotBack
    (key value : CString)
    (put got : Delivery) : Prop where
  putMessage :
    ∃ following, put.buf = (Form.put key value).message following
  stored : put.reply.head = ascii "204 No Content"
  getMessage : ∃ following, got.buf = (Form.get key).message following
  found : got.reply.head = ascii "200 OK"
  body : got.reply.body = getBody key.bytes value.bytes

/-- Every documented put to a new server can be got back. -/
theorem exists_gotBack
    {key value : CString}
    (scannable : (Form.put key value).Scannable)
    (keyFits : key.length ≤ 31)
    (bounded : value.length + 1 ≤ 2 ^ 20) :
    ∃ put got after,
      Run Server.Receives newServer [put, got] after ∧
        GotBack key value put got := by
  have getScannable : (Form.get key).Scannable :=
    ⟨scannable.nonempty, scannable.noSlash, scannable.keyFits⟩
  obtain ⟨put, middle, received, putMessage, stored, running, serves⟩ :=
    exists_put scannable keyFits bounded
  obtain ⟨after, returns⟩ :=
    @Server.Serves.handleRequest_get _ _ _ serves zeroLocals
      ((Form.get key).message [0]) ((Form.get key).request 1) rfl rfl
  rw [Server.reply_eq_ok,
    ← recv_of_parsed (getScannable.parseRequest_noValue rfl zeroLocals [])]
    at returns
  exact ⟨put, ⟨zeroLocals, _, _⟩, after,
    .snoc (.snoc .nil received) ⟨running, returns⟩,
    ⟨[], putMessage⟩, stored, ⟨[0], rfl⟩, rfl, rfl⟩

/-- The length of the message of a put, terminator included. -/
theorem length_putMessage (key value : CString) :
    ((Form.put key value).message []).length =
      key.length + value.length + 7 := by
  have method : (CString.ofText "PUT").bytes.length = 3 := by
    decide
  simp [Form.message, Form.text, Form.method, Form.key, Form.tail,
    Form.value, method, CString.length]
  omega

/-- The length of the reply that carries the value back. -/
theorem GotBack.length_sent
    {key value : CString}
    {put got : Delivery}
    (gotBack : GotBack key value put got)
    {server after : Server}
    (received : server.Receives got after) :
    got.reply.sent.length = key.length + value.length + 290 := by
  have head : (ascii "200 OK").length = 6 := by
    decide
  rw [received.isSent, length_sentBytes, gotBack.found, gotBack.body, head,
    length_getBody, CString.length, CString.length]
  omega

/--
The reply that carries a value back fits the limit of 2^20 bytes for received
messages exactly if the message of the put is at least 283 bytes below it.
-/
theorem reply_fits_iff
    {blocks : Nat → Nat → Slab}
    {maxmem : UInt64}
    {earlier between : List Delivery}
    {put got : Delivery}
    {server : Server}
    (run :
      Run Server.Receives (Server.start blocks maxmem)
        (earlier ++ put :: between ++ [got]) server)
    {key value : CString}
    (gotBack : GotBack key value put got) :
    got.reply.sent.length ≤ 2 ^ 20 ↔
      ((Form.put key value).message []).length + 283 ≤ 2 ^ 20 := by
  obtain ⟨middle, -, received⟩ := run.exists_last
  rw [gotBack.length_sent received, length_putMessage]

/-- A short value comes back. -/
theorem reply_fits_iff_of_short :
    ∃ put got after,
      Run Server.Receives newServer [put, got] after ∧
        GotBack (CString.ofText "k") (CString.ofText "v") put got ∧
        got.reply.sent.length ≤ 2 ^ 20 := by
  obtain ⟨put, got, after, run, gotBack⟩ :=
    @exists_gotBack (CString.ofText "k") (CString.ofText "v")
      ⟨by decide, by decide, by decide⟩ (by decide) (by decide)
  exact ⟨put, got, after, run, gotBack,
    (@reply_fits_iff _ _ [] [] put got after run _ _ gotBack).mpr
      (by decide)⟩

/--
A put of 1048500 letters is a message of 1048508 bytes and is stored; the reply
to the get is 1048791 bytes long.
-/
theorem long_value_not_returned :
    ∃ put got after,
      Run Server.Receives newServer [put, got] after ∧
        GotBack (CString.ofText "k") (lettersString 1048500) put got ∧
        ((Form.put (CString.ofText "k")
            (lettersString 1048500)).message []).length = 1048508 ∧
        got.reply.sent.length = 1048791 := by
  have length := length_lettersString 1048500
  have keyLength : (CString.ofText "k").length = 1 := by
    decide
  obtain ⟨put, got, after, run, gotBack⟩ :=
    @exists_gotBack (CString.ofText "k") (lettersString 1048500)
      ⟨by decide, by decide, by decide⟩ (by decide)
      (by rw [length]; decide)
  obtain ⟨middle, -, received⟩ :=
    @Run.exists_last _ _ _ _ [put] got _ run
  refine ⟨put, got, after, run, gotBack, ?_, ?_⟩
  · rw [length_putMessage, length, keyLength]
  · rw [gotBack.length_sent received, length, keyLength]

end CacheBench
