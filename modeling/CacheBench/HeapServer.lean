import CacheBench.HeapCache
import CacheBench.Server

namespace CacheBench.OnHeap

open SeparationHeap HeapProgram

/-!
# The server on the heap

`server.c` keeps one pointer, `global_cache`, and hands it to the functions of
`cache.c`; the requests and the replies are not in this heap.  The server
answers every sequence of messages on the heap as it does without one.  Of what
it allocates, the blocks of its present cache are left, and for every cache it
destroyed the array of that cache's buckets.
-/

/-- The global variables. -/
structure Globals where
  globalCache : Option Nat
  cacheHasBeenSet : Bool
  exited : Bool
  created : Nat
  blocks : Nat → Nat → Slab

/-- Call a cache function that returns `null` for a NULL cache. -/
def onCache {α : Type}
    (cache : Option Nat)
    (null : α)
    (call : Nat → Code α) :
    Code α :=
  match cache with
  | none => pure null
  | some cache => call cache

/-- `cache_reply`, which walks through the cache for the bytes used. -/
def cacheReply
    (locals : Locals)
    (cache : Option Nat)
    (head body : List UInt8) :
    Code Reply := do
  let used ← onCache cache 0 cacheSpaceUsed
  lift (replyWith locals used head body)

/-- The byte at an address inside a slab's block. -/
def byteAt (man address : Nat) : Code UInt8 := do
  let found ← slabAround man address
  match found with
  | none =>
      pure 0
  | some start => do
      let slab ← loadAs Block.slabObj? start
      pure (slab.byteAt (address - start))

/-- The bytes `%s` prints, given their number. -/
def readBytes (man address count : Nat) : Code (List UInt8) :=
  (List.range count).mapM fun position => byteAt man (address + position)

namespace Globals

/-- Reply and go on with the given variables. -/
def reply
    (vars : Globals)
    (locals : Locals)
    (head body : List UInt8) :
    Code (Reply × Globals) := do
  let reply ← cacheReply locals vars.globalCache head body
  pure (reply, vars)

/-- `global_cache = create_cache(maxmem, NULL)`. -/
def createGlobal (vars : Globals) (maxmem : UInt64) : Code Globals := do
  let cache ← createCache (vars.blocks vars.created) maxmem none
  pure { vars with globalCache := some cache, created := vars.created + 1 }

/-- `destroy_cache(global_cache)`. -/
def destroyGlobal (vars : Globals) : Code UInt8 :=
  onCache vars.globalCache 255 fun cache => do
    destroyCache cache
    pure 0

/-- The variables in which `main` starts to receive. -/
def start (blocks : Nat → Nat → Slab) (maxmem : UInt64) : Code Globals :=
  createGlobal
    { globalCache := none
      cacheHasBeenSet := false
      exited := false
      created := 0
      blocks := blocks }
    (if maxmem = 0 then UInt64.ofNat (2 ^ 26) else maxmem)

end Globals

/-- Send the key and its value, read where `cache_get` found it, or an error. -/
def takeGetRequest
    (vars : Globals)
    (locals : Locals)
    (req : Request) :
    Code (Reply × Globals) := do
  let found ←
    onCache vars.globalCache { address := none, size := 0 }
      fun cache => cacheGet cache req.key
  match found.address, vars.globalCache with
  | some address, some cache => do
      let fields ← loadAs Block.cacheObj? cache
      let length ← strlen fields.slabManager address
      let value ← readBytes fields.slabManager address length
      let size := req.size / 2 ^ 32 * 2 ^ 32 + found.size
      let msg := getBody req.key.bytes value
      if msg.length < size + req.key.length + 32 then
        vars.reply locals (ascii "200 OK") msg
      else
        lift (.error .outOfBounds)
  | _, _ =>
      vars.reply locals (ascii "204 No Content") notFoundText

/-- `POST /memsize/value` and `POST /shutdown`. -/
def handlePost
    (vars : Globals)
    (locals : Locals)
    (buf : List UInt8)
    (req : Request) :
    Code (Reply × Globals) :=
  match postOf vars.cacheHasBeenSet buf req with
  | .refused =>
      vars.reply locals (ascii "500 Internal Server Error") notCreatedText
  | .create maxmem => do
      let _ ← vars.destroyGlobal
      let vars ← vars.createGlobal maxmem
      vars.reply locals (ascii "201 Created") []
  | .shutdown => do
      let failure ← vars.destroyGlobal
      let vars := { vars with globalCache := none, cacheHasBeenSet := false }
      if failure = 0 then
        vars.reply locals (ascii "204 No Content") []
      else do
        let (reply, vars) ←
          vars.reply locals (ascii "500 Internal Server Error")
            notDestroyedText
        pure (reply, { vars with exited := true })
  | .unknown =>
      vars.reply locals (ascii "400 Bad Request") postUsage

/-- Call the relevant cache operation and respond to the client. -/
def handleRequest
    (vars : Globals)
    (locals : Locals)
    (buf : List UInt8)
    (req : Request) :
    Code (Reply × Globals) :=
  match req.requestType with
  | .post =>
      handlePost vars locals buf req
  | .delete => do
      let failure ←
        onCache vars.globalCache 255 fun cache => cacheDelete cache (.text req.key)
      if failure = 0 then
        vars.reply locals (ascii "204 No Content") []
      else
        let err := deleteError req.key
        if err.length < req.key.length + 64 then
          vars.reply locals (ascii "500 Internal Server Error") err
        else
          lift (.error .outOfBounds)
  | .get =>
      takeGetRequest vars locals req
  | .put => do
      let failure ←
        onCache vars.globalCache 5 fun cache =>
          cacheSet cache req.key
            (fun position => bytesAt buf (req.value + position))
            (UInt32.ofNat req.size)
      if failure = 0 then
        let vars := { vars with cacheHasBeenSet := true }
        vars.reply locals (ascii "204 No Content") []
      else
        vars.reply locals (ascii "500 Internal Server Error") []
  | .head =>
      vars.reply locals (ascii "200 OK") []
  | .bad =>
      vars.reply locals (ascii "400 Bad Request") []

/-- Receive a message, parse it and handle it. -/
def recv (vars : Globals) (locals : Locals) (buf : List UInt8) :
    Code (Reply × Globals) := do
  let req ← lift (parseRequest locals buf)
  handleRequest vars locals buf req

/-- The loop of `send_recv` over the messages that arrive. -/
def sendRecv (vars : Globals) :
    List (Locals × List UInt8) → Code (List Reply × Globals)
  | [] =>
      pure ([], vars)
  | (locals, buf) :: rest =>
      if vars.exited then
        pure ([], vars)
      else do
        let (reply, vars) ← recv vars locals buf
        let (replies, vars) ← sendRecv vars rest
        pure (reply :: replies, vars)

/-- `main`, from the creation of the cache on. -/
def main
    (blocks : Nat → Nat → Slab)
    (maxmem : UInt64)
    (messages : List (Locals × List UInt8)) :
    Code (List Reply × Globals) := do
  let vars ← Globals.start blocks maxmem
  sendRecv vars messages

/-! ## What the server owns -/

/-- The variables of a server whose cache is at the pointer. -/
def globals (server : Server) (pointer : Option Nat) : Globals where
  globalCache := pointer
  cacheHasBeenSet := server.cacheHasBeenSet
  exited := server.exited
  created := server.created
  blocks := server.blocks

@[simp]
theorem globals_globalCache (server : Server) (pointer : Option Nat) :
    (globals server pointer).globalCache = pointer :=
  rfl

@[simp]
theorem globals_cacheHasBeenSet (server : Server) (pointer : Option Nat) :
    (globals server pointer).cacheHasBeenSet = server.cacheHasBeenSet :=
  rfl

@[simp]
theorem globals_exited (server : Server) (pointer : Option Nat) :
    (globals server pointer).exited = server.exited :=
  rfl

/-- The cache `global_cache` points to. -/
def globalAt : Option Nat → Option Cache → Assertion Block
  | none, none => 1
  | some address, some cache => cacheAt address cache
  | _, _ => ⊥

/--
The cache of the server and the arrays of the caches it destroyed: all it
created but the present one.
-/
def serverAt (vars : Globals) (server : Server) : Assertion Block :=
  ⨆ (pointer : Option Nat) (destroyed : Nat) (_ : vars = globals server pointer)
    (_ : destroyed + pointer.toList.length = server.created),
    globalAt pointer server.globalCache * arrayAt ^ destroyed

/-- The reply is the one of the server without a heap. -/
def replied {α : Type} (value : α × Server) (result : α × Globals) :
    Assertion Block :=
  ⨆ _ : result.1 = value.1, serverAt result.2 value.2

theorem le_serverAt
    {server : Server}
    {pointer : Option Nat}
    {destroyed : Nat}
    (count : destroyed + pointer.toList.length = server.created) :
    globalAt pointer server.globalCache * arrayAt ^ destroyed ≤
      serverAt (globals server pointer) server :=
  le_iSup₂_of_le pointer destroyed (le_iSup₂_of_le rfl count le_rfl)

theorem refines_serverAt
    {ρ γ : Type}
    {vars : Globals}
    {server : Server}
    {program : Code ρ}
    {outcome : Outcome γ}
    {S : γ → ρ → Assertion Block}
    (each : ∀ pointer destroyed, vars = globals server pointer →
      destroyed + pointer.toList.length = server.created →
        Refines (globalAt pointer server.globalCache * arrayAt ^ destroyed)
          program outcome S) :
    Refines (serverAt vars server) program outcome S :=
  Refines.exists_before fun pointer => Refines.exists_before fun destroyed =>
    Refines.exists_before fun isVars => Refines.exists_before fun count =>
      each pointer destroyed isVars count

section Caches

variable {pointer : Option Nat} {cache : Option Cache}

/-- `global_cache` is NULL, or there is a cache where it points to. -/
theorem refines_globalAt
    {ρ γ : Type}
    {program : Code ρ}
    {outcome : Outcome γ}
    {S : γ → ρ → Assertion Block}
    {R : Assertion Block}
    (null : pointer = none → cache = none → Refines R program outcome S)
    (present : ∀ address held, pointer = some address → cache = some held →
      Refines (cacheAt address held * R) program outcome S) :
    Refines (globalAt pointer cache * R) program outcome S := by
  cases pointer with
  | none =>
      cases cache with
      | none =>
          rw [globalAt, one_mul]
          exact null rfl rfl
      | some held =>
          rw [globalAt, Quantale.bot_mul]
          · exact Refines.of_bot
          · simp
          · simp
  | some address =>
      cases cache with
      | none =>
          rw [globalAt, Quantale.bot_mul]
          · exact Refines.of_bot
          · simp
          · simp
      | some held =>
          exact present address held rfl rfl

/-- A call of a cache function through `global_cache`. -/
theorem onCache_refines
    {α : Type}
    {null : α}
    {call : Nat → Code α}
    {computed : Cache → Outcome (α × Cache)}
    (each : ∀ address cache,
      Refines (cacheAt address cache) (call address) (computed cache)
        (answers Prod.fst fun result => cacheAt address result.2)) :
    Refines (globalAt pointer cache) (onCache pointer null call)
      (CacheBench.onCache cache null computed)
      (answers Prod.fst fun result => globalAt pointer result.2) := by
  cases pointer with
  | none =>
      cases cache with
      | none => exact Refines.pure_answers rfl le_rfl
      | some cache => exact Refines.of_bot
  | some address =>
      cases cache with
      | none => exact Refines.of_bot
      | some cache =>
          refine Refines.last (Refines.answerAll (each address cache) fun result _ => ?_)
          exact Refines.pure_answers rfl le_rfl

/-- The bytes used, which every reply states. -/
theorem spaceUsed_reads :
    Reads (globalAt pointer cache) (onCache pointer 0 cacheSpaceUsed)
      (spaceUsed cache) := by
  cases pointer with
  | none =>
      cases cache with
      | none => exact Reads.pure _
      | some cache => exact Reads.of_bot
  | some address =>
      cases cache with
      | none => exact Reads.of_bot
      | some cache => exact cacheSpaceUsed_reads

/-- The array of a destroyed cache stays, whatever `global_cache` was. -/
theorem destroyGlobal_refines {vars : Globals} (isPointer : vars.globalCache = pointer) :
    Refines (globalAt pointer cache) vars.destroyGlobal
      (.ok (CacheBench.destroyCache cache))
      fun code result => ⨆ _ : result = code, arrayAt ^ pointer.toList.length := by
  unfold Globals.destroyGlobal
  rw [isPointer]
  cases pointer with
  | none =>
      cases cache with
      | none => exact Refines.pure (le_iSup_of_le rfl le_rfl)
      | some cache => exact Refines.of_bot
  | some address =>
      cases cache with
      | none => exact Refines.of_bot
      | some cache =>
          refine Refines.stepAll destroyCache_refines fun _ => Refines.pure ?_
          exact le_iSup_of_le rfl (le_of_eq (pow_one _).symm)

end Caches

section Requests

variable {server : Server} {pointer : Option Nat} {destroyed : Nat}

/-- `cache_reply` ends the handling of a request. -/
theorem reply_refines
    (count : destroyed + pointer.toList.length = server.created)
    (locals : Locals)
    (head body : List UInt8) :
    Refines (globalAt pointer server.globalCache * arrayAt ^ destroyed)
      ((globals server pointer).reply locals head body)
      (server.reply locals head body) replied := by
  simp only [Globals.reply, cacheReply, bind_assoc, globals_globalCache]
  refine Refines.read ((@spaceUsed_reads pointer server.globalCache).within Splits.le) ?_
  change Refines _ _
    (replyWith locals (spaceUsed server.globalCache) head body >>= fun reply =>
      .ok (reply, server)) _
  refine Refines.lift fun reply _ => Refines.pure ?_
  exact le_iSup_of_le rfl (le_serverAt count)

/-- A new cache for `global_cache`. -/
theorem createGlobal_refines (maxmem : UInt64) :
    Refines 1 ((globals server pointer).createGlobal maxmem)
      (.ok (server.createGlobal maxmem))
      fun value result =>
        ⨆ (address : Nat) (_ : result = globals value (some address)),
          globalAt (some address) value.globalCache := by
  refine Refines.stepAll
    (createCache_refines (server.blocks server.created) maxmem none) fun address => ?_
  exact Refines.pure (le_iSup₂_of_le address rfl le_rfl)

theorem byteAt_reads {man : Nat} {manager : Manager} (address : Nat) :
    Reads (managerAt man manager) (byteAt man address) (manager.byteAt address) := by
  unfold byteAt Manager.byteAt
  refine (slabAround_reads address).bind ?_
  cases search : CacheBench.llFind CacheBench.findVal manager.slabs address with
  | none =>
      exact Reads.pure _
  | some slab =>
      refine (loadSlab_reads (List.mem_of_find?_eq_some search)).bind ?_
      exact Reads.pure _

/-- The bytes that are printed are those of the value in its slab. -/
theorem readBytes_reads {man : Nat} {manager : Manager} (address count : Nat) :
    Reads (managerAt man manager) (readBytes man address count)
      (bytesFrom manager.byteAt address count) :=
  Reads.mapM fun position _ => byteAt_reads (address + position)

/-- A get is answered with the value the cache has. -/
theorem takeGetRequest_refines
    (count : destroyed + pointer.toList.length = server.created)
    (locals : Locals)
    (req : Request) :
    Refines (globalAt pointer server.globalCache * arrayAt ^ destroyed)
      (takeGetRequest (globals server pointer) locals req)
      (CacheBench.takeGetRequest server locals req) replied := by
  unfold takeGetRequest CacheBench.takeGetRequest
  rw [globals_globalCache]
  refine Refines.answer
    (onCache_refines fun address cache => @cacheGet_refines address cache req.key)
    fun ⟨found, cache⟩ _ => ?_
  have after := @reply_refines { server with globalCache := cache } pointer destroyed count
    locals
  dsimp only
  refine refines_globalAt ?_ fun address held isPointer isCache => ?_
  · rintro rfl rfl
    rw [globalAt, one_mul] at after
    cases found.address <;> exact after _ _
  · subst isPointer isCache
    cases found.address with
    | none =>
        exact after _ _
    | some place =>
        dsimp only
        refine refines_cacheAt_mul fun man buckets table shown full => ?_
        refine Refines.loadAs Focus.le_has rfl ?_
        refine Refines.answer (@strlen_refines man held.slabManager place)
          fun length _ => ?_
        refine Refines.read
          ((@readBytes_reads man held.slabManager place length).within Splits.le) ?_
        split
        · refine Refines.before ?_ (after _ _)
          have folded := @le_cacheAt address held man buckets table shown full
          refine le_trans (le_of_eq ?_) (mul_le_mul_left folded (arrayAt ^ destroyed))
          simp only [cacheBlocks]
          ac_rfl
        · exact Refines.fault

/-- `POST /memsize/value` destroys a cache before it creates one. -/
theorem memsize_refines
    (count : destroyed + pointer.toList.length = server.created)
    (maxmem : UInt64)
    (locals : Locals)
    (head body : List UInt8) :
    Refines (globalAt pointer server.globalCache * arrayAt ^ destroyed)
      (do
        let _ ← (globals server pointer).destroyGlobal
        let vars ← (globals server pointer).createGlobal maxmem
        vars.reply locals head body)
      ((server.createGlobal maxmem).reply locals head body) replied := by
  refine Refines.step
    (@destroyGlobal_refines pointer server.globalCache (globals server pointer) rfl)
    fun failure => ?_
  rw [Assertion.iSup_mul]
  refine Refines.exists_before fun _ => ?_
  refine Refines.step (createGlobal_refines maxmem) fun vars => ?_
  rw [Assertion.iSup_mul]
  refine Refines.exists_before fun address => ?_
  rw [Assertion.iSup_mul]
  refine Refines.exists_before fun isVars => ?_
  subst isVars
  have newCount :
      (pointer.toList.length + destroyed) + (some address).toList.length =
        (server.createGlobal maxmem).created := by
    simp only [Server.createGlobal, Option.toList_some, List.length_singleton]
    omega
  rw [← pow_add]
  exact reply_refines newCount locals head body

/-- `POST /shutdown` destroys the cache, or ends the server if there is none. -/
theorem shutdown_refines
    (count : destroyed + pointer.toList.length = server.created)
    (locals : Locals)
    (done failed body : List UInt8) :
    Refines (globalAt pointer server.globalCache * arrayAt ^ destroyed)
      (do
        let failure ← (globals server pointer).destroyGlobal
        let vars :=
          { globals server pointer with globalCache := none, cacheHasBeenSet := false }
        if failure = 0 then
          vars.reply locals done []
        else do
          let (reply, vars) ← vars.reply locals failed body
          pure (reply, { vars with exited := true }))
      (do
        let failure := CacheBench.destroyCache server.globalCache
        let server := { server with globalCache := none, cacheHasBeenSet := false }
        if failure = 0 then
          server.reply locals done []
        else do
          let (reply, server) ← server.reply locals failed body
          .ok (reply, { server with exited := true })) replied := by
  refine Refines.step
    (@destroyGlobal_refines pointer server.globalCache (globals server pointer) rfl)
    fun failure => ?_
  rw [Assertion.iSup_mul]
  refine Refines.exists_before fun isFailure => ?_
  subst isFailure
  have newCount :
      (pointer.toList.length + destroyed) + (none : Option Nat).toList.length =
        { server with globalCache := none, cacheHasBeenSet := false }.created := by
    simp only [Option.toList_none, List.length_nil]
    omega
  have after := reply_refines newCount locals
  rw [globalAt, one_mul] at after
  rw [← pow_add]
  dsimp only
  split
  · exact after _ _
  · refine Refines.bind (after _ _) fun ⟨reply, ended⟩ ⟨answer, vars⟩ _ => ?_
    refine Refines.exists_before fun same => ?_
    obtain rfl : answer = reply := same
    refine refines_serverAt fun pointer destroyed isVars count => Refines.pure ?_
    obtain rfl : vars = globals ended pointer := isVars
    exact le_iSup_of_le rfl
      (@le_serverAt { ended with exited := true } pointer destroyed count)

/-- `POST` requests. -/
theorem handlePost_refines
    (count : destroyed + pointer.toList.length = server.created)
    (locals : Locals)
    (buf : List UInt8)
    (req : Request) :
    Refines (globalAt pointer server.globalCache * arrayAt ^ destroyed)
      (handlePost (globals server pointer) locals buf req)
      (CacheBench.handlePost server locals buf req) replied := by
  unfold handlePost CacheBench.handlePost
  rw [globals_cacheHasBeenSet]
  cases postOf server.cacheHasBeenSet buf req with
  | refused =>
      exact reply_refines count locals _ _
  | create maxmem =>
      exact memsize_refines count maxmem locals _ _
  | shutdown =>
      exact shutdown_refines count locals _ _ _
  | unknown =>
      exact reply_refines count locals _ _

/-- Every request is handled as it is without a heap. -/
theorem handleRequest_refines
    (count : destroyed + pointer.toList.length = server.created)
    (locals : Locals)
    (buf : List UInt8)
    (req : Request) :
    Refines (globalAt pointer server.globalCache * arrayAt ^ destroyed)
      (handleRequest (globals server pointer) locals buf req)
      (CacheBench.handleRequest server locals buf req) replied := by
  unfold handleRequest CacheBench.handleRequest
  cases req.requestType with
  | post =>
      exact handlePost_refines count locals buf req
  | get =>
      exact takeGetRequest_refines count locals req
  | head =>
      exact reply_refines count locals _ _
  | bad =>
      exact reply_refines count locals _ _
  | delete =>
      dsimp only
      rw [globals_globalCache]
      refine Refines.answer (onCache_refines fun address cache =>
        @cacheDelete_text_refines address cache req.key) fun ⟨failure, cache⟩ _ => ?_
      have after := @reply_refines { server with globalCache := cache } pointer
        destroyed count locals
      dsimp only
      split
      · exact after _ _
      · split
        · exact after _ _
        · exact Refines.fault
  | put =>
      dsimp only
      rw [globals_globalCache]
      refine Refines.answer (onCache_refines fun address cache =>
        @cacheSet_refines address cache req.key _ _) fun ⟨failure, cache⟩ _ => ?_
      dsimp only
      split
      · exact @reply_refines
          { server with globalCache := cache, cacheHasBeenSet := true } pointer
          destroyed count locals _ _
      · exact @reply_refines { server with globalCache := cache } pointer
          destroyed count locals _ _

end Requests

section Runs

variable {vars : Globals} {server : Server}

/-- One message. -/
theorem recv_refines (locals : Locals) (buf : List UInt8) :
    Refines (serverAt vars server) (recv vars locals buf)
      (CacheBench.recv server locals buf) replied := by
  refine refines_serverAt fun pointer destroyed isVars count => ?_
  subst isVars
  refine Refines.lift fun req _ => ?_
  exact handleRequest_refines count locals buf req

/-- Any number of messages. -/
theorem sendRecv_refines (messages : List (Locals × List UInt8)) :
    Refines (serverAt vars server) (sendRecv vars messages)
      (CacheBench.sendRecv server messages) replied := by
  induction messages generalizing vars server with
  | nil =>
      exact Refines.pure (le_iSup_of_le rfl le_rfl)
  | cons message rest inductionHypothesis =>
      obtain ⟨locals, buf⟩ := message
      refine refines_serverAt fun pointer destroyed isVars count => ?_
      subst isVars
      refine Refines.before (le_serverAt count) ?_
      unfold sendRecv CacheBench.sendRecv
      rw [globals_exited]
      split
      · exact Refines.pure (le_iSup_of_le rfl le_rfl)
      · refine Refines.bind (recv_refines locals buf) ?_
        rintro ⟨reply, next⟩ ⟨answer, nextVars⟩ _
        refine Refines.exists_before fun same => ?_
        obtain rfl : answer = reply := same
        refine Refines.bind inductionHypothesis ?_
        rintro ⟨replies, last⟩ ⟨answers, lastVars⟩ _
        refine Refines.exists_before fun same => ?_
        obtain rfl : answers = replies := same
        exact Refines.pure (le_iSup_of_le rfl le_rfl)

/-- The server's first cache. -/
theorem start_refines (blocks : Nat → Nat → Slab) (maxmem : UInt64) :
    Refines 1 (Globals.start blocks maxmem) (.ok (Server.start blocks maxmem))
      fun server vars => serverAt vars server := by
  refine Refines.last (Refines.stepAll (@createGlobal_refines
    { globalCache := none
      cacheHasBeenSet := false
      exited := false
      created := 0
      blocks := blocks } none _) fun vars => ?_)
  refine Refines.exists_before fun address => Refines.exists_before fun isVars => ?_
  subst isVars
  refine Refines.pure (le_trans (le_of_eq ?_)
    (@le_serverAt (Server.start blocks maxmem) (some address) 0 rfl))
  rw [pow_zero, mul_one]
  rfl

/-- The whole program, from the creation of its first cache on. -/
theorem main_refines
    (blocks : Nat → Nat → Slab)
    (maxmem : UInt64)
    (messages : List (Locals × List UInt8)) :
    Refines 1 (main blocks maxmem messages)
      (CacheBench.sendRecv (Server.start blocks maxmem) messages) replied :=
  Refines.stepAll (start_refines blocks maxmem) fun _ => sendRecv_refines messages

/-- The blocks of the cache of a server. -/
def blockCount : Option Cache → Nat
  | none => 0
  | some cache => 35 + 2 * cache.slabManager.slabs.length + 2 * cache.metas.length

theorem globalAt_le_exactly (pointer : Option Nat) (cache : Option Cache) :
    globalAt pointer cache ≤ exactly (blockCount cache) := by
  cases pointer with
  | none =>
      cases cache with
      | none => exact one_le_exactly
      | some held => exact bot_le
  | some address =>
      cases cache with
      | none => exact bot_le
      | some held => exact cacheAt_le_exactly address held

/-- What the server owns, in blocks. -/
theorem serverAt_le_exactly :
    serverAt vars server ≤
      exactly (blockCount server.globalCache +
        (server.created - vars.globalCache.toList.length)) := by
  refine iSup₂_le fun pointer destroyed => iSup₂_le fun isVars count => ?_
  have isPointer : vars.globalCache = pointer := by
    rw [isVars, globals_globalCache]
  have rest : server.created - vars.globalCache.toList.length = destroyed := by
    rw [isPointer]
    omega
  rw [rest]
  exact mul_le_exactly (globalAt_le_exactly pointer server.globalCache)
    (pow_le_exactly arrayAt_le_exactly destroyed)

/-- The run of the program on a heap, which stays what it was. -/
theorem main_agrees
    (blocks : Nat → Nat → Slab)
    (maxmem : UInt64)
    (messages : List (Locals × List UInt8))
    (memory : Memory Block) :
    Agrees (isHeap memory.heap)
      (CacheBench.sendRecv (Server.start blocks maxmem) messages) replied
      (main blocks maxmem messages memory) := by
  apply main_refines blocks maxmem messages
  rw [one_mul]
  rfl

/-- What a run returns, with the part of the heap it owns. -/
theorem replied_mul_apply
    {α : Type}
    {value : α × Server}
    {result : α × Globals}
    {before heap : Heap Block}
    (holds : (replied value result * isHeap before) heap) :
    result.1 = value.1 ∧
      ∃ owned : Heap Block, owned.Disjoint before ∧ heap = owned ∪ before ∧
        serverAt result.2 value.2 owned := by
  rw [replied, Assertion.iSup_mul] at holds
  obtain ⟨same, held⟩ := Assertion.iSup_apply.mp holds
  obtain ⟨owned, _, apart, split, isOwned, rfl⟩ := held
  exact ⟨same, owned, apart, split, isOwned⟩

/--
On every heap and for every sequence of messages the server behaves as it does
without a heap.  It never touches an address that holds no block of the right
type: no block is used after it was freed and none is freed twice.  It ends in a
fault where the server without a heap ends in that fault.  Otherwise it sends
the same replies, those of a run of the server, and what it has allocated is what
`serverAt` says; the rest of the heap is as it was.  `malloc` may answer with any
address not in use.
-/
theorem server_safe_on_heap
    (blocks : Nat → Nat → Slab)
    (maxmem : UInt64)
    (messages : List (Locals × List UInt8))
    (memory : Memory Block) :
    match main blocks maxmem messages memory with
    | .error .invalidAccess =>
        False
    | .error .addressInUse =>
        True
    | .error (.fault fault) =>
        CacheBench.sendRecv (Server.start blocks maxmem) messages = .error fault
    | .ok ((replies, vars), after) =>
        ∃ server,
          CacheBench.sendRecv (Server.start blocks maxmem) messages =
              .ok (replies, server) ∧
            (∃ history,
              Execution.Run Server.Receives (Server.start blocks maxmem) history
                  server ∧
                history.map Delivery.reply = replies) ∧
              ∃ owned : Heap Block,
                owned.Disjoint memory.heap ∧ after.heap = owned ∪ memory.heap ∧
                  serverAt vars server owned := by
  have agrees := main_agrees blocks maxmem messages memory
  generalize main blocks maxmem messages memory = ending at agrees
  cases agrees with
  | addressInUse =>
      trivial
  | fault same =>
      exact same
  | @returned result after value same holds =>
      obtain ⟨replies, vars⟩ := result
      obtain ⟨expected, server⟩ := value
      obtain ⟨rfl, owned, apart, split, isOwned⟩ := replied_mul_apply holds
      obtain ⟨history, run, isReplies, -⟩ := run_of_sendRecv same
      exact ⟨server, same, ⟨history, run, isReplies⟩, owned, apart, split,
        isOwned⟩

/--
Memory in use after every sequence of messages: 35 blocks for the present cache,
two more for each of its slabs and values, and one block for every cache that
was destroyed before.
-/
theorem server_heap_blocks
    (blocks : Nat → Nat → Slab)
    (maxmem : UInt64)
    (messages : List (Locals × List UInt8))
    (memory : Memory Block) :
    match main blocks maxmem messages memory with
    | .ok ((replies, vars), after) =>
        ∃ server,
          CacheBench.sendRecv (Server.start blocks maxmem) messages =
              .ok (replies, server) ∧
            after.heap.keys.card =
              memory.heap.keys.card + blockCount server.globalCache +
                (server.created - vars.globalCache.toList.length)
    | .error _ =>
        True := by
  have agrees := main_agrees blocks maxmem messages memory
  generalize main blocks maxmem messages memory = ending at agrees
  cases agrees with
  | addressInUse =>
      trivial
  | fault same =>
      trivial
  | @returned result after value same holds =>
      obtain ⟨replies, vars⟩ := result
      obtain ⟨expected, server⟩ := value
      obtain ⟨rfl, owned, apart, split, isOwned⟩ := replied_mul_apply holds
      refine ⟨server, same, ?_⟩
      have total : exactly (_ + memory.heap.keys.card) after.heap :=
        exactly_mul_le _ _ _ ⟨owned, memory.heap, apart, split,
          serverAt_le_exactly owned isOwned, rfl⟩
      change after.heap.keys.card = _ at total
      dsimp only at total
      omega

/-- A value and its slab take four blocks more than an empty cache. -/
example :
    (match
        main (fun _ => zeroBlocks) 0
          [(⟨Vector.replicate 16 0, Vector.replicate 200 0, fun _ => 0⟩,
            ascii "PUT /k/v" ++ [0])]
          ⟨∅, (2 * · + 1), 0⟩ with
      | .ok (_, after) => decide (after.heap.keys.card = 39)
      | .error _ => false) = true := by
  decide +kernel

end Runs

end CacheBench.OnHeap
