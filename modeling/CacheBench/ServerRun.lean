import CacheBench.ServerReplies

namespace CacheBench

open Execution

/-!
# Runs of the server

Whatever message the server receives, it makes at most one call of the cache,
creates a cache or destroys the one it has.  `cache_has_been_set` goes up with
the first value that is stored and down with a shutdown, and a cache is only
created while it is down.
-/

/-- Whether a call stored a value. -/
def Event.stored : Event → Bool
  | .set _ _ _ code => code == 0
  | .get _ _ _ => false
  | .delete _ _ => false

/-- What a request does to the server. -/
inductive Effect (server : Server) : Server → Prop where
  | unchanged :
      Effect server server
  | call
      {cache next : Cache}
      {event : Event}
      (present : server.globalCache = some cache)
      (step : cache.Step event next) :
      Effect server
        { server with
          globalCache := some next
          cacheHasBeenSet := server.cacheHasBeenSet || event.stored }
  | created
      (unset : server.cacheHasBeenSet = false)
      (maxmem : UInt64) :
      Effect server (server.createGlobal maxmem)
  | destroyed
      (exited : Bool) :
      Effect server
        { server with
          globalCache := none
          cacheHasBeenSet := false
          exited := exited }

section Effects

variable {server after : Server} {locals : Locals} {reply : Reply}
variable {buf : List UInt8} {req : Request}

/-- A call that does not set leaves the flag as it is. -/
private theorem Effect.call_not_stored
    {cache next : Cache}
    {event : Event}
    (present : server.globalCache = some cache)
    (step : cache.Step event next)
    (notStored : event.stored = false) :
    Effect server { server with globalCache := some next } := by
  have effect := Effect.call present step
  rwa [notStored, Bool.or_false] at effect

/-- A NULL cache stays NULL. -/
private theorem with_null
    (missing : server.globalCache = none) :
    { server with globalCache := none } = server := by
  rw [← missing]

theorem handlePost_effect
    (handled : handlePost server locals buf req = .ok (reply, after)) :
    Effect server after := by
  rw [handlePost_eq] at handled
  split_ifs at handled with isMemsize isSet isShutdown destroyed
  · obtain ⟨-, -, rfl⟩ := Server.reply_eq handled
    exact .unchanged
  · obtain ⟨-, -, rfl⟩ := Server.reply_eq handled
    exact .created (by simpa using isSet) _
  · obtain ⟨-, -, rfl⟩ := Server.reply_eq handled
    exact .destroyed server.exited
  · obtain ⟨⟨sent, replied⟩, replying, rest⟩ := bind_eq_ok.mp handled
    obtain ⟨-, -, rfl⟩ := Server.reply_eq replying
    cases rest
    exact .destroyed true
  · obtain ⟨-, -, rfl⟩ := Server.reply_eq handled
    exact .unchanged

theorem takeGetRequest_effect
    (handled : takeGetRequest server locals req = .ok (reply, after)) :
    Effect server after := by
  obtain ⟨⟨found, cache⟩, called, rest⟩ := bind_eq_ok.mp handled
  dsimp only at rest
  rcases onCache_cases called with
      ⟨missing, rfl, rfl⟩ | ⟨old, new, present, returned, rfl⟩
  · obtain ⟨-, -, rfl⟩ := Server.reply_eq rest
    rw [with_null missing]
    exact .unchanged
  · obtain ⟨address, size⟩ := found
    have step :
        old.Step
          (.get req.key
            (address.map fun address =>
              bytesFrom new.slabManager.byteAt address size)
            size)
          new :=
      bind_eq_ok.mpr ⟨_, returned, rfl⟩
    have effect := Effect.call_not_stored present step rfl
    cases address with
    | none =>
        obtain ⟨-, -, rfl⟩ := Server.reply_eq rest
        exact effect
    | some address =>
        obtain ⟨length, -, rest⟩ := bind_eq_ok.mp rest
        dsimp only at rest
        split at rest
        · obtain ⟨-, -, rfl⟩ := Server.reply_eq rest
          exact effect
        · cases rest

/-- Every request has one of the effects. -/
theorem handleRequest_effect
    (handled : handleRequest server locals buf req = .ok (reply, after)) :
    Effect server after := by
  unfold handleRequest at handled
  split at handled
  · exact handlePost_effect handled
  · obtain ⟨⟨code, cache⟩, called, rest⟩ := bind_eq_ok.mp handled
    have left : after = { server with globalCache := cache } := by
      dsimp only at rest
      split at rest
      · exact (Server.reply_eq rest).2.2
      · split at rest
        · exact (Server.reply_eq rest).2.2
        · cases rest
    rcases onCache_cases called with
        ⟨missing, -, rfl⟩ | ⟨old, new, present, returned, rfl⟩
    · rw [left, with_null missing]
      exact .unchanged
    · have step : old.Step (.delete req.key code) new :=
        bind_eq_ok.mpr ⟨_, returned, rfl⟩
      rw [left]
      exact .call_not_stored present step rfl
  · exact takeGetRequest_effect handled
  · obtain ⟨⟨code, cache⟩, called, rest⟩ := bind_eq_ok.mp handled
    have left :
        after =
          { server with
            globalCache := cache
            cacheHasBeenSet := server.cacheHasBeenSet || code == 0 } := by
      dsimp only at rest
      split at rest
      · rename_i isZero
        rw [(Server.reply_eq rest).2.2, isZero]
        simp
      · rename_i notZero
        rw [(Server.reply_eq rest).2.2]
        simp [notZero]
    rcases onCache_cases called with
        ⟨missing, rfl, rfl⟩ | ⟨old, new, present, returned, rfl⟩
    · have notStored : ((5 : UInt8) == 0) = false := by
        decide
      rw [left, notStored, Bool.or_false, with_null missing]
      exact .unchanged
    · have step :
          old.Step
            (.set req.key
              (fun position => bytesAt buf (req.value + position))
              (UInt32.ofNat req.size) code)
            new :=
        bind_eq_ok.mpr ⟨_, returned, rfl⟩
      rw [left]
      exact .call present step
  · rw [(Server.reply_eq handled).2.2]
    exact .unchanged
  · rw [(Server.reply_eq handled).2.2]
    exact .unchanged

theorem Server.Receives.effect
    {delivery : Delivery}
    (received : server.Receives delivery after) :
    Effect server after := by
  obtain ⟨req, -, handled⟩ := bind_eq_ok.mp received.2
  exact handleRequest_effect handled

end Effects

/-! ## Creating a cache -/

/-- POST /memsize creates a cache while nothing has been set. -/
theorem recv_memsize
    {server : Server}
    (unset : server.cacheHasBeenSet = false)
    (value : CString)
    (locals : Locals)
    (following : List UInt8) :
    ∃ reply,
      reply.head = ascii "201 Created" ∧
        recv server locals ((Form.memsize value).message following) =
          .ok (reply,
            server.createGlobal (intToUInt64 (atoi value.bytes))) := by
  let req := (Form.memsize value).request (value.length + 1)
  have isKey : req.key.bytes = ascii "memsize" := by
    dsimp only [req, Form.request, Form.key]
    decide
  have digits :
      CString.read
          (((Form.memsize value).message following).drop req.value) =
        value :=
    CString.read_append_nul value following
  have handled :
      handleRequest server locals ((Form.memsize value).message following)
          req =
        handlePost server locals ((Form.memsize value).message following)
          req :=
    rfl
  rw [recv_of_parsed
      ((Form.scannable_memsize value).parseRequest_value rfl locals
        following),
    handled, handlePost_eq, if_pos isKey, if_neg (by simp [unset]), digits,
    Server.reply_eq_ok]
  exact ⟨_, rfl, rfl⟩

/-- No cache, or one in which every bucket is empty. -/
def Server.HoldsNothing (server : Server) : Prop :=
  ∀ cache, server.globalCache = some cache →
    (∀ bucket ∈ cache.buckets, bucket = []) ∧ cache.numValues = 0

section Empty

variable {cache after : Cache}

/-- A call on an empty table that stores nothing leaves it empty. -/
theorem Cache.Step.sameTable
    {event : Event}
    (step : cache.Step event after)
    (noMetas : cache.metas = [])
    (notStored : event.stored = false) :
    SameTable cache after := by
  have missing := getMeta_of_no_metas noMetas
  have same : SameTable cache cache :=
    ⟨rfl, rfl, rfl, rfl, rfl⟩
  cases event with
  | get key value size =>
      obtain ⟨⟨found, next⟩, returned, rest⟩ := bind_eq_ok.mp step
      cases rest
      rcases cacheGet_cases returned with
          ⟨-, -, rfl⟩ | ⟨item, present, -⟩
      · exact same
      · rw [missing] at present
        cases present
  | delete key code =>
      obtain ⟨⟨result, next⟩, returned, rest⟩ := bind_eq_ok.mp step
      cases rest
      rcases cacheDelete_cases returned with
          ⟨-, -, rfl⟩ | ⟨item, slabManager, present, -⟩
      · exact same
      · rw [missing] at present
        cases present
  | set key val valSize code =>
      obtain ⟨⟨result, next⟩, returned, rest⟩ := bind_eq_ok.mp step
      cases rest
      have notZero : code ≠ 0 := by
        simpa [Event.stored] using notStored
      rcases cacheSet_cases returned with
          ⟨-, rfl⟩ | ⟨cleared, spaced, result, -, deletion, space, rest⟩
      · exact same
      rcases rest with ⟨-, -, rfl⟩ | ⟨address, -, -, isZero⟩
      swap
      · exact absurd isZero notZero
      rcases deleteOld_cases deletion with
          ⟨-, rfl⟩ | ⟨item, code, present, -⟩
      swap
      · rw [missing] at present
        cases present
      rcases makeSpace_cases space with
          ⟨address, search, -⟩ | ⟨searched, evicted, search, eviction, again⟩
      · exact freeSpace_sameTable search
      have searchedSame := freeSpace_sameTable search
      rcases cacheEvict_cases eviction with
          ⟨-, rfl⟩ | ⟨victim, code, found, -⟩
      · exact searchedSame.trans (freeSpace_sameTable again)
      · rw [searchedSame.findVictim, findVictim, noMetas] at found
        cases found

end Empty

/-- While nothing has been set, no value is held. -/
theorem holdsNothing_of_unset
    {blocks : Nat → Nat → Slab}
    {maxmem : UInt64}
    {history : List Delivery}
    {server : Server}
    (run :
      Run Server.Receives (Server.start blocks maxmem) history server)
    (unset : server.cacheHasBeenSet = false) :
    server.HoldsNothing := by
  have created
      (blocks : Nat → Slab) (maxmem : UInt64) (hasher : Option HashFunc) :
      ∀ bucket ∈ (createCache blocks maxmem hasher).buckets,
        bucket = [] :=
    fun bucket member => (List.mem_replicate.mp member).2
  induction run with
  | nil =>
      rintro cache ⟨⟩
      exact ⟨created _ _ _, rfl⟩
  | snoc earlier last inductionHypothesis =>
      cases last.effect with
      | unchanged =>
          exact inductionHypothesis unset
      | @call cache next event present step =>
          obtain ⟨wasUnset, notStored⟩ := Bool.or_eq_false_iff.mp unset
          obtain ⟨empty, zero⟩ :=
            inductionHypothesis wasUnset cache present
          have same :=
            step.sameTable (List.flatten_eq_nil_iff.mpr empty) notStored
          rintro _ ⟨⟩
          rw [same.buckets, same.numValues]
          exact ⟨empty, zero⟩
      | created _ maxmem =>
          rintro cache ⟨⟩
          exact ⟨created _ _ _, rfl⟩
      | destroyed exited =>
          rintro cache ⟨⟩

/--
POST /memsize never discards a value.  While `cache_has_been_set` is 0 the
server holds none, and the request is refused or replaces a cache without
values.
-/
theorem memsize_discards_nothing
    {blocks : Nat → Nat → Slab}
    {maxmem : UInt64}
    {history : List Delivery}
    {server : Server}
    (run :
      Run Server.Receives (Server.start blocks maxmem) history server) :
    (server.cacheHasBeenSet = false → server.HoldsNothing) ∧
      ∀ delivery after request,
        server.Receives delivery after →
        parseRequest delivery.locals delivery.buf = .ok request →
        request.requestType = .post →
        request.key.bytes = ascii "memsize" →
          (delivery.reply.head = ascii "500 Internal Server Error" ∧
              after.globalCache = server.globalCache) ∨
            (delivery.reply.head = ascii "201 Created" ∧
              server.HoldsNothing) := by
  refine ⟨holdsNothing_of_unset run, ?_⟩
  intro delivery after request received parsed isPost isMemsize
  obtain ⟨found, parsing, handled⟩ := bind_eq_ok.mp received.2
  rw [parsed, Except.ok.injEq] at parsing
  subst found
  rw [handleRequest, isPost] at handled
  dsimp only at handled
  rw [handlePost_eq, if_pos isMemsize] at handled
  split at handled
  · obtain ⟨head, -, rfl⟩ := Server.reply_eq handled
    exact Or.inl ⟨head, rfl⟩
  · rename_i notSet
    obtain ⟨head, -, -⟩ := Server.reply_eq handled
    exact Or.inr
      ⟨head, holdsNothing_of_unset run (by simpa using notSet)⟩

/--
After PUT /a/x, POST /memsize/1 is refused; after a shutdown it is not, and the
value is gone already.
-/
theorem memsize_discards_nothing_after_shutdown :
    ∃ history server delivery after,
      history.map Delivery.buf =
          [(Form.put (CString.ofText "a") (CString.ofText "x")).message [],
            (Form.memsize (CString.ofText "1")).message [],
            Form.shutdown.message [0]] ∧
        history.map (fun delivery => delivery.reply.head) =
          [ascii "204 No Content", ascii "500 Internal Server Error",
            ascii "204 No Content"] ∧
        Run Server.Receives (Server.start (fun _ => zeroBlocks) 0) history
          server ∧
        server.Receives delivery after ∧
        delivery.reply.head = ascii "201 Created" ∧
        server.HoldsNothing := by
  obtain ⟨⟨replies, server⟩, served, seen⟩ :=
    exists_of_returnsSuch (by
      decide +kernel :
      returnsSuch
        (sendRecv (Server.start (fun _ => zeroBlocks) 0)
          [(zeroLocals,
              (Form.put (CString.ofText "a") (CString.ofText "x")).message
                []),
            (zeroLocals, (Form.memsize (CString.ofText "1")).message []),
            (zeroLocals, Form.shutdown.message [0])])
        (fun result =>
          result.1.map Reply.head ==
              [ascii "204 No Content", ascii "500 Internal Server Error",
                ascii "204 No Content"] &&
            result.2.exited == false &&
            result.2.cacheHasBeenSet == false) = true)
  simp only [Bool.and_eq_true, beq_iff_eq] at seen
  obtain ⟨⟨heads, running⟩, unset⟩ := seen
  obtain ⟨history, run, isReplies, isMessages⟩ := run_of_sendRecv served
  have three : replies.length = 3 := by
    have lengths := congrArg List.length heads
    simpa using lengths
  obtain ⟨reply, isCreated, returned⟩ :=
    recv_memsize unset (CString.ofText "1") zeroLocals []
  have received :
      server.Receives
        ⟨zeroLocals, (Form.memsize (CString.ofText "1")).message [], reply⟩
        _ :=
    ⟨running, returned⟩
  refine ⟨history, server, _, _, ?_, ?_, run, received, isCreated, ?_⟩
  · have bufs := congrArg (List.map Prod.snd) isMessages
    rw [three, List.map_map] at bufs
    exact bufs
  · rw [← heads, ← isReplies, List.map_map]
    rfl
  · rcases (memsize_discards_nothing run).2 _ _ _ received
        ((Form.scannable_memsize _).parseRequest_value rfl _ _) rfl
        (by decide) with
        ⟨refused, -⟩ | ⟨-, nothing⟩
    · exact absurd (isCreated.symm.trans refused) (by decide)
    · exact nothing

end CacheBench
