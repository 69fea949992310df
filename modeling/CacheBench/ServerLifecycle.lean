import CacheBench.ServerRun

namespace CacheBench

open Execution

/-!
# When the server has a cache

The globals of `server.c` follow the messages received.  There is no cache
after a shutdown until the next `POST /memsize`, `cache_has_been_set` is up
after a value was stored until the next shutdown, and the server exits with the
second of two shutdowns that have no `POST /memsize` between them.  All of this
is about arbitrary messages: what counts is how `parse_request` reads them.
-/

namespace Delivery

/-- The message is parsed as `POST /memsize`. -/
def IsMemsize (delivery : Delivery) : Prop :=
  ∃ request,
    parseRequest delivery.locals delivery.buf = .ok request ∧
      request.requestType = .post ∧ request.key.bytes = ascii "memsize"

/-- The message is parsed as `POST /shutdown`. -/
def IsShutdown (delivery : Delivery) : Prop :=
  ∃ request,
    parseRequest delivery.locals delivery.buf = .ok request ∧
      request.requestType = .post ∧ request.key.bytes = ascii "shutdown"

/-- The message is parsed as a PUT, and the value was stored. -/
def Stores (delivery : Delivery) : Prop :=
  ∃ request,
    parseRequest delivery.locals delivery.buf = .ok request ∧
      request.requestType = .put ∧
      delivery.reply.head = ascii "204 No Content"

end Delivery

/-! ## One message -/

/-- What a message does to the cache and the two flags. -/
inductive Turn (server : Server) (delivery : Delivery) :
    Server → Prop where
  | created
      (isMemsize : delivery.IsMemsize)
      (unset : server.cacheHasBeenSet = false)
      (head : delivery.reply.head = ascii "201 Created")
      (maxmem : UInt64) :
      Turn server delivery (server.createGlobal maxmem)
  | refused
      (isMemsize : delivery.IsMemsize)
      (isSet : server.cacheHasBeenSet = true)
      (head : delivery.reply.head = ascii "500 Internal Server Error") :
      Turn server delivery server
  | closed
      {cache : Cache}
      (isShutdown : delivery.IsShutdown)
      (present : server.globalCache = some cache)
      (head : delivery.reply.head = ascii "204 No Content") :
      Turn server delivery
        { server with globalCache := none, cacheHasBeenSet := false }
  | aborted
      (isShutdown : delivery.IsShutdown)
      (missing : server.globalCache = none)
      (head : delivery.reply.head = ascii "500 Internal Server Error") :
      Turn server delivery
        { server with
          globalCache := none
          cacheHasBeenSet := false
          exited := true }
  | stored
      {cache : Cache}
      (stores : delivery.Stores)
      (present : server.globalCache = some cache)
      (next : Cache) :
      Turn server delivery
        { server with
          globalCache := some next
          cacheHasBeenSet := true }
  | other
      {after : Server}
      (notMemsize : ¬ delivery.IsMemsize)
      (notShutdown : ¬ delivery.IsShutdown)
      (notStored : ¬ delivery.Stores)
      (sameCache : after.globalCache = none ↔ server.globalCache = none)
      (sameSet : after.cacheHasBeenSet = server.cacheHasBeenSet)
      (sameExited : after.exited = server.exited) :
      Turn server delivery after

section Turns

variable {server after : Server} {delivery : Delivery} {request : Request}

/-- A message has one reading. -/
theorem parsed_unique
    {Reads : Request → Prop}
    (parsed : parseRequest delivery.locals delivery.buf = .ok request)
    (reads :
      ∃ other,
        parseRequest delivery.locals delivery.buf = .ok other ∧
          Reads other) :
    Reads request := by
  obtain ⟨other, otherParsed, holds⟩ := reads
  rw [parsed, Except.ok.injEq] at otherParsed
  exact otherParsed ▸ holds

/-- The cache a call leaves is there exactly if one was. -/
theorem onCache_null_iff
    {α : Type}
    {cache next : Option Cache}
    {null result : α}
    {call : Cache → Outcome (α × Cache)}
    (called : onCache cache null call = .ok (result, next)) :
    next = none ↔ cache = none := by
  rcases onCache_cases called with
      ⟨rfl, -, rfl⟩ | ⟨old, new, rfl, -, rfl⟩ <;>
    simp

/-- `handle_request` for messages other than POST and PUT. -/
theorem handleRequest_keeps
    {locals : Locals}
    {buf : List UInt8}
    {reply : Reply}
    (notPost : request.requestType ≠ .post)
    (notPut : request.requestType ≠ .put)
    (handled :
      handleRequest server locals buf request = .ok (reply, after)) :
    (after.globalCache = none ↔ server.globalCache = none) ∧
      after.cacheHasBeenSet = server.cacheHasBeenSet ∧
      after.exited = server.exited := by
  unfold handleRequest at handled
  split at handled
  · exact absurd ‹_› notPost
  · obtain ⟨⟨code, cache⟩, called, rest⟩ := bind_eq_ok.mp handled
    have left : after = { server with globalCache := cache } := by
      dsimp only at rest
      split at rest
      · exact (Server.reply_eq rest).2.2
      · split at rest
        · exact (Server.reply_eq rest).2.2
        · cases rest
    subst left
    exact ⟨onCache_null_iff called, rfl, rfl⟩
  · obtain ⟨⟨found, cache⟩, called, rest⟩ := bind_eq_ok.mp handled
    have left : after = { server with globalCache := cache } := by
      dsimp only at rest
      split at rest
      · obtain ⟨length, -, rest⟩ := bind_eq_ok.mp rest
        split at rest
        · exact (Server.reply_eq rest).2.2
        · cases rest
      · exact (Server.reply_eq rest).2.2
    subst left
    exact ⟨onCache_null_iff called, rfl, rfl⟩
  · exact absurd ‹_› notPut
  · obtain ⟨-, -, rfl⟩ := Server.reply_eq handled
    exact ⟨.rfl, rfl, rfl⟩
  · obtain ⟨-, -, rfl⟩ := Server.reply_eq handled
    exact ⟨.rfl, rfl, rfl⟩

/-- What a POST does. -/
theorem turn_of_post
    (parsed : parseRequest delivery.locals delivery.buf = .ok request)
    (isPost : request.requestType = .post)
    (handled :
      handlePost server delivery.locals delivery.buf request =
        .ok (delivery.reply, after)) :
    Turn server delivery after := by
  have notStored : ¬ delivery.Stores := by
    intro stores
    obtain ⟨isPut, -⟩ := parsed_unique parsed stores
    rw [isPost] at isPut
    cases isPut
  rw [handlePost_eq] at handled
  split_ifs at handled with isMemsize isSet isShutdown destroyed
  · obtain ⟨head, -, rfl⟩ := Server.reply_eq handled
    exact .refused ⟨request, parsed, isPost, isMemsize⟩ isSet head
  · obtain ⟨head, -, rfl⟩ := Server.reply_eq handled
    exact .created ⟨request, parsed, isPost, isMemsize⟩
      (by simpa using isSet) head _
  · cases present : server.globalCache with
    | none =>
        simp [present, destroyCache] at destroyed
    | some cache =>
        obtain ⟨head, -, rfl⟩ := Server.reply_eq handled
        exact .closed ⟨request, parsed, isPost, isShutdown⟩ present head
  · cases present : server.globalCache with
    | none =>
        obtain ⟨⟨sent, replied⟩, replying, rest⟩ := bind_eq_ok.mp handled
        obtain ⟨head, -, rfl⟩ := Server.reply_eq replying
        cases rest
        exact .aborted ⟨request, parsed, isPost, isShutdown⟩ present head
    | some cache =>
        simp [present, destroyCache] at destroyed
  · obtain ⟨-, -, rfl⟩ := Server.reply_eq handled
    refine .other ?_ ?_ notStored .rfl rfl rfl
    · intro asked
      exact isMemsize (parsed_unique parsed asked).2
    · intro asked
      exact isShutdown (parsed_unique parsed asked).2

/-- What a PUT does. -/
theorem turn_of_put
    (parsed : parseRequest delivery.locals delivery.buf = .ok request)
    (isPut : request.requestType = .put)
    (handled :
      handleRequest server delivery.locals delivery.buf request =
        .ok (delivery.reply, after)) :
    Turn server delivery after := by
  have notPost : request.requestType ≠ .post := by
    rw [isPut]
    decide
  rw [handleRequest, isPut] at handled
  obtain ⟨⟨code, cache⟩, called, rest⟩ := bind_eq_ok.mp handled
  dsimp only at rest
  by_cases isZero : code = 0
  · rw [if_pos isZero] at rest
    obtain ⟨head, -, rfl⟩ := Server.reply_eq rest
    rcases onCache_cases called with
        ⟨-, isFive, -⟩ | ⟨old, new, present, -, rfl⟩
    · rw [isZero] at isFive
      exact absurd isFive (by decide)
    · exact .stored ⟨request, parsed, isPut, head⟩ present new
  · rw [if_neg isZero] at rest
    obtain ⟨head, -, rfl⟩ := Server.reply_eq rest
    refine .other ?_ ?_ ?_ (onCache_null_iff called) rfl rfl
    · intro asked
      exact notPost (parsed_unique parsed asked).1
    · intro asked
      exact notPost (parsed_unique parsed asked).1
    · intro stores
      have otherHead := (parsed_unique parsed stores).2
      rw [head] at otherHead
      exact absurd otherHead (by decide)

theorem Server.Receives.turn
    (received : server.Receives delivery after) :
    Turn server delivery after := by
  obtain ⟨request, parsed, handled⟩ := bind_eq_ok.mp received.2
  by_cases isPost : request.requestType = .post
  · rw [handleRequest, isPost] at handled
    exact turn_of_post parsed isPost handled
  by_cases isPut : request.requestType = .put
  · exact turn_of_put parsed isPut handled
  · obtain ⟨sameCache, sameSet, sameExited⟩ :=
      handleRequest_keeps isPost isPut handled
    refine .other ?_ ?_ ?_ sameCache sameSet sameExited
    · intro asked
      exact isPost (parsed_unique parsed asked).1
    · intro asked
      exact isPost (parsed_unique parsed asked).1
    · intro stores
      exact isPut (parsed_unique parsed stores).1

/-- The readings exclude each other. -/
theorem Delivery.IsMemsize.not_shutdown
    (isMemsize : delivery.IsMemsize) :
    ¬ delivery.IsShutdown := by
  obtain ⟨request, parsed, -, isKey⟩ := isMemsize
  intro asked
  have other := (parsed_unique parsed asked).2
  rw [isKey] at other
  exact absurd other (by decide)

theorem Delivery.Stores.not_post
    (stores : delivery.Stores) :
    ¬ delivery.IsMemsize ∧ ¬ delivery.IsShutdown := by
  obtain ⟨request, parsed, isPut, -⟩ := stores
  have notPost {key : List UInt8} :
      ¬ (request.requestType = .post ∧ request.key.bytes = key) := by
    rw [isPut]
    exact fun isPost => absurd isPost.1 (by decide)
  exact ⟨fun asked => notPost (parsed_unique parsed asked),
    fun asked => notPost (parsed_unique parsed asked)⟩

end Turns

/-! ## Whole runs -/

/-- No cache: a shutdown, and no `POST /memsize` since. -/
def Down : List Delivery → Prop :=
  Since (fun delivery => ¬ delivery.IsMemsize) Delivery.IsShutdown

/-- In use: a value stored, and no shutdown since. -/
def InUse : List Delivery → Prop :=
  Since (fun delivery => ¬ delivery.IsShutdown) Delivery.Stores

/-- The globals of the server follow from its history. -/
structure LifeOf (history : List Delivery) (server : Server) : Prop where
  down : server.globalCache = none ↔ Down history
  inUse : server.cacheHasBeenSet = true ↔ InUse history
  exited :
    server.exited = true ↔
      ∃ earlier last,
        history = earlier ++ [last] ∧ Down earlier ∧ last.IsShutdown
  notBoth : server.globalCache = none → server.cacheHasBeenSet = false

section Runs

variable {server after : Server} {history : List Delivery}
variable {delivery : Delivery}

/-- The last message decides, or leaves things as they were. -/
theorem down_snoc :
    Down (history ++ [delivery]) ↔
      delivery.IsShutdown ∨ (Down history ∧ ¬ delivery.IsMemsize) :=
  since_snoc_iff

theorem inUse_snoc :
    InUse (history ++ [delivery]) ↔
      delivery.Stores ∨ (InUse history ∧ ¬ delivery.IsShutdown) :=
  since_snoc_iff

theorem exists_last_snoc {Holds : List Delivery → Delivery → Prop} :
    (∃ earlier last,
      history ++ [delivery] = earlier ++ [last] ∧ Holds earlier last) ↔
      Holds history delivery := by
  constructor
  · rintro ⟨earlier, last, shape, holds⟩
    rw [← List.concat_eq_append, ← List.concat_eq_append] at shape
    obtain ⟨rfl, rfl⟩ := List.concat_inj.mp shape
    exact holds
  · intro holds
    exact ⟨history, delivery, rfl, holds⟩

/-- Every message keeps the globals in step with the history. -/
theorem LifeOf.turn
    (life : LifeOf history server)
    (running : server.exited = false)
    (turn : Turn server delivery after) :
    LifeOf (history ++ [delivery]) after := by
  obtain ⟨down, inUse, -, notBoth⟩ := life
  cases turn with
  | created isMemsize unset head maxmem =>
      have notShutdown := isMemsize.not_shutdown
      have notStores : ¬ delivery.Stores := fun stores =>
        stores.not_post.1 isMemsize
      have notInUse : ¬ InUse history := by
        rw [← inUse, unset]
        decide
      refine ⟨?_, ?_, ?_, ?_⟩
      · simp [down_snoc, Server.createGlobal, notShutdown, isMemsize]
      · simp [inUse_snoc, Server.createGlobal, unset, notStores, notInUse]
      · rw [exists_last_snoc]
        simp [Server.createGlobal, running, notShutdown]
      · simp [Server.createGlobal]
  | refused isMemsize isSet head =>
      have notShutdown := isMemsize.not_shutdown
      have isInUse := inUse.mp isSet
      have present : server.globalCache ≠ none := by
        intro missing
        rw [notBoth missing] at isSet
        cases isSet
      refine ⟨?_, ?_, ?_, notBoth⟩
      · simp [down_snoc, present, notShutdown, isMemsize]
      · simp [inUse_snoc, isSet, isInUse, notShutdown]
      · rw [exists_last_snoc]
        simp [running, notShutdown]
  | closed isShutdown present head =>
      have notStores : ¬ delivery.Stores := fun stores =>
        stores.not_post.2 isShutdown
      have notDown : ¬ Down history := by
        rw [← down, present]
        simp
      refine ⟨?_, ?_, ?_, fun _ => rfl⟩
      · simp [down_snoc, isShutdown]
      · simp [inUse_snoc, notStores, isShutdown]
      · rw [exists_last_snoc]
        simp [running, notDown]
  | aborted isShutdown missing head =>
      have notStores : ¬ delivery.Stores := fun stores =>
        stores.not_post.2 isShutdown
      refine ⟨?_, ?_, ?_, fun _ => rfl⟩
      · simp [down_snoc, isShutdown]
      · simp [inUse_snoc, notStores, isShutdown]
      · rw [exists_last_snoc]
        simp [down.mp missing, isShutdown]
  | stored stores present next =>
      obtain ⟨notMemsize, notShutdown⟩ := stores.not_post
      have notDown : ¬ Down history := by
        rw [← down, present]
        simp
      refine ⟨?_, ?_, ?_, ?_⟩
      · simp [down_snoc, notShutdown, notDown]
      · simp [inUse_snoc, stores]
      · rw [exists_last_snoc]
        simp [running, notShutdown]
      · simp
  | other notMemsize notShutdown notStored sameCache sameSet sameExited =>
      refine ⟨?_, ?_, ?_, ?_⟩
      · simp [down_snoc, sameCache, down, notMemsize, notShutdown]
      · simp [inUse_snoc, sameSet, inUse, notStored, notShutdown]
      · rw [exists_last_snoc]
        simp [sameExited, running, notShutdown]
      · rw [sameCache, sameSet]
        exact notBoth

/-- The globals follow the history of every run. -/
theorem lifeOf_run
    {blocks : Nat → Nat → Slab}
    {maxmem : UInt64}
    (run :
      Run Server.Receives (Server.start blocks maxmem) history server) :
    LifeOf history server := by
  induction run with
  | nil =>
      refine ⟨?_, ?_, ?_, ?_⟩
      · simpa [Server.start, Server.createGlobal, Down] using not_since_nil
      · simpa [Server.start, Server.createGlobal, InUse] using not_since_nil
      · simp [Server.start, Server.createGlobal]
      · simp [Server.start, Server.createGlobal]
  | snoc earlier last inductionHypothesis =>
      exact inductionHypothesis.turn last.1 last.turn

/--
After any messages, the server has no cache exactly if it is down, it has
marked the cache as set exactly if it is in use, and it has exited exactly if
the last message was a shutdown while it was down.  The next `POST /memsize`
creates a cache exactly if the server is not in use, and the next shutdown
succeeds exactly if it is not down.
-/
theorem lifecycle_of_history
    {blocks : Nat → Nat → Slab}
    {maxmem : UInt64}
    (run :
      Run Server.Receives (Server.start blocks maxmem) history server) :
    LifeOf history server ∧
      ∀ delivery after, server.Receives delivery after →
        (delivery.IsMemsize →
          (InUse history ∧
              delivery.reply.head = ascii "500 Internal Server Error" ∧
              after = server) ∨
            (¬ InUse history ∧
              delivery.reply.head = ascii "201 Created" ∧
              ∃ maxmem, after = server.createGlobal maxmem)) ∧
          (delivery.IsShutdown →
            (Down history ∧
                delivery.reply.head = ascii "500 Internal Server Error" ∧
                after.exited = true) ∨
              (¬ Down history ∧
                delivery.reply.head = ascii "204 No Content" ∧
                after.exited = false)) := by
  have life := lifeOf_run run
  refine ⟨life, ?_⟩
  intro delivery after received
  have running := received.1
  rw [← life.inUse, ← life.down]
  cases received.turn with
  | created isMemsize unset head maxmem =>
      refine ⟨fun _ => Or.inr ⟨by simp [unset], head, maxmem, rfl⟩, ?_⟩
      intro isShutdown
      exact absurd isShutdown isMemsize.not_shutdown
  | refused isMemsize isSet head =>
      refine ⟨fun _ => Or.inl ⟨isSet, head, rfl⟩, ?_⟩
      intro isShutdown
      exact absurd isShutdown isMemsize.not_shutdown
  | closed isShutdown present head =>
      refine ⟨fun isMemsize => absurd isShutdown isMemsize.not_shutdown,
        fun _ => Or.inr ⟨by simp [present], head, running⟩⟩
  | aborted isShutdown missing head =>
      exact ⟨fun isMemsize => absurd isShutdown isMemsize.not_shutdown,
        fun _ => Or.inl ⟨missing, head, rfl⟩⟩
  | stored stores present next =>
      exact ⟨fun isMemsize => absurd isMemsize stores.not_post.1,
        fun isShutdown => absurd isShutdown stores.not_post.2⟩
  | other notMemsize notShutdown notStored sameCache sameSet sameExited =>
      exact ⟨fun isMemsize => absurd isMemsize notMemsize,
        fun isShutdown => absurd isShutdown notShutdown⟩

end Runs

/-- Two shutdowns in a row end the server. -/
theorem lifecycle_of_two_shutdowns :
    ∃ first second middle after,
      Run Server.Receives (Server.start (fun _ => zeroBlocks) 0)
          [first] middle ∧
        middle.Receives second after ∧
        first.IsShutdown ∧ second.IsShutdown ∧
        middle.globalCache = none ∧
        second.reply.head = ascii "500 Internal Server Error" ∧
        after.exited = true := by
  obtain ⟨⟨firstReply, middle⟩, firstReceived, seen⟩ :=
    exists_of_returnsSuch (by
      decide +kernel :
      returnsSuch
        (recv (Server.start (fun _ => zeroBlocks) 0) zeroLocals
          (Form.shutdown.message [0]))
        (fun first =>
          first.2.exited == false &&
            returnsSuch
              (recv first.2 zeroLocals (Form.shutdown.message [0]))
              (fun _ => true)) = true)
  simp only [Bool.and_eq_true, beq_iff_eq] at seen
  obtain ⟨running, seen⟩ := seen
  obtain ⟨⟨secondReply, after⟩, secondReceived, -⟩ :=
    exists_of_returnsSuch seen
  let delivery (reply : Reply) : Delivery :=
    ⟨zeroLocals, Form.shutdown.message [0], reply⟩
  have isShutdown (reply : Reply) : (delivery reply).IsShutdown := by
    obtain ⟨request, parsed, isRequest⟩ :=
      exists_of_returnsSuch (by
        decide +kernel :
        returnsSuch (parseRequest zeroLocals (Form.shutdown.message [0]))
          (fun request =>
            request.requestType == .post &&
              request.key.bytes == ascii "shutdown") = true)
    simp only [Bool.and_eq_true, beq_iff_eq] at isRequest
    exact ⟨request, parsed, isRequest⟩
  have run :
      Run Server.Receives (Server.start (fun _ => zeroBlocks) 0)
        ([] ++ [delivery firstReply]) middle :=
    Run.nil.snoc ⟨rfl, firstReceived⟩
  have received : middle.Receives (delivery secondReply) after :=
    ⟨running, secondReceived⟩
  obtain ⟨life, answers⟩ := lifecycle_of_history run
  have down : Down ([] ++ [delivery firstReply]) :=
    since_of_holds [] (isShutdown firstReply)
  rcases (answers _ _ received).2 (isShutdown secondReply) with
      ⟨-, head, exited⟩ | ⟨notDown, -⟩
  · exact ⟨_, _, middle, after, run, received, isShutdown firstReply,
      isShutdown secondReply, life.down.mpr down, head, exited⟩
  · exact absurd down notDown

end CacheBench
