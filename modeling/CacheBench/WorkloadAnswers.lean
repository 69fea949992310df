import CacheBench.RequestScan
import CacheBench.ServerLifecycle
import CacheBench.WorkloadRuns

namespace CacheBench.Workload

open RequestReply Execution

/-!
# What the workload receives

A server that serves only the workload keeps its cache and goes on: none of the
requests is a shutdown.  Each request is answered as the sequential run of the
server answers it, so that a hit carries the value of a PUT the workload has
sent before.
-/

/-! ## A server that serves -/

/-- The server has a cache that stands for a map, and goes on. -/
structure Serving (server : Server) : Prop where
  ok : ServerOk server
  running : server.exited = false
  present : ∃ cache, server.globalCache = some cache

/-- What the server answers a request of the workload with. -/
inductive Answers (server : Server) : Ask → Reply → Prop where
  | created
      {reply : Reply}
      (head : reply.head = ascii "201 Created") :
      Answers server .memsize reply
  | kept
      {reply : Reply}
      (isSet : server.cacheHasBeenSet = true)
      (head : reply.head = ascii "500 Internal Server Error") :
      Answers server .memsize reply
  | stored
      {number : UInt64}
      {size : Nat}
      {reply : Reply}
      (head : reply.head = ascii "204 No Content") :
      Answers server (.put number size) reply
  | full
      {number : UInt64}
      {size : Nat}
      {reply : Reply}
      (head : reply.head = ascii "500 Internal Server Error") :
      Answers server (.put number size) reply
  | hit
      {number : UInt64}
      {value : CString}
      {reply : Reply}
      (head : reply.head = ascii "200 OK")
      (body :
        reply.body = getBody (decimal number.toNat) value.bytes)
      (holds :
        server.contents (decimalString number.toNat) =
          some (value.bytes ++ [0])) :
      Answers server (.get number) reply
  | miss
      {number : UInt64}
      {reply : Reply}
      (head : reply.head = ascii "204 No Content")
      (body : reply.body = notFoundText) :
      Answers server (.get number) reply

section Serving

variable {server after : Server} {locals : Locals}
variable {buf : List UInt8} {request : Request}

/-- A get is answered from the contents. -/
theorem Serving.handles_get
    (serving : Serving server)
    {number : UInt64}
    (parsed : Parsed (Ask.get number).form buf request) :
    ∃ reply after,
      handleRequest server locals buf request = .ok (reply, after) ∧
        Answers server (.get number) reply := by
  obtain ⟨cache, present⟩ := serving.present
  have mapOk := serving.ok.mapOk cache present
  have isGet : request.requestType = .get := parsed.requestType
  have isKey : request.key = decimalString number.toNat := parsed.key
  cases search : getMeta cache request.key with
  | none =>
      rw [handleRequest_get_miss isGet present search, Server.reply_eq_ok]
      exact ⟨_, _, rfl, .miss rfl rfl⟩
  | some item =>
      have isEntry := contents_of_getMeta search
      obtain ⟨string, isString⟩ := mapOk.strings isEntry
      rw [handleRequest_get_hit isGet present
        (mapOk.ok.cacheGet search isString) isString, Server.reply_eq_ok]
      have body :
          getBody request.key.bytes string.bytes =
            getBody (decimal number.toNat) string.bytes := by
        rw [isKey]
        rfl
      refine ⟨_, _, rfl, .hit rfl body ?_⟩
      rw [Server.contents_of_some present, ← isKey, isEntry, isString]

/-- A put is stored or refused. -/
theorem Serving.handles_put
    (serving : Serving server)
    {number : UInt64}
    {size : Nat}
    (valid : (Ask.put number size).form.Valid)
    (parsed : Parsed (Ask.put number size).form buf request) :
    ∃ reply after,
      handleRequest server locals buf request = .ok (reply, after) ∧
        Answers server (.put number size) reply := by
  obtain ⟨cache, present⟩ := serving.present
  have mapOk := serving.ok.mapOk cache present
  have isSize : request.size = (filling size).length + 1 :=
    parsed.size _ rfl
  have small : (filling size).length + 1 ≤ 2 ^ 20 := by
    have bounded := valid.bounded
    simp only [Ask.form, Form.text, Form.tail, Form.value, Form.method,
      Form.key, List.length_append, List.length_cons] at bounded
    rw [CString.length]
    omega
  have bounded : (UInt32.ofNat request.size).toNat ≤ 2 ^ 20 := by
    rw [UInt32.toNat_ofNat', Nat.mod_eq_of_lt (by omega), isSize]
    exact small
  obtain ⟨code, next, returned, -, -⟩ :=
    mapOk.ok.cacheSet request.key
      (fun position => bytesAt buf (request.value + position)) bounded
  rw [handleRequest_put parsed.requestType present returned]
  split
  · rw [Server.reply_eq_ok]
    exact ⟨_, _, rfl, .stored rfl⟩
  · rw [Server.reply_eq_ok]
    exact ⟨_, _, rfl, .full rfl⟩

/-- The POST creates a cache unless a value has been set. -/
theorem handles_memsize
    (parsed : Parsed Ask.memsize.form buf request) :
    ∃ reply after,
      handleRequest server locals buf request = .ok (reply, after) ∧
        Answers server .memsize reply := by
  have isPost : request.requestType = .post := parsed.requestType
  have isKey : request.key.bytes = ascii "memsize" := by
    rw [parsed.key]
    decide
  rw [handleRequest, isPost]
  dsimp only
  rw [handlePost_eq, if_pos isKey]
  split
  · rename_i isSet
    rw [Server.reply_eq_ok]
    exact ⟨_, _, rfl, .kept isSet rfl⟩
  · rw [Server.reply_eq_ok]
    exact ⟨_, _, rfl, .created rfl⟩

/-- Every request of the workload is answered once it is parsed. -/
theorem Serving.handles
    (serving : Serving server)
    {ask : Ask}
    (valid : ask.form.Valid)
    (parsed : Parsed ask.form buf request) :
    ∃ reply after,
      handleRequest server locals buf request = .ok (reply, after) ∧
        Answers server ask reply := by
  cases ask with
  | memsize => exact handles_memsize parsed
  | put number size => exact serving.handles_put valid parsed
  | get number => exact serving.handles_get parsed

/-- What a step of the server answers. -/
theorem Serving.answers
    (serving : Serving server)
    {ask : Ask}
    {reply : Reply}
    (valid : ask.form.Valid)
    (step : server.Step ⟨ask.form, reply⟩ after) :
    Answers server ask reply := by
  obtain ⟨-, locals, following, received⟩ := step
  obtain ⟨request, parsing, handled⟩ := bind_eq_ok.mp received
  obtain ⟨expected, left, returned, answers⟩ :=
    serving.handles valid (parseRequest_form valid parsing)
  rw [handled] at returned
  cases returned
  exact answers

/-- A message that is no shutdown leaves a cache where there is one. -/
theorem keeps_cache_of_turn
    {delivery : Delivery}
    (turn : Turn server delivery after)
    (notShutdown : ¬ delivery.IsShutdown)
    {cache : Cache}
    (present : server.globalCache = some cache) :
    (∃ next, after.globalCache = some next) ∧
      after.exited = server.exited := by
  cases turn with
  | created isMemsize unset head maxmem => exact ⟨⟨_, rfl⟩, rfl⟩
  | refused isMemsize isSet head => exact ⟨⟨_, present⟩, rfl⟩
  | closed isShutdown => exact absurd isShutdown notShutdown
  | aborted isShutdown => exact absurd isShutdown notShutdown
  | stored stores present next => exact ⟨⟨_, rfl⟩, rfl⟩
  | other notMemsize notShutdown notStored sameCache sameSet sameExited =>
      refine ⟨Option.ne_none_iff_exists'.mp ?_, sameExited⟩
      rw [Ne, sameCache, present]
      exact Option.some_ne_none cache

/-- No request of the workload is parsed as a shutdown. -/
theorem not_shutdown
    {ask : Ask}
    (valid : ask.form.Valid)
    {delivery : Delivery}
    {following : List UInt8}
    (isMessage : delivery.buf = ask.form.message following) :
    ¬ delivery.IsShutdown := by
  rintro ⟨request, parsing, isPost, isKey⟩
  rw [isMessage] at parsing
  have parsed := parseRequest_form valid parsing
  cases ask with
  | memsize =>
      rw [parsed.key] at isKey
      exact absurd isKey (by decide)
  | put number size =>
      rw [parsed.requestType] at isPost
      cases isPost
  | get number =>
      rw [parsed.requestType] at isPost
      cases isPost

/-- Every request of the workload leaves a server that serves. -/
theorem Serving.step
    (serving : Serving server)
    {ask : Ask}
    {reply : Reply}
    (valid : ask.form.Valid)
    (step : server.Step ⟨ask.form, reply⟩ after) :
    Serving after := by
  obtain ⟨answer, sameBlocks⟩ := Server.Step.answer valid step
  obtain ⟨cache, present⟩ := serving.present
  obtain ⟨running, locals, following, received⟩ := step
  have receives :
      server.Receives ⟨locals, ask.form.message following, reply⟩ after :=
    ⟨running, received⟩
  obtain ⟨stillPresent, sameExited⟩ :=
    keeps_cache_of_turn receives.turn (not_shutdown valid rfl) present
  exact ⟨(answer.entry serving.ok valid sameBlocks).1,
    sameExited.trans running, stillPresent⟩

end Serving

/-! ## Replies -/

/--
What the workload receives for a request, given the exchanges before it: the
value of a hit was stored by the latest PUT of the key that succeeded.
-/
inductive AnswerTo (earlier : List Exchange) : Ask → Reply → Prop where
  | created
      {reply : Reply}
      (head : reply.head = ascii "201 Created") :
      AnswerTo earlier .memsize reply
  | stored
      {number : UInt64}
      {size : Nat}
      {reply : Reply}
      (head : reply.head = ascii "204 No Content") :
      AnswerTo earlier (.put number size) reply
  | full
      {number : UInt64}
      {size : Nat}
      {reply : Reply}
      (head : reply.head = ascii "500 Internal Server Error") :
      AnswerTo earlier (.put number size) reply
  | hit
      {number : UInt64}
      {size : Nat}
      {reply : Reply}
      (head : reply.head = ascii "200 OK")
      (body :
        reply.body =
          getBody (decimal number.toNat) (List.replicate size 41))
      (latest :
        Since
          (fun exchange => ¬ exchange.Ends (decimalString number.toNat))
          (fun exchange =>
            exchange.Stores (decimalString number.toNat) (filling size))
          earlier) :
      AnswerTo earlier (.get number) reply
  | miss
      {number : UInt64}
      {reply : Reply}
      (head : reply.head = ascii "204 No Content")
      (body : reply.body = notFoundText) :
      AnswerTo earlier (.get number) reply

/-- The exchange is about a request of the workload. -/
def Asked (exchange : Exchange) : Prop :=
  ∃ ask : Ask, exchange.form = ask.form ∧ ask.form.Valid

section Replies

variable {blocks : Nat → Nat → Slab} {maxmem : UInt64} {server : Server}
variable {history : List Action} {system : System}
variable {exchanges : List Exchange}

theorem Explained.asked
    (explained : Explained server history system exchanges)
    {exchange : Exchange}
    (member : exchange ∈ exchanges) :
    Asked exchange := by
  have isForm := List.mem_map_of_mem (f := Exchange.form) member
  rw [explained.forms] at isForm
  obtain ⟨ask, isAsk, sameForm⟩ :=
    List.mem_map.mp (List.mem_of_mem_take isForm)
  obtain ⟨index, isAsk⟩ := List.mem_iff_getElem?.mp isAsk
  exact ⟨ask, sameForm.symm, (explained.sent.request isAsk).1⟩

/-- The server answers the requests in the order they were sent. -/
theorem Explained.form_eq
    (explained : Explained server history system exchanges)
    {index : Nat}
    {ask : Ask}
    {exchange : Exchange}
    (isAsk : (sentRequests history)[index]? = some ask)
    (isExchange : exchanges[index]? = some exchange) :
    exchange.form = ask.form := by
  have inside := (List.getElem?_eq_some_iff.mp isExchange).1
  have sameForm := congrArg (·[index]?) explained.forms
  simp only [List.getElem?_map, isExchange, Option.map_some,
    List.getElem?_take_of_lt inside, isAsk, Option.some.injEq] at sameForm
  exact sameForm

theorem serving_of_run
    (disjoint : ∀ number, DisjointBlocks (blocks number))
    (run : Run Server.Step (Server.start blocks maxmem) exchanges server)
    (asked : ∀ exchange ∈ exchanges, Asked exchange) :
    Serving server := by
  have started : Serving (Server.start blocks maxmem) :=
    ⟨(contents_since disjoint .nil (by simp)).1, rfl, _, rfl⟩
  refine run.invariant Serving started ?_ asked
  rintro before ⟨form, reply⟩ after serving ⟨ask, sameForm, valid⟩ step
  subst sameForm
  exact serving.step valid step

/-- A value that was stored is a filling the workload has sent. -/
theorem exists_filling
    (asked : ∀ exchange ∈ exchanges, Asked exchange)
    {keeps : Exchange → Prop}
    {key value : CString}
    (latest :
      Since keeps (fun exchange => exchange.Stores key value) exchanges) :
    ∃ size, value = filling size := by
  obtain ⟨earlier, exchange, later, rfl, stores, -⟩ := latest
  obtain ⟨ask, sameForm, -⟩ := asked exchange (by simp)
  have isPut : ask.form = .put key value := sameForm.symm.trans stores.1
  cases ask with
  | memsize => cases isPut
  | put number size =>
      cases isPut
      exact ⟨size, rfl⟩
  | get number => cases isPut

theorem Explained.answerTo
    (disjoint : ∀ number, DisjointBlocks (blocks number))
    (explained :
      Explained (Server.start blocks maxmem) history system exchanges)
    {index : Nat}
    {ask : Ask}
    {exchange : Exchange}
    (isAsk : (sentRequests history)[index]? = some ask)
    (isExchange : exchanges[index]? = some exchange) :
    AnswerTo (exchanges.take index) ask exchange.reply := by
  obtain ⟨valid, onlyFirst⟩ := explained.sent.request isAsk
  have sameForm := explained.form_eq isAsk isExchange
  obtain ⟨inside, isExchange⟩ := List.getElem?_eq_some_iff.mp isExchange
  -- The server as it was when it received the request.
  have split :
      exchanges.take index ++ exchange :: exchanges.drop (index + 1) =
        exchanges := by
    rw [← isExchange, List.cons_getElem_drop_succ, List.take_append_drop]
  have run := explained.run
  rw [← split] at run
  obtain ⟨before, after, earlierRun, step, -⟩ := run.exists_at
  have asked : ∀ earlier ∈ exchanges.take index, Asked earlier :=
    fun earlier member => explained.asked (List.mem_of_mem_take member)
  have serving := serving_of_run disjoint earlierRun asked
  obtain ⟨form, reply⟩ := exchange
  subst sameForm
  cases serving.answers valid step with
  | created head => exact .created head
  | kept isSet head =>
      -- Nothing has been set when the first request comes.
      rw [onlyFirst rfl, List.take_zero] at earlierRun
      have unset : before.cacheHasBeenSet = false :=
        earlierRun.invariant (fun server => server.cacheHasBeenSet = false)
          rfl (fun _ (never : False) _ => never.elim) (by simp)
      rw [unset] at isSet
      cases isSet
  | stored head => exact .stored head
  | full head => exact .full head
  | miss head body => exact .miss head body
  | hit head body holds =>
      obtain ⟨-, since⟩ := contents_since disjoint earlierRun
        fun earlier member => by
          obtain ⟨other, otherForm, otherValid⟩ := asked earlier member
          exact otherForm ▸ otherValid
      obtain ⟨string, sameBytes, latest⟩ := since _ _ holds
      have sameString : string = _ :=
        CString.ext (List.append_cancel_right sameBytes).symm
      subst sameString
      obtain ⟨size, rfl⟩ := exists_filling asked latest
      exact .hit head body latest

/--
Whatever the interleaving, the requests sent and a run of the server alone
explain it, and each reply the workload has received answers the request sent
at the same place: the POST creates the cache, a PUT is stored or refused, and
a GET misses or brings the value of the latest PUT of its key that was stored.
-/
theorem replies_answer_requests
    (disjoint : ∀ number, DisjointBlocks (blocks number))
    (run :
      Run System.Step (System.start (Server.start blocks maxmem)) history
        system) :
    ∃ exchanges,
      Explained (Server.start blocks maxmem) history system exchanges ∧
        ∀ (index : Nat) (reply : Reply),
          (receivedReplies history)[index]? = some reply →
            ∃ ask,
              (sentRequests history)[index]? = some ask ∧
                AnswerTo (exchanges.take index) ask reply := by
  obtain ⟨exchanges, explained⟩ := exists_explained run
  refine ⟨exchanges, explained, ?_⟩
  intro index reply isReply
  rw [explained.got] at isReply
  rw [List.getElem?_take] at isReply
  split at isReply
  · rw [List.getElem?_map, Option.map_eq_some_iff] at isReply
    obtain ⟨exchange, isExchange, rfl⟩ := isReply
    have inside : index < (sentRequests history).length :=
      Nat.lt_of_lt_of_le (List.getElem?_eq_some_iff.mp isExchange).1
        explained.length_le
    have isAsk := List.getElem?_eq_getElem inside
    exact ⟨_, isAsk, explained.answerTo disjoint isAsk isExchange⟩
  · cases isReply

end Replies

/--
The first two requests were served and a GET of the key that was put waits,
which the server can answer with 200.
-/
theorem exists_get_waiting :
    ∃ (history : List Action) (system : System) (created stored : Reply),
      Run System.Step (System.start (Server.start (fun _ => zeroBlocks) 0))
          history system ∧
        receivedReplies history = [] ∧
        sentRequests history = [.memsize, .put 0 2, .get 0] ∧
        system.phase = .sending ∧
        system.link =
          { toServer := [(2, (Ask.get 0).message)]
            toClient := [(0, created), (1, stored)]
            sent := 3
            received := [] } ∧
        created.head = ascii "201 Created" ∧
        stored.head = ascii "204 No Content" ∧
        ∃ found after,
          system.server.Receives
              ⟨zeroLocals, (Ask.get 0).message ++ [0], found⟩ after ∧
            found.head = ascii "200 OK" := by
  obtain ⟨⟨created, first⟩, posted, seen⟩ :=
    exists_of_returnsSuch (by
      decide +kernel :
      returnsSuch
        (recv (Server.start (fun _ => zeroBlocks) 0) zeroLocals
          (Ask.memsize.message ++ []))
        (fun first =>
          first.1.head == ascii "201 Created" && first.2.exited == false &&
            returnsSuch
              (recv first.2 zeroLocals ((Ask.put 0 2).message ++ []))
              (fun second =>
                second.1.head == ascii "204 No Content" &&
                  second.2.exited == false &&
                  returnsSuch
                    (recv second.2 zeroLocals ((Ask.get 0).message ++ [0]))
                    (fun third => third.1.head == ascii "200 OK"))) =
        true)
  simp only [Bool.and_eq_true, beq_iff_eq] at seen
  obtain ⟨⟨isCreated, firstRuns⟩, seen⟩ := seen
  obtain ⟨⟨stored, second⟩, put, seen⟩ := exists_of_returnsSuch seen
  simp only [Bool.and_eq_true, beq_iff_eq] at seen
  obtain ⟨⟨isStored, secondRuns⟩, seen⟩ := seen
  obtain ⟨⟨found, after⟩, got, isFound⟩ := exists_of_returnsSuch seen
  have isFound : found.head = ascii "200 OK" := by
    simpa using isFound
  obtain ⟨valLs, -, looping⟩ :=
    exists_looping (Server.start (fun _ => zeroBlocks) 0)
  obtain ⟨message, asked, isGet⟩ :=
    exists_of_returnsSuch (by
      decide +kernel :
      returnsSuch (simGet 1 fun _ => 0)
        (fun message => message == (Ask.get 0).message) = true)
  have isGet : message = (Ask.get 0).message := by
    simpa using isGet
  subst isGet
  have sent :
      sendRequest { Variables.start with valLs := valLs }
          (fun call => 1 - call) =
        .ok (some (Ask.get 0).message,
          { Variables.start with valLs := valLs }) := by
    rw [sendRequest, if_neg (by decide)]
    exact congrArg (· >>= _) asked
  have servedFirst :=
    looping.snoc (.serve (Link.Served.intro rfl) ⟨rfl, posted⟩)
  have servedSecond :=
    servedFirst.snoc (.serve (Link.Served.intro rfl) ⟨firstRuns, put⟩)
  have run := servedSecond.snoc (.sendRequest rfl sent)
  exact ⟨_, _, created, stored, run, rfl, rfl, rfl, rfl, isCreated, isStored,
    found, after, ⟨secondRuns, got⟩, isFound⟩

/-- A POST, a PUT and a GET that finds what was put. -/
theorem replies_answer_requests_hit :
    ∃ (history : List Action) (system : System),
      Run System.Step (System.start (Server.start (fun _ => zeroBlocks) 0))
          history system ∧
        (receivedReplies history).map Reply.head =
          [ascii "201 Created", ascii "204 No Content", ascii "200 OK"] ∧
        sentRequests history = [.memsize, .put 0 2, .get 0] ∧
        ∃ exchanges,
          Explained (Server.start (fun _ => zeroBlocks) 0) history system
              exchanges ∧
            ∀ (index : Nat) (reply : Reply),
              (receivedReplies history)[index]? = some reply →
                ∃ ask,
                  (sentRequests history)[index]? = some ask ∧
                    AnswerTo (exchanges.take index) ask reply := by
  obtain ⟨history, ⟨phase, vars, server, link⟩, created, stored, run,
    noReplies, isSent, isSending, isLink, isCreated, isStored, found, after,
    got, isFound⟩ := exists_get_waiting
  dsimp only at isSending isLink got
  subst isSending isLink
  have served := run.snoc (.serve (Link.Served.intro rfl) got)
  have counted := served.snoc (.countSend rfl)
  have first :=
    counted.snoc (.receive (Or.inl rfl) (Link.Delivered.intro rfl))
  have second :=
    first.snoc (.receive (Or.inl rfl) (Link.Delivered.intro rfl))
  have third :=
    second.snoc (.receive (Or.inl rfl) (Link.Delivered.intro rfl))
  refine ⟨_, _, third, ?_, ?_,
    replies_answer_requests (fun _ => zeroBlocks_disjoint) third⟩
  · simp only [receivedReplies, List.filterMap_append] at noReplies ⊢
    rw [noReplies, ← isCreated, ← isStored, ← isFound]
    rfl
  · rw [← isSent]
    iterate 5 rw [sentRequests_snoc_none fun _ => rfl]

section Service

variable {blocks : Nat → Nat → Slab} {maxmem : UInt64}
variable {history : List Action} {system : System}

/-- The oldest request is one of the workload's, and the server serves. -/
theorem exists_waiting_ask
    (disjoint : ∀ number, DisjointBlocks (blocks number))
    (run :
      Run System.Step (System.start (Server.start blocks maxmem)) history
        system)
    {number : Nat}
    {message : List UInt8}
    {rest : List (Nat × List UInt8)}
    (waiting : system.link.toServer = (number, message) :: rest) :
    ∃ ask : Ask,
      message = ask.message ∧ ask.form.Valid ∧ Serving system.server := by
  obtain ⟨exchanges, explained⟩ := exists_explained run
  have inOrder := explained.carries.waiting
  rw [waiting, List.map_cons] at inOrder
  have isNext := (Link.drop_eq_cons inOrder.symm).1
  rw [List.getElem?_map, Option.map_eq_some_iff] at isNext
  obtain ⟨ask, isAsk, isMessage⟩ := isNext
  exact ⟨ask, isMessage.symm, (explained.sent.request isAsk).1,
    serving_of_run disjoint explained.run fun _ => explained.asked⟩

/-- A request that is parsed is served. -/
theorem serve_iff
    (serving : Serving system.server)
    {ask : Ask}
    (valid : ask.form.Valid)
    {number : Nat}
    {rest : List (Nat × List UInt8)}
    (waiting : system.link.toServer = (number, ask.message) :: rest)
    (locals : Locals)
    (following : List UInt8) :
    (∃ reply after, system.Step (.serve locals following reply) after) ↔
      ask.form.value.isSome = true ∨ 0 ∈ following := by
  rw [← valid.scannable.parses_iff locals]
  constructor
  · rintro ⟨reply, after, step⟩
    cases step with
    | serve served received =>
        obtain ⟨oldest⟩ := served
        rw [waiting] at oldest
        cases oldest
        obtain ⟨request, parsing, -⟩ := bind_eq_ok.mp received.2
        rw [Ask.message_append] at parsing
        exact ⟨request, parsing⟩
  · rintro ⟨request, parsing⟩
    obtain ⟨reply, after, handled, -⟩ :=
      serving.handles valid (parseRequest_form valid parsing)
    have received := (recv_of_parsed parsing system.server).trans handled
    rw [← Ask.message_append] at received
    exact ⟨reply, _,
      .serve (Link.Served.intro waiting) ⟨serving.running, received⟩⟩

/--
The server never stops serving what the link brings from the workload.  The
oldest request under way can be served whatever is on the stack and behind the
message, unless it is a GET and no NUL follows: then `parse_request` reads on.
-/
theorem waiting_request_served_iff
    (disjoint : ∀ number, DisjointBlocks (blocks number))
    (run :
      Run System.Step (System.start (Server.start blocks maxmem)) history
        system)
    {number : Nat}
    {message : List UInt8}
    {rest : List (Nat × List UInt8)}
    (waiting : system.link.toServer = (number, message) :: rest) :
    ∃ ask : Ask,
      message = ask.message ∧
        ∀ locals following,
          (∃ reply after,
            system.Step (.serve locals following reply) after) ↔
            ask.form.value.isSome = true ∨ 0 ∈ following := by
  obtain ⟨ask, rfl, valid, serving⟩ :=
    exists_waiting_ask disjoint run waiting
  exact ⟨ask, rfl, serve_iff serving valid waiting⟩

end Service

/-- The waiting GET is served exactly if a NUL follows it. -/
theorem waiting_request_served_iff_get :
    ∃ (history : List Action) (system : System),
      Run System.Step (System.start (Server.start (fun _ => zeroBlocks) 0))
          history system ∧
        system.link.toServer = [(2, (Ask.get 0).message)] ∧
        ∃ ask : Ask,
          (Ask.get 0).message = ask.message ∧
            ∀ locals following,
              (∃ reply after,
                system.Step (.serve locals following reply) after) ↔
                ask.form.value.isSome = true ∨ 0 ∈ following := by
  obtain ⟨history, system, created, stored, run, -, -, -, isLink, -⟩ :=
    exists_get_waiting
  have waiting : system.link.toServer = [(2, (Ask.get 0).message)] := by
    rw [isLink]
  exact ⟨history, system, run, waiting,
    waiting_request_served_iff (fun _ => zeroBlocks_disjoint) run waiting⟩

/-! ## Receiving every reply -/

section Draining

variable {blocks : Nat → Nat → Slab} {maxmem : UInt64}
variable {history : List Action} {system : System}

/-- The server can serve all requests under way. -/
theorem exists_all_served
    (disjoint : ∀ number, DisjointBlocks (blocks number))
    (run :
      Run System.Step (System.start (Server.start blocks maxmem)) history
        system) :
    ∃ actions after,
      Run System.Step system actions after ∧
        after.phase = system.phase ∧
        after.link.sent = system.link.sent ∧
        after.link.toServer = [] := by
  generalize isLength : system.link.toServer.length = length
  induction length generalizing history system with
  | zero =>
      exact ⟨[], system, .nil, rfl, rfl, List.length_eq_zero_iff.mp isLength⟩
  | succ length inductionHypothesis =>
      obtain ⟨⟨number, message⟩, rest, waiting⟩ :=
        List.exists_cons_of_length_eq_add_one isLength
      obtain ⟨ask, rfl, valid, serving⟩ :=
        exists_waiting_ask disjoint run waiting
      -- With a NUL behind it every request is served.
      obtain ⟨reply, next, step⟩ :=
        (serve_iff serving valid waiting zeroLocals [0]).mpr
          (Or.inr (List.mem_singleton_self 0))
      have oneLess :
          next.link.toServer.length = length ∧
            next.phase = system.phase ∧
            next.link.sent = system.link.sent := by
        cases step with
        | serve served received =>
            obtain ⟨oldest⟩ := served
            rw [oldest, List.length_cons] at isLength
            exact ⟨Nat.succ.inj isLength, rfl, rfl⟩
      obtain ⟨actions, after, later, samePhase, sameSent, allServed⟩ :=
        inductionHypothesis (run.snoc step) oneLess.1
      exact ⟨_, after, (Run.nil.snoc step).append later,
        samePhase.trans oneLess.2.1, sameSent.trans oneLess.2.2, allServed⟩

/-- The workload can receive all replies under way. -/
theorem exists_all_received
    (receiving : system.phase = .receiving ∨ system.phase = .written) :
    ∃ actions after,
      Run System.Step system actions after ∧
        after.link.sent = system.link.sent ∧
        after.link.toServer = system.link.toServer ∧
        after.link.toClient = [] := by
  generalize isLength : system.link.toClient.length = length
  induction length generalizing system with
  | zero =>
      exact ⟨[], system, .nil, rfl, rfl, List.length_eq_zero_iff.mp isLength⟩
  | succ length inductionHypothesis =>
      obtain ⟨⟨number, reply⟩, rest, oldest⟩ :=
        List.exists_cons_of_length_eq_add_one isLength
      obtain ⟨next, step, samePhase, sameSent, sameWaiting, isRest⟩ :
          ∃ next,
            system.Step (.receive reply) next ∧
              next.phase = system.phase ∧
              next.link.sent = system.link.sent ∧
              next.link.toServer = system.link.toServer ∧
              next.link.toClient = rest :=
        ⟨_, .receive receiving (Link.Delivered.intro oldest), rfl, rfl, rfl,
          rfl⟩
      rw [oldest, List.length_cons, ← isRest] at isLength
      rw [← samePhase] at receiving
      obtain ⟨actions, after, later, laterSent, laterWaiting, allReceived⟩ :=
        inductionHypothesis receiving (Nat.succ.inj isLength)
      exact ⟨_, after, (Run.nil.snoc step).append later,
        laterSent.trans sameSent, laterWaiting.trans sameWaiting,
        allReceived⟩

/-- From the main loop on the workload can go on to receive. -/
theorem exists_receiving
    (notBegun : system.phase ≠ .begun)
    (notCreated : system.phase ≠ .created) :
    ∃ actions after,
      Run System.Step system actions after ∧
        (after.phase = .receiving ∨ after.phase = .written) ∧
        after.link = system.link := by
  cases isPhase : system.phase with
  | begun => exact absurd isPhase notBegun
  | created => exact absurd isPhase notCreated
  | looping =>
      exact ⟨_, _, .snoc .nil (.write isPhase), Or.inr rfl, rfl⟩
  | sending =>
      exact ⟨_, _, .snoc .nil (.countSend isPhase), Or.inl rfl, rfl⟩
  | receiving => exact ⟨_, _, .nil, Or.inl isPhase, rfl⟩
  | written => exact ⟨_, _, .nil, Or.inr isPhase, rfl⟩

/--
The link loses nothing, and neither do the programs.  Wherever the two are, once
the workload is in its main loop, they can go on so that it receives the reply
to every request it has sent, without sending another one.
-/
theorem every_reply_receivable
    (disjoint : ∀ number, DisjointBlocks (blocks number))
    (run :
      Run System.Step (System.start (Server.start blocks maxmem)) history
        system)
    (looping : system.phase ≠ .begun ∧ system.phase ≠ .created) :
    ∃ actions after,
      Run System.Step system actions after ∧
        after.link.sent = system.link.sent ∧
        after.link.unanswered = [] := by
  obtain ⟨serves, served, serving, samePhase, servedSent, noneWaiting⟩ :=
    exists_all_served disjoint run
  rw [← samePhase] at looping
  obtain ⟨moves, ready, going, receiving, sameLink⟩ :=
    exists_receiving looping.1 looping.2
  obtain ⟨receives, after, draining, sameSent, sameWaiting, noneUnderWay⟩ :=
    exists_all_received receiving
  have whole := (serving.append going).append draining
  have inOrder := (counted_of_run (run.append whole)).inOrder
  refine ⟨_, after, whole, ?_, ?_⟩
  · rw [sameSent, sameLink, servedSent]
  · rw [inOrder.unanswered_eq, noneUnderWay, sameWaiting, sameLink,
      noneWaiting]
    rfl

end Draining

/-- A GET is under way and two replies are when the workload goes on. -/
theorem every_reply_receivable_of_three :
    ∃ (history : List Action) (system : System),
      Run System.Step (System.start (Server.start (fun _ => zeroBlocks) 0))
          history system ∧
        system.link.sent = 3 ∧
        system.link.received = [] ∧
        ∃ actions after,
          Run System.Step system actions after ∧
            after.link.sent = system.link.sent ∧
            after.link.unanswered = [] := by
  obtain
    ⟨history, system, created, stored, run, -, -, sending, isLink, -⟩ :=
    exists_get_waiting
  have looping : system.phase ≠ .begun ∧ system.phase ≠ .created := by
    rw [sending]
    decide
  refine ⟨history, system, run, ?_, ?_,
    every_reply_receivable (fun _ => zeroBlocks_disjoint) run looping⟩ <;>
    rw [isLink]

end CacheBench.Workload
