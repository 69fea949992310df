import CacheBench.CacheRefinement
import CacheBench.ServerReplies

namespace CacheBench

open Execution EvictingMap

/-!
# What a client can rely on

The server answers a get with the value of the latest put of the key that
succeeded.  Every answer is described by the step of the cache behind it; the
contents of the cache are an evicting map, and shutdowns and new caches empty
it.
-/

/-- What the server has done when it answered a request. -/
inductive Answer
    (server : Server)
    (reply : Reply)
    (after : Server) :
    Form → Prop where
  | set
      {key value : CString}
      {val : Nat → UInt8}
      {valSize : UInt32}
      {code : UInt8}
      {cache next : Cache}
      (present : server.globalCache = some cache)
      (step : cache.Step (.set key val valSize code) next)
      (left : after.globalCache = some next)
      (isValue :
        bytesFrom val 0 valSize.toNat = value.bytes ++ [0])
      (bounded : valSize.toNat ≤ 2 ^ 20)
      (head :
        reply.head =
          if code = 0 then
            ascii "204 No Content"
          else
            ascii "500 Internal Server Error") :
      Answer server reply after (.put key value)
  | hit
      {key : CString}
      {value : List UInt8}
      {size : Nat}
      {cache next : Cache}
      (present : server.globalCache = some cache)
      (step : cache.Step (.get key (some value) size) next)
      (left : after.globalCache = some next)
      (body :
        ∀ string : CString, value = string.bytes ++ [0] →
          reply.body = getBody key.bytes string.bytes) :
      Answer server reply after (.get key)
  | miss
      {key : CString}
      {size : Nat}
      {cache next : Cache}
      (present : server.globalCache = some cache)
      (step : cache.Step (.get key none size) next)
      (left : after.globalCache = some next)
      (head : reply.head = ascii "204 No Content") :
      Answer server reply after (.get key)
  | delete
      {key : CString}
      {code : UInt8}
      {cache next : Cache}
      (present : server.globalCache = some cache)
      (step : cache.Step (.delete key code) next)
      (left : after.globalCache = some next)
      (head :
        reply.head =
          if code = 0 then
            ascii "204 No Content"
          else
            ascii "500 Internal Server Error") :
      Answer server reply after (.delete key)
  | null
      {form : Form}
      (missing : server.globalCache = none)
      (left : after.globalCache = none)
      (head : reply.head ≠ ascii "200 OK") :
      Answer server reply after form
  | head
      {key : CString}
      (left : after.globalCache = server.globalCache) :
      Answer server reply after (.head key)
  | created
      {value : CString}
      {maxmem : UInt64}
      (left :
        after.globalCache =
          some
            (createCache (server.blocks server.created) maxmem none)) :
      Answer server reply after (.memsize value)
  | kept
      {value : CString}
      (left : after.globalCache = server.globalCache)
      (head : reply.head = ascii "500 Internal Server Error") :
      Answer server reply after (.memsize value)
  | shutdown
      (left : after.globalCache = none) :
      Answer server reply after .shutdown

section Answers

variable {server after : Server} {reply : Reply} {locals : Locals}

variable {buf : List UInt8} {req : Request}

theorem answer_put
    {key value : CString}
    (valid : (Form.put key value).Valid)
    (parsed : Parsed (.put key value) buf req)
    (handled : handleRequest server locals buf req = .ok (reply, after)) :
    Answer server reply after (.put key value) ∧
      after.blocks = server.blocks := by
  have size : req.size = value.length + 1 := parsed.size value rfl
  have small : value.length + 1 ≤ 2 ^ 20 := by
    have bounded := valid.bounded
    simp only [Form.text, Form.tail, Form.value, Form.method, Form.key,
      List.length_append, List.length_cons] at bounded
    rw [CString.length]
    omega
  have toNat : (UInt32.ofNat req.size).toNat = req.size := by
    rw [UInt32.toNat_ofNat', Nat.mod_eq_of_lt (by omega)]
  have isKey : req.key = key := parsed.key
  rw [handleRequest, parsed.requestType] at handled
  obtain ⟨⟨code, cache⟩, called, rest⟩ := bind_eq_ok.mp handled
  dsimp only at rest
  rcases onCache_cases called with
      ⟨missing, rfl, rfl⟩ | ⟨old, new, present, returned, rfl⟩
  · rw [if_neg (by decide)] at rest
    obtain ⟨head, -, rfl⟩ := Server.reply_eq rest
    refine ⟨.null missing rfl ?_, rfl⟩
    rw [head]
    decide
  · have step :
        old.Step
          (.set key (fun position => bytesAt buf (req.value + position))
            (UInt32.ofNat req.size) code)
          new := by
      rw [isKey] at returned
      exact bind_eq_ok.mpr ⟨_, returned, rfl⟩
    have isValue :
        bytesFrom (fun position => bytesAt buf (req.value + position)) 0
            (UInt32.ofNat req.size).toNat =
          value.bytes ++ [0] := by
      rw [toNat]
      exact parsed.value value rfl
    by_cases stored : code = 0
    · rw [if_pos stored] at rest
      obtain ⟨head, -, rfl⟩ := Server.reply_eq rest
      exact ⟨.set present step rfl isValue (by omega)
        (by rw [if_pos stored, head]), rfl⟩
    · rw [if_neg stored] at rest
      obtain ⟨head, -, rfl⟩ := Server.reply_eq rest
      exact ⟨.set present step rfl isValue (by omega)
        (by rw [if_neg stored, head]), rfl⟩

theorem answer_delete
    {key : CString}
    (parsed : Parsed (.delete key) buf req)
    (handled : handleRequest server locals buf req = .ok (reply, after)) :
    Answer server reply after (.delete key) ∧
      after.blocks = server.blocks := by
  have isKey : req.key = key := parsed.key
  rw [handleRequest, parsed.requestType] at handled
  obtain ⟨⟨code, cache⟩, called, rest⟩ := bind_eq_ok.mp handled
  dsimp only at rest
  have failed (isFailure : code ≠ 0) :
      reply.head = ascii "500 Internal Server Error" ∧
        after = { server with globalCache := cache } := by
    rw [if_neg isFailure] at rest
    split at rest
    · obtain ⟨head, -, rfl⟩ := Server.reply_eq rest
      exact ⟨head, rfl⟩
    · cases rest
  rcases onCache_cases called with
      ⟨missing, rfl, rfl⟩ | ⟨old, new, present, returned, rfl⟩
  · obtain ⟨head, rfl⟩ := failed (by decide)
    refine ⟨.null missing rfl ?_, rfl⟩
    rw [head]
    decide
  · have step : old.Step (.delete key code) new := by
      rw [isKey] at returned
      exact bind_eq_ok.mpr ⟨_, returned, rfl⟩
    by_cases removed : code = 0
    · rw [if_pos removed] at rest
      obtain ⟨head, -, rfl⟩ := Server.reply_eq rest
      exact ⟨.delete present step rfl (by rw [if_pos removed, head]), rfl⟩
    · obtain ⟨head, rfl⟩ := failed removed
      exact ⟨.delete present step rfl (by rw [if_neg removed, head]), rfl⟩

theorem answer_get
    {key : CString}
    (parsed : Parsed (.get key) buf req)
    (handled : handleRequest server locals buf req = .ok (reply, after)) :
    Answer server reply after (.get key) ∧
      after.blocks = server.blocks := by
  have isKey : req.key = key := parsed.key
  rw [handleRequest, parsed.requestType] at handled
  obtain ⟨⟨found, cache⟩, called, rest⟩ := bind_eq_ok.mp handled
  dsimp only at rest
  rcases onCache_cases called with
      ⟨missing, rfl, rfl⟩ | ⟨old, new, present, returned, rfl⟩
  · obtain ⟨head, -, rfl⟩ := Server.reply_eq rest
    refine ⟨.null missing rfl ?_, rfl⟩
    rw [head]
    decide
  · rw [isKey] at returned rest
    obtain ⟨address, size⟩ := found
    have step :
        old.Step
          (.get key
            (address.map fun address =>
              bytesFrom new.slabManager.byteAt address size)
            size)
          new :=
      bind_eq_ok.mpr ⟨_, returned, rfl⟩
    cases address with
    | none =>
        obtain ⟨head, -, rfl⟩ := Server.reply_eq rest
        exact ⟨.miss present step rfl head, rfl⟩
    | some address =>
        obtain ⟨length, measured, rest⟩ := bind_eq_ok.mp rest
        obtain ⟨expected, strlen, isSize⟩ := strlen_of_cacheGet returned
        rw [measured, Except.ok.injEq] at strlen
        subst expected
        dsimp only at rest
        split at rest
        · obtain ⟨head, body, rfl⟩ := Server.reply_eq rest
          refine ⟨.hit present step rfl ?_, rfl⟩
          intro string isString
          rw [body, bytesFrom_of_string isSize isString]
        · cases rest

theorem answer_memsize
    {value : CString}
    (parsed : Parsed (.memsize value) buf req)
    (handled : handleRequest server locals buf req = .ok (reply, after)) :
    Answer server reply after (.memsize value) ∧
      after.blocks = server.blocks := by
  have isKey : req.key.bytes = ascii "memsize" := by
    rw [parsed.key, Form.key]
    decide
  rw [handleRequest, parsed.requestType] at handled
  dsimp only [Form.requestType] at handled
  rw [handlePost_eq, if_pos isKey] at handled
  split at handled
  · obtain ⟨head, -, rfl⟩ := Server.reply_eq handled
    exact ⟨.kept rfl head, rfl⟩
  · obtain ⟨-, -, rfl⟩ := Server.reply_eq handled
    exact ⟨.created rfl, rfl⟩

theorem answer_shutdown
    (parsed : Parsed .shutdown buf req)
    (handled : handleRequest server locals buf req = .ok (reply, after)) :
    Answer server reply after .shutdown ∧
      after.blocks = server.blocks := by
  have isKey : req.key.bytes = ascii "shutdown" := by
    rw [parsed.key]
    decide
  rw [handleRequest, parsed.requestType] at handled
  dsimp only [Form.requestType] at handled
  rw [handlePost_eq, if_neg (by
    rw [isKey]
    decide), if_pos isKey] at handled
  split at handled
  · obtain ⟨-, -, rfl⟩ := Server.reply_eq handled
    exact ⟨.shutdown rfl, rfl⟩
  · obtain ⟨⟨sent, replied⟩, replying, rest⟩ := bind_eq_ok.mp handled
    obtain ⟨-, -, rfl⟩ := Server.reply_eq replying
    cases rest
    exact ⟨.shutdown rfl, rfl⟩

/-- Every answer to a documented request is one of those described. -/
theorem Server.Step.answer
    {form : Form}
    (valid : form.Valid)
    (step : server.Step ⟨form, reply⟩ after) :
    Answer server reply after form ∧ after.blocks = server.blocks := by
  obtain ⟨-, locals, following, received⟩ := step
  obtain ⟨req, parsing, handled⟩ := bind_eq_ok.mp received
  have parsed := parseRequest_form valid parsing
  cases form with
  | get key =>
      exact answer_get parsed handled
  | put key value =>
      exact answer_put valid parsed handled
  | delete key =>
      exact answer_delete parsed handled
  | head key =>
      rw [handleRequest, parsed.requestType] at handled
      obtain ⟨-, -, rfl⟩ := Server.reply_eq handled
      exact ⟨.head rfl, rfl⟩
  | shutdown =>
      exact answer_shutdown parsed handled
  | memsize value =>
      exact answer_memsize parsed handled

end Answers

/-! ## Whole runs -/

/-- The server's cache, if there is one, stands for a map. -/
structure ServerOk (server : Server) : Prop where
  disjoint : ∀ number, DisjointBlocks (server.blocks number)
  mapOk : ∀ cache, server.globalCache = some cache → MapOk cache

/-- The exchange is a put of the value under the key that succeeded. -/
def Exchange.Stores (exchange : Exchange) (key value : CString) : Prop :=
  exchange.form = .put key value ∧
    exchange.reply.head = ascii "204 No Content"

/-- The exchange replaces or removes the value of the key. -/
def Exchange.Ends (exchange : Exchange) (key : CString) : Prop :=
  match exchange.form with
  | .put other _ =>
      other = key ∧ exchange.reply.head = ascii "204 No Content"
  | .delete other =>
      other = key ∧ exchange.reply.head = ascii "204 No Content"
  | .shutdown => exchange.reply.head = ascii "204 No Content"
  | .memsize _ => exchange.reply.head = ascii "201 Created"
  | .get _ => False
  | .head _ => False

section Contract

variable {server after : Server} {reply : Reply} {form : Form}

theorem Server.contents_of_some
    {cache : Cache}
    (present : server.globalCache = some cache)
    (key : CString) :
    server.contents key = cache.contents key := by
  rw [Server.contents, present]
  rfl

theorem Server.contents_of_none
    (missing : server.globalCache = none)
    (key : CString) :
    server.contents key = none := by
  rw [Server.contents, missing]
  rfl

/-- An answer from a step of the cache keeps the invariant. -/
private theorem ServerOk.of_step
    (ok : ServerOk server)
    (sameBlocks : after.blocks = server.blocks)
    {cache next : Cache}
    {event : Event}
    (present : server.globalCache = some cache)
    (step : cache.Step event next)
    (permitted : event.call.Permitted)
    (left : after.globalCache = some next) :
    ServerOk after ∧
      EvictingMap.Step SameSlabClass server.contents event.action
        after.contents := by
  obtain ⟨nextOk, refines⟩ :=
    (ok.mapOk cache present).step permitted step
  refine ⟨⟨?_, ?_⟩, ?_⟩
  · rw [sameBlocks]
    exact ok.disjoint
  · intro other isOther
    rw [left, Option.some.injEq] at isOther
    exact isOther ▸ nextOk
  · have before : server.contents = cache.contents :=
      funext (Server.contents_of_some present)
    have later : after.contents = next.contents :=
      funext (Server.contents_of_some left)
    rw [before, later]
    exact refines

/-- A new cache stands for the empty map. -/
private theorem created_ok
    {blocks : Nat → Slab}
    (disjoint : DisjointBlocks blocks)
    {maxmem : UInt64}
    (created : server.globalCache = some (createCache blocks maxmem none)) :
    (∀ cache, server.globalCache = some cache → MapOk cache) ∧
      ∀ key, server.contents key = none := by
  obtain ⟨mapOk, noValues⟩ := createCache_mapOk disjoint maxmem none
  refine ⟨?_, ?_⟩
  · intro cache present
    rw [created, Option.some.injEq] at present
    exact present ▸ mapOk
  · intro key
    rw [Server.contents_of_some created, noValues]
    rfl

/--
Where a value the server holds afterwards comes from: the request put it there,
or it was there before and the request does not end it.
-/
abbrev Accounted
    (server after : Server)
    (exchange : Exchange) : Prop :=
  ∀ key value, after.contents key = some value →
    (∃ string,
      exchange.Stores key string ∧ value = string.bytes ++ [0]) ∨
      (server.contents key = some value ∧ ¬ exchange.Ends key)

private theorem accounted_of_same
    {exchange : Exchange}
    (same : after.contents = server.contents)
    (endsNone : ∀ key, ¬ exchange.Ends key) :
    Accounted server after exchange := by
  intro key value present
  rw [same] at present
  exact Or.inr ⟨present, endsNone key⟩

private theorem accounted_of_empty
    {exchange : Exchange}
    (noValues : ∀ key, after.contents key = none) :
    Accounted server after exchange := by
  intro key value present
  rw [noValues] at present
  cases present

/-- What an answer does to the contents. -/
theorem Answer.entry
    (ok : ServerOk server)
    (valid : form.Valid)
    (sameBlocks : after.blocks = server.blocks)
    (answer : Answer server reply after form) :
    ServerOk after ∧ Accounted server after ⟨form, reply⟩ := by
  have disjoint : ∀ number, DisjointBlocks (after.blocks number) := by
    rw [sameBlocks]
    exact ok.disjoint
  have unchanged (left : after.globalCache = server.globalCache) :
      ServerOk after ∧ after.contents = server.contents := by
    refine ⟨⟨disjoint, ?_⟩, ?_⟩
    · rw [left]
      exact ok.mapOk
    · funext key
      rw [Server.contents, Server.contents, left]
  have emptied (left : after.globalCache = none) : ServerOk after := by
    refine ⟨disjoint, ?_⟩
    intro cache present
    rw [left] at present
    cases present
  cases answer with
  | @set key value val valSize code cache next present step left isValue
      bounded head =>
      have permitted : (Call.set key val valSize).Permitted :=
        ⟨valid.keyFits, bounded, value, isValue⟩
      obtain ⟨afterOk, refines⟩ :=
        ok.of_step sameBlocks present step permitted left
      refine ⟨afterOk, ?_⟩
      intro query stored isStored
      rcases refines.entry isStored with isSet | ⟨before, untouched⟩
      · simp only [Event.action, Action.set.injEq, beq_iff_eq] at isSet
        obtain ⟨rfl, isBytes, isZero⟩ := isSet
        refine Or.inl ⟨value, ⟨rfl, ?_⟩, isBytes.symm.trans isValue⟩
        rw [head, if_pos isZero]
      · refine Or.inr ⟨before, ?_⟩
        rintro ⟨isKey, -⟩
        exact untouched isKey
  | hit present step left body =>
      have permitted : (Call.get _).Permitted := valid.keyFits
      obtain ⟨afterOk, refines⟩ :=
        ok.of_step sameBlocks present step permitted left
      exact ⟨afterOk,
        accounted_of_same refines.of_get.2 fun _ ends => ends⟩
  | miss present step left head =>
      have permitted : (Call.get _).Permitted := valid.keyFits
      obtain ⟨afterOk, refines⟩ :=
        ok.of_step sameBlocks present step permitted left
      exact ⟨afterOk,
        accounted_of_same refines.of_get.2 fun _ ends => ends⟩
  | @delete key code cache next present step left head =>
      have permitted : (Call.delete key).Permitted := valid.keyFits
      obtain ⟨afterOk, refines⟩ :=
        ok.of_step sameBlocks present step permitted left
      refine ⟨afterOk, ?_⟩
      intro query stored isStored
      rcases refines.entry isStored with isSet | ⟨before, untouched⟩
      · cases isSet
      · refine Or.inr ⟨before, ?_⟩
        rintro ⟨isKey, answered⟩
        have answered : reply.head = ascii "204 No Content" := answered
        refine untouched ⟨isKey, ?_⟩
        by_contra notZero
        rw [head, if_neg (by simpa using notZero)] at answered
        exact absurd answered (by decide)
  | null missing left head =>
      exact ⟨emptied left,
        accounted_of_empty (Server.contents_of_none left)⟩
  | head left =>
      obtain ⟨afterOk, same⟩ := unchanged left
      exact ⟨afterOk, accounted_of_same same fun _ ends => ends⟩
  | @created value maxmem left =>
      obtain ⟨newOk, noValues⟩ :=
        created_ok (ok.disjoint server.created) left
      exact ⟨⟨disjoint, newOk⟩, accounted_of_empty noValues⟩
  | kept left head =>
      obtain ⟨afterOk, same⟩ := unchanged left
      refine ⟨afterOk, accounted_of_same same ?_⟩
      intro key ends
      have ends : reply.head = ascii "201 Created" := ends
      rw [head] at ends
      exact absurd ends (by decide)
  | shutdown left =>
      exact ⟨emptied left,
        accounted_of_empty (Server.contents_of_none left)⟩

/-- A get that is answered with 200 carries the value of the key. -/
theorem Answer.of_get
    (ok : ServerOk server)
    {key : CString}
    (valid : (Form.get key).Valid)
    (answer : Answer server reply after (.get key))
    (answered : reply.head = ascii "200 OK") :
    ∃ value : CString,
      reply.body = getBody key.bytes value.bytes ∧
        server.contents key = some (value.bytes ++ [0]) := by
  cases answer with
  | @hit _ value size cache next present step left body =>
      have mapOk := ok.mapOk cache present
      have permitted : (Event.get key (some value) size).call.Permitted :=
        valid.keyFits
      have isEntry : cache.contents key = some value :=
        (mapOk.step permitted step).2.of_get.1
      obtain ⟨string, rfl⟩ := mapOk.strings isEntry
      refine ⟨string, body string rfl, ?_⟩
      rw [Server.contents_of_some present, isEntry]
  | miss present step left head =>
      rw [head] at answered
      exact absurd answered (by decide)
  | null missing left head =>
      exact absurd answered head

/-- Every value the server holds was put there and not ended since. -/
theorem contents_since
    {blocks : Nat → Nat → Slab}
    (disjoint : ∀ number, DisjointBlocks (blocks number))
    {maxmem : UInt64}
    {history : List Exchange}
    (run : Run Server.Step (Server.start blocks maxmem) history server)
    (valid : ∀ exchange ∈ history, exchange.form.Valid) :
    ServerOk server ∧
      ∀ key value, server.contents key = some value →
        ∃ string : CString,
          value = string.bytes ++ [0] ∧
            Since (fun exchange => ¬ exchange.Ends key)
              (fun exchange => exchange.Stores key string) history := by
  induction run with
  | nil =>
      obtain ⟨mapOk, noValues⟩ :=
        created_ok (disjoint 0)
          (rfl : (Server.start blocks maxmem).globalCache = _)
      refine ⟨⟨disjoint, mapOk⟩, ?_⟩
      intro key value present
      rw [noValues] at present
      cases present
  | @snoc history exchange middle final earlier step
      inductionHypothesis =>
      obtain ⟨ok, since⟩ :=
        inductionHypothesis fun exchange member =>
          valid exchange (by simp [member])
      have lastValid : exchange.form.Valid := valid exchange (by simp)
      obtain ⟨answer, sameBlocks⟩ := Server.Step.answer lastValid step
      obtain ⟨finalOk, entries⟩ := answer.entry ok lastValid sameBlocks
      refine ⟨finalOk, ?_⟩
      intro key value present
      rcases entries key value present with
          ⟨string, stores, rfl⟩ | ⟨before, keeps⟩
      · exact ⟨string, rfl, since_of_holds history stores⟩
      · obtain ⟨string, isValue, sinceBefore⟩ := since key value before
        exact ⟨string, isValue, sinceBefore.snoc keeps⟩

/--
A get that is answered with 200 carries the key and the value of the latest put
of the key that succeeded, and since then the key was not deleted, the server
not shut down and no new cache created.
-/
theorem get_answers_latest_put
    {blocks : Nat → Nat → Slab}
    (disjoint : ∀ number, DisjointBlocks (blocks number))
    {maxmem : UInt64}
    {history : List Exchange}
    (run : Run Server.Step (Server.start blocks maxmem) history server)
    (valid : ∀ exchange ∈ history, exchange.form.Valid)
    {key : CString}
    (keyValid : (Form.get key).Valid)
    (step : server.Step ⟨.get key, reply⟩ after)
    (answered : reply.head = ascii "200 OK") :
    ∃ value : CString,
      reply.body = getBody key.bytes value.bytes ∧
        Since (fun exchange => ¬ exchange.Ends key)
          (fun exchange => exchange.Stores key value) history := by
  obtain ⟨ok, since⟩ := contents_since disjoint run valid
  obtain ⟨answer, -⟩ := Server.Step.answer keyValid step
  obtain ⟨value, body, present⟩ := answer.of_get ok keyValid answered
  obtain ⟨string, isValue, stored⟩ := since key _ present
  have sameString : string = value :=
    CString.ext (List.append_cancel_right isValue).symm
  rw [sameString] at stored
  exact ⟨value, body, stored⟩

end Contract

/-- A put, an overwriting put and a get. -/
theorem get_answers_latest_put_second :
    ∃ (history : List Exchange) (server after : Server) (reply : Reply),
      history.map Exchange.form =
          [.put (CString.ofText "k") (CString.ofText "v"),
            .put (CString.ofText "k") (CString.ofText "w/x")] ∧
        Run Server.Step (Server.start (fun _ => zeroBlocks) 0) history
          server ∧
        server.Step ⟨.get (CString.ofText "k"), reply⟩ after ∧
        reply.head = ascii "200 OK" ∧
        ∃ value : CString,
          reply.body = getBody (ascii "k") value.bytes ∧
            Since (fun exchange => ¬ exchange.Ends (CString.ofText "k"))
              (fun exchange =>
                exchange.Stores (CString.ofText "k") value)
              history := by
  obtain ⟨⟨first, middle⟩, firstPut, seen⟩ :=
    exists_of_returnsSuch (by
      decide +kernel :
      returnsSuch
        (recv (Server.start (fun _ => zeroBlocks) 0) zeroLocals
          ((Form.put (CString.ofText "k") (CString.ofText "v")).message []))
        (fun first =>
          first.2.exited == false &&
            returnsSuch
              (recv first.2 zeroLocals
                ((Form.put (CString.ofText "k")
                  (CString.ofText "w/x")).message []))
              (fun second =>
                second.2.exited == false &&
                  returnsSuch
                    (recv second.2 zeroLocals
                      ((Form.get (CString.ofText "k")).message [0]))
                    (fun third => third.1.head == ascii "200 OK"))) =
        true)
  simp only [Bool.and_eq_true, beq_iff_eq] at seen
  obtain ⟨middleRuns, seen⟩ := seen
  obtain ⟨⟨second, server⟩, secondPut, seen⟩ := exists_of_returnsSuch seen
  simp only [Bool.and_eq_true, beq_iff_eq] at seen
  obtain ⟨serverRuns, seen⟩ := seen
  obtain ⟨⟨reply, after⟩, got, answered⟩ := exists_of_returnsSuch seen
  have answered : reply.head = ascii "200 OK" := by
    simpa using answered
  have run :
      Run Server.Step (Server.start (fun _ => zeroBlocks) 0)
        [⟨.put (CString.ofText "k") (CString.ofText "v"), first⟩,
          ⟨.put (CString.ofText "k") (CString.ofText "w/x"), second⟩]
        server :=
    (Run.nil.snoc ⟨rfl, zeroLocals, [], firstPut⟩).snoc
      ⟨middleRuns, zeroLocals, [], secondPut⟩
  have step :
      server.Step ⟨.get (CString.ofText "k"), reply⟩ after :=
    ⟨serverRuns, zeroLocals, [0], got⟩
  refine ⟨_, server, after, reply, rfl, run, step, answered,
    get_answers_latest_put (fun _ => zeroBlocks_disjoint) run ?_
      ⟨by decide, by decide, by decide, by decide⟩ step answered⟩
  simp only [List.forall_mem_cons, List.not_mem_nil, false_imp_iff,
    implies_true, and_true]
  exact ⟨⟨by decide, by decide, by decide, by decide⟩,
    ⟨by decide, by decide, by decide, by decide⟩⟩

end CacheBench
