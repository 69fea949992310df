import CacheBench.ClientRequests
import CacheBench.ServerContract
import CacheBench.ServerRequests
import CacheBench.WorkloadMessages

namespace CacheBench.Workload

open RequestReply Execution

/-!
# The workload and the server together

Requests and replies are under way while both programs go on, but the two
queues keep their order.  Every interleaving is therefore explained by what
each program does on its own: the requests the workload sends, and a run of the
server that answers the first of them one after the other.  From that it
follows what the workload can receive.  All of this is about a link that loses
nothing, as `Workload` says.
-/

/-! ## The requests -/

/-- A value of the workload: that many bytes of `val_ls`. -/
def filling (size : Nat) : CString where
  bytes := List.replicate size 41
  noNul := by
    rw [List.mem_replicate]
    exact fun isNul => absurd isNul.2 (by decide)

/-- The requests the workload sends. -/
inductive Ask where
  | memsize
  | put (number : UInt64) (size : Nat)
  | get (number : UInt64)
  deriving Repr, DecidableEq

namespace Ask

/-- The request in the words of the server. -/
def form : Ask → Form
  | .memsize => .memsize (decimalString (2 ^ 26))
  | .put number size => .put (decimalString number.toNat) (filling size)
  | .get number => .get (decimalString number.toNat)

/-- What is passed to `nn_send`. -/
def message (ask : Ask) : List UInt8 :=
  ask.form.message []

theorem message_append (ask : Ask) (following : List UInt8) :
    ask.message ++ following = ask.form.message following := by
  simp [message, Form.message]

end Ask

/-- The GET `sim_get` sends for what `rand` returns. -/
def getAsk (setCount : UInt64) (rand : Nat → Nat) : Ask :=
  .get (UInt64.ofNat (rand 0) % (setCount * 2))

/-- The PUT `sim_set` sends for what `rand` returns. -/
def setAsk (keyNum : UInt64) (rand : Nat → Nat) : Option Ask :=
  (pickSize (rand 0 % 500) (rand 1)).map (.put keyNum)

namespace Action

/-- The request the workload sends in a step. -/
def ask? (setCount : UInt64) : Action → Option Ask
  | .createCache => some .memsize
  | .preliminarySet rand => setAsk 0 rand
  | .sendRequest rand =>
      if rand 0 % 31 = 0 then
        setAsk (setCount + 1) fun call => rand (call + 1)
      else
        some (getAsk setCount fun call => rand (call + 1))
  | _ => none

/-- What a step makes of `set_count`. -/
def count (setCount : UInt64) : Action → UInt64
  | .sendRequest rand =>
      if rand 0 % 31 = 0 then setCount + 1 else setCount
  | _ => setCount

end Action

/-- What the steps of the workload come to: `set_count`, and what it sent. -/
structure Record where
  setCount : UInt64
  asks : List Ask

/-- The record after one more step. -/
def Record.add (record : Record) (action : Action) : Record where
  setCount := action.count record.setCount
  asks := record.asks ++ (action.ask? record.setCount).toList

/-- The record of a whole history. -/
def recordOf (history : List Action) : Record :=
  history.foldl Record.add { setCount := 1, asks := [] }

/-- The requests the workload has sent, first one first. -/
def sentRequests (history : List Action) : List Ask :=
  (recordOf history).asks

theorem recordOf_snoc (history : List Action) (action : Action) :
    recordOf (history ++ [action]) = (recordOf history).add action := by
  rw [recordOf, List.foldl_append]
  rfl

/-- A step that sends nothing leaves the requests as they are. -/
theorem sentRequests_snoc_none
    {action : Action}
    (nothing : ∀ setCount, action.ask? setCount = none)
    (history : List Action) :
    sentRequests (history ++ [action]) = sentRequests history := by
  rw [sentRequests, recordOf_snoc, Record.add, nothing]
  exact List.append_nil _

section Client

variable {valLs after : Nat → UInt8} {rand : Nat → Nat}

/-- A number is a key the server parses as it was sent. -/
theorem decimal_key (number : UInt64) :
    decimal number.toNat ≠ [] ∧ 47 ∉ decimal number.toNat ∧
      (decimal number.toNat).length ≤ 20 := by
  refine ⟨?_, ?_, length_decimal_le number⟩
  · rw [decimal, Ne, List.map_eq_nil_iff]
    exact Nat.toDigits_ne_nil
  · intro isSlash
    exact absurd (toNat_of_mem_decimal isSlash).1 (by decide)

theorem createCache_asks :
    Client.createCache (UInt64.ofNat (2 ^ 26)) =
      .ok (some Ask.memsize.message) := by
  have text :=
    cacheSend_memsize (UInt64.ofNat (2 ^ 26)) []
  rw [List.append_nil] at text
  rw [createCache_eq_ok (by decide), text]
  rfl

/-- The bytes `sim_set` cuts out of the array. -/
theorem read_filled
    (filled : Filled valLs)
    (size : Nat) :
    CString.read
        (bytesFrom (Function.update valLs size 0) 0 (size + 1)) =
      filling size := by
  have bytes :
      bytesFrom (Function.update valLs size 0) 0 (size + 1) =
        (filling size).bytes ++ [0] := by
    rw [bytesFrom, List.range_succ, List.map_append]
    congr 1
    · refine List.eq_replicate_iff.mpr ⟨by simp, ?_⟩
      intro byte member
      obtain ⟨position, below, rfl⟩ := List.mem_map.mp member
      rw [Nat.zero_add, Function.update_of_ne
        (Nat.ne_of_lt (List.mem_range.mp below)), filled]
    · simp
  rw [bytes, CString.read_append_nul]

theorem keyText_eq_ok
    {number : UInt64}
    {key : CString}
    (formatted : keyText number = .ok key) :
    key = decimalString number.toNat := by
  simp only [keyText] at formatted
  split at formatted
  · cases formatted
    rfl
  · cases formatted

/-- `sim_set` sends a PUT of a filling of the size it picked. -/
theorem simSet_asks
    {keyNum : UInt64}
    (filled : Filled valLs)
    {message : Option (List UInt8)}
    (returned : simSet keyNum valLs rand = .ok (message, after)) :
    ∃ size,
      setAsk keyNum rand = some (.put keyNum size) ∧
        message = some (Ask.put keyNum size).message ∧
        (Ask.put keyNum size).form.Valid := by
  obtain ⟨size, picked⟩ := exists_pickSize (rand 0 % 500) (rand 1)
  have largest := pickSize_le picked
  obtain ⟨key, keyed, rest⟩ := bind_eq_ok.mp returned
  rw [picked] at rest
  obtain ⟨cut, cutting, rest⟩ := bind_eq_ok.mp rest
  obtain ⟨sent, setting, rest⟩ := bind_eq_ok.mp rest
  obtain ⟨restored, -, rest⟩ := bind_eq_ok.mp rest
  cases rest
  rw [assign_eq_ok cutting, keyText_eq_ok keyed] at setting
  obtain ⟨text, formatted, rest⟩ := bind_eq_ok.mp setting
  obtain ⟨msg, copied, rest⟩ := bind_eq_ok.mp rest
  cases rest
  have lastIndex : (UInt32.ofNat (size + 1) - 1).toNat = size := by
    rw [UInt32.ofNat_add, UInt32.ofNat_one, UInt32.add_sub_cancel,
      UInt32.toNat_ofNat', Nat.mod_eq_of_lt (by omega)]
  rw [Client.putText, lastIndex, if_neg (by simp), read_filled filled]
    at formatted
  cases formatted
  obtain ⟨rfl, fits⟩ := intoBuffer_eq_ok copied
  have isMessage := cacheSend_put (decimalString keyNum.toNat)
    (filling size) []
  rw [List.append_nil] at isMessage
  obtain ⟨nonempty, noSlash, short⟩ := decimal_key keyNum
  refine ⟨size, by rw [setAsk, picked, Option.map_some],
    congrArg some isMessage, nonempty, noSlash,
    Nat.le_trans short (by decide), ?_⟩
  have sameLength := congrArg List.length isMessage
  simp only [Client.cacheSend, Form.message, List.length_append,
    List.length_singleton, Nat.add_right_cancel_iff] at sameLength
  rw [Ask.form, ← sameLength]
  exact Nat.le_of_lt fits

theorem valid_get (number : UInt64) : (Ask.get number).form.Valid := by
  obtain ⟨nonempty, noSlash, short⟩ := decimal_key number
  refine ⟨nonempty, noSlash, Nat.le_trans short (by decide), ?_⟩
  have method : (CString.ofText "GET").bytes.length = 3 := by
    decide
  simp only [Ask.form, Form.text, Form.method, Form.key, Form.tail,
    Form.value, List.length_append, List.length_cons, List.length_nil,
    method]
  have digits : (decimalString number.toNat).bytes.length ≤ 20 := short
  omega

theorem valid_memsize : Ask.memsize.form.Valid := by
  refine ⟨?_, ?_, ?_, ?_⟩ <;> decide

/-- `sim_get` sends a GET of a key below twice the counter. -/
theorem simGet_asks
    {setCount : UInt64}
    {message : List UInt8}
    (returned : simGet setCount rand = .ok message) :
    UInt64.ofNat (rand 0) % (setCount * 2) < setCount * 2 ∧
      message = (getAsk setCount rand).message := by
  unfold simGet at returned
  split at returned
  · cases returned
  · rename_i notZero
    obtain ⟨key, keyed, rest⟩ := bind_eq_ok.mp returned
    obtain ⟨msg, copied, rest⟩ := bind_eq_ok.mp rest
    cases rest
    obtain ⟨rfl, -⟩ := intoBuffer_eq_ok copied
    constructor
    · exact UInt64.mod_lt _ (UInt64.pos_iff_ne_zero.mpr notZero)
    · rw [keyText_eq_ok keyed]
      have isMessage := cacheSend_get
        (decimalString
          (UInt64.ofNat (rand 0) % (setCount * 2)).toNat) []
      rw [List.append_nil] at isMessage
      exact isMessage

end Client

/-! ## What the workload sends -/

/-- The requests sent by the main loop so far, and `set_count`. -/
inductive Loop : UInt64 → List Ask → Prop where
  | begin
      {size : Nat}
      (valid : (Ask.put 0 size).form.Valid) :
      Loop 1 [.memsize, .put 0 size]
  | get
      {setCount number : UInt64}
      {asks : List Ask}
      (earlier : Loop setCount asks)
      (below : number < setCount * 2) :
      Loop setCount (asks ++ [.get number])
  | put
      {setCount : UInt64}
      {asks : List Ask}
      {size : Nat}
      (earlier : Loop setCount asks)
      (valid : (Ask.put (setCount + 1) size).form.Valid) :
      Loop (setCount + 1) (asks ++ [.put (setCount + 1) size])

/-- The requests sent when `main` is in a phase. -/
def Sent : Phase → UInt64 → List Ask → Prop
  | .begun, setCount, asks => setCount = 1 ∧ asks = []
  | .created, setCount, asks => setCount = 1 ∧ asks = [.memsize]
  | _, setCount, asks => Loop setCount asks

theorem Sent.loop
    {phase : Phase}
    {setCount : UInt64}
    {asks : List Ask}
    (sent : Sent phase setCount asks)
    (notBegun : phase ≠ .begun)
    (notCreated : phase ≠ .created) :
    Loop setCount asks := by
  cases phase with
  | begun => exact absurd rfl notBegun
  | created => exact absurd rfl notCreated
  | looping => exact sent
  | sending => exact sent
  | receiving => exact sent
  | written => exact sent

/-- `send_request` sends one request of the loop. -/
theorem sendRequest_asks
    {vars after : Variables}
    {rand : Nat → Nat}
    {message : Option (List UInt8)}
    (filled : Filled vars.valLs)
    {asks : List Ask}
    (loop : Loop vars.setCount asks)
    (returned : sendRequest vars rand = .ok (message, after)) :
    ∃ ask : Ask,
      (Action.sendRequest rand).ask? vars.setCount = some ask ∧
        after.setCount = (Action.sendRequest rand).count vars.setCount ∧
        message = some ask.message ∧
        Loop after.setCount (asks ++ [ask]) := by
  unfold sendRequest at returned
  split at returned
  · rename_i isPut
    obtain ⟨⟨sent, valLs⟩, set, rest⟩ := bind_eq_ok.mp returned
    cases rest
    obtain ⟨size, isAsk, isMessage, valid⟩ := simSet_asks filled set
    exact ⟨_, (if_pos isPut).trans isAsk, (if_pos isPut).symm, isMessage,
      .put loop valid⟩
  · rename_i isGet
    obtain ⟨sent, got, rest⟩ := bind_eq_ok.mp returned
    cases rest
    obtain ⟨below, isMessage⟩ := simGet_asks got
    exact ⟨_, if_neg isGet, (if_neg isGet).symm, congrArg some isMessage,
      .get loop below⟩

/-- The first request is the POST, and no later one is. -/
theorem Loop.memsize_first
    {setCount : UInt64}
    {asks : List Ask}
    (loop : Loop setCount asks)
    {index : Nat}
    (isMemsize : asks[index]? = some .memsize) :
    index = 0 := by
  induction loop with
  | begin valid =>
      match index with
      | 0 => rfl
      | 1 => cases isMemsize
      | _ + 2 => cases isMemsize
  | get earlier below inductionHypothesis =>
      rw [List.getElem?_append] at isMemsize
      split at isMemsize
      · exact inductionHypothesis isMemsize
      · have isLast := List.mem_of_getElem? isMemsize
        simp at isLast
  | put earlier valid inductionHypothesis =>
      rw [List.getElem?_append] at isMemsize
      split at isMemsize
      · exact inductionHypothesis isMemsize
      · have isLast := List.mem_of_getElem? isMemsize
        simp at isLast

theorem Loop.valid
    {setCount : UInt64}
    {asks : List Ask}
    (loop : Loop setCount asks)
    {ask : Ask}
    (member : ask ∈ asks) :
    ask.form.Valid := by
  induction loop with
  | begin valid =>
      rcases List.mem_pair.mp member with rfl | rfl
      · exact valid_memsize
      · exact valid
  | get earlier below inductionHypothesis =>
      rcases List.mem_append.mp member with isEarlier | isLast
      · exact inductionHypothesis isEarlier
      · rw [List.mem_singleton.mp isLast]
        exact valid_get _
  | put earlier valid inductionHypothesis =>
      rcases List.mem_append.mp member with isEarlier | isLast
      · exact inductionHypothesis isEarlier
      · rw [List.mem_singleton.mp isLast]
        exact valid

/-- Every request is valid, and only the first is the POST. -/
theorem Sent.request
    {phase : Phase}
    {setCount : UInt64}
    {asks : List Ask}
    (sent : Sent phase setCount asks)
    {index : Nat}
    {ask : Ask}
    (isAsk : asks[index]? = some ask) :
    ask.form.Valid ∧ (ask = .memsize → index = 0) := by
  have ofLoop (loop : Loop setCount asks) :
      ask.form.Valid ∧ (ask = .memsize → index = 0) := by
    refine ⟨loop.valid (List.mem_of_getElem? isAsk), ?_⟩
    rintro rfl
    exact loop.memsize_first isAsk
  cases phase with
  | begun =>
      rw [sent.2] at isAsk
      cases isAsk
  | created =>
      rw [sent.2] at isAsk
      match index with
      | 0 =>
          cases isAsk
          exact ⟨valid_memsize, fun _ => rfl⟩
      | _ + 1 => cases isAsk
  | looping => exact ofLoop sent
  | sending => exact ofLoop sent
  | receiving => exact ofLoop sent
  | written => exact ofLoop sent

/-- The keys of the puts, in the order they were sent. -/
def putKeys (asks : List Ask) : List UInt64 :=
  asks.filterMap fun
    | .put number _ => some number
    | _ => none

/-- As long as `set_count` does not wrap, every put has a key of its own. -/
theorem Loop.putKeys_eq
    {setCount : UInt64}
    {asks : List Ask}
    (loop : Loop setCount asks)
    (few : asks.length < 2 ^ 63) :
    1 ≤ setCount.toNat ∧ setCount.toNat < asks.length ∧
      (putKeys asks).map UInt64.toNat =
        0 :: List.range' 2 (setCount.toNat - 1) := by
  induction loop with
  | begin valid => exact ⟨by decide, Nat.one_lt_two, rfl⟩
  | get earlier below inductionHypothesis =>
      rw [List.length_append, List.length_singleton] at few ⊢
      obtain ⟨positive, counted, keys⟩ := inductionHypothesis (by omega)
      refine ⟨positive, by omega, ?_⟩
      rw [← keys, putKeys, List.filterMap_append, List.map_append]
      exact List.append_nil _
  | @put setCount asks size earlier valid inductionHypothesis =>
      rw [List.length_append, List.length_singleton] at few ⊢
      obtain ⟨positive, counted, keys⟩ := inductionHypothesis (by omega)
      have next : (setCount + 1).toNat = setCount.toNat + 1 := by
        rw [UInt64.toNat_add, UInt64.toNat_one, Nat.mod_eq_of_lt (by omega)]
      refine ⟨by omega, by omega, ?_⟩
      -- The counter was at least 1, so the new key is the next after the last.
      have oneMore :
          (setCount + 1).toNat - 1 = (setCount.toNat - 1) + 1 := by
        omega
      have isLast : 2 + (setCount.toNat - 1) = (setCount + 1).toNat := by
        omega
      rw [oneMore, List.range'_1_concat, isLast, ← List.cons_append, ← keys,
        putKeys, List.filterMap_append, List.map_append]
      rfl

/-! ## Interleavings -/

/-- The reply the workload receives in a step. -/
def Action.reply? : Action → Option Reply
  | .receive reply => some reply
  | _ => none

/-- The replies the workload has received, first one first. -/
def receivedReplies (history : List Action) : List Reply :=
  history.filterMap Action.reply?

/--
An interleaving is explained by the requests the workload has sent and a run of
the server alone, which answers the first of them; the workload has received the
first of its replies.
-/
structure Explained
    (server : Server)
    (history : List Action)
    (system : System)
    (exchanges : List Exchange) : Prop where
  counted : (recordOf history).setCount = system.vars.setCount
  sent : Sent system.phase system.vars.setCount (sentRequests history)
  run : Run Server.Step server exchanges system.server
  forms :
    exchanges.map Exchange.form =
      ((sentRequests history).map Ask.form).take exchanges.length
  carries :
    system.link.Carries ((sentRequests history).map Ask.message)
      (exchanges.map Exchange.reply)
  got :
    receivedReplies history =
      (exchanges.map Exchange.reply).take system.link.received.length

section Interleavings

variable {server : Server} {history : List Action} {system : System}
variable {exchanges : List Exchange}

theorem explained_start (server : Server) :
    Explained server [] (System.start server) [] where
  counted := rfl
  sent := ⟨rfl, rfl⟩
  run := .nil
  forms := rfl
  carries := Link.carries_empty
  got := rfl

/-- The server answers no more requests than there are. -/
theorem Explained.length_le
    (explained : Explained server history system exchanges) :
    exchanges.length ≤ (sentRequests history).length := by
  simpa using explained.carries.answered

theorem receivedReplies_snoc
    {action : Action}
    (noReply : action.reply? = none) :
    receivedReplies (history ++ [action]) = receivedReplies history := by
  rw [receivedReplies, List.filterMap_append, List.filterMap_cons,
    noReply, List.filterMap_nil, List.append_nil, receivedReplies]

/-- The record goes on as `set_count` does. -/
theorem Explained.counted_snoc
    (explained : Explained server history system exchanges)
    (action : Action) :
    (recordOf (history ++ [action])).setCount =
      action.count system.vars.setCount := by
  rw [recordOf_snoc, Record.add, explained.counted]

/-- A request that is sent is the last of all. -/
theorem Explained.sentRequests_snoc
    (explained : Explained server history system exchanges)
    {action : Action}
    {ask : Ask}
    (isAsk : action.ask? system.vars.setCount = some ask) :
    sentRequests (history ++ [action]) = sentRequests history ++ [ask] := by
  rw [sentRequests, recordOf_snoc, Record.add, explained.counted, isAsk]
  rfl

/-- A step of the workload that sends one request. -/
theorem Explained.send
    (explained : Explained server history system exchanges)
    {action : Action}
    (noReply : action.reply? = none)
    {phase : Phase}
    {vars : Variables}
    {message : Option (List UInt8)}
    {ask : Ask}
    (isAsk : action.ask? system.vars.setCount = some ask)
    (counts : vars.setCount = action.count system.vars.setCount)
    (isMessage : message = some ask.message)
    (sent : Sent phase vars.setCount (sentRequests history ++ [ask])) :
    Explained server (history ++ [action])
      { system with
        phase := phase
        vars := vars
        link := transmit system.link message }
      exchanges := by
  subst isMessage
  have oneMore := explained.sentRequests_snoc isAsk
  refine ⟨(explained.counted_snoc action).trans counts.symm, ?_,
    explained.run, ?_, ?_, ?_⟩
  · rw [oneMore]
    exact sent
  · rw [oneMore, List.map_append, List.take_append_of_le_length
      (by simpa using explained.length_le)]
    exact explained.forms
  · rw [oneMore, List.map_append]
    exact explained.carries.send ask.message
  · rw [receivedReplies_snoc noReply]
    exact explained.got

/-- A step of the workload that neither sends nor receives. -/
theorem Explained.proceed
    (explained : Explained server history system exchanges)
    {action : Action}
    (noReply : action.reply? = none)
    (noAsk : ∀ setCount, action.ask? setCount = none)
    {phase : Phase}
    {vars : Variables}
    (counts : vars.setCount = action.count system.vars.setCount)
    (sent : Sent phase vars.setCount (sentRequests history)) :
    Explained server (history ++ [action])
      { system with phase := phase, vars := vars } exchanges := by
  have same := sentRequests_snoc_none noAsk history
  refine ⟨(explained.counted_snoc action).trans counts.symm, ?_,
    explained.run, ?_, ?_, ?_⟩
  · rw [same]
    exact sent
  · rw [same]
    exact explained.forms
  · rw [same]
    exact explained.carries
  · rw [receivedReplies_snoc noReply]
    exact explained.got

/-- The server answers the next request. -/
theorem Explained.serve
    (explained : Explained server history system exchanges)
    {locals : Locals}
    {message following : List UInt8}
    {reply : Reply}
    {after : Server}
    {link : Link (List UInt8) Reply}
    (served : system.link.Served message reply link)
    (received :
      system.server.Receives
        { locals := locals
          buf := message ++ following
          reply := reply }
        after) :
    ∃ exchange,
      Explained server (history ++ [.serve locals following reply])
        { system with server := after, link := link }
        (exchanges ++ [exchange]) := by
  obtain ⟨isNext, carries⟩ := explained.carries.served served
  rw [List.length_map, List.getElem?_map, Option.map_eq_some_iff] at isNext
  obtain ⟨ask, isAsk, rfl⟩ := isNext
  have sameReceived :
      link.received = system.link.received := by
    obtain ⟨oldest⟩ := served
    rfl
  have step : system.server.Step ⟨ask.form, reply⟩ after := by
    refine ⟨received.1, locals, following, ?_⟩
    rw [← Ask.message_append]
    exact received.2
  have same :
      sentRequests (history ++ [.serve locals following reply]) =
        sentRequests history :=
    sentRequests_snoc_none (fun _ => rfl) history
  refine ⟨⟨ask.form, reply⟩, explained.counted_snoc _, ?_,
    .snoc explained.run step, ?_, ?_, ?_⟩
  · rw [same]
    exact explained.sent
  · rw [same, List.map_append, explained.forms, List.length_append,
      List.length_singleton, List.take_add_one, List.getElem?_map, isAsk]
    rfl
  · rw [same, List.map_append]
    exact carries
  -- The new reply is behind all those received.
  · rw [receivedReplies_snoc rfl, explained.got, List.map_append]
    change _ = List.take link.received.length _
    rw [sameReceived,
      List.take_append_of_le_length explained.carries.received]

/-- The workload receives the next reply. -/
theorem Explained.receive
    (explained : Explained server history system exchanges)
    {reply : Reply}
    {link : Link (List UInt8) Reply}
    (delivered : system.link.Delivered reply link)
    {vars : Variables}
    (sameCount : vars.setCount = system.vars.setCount) :
    Explained server (history ++ [.receive reply])
      { system with vars := vars, link := link } exchanges := by
  obtain ⟨isNext, oneMore, carries⟩ :=
    explained.carries.delivered delivered
  have same :
      sentRequests (history ++ [.receive reply]) = sentRequests history :=
    sentRequests_snoc_none (fun _ => rfl) history
  refine ⟨(explained.counted_snoc _).trans sameCount.symm, ?_, explained.run,
    ?_, ?_, ?_⟩
  · change Sent system.phase vars.setCount _
    rw [same, sameCount]
    exact explained.sent
  · rw [same]
    exact explained.forms
  · rw [same]
    exact carries
  · change _ = List.take link.received.length _
    rw [oneMore, List.take_add_one, isNext, ← explained.got,
      receivedReplies, List.filterMap_append]
    rfl

/-- Every step of either program extends the explanation. -/
theorem Explained.step
    (explained : Explained server history system exchanges)
    (filled : Filled system.vars.valLs)
    {action : Action}
    {after : System}
    (step : system.Step action after) :
    ∃ exchanges, Explained server (history ++ [action]) after exchanges := by
  have sent := explained.sent
  cases step with
  | createCache begun created =>
      rw [createCache_asks, Except.ok.injEq] at created
      rw [begun] at sent
      obtain ⟨isOne, none⟩ := sent
      refine ⟨_, explained.send rfl rfl rfl created.symm ?_⟩
      rw [none]
      exact ⟨isOne, rfl⟩
  | preliminarySet created set =>
      obtain ⟨size, isAsk, isMessage, valid⟩ := simSet_asks filled set
      rw [created] at sent
      obtain ⟨isOne, one⟩ := sent
      refine ⟨_, explained.send rfl isAsk rfl isMessage ?_⟩
      change Loop system.vars.setCount _
      rw [isOne, one]
      exact .begin valid
  | sendRequest looping returned =>
      rw [looping] at sent
      -- Which request it is depends on the die; either continues the loop.
      obtain ⟨ask, isAsk, counts, isMessage, loop⟩ :=
        sendRequest_asks filled sent returned
      exact ⟨_, explained.send rfl isAsk counts isMessage loop⟩
  | countSend sending =>
      rw [sending] at sent
      exact ⟨_, explained.proceed rfl (fun _ => rfl) rfl sent⟩
  | receiveNothing receiving =>
      rw [receiving] at sent
      exact ⟨_, explained.proceed rfl (fun _ => rfl) rfl sent⟩
  | write looping =>
      rw [looping] at sent
      exact ⟨_, explained.proceed rfl (fun _ => rfl) rfl sent⟩
  | receive receiving delivered =>
      exact ⟨_, explained.receive delivered rfl⟩
  | serve served received =>
      obtain ⟨exchange, extended⟩ := explained.serve served received
      exact ⟨_, extended⟩

/-- Every interleaving is explained. -/
theorem exists_explained
    (run : Run System.Step (System.start server) history system) :
    ∃ exchanges, Explained server history system exchanges := by
  induction run with
  | nil => exact ⟨[], explained_start server⟩
  | snoc earlier step inductionHypothesis =>
      obtain ⟨exchanges, explained⟩ := inductionHypothesis
      exact explained.step (filled_of_run earlier) step

/--
`sim_get` chooses among twice as many keys as `set_count` says.  Exactly half
of them have been put: 0 and those from 2 to `set_count`, each of them once;
key 1 never is.
-/
theorem half_of_keys_put
    (run : Run System.Step (System.start server) history system)
    (looping : system.phase ≠ .begun ∧ system.phase ≠ .created)
    (few : system.link.sent < 2 ^ 63) :
    (∃ exchanges, Explained server history system exchanges) ∧
      (putKeys (sentRequests history)).map UInt64.toNat =
        0 :: List.range' 2 (system.vars.setCount.toNat - 1) ∧
      (∀ key ∈ putKeys (sentRequests history),
        key < system.vars.setCount * 2) ∧
      2 * (putKeys (sentRequests history)).length =
        (system.vars.setCount * 2).toNat := by
  obtain ⟨exchanges, explained⟩ := exists_explained run
  have loop := explained.sent.loop looping.1 looping.2
  rw [explained.carries.sent, List.length_map] at few
  obtain ⟨positive, counted, keys⟩ := loop.putKeys_eq few
  have twice :
      (system.vars.setCount * 2).toNat = 2 * system.vars.setCount.toNat := by
    rw [UInt64.toNat_mul, Nat.mul_comm]
    exact Nat.mod_eq_of_lt (by
      change 2 * system.vars.setCount.toNat < 2 ^ 64
      omega)
  refine ⟨⟨exchanges, explained⟩, keys, ?_, ?_⟩
  · intro key member
    have isKey := List.mem_map_of_mem (f := UInt64.toNat) member
    rw [keys, List.mem_cons, List.mem_range'_1] at isKey
    rw [UInt64.lt_iff_toNat_lt, twice]
    omega
  · have lengths := congrArg List.length keys
    rw [List.length_map, List.length_cons, List.length_range'] at lengths
    omega

end Interleavings

/-- Rolls for a value of two bytes. -/
def smallRolls (call : Nat) : Nat :=
  276 * (1 - call)

theorem exists_simSet
    {valLs : Nat → UInt8}
    (filled : Filled valLs)
    {keyNum : UInt64}
    (short : (decimalString keyNum.toNat).length < 20) :
    ∃ after,
      simSet keyNum valLs smallRolls =
          .ok (some (Ask.put keyNum 2).message, after) ∧
        Filled after := by
  have picked : pickSize (smallRolls 0 % 500) (smallRolls 1) = some 2 := rfl
  obtain ⟨⟨message, after⟩, returned⟩ :=
    (simSet_returns_iff filled short).mpr
      ((messageFits_iff filled picked).mpr (by omega))
  obtain ⟨size, isAsk, rfl, -⟩ := simSet_asks filled returned
  cases isAsk
  exact ⟨after, returned, simSet_filled filled returned⟩

/-- The program at its main loop. -/
theorem exists_looping (server : Server) :
    ∃ valLs,
      Filled valLs ∧
        Run System.Step (System.start server)
          [.createCache, .preliminarySet smallRolls]
          { phase := .looping
            vars := { Variables.start with valLs := valLs }
            server := server
            link :=
              (Link.empty.send Ask.memsize.message).send
                (Ask.put 0 2).message } := by
  obtain ⟨valLs, set, filled⟩ :=
    @exists_simSet Variables.start.valLs (fun _ => rfl) 0 (by decide)
  have created :=
    (Run.nil : Run System.Step (System.start server) [] _).snoc
      (.createCache rfl createCache_asks)
  have looping := created.snoc (.preliminarySet rfl set)
  exact ⟨valLs, filled, looping⟩

/-- After one PUT of the loop the keys are 0 and 2. -/
theorem half_of_keys_put_of_two :
    ∃ history system,
      Run System.Step (System.start (Server.start (fun _ => zeroBlocks) 0))
          history system ∧
        system.vars.setCount = 2 ∧
        sentRequests history = [.memsize, .put 0 2, .put 2 2] ∧
        (∃ exchanges,
          Explained (Server.start (fun _ => zeroBlocks) 0) history system
            exchanges) ∧
        (putKeys (sentRequests history)).map UInt64.toNat =
          0 :: List.range' 2 (system.vars.setCount.toNat - 1) ∧
        (∀ key ∈ putKeys (sentRequests history),
          key < system.vars.setCount * 2) ∧
        2 * (putKeys (sentRequests history)).length =
          (system.vars.setCount * 2).toNat := by
  obtain ⟨valLs, filled, run⟩ :=
    exists_looping (Server.start (fun _ => zeroBlocks) 0)
  obtain ⟨after, set, -⟩ := @exists_simSet valLs filled 2 (by decide)
  have sent :
      sendRequest { Variables.start with valLs := valLs }
          (fun call => if call = 0 then 0 else smallRolls (call - 1)) =
        .ok (some (Ask.put 2 2).message,
          { Variables.start with setCount := 2, valLs := after }) := by
    rw [sendRequest, if_pos rfl]
    exact congrArg (· >>= _) set
  have run := run.snoc (.sendRequest rfl sent)
  exact ⟨_, _, run, rfl, rfl,
    half_of_keys_put run ⟨Phase.noConfusion, Phase.noConfusion⟩ (by
      change 3 < 2 ^ 63
      decide)⟩

end CacheBench.Workload
