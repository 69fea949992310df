import CacheBench.Workload
import CacheBench.Execution
import CacheBench.SlabAllocator

namespace CacheBench.Workload

open RequestReply Execution

/-!
# What the workload writes to its file

Every function of the workload that sends, sends one message, and the server
sends one reply for each.  The counters then follow the link: `send_count` is
behind the requests sent by the two sends before the main loop, which
`recv_count -= 2` makes up for, in 64-bit arithmetic also when fewer than two
replies have come.
-/

/-! ## One message for each request -/

/-- The die has three sides. -/
theorem exists_pickSize (roll next : Nat) :
    ∃ size, pickSize roll next = some size := by
  have threeSides : next % 3 = 0 ∨ next % 3 = 1 ∨ next % 3 = 2 := by
    omega
  unfold pickSize
  split_ifs
  case neg =>
    rcases threeSides with shown | shown | shown <;>
      rw [shown] <;>
      exact ⟨_, rfl⟩
  all_goals exact ⟨_, rfl⟩

/-- `sim_set` sends a message whenever it returns. -/
theorem simSet_sends
    {keyNum : UInt64}
    {valLs after : Nat → UInt8}
    {rand : Nat → Nat}
    {message : Option (List UInt8)}
    (returned : simSet keyNum valLs rand = .ok (message, after)) :
    ∃ sent, message = some sent := by
  obtain ⟨size, picked⟩ := exists_pickSize (rand 0 % 500) (rand 1)
  obtain ⟨key, -, rest⟩ := bind_eq_ok.mp returned
  rw [picked] at rest
  obtain ⟨cut, -, rest⟩ := bind_eq_ok.mp rest
  obtain ⟨sent, -, rest⟩ := bind_eq_ok.mp rest
  obtain ⟨restored, -, rest⟩ := bind_eq_ok.mp rest
  cases rest
  exact ⟨sent, rfl⟩

/-- Whatever the die shows, one message is sent; nothing is counted yet. -/
theorem sendRequest_sends
    {vars after : Variables}
    {rand : Nat → Nat}
    {message : Option (List UInt8)}
    (returned : sendRequest vars rand = .ok (message, after)) :
    (∃ sent, message = some sent) ∧
      after.sendCount = vars.sendCount ∧
      after.recvCount = vars.recvCount := by
  unfold sendRequest at returned
  split at returned
  · obtain ⟨⟨sent, valLs⟩, set, rest⟩ := bind_eq_ok.mp returned
    cases rest
    exact ⟨simSet_sends set, rfl, rfl⟩
  · obtain ⟨sent, -, rest⟩ := bind_eq_ok.mp returned
    cases rest
    exact ⟨⟨sent, rfl⟩, rfl, rfl⟩

/-- `create_cache` sends a message for a size that is not 0. -/
theorem createCache_sends
    {maxmem : UInt64}
    (positive : 0 < maxmem)
    {message : Option (List UInt8)}
    (returned : Client.createCache maxmem = .ok message) :
    ∃ sent, message = some sent := by
  rw [Client.createCache, if_pos positive] at returned
  obtain ⟨text, -, rest⟩ := bind_eq_ok.mp returned
  cases rest
  exact ⟨_, rfl⟩

/-! ## The counters -/

/-- Requests sent that `send_count` does not count. -/
def Phase.uncounted : Phase → Nat
  | .begun => 0
  | .created => 1
  | .looping => 2
  | .sending => 3
  | .receiving => 2
  | .written => 2

/-- What was subtracted from `recv_count`. -/
def Phase.subtracted : Phase → Nat
  | .written => 2
  | _ => 0

/-- The counters follow the link, modulo 2 to the 64. -/
structure Counted (system : System) : Prop where
  inOrder : system.link.InOrder
  sends :
    UInt64.ofNat system.link.sent =
      system.vars.sendCount + UInt64.ofNat system.phase.uncounted
  receipts :
    UInt64.ofNat system.link.received.length =
      system.vars.recvCount + UInt64.ofNat system.phase.subtracted

theorem counted_start (server : Server) :
    Counted (System.start server) where
  inOrder := Link.inOrder_empty
  sends := rfl
  receipts := rfl

/-- A step that sends one message and counts nothing. -/
theorem Counted.transmit
    {system : System}
    (counted : Counted system)
    {message : Option (List UInt8)}
    (sends : ∃ sent, message = some sent)
    {phase : Phase}
    {vars : Variables}
    (sameSends : vars.sendCount = system.vars.sendCount)
    (sameReceipts : vars.recvCount = system.vars.recvCount)
    (uncounted : phase.uncounted = system.phase.uncounted + 1)
    (subtracted : phase.subtracted = system.phase.subtracted) :
    Counted
      { system with
        phase := phase
        vars := vars
        link := transmit system.link message } := by
  obtain ⟨sent, rfl⟩ := sends
  refine ⟨counted.inOrder.send sent, ?_, ?_⟩
  · change
      UInt64.ofNat (system.link.sent + 1) =
        vars.sendCount + UInt64.ofNat phase.uncounted
    rw [sameSends, uncounted, UInt64.ofNat_add, UInt64.ofNat_add,
      counted.sends, UInt64.add_assoc]
  · change
      UInt64.ofNat system.link.received.length =
        vars.recvCount + UInt64.ofNat phase.subtracted
    rw [sameReceipts, subtracted]
    exact counted.receipts

/-- Every step of either program keeps the counters right. -/
theorem Counted.step
    {system after : System}
    {action : Action}
    (counted : Counted system)
    (step : system.Step action after) :
    Counted after := by
  have sends := counted.sends
  have receipts := counted.receipts
  cases step with
  | createCache begun created =>
      refine counted.transmit (createCache_sends (by decide) created)
        rfl rfl ?_ ?_ <;>
        rw [begun] <;> rfl
  | preliminarySet created set =>
      refine counted.transmit (simSet_sends set) rfl rfl ?_ ?_ <;>
        rw [created] <;> rfl
  | sendRequest looping sent =>
      obtain ⟨sends, sameSends, sameReceipts⟩ := sendRequest_sends sent
      refine counted.transmit sends sameSends sameReceipts ?_ ?_ <;>
        rw [looping] <;> rfl
  | countSend sending =>
      rw [sending] at sends receipts
      refine ⟨counted.inOrder, ?_, receipts⟩
      exact sends.trans (UInt64.add_assoc _ 1 2).symm
  | receive receiving delivered =>
      have inOrder := counted.inOrder.delivered delivered
      obtain ⟨oldest⟩ := delivered
      refine ⟨inOrder, sends, ?_⟩
      rw [List.length_append, List.length_singleton, UInt64.ofNat_add,
        receipts, UInt64.add_assoc, UInt64.add_assoc]
      exact congrArg _ (UInt64.add_comm _ _)
  | receiveNothing receiving =>
      rw [receiving] at sends receipts
      exact ⟨counted.inOrder, sends, receipts⟩
  | write looping =>
      rw [looping] at sends receipts
      refine ⟨counted.inOrder, sends, receipts.trans ?_⟩
      exact (UInt64.add_zero _).trans (UInt64.sub_add_cancel _ 2).symm
  | serve served received =>
      have inOrder := counted.inOrder.served served
      obtain ⟨oldest⟩ := served
      exact ⟨inOrder, sends, receipts⟩

/-- The counters are right in every run. -/
theorem counted_of_run
    {server : Server}
    {history : List Action}
    {system : System}
    (run : Run System.Step (System.start server) history system) :
    Counted system :=
  run.invariant Counted (counted_start server)
    (fun counted (_ : True) step => counted.step step) fun _ _ => trivial

/--
The value written to the file is the number of requests sent whose reply was
not received, as a 64-bit number.
-/
theorem discrepancy_eq_unanswered
    {server : Server}
    {history : List Action}
    {system after : System}
    {discrepancy : UInt64}
    (run : Run System.Step (System.start server) history system)
    (write : system.Step (.write discrepancy) after) :
    discrepancy.toNat = system.link.unanswered.length % 2 ^ 64 := by
  have counted := counted_of_run run
  have total := counted.inOrder.length_unanswered
  have sends := counted.sends
  have receipts := counted.receipts
  cases write with
  | write looping =>
      rw [looping] at sends receipts
      have sameValue :
          system.vars.sendCount - (system.vars.recvCount - 2) =
            UInt64.ofNat system.link.unanswered.length := by
        rw [← total, UInt64.ofNat_add, receipts] at sends
        change
          system.vars.recvCount + 0 +
              UInt64.ofNat system.link.unanswered.length =
            system.vars.sendCount + 2 at sends
        grind
      rw [sameValue, UInt64.toNat_ofNat']

/--
Three requests were sent and the reply to the first was received when the line
is written.
-/
theorem discrepancy_eq_unanswered_of_three :
    ∃ history system after,
      Run System.Step (System.start (Server.start (fun _ => zeroBlocks) 0))
          history system ∧
        system.Step (.write 2) after ∧
        system.link.sent = 3 ∧
        (2 : UInt64).toNat = system.link.unanswered.length % 2 ^ 64 := by
  obtain ⟨post, reply, server, created, received⟩ :
      ∃ post reply server,
        Client.createCache (UInt64.ofNat (2 ^ 26)) = .ok (some post) ∧
          recv (Server.start (fun _ => zeroBlocks) 0) zeroLocals
              (post ++ []) =
            .ok (reply, server) := by
    obtain ⟨⟨reply, server⟩, received, -⟩ :=
      exists_of_returnsSuch (by
        decide +kernel :
        returnsSuch
          (recv (Server.start (fun _ => zeroBlocks) 0) zeroLocals
            (Client.cacheSend
              (Client.memsizeText (UInt64.ofNat (2 ^ 26))) ++ []))
          (fun _ => true) = true)
    refine
      ⟨Client.cacheSend (Client.memsizeText (UInt64.ofNat (2 ^ 26))), reply,
        server, ?_, received⟩
    rw [Client.createCache, if_pos (by decide), Client.intoBuffer,
      if_pos (by decide +kernel)]
    rfl
  obtain ⟨⟨put, valLs⟩, set, -⟩ :=
    exists_of_returnsSuch (by
      decide +kernel :
      returnsSuch
        (simSet 0 Variables.start.valLs fun call => 276 * (1 - call))
        (fun _ => true) = true)
  obtain ⟨message, rfl⟩ := simSet_sends set
  obtain ⟨get, got, -⟩ :=
    exists_of_returnsSuch (by
      decide +kernel :
      returnsSuch (simGet 1 fun _ => 1) (fun _ => true) = true)
  have sent :
      sendRequest { Variables.start with valLs := valLs } (fun _ => 1) =
        .ok (some get, { Variables.start with valLs := valLs }) := by
    rw [sendRequest, if_neg (by decide)]
    exact congrArg (· >>= _) got
  have receives :
      (Server.start (fun _ => zeroBlocks) 0).Receives
        { locals := zeroLocals, buf := post ++ [], reply := reply } server :=
    ⟨rfl, received⟩
  let start := System.start (Server.start (fun _ => zeroBlocks) 0)
  have afterCreating :
      Run System.Step start _ { start with
        phase := .created
        link := transmit .empty (some post) } :=
    Run.nil.snoc (.createCache rfl created)
  have afterServing :=
    afterCreating.snoc (.serve (Link.Served.intro rfl) receives)
  have afterSending :=
    ((afterServing.snoc (.preliminarySet rfl set)).snoc
      (.sendRequest rfl sent)).snoc (.countSend rfl)
  have run :=
    (afterSending.snoc
      (.receive (Or.inl rfl) (Link.Delivered.intro rfl))).snoc
        (.receiveNothing rfl)
  obtain ⟨history, system, run, looping, sends, receipts, sent⟩ :
      ∃ history system,
        Run System.Step start history system ∧
          system.phase = .looping ∧
          system.vars.sendCount = 0 + 1 ∧
          system.vars.recvCount = 0 + 1 ∧
          system.link.sent = 3 :=
    ⟨_, _, run, rfl, rfl, rfl, rfl⟩
  have write := System.Step.write looping
  have isTwo :
      system.vars.sendCount - (system.vars.recvCount - 2) = 2 := by
    rw [sends, receipts]
    decide
  rw [isTwo] at write
  exact ⟨history, system, _, run, write, sent,
    discrepancy_eq_unanswered run write⟩

end CacheBench.Workload
