import CacheBench.Client
import CacheBench.RequestReply

namespace CacheBench

open RequestReply

/-!
# The workload of `workload_sim.c`

The program sends requests to the server for a while, receives what has come
back after each of them, and writes the difference of its two counters to a
file.  `rand` stands for the results of `rand()` in a function, in the order of
the calls; they are arbitrary, and so is the number of times the program goes
round its loops.

The two programs are connected by a `Link`, which loses nothing.  The sockets of
nanomsg bear that out for messages of up to 1 MiB: for a longer one the receiver
drops the connection (`NN_RCVMAXSIZE`), and what follows then is not part of
this model.
-/

namespace Workload

/-- `sprintf` of a number into `key_ls`, which has 20 bytes. -/
def keyText (number : UInt64) : Outcome CString :=
  let key := decimalString number.toNat
  if key.length < 20 then
    .ok key
  else
    .error .outOfBounds

/-- Send a GET for a key that is in use about half of the time. -/
def simGet (setCount : UInt64) (rand : Nat → Nat) :
    Outcome (List UInt8) :=
  if setCount * 2 = 0 then
    .error .divisionByZero
  else do
    let roll := UInt64.ofNat (rand 0) % (setCount * 2)
    let key ← keyText roll
    Client.cacheGet key

/--
The size `sim_set` picks for a value.  The last case is the `default` of the
three-sided die, in which nothing is sent.
-/
def pickSize (roll next : Nat) : Option Nat :=
  if roll = 0 then
    some (next % (2 ^ 20 - 1010) + 1000)
  else if roll ≤ 25 then
    some (next % 500 + 501)
  else if roll ≤ 225 then
    some (next % 400 + 101)
  else if roll ≤ 260 then
    some (next % 88 + 12)
  else if roll ≤ 275 then
    some (next % 6 + 4)
  else
    match next % 3 with
    | 0 => some 2
    | 1 => some 3
    | 2 => some 11
    | _ => none

/-- Assign to one of the bytes of `val_ls`. -/
def assign (valLs : Nat → UInt8) (index : Nat) (byte : UInt8) :
    Outcome (Nat → UInt8) :=
  if index < 2 ^ 20 then
    .ok (Function.update valLs index byte)
  else
    .error .outOfBounds

/-- Send a PUT of a value that is cut out of `val_ls` for the time being. -/
def simSet
    (keyNum : UInt64)
    (valLs : Nat → UInt8)
    (rand : Nat → Nat) :
    Outcome (Option (List UInt8) × (Nat → UInt8)) := do
  let roll := rand 0 % 500
  let key ← keyText keyNum
  match pickSize roll (rand 1) with
  | none =>
      .ok (none, valLs)
  | some size => do
      let valLs ← assign valLs size 0
      let message ← Client.cacheSet key valLs (UInt32.ofNat (size + 1))
      let valLs ← assign valLs size 41
      .ok (some message, valLs)

/--
The variables of the program.  `setCount` is the `static` variable of
`send_request`.
-/
structure Variables where
  setCount : UInt64
  valLs : Nat → UInt8
  sendCount : UInt64
  recvCount : UInt64

/-- The variables when `main` has filled `val_ls`. -/
def Variables.start : Variables where
  setCount := 1
  valLs := fun _ => 41
  sendCount := 0
  recvCount := 0

/-- Roll a die and send a GET or a PUT. -/
def sendRequest (vars : Variables) (rand : Nat → Nat) :
    Outcome (Option (List UInt8) × Variables) :=
  if rand 0 % 31 = 0 then do
    let setCount := vars.setCount + 1
    let (message, valLs) ←
      simSet setCount vars.valLs fun call => rand (call + 1)
    .ok (message, { vars with setCount := setCount, valLs := valLs })
  else do
    let message ← simGet vars.setCount fun call => rand (call + 1)
    .ok (some message, vars)

/-- Where `main` is. -/
inductive Phase where
  /-- Before `create_cache`. -/
  | begun
  /-- Before the preliminary `sim_set`. -/
  | created
  /-- At the test of the main loop. -/
  | looping
  /-- Between `send_request` and `send_count ++`. -/
  | sending
  /-- At the loop of `cache_recv`. -/
  | receiving
  /-- After the line was written. -/
  | written
  deriving Repr, DecidableEq

/-- The program, the server and the messages between them. -/
structure System where
  phase : Phase
  vars : Variables
  server : Server
  link : Link (List UInt8) Reply

/-- Before the program has sent anything. -/
def System.start (server : Server) : System where
  phase := .begun
  vars := .start
  server := server
  link := .empty

/-- What was passed to `nn_send`, if anything, is under way. -/
def transmit
    (link : Link (List UInt8) Reply) :
    Option (List UInt8) → Link (List UInt8) Reply
  | none => link
  | some message => link.send message

/-- What one of the two programs does next. -/
inductive Action where
  | createCache
  | preliminarySet (rand : Nat → Nat)
  | sendRequest (rand : Nat → Nat)
  | countSend
  | receive (reply : Reply)
  | receiveNothing
  | write (discrepancy : UInt64)
  | serve (locals : Locals) (following : List UInt8) (reply : Reply)

/--
The steps of the program and of the server, in any order.  The server receives
one message at a time; its local variables and the memory behind the message
may hold anything.  `cache_reply` sends on `global_sock`, which is never
assigned: it is 0, the number `nn_socket` gave to the server's only socket.
-/
inductive System.Step : System → Action → System → Prop where
  | createCache
      {system : System}
      {message : Option (List UInt8)}
      (begun : system.phase = .begun)
      (created : Client.createCache (UInt64.ofNat (2 ^ 26)) = .ok message) :
      Step system .createCache
        { system with
          phase := .created
          link := transmit system.link message }
  | preliminarySet
      {system : System}
      {rand : Nat → Nat}
      {message : Option (List UInt8)}
      {valLs : Nat → UInt8}
      (created : system.phase = .created)
      (set : simSet 0 system.vars.valLs rand = .ok (message, valLs)) :
      Step system (.preliminarySet rand)
        { system with
          phase := .looping
          vars := { system.vars with valLs := valLs }
          link := transmit system.link message }
  | sendRequest
      {system : System}
      {rand : Nat → Nat}
      {message : Option (List UInt8)}
      {vars : Variables}
      (looping : system.phase = .looping)
      (sent : sendRequest system.vars rand = .ok (message, vars)) :
      Step system (.sendRequest rand)
        { system with
          phase := .sending
          vars := vars
          link := transmit system.link message }
  | countSend
      {system : System}
      (sending : system.phase = .sending) :
      Step system .countSend
        { system with
          phase := .receiving
          vars :=
            { system.vars with sendCount := system.vars.sendCount + 1 } }
  | receive
      {system : System}
      {reply : Reply}
      {link : Link (List UInt8) Reply}
      (receiving :
        system.phase = .receiving ∨ system.phase = .written)
      (delivered : system.link.Delivered reply link) :
      Step system (.receive reply)
        { system with
          vars :=
            { system.vars with recvCount := system.vars.recvCount + 1 }
          link := link }
  -- A reply under way need not have arrived when `nn_recv` gives EAGAIN.
  | receiveNothing
      {system : System}
      (receiving : system.phase = .receiving) :
      Step system .receiveNothing { system with phase := .looping }
  | write
      {system : System}
      (looping : system.phase = .looping) :
      Step system
        (.write
          (system.vars.sendCount - (system.vars.recvCount - 2)))
        { system with
          phase := .written
          vars :=
            { system.vars with recvCount := system.vars.recvCount - 2 } }
  | serve
      {system : System}
      {locals : Locals}
      {message following : List UInt8}
      {reply : Reply}
      {server : Server}
      {link : Link (List UInt8) Reply}
      (served : system.link.Served message reply link)
      (received :
        system.server.Receives
          { locals := locals
            buf := message ++ following
            reply := reply }
          server) :
      Step system (.serve locals following reply)
        { system with
          server := server
          link := link }

end Workload

end CacheBench
