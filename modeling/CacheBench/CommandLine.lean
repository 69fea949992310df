import CacheBench.Server

namespace CacheBench

/-!
# The command line of the server

`main` goes through all its arguments, those that are values of an option
included, and takes what stands behind `-t` and `-m` without looking whether
there is anything.  Behind the last argument there is NULL.
-/

/-- The variables of `main` that the arguments set. -/
structure Options where
  port : Option CString
  maxmem : UInt64

/-- The value of `-m`, which `atoi` reads as an `int`. -/
def Options.readMaxmem (argument : CString) : UInt64 :=
  intToUInt64 (atoi argument.bytes)

/--
The loop over the arguments.  It returns nothing where `main` prints its usage,
and faults where `strlen` or `atoi` is called with NULL.
-/
def scanArguments :
    List CString → Options → Outcome (Option Options)
  | [], options => .ok (some options)
  | argument :: rest, options =>
      if argument.bytes = ascii "-t" then
        match rest with
        | [] => .error .outOfBounds
        | port :: _ =>
            if 5 < port.length then
              .ok none
            else
              scanArguments rest { options with port := some port }
      else if argument.bytes = ascii "-m" then
        match rest with
        | [] => .error .outOfBounds
        | maxmem :: _ =>
            scanArguments rest
              { options with maxmem := Options.readMaxmem maxmem }
      else
        scanArguments rest options

/-- `strcat` to `addr`, which has 64 bytes. -/
def appendPort (port : CString) : Outcome CString :=
  let addr := CString.ofText "tcp://0.0.0.0:" ++ port
  if addr.length < 64 then
    .ok addr
  else
    .error .outOfBounds

/--
`main` up to the call of `send_recv`: the address and the server's first state,
or nothing if the usage was printed.
-/
def serverMain (blocks : Nat → Nat → Slab) (argv : List CString) :
    Outcome (Option (CString × Server)) := do
  match ← scanArguments argv { port := none, maxmem := 0 } with
  | none => .ok none
  | some options => do
      let addr ← appendPort (options.port.getD (CString.ofText "50000"))
      .ok (some (addr, Server.start blocks options.maxmem))

/-! ## What the arguments mean -/

/-- The arguments that stand behind an option, first one first. -/
def valuesOf (option : List UInt8) : List CString → List CString
  | argument :: value :: rest =>
      if argument.bytes = option then
        value :: valuesOf option (value :: rest)
      else
        valuesOf option (value :: rest)
  | _ => []

/-- A port that is too long for `main`. -/
def hasLongPort (argv : List CString) : Bool :=
  (valuesOf (ascii "-t") argv).any fun port => 5 < port.length

/-- The last argument is an option without a value. -/
def endsWithOption (argv : List CString) : Bool :=
  argv.getLast?.any fun argument =>
    argument.bytes = ascii "-t" || argument.bytes = ascii "-m"

/-- The variables after the loop: the last value of an option counts. -/
def Options.after (options : Options) (argv : List CString) : Options where
  port := (valuesOf (ascii "-t") argv).getLast?.or options.port
  maxmem :=
    ((valuesOf (ascii "-m") argv).getLast?.map readMaxmem).getD
      options.maxmem

theorem endsWithOption_cons (argument value : CString) (rest : List CString) :
    endsWithOption (argument :: value :: rest) =
      endsWithOption (value :: rest) := by
  simp [endsWithOption]

theorem options_ne : ascii "-m" ≠ ascii "-t" := by
  decide

section Cons

variable {argument value : CString} {rest : List CString}

/-- A value behind an option counts unless another one follows. -/
theorem getLast_valuesOf
    {option : List UInt8}
    (isOption : argument.bytes = option) :
    (valuesOf option (argument :: value :: rest)).getLast? =
      (valuesOf option (value :: rest)).getLast?.or (some value) := by
  rw [valuesOf, if_pos isOption, List.getLast?_cons]
  cases (valuesOf option (value :: rest)).getLast? <;> rfl

theorem valuesOf_of_ne
    {option : List UInt8}
    (notOption : argument.bytes ≠ option) :
    valuesOf option (argument :: value :: rest) =
      valuesOf option (value :: rest) := by
  rw [valuesOf, if_neg notOption]

theorem after_port
    (isPort : argument.bytes = ascii "-t")
    (options : Options) :
    options.after (argument :: value :: rest) =
      { options with port := some value }.after (value :: rest) := by
  have notMaxmem : argument.bytes ≠ ascii "-m" := by
    rw [isPort]
    exact options_ne.symm
  simp only [Options.after, getLast_valuesOf isPort,
    valuesOf_of_ne notMaxmem, Option.or_assoc, Option.some_or]

theorem after_maxmem
    (isMaxmem : argument.bytes = ascii "-m")
    (options : Options) :
    options.after (argument :: value :: rest) =
      { options with maxmem := Options.readMaxmem value }.after
        (value :: rest) := by
  have notPort : argument.bytes ≠ ascii "-t" := by
    rw [isMaxmem]
    exact options_ne
  simp only [Options.after, getLast_valuesOf isMaxmem,
    valuesOf_of_ne notPort]
  cases (valuesOf (ascii "-m") (value :: rest)).getLast? <;> rfl

end Cons

/-- The loop in terms of the whole list. -/
theorem scanArguments_eq (argv : List CString) (options : Options) :
    scanArguments argv options =
      if hasLongPort argv then
        .ok none
      else if endsWithOption argv then
        .error .outOfBounds
      else
        .ok (some (options.after argv)) := by
  induction argv generalizing options with
  | nil => rfl
  | cons argument rest inductionHypothesis =>
      cases rest with
      | nil =>
          by_cases isPort : argument.bytes = ascii "-t"
          · simp [scanArguments, isPort, hasLongPort, valuesOf,
              endsWithOption]
          by_cases isMaxmem : argument.bytes = ascii "-m"
          · simp [scanArguments, isMaxmem, options_ne, hasLongPort,
              valuesOf, endsWithOption]
          · simp [scanArguments, isPort, isMaxmem, hasLongPort, valuesOf,
              endsWithOption, Options.after]
      -- The value of an option is the next argument the loop looks at.
      | cons value rest =>
          rw [endsWithOption_cons, scanArguments]
          by_cases isPort : argument.bytes = ascii "-t"
          · rw [if_pos isPort, after_port isPort]
            by_cases isLong : 5 < value.length
            · simp [hasLongPort, valuesOf, isPort, isLong]
            · have sameLong :
                  hasLongPort (argument :: value :: rest) =
                    hasLongPort (value :: rest) := by
                simp [hasLongPort, valuesOf, isPort, isLong]
              rw [sameLong]
              simp only [isLong, ↓reduceIte]
              exact inductionHypothesis _
          have sameLong :
              hasLongPort (argument :: value :: rest) =
                hasLongPort (value :: rest) := by
            rw [hasLongPort, valuesOf_of_ne isPort, hasLongPort]
          rw [if_neg isPort, sameLong]
          by_cases isMaxmem : argument.bytes = ascii "-m"
          · rw [if_pos isMaxmem, after_maxmem isMaxmem]
            exact inductionHypothesis _
          · rw [if_neg isMaxmem, inductionHypothesis, Options.after,
              Options.after, valuesOf_of_ne isPort, valuesOf_of_ne isMaxmem]

/-- The ports behind `-t` when the usage is not printed. -/
theorem length_port_le
    {argv : List CString}
    (noLongPort : hasLongPort argv = false) :
    (((valuesOf (ascii "-t") argv).getLast?).getD
      (CString.ofText "50000")).length ≤ 5 := by
  cases last : (valuesOf (ascii "-t") argv).getLast? with
  | none => decide
  | some port =>
      have isShort :=
        List.any_eq_false.mp noLongPort port
          (List.mem_of_getLast? last)
      simpa using isShort

theorem appendPort_of_short
    {port : CString}
    (short : port.length ≤ 5) :
    appendPort port = .ok (CString.ofText "tcp://0.0.0.0:" ++ port) := by
  have leading : (CString.ofText "tcp://0.0.0.0:").length = 14 := by
    decide
  have total :
      (CString.ofText "tcp://0.0.0.0:" ++ port).length < 64 := by
    rw [CString.length_append, leading]
    omega
  rw [appendPort, if_pos total]

/--
What the server does with its arguments.  It prints the usage if a `-t` is
followed by more than five characters, and otherwise reads past the end of the
arguments if the last one is `-t` or `-m`.  In all other cases it listens at
the port behind the last `-t`, or at 50000, the address fits in its array, and
the limit is the number behind the last `-m`; 0 stands for the default.
-/
theorem serverMain_eq
    (blocks : Nat → Nat → Slab)
    (argv : List CString) :
    serverMain blocks argv =
      if hasLongPort argv then
        .ok none
      else if endsWithOption argv then
        .error .outOfBounds
      else
        .ok (some
          (CString.ofText "tcp://0.0.0.0:" ++
              (valuesOf (ascii "-t") argv).getLast?.getD
                (CString.ofText "50000"),
            Server.start blocks
              (((valuesOf (ascii "-m") argv).getLast?.map
                Options.readMaxmem).getD 0))) := by
  rw [serverMain, scanArguments_eq]
  cases isLong : hasLongPort argv with
  | true => rfl
  | false =>
      cases ends : endsWithOption argv with
      | true => rfl
      | false =>
          have fits := appendPort_of_short (length_port_le isLong)
          simp only [Bool.false_eq_true, ↓reduceIte, bind, Except.bind,
            Options.after, Option.or_none, fits]

/-- A value of an option is looked at as an option itself. -/
example (blocks : Nat → Nat → Slab) :
    serverMain blocks
        [CString.ofText "srvr", CString.ofText "-t", CString.ofText "-m",
          CString.ofText "9"] =
      .ok (some
        (CString.ofText "tcp://0.0.0.0:-m", Server.start blocks 9)) :=
  rfl

end CacheBench
