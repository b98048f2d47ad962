import ClusterScaling.Command

/-!
# Arguments

Reads the arguments of a command line, one after the other. Subcommands lead from one level to the
next. The options that are known at all levels may be given once at each of them, and the innermost
one counts.
-/

namespace ClusterScaling.CommandLine

/-! ## Levels and options -/

/-- The subcommand whose arguments are read. -/
inductive Level where
  | program
  | cluster
  | status
  | wait
  | scale
  | forceFailover
  /-- Asks for help on the subcommands that follow. -/
  | help
deriving DecidableEq, Repr

namespace Level

/-- The subcommands of a level. A level that has any also has one for help. -/
def subcommands : Level → List (String × Level)
  | program => [("cluster", cluster), ("help", help)]
  | cluster =>
    [("status", status), ("wait", wait), ("scale", scale), ("force-failover", forceFailover),
      ("help", help)]
  | _ => []

/-- The level as it names itself. -/
def title : Level → String
  | program => "zbchaos"
  | cluster => "zbchaos-cluster"
  | status => "zbchaos-cluster-status"
  | wait => "zbchaos-cluster-wait"
  | scale => "zbchaos-cluster-scale"
  | forceFailover => "zbchaos-cluster-force-failover"
  | help => "zbchaos-help"

end Level

/-- An option that takes a value. -/
inductive Field where
  | config
  | endpoint
  | changeId
  | brokers
  | partitionCount
  | replicationFactor
  | regions
  | regionId
deriving DecidableEq, Repr

namespace Field

/-- The name of the option. -/
def name : Field → String
  | config => "config"
  | endpoint => "endpoint"
  | changeId => "change-id"
  | brokers => "brokers"
  | partitionCount => "partition-count"
  | replicationFactor => "replication-factor"
  | regions => "regions"
  | regionId => "region-id"

end Field

/-- The options with values that a level knows. -/
def Level.fields : Level → List Field
  | .program | .cluster | .status => [.config, .endpoint]
  | .wait => [.config, .endpoint, .changeId]
  | .scale => [.config, .endpoint, .brokers, .partitionCount, .replicationFactor]
  | .forceFailover => [.config, .endpoint, .regions, .regionId, .brokers]
  | .help => []

/-- An option without a value. -/
inductive Switch where
  | verbose
  | help
  | version
deriving DecidableEq, Repr

namespace Switch

/-- All switches with their names; every level knows them. -/
def named : List (String × Switch) := [("verbose", verbose), ("help", help), ("version", version)]

/-- All switches with their letters. -/
def lettered : List (Char × Switch) := [('v', verbose), ('h', help), ('V', version)]

end Switch

/-- What is known of the options. -/
structure Options where
  /-- The path of the settings file. -/
  config : Option String := none
  endpoint : Option String := none
  verbose : Bool := false
  changeId : Option ChangeId := none
  brokers : Option UInt32 := none
  partitionCount : Option UInt32 := none
  replicationFactor : Option UInt32 := none
  regions : UInt32 := 2
  regionId : UInt32 := 0
deriving DecidableEq, Repr

/-! ## Values -/

/-- Reads an integer between two bounds. -/
def readInteger? (low high : Int) (text : String) : Option Int :=
  let magnitude (cs : List Char) : Option Nat := Decimal.readBounded? 0x8000000000000000 cs
  let n := match text.toList with
    | '-' :: '+' :: _ => none
    | '-' :: cs => (magnitude cs).map fun n => -(n : Int)
    | cs => (magnitude cs).map fun n => (n : Int)
  n.filter fun n => low ≤ n && n ≤ high

/-- Reads a count. -/
def readCount? (low : Int) (text : String) : Option UInt32 :=
  (readInteger? low 0xffffffff text).map fun n => UInt32.ofNat n.toNat

/-- The options with a value set, if the text is one. -/
def Options.set? (o : Options) (f : Field) (text : String) : Option Options :=
  match f with
  | .config => if text.isEmpty then none else some { o with config := some text }
  | .endpoint => some { o with endpoint := some text }
  | .changeId =>
    (readInteger? (-0x8000000000000000) 0x7fffffffffffffff text).map fun n =>
      { o with changeId := some (Int64.ofInt n) }
  | .brokers => (readCount? 1 text).map fun n => { o with brokers := some n }
  | .partitionCount => (readCount? 1 text).map fun n => { o with partitionCount := some n }
  | .replicationFactor => (readCount? 1 text).map fun n => { o with replicationFactor := some n }
  | .regions => (readCount? 0 text).map fun n => { o with regions := n }
  | .regionId => (readCount? 0 text).map fun n => { o with regionId := n }

/-! ## Reading -/

/-- How reading ends before there is a command. -/
inductive Ending where
  /-- The arguments are not understood. -/
  | misuse
  | help (level : Level)
  | version (level : Level)
deriving DecidableEq, Repr

/-- What the next argument may be. -/
inductive Expecting where
  | anything
  /-- The value of an option. -/
  | value (f : Field)
  /-- After two dashes no argument is an option, and nothing else is left to be given. -/
  | nothing
  /-- The name of the subcommand that help is asked for. -/
  | topic
deriving DecidableEq, Repr

/-- What has been read so far. -/
structure State where
  level : Level := .program
  expecting : Expecting := .anything
  /-- The options that were given at this level. -/
  given : List Field := []
  /-- Whether `verbose` was given at this level. -/
  loud : Bool := false
  options : Options := {}
deriving DecidableEq, Repr

namespace State

/-- Takes the value of an option, which may be given once at a level. -/
def setField (s : State) (f : Field) (text : String) : Except Ending State :=
  if s.given.contains f then .error .misuse
  else match s.options.set? f text with
    | none => .error .misuse
    | some options =>
      .ok { s with options := options, given := f :: s.given, expecting := .anything }

/-- Takes a switch. Help and version end the reading at once. -/
def setSwitch (s : State) : Switch → Except Ending State
  | .verbose =>
    if s.loud then .error .misuse
    else .ok { s with loud := true, options := { s.options with verbose := true } }
  | .help => .error (.help s.level)
  | .version => .error (.version s.level)

/-- Takes an option with a value, which may be attached to it. -/
def takeField (s : State) (f : Field) (attached : Option String) : Except Ending State :=
  match attached with
  | some text => s.setField f text
  | none => .ok { s with expecting := .value f }

/-- Takes an option by its name. -/
def takeNamed (s : State) (name : String) (attached : Option String) : Except Ending State :=
  match Switch.named.lookup name with
  | some w => if attached.isSome then .error .misuse else s.setSwitch w
  | none =>
    match s.level.fields.find? fun f => f.name == name with
    | some f => s.takeField f attached
    | none => .error .misuse

/-- Takes options by their letters. Behind the letter `c` stands its value, if anything. -/
def takeLetters (s : State) : List Char → Except Ending State
  | [] => .ok s
  | 'c' :: cs =>
    let value := match cs with
      | '=' :: cs => some cs
      | [] => none
      | cs => some cs
    s.takeField .config (value.map String.ofList)
  | c :: cs =>
    match Switch.lettered.lookup c with
    | some w => do
      let s ← s.setSwitch w
      s.takeLetters cs
    | none => .error .misuse

/-- Goes to a subcommand. -/
def enter (s : State) (name : String) : Except Ending State :=
  match s.level.subcommands.lookup name with
  | some .help => .ok { s with expecting := .topic }
  | some level => .ok { s with level := level, given := [], loud := false }
  | none => .error .misuse

/-- Goes to the subcommand that help is asked for. -/
def enterTopic (s : State) (name : String) : Except Ending State :=
  match s.level.subcommands.lookup name with
  | some level => .ok { s with level := level }
  | none => .error .misuse

/-- Reads an argument that may be anything. -/
def readAny (s : State) (arg : String) : Except Ending State :=
  match arg.toList with
  | ['-', '-'] => .ok { s with expecting := .nothing }
  | '-' :: '-' :: cs =>
    let name := cs.takeWhile (· ≠ '=')
    let value := match cs.dropWhile (· ≠ '=') with
      | [] => none
      | _ :: cs => some (String.ofList cs)
    s.takeNamed (String.ofList name) value
  | '-' :: c :: cs => s.takeLetters (c :: cs)
  | _ => s.enter arg

/-- Whether an argument has the form of an option. -/
def isDashed (arg : String) : Bool :=
  match arg.toList with
  | '-' :: _ :: _ => true
  | _ => false

/-- Reads one argument. -/
def read (s : State) (arg : String) : Except Ending State :=
  match s.expecting with
  | .anything => s.readAny arg
  | .value f => if isDashed arg then .error .misuse else s.setField f arg
  | .nothing => .error .misuse
  | .topic => s.enterTopic arg

/-- The command when all arguments are read. -/
def command (s : State) : Except Ending Command :=
  let o := s.options
  match s.level with
  | .program | .cluster | .help => .error .misuse
  | .status => .ok .status
  | .wait => .ok (.wait o.changeId)
  | .scale =>
    if o.brokers.isNone && o.partitionCount.isNone && o.replicationFactor.isNone then
      .error .misuse
    else .ok (.scale ⟨o.brokers, o.partitionCount, o.replicationFactor⟩)
  | .forceFailover =>
    match o.brokers with
    | none => .error .misuse
    | some n => .ok (.forceFailover o.regions o.regionId n)

/-- Ends the reading. -/
def finish (s : State) : Except Ending (Options × Command) :=
  match s.expecting with
  | .value _ => .error .misuse
  | .topic => .error (.help s.level)
  | .anything | .nothing => do
    let c ← s.command
    .ok (s.options, c)

end State

/-- Reads all arguments. -/
def read (args : List String) : Except Ending (Options × Command) := do
  let s ← args.foldlM State.read {}
  s.finish

end ClusterScaling.CommandLine
