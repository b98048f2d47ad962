import ClusterScaling.CommandLine.Basic
import ClusterScaling.Http.Message
import Std.Async.DNS
import Std.Async.Signal
import Std.Async.TCP

/-!
# The program

Carries out a program against a real cluster: time is that of the machine, exchanges go over the
network, capacity is looked after by hand, and the stop signal is the operator's interrupt.
-/

namespace ClusterScaling

open Std.Async Std.Net

/-! ## Waiting -/

/-- How a wait for a task ended. -/
inductive Waited (α : Type) where
  | ready (a : α)
  | late
  | interrupted

/-- What may end a wait early. -/
structure Guard where
  limit : Option Nat
  stopped : BaseIO Bool

/-- The guard that nothing ends early. -/
def Guard.none : Guard := ⟨.none, pure false⟩

/-- Waits for a task. -/
partial def Guard.await {α : Type} (g : Guard) (task : Task α) : IO (Waited α) := do
  if ← IO.hasFinished task then return .ready task.get
  if ← g.stopped then return .interrupted
  let now ← IO.monoMsNow
  if g.limit.any fun t => t ≤ now then return .late
  IO.sleep 2
  g.await task

/-- Sleeps up to a time. -/
partial def Guard.sleep (g : Guard) (wake : Nat) : IO Sleep := do
  let now ← IO.monoMsNow
  if wake ≤ now then return .woken
  if ← g.stopped then return .interrupted
  IO.sleep (UInt32.ofNat (min 20 (wake - now)))
  g.sleep wake

/-! ## Exchanges -/

/-- The host and the port of an address. -/
def hostAndPort (address : String) : String × UInt16 :=
  let cs := address.toList.reverse
  let port := (cs.takeWhile (· ≠ ':')).reverse
  let host := (cs.dropWhile (· ≠ ':')).drop 1 |>.filter fun c => c ≠ '[' && c ≠ ']'
  (String.ofList host.reverse, UInt16.ofNat (Decimal.ofDigits port))

/-- Connects to the first of some addresses that accepts. -/
def connectFirst (port : UInt16) : List IPAddr → Async (Option TCP.Socket.Client)
  | [] => return none
  | a :: rest => do
    let socket ← TCP.Socket.Client.mk
    let target : SocketAddress := match a with
      | .v4 a => .v4 ⟨a, port⟩
      | .v6 a => .v6 ⟨a, port⟩
    try
      socket.connect target
      return some socket
    catch _ => connectFirst port rest

/-- Receives a response, of which some bytes have come. -/
partial def receive (socket : TCP.Socket.Client) (received : List UInt8) :
    Async Http.Answer := do
  let more ← socket.recv? 65536
  let bytes := received ++ (more.map fun b => b.toList).getD []
  match Http.Message.read more.isNone bytes with
  | .whole r => return .ok r
  | .failed f => return .error f
  | .partly f => if more.isNone then return .error f else receive socket bytes

/-- Carries out an exchange as long as it takes. -/
def talk (x : Http.Exchange) : Async Http.Answer := do
  let (host, port) := hostAndPort x.address
  let socket ← try
      let found ← DNS.getAddrInfo host (Decimal.text port.toNat)
      connectFirst port found.toList
    catch _ => pure none
  match socket with
  | none => return .error .connect
  | some socket =>
    if x.request.isTooLong then return .error .build
    try
      socket.send x.text.toUTF8
      receive socket []
    catch _ => return .error .send

/-- Carries out a session. -/
def Session.perform {α : Type} (g : Guard) : Session α → IO (Waited (Except ClientError α))
  | .done a => return .ready (.ok a)
  | .fail e => return .ready (.error e)
  | .exchange x next => do
    let own := (← IO.monoMsNow) + x.timeout.millis
    let task ← (talk x).toIO
    match ← { g with limit := some (g.limit.elim own (min own)) : Guard }.await task with
    | .ready (.ok answer) => (next answer).perform g
    | .ready (.error _) => (next (.error .send)).perform g
    | .interrupted => return .interrupted
    | .late =>
      let now ← IO.monoMsNow
      if g.limit.any fun t => t ≤ now then return .late
      (next (.error .timeout)).perform g

/-- Carries out a session as long as it takes. -/
def Session.performWhole {α : Type} (s : Session α) : IO (Except ClientError α) := do
  match ← s.perform .none with
  | .ready r => return r
  | _ => return .error (.transport "wait ended")

/-! ## Programs -/

/-- What a program is carried out with. -/
structure Setting where
  client : Client
  /-- Whether notices of the lowest level are shown. -/
  verbose : Bool
  stopped : BaseIO Bool

namespace Setting

/-- Shows a notice to the operator. -/
def tell (s : Setting) (n : Notice) : IO Unit :=
  if n.level = .debug && !s.verbose then return () else IO.println n.line

/-- Makes a call. -/
def answer (s : Setting) : (c : Call) → IO c.Reply
  | .query => s.client.query.performWhole
  | .submit r force => (s.client.submit r force).performWhole
  | .pauseReconciliation => do s.tell .pauseByHand; return .ok ()
  | .resumeReconciliation => do s.tell .resumeByHand; return .ok ()
  | .scaleBrokers n => do s.tell (.scaleByHand n); return .ok ()

/-- Queries the cluster up to a time. -/
def poll (s : Setting) (limit : Nat) : IO Poll := do
  if ← s.stopped then return .interrupted
  match ← s.client.query.perform ⟨some limit, s.stopped⟩ with
  | .ready r => return .arrived r
  | .late => return .late
  | .interrupted => return .interrupted

end Setting

/-- Carries out a program. -/
def Program.perform {α : Type} (s : Setting) : Program α → IO (Except Stop α)
  | .done a => return .ok a
  | .stop e => return .error e
  | .log notices next => do
    notices.forM s.tell
    next.perform s
  | .clock next => do
    let now ← IO.monoMsNow
    (next now).perform s
  | .call c next => do
    let reply ← s.answer c
    (next reply).perform s
  | .poll limit next => do
    let result ← s.poll limit
    (next result).perform s
  | .sleep wake next => do
    let result ← Guard.sleep ⟨none, s.stopped⟩ wake
    (next result).perform s

namespace CommandLine

/-- Prints what a process leaves behind, and gives its exit code. -/
def Exit.print (e : Exit) : IO UInt32 := do
  IO.print e.output
  IO.eprint e.errors
  return e.code

/-- The content of a file, if it can be read. -/
def contentOf (path : String) : IO (Option String) := do
  try
    let text ← IO.FS.readFile path
    return some text
  catch _ => return none

/-- Carries out a job. -/
def Job.perform (job : Job) : IO Exit := do
  let waiter ← Signal.Waiter.mk .sigint false
  let interrupt ← waiter.wait
  let setting : Setting := ⟨job.client, job.verbose, IO.hasFinished interrupt⟩
  let result ← job.program.perform setting
  if ← setting.stopped then setting.tell .interrupted else waiter.stop
  return Job.exit result

end CommandLine

end ClusterScaling

open ClusterScaling in
/-- Reads the arguments and carries out what they ask for. -/
def main (args : List String) : IO UInt32 := do
  match CommandLine.read args with
  | .error ending => ending.exit.print
  | .ok (options, command) =>
    let file ← match options.config with
      | none => pure none
      | some path => CommandLine.contentOf path
    match CommandLine.prepare options command file with
    | .error exit => exit.print
    | .ok job =>
      let exit ← job.perform
      exit.print
