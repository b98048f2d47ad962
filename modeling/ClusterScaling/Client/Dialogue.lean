import ClusterScaling.Client.Basic
import ClusterScaling.Http.Server
import ClusterScaling.Run.Environment

/-!
# Dialogues with a server

The course of a session with a scripted server, and the world of a program whose cluster is such a
server: every call to the cluster is a session, and capacity is looked after by hand.
-/

namespace ClusterScaling

open Http (Request Server)

/-- The course of a session. -/
structure Dialogue (α : Type) where
  /-- The requests that reached the server. -/
  requests : List Request
  /-- The time that it took. -/
  elapsed : Nat
  /-- The time of the first stop signal that the session brought about, from its start on. -/
  signal : Option Nat
  server : Server
  result : Except ClientError α

namespace Dialogue

variable {α : Type}

/-- The dialogue with a request before it, whose answer took some time. -/
def after (r : Request) (time : Nat) (signal : Option Nat) (d : Dialogue α) : Dialogue α :=
  { d with
    requests := r :: d.requests
    elapsed := time + d.elapsed
    signal := signal <|> d.signal.map (time + ·) }

end Dialogue

/-- Holds a session with a server. -/
def Session.run {α : Type} : Session α → Server → Dialogue α
  | .done a, s => ⟨[], 0, none, s, .ok a⟩
  | .fail e, s => ⟨[], 0, none, s, .error e⟩
  | .exchange x next, s =>
    match s.obstacle? x.request with
    | some f => (next (.error f)).run s
    | none =>
      match s.next.action.heard with
      | some answer => ((next answer).run s.rest).after x.request 0 s.next.signalAfter
      | none => ((next (.error .timeout)).run s.rest).after x.request x.timeout.millis none

/-- A server with what it has been asked so far. -/
structure Site where
  server : Server
  requests : List Request := []
  /-- The time of the stop signal. -/
  signal : Option Nat := none

namespace Site

/-- Holds a session from a time on. -/
def hold {α : Type} (site : Site) (time : Nat) (session : Session α) :
    (Nat × Except ClientError α) × Site :=
  let d := session.run site.server
  ((d.elapsed, d.result),
    { server := d.server
      requests := site.requests ++ d.requests
      signal := site.signal <|> d.signal.map (time + ·) })

end Site

namespace Client

/-- The answer to a call. A platform that is looked after by hand agrees to everything. -/
def answer (c : Client) : (call : Call) → Site → Nat → Option (Nat × call.Reply) × Site
  | .query, site, time => (site.hold time c.query).map some id
  | .submit r force, site, time => (site.hold time (c.submit r force)).map some id
  | .pauseReconciliation, site, _ => (some (0, .ok ()), site)
  | .resumeReconciliation, site, _ => (some (0, .ok ()), site)
  | .scaleBrokers _, site, _ => (some (0, .ok ()), site)

/-- The world of a program whose cluster is asked by a client. -/
def environment (c : Client) : Environment Site where
  answer := c.answer
  signal := Site.signal
  signalWins _ _ := true

end Client

end ClusterScaling
