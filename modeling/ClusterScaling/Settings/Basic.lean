import ClusterScaling.Duration
import ClusterScaling.Json.Decode
import ClusterScaling.Text.Basic

/-!
# Settings

What can be set: where the management API is and how long to wait for what. All settings have
defaults. Durations are kept as they are written and read again each time, so whatever reads them
may overflow. `Settings.validate` accepts only settings whose durations are all positive.
-/

namespace ClusterScaling

open Json (Shape)

/-- Where the management API is. -/
structure ClusterSettings where
  /-- The base URL of the management API. -/
  endpoint : String := "http://localhost:9600/actuator"
  requestTimeout : String := "30s"
deriving DecidableEq, Repr

/-- How long to wait for what. -/
structure WaitSettings where
  pollInterval : String := "5s"
  timeout : String := "5m"
  /-- The bound of waits for brokers to leave, whose data has to move. -/
  scaleDownTimeout : String := "25m"
  /-- The bound of the wait for the expected brokers before a failover. -/
  failoverTimeout : String := "5m"
deriving DecidableEq, Repr

/-- What to do beside changing the cluster. -/
structure ScaleSettings where
  /-- Whether the platform goes back to its own reconciliation after a change. -/
  resumeReconciliation : Bool := false
deriving DecidableEq, Repr

/-- All settings. -/
structure Settings where
  cluster : ClusterSettings := {}
  watch : WaitSettings := {}
  scale : ScaleSettings := {}
deriving DecidableEq, Repr

/-! ## Shapes -/

/-- The section `cluster`. -/
def ClusterSettings.shape : Shape ClusterSettings :=
  let default : ClusterSettings := {}
  .record "ClusterConfig"
    (.default "endpoint" .text default.endpoint <|
      .default "request_timeout" .text default.requestTimeout .nil)
    (fun (endpoint, requestTimeout, _) => ⟨endpoint, requestTimeout⟩)
    (fun s => (s.endpoint, s.requestTimeout, ()))
    (fun _ => rfl) (fun _ => rfl)

/-- The section `watch`. -/
def WaitSettings.shape : Shape WaitSettings :=
  let default : WaitSettings := {}
  .record "WatchConfig"
    (.default "poll_interval" .text default.pollInterval <|
      .default "timeout" .text default.timeout <|
      .default "scale_down_timeout" .text default.scaleDownTimeout <|
      .default "failover_timeout" .text default.failoverTimeout .nil)
    (fun (poll, timeout, scaleDown, failover, _) => ⟨poll, timeout, scaleDown, failover⟩)
    (fun s => (s.pollInterval, s.timeout, s.scaleDownTimeout, s.failoverTimeout, ()))
    (fun _ => rfl) (fun _ => rfl)

/-- The section `scale`. -/
def ScaleSettings.shape : Shape ScaleSettings :=
  let default : ScaleSettings := {}
  .record "ScaleConfig"
    (.default "resume_reconciliation" .flag default.resumeReconciliation .nil)
    (fun (resume, _) => ⟨resume⟩)
    (fun s => (s.resumeReconciliation, ()))
    (fun _ => rfl) (fun _ => rfl)

/-- All sections. -/
def Settings.shape : Shape Settings :=
  let default : Settings := {}
  .record "ChaosConfig"
    (.default "cluster" ClusterSettings.shape default.cluster <|
      .default "watch" WaitSettings.shape default.watch <|
      .default "scale" ScaleSettings.shape default.scale .nil)
    (fun (cluster, watch, scale, _) => ⟨cluster, watch, scale⟩)
    (fun s => (s.cluster, s.watch, s.scale, ()))
    (fun _ => rfl) (fun _ => rfl)

/-! ## Validation -/

/-- Why settings are not valid. -/
inductive SettingsProblem where
  | endpointNotHttp (endpoint : String)
  | notPositive (key value : String)
deriving DecidableEq, Repr

namespace SettingsProblem

/-- The problem in words. -/
def message : SettingsProblem → String
  | endpointNotHttp endpoint =>
    s!"cluster.endpoint must be an http:// URL, got {Text.quote endpoint}"
  | notPositive key value => s!"{key} must be a positive duration, got {Text.quote value}"

end SettingsProblem

namespace Settings

/-- The settings that are durations, with their keys. -/
def durations (s : Settings) : List (String × String) :=
  [("cluster.request_timeout", s.cluster.requestTimeout),
   ("watch.poll_interval", s.watch.pollInterval),
   ("watch.timeout", s.watch.timeout),
   ("watch.scale_down_timeout", s.watch.scaleDownTimeout),
   ("watch.failover_timeout", s.watch.failoverTimeout)]

/-- Whether the text is a duration other than zero. -/
def isPositive (text : String) : Bool :=
  match Duration.parse? text with
  | .ok (some d) => 0 < d.millis
  | .ok none | .error _ => false

/-- Why a duration under a key is not accepted, where it is not positive. -/
def refusal (key text : String) : OrOverflow SettingsProblem :=
  match Duration.parse? text with
  | .ok _ => .cause (.notPositive key text)
  | .error o => .overflow o

/-- Accepts settings with an HTTP endpoint and positive durations. -/
def validate (s : Settings) : Except (OrOverflow SettingsProblem) Unit :=
  if !"http://".toList.isPrefixOf s.cluster.endpoint.toList then
    .error (.cause (.endpointNotHttp s.cluster.endpoint))
  else match s.durations.find? fun d => !isPositive d.2 with
    | some (key, text) => .error (refusal key text)
    | none => .ok ()

/-- The duration that the text denotes, or `fallback` if it denotes none. -/
def durationOr (fallback : Duration) (text : String) : Except Overflow Duration :=
  (Duration.parse? text).map fun d => d.getD fallback

/-- The bound of one request. -/
def requestTimeout (s : Settings) : Except Overflow Duration :=
  durationOr (.ofSeconds 30) s.cluster.requestTimeout

/-- The time between two polls. -/
def pollInterval (s : Settings) : Except Overflow Duration :=
  durationOr (.ofSeconds 5) s.watch.pollInterval

/-- The bound of ordinary waits. -/
def watchTimeout (s : Settings) : Except Overflow Duration :=
  durationOr (.ofSeconds 300) s.watch.timeout

/-- The bound of waits for brokers to leave. -/
def scaleDownTimeout (s : Settings) : Except Overflow Duration :=
  durationOr (.ofSeconds 1500) s.watch.scaleDownTimeout

/-- The bound of the wait for the expected brokers. -/
def failoverTimeout (s : Settings) : Except Overflow Duration :=
  durationOr (.ofSeconds 300) s.watch.failoverTimeout

end Settings

/-- How often to poll, and for how long. -/
structure WaitBounds where
  poll : Duration
  timeout : Duration
deriving DecidableEq, Repr

namespace Settings

/-- The bounds of ordinary waits. -/
def ordinaryWait (s : Settings) : Except Overflow WaitBounds := do
  let poll ← s.pollInterval
  let timeout ← s.watchTimeout
  return ⟨poll, timeout⟩

/-- The bounds of waits for brokers to leave. -/
def scaleDownWait (s : Settings) : Except Overflow WaitBounds := do
  let poll ← s.pollInterval
  let timeout ← s.scaleDownTimeout
  return ⟨poll, timeout⟩

/-- The bounds of the wait for the expected brokers: those of ordinary waits with another
timeout. -/
def failoverWait (s : Settings) : Except Overflow WaitBounds := do
  let ordinary ← s.ordinaryWait
  let timeout ← s.failoverTimeout
  return { ordinary with timeout := timeout }

end Settings

end ClusterScaling
