import ClusterScaling.Client.Dialogue
import ClusterScaling.CommandLine.Arguments
import ClusterScaling.Settings.File

/-!
# The command line

From the arguments to what is printed and the exit code. Settings are loaded before a command is
begun, so a command with bad settings sends nothing.
-/

namespace ClusterScaling.CommandLine

/-- What a process leaves behind. -/
structure Exit where
  code : UInt32
  output : String
  errors : String
deriving DecidableEq, Repr

/-- The version of the program. -/
def version : String := "0.1.0"

/-- How to use a level. -/
def usage (level : Level) : String :=
  let options := "[--config PATH] [--endpoint URL] [--verbose]"
  let lines := match level with
    | .program | .cluster =>
      ["cluster status", "cluster wait [--change-id ID]",
        "cluster scale [--brokers N] [--partition-count N] [--replication-factor N]",
        "cluster force-failover --brokers N [--regions N] [--region-id N]"]
    | .status => ["cluster status"]
    | .wait => ["cluster wait [--change-id ID]"]
    | .scale => ["cluster scale [--brokers N] [--partition-count N] [--replication-factor N]"]
    | .forceFailover => ["cluster force-failover --brokers N [--regions N] [--region-id N]"]
    | .help => ["help [SUBCOMMAND...]"]
  "Usage:\n" ++ String.join (lines.map fun l => s!"  zbchaos {options} {l}\n")

namespace Ending

/-- What is printed when there is no command. -/
def exit : Ending → Exit
  | .misuse => ⟨2, "", usage .program⟩
  | .help level => ⟨0, usage level, ""⟩
  | .version level => ⟨0, s!"{level.title} {CommandLine.version}\n", ""⟩

end Ending

/-! ## Errors -/

/-- A text with each of its lines after some blanks; `first` stands before the first one. -/
def indented (first blanks text : String) : String :=
  first ++ ("\n" ++ blanks).intercalate (text.splitToList (· == '\n'))

/-- One of several causes. -/
def numbered (cause : String × Nat) : String :=
  let number := Decimal.text cause.2
  indented ("".pushn ' ' (5 - number.length) ++ number ++ ": ") "       " cause.1

/-- An error with what it goes back to. -/
def report : List String → String
  | [] => ""
  | [message] => s!"Error: {message}\n"
  | [message, cause] => s!"Error: {message}\n\nCaused by:\n{indented blanks blanks cause}\n"
  | message :: causes =>
    let lines := "\n".intercalate (causes.zipIdx.map numbered)
    s!"Error: {message}\n\nCaused by:\n{lines}\n"
where
  /-- The space before a cause. -/
  blanks : String := "    "

/-- The exit with an error. -/
def failed (messages : List String) : Exit := ⟨1, "", report messages⟩

/-- The exit of a process that breaks off. -/
def crashed (message : String) : Exit := ⟨101, "", message ++ "\n"⟩

/-- The exit with an error, or after an overflow. -/
def ended {ε : Type} (messages : ε → List String) : OrOverflow ε → Exit
  | .cause e => failed (messages e)
  | .overflow o => crashed o.message

/-- What went wrong while settings were loaded, where a file was read from `path`. -/
def loadMessages (path : String) : Settings.LoadError → List String
  | .file e => [s!"failed to load config from {path}", e.message?.getD "invalid document"]
  | .resolved p => [p.message]

/-! ## Runs -/

/-- A command with all that it needs. -/
structure Job where
  verbose : Bool
  client : Client
  program : Program String

/-- The job that the arguments ask for, where the settings file holds `file`, if there is one. -/
def prepare (o : Options) (c : Command) (file : Option String) : Except Exit Job := do
  let path := o.config.getD ""
  let settings ←
    (Settings.load (o.config.map fun _ => file) o.endpoint).mapError (ended (loadMessages path))
  let (client, program) ← (c.prepare settings).mapError (ended CommandError.messages)
  .ok ⟨o.verbose, client, program⟩

/-- The exit of a job with some result. -/
def Job.exit (result : Except Stop String) : Exit :=
  match result with
  | .ok text => ⟨0, text, ""⟩
  | .error (.error e) => failed (CommandError.run e).messages
  | .error .clockOverflow => crashed "overflow when adding duration to instant"
  | .error (.durationOverflow o) => crashed o.message
  | .error .endless => crashed "the wait does not end"

/-- Runs the program with some arguments against a scripted server. -/
def run (args : List String) (file : Option String) (site : Site) : Exit × Site :=
  match read args with
  | .error ending => (ending.exit, site)
  | .ok (o, c) =>
    match prepare o c file with
    | .error exit => (exit, site)
    | .ok job =>
      let course := job.client.environment.run job.program site 0
      (Job.exit course.result, course.state)

end ClusterScaling.CommandLine
