import ClusterScaling.Settings.Basic
import ClusterScaling.Toml.Decode
import ClusterScaling.Toml.Document

/-!
# Settings files

A settings file is a TOML document of three sections, each of which may be absent. `Settings.load`
also takes an endpoint from the command line, which replaces that of the file after the file has
been checked.
-/

namespace ClusterScaling

/-- Why a settings file is refused. -/
inductive SettingsError where
  /-- The text is no TOML document. -/
  | malformed
  | mismatch (m : Json.Mismatch)
  | invalid (p : SettingsProblem)
  /-- There is no such file. -/
  | noFile
deriving DecidableEq, Repr

namespace SettingsError

/-- The error in words, where it has any of its own. -/
def message? : SettingsError → Option String
  | malformed => none
  | mismatch m => some (m.message Decimal.Scientific.positional)
  | invalid p => some p.message
  | noFile => some "No such file or directory (os error 2)"

end SettingsError

namespace Settings

/-- Reads settings without checking them. -/
def read (text : String) : Except SettingsError Settings :=
  match Toml.read? text.toList with
  | none => .error .malformed
  | some entries => (shape.ofToml (.table entries)).mapError .mismatch

/-- Reads settings and checks them. -/
def parse (text : String) : Except (OrOverflow SettingsError) Settings := do
  let s ← (read text).mapError .cause
  s.validate.mapError (·.map .invalid)
  .ok s

/-- Reads the settings of a file with the given content, if it exists. -/
def ofFile (content : Option String) : Except (OrOverflow SettingsError) Settings :=
  match content with
  | none => .error (.cause .noFile)
  | some text => parse text

/-- The settings with another endpoint. -/
def withEndpoint (s : Settings) (endpoint : String) : Settings :=
  { s with cluster := { s.cluster with endpoint := endpoint } }

/-- Why settings cannot be loaded: what is wrong in the file, or in what came of it. -/
inductive LoadError where
  | file (e : SettingsError)
  | resolved (p : SettingsProblem)
deriving DecidableEq, Repr

/-- The settings of the given file, or the defaults if none is given, with the endpoint replaced
if one is given. -/
def load (file : Option (Option String)) (endpoint : Option String) :
    Except (OrOverflow LoadError) Settings := do
  let s ← match file with
    | none => pure {}
    | some content => (ofFile content).mapError (·.map .file)
  let s := match endpoint with
    | none => s
    | some e => s.withEndpoint e
  s.validate.mapError (·.map .resolved)
  .ok s

end Settings

end ClusterScaling
