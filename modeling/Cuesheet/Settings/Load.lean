import Cuesheet.Host
import Cuesheet.Invocation.Arguments
import Cuesheet.Path
import Cuesheet.Wire.Settings
import Cuesheet.Wire.Text

/-!
# Loading settings

Settings are read from `.qsrunner/config.toml` below a root directory. If there is no such file,
the settings are the defaults. Settings that load are usable: the tool has a name that is not
blank, and the defaults of the form pass `Arguments.check`.
-/

namespace Cuesheet.Settings

inductive ValueFault where
  | blankProgram
  | form (reason : FormFault)
deriving DecidableEq

def ValueFault.message : ValueFault → String
  | .blankProgram => "tool.program must not be empty"
  | .form reason => (Invocation.Fault.invalidConfiguration reason).message

inductive Fault where
  | unreadable (path : Bytes) (cause : OsFault)
  | notToml (path : Bytes)
  | badValue (path : Bytes) (reason : ValueFault)
deriving DecidableEq

def Fault.message : Fault → String
  | .unreadable path cause =>
    "Cannot read settings file " ++ Utf8.display path ++ ": " ++ cause.message
  | .notToml path => "Settings file " ++ Utf8.display path ++ " is not valid TOML"
  | .badValue path reason =>
    "Bad value in settings file " ++ Utf8.display path ++ ": " ++ reason.message

def file (root : Bytes) : Bytes :=
  Path.join (Path.join root (Utf8.encode ".qsrunner")) (Utf8.encode "config.toml")

def check (s : Settings) : Except ValueFault Settings :=
  if Text.allBlank s.tool.program then .error .blankProgram
  else match Arguments.check s.defaults with
    | .error reason => .error (.form reason)
    | .ok _ => .ok s

def load (host : Host) (root : Bytes) : Except Fault Settings :=
  let path := file root
  if !host.isPresent path then .ok {}
  else match host.read path with
    | .error cause => .error (.unreadable path cause)
    | .ok content =>
      match Utf8.decode? content with
      | none => .error (.unreadable path .notText)
      | some s =>
        match Wire.settings.readToml? s with
        | none => .error (.notToml path)
        | some settings => (check settings).mapError (.badValue path)

end Cuesheet.Settings
