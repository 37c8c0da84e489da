import Cuesheet.CommandLine.Overlay
import Cuesheet.Number.Notation
import Cuesheet.Text.Utf8

/-!
# The words of the command line

The program has three subcommands. Two options, `--root` and `--tool`, may stand before or after the
subcommand; the options of the form belong to `run` and `preview`. `Parameter` names everything that
can be given, and `Parameter.read` reads its value.
-/

namespace Cuesheet.CommandLine

/-- Why a command line is not accepted, or is answered with a text about the program. -/
inductive UsageFault where
  /-- No such option, or a word for which there is no place. -/
  | unknownArgument
  | unknownSubcommand
  /-- A value is missing, or is none of those that are allowed. -/
  | invalidValue
  | unreadableValue
  | notText
  | repeated
  /-- A value is given to an option that takes none. -/
  | unneededValue
  | missingSubcommand
  /-- Nothing at all is given. -/
  | nothingGiven
  | helpAsked
  | versionAsked
deriving DecidableEq, Repr

/-- The part of the command line that an option belongs to: before the subcommand, or behind it. -/
inductive Level where
  | top
  | run
  | preview
  | serve
deriving DecidableEq, Repr

def Level.hasForm : Level → Bool
  | .run | .preview => true
  | .top | .serve => false

inductive Parameter where
  | root
  | tool
  | input
  | output
  | title
  | paper
  | text
  | track
  | shade
  | renumberFrom
  | strips
  | blend
  | toggle (t : Toggle)
  | json
  | help
  | version
deriving DecidableEq, Repr

/-- How a parameter takes its value: not at all; from behind an equals sign or from the next word;
    or only from behind an equals sign, and else it is true. -/
inductive Arity where
  | none
  | value
  | optional
deriving DecidableEq, Repr

inductive Setting where
  | root (path : Bytes)
  | tool (path : Bytes)
  | input (path : Bytes)
  | output (path : Bytes)
  | title (text : String)
  | paper (size : PaperSize)
  | text
  | track (track : Track)
  | shade (index : UInt64)
  | renumberFrom (label : String)
  | strips (count : Binary64)
  | blend (seconds : Binary64)
  | toggle (t : Toggle) (on : Bool)
  | json
deriving DecidableEq

def Setting.parameter : Setting → Parameter
  | .root _ => .root
  | .tool _ => .tool
  | .input _ => .input
  | .output _ => .output
  | .title _ => .title
  | .paper _ => .paper
  | .text => .text
  | .track _ => .track
  | .shade _ => .shade
  | .renumberFrom _ => .renumberFrom
  | .strips _ => .strips
  | .blend _ => .blend
  | .toggle t _ => .toggle t
  | .json => .json

def toggleName : Toggle → String
  | .interpretTags => "interpret-tags"
  | .printFrames => "frames"
  | .openWhenFinished => "open"
  | .printChannelNumbers => "channel-numbers"
  | .decamelizeRegionNames => "decamelize"
  | .printMutedRegions => "muted-regions"

namespace Parameter

def arity : Parameter → Arity
  | .text | .json | .help | .version => .none
  | .toggle _ => .optional
  | _ => .value

def repeats : Parameter → Bool
  | .track => true
  | _ => false

def formOptions : List (String × Parameter) :=
  [("output", .output), ("title", .title), ("paper", .paper), ("text", .text), ("track", .track),
   ("shade", .shade), ("renumber-from", .renumberFrom), ("strips", .strips), ("blend", .blend)]
  ++ Toggle.all.map fun t => (toggleName t, .toggle t)

def options (level : Level) : List (String × Parameter) :=
  [("root", .root), ("tool", .tool), ("help", .help)]
  ++ (if level = .top then [("version", .version)] else [])
  ++ (if level.hasForm then formOptions else [])
  ++ (if level = .preview then [("json", .json)] else [])

def ofLong? (level : Level) (name : String) : Option Parameter := (options level).lookup name

def ofShort? (level : Level) (c : Char) : Option Parameter :=
  let form := [('o', output), ('t', title), ('p', paper), ('s', strips), ('b', blend)]
  let known := [('h', help)] ++ (if level = .top then [('V', version)] else [])
    ++ (if level.hasForm then form else [])
  known.lookup c

/-- A path, which must not be empty. -/
def readPath (value : Bytes) : Except UsageFault Bytes :=
  if value = [] then .error .invalidValue else .ok value

def readText {α : Type} (reader : String → Option α) (value : Bytes) : Except UsageFault α :=
  match Utf8.decode? value with
  | none => .error .notText
  | some s =>
    match reader s with
    | none => .error .unreadableValue
    | some v => .ok v

/-- The position of a switch: nothing is true, and only two words are allowed. -/
def readPosition : Option Bytes → Except UsageFault Bool
  | none => .ok true
  | some value =>
    if value = Utf8.encode "true" then .ok true
    else if value = Utf8.encode "false" then .ok false
    else .error .invalidValue

/-- Reads the value of a parameter. A parameter that needs a value and has none is an error, and so
    is a question for a text about the program. -/
def read (p : Parameter) (value : Option Bytes) : Except UsageFault Setting :=
  match p, value with
  | .text, _ => .ok .text
  | .json, _ => .ok .json
  | .help, _ => .error .helpAsked
  | .version, _ => .error .versionAsked
  | .toggle t, value => (readPosition value).map (.toggle t)
  | _, none => .error .invalidValue
  | .root, some v => (readPath v).map .root
  | .tool, some v => (readPath v).map .tool
  | .input, some v => (readPath v).map .input
  | .output, some v => (readPath v).map .output
  | .title, some v => (readText some v).map .title
  | .paper, some v => (readText PaperSize.ofText? v).map .paper
  | .track, some v => (readText Track.ofText? v).map .track
  | .shade, some v => (readText (natOfText? (Nat.pow 2 64)) v).map fun n => .shade (.ofNat n)
  | .renumberFrom, some v => (readText some v).map .renumberFrom
  | .strips, some v => (readText Binary64.ofText? v).map .strips
  | .blend, some v => (readText Binary64.ofText? v).map .blend

end Parameter

end Cuesheet.CommandLine
