import Cuesheet.CommandLine.Grammar
import Cuesheet.Path

/-!
# Reading the command line

Words are taken one after the other. An option that takes its value from the next word stays
*pending* until that word has come and something else follows, and so does the input file; only then
is the value read, and only then does a fault of it count. A value that stands in the option's own
word is read at once, after whatever is pending. An option that is not known is a fault before all
that is pending.

Two hyphens alone end the options. One hyphen alone is an input file.
-/

namespace Cuesheet.CommandLine

/-- What is pending: a parameter, and its value once it has come. -/
structure Pending where
  parameter : Parameter
  value : Option Bytes
deriving DecidableEq, Repr

/-- The command line up to some word. -/
structure Progress where
  settings : List Setting := []
  pending : Option Pending := none
  /-- Whether two hyphens have ended the options. -/
  optionsEnded : Bool := false
  inputSeen : Bool := false
deriving DecidableEq

namespace Progress

/-- The option that takes the next word for its value. -/
def awaiting (s : Progress) : Option Parameter :=
  match s.pending with
  | some ⟨p, none⟩ => if s.optionsEnded then none else some p
  | _ => none

/-- Reads the value of a parameter and takes it in. A missing value is the first fault, a
    repetition the second, and a value that cannot be read the last. -/
def accept (s : Progress) (p : Parameter) (value : Option Bytes) : Except UsageFault Progress :=
  if p.arity = .value ∧ value = none then .error .invalidValue
  else if !p.repeats && s.settings.any (·.parameter == p) then .error .repeated
  else (p.read value).map fun setting => { s with settings := s.settings ++ [setting] }

def settle (s : Progress) : Except UsageFault Progress :=
  match s.pending with
  | none => .ok s
  | some ⟨p, value⟩ => { s with pending := none }.accept p value

/-- Takes an option with the value in its own word, if there is one. -/
def takeOption (s : Progress) (p : Parameter) (attached : Option Bytes) :
    Except UsageFault Progress :=
  match p.arity, attached with
  | .value, none => s.settle.map fun s => { s with pending := some ⟨p, none⟩ }
  | _, attached => do
    let s ← s.settle
    s.accept p attached

/-- Takes a word without place in the options. -/
def takeWord (s : Progress) (word : Bytes) : Except UsageFault Progress :=
  if s.inputSeen then .error .unknownArgument
  else s.settle.map fun s => { s with pending := some ⟨.input, some word⟩, inputSeen := true }

end Progress

def hyphen : UInt8 := 0x2D

def equals : UInt8 := 0x3D

inductive WordShape where
  | plain
  | ending
  /-- Two hyphens, a name, and possibly an equals sign and a value. -/
  | long (name : Bytes) (value : Option Bytes)
  | short (rest : Bytes)
deriving DecidableEq, Repr

def WordShape.of : Bytes → WordShape
  | a :: b :: rest =>
    if a ≠ hyphen then .plain
    else if b ≠ hyphen then .short (b :: rest)
    else if rest = [] then .ending
    else
      let name := rest.takeWhile (· != equals)
      match rest.dropWhile (· != equals) with
      | [] => .long name none
      | _ :: value => .long name (some value)
  | _ => .plain

/-- The value behind a short option in the same word; an equals sign in front of it is dropped. -/
def attachedValue : Bytes → Option Bytes
  | [] => none
  | b :: rest => if b = equals then some rest else some (b :: rest)

/-- Takes a row of short options behind one hyphen. -/
def takeShort (level : Level) : Nat → Progress → Bytes → Except UsageFault Progress
  | 0, s, _ => .ok s
  | _, s, [] => .ok s
  | fuel + 1, s, b :: rest =>
    match Utf8.firstPiece b rest with
    | (.broken _, _) => .error .unknownArgument
    | (.scalar c, rest) =>
      match Parameter.ofShort? level c with
      | none => .error .unknownArgument
      | some p =>
        match p.arity with
        | .value => s.takeOption p (attachedValue rest)
        | _ => do
          let s ← s.takeOption p none
          takeShort level fuel s rest

def takeLong (level : Level) (s : Progress) (name : Bytes) (value : Option Bytes) :
    Except UsageFault Progress :=
  match (Utf8.decode? name).bind (Parameter.ofLong? level) with
  | none => .error .unknownArgument
  | some p =>
    if p.arity = .none ∧ value.isSome then .error .unneededValue else s.takeOption p value

/-- What a level makes of a word: an option, the value of an option, or a word by itself, about
    which the level decides. -/
def takeAny (level : Level) (byItself : Progress → Bytes → Except UsageFault Progress)
    (s : Progress) (word : Bytes) : Except UsageFault Progress :=
  let value := fun _ : Unit =>
    match s.awaiting with
    | some p => .ok { s with pending := some ⟨p, some word⟩ }
    | none => byItself s word
  if s.optionsEnded then byItself s word
  else match WordShape.of word with
    | .ending => .ok { s with optionsEnded := true }
    | .long name v => takeLong level s name v
    | .short rest => takeShort level (rest.length + 1) s rest
    | .plain => value ()

def parseLevel (level : Level) (words : List Bytes) : Except UsageFault (List Setting) := do
  let byItself := fun s word =>
    if level.hasForm then Progress.takeWord s word else .error .unknownArgument
  let s ← words.foldlM (takeAny level byItself) {}
  let s ← s.settle
  pure s.settings

def subcommands : List (String × Level) :=
  [("run", .run), ("preview", .preview), ("serve", .serve)]

def subcommand? (word : Bytes) : Option Level :=
  (Utf8.decode? word).bind fun name => subcommands.lookup name

def helpWord : Bytes := Utf8.encode "help"

/-- Answers a question for help about the subcommands in a row of words. Subcommands have none of
    their own. -/
def helpOn : List Bytes → UsageFault
  | [] => .helpAsked
  | [word] => if (subcommand? word).isSome ∨ word = helpWord then .helpAsked else .unknownSubcommand
  | _ => .unknownSubcommand

/-- A word for which there is no place in front of the subcommand. -/
def misplaced (s : Progress) (word : Bytes) : UsageFault :=
  if s.optionsEnded ∧ ((subcommand? word).isSome ∨ word = helpWord) then .unknownArgument
  else .unknownSubcommand

/-- What was read: the settings before the subcommand, and the subcommand with the settings behind
    it. -/
structure Reading where
  before : List Setting
  level : Level
  behind : List Setting
deriving DecidableEq

/-- Reads the words up to the subcommand, and then those behind it. What is pending in front of the
    subcommand is taken in last. -/
def parseTop : Progress → List Bytes → Except UsageFault Reading
  | s, [] => do
    let s ← s.settle
    if s.settings = [] then .error .nothingGiven else .error .missingSubcommand
  | s, word :: rest =>
    let named := if s.optionsEnded ∨ s.awaiting.isSome then none else subcommand? word
    match named with
    | some level => do
      let behind ← parseLevel level rest
      let s ← s.settle
      pure ⟨s.settings, level, behind⟩
    | none =>
      if !s.optionsEnded && s.awaiting.isNone && word == helpWord then .error (helpOn rest)
      else do
        let s ← takeAny .top (fun s word => .error (misplaced s word)) s word
        parseTop s rest

end Cuesheet.CommandLine

namespace Cuesheet

inductive Subcommand where
  | run (form : Overlay)
  | preview (form : Overlay) (json : Bool)
  | serve
deriving DecidableEq

structure CommandLine where
  root : Bytes
  tool : Option Bytes
  subcommand : Subcommand
deriving DecidableEq

namespace CommandLine

/-- Adds a setting to the form. Settings that do not belong to it change nothing. -/
def addToForm (form : Overlay) : Setting → Overlay
  | .input path => { form with input := some path }
  | .output path => { form with output := some path }
  | .title text => { form with title := some text }
  | .paper size => { form with paper := some size }
  | .text => { form with text := true }
  | .track track => { form with tracks := form.tracks ++ [track] }
  | .shade index => { form with shade := some index }
  | .renumberFrom label => { form with renumberFrom := some label }
  | .strips count => { form with strips := some count }
  | .blend seconds => { form with blend := some seconds }
  | .toggle t on => { form with toggles := form.toggles.set t (some on) }
  | .root _ | .tool _ | .json => form

def rootOf? : Setting → Option Bytes
  | .root path => some path
  | _ => none

def toolOf? : Setting → Option Bytes
  | .tool path => some path
  | _ => none

/-- The command line that was read. Behind the subcommand `--root` and `--tool` win over those
    before it. -/
def ofReading (r : Reading) : CommandLine :=
  let both := r.behind ++ r.before
  let form := r.behind.foldl addToForm {}
  { root := (both.findSome? rootOf?).getD (Utf8.encode ".")
    tool := both.findSome? toolOf?
    subcommand := match r.level with
      | .preview => .preview form (r.behind.contains .json)
      | .serve => .serve
      | _ => .run form }

/-- Reads a command line, without the name of the program in front. -/
def parse (words : List Bytes) : Except UsageFault CommandLine :=
  (parseTop {} words).map ofReading

end CommandLine

end Cuesheet
