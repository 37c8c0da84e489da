import Cuesheet.Rehearsal.Command

/-!
# The program

Carries out a command line. The files that it names are copied into a machine in memory, and the
tool, if it is a shell script, is performed there: nothing outside is changed.
-/

namespace Cuesheet.Program

/-- What is printed for words that are no command line. -/
def usage : String := "Usage: cuesheet [--root DIR] [--tool PATH] run|preview|serve"

def asksOnly : CommandLine.UsageFault → Bool
  | .helpAsked | .versionAsked => true
  | _ => false

/-- The files that a command line needs before its settings are known. -/
def settingsFiles (l : CommandLine) : List Bytes := [Settings.file l.root]

/-- The files that a command line needs once its settings are known. -/
def namedFiles (l : CommandLine) (b : CommandLine.Base) : List Bytes :=
  let input := match l.subcommand with
    | .run form | .preview form _ => (form.apply b.defaults).input
    | .serve => b.defaults.input
  b.locator.explicitPath.toList ++ input.toList

def copyFiles (m : Rehearsal.Machine) (paths : List Bytes) : IO Rehearsal.Machine :=
  paths.foldlM (fun m path =>
    match Utf8.decode? path with
    | none => pure m
    | some text =>
      try
        let content ← IO.FS.readBinFile text
        pure (m.install path (.file content.toList 0o755))
      catch _ => pure m) m

/-- The standard input, if the command reads it. -/
def inputOf (l : CommandLine) : IO Bytes :=
  match l.subcommand with
  | .serve => do pure (Utf8.encode (← (← IO.getStdin).readToEnd))
  | _ => pure []

def finish (p : CommandLine.Printout) : IO UInt32 := do
  IO.print p.stdout
  IO.eprint p.stderr
  match p.failure with
  | none => pure 0
  | some f =>
    IO.eprintln ("Error: " ++ ": ".intercalate f.messages)
    pure 1

def execute (l : CommandLine) : IO UInt32 := do
  let m ← copyFiles (.standard []) (settingsFiles l)
  let m ← match l.base m.host with
    | .ok b => copyFiles m (namedFiles l b)
    | .error _ => pure m
  finish (m.execute l (← inputOf l)).printout

def run (words : List String) : IO UInt32 :=
  match CommandLine.parse (words.map Utf8.encode) with
  | .ok l => execute l
  | .error fault => do
    IO.eprintln usage
    pure (if asksOnly fault then 0 else 2)

end Cuesheet.Program

def main (words : List String) : IO UInt32 := Cuesheet.Program.run words
