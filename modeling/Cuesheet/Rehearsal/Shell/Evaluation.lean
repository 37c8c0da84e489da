import Cuesheet.Rehearsal.Shell.Expansion
import Cuesheet.Rehearsal.Shell.Reader
import Cuesheet.Rehearsal.Shell.Tools

/-!
# Running shell scripts

`evaluate` carries out a command. Fuel bounds how deep commands stand in each other and how often a
loop turns; a script that uses it up counts as one that never ends. The functions in front of it say
what one command does, given how the commands inside it are carried out.
-/

namespace Cuesheet.Rehearsal.Shell

inductive Flow where
  | next
  | exit
  /-- A signal ends the script. -/
  | killed
  /-- Some loops are left. -/
  | leave (loops : Nat)
  /-- Some loops but one are left, and that one turns again. -/
  | turn (loops : Nat)
  /-- Nothing follows any more. -/
  | endless
deriving DecidableEq, Repr

/-- How commands are carried out; the flag tells that their failure is looked at. -/
abbrev Runner := Bool → State → Command → State × Flow

/-- The state after a part of the script that ran in a shell of its own. -/
def State.rejoin (sh inner : State) : State :=
  { sh with
    files := { inner.files with workingDirectory := sh.files.workingDirectory }
    written := inner.written
    captured := inner.captured
    status := inner.status
    inlet := inner.inlet
    line := inner.line }

/-- How a shell of its own leaves the script around it. -/
def Flow.outside : Flow → Flow
  | .killed => .killed
  | .endless => .endless
  | _ => .next

/-- Carries out a command in a shell of its own whose output is captured. -/
def captured (run : Runner) (sh : State) (c : Command) : State × Flow × Chars :=
  let (inner, flow) :=
    run true { sh with outlets := (1, .capture) :: sh.outlets.filter (·.1 != 1), captured := [] } c
  (sh.rejoin { inner with captured := sh.captured }, flow.outside, inner.capturedText)

def substitute (run : Runner) (sh : State) (source : Chars) : State × Chars :=
  match read? source sh.line with
  | none => ((sh.complain "Syntax error").done 2, [])
  | some c =>
    let (sh, _, text) := captured run sh c
    (sh, text)

def openFile (sh : State) (path : Chars) (truncate : Bool) : Except String (State × Outlet) :=
  let failed := fun reason => "cannot create " ++ String.ofList path ++ ": " ++ reason
  match sh.files.update (bytesOf path) 0o644 fun old => if truncate then [] else old with
  | .error .notFound => .error (failed "Directory nonexistent")
  | .error cause => .error (failed (refusal cause))
  | .ok files =>
    match files.locate true (bytesOf path) with
    | .error cause => .error (failed (refusal cause))
    | .ok place =>
      match files.at? place with
      | some (.file _ _) => .ok ({ sh with files }, .file place)
      | _ => .ok (sh, .sink)

/-- Lets a descriptor lead somewhere else, or nowhere. -/
def State.setOutlet (sh : State) (descriptor : Nat) (outlet : Option Outlet) : State :=
  let others := sh.outlets.filter (·.1 != descriptor)
  { sh with outlets := (outlet.map (descriptor, ·)).toList ++ others }

def redirect (run : Runner) (sh : State) (r : Redirect) : Except String State :=
  let path := textOfWord (substitute run) sh
  let toFile := fun w truncate => do
    let (path, sh) ← path w
    match String.ofList path with
    | "/dev/stdout" => pure (sh.setOutlet r.descriptor (sh.outlets.lookup 1))
    | "/dev/stderr" => pure (sh.setOutlet r.descriptor (sh.outlets.lookup 2))
    | _ =>
      let (sh, outlet) ← openFile sh path truncate
      pure (sh.setOutlet r.descriptor (some outlet))
  match r.target with
  | .write w => toFile w true
  | .append w => toFile w false
  | .read w => do
    let (path, sh) ← path w
    match inletOf sh path with
    | .ok inlet => pure (if r.descriptor = 0 then { sh with inlet } else sh)
    | .error .notFound => .error ("cannot open " ++ String.ofList path ++ ": No such file")
    | .error cause => .error ("cannot open " ++ String.ofList path ++ ": " ++ refusal cause)
  | .copy w => do
    let (text, sh) ← path w
    if text = ['-'] then
      pure (if r.descriptor = 0 then { sh with inlet := .closed } else sh.setOutlet r.descriptor none)
    else match number? text with
      | none => .error (String.ofList text ++ ": bad descriptor")
      | some 0 => pure sh
      | some n =>
        match sh.outlets.lookup n with
        | some outlet => pure (sh.setOutlet r.descriptor (some outlet))
        | none => .error (n.repr ++ ": Bad file descriptor")

def redirectAll (run : Runner) (sh : State) (rs : List Redirect) : Except String State :=
  rs.foldlM (redirect run) sh

def State.unredirect (sh before : State) (rs : List Redirect) : State :=
  let readsElsewhere := rs.any fun r => match r.target with
    | .read _ => true
    | .copy _ => r.descriptor == 0
    | _ => false
  { sh with
    outlets := before.outlets
    inlet := if readsElsewhere then before.inlet else sh.inlet }

def signalNumbers : List (Nat × String) :=
  [(0, "EXIT"), (1, "HUP"), (2, "INT"), (3, "QUIT"), (4, "ILL"), (6, "ABRT"), (8, "FPE"),
    (9, "KILL"), (10, "USR1"), (11, "SEGV"), (12, "USR2"), (13, "PIPE"), (14, "ALRM"),
    (15, "TERM"), (17, "CHLD"), (18, "CONT"), (19, "STOP"), (20, "TSTP"), (23, "URG"),
    (28, "WINCH")]

/-- The name of a signal, which may be given by number. -/
def signalOf? (cs : Chars) : Option String :=
  match number? cs with
  | some n => signalNumbers.lookup n
  | none =>
    let name := String.ofList (cs.map Char.toUpper)
    let name := if name.startsWith "SIG" then String.ofList (name.toList.drop 3) else name
    if signalNumbers.any (·.2 == name) then some name else none

def runText (run : Runner) (tested : Bool) (sh : State) (source : Chars) : State × Flow :=
  match read? source sh.line with
  | none => ((sh.complain "Syntax error").done 2, .exit)
  | some c => run tested sh c

def deliver (run : Runner) (sh : State) (signal : String) : State × Flow :=
  let ignored := ["EXIT", "CHLD", "CONT", "URG", "WINCH"]
  if ignored.contains signal then (sh.done 0, .next)
  else if signal = "STOP" then (sh, .endless)
  else match if signal = "KILL" then none else sh.traps.lookup signal with
    | none => if signal = "TSTP" then (sh, .endless) else (sh, .killed)
    | some [] => (sh.done 0, .next)
    | some action =>
      let (after, flow) := runText run true (sh.done 0) action
      if flow = .next then (after.done 0, .next) else (after, flow)

def kill (run : Runner) (sh : State) (arguments : List Chars) : State × Flow :=
  let (signal, targets) := match arguments with
    | ['-', 's'] :: name :: targets => (signalOf? name, targets)
    | ['-', '-'] :: targets => (some "TERM", targets)
    | ('-' :: name) :: targets => (signalOf? name, targets)
    | targets => (some "TERM", targets)
  match signal, targets.mapM number? with
  | some signal, some targets =>
    if targets.contains ownProcess then deliver run sh signal
    else ((sh.complain "kill: No such process").done 1, .next)
  | _, _ => ((sh.complain "kill: bad signal or process").done 2, .next)

/-- Reads a line into variables; the last one takes what is left. -/
def readLine (sh : State) (arguments : List Chars) : State :=
  let raw := arguments.contains ['-', 'r']
  let names := (arguments.filter (·.head? != some '-')).map String.ofList
  let available := match sh.inlet with
    | .text cs => cs
    | _ => []
  let line := available.takeWhile (· != '\n')
  let rest := available.drop (line.length + 1)
  let sh := { sh with inlet := match sh.inlet with | .text _ => .text rest | other => other }
  let text := if raw then line else line.filter (· != '\\')
  let sh := assign (if names = [] then ["REPLY"] else names) sh text
  sh.done (if available.contains '\n' then 0 else 1)
where
  assign : List String → State → Chars → State
    | [], sh, _ => sh
    | [name], sh, text =>
      let text := text.dropWhile (isSeparator sh)
      sh.setVariable name (text.reverse.dropWhile (isSeparator sh)).reverse
    | name :: names, sh, text =>
      let text := text.dropWhile (isSeparator sh)
      let (field, rest) := text.span fun c => !isSeparator sh c
      assign names (sh.setVariable name field) rest

def setOptions (sh : State) : List Chars → State
  | [] => sh.done 0
  | ['-', '-'] :: arguments => { sh with arguments }.done 0
  | ('-' :: flags) :: rest =>
    setOptions (if flags.contains 'e' then { sh with strict := true } else sh) rest
  | ('+' :: flags) :: rest =>
    setOptions (if flags.contains 'e' then { sh with strict := false } else sh) rest
  | arguments => { sh with arguments }.done 0

def changeDirectory (sh : State) (path : Chars) : State :=
  match sh.files.locate true (bytesOf path) with
  | .ok place =>
    if sh.files.at? place = some .directory then
      { sh with files := { sh.files with workingDirectory := place } }.done 0
    else (sh.complain ("cd: can't cd to " ++ String.ofList path)).done 2
  | .error _ => (sh.complain ("cd: can't cd to " ++ String.ofList path)).done 2

/-- Sets variables from words such as `name=value`. -/
def exportAll (sh : State) (arguments : List Chars) : State :=
  (arguments.foldl (fun sh a =>
    match a.dropWhile (· != '=') with
    | _ :: value => sh.setVariable (String.ofList (a.takeWhile (· != '='))) value
    | [] => sh) sh).done 0

def exitStatus (sh : State) : List Chars → State
  | [] => sh
  | a :: _ =>
    match number? a with
    | some n => sh.done (n % 256)
    | none => (sh.complain ("exit: Illegal number: " ++ String.ofList a)).done 2

def loopCount : List Chars → Nat
  | a :: _ => (number? a).getD 1
  | [] => 1

def anotherShell (run : Runner) (sh : State) (arguments : List Chars) : State × Flow :=
  match arguments with
  | ['-', 'c'] :: source :: rest =>
    let (inner, flow) := runText run false
      { sh with
        name := rest.head?.getD sh.name, arguments := rest.drop 1, traps := [], strict := false }
      source
    let sh := sh.rejoin inner
    match flow with
    | .killed => (sh.done 143, .next)
    | flow => (sh, flow.outside)
  | _ => ((sh.complain "sh: cannot open").done 2, .next)

/-- Carries out a command with its words put in and its redirections made. The label stands in front
    of the name in messages. -/
def dispatch (run : Runner) (tested : Bool) (label : String) (sh : State) (name : Chars)
    (arguments : List Chars) : State × Flow :=
  match String.ofList name with
  | "exit" | "return" => (exitStatus sh arguments, .exit)
  | "break" => (sh.done 0, .leave (loopCount arguments))
  | "continue" => (sh.done 0, .turn (loopCount arguments))
  | "eval" => runText run tested sh (arguments.intersperse [' ']).flatten
  | "kill" => kill run sh arguments
  | "trap" =>
    match arguments with
    | action :: signals =>
      let names := signals.filterMap signalOf?
      let others := sh.traps.filter fun (name, _) => !names.contains name
      let added := if action = ['-'] then [] else names.map fun name => (name, action)
      ({ sh with traps := added ++ others }.done 0, .next)
    | [] => (sh.done 0, .next)
  | "read" => (readLine sh arguments, .next)
  | "set" => (setOptions sh arguments, .next)
  | "shift" =>
    let n := loopCount arguments
    if n ≤ sh.arguments.length then
      ({ sh with arguments := sh.arguments.drop n }.done 0, .next)
    else ((sh.complain "shift: can't shift that many").done 2, .exit)
  | "cd" => (changeDirectory sh (arguments.head?.getD []), .next)
  | "export" | "readonly" | "local" => (exportAll sh arguments, .next)
  | "unset" =>
    ({ sh with bindings := sh.bindings.filter fun (n, _) => !arguments.contains n.toList }.done 0,
      .next)
  | "sh" | "/bin/sh" => anotherShell run sh arguments
  | s =>
    match tool? sh name with
    | some tool =>
      match tool sh arguments with
      | some sh => (sh, .next)
      | none => (sh, .endless)
    | none =>
      if name.contains '/' ∧ (entryAt? sh name).isSome then
        ((sh.complain (label ++ s ++ ": Permission denied")).done 126, .next)
      else ((sh.complain (label ++ s ++ ": not found")).done 127, .next)

/-- Whether a failed redirection of a command ends the script. -/
def isSpecialCommand (name : Chars) : Bool :=
  [":", "exec", "exit", "eval", "export", "readonly", "set", "shift", "trap", "unset", "break",
    "continue", "return"].contains (String.ofList name)

def runSimple (run : Runner) (tested : Bool) (sh : State) (c : Simple) : State × Flow :=
  let sh := { sh with line := c.line }
  let capture := substitute run
  match fieldsOfAll capture sh c.words with
  | .error e => ((sh.complain e).done 2, .exit)
  | .ok (fields, sh) =>
    let assigned := c.assignments.foldlM (m := Except String)
      (fun sh (name, w) => do
        let (value, sh) ← textOfWord capture sh w
        pure (sh.setVariable name value))
      (if c.words = [] ∧ c.assignments ≠ [] then sh.done 0 else sh)
    match assigned with
    | .error e => ((sh.complain e).done 2, .exit)
    | .ok ready =>
      let kept := if fields = [] then ready else sh
      match redirectAll run ready c.redirects, fields with
      | .error e, fields =>
        ((kept.complain e).done 2,
          if (fields.head?.any isSpecialCommand) then .exit else .next)
      | .ok inside, [] => (inside.unredirect kept c.redirects, .next)
      | .ok inside, name :: arguments =>
        if name = "exec".toList then
          match arguments with
          | [] => (inside.done 0, .next)
          | name :: arguments =>
            let (after, flow) := dispatch run tested "exec: " inside name arguments
            -- What replaces the shell takes its traps away, and its end is the end of the script.
            ({ after with traps := [] }, if flow = .next then .exit else flow)
        else
          let (after, flow) := dispatch run tested "" inside name arguments
          let after := after.unredirect kept c.redirects
          let permanent := isSpecialCommand name
          (if c.assignments = [] || permanent then after
            else { after with bindings := kept.bindings }, flow)

/-- What a loop does after its body was left in some way: leave the loop in some way, or turn. -/
def afterBody : Flow → Option Flow
  | .next => none
  | .leave n => some (if n ≤ 1 then .next else .leave (n - 1))
  | .turn n => if n ≤ 1 then none else some (.turn (n - 1))
  | flow => some flow

def turnLoop (run : Runner) (tested untilTrue : Bool) (condition body : Command) :
    Nat → Nat → State → State × Flow
  | 0, _, sh => (sh, .endless)
  | fuel + 1, last, sh =>
    let (sh, flow) := run true sh condition
    match afterBody flow with
    | some flow => (sh, flow)
    | none =>
      if (sh.status == 0) == untilTrue then (sh.done last, .next)
      else
        let (sh, flow) := run tested sh body
        match afterBody flow with
        | some flow => (sh, flow)
        | none => turnLoop run tested untilTrue condition body fuel sh.status sh

def turnEach (run : Runner) (tested : Bool) (name : String) (body : Command) :
    List Chars → State → State × Flow
  | [], sh => (sh, .next)
  | value :: values, sh =>
    let (sh, flow) := run tested (sh.setVariable name value) body
    match afterBody flow with
    | some flow => (sh, flow)
    | none => turnEach run tested name body values sh

/-- Ends a strict script whose command failed and nobody looked. -/
def settle (tested : Bool) : State × Flow → State × Flow
  | (sh, .next) => (sh, if sh.strict ∧ !tested ∧ sh.status ≠ 0 then .exit else .next)
  | result => result

/-- Carries out one command, given how the commands inside it are carried out and how often a loop
    may turn. -/
def step (run : Runner) (turns : Nat) (tested : Bool) (sh : State) : Command → State × Flow
  | .nothing => (sh, .next)
  | .simple c => settle tested (runSimple run tested sh c)
  | .sequence first second =>
    match run tested sh first with
    | (sh, .next) => run tested sh second
    | result => result
  | .both first second =>
    match run true sh first with
    | (sh, .next) => if sh.status = 0 then run tested sh second else (sh, .next)
    | result => result
  | .either first second =>
    match run true sh first with
    | (sh, .next) => if sh.status = 0 then (sh, .next) else run tested sh second
    | result => result
  | .negate c =>
    match run true sh c with
    | (sh, .next) => (sh.done (if sh.status = 0 then 1 else 0), .next)
    | result => result
  | .pipe first second =>
    match captured run sh first with
    | (sh, .next, text) =>
      let (inner, flow) := run true { sh with inlet := .text text } second
      settle tested ({ sh.rejoin inner with inlet := sh.inlet }, flow.outside)
    | (sh, flow, _) => (sh, flow)
  | .background c =>
    let (inner, flow) := run true { sh with inlet := .text [] } c
    ({ sh.rejoin inner with inlet := sh.inlet }.done 0, if flow = .killed then .killed else .next)
  | .branch condition yes no =>
    match run true sh condition with
    | (sh, .next) =>
      if sh.status = 0 then run tested sh yes else run tested (sh.done 0) no
    | result => result
  | .loop untilTrue condition body => turnLoop run tested untilTrue condition body turns 0 sh
  | .each name words body =>
    match words with
    | none => turnEach run tested name body sh.arguments (sh.done 0)
    | some ws =>
      match fieldsOfAll (substitute run) sh ws with
      | .error e => ((sh.complain e).done 2, .exit)
      | .ok (values, sh) => turnEach run tested name body values (sh.done 0)
  | .choose w patterns body rest =>
    match textOfWord (substitute run) sh w with
    | .error e => ((sh.complain e).done 2, .exit)
    | .ok (value, sh) =>
      if patterns.any fun p => wordMatches (substitute run) sh p value then
        run tested (sh.done 0) body
      else run tested (sh.done 0) rest
  | .subshell body =>
    let (inner, flow) := run tested sh body
    settle tested (sh.rejoin inner, flow.outside)
  | .redirected body rs =>
    match redirectAll run sh rs with
    | .error e => ((sh.complain e).done 2, .next)
    | .ok inside =>
      let (after, flow) := run tested inside body
      settle tested (after.unredirect sh rs, flow)

def evaluate : Nat → Runner
  | 0, _, sh, _ => (sh, .endless)
  | fuel + 1, tested, sh, c => step (evaluate fuel) fuel tested sh c

/-- How deep commands may stand in each other, and how often a loop may turn. -/
def patience : Nat := 20000

inductive Ending where
  | exit (status : Nat)
  | killed
  | never
deriving DecidableEq, Repr

/-- Runs a whole script, and what is to be done at its end. -/
def runScript (sh : State) (source : Chars) : State × Ending :=
  match read? source 1 with
  | none => ((sh.complain "Syntax error").done 2, .exit 2)
  | some c =>
    let (sh, flow) := evaluate patience false sh c
    match flow with
    | .killed => (sh, .killed)
    | .endless => (sh, .never)
    | _ =>
      match sh.traps.lookup "EXIT" with
      | none => (sh, .exit sh.status)
      | some action =>
        let status := sh.status
        let (after, flow) := runText (evaluate patience) true { sh with traps := [] } action
        match flow with
        | .killed => (after, .killed)
        | .endless => (after, .never)
        | .exit => (after, .exit after.status)
        | _ => (after, .exit status)

end Cuesheet.Rehearsal.Shell
