import Cuesheet.Rehearsal.Shell.Condition
import Cuesheet.Rehearsal.Shell.Format

/-!
# Programs that scripts call

The small programs that a script finds on every machine. Each is a function from the state of the
shell that calls it to the state afterwards; `none` means that the program never ends.
-/

namespace Cuesheet.Rehearsal.Shell

abbrev Tool := State → List Chars → Option State

/-- What a program says of an error. -/
def refusal (cause : OsFault) : String :=
  if cause.number.isSome then cause.text else "Invalid argument"

/-- Writes the message of a program that could not do something, which then fails. -/
def failing (sh : State) (message : String) (path : Chars) (reason : String) : State :=
  ((sh.write? 2 (message.toList ++ path ++ (": " ++ reason ++ "\n").toList)).getD sh).done 1

def inletOf (sh : State) (path : Chars) : Except OsFault Inlet :=
  match entryAt? sh path with
  | some .zeros => .ok .zeros
  | _ => (sh.files.read (bytesOf path)).map fun content => .text (charsOf content)

/-- What a program reads: the named files one after the other, or what is left of its input. -/
def inputOf (sh : State) (program : String) (paths : List Chars) : State × Inlet :=
  match paths with
  | [] => ({ sh with inlet := match sh.inlet with | .zeros => .zeros | _ => .text [] }, sh.inlet)
  | paths => paths.foldl add (sh.done 0, .text [])
where
  add : State × Inlet → Chars → State × Inlet
    | (sh, .zeros), _ => (sh, .zeros)
    | (sh, before), path =>
      let earlier := match before with
        | .text cs => cs
        | _ => []
      let found := if path = ['-'] then .ok sh.inlet else inletOf sh path
      match found with
      | .ok (.text cs) => (sh, .text (earlier ++ cs))
      | .ok .zeros => (sh, .zeros)
      | .ok .closed => (sh, .text earlier)
      | .error cause => (failing sh (program ++ ": ") path (refusal cause), .text earlier)

def printKeeping (sh : State) (what : String) (cs : Chars) : State :=
  let status := sh.status
  let sh := sh.print what cs
  if status = 0 then sh else sh.done status

def linesOf (cs : Chars) : List Chars :=
  let step := fun c (lines : List Chars) =>
    if c = '\n' then [c] :: lines
    else match lines with
      | [] => [[c]]
      | line :: others => (c :: line) :: others
  cs.foldr step []

/-- A count in front of file names: of lines or of characters. -/
structure Count where
  ofChars : Bool := false
  number : Nat := 10

/-- The count that options give, and the file names behind them. -/
def countOf : Count → List Chars → Count × List Chars
  | c, ['-', 'n'] :: n :: rest => countOf { c with ofChars := false, number := (number? n).getD 0 } rest
  | c, ['-', 'c'] :: n :: rest => countOf { c with ofChars := true, number := (number? n).getD 0 } rest
  | c, ('-' :: 'n' :: n) :: rest => countOf { c with ofChars := false, number := (number? n).getD 0 } rest
  | c, ('-' :: 'c' :: n) :: rest => countOf { c with ofChars := true, number := (number? n).getD 0 } rest
  | c, ('-' :: d :: n) :: rest =>
    match number? (d :: n) with
    | some number => countOf { c with ofChars := false, number } rest
    | none => (c, ('-' :: d :: n) :: rest)
  | c, rest => (c, rest)

def cat : Tool := fun sh arguments =>
  match inputOf (sh.done 0) "cat" arguments with
  | (_, .zeros) => none
  | (sh, .text cs) => some (printKeeping sh "cat" cs)
  | (sh, .closed) => some (failing sh "cat: " ['-'] "Bad file descriptor")

def head : Tool := fun sh arguments =>
  let (count, paths) := countOf {} arguments
  match inputOf (sh.done 0) "head" paths with
  | (sh, .zeros) =>
    if count.ofChars then some (printKeeping sh "head" (List.replicate count.number (Char.ofNat 0)))
    else none
  | (sh, .text cs) =>
    some (printKeeping sh "head"
      (if count.ofChars then cs.take count.number else ((linesOf cs).take count.number).flatten))
  | (sh, .closed) => some (failing sh "head: " ['-'] "Bad file descriptor")

def tail : Tool := fun sh arguments =>
  let (count, paths) := countOf {} arguments
  match inputOf (sh.done 0) "tail" paths with
  | (_, .zeros) => none
  | (sh, .text cs) =>
    let last := fun {α : Type} (xs : List α) => xs.drop (xs.length - count.number)
    some (printKeeping sh "tail" (if count.ofChars then last cs else (last (linesOf cs)).flatten))
  | (sh, .closed) => some (failing sh "tail: " ['-'] "Bad file descriptor")

def setOf : Nat → Chars → Chars
  | 0, _ => []
  | fuel + 1, cs =>
    match cs with
    | [] => []
    | '[' :: ':' :: rest =>
      let name := String.ofList (rest.takeWhile (· != ':'))
      charsOfClass name ++ setOf fuel ((rest.dropWhile (· != ':')).drop 2)
    | cs =>
      let (c, rest) := character cs
      match rest with
      | '-' :: next :: rest =>
        let (d, rest) := character (next :: rest)
        ((List.range (d.toNat + 1)).drop c.toNat).map byteChar ++ setOf fuel rest
      | rest => c :: setOf fuel rest
where
  character : Chars → Char × Chars
    | '\\' :: rest => formatEscape rest
    | c :: rest => (c, rest)
    | [] => (' ', [])
  charsOfClass (name : String) : Chars :=
    let all := (List.range 128).map byteChar
    match name with
    | "upper" => all.filter Char.isUpper
    | "lower" => all.filter Char.isLower
    | "digit" => all.filter Char.isDigit
    | "alpha" => all.filter Char.isAlpha
    | "alnum" => all.filter Char.isAlphanum
    | "space" => [' ', '\t', '\n', '\x0b', '\x0c', '\r']
    | _ => []

def tr : Tool := fun sh arguments =>
  let input := match sh.inlet with
    | .text cs => some cs
    | .closed => some []
    | .zeros => none
  let set := fun cs : Chars => setOf (cs.length + 1) cs
  let sh := { sh with inlet := .text [] }
  match input, arguments with
  | none, _ => none
  | some cs, [['-', 'd'], set1] =>
    let gone := set set1
    some (sh.print "tr" (cs.filter fun c => !gone.contains c))
  | some cs, [set1, set2] =>
    let from1 := set set1
    let to2 := set set2
    let image := fun c : Char =>
      match from1.findIdx? (· == c) with
      | some i => (to2[i]?.or to2.getLast?).getD c
      | none => c
    some (sh.print "tr" (cs.map image))
  | _, _ => some ((sh.complain "tr: missing operand").done 1)

def seq : Tool := fun sh arguments =>
  match arguments.mapM integer? with
  | some [last] => some (sh.print "seq" (row 1 1 last))
  | some [first, last] => some (sh.print "seq" (row first 1 last))
  | some [first, step, last] => some (sh.print "seq" (row first step last))
  | _ => some ((sh.complain "seq: missing operand").done 1)
where
  row (first step last : Int) : Chars :=
    let count := if step = 0 then 0 else ((last - first) / step + 1).toNat
    (List.range count).flatMap fun (i : Nat) => integerText (first + step * (i : Int)) ++ ['\n']

def wordCount (cs : Chars) : Nat :=
  let blank := fun c : Char => c == ' ' || c == '\t' || c == '\n'
  (cs.foldl (fun (n, inWord) c => if blank c then (n, false) else (if inWord then n else n + 1, true))
    (0, false)).1

def wc : Tool := fun sh arguments =>
  let (flags, paths) := match arguments with
    | ('-' :: flags) :: paths => (flags, paths)
    | paths => (['l', 'w', 'c'], paths)
  match inputOf (sh.done 0) "wc" paths with
  | (_, .zeros) => none
  | (sh, inlet) =>
    let cs := match inlet with
      | .text cs => cs
      | _ => []
    let counts := (['l', 'w', 'c'].filter flags.contains).map fun
      | 'l' => cs.count '\n'
      | 'w' => wordCount cs
      | _ => cs.length
    let texts := match counts with
      | [n] => [natChars n]
      | ns => ns.map fun n => ({ width := 7 } : Layout).pad (natChars n)
    let named := texts ++ paths.take 1
    some (printKeeping sh "wc" ((named.intersperse [' ']).flatten ++ ['\n']))
where
  natChars (n : Nat) : Chars := n.repr.toList

def touch : Tool := fun sh arguments =>
  some (arguments.foldl make (sh.done 0))
where
  make (sh : State) (path : Chars) : State :=
    match sh.files.update (bytesOf path) 0o644 id with
    | .ok files => { sh with files }
    | .error .isDirectory => sh
    | .error cause => failing sh "touch: cannot touch '" (path ++ ['\x27']) (refusal cause)

def splitOptions (arguments : List Chars) : Chars × List Chars :=
  let isOption := fun a : Chars => a.length > 1 && a.head? == some '-'
  (((arguments.takeWhile isOption).map (·.drop 1)).flatten, arguments.dropWhile isOption)

def rm : Tool := fun sh arguments =>
  let (options, paths) := splitOptions arguments
  some (paths.foldl (remove (options.contains 'f') (options.contains 'r')) (sh.done 0))
where
  remove (force deep : Bool) (sh : State) (path : Chars) : State :=
    match sh.files.locate false (bytesOf path) with
    | .error cause =>
      if force then sh else failing sh "rm: cannot remove '" (path ++ ['\x27']) (refusal cause)
    | .ok place =>
      match sh.files.at? place with
      | none =>
        if force then sh
        else failing sh "rm: cannot remove '" (path ++ ['\x27']) (refusal .notFound)
      | some .directory =>
        if deep then
          { sh with files := { sh.files with
              entries := sh.files.entries.filter fun (p, _) => !place.isPrefixOf p } }
        else failing sh "rm: cannot remove '" (path ++ ['\x27']) (refusal .isDirectory)
      | some _ => { sh with files := sh.files.erase place }

def mkdir : Tool := fun sh arguments =>
  let (options, paths) := splitOptions arguments
  some (paths.foldl (make (options.contains 'p')) (sh.done 0))
where
  make (parents : Bool) (sh : State) (path : Chars) : State :=
    if parents then { sh with files := sh.files.makeDirectories (bytesOf path) }
    else match sh.files.locate true (bytesOf path) with
      | .error cause => failing sh "mkdir: cannot create directory '" (path ++ ['\x27']) (refusal cause)
      | .ok place =>
        if (sh.files.at? place).isSome then
          failing sh "mkdir: cannot create directory '" (path ++ ['\x27']) "File exists"
        else if (sh.files.at? place.dropLast) != some .directory then
          failing sh "mkdir: cannot create directory '" (path ++ ['\x27']) (refusal .notFound)
        else { sh with files := sh.files.put place .directory }

def cp : Tool := fun sh arguments =>
  match arguments with
  | [source, target] =>
    match sh.files.read (bytesOf source) with
    | .error cause => some (failing sh "cp: cannot stat '" (source ++ ['\x27']) (refusal cause))
    | .ok content =>
      match sh.files.update (bytesOf target) 0o644 fun _ => content with
      | .ok files => some ({ sh with files }.done 0)
      | .error cause =>
        some (failing sh "cp: cannot create regular file '" (target ++ ['\x27']) (refusal cause))
  | _ => some ((sh.complain "cp: missing operand").done 1)

def mv : Tool := fun sh arguments =>
  match cp sh arguments, arguments with
  | some sh, source :: _ =>
    if sh.status = 0 then
      some { sh with files := (sh.files.remove? (bytesOf source)).getD sh.files }
    else some sh
  | result, _ => result

def lastPart (path : Chars) : Chars :=
  let path := (path.reverse.dropWhile (· == '/')).reverse
  if path = [] then ['/'] else (path.reverse.takeWhile (· != '/')).reverse

def withoutLastPart (path : Chars) : Chars :=
  let path := (path.reverse.dropWhile (· == '/')).reverse
  if !path.contains '/' then (if path = [] then ['/'] else ['.'])
  else
    let front := ((path.reverse.dropWhile (· != '/')).dropWhile (· == '/')).reverse
    if front = [] then ['/'] else front

def basename : Tool := fun sh arguments =>
  match arguments with
  | [path] => some (sh.print "basename" (lastPart path ++ ['\n']))
  | [path, ending] =>
    let part := lastPart path
    let part := if ending.isSuffixOf part && ending != part then
        part.take (part.length - ending.length) else part
    some (sh.print "basename" (part ++ ['\n']))
  | _ => some ((sh.complain "basename: missing operand").done 1)

def dirname : Tool := fun sh arguments =>
  match arguments with
  | [path] => some (sh.print "dirname" (withoutLastPart path ++ ['\n']))
  | _ => some ((sh.complain "dirname: missing operand").done 1)

/-- Prints a line again and again. Into a pipe it prints as much as anything here reads. -/
def yes : Tool := fun sh arguments =>
  let line := (if arguments = [] then ['y'] else (arguments.intersperse [' ']).flatten) ++ ['\n']
  if sh.outlets.lookup 1 = some .capture then
    some (sh.print "yes" (List.replicate 20000 line).flatten)
  else none

def pwd : Tool := fun sh _ =>
  let place := sh.files.workingDirectory
  let path := if place = [] then ['/'] else (place.map fun part => '/' :: charsOf part).flatten
  some (sh.print "pwd" (path ++ ['\n']))

def echo : Tool := fun sh arguments => some (sh.print "echo" (echoText arguments))

def printf : Tool := fun sh arguments =>
  match arguments with
  | [] => some ((sh.complain "printf: usage: printf format [arg ...]").done 2)
  | ['-', '-'] :: format :: rest => some (go sh format rest)
  | format :: rest => some (go sh format rest)
where
  go (sh : State) (format : Chars) (rest : List Chars) : State :=
    match printfText format rest with
    | .ok (text, []) => sh.print "printf" text
    | .ok (text, rejected) =>
      (rejected.foldl (fun sh a =>
        sh.complain ("printf: " ++ String.ofList a ++ ": expected numeric value"))
        (sh.print "printf" text)).done 1
    | .error directive =>
      (sh.complain ("printf: " ++ String.ofList directive ++ ": invalid directive")).done 2

def testAs (name : String) : Tool := fun sh arguments =>
  match holds? sh arguments with
  | some true => some (sh.done 0)
  | some false => some (sh.done 1)
  | none =>
    let reason := match arguments with
      | [a, _, b] =>
        match [a, b].find? fun x => (integer? x).isNone with
        | some x => "Illegal number: " ++ String.ofList x
        | none => "unexpected operator"
      | _ => "unexpected operator"
    some ((sh.complain (name ++ ": " ++ reason)).done 2)

def bracket : Tool := fun sh arguments =>
  if arguments.getLast? = some [']'] then testAs "[" sh arguments.dropLast
  else some ((sh.complain "[: missing ]").done 2)

def idle (status : Nat) : Tool := fun sh _ => some (sh.done status)

def ownTools : List (String × Tool) :=
  [("echo", echo), ("printf", printf), ("test", testAs "test"), ("[", bracket), ("true", idle 0),
    (":", idle 0), ("false", idle 1), ("pwd", pwd), ("wait", idle 0), ("umask", idle 0)]

/-- The other programs. Sleep takes no time here, since nothing else happens meanwhile. -/
def otherTools : List (String × Tool) :=
  [("sleep", idle 0), ("cat", cat), ("head", head), ("tail", tail), ("tr", tr), ("seq", seq),
    ("wc", wc), ("touch", touch), ("rm", rm), ("mkdir", mkdir), ("cp", cp), ("mv", mv),
    ("basename", basename), ("dirname", dirname), ("yes", yes), ("sync", idle 0)]

/-- The directories that hold the programs which are no part of the shell. -/
def toolDirectories : List String := ["/bin", "/usr/bin"]

/-- Whether the search path leads to the programs which are no part of the shell. -/
def reachesTools (sh : State) : Bool :=
  let parts := Path.splitAtByte 0x3A (bytesOf ((sh.valueOf? "PATH").getD []))
  parts.any fun part => toolDirectories.any fun directory => Utf8.encode directory == part

/-- The program of a name, which may be given with its directory. -/
def tool? (sh : State) (name : Chars) : Option Tool :=
  let s := String.ofList name
  match ownTools.lookup s with
  | some t => some t
  | none =>
    if name.contains '/' then
      if toolDirectories.any fun directory => directory.toList == withoutLastPart name then
        (ownTools ++ otherTools).lookup (String.ofList (lastPart name))
      else none
    else if reachesTools sh then otherTools.lookup s
    else none

end Cuesheet.Rehearsal.Shell
