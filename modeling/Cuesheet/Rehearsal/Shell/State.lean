import Cuesheet.Rehearsal.FileTree
import Cuesheet.Rehearsal.Shell.Syntax
import Cuesheet.Run.Status

/-!
# The state of a shell

What a running script can read and change: files, variables, its arguments, where its descriptors
lead, and what it has written.
-/

namespace Cuesheet.Rehearsal.Shell

def charsOf (bs : Bytes) : Chars := bs.map fun b => Char.ofNat b.toNat

def bytesOf (cs : Chars) : Bytes := cs.map fun c => UInt8.ofNat c.toNat

/-- Where a descriptor for writing leads. -/
inductive Outlet where
  | stream (stream : LogStream)
  | file (place : Place)
  | sink
  /-- Into a pipe or a substitution. -/
  | capture
deriving DecidableEq, Repr

/-- What is left to be read. -/
inductive Inlet where
  | text (cs : Chars)
  /-- Zero bytes without end. -/
  | zeros
  | closed
deriving DecidableEq, Repr

structure State where
  files : FileTree
  /-- The name under which the script runs. -/
  name : Chars := []
  arguments : List Chars := []
  bindings : List (String × Chars) := []
  status : Nat := 0
  outlets : List (Nat × Outlet) := [(1, .stream .stdout), (2, .stream .stderr)]
  inlet : Inlet := .text []
  /-- What was written to the output streams, the last piece first. -/
  written : List (LogStream × Bytes) := []
  /-- What was written into the innermost pipe, the last piece first. -/
  captured : List Chars := []
  /-- What to do when a signal arrives, or at the end. -/
  traps : List (String × Chars) := []
  /-- Whether a command that fails ends the script. -/
  strict : Bool := false
  line : Nat := 1
deriving Repr

namespace State

def valueOf? (sh : State) (name : String) : Option Chars := sh.bindings.lookup name

def setVariable (sh : State) (name : String) (value : Chars) : State :=
  { sh with bindings := (name, value) :: sh.bindings.filter (·.1 != name) }

def done (sh : State) (status : Nat) : State := { sh with status }

/-- Writes to a descriptor; `none` if it is closed. -/
def write? (sh : State) (descriptor : Nat) (cs : Chars) : Option State :=
  match sh.outlets.lookup descriptor with
  | none => if cs = [] then some sh else none
  | some outlet =>
    if cs = [] then some sh
    else match outlet with
      | .stream s => some { sh with written := (s, bytesOf cs) :: sh.written }
      | .file place =>
        match sh.files.at? place with
        | some (.file content mode) =>
          some { sh with files := sh.files.put place (.file (content ++ bytesOf cs) mode) }
        | _ => some sh
      | .sink => some sh
      | .capture => some { sh with captured := cs :: sh.captured }

/-- Writes a message about the line that is carried out to the error stream. -/
def complain (sh : State) (message : String) : State :=
  let text := sh.name ++ (": " ++ sh.line.repr ++ ": " ++ message ++ "\n").toList
  (sh.write? 2 text).getD sh

/-- Writes to the output stream as a command that succeeds unless the stream is closed. -/
def print (sh : State) (what : String) (cs : Chars) : State :=
  match sh.write? 1 cs with
  | some sh => sh.done 0
  | none => (sh.complain (what ++ ": " ++ what ++ ": I/O error")).done 1

def capturedText (sh : State) : Chars := sh.captured.reverse.flatten

end State

end Cuesheet.Rehearsal.Shell
