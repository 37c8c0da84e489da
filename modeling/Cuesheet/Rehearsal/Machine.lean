import Cuesheet.Host
import Cuesheet.Rehearsal.FileTree

/-!
# A machine in memory

A `Machine` has files and an environment, and answers for an operating system. Programs on it are
shell scripts.
-/

namespace Cuesheet.Rehearsal

structure Machine where
  files : FileTree := {}
  environment : List (String × Bytes) := []
  programDirectory : Bytes := []

namespace Machine

def scriptOf (body : Bytes) : Bytes :=
  Utf8.encode "#!/bin/sh\n" ++ body ++ [0x0A]

/-- The programs on every machine besides the shells, each of which the shell knows by its name. -/
def programNames : List String :=
  ["basename", "cat", "cp", "dirname", "echo", "env", "false", "head", "mkdir", "mv", "printf", "pwd",
    "rm", "seq", "sleep", "sync", "tail", "test", "touch", "tr", "true", "wc", "yes"]

/-- The script that stands for a program: it hands its arguments on. -/
def programScript (name : String) : Bytes := scriptOf (Utf8.encode (name ++ " \"$@\""))

/-- The script that stands for a shell: a shell takes no option that starts with two hyphens. -/
def shellScript (name : String) : Bytes :=
  scriptOf (Utf8.encode ("echo '" ++ name ++ ": 0: Illegal option --' >&2; exit 2"))

def searchPath : String := "/usr/local/sbin:/usr/local/bin:/usr/sbin:/usr/bin:/sbin:/bin"

def standardPrograms : List (String × Bytes) :=
  (["sh", "dash", "bash"].map fun name => (name, shellScript name))
    ++ programNames.map fun name => (name, programScript name)

/-- The files on every machine: programs, two devices, and a directory to work in. -/
def standardFiles : FileTree :=
  let place := fun (path : String) => (FileTree.parts (Utf8.encode path)).filter (· != [])
  let programs := standardPrograms.flatMap fun (name, content) =>
    [(place ("/bin/" ++ name), Entry.file content 0o755),
      (place ("/usr/bin/" ++ name), Entry.file content 0o755)]
  { entries := programs ++
      [(place "/dev/null", .sink), (place "/dev/zero", .zeros)] ++
      ["/bin", "/usr", "/usr/bin", "/dev", "/home", "/tmp"].map fun path => (place path, .directory)
    workingDirectory := place "/home" }

/-- A machine with nothing on it but what is on every machine. -/
def standard (programDirectory : Bytes) : Machine where
  files := standardFiles.makeDirectories programDirectory
  environment := [("PATH", Utf8.encode searchPath)]
  programDirectory := programDirectory

def setVariable (m : Machine) (name : String) (value : Bytes) : Machine :=
  { m with environment := (name, value) :: m.environment.filter (·.1 != name) }

def install (m : Machine) (path : Bytes) (entry : Entry) : Machine :=
  { m with files := m.files.install path entry }

/-- The interpreter that the first line of a script names. -/
def interpreter? (content : Bytes) : Option Bytes :=
  match content with
  | 0x23 :: 0x21 :: rest =>
    let blank := fun b : UInt8 => b == 0x20 || b == 0x09
    let line := (rest.takeWhile (· != 0x0A)).dropWhile blank
    let path := line.takeWhile (!blank ·)
    if path = [] then none else some path
  | _ => none

def launchFault (m : Machine) (program : Bytes) (words : List Bytes) : Option OsFault :=
  if (program :: words).any (·.contains 0) then some .nulByte
  else match m.files.find program with
    | .error cause => some cause
    | .ok (.file content mode) =>
      if !FileTree.allows mode FileTree.runBit then some .permissionDenied
      else match interpreter? content with
        | none => some .notExecutableFormat
        | some path => if m.files.isFile path then none else some .notFound
    | .ok _ => some .permissionDenied

def isProgram (m : Machine) (path : Bytes) : Bool :=
  match m.files.find path with
  | .ok (.file _ mode) => FileTree.allows mode FileTree.runBit
  | _ => false

def pathOf (place : Place) : Bytes :=
  if place = [] then [Path.slash] else place.flatMap (Path.slash :: ·)

def host (m : Machine) : Host where
  isFile := m.files.isFile
  isProgram := m.isProgram
  isPresent path := match m.files.find path with
    | .ok _ => true
    | .error _ => false
  read := m.files.read
  environment name := m.environment.lookup name
  programDirectory := some m.programDirectory
  workingDirectory := pathOf m.files.workingDirectory
  launchFault := m.launchFault

end Machine

end Cuesheet.Rehearsal
