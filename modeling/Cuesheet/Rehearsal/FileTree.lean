import Cuesheet.Invocation.Fault
import Cuesheet.Path

/-!
# Files in memory

A `FileTree` is a file system held in memory: directories, files with their permission bits,
symbolic links, and two devices. Paths are walked part by part, following links.
-/

namespace Cuesheet.OsFault

/-! The errors that a machine in memory gives -/

@[match_pattern]
def notFound : OsFault := ⟨"No such file or directory", some 2⟩

def notExecutableFormat : OsFault := ⟨"Exec format error", some 8⟩

def permissionDenied : OsFault := ⟨"Permission denied", some 13⟩

def notDirectory : OsFault := ⟨"Not a directory", some 20⟩

@[match_pattern]
def isDirectory : OsFault := ⟨"Is a directory", some 21⟩

def tooManyLinks : OsFault := ⟨"Too many levels of symbolic links", some 40⟩

end Cuesheet.OsFault

namespace Cuesheet.Rehearsal

/-- The place of something in the tree: the names from the root down. -/
abbrev Place := List Bytes

inductive Entry where
  | directory
  | file (content : Bytes) (mode : Nat)
  | link (target : Bytes)
  /-- A device that takes anything and gives nothing. -/
  | sink
  /-- A device that gives zero bytes without end. -/
  | zeros
deriving DecidableEq, Repr

structure FileTree where
  entries : List (Place × Entry) := []
  workingDirectory : Place := []
deriving Repr

namespace FileTree

/-- What is at a place. The root is always a directory. -/
def at? (tree : FileTree) (place : Place) : Option Entry :=
  if place = [] then some .directory else tree.entries.lookup place

def put (tree : FileTree) (place : Place) (entry : Entry) : FileTree :=
  { tree with entries := (place, entry) :: tree.entries.filter (·.1 != place) }

def erase (tree : FileTree) (place : Place) : FileTree :=
  { tree with entries := tree.entries.filter (·.1 != place) }

def parts (path : Bytes) : List Bytes := Path.splitAtByte Path.slash path

/-- Walks from a place along the parts of a path. A link at the end is followed only if `follow`
    says so. The last part need not exist. -/
def walk (tree : FileTree) (follow : Bool) : Nat → Place → List Bytes → Except OsFault Place
  | 0, _, _ => .error .tooManyLinks
  | _, here, [] => .ok here
  | fuel + 1, here, name :: rest =>
    match tree.at? here with
    | none => .error .notFound
    | some .directory =>
      if name = [] ∨ name = [Path.point] then tree.walk follow fuel here rest
      else if name = [Path.point, Path.point] then tree.walk follow fuel here.dropLast rest
      else
        let place := here ++ [name]
        match tree.at? place with
        | some (.link target) =>
          if rest = [] ∧ !follow then .ok place
          else if target = [] then .error .notFound
          else tree.walk follow fuel (if Path.isAbsolute target then [] else here)
            (parts target ++ rest)
        | _ => tree.walk follow fuel place rest
    | some _ => .error .notDirectory

def walkLimit : Nat := 2000

def locate (tree : FileTree) (follow : Bool) (path : Bytes) : Except OsFault Place :=
  if path = [] then .error .notFound
  else if path.contains 0 then .error .nulByte
  else tree.walk follow walkLimit (if Path.isAbsolute path then [] else tree.workingDirectory)
    (parts path)

def find (tree : FileTree) (path : Bytes) : Except OsFault Entry :=
  match tree.locate true path with
  | .error cause => .error cause
  | .ok place =>
    match tree.at? place with
    | some entry => .ok entry
    | none => .error .notFound

def isFile (tree : FileTree) (path : Bytes) : Bool :=
  match tree.find path with
  | .ok (.file _ _) => true
  | _ => false

/-- Whether a file's owner has a permission, given by its bit. -/
def allows (mode bit : Nat) : Bool := mode / bit % 2 == 1

def readBit : Nat := 256

def writeBit : Nat := 128

def runBit : Nat := 64

def read (tree : FileTree) (path : Bytes) : Except OsFault Bytes :=
  match tree.find path with
  | .error cause => .error cause
  | .ok .directory => .error .isDirectory
  | .ok (.file content mode) =>
    if allows mode readBit then .ok content else .error .permissionDenied
  | .ok _ => .ok []

/-- Changes the content of a file, which is made with the given permission bits if there is none. -/
def update (tree : FileTree) (path : Bytes) (mode : Nat) (change : Bytes → Bytes) :
    Except OsFault FileTree :=
  match tree.locate true path with
  | .error cause => .error cause
  | .ok place =>
    match tree.at? place with
    | some (.file content old) =>
      if allows old writeBit then .ok (tree.put place (.file (change content) old))
      else .error .permissionDenied
    | some .sink | some .zeros => .ok tree
    | some _ => .error .isDirectory
    | none =>
      match tree.at? place.dropLast with
      | some .directory => .ok (tree.put place (.file (change []) mode))
      | _ => .error .notFound

/-- Makes directories along a path, where there is nothing yet. -/
def makeDirectories (tree : FileTree) (path : Bytes) : FileTree :=
  let go := fun (state : FileTree × Bytes) part =>
    let (tree, path) := state
    let path := path ++ part
    let made := match tree.locate true path with
      | .ok place => if (tree.at? place).isNone then tree.put place .directory else tree
      | .error _ => tree
    (made, path ++ [Path.slash])
  ((parts path).foldl go (tree, [])).1

/-- The path of the directory that holds what a path names. -/
def parentPath (path : Bytes) : Bytes :=
  (path.reverse.dropWhile (· != Path.slash)).reverse

/-- Makes something at a path, with the directories above it. -/
def install (tree : FileTree) (path : Bytes) (entry : Entry) : FileTree :=
  let tree := tree.makeDirectories (parentPath path)
  match entry with
  | .file content mode =>
    match tree.update path mode fun _ => content with
    | .ok tree =>
      match tree.locate true path with
      | .ok place => tree.put place (.file content mode)
      | .error _ => tree
    | .error _ => tree
  | .directory => tree.makeDirectories path
  | entry =>
    match tree.locate false path with
    | .ok place => if (tree.at? place).isNone then tree.put place entry else tree
    | .error _ => tree

/-- Removes a file or a link; `none` if the path names neither. -/
def remove? (tree : FileTree) (path : Bytes) : Option FileTree :=
  match tree.locate false path with
  | .error _ => none
  | .ok place =>
    match tree.at? place with
    | some .directory | none => none
    | some _ => some (tree.erase place)

end FileTree

end Cuesheet.Rehearsal
