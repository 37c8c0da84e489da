import Cuesheet.Rehearsal.Shell.Arithmetic

/-!
# Conditions

The conditions of `test`: about files, texts and numbers, with negation, conjunction, disjunction and
parentheses.
-/

namespace Cuesheet.Rehearsal.Shell

def entryAt? (sh : State) (path : Chars) : Option Entry :=
  match sh.files.find (bytesOf path) with
  | .ok entry => some entry
  | .error _ => none

/-- Whether a path names a file or a directory with a permission. -/
def permits (sh : State) (bit : Nat) (path : Chars) : Bool :=
  match entryAt? sh path with
  | some (.file _ mode) => FileTree.allows mode bit
  | some .directory => true
  | some .sink | some .zeros => bit != FileTree.runBit
  | _ => false

/-- A condition about one operand; `none` if there is no such condition. -/
def unary? (sh : State) (op : Chars) (operand : Chars) : Option Bool :=
  match String.ofList op with
  | "-n" => some (operand != [])
  | "-z" => some (operand == [])
  | "-e" | "-a" => some (entryAt? sh operand).isSome
  | "-f" => some (sh.files.isFile (bytesOf operand))
  | "-d" => some (entryAt? sh operand == some .directory)
  | "-s" => some (match entryAt? sh operand with
      | some (.file content _) => content != []
      | some .directory => true
      | _ => false)
  | "-c" => some (match entryAt? sh operand with
      | some .sink | some .zeros => true
      | _ => false)
  | "-h" | "-L" => some (match sh.files.locate false (bytesOf operand) with
      | .ok place => match sh.files.at? place with
        | some (.link _) => true
        | _ => false
      | .error _ => false)
  | "-r" => some (permits sh FileTree.readBit operand)
  | "-w" => some (permits sh FileTree.writeBit operand)
  | "-x" => some (permits sh FileTree.runBit operand)
  | "-b" | "-p" | "-S" | "-t" | "-u" | "-g" | "-k" => some false
  | _ => none

/-- A condition about two operands: an answer, or nothing if an operand is no number; `none` if there
    is no such condition. -/
def binary? (op a b : Chars) : Option (Option Bool) :=
  let compare := fun (f : Int → Int → Bool) => some do pure (f (← integer? a) (← integer? b))
  match String.ofList op with
  | "=" | "==" => some (some (a == b))
  | "!=" => some (some (a != b))
  | "<" => some (some (a < b))
  | ">" => some (some (b < a))
  | "-eq" => compare (· == ·)
  | "-ne" => compare (· != ·)
  | "-lt" => compare (fun x y => x < y)
  | "-le" => compare (fun x y => x ≤ y)
  | "-gt" => compare (fun x y => y < x)
  | "-ge" => compare (fun x y => y ≤ x)
  | _ => none

mutual

/-- Conditions with `-o` between them. -/
def anyOf? (sh : State) : Nat → List Chars → Option (Bool × List Chars)
  | 0, _ => none
  | fuel + 1, words => do
    let (a, words) ← allOf? sh fuel words
    match words with
    | ['-', 'o'] :: words =>
      let (b, words) ← anyOf? sh fuel words
      some (a || b, words)
    | words => some (a, words)

/-- Conditions with `-a` between them. -/
def allOf? (sh : State) : Nat → List Chars → Option (Bool × List Chars)
  | 0, _ => none
  | fuel + 1, words => do
    let (a, words) ← condition? sh fuel words
    match words with
    | ['-', 'a'] :: words =>
      let (b, words) ← allOf? sh fuel words
      some (a && b, words)
    | words => some (a, words)

def condition? (sh : State) : Nat → List Chars → Option (Bool × List Chars)
  | 0, _ => none
  | _, [] => some (false, [])
  | fuel + 1, words =>
    match words with
    | a :: op :: b :: rest =>
      match binary? op a b with
      | some answer => answer.map (·, rest)
      | none => notBinary fuel words
    | words => notBinary fuel words
where
  notBinary : Nat → List Chars → Option (Bool × List Chars)
  | fuel, ['!'] :: rest =>
    match fuel with
    | 0 => none
    | fuel + 1 =>
      if rest = [] then some (true, [])
      else (condition? sh fuel rest).map fun (a, rest) => (!a, rest)
  | fuel, ['('] :: rest =>
    match fuel with
    | 0 => none
    | fuel + 1 => do
      let (a, rest) ← anyOf? sh fuel rest
      match rest with
      | [')'] :: rest => some (a, rest)
      | _ => none
  | _, [a] => some (a != [], [])
  | _, op :: operand :: rest =>
    match unary? sh op operand with
    | some answer => some (answer, rest)
    | none => some (op != [], operand :: rest)
  | _, [] => some (false, [])

end

/-- Whether the words of a condition hold; `none` if they are no condition. -/
def holds? (sh : State) (words : List Chars) : Option Bool :=
  match anyOf? sh (4 * (words.length + 1)) words with
  | some (answer, []) => some answer
  | _ => none

end Cuesheet.Rehearsal.Shell
