import Cuesheet.Rehearsal.Shell.State
import Cuesheet.Rehearsal.Shell.Token
import Cuesheet.Number.Notation

/-!
# Arithmetic of the shell

Expressions over whole numbers, with the operators of the shell from the loosest to the tightest.
A comparison gives one or zero. Division by zero, and anything that is no expression, fails.
-/

namespace Cuesheet.Rehearsal.Shell

/-- The operators with two operands, the loosest first; within a level the longer ones first. -/
def operatorLevels : List (List String) :=
  [["||"], ["&&"], ["|"], ["^"], ["&"], ["==", "!="], ["<=", ">=", "<", ">"], ["<<", ">>"],
    ["+", "-"], ["*", "/", "%"]]

def truth (b : Bool) : Int := if b then 1 else 0

def operate? (op : String) (a b : Int) : Option Int :=
  match op with
  | "||" => some (truth (a != 0 || b != 0))
  | "&&" => some (truth (a != 0 && b != 0))
  | "|" => some (Int64.ofInt a ||| Int64.ofInt b).toInt
  | "^" => some (Int64.ofInt a ^^^ Int64.ofInt b).toInt
  | "&" => some (Int64.ofInt a &&& Int64.ofInt b).toInt
  | "==" => some (truth (a == b))
  | "!=" => some (truth (a != b))
  | "<=" => some (truth (a ≤ b))
  | ">=" => some (truth (b ≤ a))
  | "<" => some (truth (a < b))
  | ">" => some (truth (b < a))
  | "<<" => some (Int64.ofInt a <<< Int64.ofInt b).toInt
  | ">>" => some (Int64.ofInt a >>> Int64.ofInt b).toInt
  | "+" => some (Int64.ofInt (a + b)).toInt
  | "-" => some (Int64.ofInt (a - b)).toInt
  | "*" => some (Int64.ofInt (a * b)).toInt
  | "/" => if b = 0 then none else some (a.tdiv b)
  | "%" => if b = 0 then none else some (a.tmod b)
  | _ => none

def skipBlanks (cs : Chars) : Chars := cs.dropWhile fun c => c == ' ' || c == '\t' || c == '\n'

/-- The operator of a level at the start of a text, unless it is part of a longer one. -/
def operatorAt? (ops : List String) (cs : Chars) : Option (String × Chars) :=
  match ops.find? fun op => op.toList.isPrefixOf cs with
  | none => none
  | some op =>
    let after := cs.drop op.length
    let longer := match op, after with
      | "|", '|' :: _ | "&", '&' :: _ | "<", '<' :: _ | ">", '>' :: _ => true
      | _, '=' :: '=' :: _ => false
      | _, '=' :: _ => ["|", "^", "&", "+", "-", "*", "/", "%", "<<", ">>"].contains op
      | _, _ => false
    if longer then none else some (op, after)

/-- A number in decimal, octal or hexadecimal digits. -/
def literal? (cs : Chars) : Option Int :=
  match cs with
  | '0' :: 'x' :: digits => based 16 digits
  | '0' :: digits => if digits = [] then some 0 else based 8 digits
  | digits => based 10 digits
where
  based (base : Nat) (digits : Chars) : Option Int :=
    let values := digits.map fun c =>
      if c.isDigit then c.toNat - '0'.toNat else c.toLower.toNat - 'a'.toNat + 10
    if digits ≠ [] ∧ values.all (· < base) then
      some (Int64.ofNat (values.foldl (fun n d => n * base + d) 0)).toInt
    else none

/-- A whole number with an optional sign, as the value of a variable. -/
def integer? (cs : Chars) : Option Int :=
  let cs := (skipBlanks cs).reverse.dropWhile (fun c => c == ' ' || c == '\n') |>.reverse
  match cs with
  | '-' :: digits => (literal? digits).map (- ·)
  | '+' :: digits => literal? digits
  | digits => literal? digits

def integerText (n : Int) : Chars := (intText n).toList

/-- The value of a variable as a number; a missing one counts as zero. -/
def numberOf? (sh : State) (name : String) : Option Int :=
  match sh.valueOf? name with
  | none | some [] => some 0
  | some cs => integer? cs

/-- The name and the operator of an assignment at the start. -/
def assignmentAt? (cs : Chars) : Option (String × String × Chars) :=
  match skipBlanks cs with
  | c :: rest =>
    if startsName c then
      let name := String.ofList (c :: rest.takeWhile inName)
      match skipBlanks (rest.dropWhile inName) with
      | '=' :: '=' :: _ => none
      | '=' :: rest => some (name, "", rest)
      | rest =>
        (["<<", ">>", "+", "-", "*", "/", "%", "&", "|", "^"].find? fun op =>
          (op ++ "=").toList.isPrefixOf rest).map fun op => (name, op, rest.drop (op.length + 1))
    else none
  | [] => none

mutual

/-- An expression: a choice between two, or an assignment. -/
def expression? : Nat → State → Chars → Option (Int × State × Chars)
  | 0, _, _ => none
  | fuel + 1, sh, cs => do
    match assignmentAt? cs with
    | some (name, op, rest) =>
      let (b, sh, rest) ← expression? fuel sh rest
      let v ← if op = "" then some b else do operate? op (← numberOf? sh name) b
      some (v, sh.setVariable name (integerText v), rest)
    | none =>
      let (a, sh, rest) ← level? fuel operatorLevels sh cs
      match skipBlanks rest with
      | '?' :: rest =>
        let (yes, sh, rest) ← expression? fuel sh rest
        match skipBlanks rest with
        | ':' :: rest =>
          let (no, sh, rest) ← expression? fuel sh rest
          some (if a = 0 then no else yes, sh, rest)
        | _ => none
      | rest => some (a, sh, rest)

def level? : Nat → List (List String) → State → Chars → Option (Int × State × Chars)
  | 0, _, _, _ => none
  | fuel + 1, [], sh, cs => operand? fuel sh cs
  | fuel + 1, ops :: tighter, sh, cs => do
    let (a, sh, rest) ← level? fuel tighter sh cs
    levelFrom? fuel ops tighter a sh rest

def levelFrom? : Nat → List String → List (List String) → Int → State → Chars →
    Option (Int × State × Chars)
  | 0, _, _, _, _, _ => none
  | fuel + 1, ops, tighter, a, sh, cs =>
    match operatorAt? ops (skipBlanks cs) with
    | none => some (a, sh, cs)
    | some (op, rest) => do
      let (b, sh, rest) ← level? fuel tighter sh rest
      levelFrom? fuel ops tighter (← operate? op a b) sh rest

/-- An operand: a number, a variable, a sign in front of an operand, or parentheses. -/
def operand? : Nat → State → Chars → Option (Int × State × Chars)
  | 0, _, _ => none
  | fuel + 1, sh, cs =>
    match skipBlanks cs with
    | '(' :: rest => do
      let (v, sh, rest) ← expression? fuel sh rest
      match skipBlanks rest with
      | ')' :: rest => some (v, sh, rest)
      | _ => none
    | '-' :: rest => (operand? fuel sh rest).map fun (v, sh, rest) => (-v, sh, rest)
    | '+' :: rest => operand? fuel sh rest
    | '!' :: rest => (operand? fuel sh rest).map fun (v, sh, rest) => (truth (v == 0), sh, rest)
    | '~' :: rest => (operand? fuel sh rest).map fun (v, sh, rest) => (-v - 1, sh, rest)
    | c :: rest =>
      if c.isDigit then
        (literal? (c :: rest.takeWhile Char.isAlphanum)).map fun v =>
          (v, sh, rest.dropWhile Char.isAlphanum)
      else if startsName c then
        (numberOf? sh (String.ofList (c :: rest.takeWhile inName))).map fun v =>
          (v, sh, rest.dropWhile inName)
      else none
    | [] => none

end

def evaluate? (sh : State) (cs : Chars) : Option (Int × State) :=
  if skipBlanks cs = [] then some (0, sh)
  else match expression? (20 * (cs.length + 2)) sh cs with
    | some (v, sh, rest) => if skipBlanks rest = [] then some (v, sh) else none
    | none => none

end Cuesheet.Rehearsal.Shell
