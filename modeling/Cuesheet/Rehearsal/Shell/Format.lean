import Cuesheet.Rehearsal.Shell.Arithmetic

/-!
# Printed text

The escapes and the formats of `echo` and `printf`.
-/

namespace Cuesheet.Rehearsal.Shell

def octalDigit? (c : Char) : Option Nat :=
  if '0' ≤ c ∧ c ≤ '7' then some (c.toNat - '0'.toNat) else none

/-- The number of the octal digits at the start, at most `limit` of them, and what stands behind. -/
def octal : Nat → Nat → Chars → Nat × Chars
  | 0, n, cs => (n, cs)
  | _, n, [] => (n, [])
  | limit + 1, n, c :: cs =>
    match octalDigit? c with
    | some d => octal limit (n * 8 + d) cs
    | none => (n, c :: cs)

def byteChar (n : Nat) : Char := Char.ofNat (n % 256)

/-- What an escape without digits stands for, by the character behind the backslash. -/
def escaped? : Char → Option Char
  | '\\' => some '\\'
  | '\x22' => some '\x22'
  | 'a' => some '\x07'
  | 'b' => some '\x08'
  | 'e' => some '\x1b'
  | 'f' => some '\x0c'
  | 'n' => some '\n'
  | 'r' => some '\r'
  | 't' => some '\t'
  | 'v' => some '\x0b'
  | _ => none

/-- What stands behind a backslash in a format: a character, and the rest of the format. -/
def formatEscape (cs : Chars) : Char × Chars :=
  match cs with
  | [] => ('\\', [])
  | c :: rest =>
    if (octalDigit? c).isSome then
      let (n, rest) := octal 3 0 (c :: rest)
      (byteChar n, rest)
    else match escaped? c with
      | some d => (d, rest)
      | none => ('\\', c :: rest)

/-- A text with its escapes resolved, and whether one of them ends all output. -/
def resolveEscapes : Nat → Chars → Chars × Bool
  | 0, _ => ([], false)
  | _, [] => ([], false)
  | _, '\\' :: 'c' :: _ => ([], true)
  | fuel + 1, '\\' :: '0' :: rest =>
    let (n, rest) := octal 3 0 rest
    let (text, stops) := resolveEscapes fuel rest
    (byteChar n :: text, stops)
  | fuel + 1, '\\' :: rest =>
    let (c, rest) := formatEscape rest
    let (text, stops) := resolveEscapes fuel rest
    (c :: text, stops)
  | fuel + 1, c :: rest =>
    let (text, stops) := resolveEscapes fuel rest
    (c :: text, stops)

def echoText (arguments : List Chars) : Chars :=
  let (ended, words) := match arguments with
    | ['-', 'n'] :: words => (false, words)
    | words => (true, words)
  let text := (words.intersperse [' ']).flatten
  let (text, stops) := resolveEscapes (text.length + 1) text
  if ended ∧ !stops then text ++ ['\n'] else text

structure Layout where
  left : Bool := false
  zeros : Bool := false
  plus : Bool := false
  space : Bool := false
  alternate : Bool := false
  width : Nat := 0
  precision : Option Nat := none
deriving Repr

def Layout.pad (l : Layout) (cs : Chars) : Chars :=
  let fill := List.replicate (l.width - cs.length) ' '
  if l.left then cs ++ fill else fill ++ cs

/-- A number laid out: its sign, what stands in front of the digits, and the digits. -/
def Layout.number (l : Layout) (isSigned negative : Bool) (mark digits : Chars) : Chars :=
  let sign : Chars :=
    if negative then ['-'] else if isSigned && l.plus then ['+']
    else if isSigned && l.space then [' '] else []
  let digits := match l.precision with
    | some p => List.replicate (p - digits.length) '0' ++ digits
    | none => digits
  let length := sign.length + mark.length + digits.length
  if l.zeros && !l.left && l.precision.isNone then
    sign ++ mark ++ List.replicate (l.width - length) '0' ++ digits
  else l.pad (sign ++ mark ++ digits)

def Layout.withFlags : Layout → Chars → Layout × Chars
  | l, '-' :: cs => withFlags { l with left := true } cs
  | l, '0' :: cs => withFlags { l with zeros := true } cs
  | l, '+' :: cs => withFlags { l with plus := true } cs
  | l, ' ' :: cs => withFlags { l with space := true } cs
  | l, '#' :: cs => withFlags { l with alternate := true } cs
  | l, cs => (l, cs)

/-- The digits at the start as a number, and what stands behind. -/
def natAt (cs : Chars) : Nat × Chars :=
  ((number? (cs.takeWhile Char.isDigit)).getD 0, cs.dropWhile Char.isDigit)

/-- What a format has printed so far. -/
structure Printed where
  /-- The text, the last part first. -/
  text : List Chars := []
  arguments : List Chars
  /-- The arguments that are no numbers but had to be, the last one first. -/
  rejected : List Chars := []
  stopped : Bool := false

def Printed.next (p : Printed) : Chars × Printed :=
  match p.arguments with
  | [] => ([], p)
  | a :: rest => (a, { p with arguments := rest })

def Printed.add (p : Printed) (cs : Chars) : Printed := { p with text := cs :: p.text }

/-- Takes the next argument as a number; a quote gives the code of the character behind it. -/
def Printed.nextNumber (p : Printed) : Int × Printed :=
  let (a, p) := p.next
  match a with
  | [] => (0, p)
  | '\x27' :: c :: _ | '\x22' :: c :: _ => (c.toNat, p)
  | a =>
    match integer? a with
    | some n => (n, p)
    | none => (0, { p with rejected := a :: p.rejected })

/-- Carries out one conversion; `none` if there is no such conversion. -/
def Printed.convert (p : Printed) (l : Layout) (c : Char) : Option Printed :=
  match c with
  | 's' =>
    let (a, p) := p.next
    some (p.add (l.pad (match l.precision with | some n => a.take n | none => a)))
  | 'b' =>
    let (a, p) := p.next
    let (text, stops) := resolveEscapes (a.length + 1) a
    some { p.add (l.pad text) with stopped := stops }
  | 'c' =>
    let (a, p) := p.next
    some (p.add (l.pad (a.take 1)))
  | 'd' | 'i' =>
    let (n, p) := p.nextNumber
    some (p.add (l.number true (n < 0) [] (natDigits 10 n.natAbs)))
  | 'u' => unsigned 10 []
  | 'o' => unsigned 8 (if l.alternate then ['0'] else [])
  | 'x' => unsigned 16 (if l.alternate then ['0', 'x'] else [])
  | 'X' =>
    let (n, p) := p.nextNumber
    some (p.add (l.number false false (if l.alternate then ['0', 'X'] else [])
      ((natDigits 16 (Int64.ofInt n).toUInt64.toNat).map Char.toUpper)))
  | _ => none
where
  natDigits (base n : Nat) : Chars := Nat.toDigits base n
  unsigned (base : Nat) (mark : Chars) : Option Printed :=
    let (n, p) := p.nextNumber
    some (p.add (l.number false false mark (natDigits base (Int64.ofInt n).toUInt64.toNat)))

/-- Prints a format once. An unknown conversion is the error. -/
def Printed.run : Nat → Chars → Printed → Except Chars Printed
  | 0, _, p => .ok p
  | _, [], p => .ok p
  | fuel + 1, '\\' :: rest, p =>
    let (c, rest) := formatEscape rest
    (p.add [c]).run fuel rest
  | fuel + 1, '%' :: '%' :: rest, p => (p.add ['%']).run fuel rest
  | fuel + 1, '%' :: rest, p =>
    let start := rest
    let (l, rest) := Layout.withFlags {} rest
    let ((width, p), rest) := match rest with
      | '*' :: rest => (p.nextNumber, rest)
      | rest => let (n, rest) := natAt rest; (((n : Int), p), rest)
    let l := { l with width := width.natAbs, left := l.left || width < 0 }
    let ((precision, p), rest) := match rest with
      | '.' :: '*' :: rest => let (n, p) := p.nextNumber; ((some n.natAbs, p), rest)
      | '.' :: rest => let (n, rest) := natAt rest; ((some n, p), rest)
      | rest => ((none, p), rest)
    match rest with
    | [] => .error ('%' :: start)
    | c :: rest =>
      match p.convert { l with precision } c with
      | none => .error ('%' :: start.take (start.length - rest.length))
      | some p => if p.stopped then .ok p else p.run fuel rest
  | fuel + 1, c :: rest, p => (p.add [c]).run fuel rest

/-- Prints a format again and again as long as arguments are left and it takes some. -/
def Printed.runAll : Nat → Chars → Printed → Except Chars Printed
  | 0, _, p => .ok p
  | fuel + 1, format, p => do
    let before := p.arguments.length
    let p ← p.run (format.length + 1) format
    if p.stopped || p.arguments.isEmpty || p.arguments.length = before then pure p
    else p.runAll fuel format

/-- What `printf` prints for a format and arguments, and the arguments that are no numbers but had to
    be. An unknown conversion is the error. -/
def printfText (format : Chars) (arguments : List Chars) : Except Chars (Chars × List Chars) :=
  (Printed.runAll (arguments.length + 1) format { arguments }).map fun p =>
    (p.text.reverse.flatten, p.rejected.reverse)

end Cuesheet.Rehearsal.Shell
