import Cuesheet.Rehearsal.Shell.Token

/-!
# Reading shell scripts

Words and marks become commands. Lists of commands end at a closing word or mark, so the readers of
the control structures call each other; fuel bounds the depth of the calls.
-/

namespace Cuesheet.Rehearsal.Shell

abbrev Tokens := List (Nat × Token)

def keyword? : Tokens → Option String
  | (_, .word [.plain cs]) :: _ => some (String.ofList cs)
  | _ => none

def expect? (word : String) (ts : Tokens) : Option Tokens :=
  if keyword? ts = some word then some (ts.drop 1) else none

def skipLines : Tokens → Tokens
  | (_, .mark "\n") :: ts => skipLines ts
  | ts => ts

def closers : List String := ["then", "elif", "else", "fi", "do", "done", "esac", "\x7d"]

def atClose (ts : Tokens) : Bool :=
  match ts with
  | [] | (_, .mark ")") :: _ | (_, .mark ";;") :: _ => true
  | _ => (keyword? ts).any closers.contains

/-- The target that a mark and the word behind it describe. -/
def targetOf? (mark : String) (w : Word) : Option (Nat × Target) :=
  match mark with
  | "<" => some (0, .read w)
  | ">" | ">|" => some (1, .write w)
  | ">>" => some (1, .append w)
  | "<&" => some (0, .copy w)
  | ">&" => some (1, .copy w)
  | _ => none

def redirect? : Tokens → Option (Redirect × Tokens)
  | (_, .descriptor n) :: (_, .mark m) :: (_, .word w) :: ts =>
    (targetOf? m w).map fun (_, target) => (⟨n, target⟩, ts)
  | (_, .mark m) :: (_, .word w) :: ts =>
    (targetOf? m w).map fun (n, target) => (⟨n, target⟩, ts)
  | _ => none

def redirects : Nat → Tokens → List Redirect × Tokens
  | 0, ts => ([], ts)
  | fuel + 1, ts =>
    match redirect? ts with
    | some (r, ts) => let (rs, ts) := redirects fuel ts; (r :: rs, ts)
    | none => ([], ts)

def assignment? : Word → Option (String × Word)
  | .plain (c :: cs) :: pieces =>
    let name := c :: cs.takeWhile inName
    match cs.dropWhile inName with
    | '=' :: value =>
      if startsName c then
        some (String.ofList name, if value = [] then pieces else .plain value :: pieces)
      else none
    | _ => none
  | _ => none

def simple : Nat → Simple → Tokens → Simple × Tokens
  | 0, command, ts => (command, ts)
  | fuel + 1, command, ts =>
    match redirect? ts with
    | some (r, ts) => simple fuel { command with redirects := command.redirects ++ [r] } ts
    | none =>
      match ts with
      | (_, .word w) :: rest =>
        match command.words, assignment? w with
        | [], some a => simple fuel { command with assignments := command.assignments ++ [a] } rest
        | _, _ => simple fuel { command with words := command.words ++ [w] } rest
      | ts => (command, ts)

def wordsUpToMark : Tokens → List Word × Tokens
  | (_, .word w) :: ts => let (ws, ts) := wordsUpToMark ts; (w :: ws, ts)
  | ts => ([], ts)

/-- Patterns with bars between them, and the parenthesis behind them. -/
def patterns? : Tokens → Option (List Word × Tokens)
  | (_, .word w) :: (_, .mark ")") :: ts => some ([w], ts)
  | (_, .word w) :: (_, .mark "|") :: ts => (patterns? ts).map fun (ws, ts) => (w :: ws, ts)
  | _ => none

def nameToken? : Tokens → Option (String × Tokens)
  | (_, .word [.plain (c :: cs)]) :: ts =>
    if startsName c ∧ cs.all inName then some (String.ofList (c :: cs), ts) else none
  | _ => none

def skipSemicolon : Tokens → Tokens
  | (_, .mark ";") :: ts => ts
  | ts => ts

mutual

def list? : Nat → Tokens → Option (Command × Tokens)
  | 0, _ => none
  | fuel + 1, ts =>
    let ts := skipLines ts
    if atClose ts then some (.nothing, ts)
    else do
      let (first, ts) ← chain? fuel ts
      match ts with
      | (_, .mark ";") :: ts | (_, .mark "\n") :: ts =>
        let (rest, ts) ← list? fuel ts
        some (.sequence first rest, ts)
      | (_, .mark "&") :: ts =>
        let (rest, ts) ← list? fuel ts
        some (.sequence (.background first) rest, ts)
      | ts => some (first, ts)

/-- Pipelines with `&&` and `||` between them. -/
def chain? : Nat → Tokens → Option (Command × Tokens)
  | 0, _ => none
  | fuel + 1, ts => do
    let (first, ts) ← pipeline? fuel ts
    chainFrom? fuel first ts

def chainFrom? : Nat → Command → Tokens → Option (Command × Tokens)
  | 0, _, _ => none
  | fuel + 1, first, ts =>
    match ts with
    | (_, .mark "&&") :: ts => do
      let (second, ts) ← pipeline? fuel (skipLines ts)
      chainFrom? fuel (.both first second) ts
    | (_, .mark "||") :: ts => do
      let (second, ts) ← pipeline? fuel (skipLines ts)
      chainFrom? fuel (.either first second) ts
    | ts => some (first, ts)

def pipeline? : Nat → Tokens → Option (Command × Tokens)
  | 0, _ => none
  | fuel + 1, ts =>
    if keyword? ts = some "!" then do
      let (command, ts) ← pipeline? fuel (ts.drop 1)
      some (.negate command, ts)
    else do
      let (first, ts) ← command? fuel ts
      match ts with
      | (_, .mark "|") :: ts =>
        let (rest, ts) ← pipeline? fuel (skipLines ts)
        some (.pipe first rest, ts)
      | ts => some (first, ts)

def command? : Nat → Tokens → Option (Command × Tokens)
  | 0, _ => none
  | fuel + 1, ts => do
    let (body, after) ← compound? fuel ts
    match body with
    | .simple _ => some (body, after)
    | body =>
      let (rs, after) := redirects after.length after
      some (if rs = [] then body else .redirected body rs, after)

/-- One command without what is redirected around it. -/
def compound? : Nat → Tokens → Option (Command × Tokens)
  | 0, _ => none
  | fuel + 1, ts =>
    match keyword? ts, ts with
    | some "if", _ => branch? fuel (ts.drop 1)
    | some "while", _ => loop? fuel false (ts.drop 1)
    | some "until", _ => loop? fuel true (ts.drop 1)
    | some "for", _ => do
      let (name, ts) ← nameToken? (ts.drop 1)
      let ts := skipLines ts
      let (words, ts) := match expect? "in" ts with
        | some ts => let (ws, ts) := wordsUpToMark ts; (some ws, ts)
        | none => (none, ts)
      let (body, ts) ← list? fuel (← expect? "do" (skipLines (skipSemicolon ts)))
      some (.each name words body, ← expect? "done" ts)
    | some "case", _ =>
      match ts.drop 1 with
      | (_, .word w) :: ts => do arms? fuel w (← expect? "in" (skipLines ts))
      | _ => none
    | some "\x7b", _ => do
      let (body, ts) ← list? fuel (ts.drop 1)
      some (.sequence body .nothing, ← expect? "\x7d" ts)
    | _, (_, .mark "(") :: ts => do
      let (body, ts) ← list? fuel ts
      match ts with
      | (_, .mark ")") :: ts => some (.subshell body, ts)
      | _ => none
    | _, _ =>
      let line := (ts.head?.map (·.1)).getD 0
      let (command, after) := simple ts.length { line } ts
      if after.length < ts.length then some (.simple command, after) else none

/-- What stands behind `if` or `elif`, up to the end. -/
def branch? : Nat → Tokens → Option (Command × Tokens)
  | 0, _ => none
  | fuel + 1, ts => do
    let (condition, ts) ← list? fuel ts
    let (yes, ts) ← list? fuel (← expect? "then" ts)
    match keyword? ts with
    | some "elif" =>
      let (no, ts) ← branch? fuel (ts.drop 1)
      some (.branch condition yes no, ts)
    | some "else" =>
      let (no, ts) ← list? fuel (ts.drop 1)
      some (.branch condition yes no, ← expect? "fi" ts)
    | _ => some (.branch condition yes .nothing, ← expect? "fi" ts)

/-- What stands behind `while` or `until`, up to the end. -/
def loop? : Nat → Bool → Tokens → Option (Command × Tokens)
  | 0, _, _ => none
  | fuel + 1, untilTrue, ts => do
    let (condition, ts) ← list? fuel ts
    let (body, ts) ← list? fuel (← expect? "do" ts)
    some (.loop untilTrue condition body, ← expect? "done" ts)

/-- The arms of a `case`, up to the end. -/
def arms? : Nat → Word → Tokens → Option (Command × Tokens)
  | 0, _, _ => none
  | fuel + 1, w, ts =>
    let ts := skipLines ts
    if keyword? ts = some "esac" then some (.nothing, ts.drop 1)
    else do
      let ts := match ts with
        | (_, .mark "(") :: ts => ts
        | ts => ts
      let (patterns, ts) ← patterns? ts
      let (body, ts) ← list? fuel ts
      let ts := match ts with
        | (_, .mark ";;") :: ts => ts
        | ts => ts
      let (rest, ts) ← arms? fuel w ts
      some (.choose w patterns body rest, ts)

end

/-- Reads a script; `none` if it is not well formed. -/
def read? (cs : Chars) (line : Nat) : Option Command := do
  let ts ← tokens? (cs.length + 1) line cs
  let (command, rest) ← list? (20 * (ts.length + 1)) ts
  if rest = [] then some command else none

end Cuesheet.Rehearsal.Shell
