import Workbench.Host.Shell.Basic
import Workbench.Text.Basic
/-!
# Reading shell scripts

A script is cut into tokens, which are then put together to a phrase. How far reading goes is
bounded by the length of the script.
-/
namespace Workbench.Shell

/-- A token: a word, or something that joins or ends commands. -/
inductive Token where
  | word (w : Word)
  | mark (text : String)
  | connection (stream : Nat) (direction : Direction)
  deriving DecidableEq, Repr

def endsWord (c : Char) : Bool := " \t\n;&|<>()".toList.contains c

def isNameChar (c : Char) : Bool := c.isAlphanum || c == '_'

/-- The text up to the closing mark that belongs to an opening mark before it, and the rest. -/
def upToClose (openMark closeMark : Char) : (depth : Nat) → List Char → List Char × List Char
  | _, [] => ([], [])
  | depth, c :: rest =>
    if c = closeMark then
      match depth with
      | 0 => ([], rest)
      | depth + 1 =>
        let (inner, rest) := upToClose openMark closeMark depth rest
        (c :: inner, rest)
    else
      let (inner, rest) := upToClose openMark closeMark (if c = openMark then depth + 1 else depth) rest
      (c :: inner, rest)

def dollar (quoted : Bool) : List Char → Piece × List Char
  | '(' :: '(' :: rest =>
    let (inner, rest) := upToClose '(' ')' 0 rest
    (.sum inner quoted, if rest.head? = some ')' then rest.drop 1 else rest)
  | '(' :: rest =>
    let (inner, rest) := upToClose '(' ')' 0 rest
    (.output inner quoted, rest)
  | '\x7b' :: rest =>
    let (inner, rest) := upToClose '\x7b' '\x7d' 0 rest
    (.variable (String.ofList inner) quoted, rest)
  | c :: rest =>
    if c.isDigit || "@*#?$!-".toList.contains c then (.variable (String.ofList [c]) quoted, rest)
    else if isNameChar c then
      let name := (c :: rest).takeWhile isNameChar
      (.variable (String.ofList name) quoted, (c :: rest).drop name.length)
    else (.plain ['$'] quoted, c :: rest)
  | [] => (.plain ['$'] quoted, [])

def inQuotes : (fuel : Nat) → List Char → List Piece × List Char
  | 0, s => ([], s)
  | _ + 1, [] => ([], [])
  | fuel + 1, c :: rest =>
    if c = '"' then ([], rest)
    else if c = '\\' then
      match rest with
      | e :: rest =>
        let (more, rest) := inQuotes fuel rest
        let kept := if "$`\"\\".toList.contains e then [e] else if e = '\n' then [] else ['\\', e]
        (.plain kept true :: more, rest)
      | [] => ([.plain ['\\'] true], [])
    else if c = '$' then
      let (piece, rest) := dollar true rest
      let (more, rest) := inQuotes fuel rest
      (piece :: more, rest)
    else
      let (more, rest) := inQuotes fuel rest
      (.plain [c] true :: more, rest)

def word : (fuel : Nat) → List Char → Word × List Char
  | 0, s => ([], s)
  | _ + 1, [] => ([], [])
  | fuel + 1, c :: rest =>
    if endsWord c then ([], c :: rest)
    else
      let (pieces, rest) : List Piece × List Char :=
        if c = '\'' then
          let inner := rest.takeWhile (· ≠ '\'')
          ([.plain inner true], rest.drop (inner.length + 1))
        else if c = '"' then
          let (pieces, rest) := inQuotes (rest.length + 1) rest
          (if pieces = [] then [.plain [] true] else pieces, rest)
        else if c = '`' then
          let inner := rest.takeWhile (· ≠ '`')
          ([.output inner false], rest.drop (inner.length + 1))
        else if c = '\\' then
          match rest with
          | '\n' :: rest => ([], rest)
          | e :: rest => ([.plain [e] true], rest)
          | [] => ([.plain ['\\'] true], [])
        else if c = '$' then
          let (piece, rest) := dollar false rest
          ([piece], rest)
        else ([.plain [c] false], rest)
      let (more, rest) := word fuel rest
      (pieces ++ more, rest)

def connection? (stream : Option Nat) : List Char → Option (Token × List Char)
  | '>' :: '>' :: rest => some (.connection (stream.getD 1) .append, rest)
  | '>' :: '&' :: rest => some (.connection (stream.getD 1) .duplicate, rest)
  | '>' :: '|' :: rest => some (.connection (stream.getD 1) .write, rest)
  | '>' :: rest => some (.connection (stream.getD 1) .write, rest)
  | '<' :: '&' :: rest => some (.connection (stream.getD 0) .duplicate, rest)
  | '<' :: rest => some (.connection (stream.getD 0) .read, rest)
  | _ => none

def doubleMarks : List (Char × Char) := [('&', '&'), ('|', '|'), (';', ';')]

def tokens : (fuel : Nat) → List Char → List Token
  | 0, _ => []
  | _ + 1, [] => []
  | fuel + 1, c :: rest =>
    if c = ' ' || c = '\t' then tokens fuel rest
    else if c = '\n' then .mark "\n" :: tokens fuel rest
    else if c = '#' then tokens fuel (rest.dropWhile (· ≠ '\n'))
    else
      let digit := if c.isDigit then some (c.toNat - 48) else none
      match (digit.bind fun n => connection? (some n) rest).orElse
          fun _ => connection? none (c :: rest) with
      | some (t, rest) => t :: tokens fuel rest
      | none =>
        if endsWord c then
          match rest with
          | d :: more =>
            if doubleMarks.contains (c, d) then .mark (String.ofList [c, d]) :: tokens fuel more
            else .mark (String.ofList [c]) :: tokens fuel rest
          | [] => [.mark (String.ofList [c])]
        else
          let (w, rest) := word ((c :: rest).length) (c :: rest)
          .word w :: tokens fuel rest

def plainText? (w : Word) : Option String :=
  if w.all fun p => match p with
    | .plain _ quoted => !quoted
    | _ => false
  then some (String.ofList (w.flatMap fun p => match p with
    | .plain text _ => text
    | _ => []))
  else none

def closers : List String := ["then", "else", "elif", "fi", "do", "done", "\x7d", "esac"]

def setting? (w : Word) : Option (String × Word) :=
  let front := (w.takeWhile fun p => match p with
    | .plain _ quoted => !quoted
    | _ => false)
  let text := front.flatMap fun p => match p with
    | .plain text _ => text
    | _ => []
  let name := text.takeWhile isNameChar
  match name, text.drop name.length with
  | c :: _, '=' :: value =>
    if c.isDigit then none
    else some (String.ofList name, .plain value true :: w.drop front.length)
  | _, _ => none

def skipBreaks (ts : List Token) : List Token := ts.dropWhile (· = .mark "\n")

def expect (text : String) (ts : List Token) : Option (List Token) :=
  match skipBreaks ts with
  | .word w :: rest => if plainText? w = some text then some rest else none
  | _ => none

def connections : List Token → List Redirection × List Token
  | .connection stream direction :: .word w :: rest =>
    let (more, rest) := connections rest
    (⟨stream, direction, w⟩ :: more, rest)
  | ts => ([], ts)

def Token.isMark : Token → Bool
  | .mark _ => true
  | _ => false

def separate : List Token → List Word × List Redirection
  | .connection stream direction :: .word w :: rest =>
    let (words, connections) := separate rest
    (words, ⟨stream, direction, w⟩ :: connections)
  | .word w :: rest =>
    let (words, connections) := separate rest
    (w :: words, connections)
  | _ :: rest => separate rest
  | [] => ([], [])

/-- A simple command: settings, words, and connections anywhere. -/
def command (ts : List Token) : Phrase × List Token :=
  let (words, connections) := separate (ts.takeWhile (!·.isMark))
  let isSetting (w : Word) := (setting? w).isSome
  (.simple ((words.takeWhile isSetting).filterMap setting?) (words.dropWhile isSetting) connections,
    ts.dropWhile (!·.isMark))

/-- One phrase after another; nothing after nothing. -/
def Phrase.then (first second : Phrase) : Phrase :=
  match first, second with
  | .nothing, p | p, .nothing => p
  | p, q => .sequence p q

mutual

def phrases : (fuel : Nat) → List Token → Option (Phrase × List Token)
  | 0, _ => none
  | fuel + 1, ts =>
    match skipBreaks ts with
    | [] => some (.nothing, [])
    | .mark ")" :: rest => some (.nothing, .mark ")" :: rest)
    | .mark ";" :: rest => phrases fuel rest
    | ts =>
      let closes := match ts with
        | .word w :: _ => (plainText? w).any closers.contains
        | _ => false
      if closes then some (.nothing, ts)
      else do
        let (first, rest) ← chain fuel ts
        match rest with
        | .mark m :: more =>
          if m = ";" || m = "\n" || m = "&" then
            let (next, rest) ← phrases fuel more
            some (first.then next, rest)
          else some (first, rest)
        | _ => some (first, rest)

def chain : (fuel : Nat) → List Token → Option (Phrase × List Token)
  | 0, _ => none
  | fuel + 1, ts => do
    let (first, rest) ← pipeline fuel ts
    links fuel first rest

def links : (fuel : Nat) → Phrase → List Token → Option (Phrase × List Token)
  | 0, _, _ => none
  | fuel + 1, first, ts =>
    match ts with
    | .mark m :: rest =>
      if m = "&&" then do
        let (second, rest) ← pipeline fuel (skipBreaks rest)
        links fuel (.both first second) rest
      else if m = "||" then do
        let (second, rest) ← pipeline fuel (skipBreaks rest)
        links fuel (.either first second) rest
      else some (first, ts)
    | _ => some (first, ts)

def pipeline : (fuel : Nat) → List Token → Option (Phrase × List Token)
  | 0, _ => none
  | fuel + 1, ts => do
    match expect "!" ts with
    | some rest =>
      let (p, rest) ← pipeline fuel rest
      some (.negation p, rest)
    | none =>
      let (first, rest) ← single fuel ts
      match rest with
      | .mark "|" :: rest =>
        let (second, rest) ← pipeline fuel (skipBreaks rest)
        some (.pipe first second, rest)
      | _ => some (first, rest)

def branches : (fuel : Nat) → List Token → Option (Phrase × List Token)
  | 0, _ => none
  | fuel + 1, ts => do
    let (test, rest) ← phrases fuel ts
    let (yes, rest) ← phrases fuel (← expect "then" rest)
    match expect "elif" rest with
    | some rest =>
      let (no, rest) ← branches fuel rest
      some (.branch test yes no, rest)
    | none =>
      match expect "else" rest with
      | some rest =>
        let (no, rest) ← phrases fuel rest
        some (.branch test yes no, ← expect "fi" rest)
      | none => some (.branch test yes .nothing, ← expect "fi" rest)

def single : (fuel : Nat) → List Token → Option (Phrase × List Token)
  | 0, _ => none
  | fuel + 1, ts =>
    match ts with
    | .mark "(" :: rest => do
      let (body, rest) ← phrases fuel rest
      match rest with
      | .mark ")" :: rest =>
        let (cs, rest) := connections rest
        some (.group true body cs, rest)
      | _ => none
    | .word w :: rest =>
      match plainText? w with
      | some "\x7b" => do
        let (body, rest) ← phrases fuel rest
        let (cs, rest) := connections (← expect "\x7d" rest)
        some (.group false body cs, rest)
      | some "if" => do
        let (p, rest) ← branches fuel rest
        let (cs, rest) := connections rest
        some (.group false p cs, rest)
      | some "for" =>
        match rest with
        | .word name :: rest => do
          let rest ← expect "in" rest
          let words := rest.takeWhile fun t => match t with
            | .word _ => true
            | _ => false
          let rest := (rest.drop words.length).dropWhile fun t => t = .mark ";" || t = .mark "\n"
          let (body, rest) ← phrases fuel (← expect "do" rest)
          let (cs, rest) := connections (← expect "done" rest)
          let words := words.filterMap fun t => match t with
            | .word w => some w
            | _ => none
          some (.group false (.each ((plainText? name).getD "") words body) cs, rest)
        | _ => none
      | some other =>
        if other = "while" || other = "until" then do
          let (test, rest) ← phrases fuel rest
          let (body, rest) ← phrases fuel (← expect "do" rest)
          let (cs, rest) := connections (← expect "done" rest)
          some (.group false (.loop (other = "until") test body) cs, rest)
        else some (command ts)
      | none => some (command ts)
    | .connection _ _ :: _ => some (command ts)
    | _ => none

end

def parse? (script : List Char) : Option Phrase :=
  let ts := tokens (script.length + 1) script
  match phrases (8 * ts.length + 8) ts with
  | some (p, []) => some p
  | _ => none

end Workbench.Shell
