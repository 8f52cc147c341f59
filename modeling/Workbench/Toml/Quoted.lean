import Workbench.Text.Numeral
import Workbench.Toml.Basic
/-!
# Quoted texts

Four kinds of quoted text: between quotation marks, with escapes, or between apostrophes, as it
stands; on one line, or between three marks over several lines.
-/
namespace Workbench.Toml

def shortEscape? (c : Char) : Option Char :=
  match c with
  | 'b' => some (Char.ofNat 8)
  | 't' => some '\t'
  | 'n' => some '\n'
  | 'f' => some (Char.ofNat 12)
  | 'r' => some '\r'
  | '"' => some '"'
  | '\\' => some '\\'
  | _ => none

def numbered? (digits : List Char) : Option Char :=
  let n := Text.numberOf 16 digits
  if digits.all (Text.isDigitOf 16) ∧ n.isValidChar then some (Char.ofNat n) else none

/-- The character that is written behind a backslash, and with how many characters. -/
def escape? : List Char → Option (Char × Nat)
  | 'u' :: rest => if rest.length < 4 then none else (numbered? (rest.take 4)).map (·, 5)
  | 'U' :: rest => if rest.length < 8 then none else (numbered? (rest.take 8)).map (·, 9)
  | c :: _ => (shortEscape? c).map (·, 1)
  | [] => none

def quotedLine : Reader (List Char)
  | [] => none
  | c :: rest =>
    if c = '"' then some ([], rest)
    else if c = '\\' then
      match escape? rest with
      | none => none
      | some (e, n) => (quotedLine (rest.drop n)).map fun (cs, rest) => (e :: cs, rest)
    else if isPlain c then (quotedLine rest).map fun (cs, rest) => (c :: cs, rest)
    else none
termination_by s => s.length
decreasing_by all_goals simp only [List.length_cons, List.length_drop]; omega

def rawLine : Reader (List Char)
  | [] => none
  | c :: rest =>
    if c = '\'' then some ([], rest)
    else if isPlain c then (rawLine rest).map fun (cs, rest) => (c :: cs, rest)
    else none

/-- The end of a text over several lines: three marks, and before them up to two that belong to
the text. -/
def blockEnd? (mark : Char) (s : List Char) : Option (List Char × List Char) :=
  let run := ((s.take 5).takeWhile (· = mark)).length
  if 3 ≤ run then some (List.replicate (run - 3) mark, s.drop run) else none

def skipBlank : List Char → List Char
  | '\r' :: '\n' :: rest => skipBlank rest
  | c :: rest => if isSpace c || c = '\n' then skipBlank rest else c :: rest
  | [] => []

theorem length_skipBlank_le (s : List Char) : (skipBlank s).length ≤ s.length := by
  fun_induction skipBlank s <;> simp_all <;> omega

/-- What is left of a text behind a backslash at the end of a line, if one is there: all line
breaks and white space are skipped. -/
def continued? (s : List Char) : Option (List Char) :=
  if breakLength (skipSpace s) = 0 then none else some (skipBlank (skipSpace s))

theorem length_of_continued? {s rest : List Char} (eq : continued? s = some rest) :
    rest.length ≤ s.length := by
  unfold continued? at eq
  split at eq
  · simp at eq
  · simp only [Option.some.injEq] at eq
    subst eq
    exact Nat.le_trans (length_skipBlank_le _) (List.dropWhile_sublist _).length_le

def quotedBlock : Reader (List Char)
  | [] => none
  | c :: rest =>
    match blockEnd? '"' (c :: rest) with
    | some found => some found
    | none =>
      if c = '\\' then
        match _left : continued? rest with
        | some s => quotedBlock s
        | none =>
          match escape? rest with
          | none => none
          | some (e, n) => (quotedBlock (rest.drop n)).map fun (cs, rest) => (e :: cs, rest)
      else if breakLength (c :: rest) ≠ 0 then
        (quotedBlock (rest.drop (breakLength (c :: rest) - 1))).map fun (cs, rest) =>
          ('\n' :: cs, rest)
      else if isPlain c then (quotedBlock rest).map fun (cs, rest) => (c :: cs, rest)
      else none
termination_by s => s.length
decreasing_by
  all_goals simp only [List.length_cons, List.length_drop]
  · exact Nat.lt_succ_of_le (length_of_continued? _left)
  all_goals omega

def rawBlock : Reader (List Char)
  | [] => none
  | c :: rest =>
    match blockEnd? '\'' (c :: rest) with
    | some found => some found
    | none =>
      if breakLength (c :: rest) ≠ 0 then
        (rawBlock (rest.drop (breakLength (c :: rest) - 1))).map fun (cs, rest) =>
          ('\n' :: cs, rest)
      else if isPlain c then (rawBlock rest).map fun (cs, rest) => (c :: cs, rest)
      else none
termination_by s => s.length
decreasing_by all_goals simp only [List.length_cons, List.length_drop]; omega

def quotedKey : Reader String
  | '"' :: rest => (quotedLine rest).map fun (cs, rest) => (String.ofList cs, rest)
  | '\'' :: rest => (rawLine rest).map fun (cs, rest) => (String.ofList cs, rest)
  | _ => none

/-- A quoted text of any kind. A line break behind the opening three marks does not count. -/
def quoted : Reader String
  | '"' :: '"' :: '"' :: rest =>
    (quotedBlock (dropBreak rest)).map fun (cs, rest) => (String.ofList cs, rest)
  | '\'' :: '\'' :: '\'' :: rest =>
    (rawBlock (dropBreak rest)).map fun (cs, rest) => (String.ofList cs, rest)
  | s => quotedKey s

end Workbench.Toml
