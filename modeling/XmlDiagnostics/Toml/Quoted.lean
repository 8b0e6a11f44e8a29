import XmlDiagnostics.Text.Numeral

/-!
# Quoted strings of TOML

There are four kinds of strings.  Basic strings stand between double quotes and have
escapes; literal strings stand between single quotes and have none.  Both come on one
line, and between three quotes on several lines.  Every reader here begins after the
opening quotes and gives the text of the string with what follows the closing quotes.
-/

namespace XmlDiagnostics.Toml

/-- Whether a character may stand in a string or a comment as it is: all but the control
characters, of which only the tab is allowed. -/
def isPlain (c : Char) : Bool :=
  c = '\t' || (32 ≤ c.toNat && c.toNat ≠ 127)

namespace Quoted

/-- The character whose code point is written with the first `count` characters of a
text. -/
def codePoint? (count : Nat) (s : List Char) : Option Char := do
  let values ← (s.take count).mapM Text.hexValue?
  let number := values.foldl (fun n v ↦ 16 * n + v) 0
  if values.length = count ∧ number.isValidChar then some (Char.ofNat number) else none

/-- The character that an escape stands for, and the number of characters of the escape
after the backslash. -/
def escape? : List Char → Option (Char × Nat)
  | 'b' :: _ => some ('\x08', 1)
  | 't' :: _ => some ('\t', 1)
  | 'n' :: _ => some ('\n', 1)
  | 'f' :: _ => some ('\x0c', 1)
  | 'r' :: _ => some ('\r', 1)
  | 'e' :: _ => some ('\x1b', 1)
  | '"' :: _ => some ('"', 1)
  | '\\' :: _ => some ('\\', 1)
  | 'x' :: rest => (codePoint? 2 rest).map (·, 3)
  | 'u' :: rest => (codePoint? 4 rest).map (·, 5)
  | 'U' :: rest => (codePoint? 8 rest).map (·, 9)
  | _ => none

/-- A basic string on one line. -/
def basic (s : List Char) : Option (List Char × List Char) :=
  match s with
  | [] => none
  | '"' :: rest => some ([], rest)
  | '\\' :: rest => do
    let (c, count) ← escape? rest
    let (text, rest) ← basic (rest.drop count)
    return (c :: text, rest)
  | c :: rest =>
    if isPlain c then (basic rest).map fun (text, rest) ↦ (c :: text, rest) else none
termination_by s.length

/-- A literal string on one line. -/
def literal : List Char → Option (List Char × List Char)
  | [] => none
  | c :: rest =>
    if c = '\'' then some ([], rest)
    else if isPlain c then (literal rest).map fun (text, rest) ↦ (c :: text, rest)
    else none

/-- A text without the line break at its start. -/
def dropLineBreak : List Char → List Char
  | '\n' :: rest => rest
  | '\r' :: '\n' :: rest => rest
  | s => s

/-- A text without the blanks and line breaks at its start. -/
def dropBlankLines : List Char → List Char
  | ' ' :: rest => dropBlankLines rest
  | '\t' :: rest => dropBlankLines rest
  | '\n' :: rest => dropBlankLines rest
  | '\r' :: '\n' :: rest => dropBlankLines rest
  | s => s

/-- What follows a backslash at the end of a line: the text from the next character that
is not blank on.  There is none if something other than blanks follows the backslash. -/
def afterLineEnd? (s : List Char) : Option (List Char) :=
  match s.dropWhile fun c ↦ c = ' ' || c = '\t' with
  | '\n' :: rest => some (dropBlankLines rest)
  | '\r' :: '\n' :: rest => some (dropBlankLines rest)
  | _ => none

/-- Closing quotes, at which a string on several lines ends, with up to two quotes before
them that belong to the string. -/
def closing? (quote : Char) : List Char → Option (List Char × List Char)
  | a :: b :: c :: rest =>
    if a = quote ∧ b = quote ∧ c = quote then
      match rest with
      | d :: e :: rest =>
        if d = quote ∧ e = quote then some ([quote, quote], rest)
        else if d = quote then some ([quote], e :: rest)
        else some ([], d :: e :: rest)
      | [d] => if d = quote then some ([quote], []) else some ([], [d])
      | [] => some ([], [])
    else none
  | _ => none

theorem length_dropBlankLines_le (s : List Char) : (dropBlankLines s).length ≤ s.length := by
  fun_induction dropBlankLines s with
  | case5 => exact Nat.le_refl _
  | _ => simp only [List.length_cons]; omega

theorem length_afterLineEnd_le {s rest : List Char} (h : afterLineEnd? s = some rest) :
    rest.length ≤ s.length := by
  have hle := (List.dropWhile_suffix (fun c ↦ c = ' ' || c = '\t') (l := s)).length_le
  unfold afterLineEnd? at h
  split at h
  · next r heq =>
    rw [← Option.some.inj h]
    have := length_dropBlankLines_le r
    simp only [heq, List.length_cons] at hle
    omega
  · next r heq =>
    rw [← Option.some.inj h]
    have := length_dropBlankLines_le r
    simp only [heq, List.length_cons] at hle
    omega
  · simp at h

/-- A basic string on several lines. -/
def basicLines (s : List Char) : Option (List Char × List Char) :=
  match closing? '"' s with
  | some found => some found
  | none =>
    match s with
    | [] => none
    | '\\' :: rest =>
      match h : afterLineEnd? rest with
      | some rest' =>
        have : rest'.length < rest.length + 1 := by
          have := length_afterLineEnd_le h
          omega
        basicLines rest'
      | none => do
        let (c, count) ← escape? rest
        let (text, rest) ← basicLines (rest.drop count)
        return (c :: text, rest)
    | '\r' :: '\n' :: rest =>
      (basicLines rest).map fun (text, rest) ↦ ('\r' :: '\n' :: text, rest)
    | c :: rest =>
      if isPlain c || c = '\n' then (basicLines rest).map fun (text, rest) ↦ (c :: text, rest)
      else none
termination_by s.length

/-- A literal string on several lines. -/
def literalLines (s : List Char) : Option (List Char × List Char) :=
  match closing? '\'' s with
  | some found => some found
  | none =>
    match s with
    | [] => none
    | '\r' :: '\n' :: rest =>
      (literalLines rest).map fun (text, rest) ↦ ('\r' :: '\n' :: text, rest)
    | c :: rest =>
      if isPlain c || c = '\n' then (literalLines rest).map fun (text, rest) ↦ (c :: text, rest)
      else none

/-- A string on one line, from its opening quote on. -/
def line? : List Char → Option (List Char × List Char)
  | '"' :: rest => basic rest
  | '\'' :: rest => literal rest
  | _ => none

/-- A string of any kind, from its opening quotes on. -/
def string? : List Char → Option (List Char × List Char)
  | '"' :: '"' :: '"' :: rest => basicLines (dropLineBreak rest)
  | '\'' :: '\'' :: '\'' :: rest => literalLines (dropLineBreak rest)
  | s => line? s

end Quoted

end XmlDiagnostics.Toml
