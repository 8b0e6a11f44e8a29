import XmlDiagnostics.Decimal.Double
import XmlDiagnostics.Text.Fields
import XmlDiagnostics.Text.Numeral
import XmlDiagnostics.Toml.Value

/-!
# Words of a TOML document

Numbers, truth values, dates and times stand in a document without quotes.  A word goes on
until a line break, a comment, a mark of the syntax, or blanks after which no more of it
stands; `Scalar.ofWord?` says which value a word stands for.

What a word is taken for is settled before it is read.  A word that looks like a whole
number is one, even if it then turns out to have no value: so the document can be read, and
only the use of that number fails.
-/

namespace XmlDiagnostics.Toml.Scalar

/-- Whether a character is a space or a tab. -/
def isBlank (c : Char) : Bool :=
  c = ' ' || c = '\t'

/-- Whether a character may stand in a word beside another: all but blanks, line breaks, the
beginning of a comment, and the marks of the syntax. -/
def isWordChar (c : Char) : Bool :=
  !isBlank c && c ∉ ['\n', '\r', '#', '=', ',', '[', ']', '{', '}']

/-- A row of digits.  An underscore may stand between two digits and is left out. -/
def digitRow? (isDigit : Char → Bool) : List Char → Option (List Char)
  | [] => none
  | [d] => if isDigit d then some [d] else none
  | d :: '_' :: rest => if isDigit d then (digitRow? isDigit rest).map (d :: ·) else none
  | d :: rest => if isDigit d then (digitRow? isDigit rest).map (d :: ·) else none

/-- A decimal number without needless zeros in front. -/
def decimalRow? (s : List Char) : Option (List Char) :=
  match digitRow? Char.isDigit s with
  | some ('0' :: _ :: _) => none
  | row => row

/-- The sign in front of a word, as "is negative", and the word after it. -/
def splitSign : List Char → Bool × List Char
  | '-' :: rest => (true, rest)
  | '+' :: rest => (false, rest)
  | s => (false, s)

/-- The value of a whole number, unless it is beyond 128 bits. -/
def ofInteger (n : Int) : Value :=
  if Word.fitsSigned 128 n || Word.fitsUnsigned 128 n then .integer n else .unreadable

/-- The value of a digit in a base of at most sixteen. -/
def digitIn? (base : Nat) (c : Char) : Option Nat :=
  (Text.hexValue? c).filter (· < base)

/-- A whole number in another base, after the letter of the base.  The letter may stand
alone, without a value. -/
def inBase? (base : Nat) (s : List Char) : Option Value :=
  if s = [] then some .unreadable
  else (digitRow? (fun c ↦ (digitIn? base c).isSome) s).map fun row ↦
    ofInteger ((row.filterMap (digitIn? base)).foldl (fun n v ↦ base * n + v) 0 : Nat)

/-- Whether a character is a digit of a base of at most sixteen. -/
def isAnyDigit (c : Char) : Bool :=
  (Text.hexValue? c).isSome

/-- Whether the underscores of a text stand between digits of some base: each part begins
with a digit, and each part but the last ends with one. -/
def isSpaced (s : List Char) : Bool :=
  let parts := Text.fields '_' s
  parts.all (·.head?.any isAnyDigit) && parts.dropLast.all (·.getLast?.any isAnyDigit)

/-- Whether a text without a sign is taken for a whole number in decimal digits: digits
without a needless zero in front, and then nothing or an underscore with more after it.
Of what follows that first underscore only the characters beside underscores count, and
that there is no space and no sign of a fraction or an exponent. -/
def isDecimal (s : List Char) : Bool :=
  match s with
  | '0' :: rest => rest = []
  | _ =>
    s.takeWhile Char.isDigit ≠ [] && (s.dropWhile Char.isDigit).head?.all (· = '_') &&
      s.all (fun c ↦ c ≠ ' ' && c ≠ '.' && c ≠ 'e' && c ≠ 'E') && isSpaced s

/-- A whole number in decimal digits. -/
def decimal? (word : List Char) : Option Value :=
  let (negative, rest) := splitSign word
  if isDecimal rest then
    match digitRow? Char.isDigit rest with
    | some row =>
      let n : Int := Text.valueOfDigits row
      some (ofInteger (if negative then -n else n))
    | none => some .unreadable
  else none

/-- A whole number. -/
def integer? : List Char → Option Value
  | '0' :: 'x' :: rest => inBase? 16 rest
  | '0' :: 'o' :: rest => inBase? 8 rest
  | '0' :: 'b' :: rest => inBase? 2 rest
  | word => decimal? word

/-- The exponent of a number, after the letter for it. -/
def exponent? (s : List Char) : Option Int := do
  let (negative, rest) := splitSign s
  let row ← digitRow? Char.isDigit rest
  let n : Int := Text.valueOfDigits row
  return if negative then -n else n

/-- The fraction of a number with its point, or nothing at all. -/
def fraction? : List Char → Option (List Char)
  | [] => some []
  | '.' :: rest => digitRow? Char.isDigit rest
  | _ => none

/-- A number with a fraction, an exponent, or both. -/
def fractional? (word : List Char) : Option Value := do
  let (negative, rest) := splitSign word
  let isMark := fun c ↦ c = 'e' || c = 'E'
  let mantissa := rest.takeWhile fun c ↦ !isMark c
  let whole ← decimalRow? (mantissa.takeWhile (· ≠ '.'))
  let places ← fraction? (mantissa.dropWhile (· ≠ '.'))
  let exponent ← match rest.dropWhile fun c ↦ !isMark c with
    | [] => if places = [] then none else some 0
    | _ :: rest => exponent? rest
  let number :=
    Decimal.nearest? negative (Text.valueOfDigits (whole ++ places)) (exponent - places.length)
  return number.elim .unreadable .float

/-- An infinity or a number that is not one, by its name. -/
def special? (word : List Char) : Option Value :=
  let (negative, rest) := splitSign word
  if rest = ['i', 'n', 'f'] then some (.float (Decimal.signed negative Decimal.infinityBits))
  else if rest = ['n', 'a', 'n'] then some (.float (Decimal.signed negative Decimal.nanBits))
  else none

/-- The number that a row of digits of a given length stands for. -/
def fixed? (count : Nat) (s : List Char) : Option Nat :=
  if s.length = count ∧ s.all Char.isDigit then some (Text.valueOfDigits s) else none

/-- The number of days of a month. -/
def daysIn (year month : Nat) : Nat :=
  if month = 2 then
    if year % 4 = 0 ∧ (year % 100 ≠ 0 ∨ year % 400 = 0) then 29 else 28
  else if month = 4 ∨ month = 6 ∨ month = 9 ∨ month = 11 then 30
  else 31

/-- Whether a text is a day of the calendar, such as `1979-05-27`. -/
def isDate : List Char → Bool
  | [y₁, y₂, y₃, y₄, '-', m₁, m₂, '-', d₁, d₂] =>
    match fixed? 4 [y₁, y₂, y₃, y₄], fixed? 2 [m₁, m₂], fixed? 2 [d₁, d₂] with
    | some year, some month, some day =>
      1 ≤ month && month ≤ 12 && 1 ≤ day && day ≤ daysIn year month
    | _, _, _ => false
  | _ => false

/-- Whether a text is two digits of which the number is at most `most`. -/
def isPart (most : Nat) (a b : Char) : Bool :=
  (fixed? 2 [a, b]).any (· ≤ most)

/-- Whether a text is a difference to universal time, or nothing at all. -/
def isZone : List Char → Bool
  | [] => true
  | ['Z'] => true
  | ['z'] => true
  | [sign, h₁, h₂, ':', m₁, m₂] =>
    (sign = '+' || sign = '-') && isPart 23 h₁ h₂ && isPart 59 m₁ m₂
  | _ => false

/-- Whether a time may end with a text: with nothing, or with a zone if `zoned` allows
it. -/
def isTimeEnd (zoned : Bool) (rest : List Char) : Bool :=
  if zoned then isZone rest else rest = []

/-- Whether a text may follow the minutes of a time: seconds, which may be 60 for a leap
second, a fraction of a second, and the end. -/
def isAfterMinutes (zoned : Bool) : List Char → Bool
  | ':' :: s₁ :: s₂ :: '.' :: rest =>
    isPart 60 s₁ s₂ && rest.takeWhile Char.isDigit ≠ [] &&
      isTimeEnd zoned (rest.dropWhile Char.isDigit)
  | ':' :: s₁ :: s₂ :: rest => isPart 60 s₁ s₂ && isTimeEnd zoned rest
  | rest => isTimeEnd zoned rest

/-- Whether a text is a time of day, such as `07:32:00`. -/
def isTime (zoned : Bool) : List Char → Bool
  | h₁ :: h₂ :: ':' :: m₁ :: m₂ :: rest =>
    isPart 23 h₁ h₂ && isPart 59 m₁ m₂ && isAfterMinutes zoned rest
  | _ => false

/-- Whether a text is a date, a time, or both. -/
def isDateTime (s : List Char) : Bool :=
  isDate s || isTime false s ||
    match s.drop 10 with
    | separator :: rest =>
      (separator = 'T' || separator = 't' || separator = ' ') && isDate (s.take 10) &&
        isTime true rest
    | [] => false

/-- The value that a word stands for. -/
def ofWord? (word : List Char) : Option Value :=
  if word = ['t', 'r', 'u', 'e'] then some (.boolean true)
  else if word = ['f', 'a', 'l', 's', 'e'] then some (.boolean false)
  else if isDateTime word then some (.dateTime (String.ofList word))
  else ((special? word).or (integer? word)).or (fractional? word)

/-- The part of a word that a text begins with, and what follows it, where a blank may stand
in front of the text.  Blanks are a part of the word if it goes on after them, and then it
does not go on with a quote. -/
def wordFrom (afterBlank : Bool) : List Char → List Char × List Char
  | [] => ([], [])
  | c :: rest =>
    if isBlank c then
      match wordFrom true rest with
      | ([], _) => ([], c :: rest)
      | (more, rest) => (c :: more, rest)
    else if isWordChar c && !(afterBlank && (c = '"' || c = '\'')) then
      let (more, rest) := wordFrom false rest
      (c :: more, rest)
    else ([], c :: rest)

/-- The word at the beginning of a text, with what follows it.  It may hold blanks, such as
the space between a date and a time. -/
def word (s : List Char) : List Char × List Char :=
  wordFrom false s

end XmlDiagnostics.Toml.Scalar
