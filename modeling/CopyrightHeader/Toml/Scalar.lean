import CopyrightHeader.Text.Decimal
import CopyrightHeader.Toml.Text
import CopyrightHeader.Toml.Value

/-! Numbers, booleans, dates and times of a TOML document.

They are written without quotes, so such a value is first taken as a word and then read as a whole.
Of a whole number with underscores only what stands next to them is looked at here; whether it is a
number shows when it is asked for.
-/

set_option autoImplicit false

namespace CopyrightHeader.Toml

def endsWord (c : Char) : Bool :=
  c = ' ' || c = '\t' || c = '\r' || c = '\n' || c = '#' || c = ',' || c = '=' ||
    c = '[' || c = ']' || c = '\x7b' || c = '\x7d'

/-- The parts between underscores; one part more than there are underscores. -/
def splitUnderscores : List Char → List (List Char)
  | [] => [[]]
  | c :: rest =>
    if c = '_' then [] :: splitUnderscores rest
    else
      match splitUnderscores rest with
      | [] => [[c]]
      | part :: parts => (c :: part) :: parts

/-- Whether every underscore of a number stands between two digits. -/
def underscoresFit (isDigit : Char → Bool) (word : List Char) : Bool :=
  let parts := splitUnderscores word
  parts.tail.all (fun part => part.head?.any isDigit) &&
    parts.dropLast.all fun part => part.getLast?.any isDigit

def isHexDigit (c : Char) : Bool := (Text.hexDigit? c).isSome

def withoutUnderscores (word : List Char) : List Char := word.filter (· ≠ '_')

/-- A whole number in a base of its own; there may be no digits at all. -/
def radixInteger (base : Nat) (digits : List Char) : Option Value :=
  if digits.all (fun c => c = '_' || (Text.hexDigit? c).any (· < base)) &&
      underscoresFit isHexDigit digits then
    some (.integer base (withoutUnderscores digits))
  else none

/-- A power of ten behind its letter, at the end of a number. -/
def exponentPart (text : List Char) : Option Int :=
  let digits := fun (text : List Char) =>
    if Text.isDecimal text then some (Text.decimalValue text) else none
  match text with
  | '+' :: rest => (digits rest).map Int.ofNat
  | '-' :: rest => (digits rest).map fun value => -Int.ofNat value
  | _ => (digits text).map Int.ofNat

/-- What stands behind the whole part and the fraction of a number. -/
def scaled (mantissa : Nat) (places : Nat) : List Char → Option FloatText
  | [] => some (.finite mantissa (-places))
  | mark :: rest =>
    if mark = 'e' || mark = 'E' then
      (exponentPart rest).map fun exponent => .finite mantissa (exponent - places)
    else none

/-- A number with a fraction, an exponent or both, without sign and underscores. -/
def floatText (text : List Char) : Option FloatText :=
  let whole := text.takeWhile Char.isDigit
  if whole = [] then none
  else
    match text.dropWhile Char.isDigit with
    | '.' :: rest =>
      let fraction := rest.takeWhile Char.isDigit
      if fraction = [] then none
      else
        scaled (Text.decimalValue (whole ++ fraction)) fraction.length (rest.dropWhile Char.isDigit)
    | rest => scaled (Text.decimalValue whole) 0 rest

/-- Whether zero stands in front of other digits. -/
def hasLeadingZero (unsigned : List Char) : Bool :=
  unsigned.head? = some '0' &&
    1 < (unsigned.takeWhile fun c => c.isDigit || c = '_').countP Char.isDigit

def twoDigits : Reader Nat
  | a :: b :: rest =>
    if a.isDigit && b.isDigit then some (Text.decimalValue [a, b], rest) else none
  | _ => none

def daysInMonth (year month : Nat) : Nat :=
  if month = 2 then
    if year % 4 = 0 && (year % 100 ≠ 0 || year % 400 = 0) then 29 else 28
  else if month = 4 || month = 6 || month = 9 || month = 11 then 30
  else 31

def afterDate (text : List Char) : Option (List Char) := do
  let (century, rest) ← twoDigits text
  let (yearOfCentury, rest) ← twoDigits rest
  let '-' :: rest := rest | none
  let (month, rest) ← twoDigits rest
  let '-' :: rest := rest | none
  let (day, rest) ← twoDigits rest
  let year := century * 100 + yearOfCentury
  if 1 ≤ month && month ≤ 12 && 1 ≤ day && day ≤ daysInMonth year month then some rest
  else none

/-- What stands behind the seconds, given what stands behind the minutes. -/
def afterSeconds (text : List Char) : Option (List Char) :=
  match text with
  | ':' :: rest => do
    let (second, rest) ← twoDigits rest
    if second ≤ 60 then
      match rest with
      | '.' :: c :: rest => if c.isDigit then some (rest.dropWhile Char.isDigit) else none
      | '.' :: [] => none
      | _ => some rest
    else none
  | _ => some text

/-- What stands behind a time of day; its seconds may be missing. -/
def afterTime (text : List Char) : Option (List Char) := do
  let (hour, rest) ← twoDigits text
  let ':' :: rest := rest | none
  let (minute, rest) ← twoDigits rest
  if hour ≤ 23 && minute ≤ 59 then afterSeconds rest else none

/-- Whether a text is a distance from universal time. -/
def isOffset : List Char → Bool
  | ['Z'] => true
  | ['z'] => true
  | sign :: rest =>
    (sign = '+' || sign = '-') &&
      match twoDigits rest with
      | some (hours, ':' :: rest) =>
        match twoDigits rest with
        | some (minutes, []) => hours ≤ 23 && minutes ≤ 59
        | _ => false
      | _ => false
  | [] => false

/-- Whether a text is a date, a time, or both, with an offset or without. -/
def isDateTime (text : List Char) : Bool :=
  match afterDate text with
  | some [] => true
  | some (mark :: rest) =>
    (mark = 'T' || mark = 't' || mark = ' ') &&
      match afterTime rest with
      | some [] => true
      | some rest => isOffset rest
      | none => false
  | none => afterTime text = some []

def withoutSign : List Char → List Char
  | '+' :: rest => rest
  | '-' :: rest => rest
  | word => word

/-- A number, or a date or time, in decimal digits. -/
def decimal (word unsigned : List Char) : Option Value :=
  match unsigned.dropWhile Char.isDigit with
  | [] =>
    if hasLeadingZero unsigned || unsigned = [] then none else some (.integer 10 word)
  | mark :: rest =>
    if mark = '-' || mark = ':' then
      if isDateTime word then some (.dateTime (String.ofList word)) else none
    else if (mark :: rest).any fun c => c = '.' || c = 'e' || c = 'E' then
      if hasLeadingZero unsigned || !underscoresFit Char.isDigit word then none
      else (floatText (withoutUnderscores unsigned)).map .float
    else if mark = '_' && unsigned.head? ≠ some '0' && underscoresFit isHexDigit word then
      some (.integer 10 (withoutUnderscores word))
    else none

def wordValue (word : List Char) : Option Value :=
  if word = "true".toList then some (.boolean true)
  else if word = "false".toList then some (.boolean false)
  else if withoutSign word = "inf".toList then some (.float .infinite)
  else if withoutSign word = "nan".toList then some (.float .notANumber)
  else
    match word with
    | '0' :: 'x' :: digits => radixInteger 16 digits
    | '0' :: 'o' :: digits => radixInteger 8 digits
    | '0' :: 'b' :: digits => radixInteger 2 digits
    | _ => decimal word (withoutSign word)

/-- A word, or a date and a time with a blank between them. -/
def scalar : Reader Value := fun text =>
  let word := text.takeWhile (!endsWord ·)
  match text.dropWhile (!endsWord ·) with
  | ' ' :: c :: rest =>
    if afterDate word = some [] && c.isDigit then
      let time := (c :: rest).takeWhile (!endsWord ·)
      (wordValue (word ++ ' ' :: time)).map (·, (c :: rest).dropWhile (!endsWord ·))
    else (wordValue word).map (·, ' ' :: c :: rest)
  | rest => (wordValue word).map (·, rest)

end CopyrightHeader.Toml
