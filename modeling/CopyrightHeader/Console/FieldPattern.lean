import CopyrightHeader.Regex.Reader
import CopyrightHeader.Regex.Support
import CopyrightHeader.Text.Decimal

/-! Patterns for the value of a field, as log filters may give them: numbers or regular expressions.

No event has a value that a pattern could be held against, so all that counts of a pattern is
whether it can be used.
-/

set_option autoImplicit false

namespace CopyrightHeader.FieldPattern

/-- Whether a text is a number, with a point or a power of ten or without, or none at all. -/
def isNumber (text : List Char) : Bool :=
  let whole := text.takeWhile Char.isDigit
  let rest := text.drop whole.length
  let fraction := if rest.head? = some '.' then rest.tail.takeWhile Char.isDigit else []
  let power := if rest.head? = some '.' then rest.tail.drop fraction.length else rest
  let lower := text.map Char.toLower
  lower = "inf".toList || lower = "infinity".toList || lower = "nan".toList ||
    (Text.isDecimal (whole ++ fraction) &&
      match power with
      | [] => true
      | mark :: digits =>
        (mark = 'e' || mark = 'E') &&
          Text.isDecimal
            (if digits.head? = some '+' || digits.head? = some '-' then digits.tail else digits))

/-- Whether a text can be used as a pattern. A number without a plus sign is also a regular
expression. -/
def isUsable (text : List Char) : Bool :=
  (text.head? = some '+' && isNumber text.tail) ||
    (Regex.ofText? text).any Regex.isSupported

end CopyrightHeader.FieldPattern
