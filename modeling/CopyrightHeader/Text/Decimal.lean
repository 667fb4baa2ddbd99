/-! Decimal digits. -/

set_option autoImplicit false

namespace CopyrightHeader.Text

def decimalValue (digits : List Char) : Nat :=
  digits.foldl (fun value c => value * 10 + (c.toNat - '0'.toNat)) 0

/-- Whether a text is one decimal digit or more. -/
def isDecimal (text : List Char) : Bool := text ≠ [] && text.all Char.isDigit

end CopyrightHeader.Text
