/-! Hexadecimal digits and the characters that they name. -/

set_option autoImplicit false

namespace CopyrightHeader.Text

def hexDigit? (c : Char) : Option Nat :=
  if '0' ≤ c && c ≤ '9' then some (c.toNat - '0'.toNat)
  else if 'a' ≤ c && c ≤ 'f' then some (c.toNat - 'a'.toNat + 10)
  else if 'A' ≤ c && c ≤ 'F' then some (c.toNat - 'A'.toNat + 10)
  else none

/-- The character whose code is written in the first `count` hexadecimal digits. -/
def codePoint (count : Nat) (text : List Char) : Option Char :=
  if (text.take count).length = count then
    match (text.take count).mapM hexDigit? with
    | some digits =>
      let code := digits.foldl (fun value digit => value * 16 + digit) 0
      if code.isValidChar then some (Char.ofNat code) else none
    | none => none
  else none

end CopyrightHeader.Text
