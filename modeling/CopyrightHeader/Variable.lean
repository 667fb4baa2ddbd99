/-! Variables of the environment, read by a program that wants text. -/

set_option autoImplicit false

namespace CopyrightHeader

/-- What reading a variable gives. -/
inductive Variable where
  | unset
  /-- There is a value, but it is not valid UTF-8. -/
  | undecodable
  | text (value : String)
  deriving DecidableEq, Repr

namespace Variable

/-- Reads a variable that holds the bytes, or none. -/
def ofBytes : Option ByteArray → Variable
  | none => .unset
  | some bytes =>
    match String.fromUTF8? bytes with
    | some value => .text value
    | none => .undecodable

/-- The text that a variable holds. A value that is not text is no more than none. -/
def text? : Variable → Option String
  | .text value => some value
  | .unset | .undecodable => none

@[simp] theorem text?_eq_some {reading : Variable} {value : String} :
    reading.text? = some value ↔ reading = .text value := by
  cases reading <;> simp [text?]

end Variable

end CopyrightHeader
