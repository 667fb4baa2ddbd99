/-! Places in a text, counted in the bytes of its UTF-8 form. -/

set_option autoImplicit false

namespace CopyrightHeader.Text

def byteSize : List Char → Nat
  | [] => 0
  | c :: rest => c.utf8Size + byteSize rest

/-- The characters that lie within the first `size` bytes. -/
def takeBytes : (size : Nat) → List Char → List Char
  | _, [] => []
  | size, c :: rest => if c.utf8Size ≤ size then c :: takeBytes (size - c.utf8Size) rest else []

/-- The characters that start behind the first `size` bytes. -/
def dropBytes : (size : Nat) → List Char → List Char
  | _, [] => []
  | size, c :: rest => if size = 0 then c :: rest else dropBytes (size - c.utf8Size) rest

end CopyrightHeader.Text
