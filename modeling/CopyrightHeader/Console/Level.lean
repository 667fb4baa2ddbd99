import CopyrightHeader.Text.Decimal

/-! How much of the diagnostics is let through. -/

set_option autoImplicit false

namespace CopyrightHeader

/-- How much is let through, from nothing to everything. -/
inductive Level where
  | off
  | error
  | warn
  | info
  | debug
  | trace
  deriving DecidableEq, Repr

namespace Level

def name : Level → String
  | .off => "off"
  | .error => "error"
  | .warn => "warn"
  | .info => "info"
  | .debug => "debug"
  | .trace => "trace"

def all : List Level := [.off, .error, .warn, .info, .debug, .trace]

def letsDebugThrough : Level → Bool
  | .debug => true
  | .trace => true
  | _ => false

/-- The level of a number, which may have a plus sign: `off` is 0, and so on. -/
def ofNumber? (text : List Char) : Option Level :=
  let digits := if text.head? = some '+' then text.tail else text
  if Text.isDecimal digits then all[Text.decimalValue digits]? else none

/-- The level that a name, in either case, or a number stands for. -/
def ofText? (text : List Char) : Option Level :=
  if text = [] then some .error
  else
    match ofNumber? text with
    | some level => some level
    | none => all.find? fun level => text.map Char.toLower = level.name.toList

def ofFlags (quiet : Bool) (verbose : Nat) : Level :=
  if quiet then .error
  else
    match verbose with
    | 0 => .warn
    | 1 => .info
    | 2 => .debug
    | _ => .trace

end Level

end CopyrightHeader
