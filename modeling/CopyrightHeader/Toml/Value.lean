import CopyrightHeader.Text.Hexadecimal

/-! Values of a TOML document, and the rules by which its tables grow.

A table remembers how it came about, since that decides what may still be added to it: a header
may open a table once, a dotted key may add only to a table that dotted keys made, and a table
between braces is closed. On its way a dotted key may also pass through tables without a header of
their own and through the last element of an array of tables.
-/

set_option autoImplicit false

namespace CopyrightHeader.Toml

inductive FloatText where
  /-- `mantissa` times ten to the power `exponent`. -/
  | finite (mantissa : Nat) (exponent : Int)
  | infinite
  | notANumber
  deriving DecidableEq, Repr

/-- How a table came about. -/
inductive Origin where
  /-- It has a header of its own. -/
  | header
  /-- A longer header passes through it. -/
  | implied
  | dotted
  | inline
  deriving DecidableEq, Repr

inductive Value where
  | string (text : String)
  /-- The digits of a whole number, with its sign. They are read only when the number is asked for,
  and need not be digits before. -/
  | integer (base : Nat) (digits : List Char)
  | float (value : FloatText)
  | boolean (value : Bool)
  | dateTime (text : String)
  | array (items : List Value)
  /-- An array that headers extend, a table at a time. -/
  | tables (elements : List Value)
  | table (origin : Origin) (entries : List (String × Value))

/-- The entries of a table in the order in which they are written. -/
abbrev Table := List (String × Value)

/-- Half a unit beyond the greatest binary64 number; from here on rounding gives infinity. -/
def binary64Bound : Nat := Nat.pow 2 1024 - Nat.pow 2 970

/-- Whether rounding to binary64 gives a finite number where a finite one is written. -/
def FloatText.fits : FloatText → Bool
  | .infinite => true
  | .notANumber => true
  | .finite 0 _ => true
  | .finite mantissa (.ofNat exponent) =>
    exponent ≤ 400 && mantissa * Nat.pow 10 exponent < binary64Bound
  | .finite mantissa (.negSucc exponent) =>
    exponent > mantissa.log2 || mantissa < binary64Bound * Nat.pow 10 (exponent + 1)

def naturalOf? (base : Nat) : List Char → Option Nat
  | [] => none
  | digits =>
    digits.foldlM (fun value c =>
        match Text.hexDigit? c with
        | some digit => if digit < base then some (value * base + digit) else none
        | none => none)
      0

/-- The whole number that digits of a base denote, behind a sign or without one. -/
def integerOf? (base : Nat) : List Char → Option Int
  | '+' :: digits => (naturalOf? base digits).map Int.ofNat
  | '-' :: digits => (naturalOf? base digits).map fun value => -Int.ofNat value
  | digits => (naturalOf? base digits).map Int.ofNat

/-- Whether a whole number has a signed or an unsigned form of 128 bits. -/
def integerFits (value : Int) : Bool :=
  -Int.ofNat (Nat.pow 2 127) ≤ value && value < Int.ofNat (Nat.pow 2 128)

mutual

/-- Whether every number in a value can be read and fits its type: 128 bits or binary64. -/
def Value.isReadable : Value → Bool
  | .integer base digits => (integerOf? base digits).any integerFits
  | .float value => value.fits
  | .array items => areReadable items
  | .tables elements => areReadable elements
  | .table _ entries => entriesReadable entries
  | .string _ => true
  | .boolean _ => true
  | .dateTime _ => true

def areReadable : List Value → Bool
  | [] => true
  | value :: rest => value.isReadable && areReadable rest

def entriesReadable : List (String × Value) → Bool
  | [] => true
  | (_, value) :: rest => value.isReadable && entriesReadable rest

end

namespace Table

/-- Gives a key a value, in place of the one it has or at the end. -/
def set (key : String) (value : Value) : Table → Table
  | [] => [(key, value)]
  | (other, old) :: rest =>
    if other = key then (key, value) :: rest else (other, old) :: set key value rest

/-- Changes what a key holds; `none` if the change is not allowed. -/
def update (key : String) (change : Option Value → Option Value) (table : Table) : Option Table :=
  (change (table.lookup key)).map fun value => set key value table

/-- Changes the table that stands at a position: a table, or the last one of an array. -/
def changeTable (change : Table → Option Table) : Value → Option Value
  | .table .inline _ => none
  | .table origin inner => (change inner).map (.table origin)
  | .tables elements =>
    match elements.getLast? with
    | some (.table origin inner) =>
      (change inner).map fun inner => .tables (elements.dropLast ++ [.table origin inner])
    | _ => none
  | _ => none

/-- Whether a dotted key may go through a table to put its value `remaining` steps below. -/
def admits (origin : Origin) (remaining : Nat) : Bool :=
  match origin with
  | .dotted => true
  | .implied => 1 < remaining
  | .header => false
  | .inline => false

def add (value : Value) : List String → Table → Option Table
  | [], _ => none
  | [key], table => update key (fun | none => some value | some _ => none) table
  | key :: path, table =>
    update key
      (fun
        | none => (add value path []).map (.table .dotted)
        | some (.table origin inner) =>
          if admits origin path.length then (add value path inner).map (.table origin) else none
        | some (.tables elements) =>
          if 1 < path.length then changeTable (add value path) (.tables elements) else none
        | some _ => none)
      table

/-- Changes what stands under the path of a header; the tables on the way come about. -/
def under (change : Option Value → Option Value) : List String → Table → Option Table
  | [], _ => none
  | [key], table => update key change table
  | key :: path, table =>
    update key
      (fun
        | none => (under change path []).map (.table .implied)
        | some value => changeTable (under change path) value)
      table

/-- Opens the table of a header `[path]`. -/
def openTable (path : List String) (table : Table) : Option Table :=
  under
    (fun
      | none => some (.table .header [])
      | some (.table .implied inner) => some (.table .header inner)
      | some _ => none)
    path table

/-- Opens one more table of a header `[[path]]`. -/
def openElement (path : List String) (table : Table) : Option Table :=
  under
    (fun
      | none => some (.tables [.table .header []])
      | some (.tables elements) => some (.tables (elements ++ [.table .header []]))
      | some _ => none)
    path table

/-- Adds a value under a dotted key to the table of the header `header`. -/
def addUnder (header : List String) (key : List String) (value : Value) (table : Table) :
    Option Table :=
  match header with
  | [] => add value key table
  | _ :: _ => under (fun found => found.bind (changeTable (add value key))) header table

end Table

end CopyrightHeader.Toml
