import CopyrightHeader.Toml.Scalar

/-! Reading a TOML document (version 1.1).

Arrays and tables between braces may nest `nestingLimit` deep; inside them a line may end wherever
a blank may stand, keys apart. A byte order mark at the start is passed over.
-/

set_option autoImplicit false

namespace CopyrightHeader.Toml

inductive Error where
  /-- Line `line` is not TOML. -/
  | malformed (line : Nat)
  /-- Line `line` defines `key` although it must not. -/
  | redefined (line : Nat) (key : String)
  deriving DecidableEq, Repr

def Error.message : Error → String
  | .malformed line => s!"TOML parse error at line {line}"
  | .redefined line key => s!"TOML parse error at line {line}: duplicate key `{key}`"

def nestingLimit : Nat := 80

/-- The items of an array, from behind its opening bracket; at most `limit` of them. -/
def arrayItems (item : Reader Value) : (limit : Nat) → Reader (List Value)
  | 0, _ => none
  | limit + 1, text =>
    match skipFiller false text with
    | none => none
    | some (']' :: rest) => some ([], rest)
    | some text =>
      match item text with
      | none => none
      | some (value, rest) =>
        match skipFiller false rest with
        | some (',' :: rest) =>
          (arrayItems item limit rest).map fun (values, rest) => (value :: values, rest)
        | some (']' :: rest) => some ([value], rest)
        | _ => none

/-- A key, an equals sign and a value. What may stand on both sides of the equals sign is passed
over by `skip`. -/
def keyValue (skip : List Char → Option (List Char)) (item : Reader Value) :
    Reader (List String × Value) := fun text =>
  match dottedKey text with
  | none => none
  | some (key, rest) =>
    match skip rest with
    | some ('=' :: rest) =>
      match skip rest with
      | some rest => (item rest).map fun (value, rest) => ((key, value), rest)
      | none => none
    | _ => none

/-- The entries of a table, from behind its opening brace; at most `limit` of them. -/
def inlineEntries (item : Reader Value) : (limit : Nat) → Table → Reader Table
  | 0, _, _ => none
  | limit + 1, table, text =>
    match skipFiller false text with
    | none => none
    | some ('}' :: rest) => some (table, rest)
    | some text =>
      match keyValue (skipFiller false) item text with
      | none => none
      | some ((key, value), rest) =>
        match table.add value key, skipFiller false rest with
        | some table, some (',' :: rest) => inlineEntries item limit table rest
        | some table, some ('}' :: rest) => some (table, rest)
        | _, _ => none

/-- A value in which arrays and tables nest at most `depth` deep. -/
def value : (depth : Nat) → Reader Value
  | 0, text =>
    match string text with
    | some (text, rest) => some (.string text, rest)
    | none => scalar text
  | depth + 1, text =>
    match text with
    | '[' :: rest =>
      (arrayItems (value depth) text.length rest).map fun (values, rest) => (.array values, rest)
    | '{' :: rest =>
      (inlineEntries (value depth) text.length [] rest).map fun (table, rest) =>
        (.table .inline table, rest)
    | _ =>
      match string text with
      | some (text, rest) => some (.string text, rest)
      | none => scalar text

/-- The path of a header, from behind its opening bracket. -/
def headerPath : Reader (List String) := fun text =>
  match dottedKey (skipBlanks text) with
  | some (path, ']' :: rest) => some (path, rest)
  | _ => none

inductive Expression where
  | header (path : List String)
  | elementHeader (path : List String)
  | entry (key : List String) (value : Value)

def Expression.path : Expression → List String
  | .header path => path
  | .elementHeader path => path
  | .entry key _ => key

def expression : Reader Expression := fun text =>
  match text with
  | '[' :: '[' :: rest =>
    match headerPath rest with
    | some (path, ']' :: rest) => some (.elementHeader path, rest)
    | _ => none
  | '[' :: rest => (headerPath rest).map fun (path, rest) => (.header path, rest)
  | _ =>
    (keyValue (fun text => some (skipBlanks text)) (value nestingLimit) text).map
      fun ((key, value), rest) => (.entry key value, rest)

/-- The document with one more expression, below the header that stands last. -/
def Table.define (header : List String) (table : Table) : Expression → Option Table
  | .header path => table.openTable path
  | .elementHeader path => table.openElement path
  | .entry key value => table.addUnder header key value

/-- The header below which the next expression stands. -/
def Expression.headerAfter (header : List String) : Expression → List String
  | .header path => path
  | .elementHeader path => path
  | .entry _ _ => header

/-- The line at which `rest`, the end of `text`, begins. -/
def lineOf (text rest : List Char) : Nat :=
  text.count '\n' - rest.count '\n' + 1

/-- The rest of a document, at most `limit` expressions. -/
def expressions (document : List Char) : (limit : Nat) → (header : List String) → Table →
    List Char → Except Error Table
  | 0, _, _, text => .error (.malformed (lineOf document text))
  | limit + 1, header, table, text =>
    match skipFiller false text with
    | none => .error (.malformed (lineOf document text))
    | some [] => .ok table
    | some text =>
      match expression text with
      | none => .error (.malformed (lineOf document text))
      | some (item, rest) =>
        if atLineEnd (skipBlanks rest) then
          match table.define header item with
          | none => .error (.redefined (lineOf document text) (".".intercalate item.path))
          | some table => expressions document limit (item.headerAfter header) table rest
        else .error (.malformed (lineOf document text))

def parse (document : String) : Except Error Table :=
  let text :=
    match document.toList with
    | '\uFEFF' :: text => text
    | text => text
  expressions text (text.length + 1) [] [] text

end CopyrightHeader.Toml
