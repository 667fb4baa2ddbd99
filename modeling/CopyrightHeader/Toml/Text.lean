import CopyrightHeader.Text.Hexadecimal

/-! The texts of a TOML document: blanks, comments, strings and keys.

A reader takes the characters that are left and returns what it read with those behind it; `none`
if they do not begin with what it reads.
-/

set_option autoImplicit false

namespace CopyrightHeader.Toml

abbrev Reader (α : Type) := List Char → Option (α × List Char)

def isBlank (c : Char) : Bool := c = ' ' || c = '\t'

def skipBlanks (text : List Char) : List Char := text.dropWhile isBlank

/-- Characters that stand for themselves in a comment or a string; a control character other than
a tab does not. -/
def isPlain (c : Char) : Bool := c = '\t' || (' ' ≤ c && c ≤ '~') || '\x80' ≤ c

def skipFiller (inComment : Bool) : List Char → Option (List Char)
  | [] => some []
  | '\n' :: rest => skipFiller false rest
  | '\r' :: '\n' :: rest => skipFiller false rest
  | c :: rest =>
    if inComment then
      if isPlain c then skipFiller true rest else none
    else if isBlank c then skipFiller false rest
    else if c = '#' then skipFiller true rest
    else some (c :: rest)

/-- Whether a line may end here: at a line end, a comment or the end of the document. -/
def atLineEnd : List Char → Bool
  | [] => true
  | '\n' :: _ => true
  | '\r' :: '\n' :: _ => true
  | '#' :: _ => true
  | _ => false

/-- The character that an escape stands for, and how many characters the escape takes behind the
backslash. -/
def escape : List Char → Option (Char × Nat)
  | 'b' :: _ => some ('\x08', 1)
  | 't' :: _ => some ('\t', 1)
  | 'n' :: _ => some ('\n', 1)
  | 'f' :: _ => some ('\x0c', 1)
  | 'r' :: _ => some ('\r', 1)
  | 'e' :: _ => some ('\x1b', 1)
  | '"' :: _ => some ('"', 1)
  | '\\' :: _ => some ('\\', 1)
  | 'x' :: rest => (Text.codePoint 2 rest).map fun c => (c, 3)
  | 'u' :: rest => (Text.codePoint 4 rest).map fun c => (c, 5)
  | 'U' :: rest => (Text.codePoint 8 rest).map fun c => (c, 9)
  | _ => none

/-- Puts a character in front of what was read. -/
def prepend (c : Char) (read : Option (List Char × List Char)) : Option (List Char × List Char) :=
  read.map fun (text, rest) => (c :: text, rest)

/-- A string between double quotes, from behind the first; `skip` characters of an escape are
still to be passed over. -/
def basicString : (skip : Nat) → Reader (List Char)
  | _, [] => none
  | skip + 1, _ :: rest => basicString skip rest
  | 0, c :: rest =>
    if c = '"' then some ([], rest)
    else if c = '\\' then
      match escape rest with
      | some (char, length) => prepend char (basicString length rest)
      | none => none
    else if isPlain c then prepend c (basicString 0 rest)
    else none

/-- A string between single quotes, from behind the first. -/
def literalString : Reader (List Char)
  | [] => none
  | c :: rest =>
    if c = '\'' then some ([], rest)
    else if isPlain c then prepend c (literalString rest)
    else none

/-- The end of a string over several lines, at a run of its quotes. Three quotes end it; up to two
more in front of them belong to the string. -/
def closeQuotes (quote : Char) (text : List Char) : Option (List Char × List Char) :=
  let run := (text.takeWhile (· = quote)).length
  if 3 ≤ run then some (List.replicate (min (run - 3) 2) quote, text.drop (min run 5)) else none

/-- Whether a backslash in front of `text` joins its line to the next. -/
def joinsLines (text : List Char) : Bool :=
  match skipBlanks text with
  | '\n' :: _ => true
  | '\r' :: '\n' :: _ => true
  | _ => false

/-- A string between triple double quotes, from behind the first three. While `joining`, blanks and
line ends are passed over. -/
def multilineString : (skip : Nat) → (joining : Bool) → Reader (List Char)
  | _, _, [] => none
  | skip + 1, joining, _ :: rest => multilineString skip joining rest
  | 0, joining, c :: rest =>
    if joining && (isBlank c || c = '\n' || (c = '\r' && rest.head? = some '\n')) then
      multilineString 0 true rest
    else if c = '"' then
      match closeQuotes '"' (c :: rest) with
      | some closed => some closed
      | none => prepend c (multilineString 0 false rest)
    else if c = '\\' then
      if joinsLines rest then multilineString 0 true rest
      else
        match escape rest with
        | some (char, length) => prepend char (multilineString length false rest)
        | none => none
    else if isPlain c || c = '\n' || (c = '\r' && rest.head? = some '\n') then
      prepend c (multilineString 0 false rest)
    else none

/-- A string between triple single quotes, from behind the first three. -/
def multilineLiteral : Reader (List Char)
  | [] => none
  | c :: rest =>
    if c = '\'' then
      match closeQuotes '\'' (c :: rest) with
      | some closed => some closed
      | none => prepend c (multilineLiteral rest)
    else if isPlain c || c = '\n' || (c = '\r' && rest.head? = some '\n') then
      prepend c (multilineLiteral rest)
    else none

/-- A line end right behind the opening quotes is no part of the string. -/
def dropLineEnd : List Char → List Char
  | '\n' :: rest => rest
  | '\r' :: '\n' :: rest => rest
  | text => text

def string : Reader String := fun text =>
  let read :=
    match text with
    | '"' :: '"' :: '"' :: rest => multilineString 0 false (dropLineEnd rest)
    | '"' :: rest => basicString 0 rest
    | '\'' :: '\'' :: '\'' :: rest => multilineLiteral (dropLineEnd rest)
    | '\'' :: rest => literalString rest
    | _ => none
  read.map fun (chars, rest) => (String.ofList chars, rest)

def isBareKeyChar (c : Char) : Bool := c.isAlphanum || c = '-' || c = '_'

/-- One part of a key: bare, or a string on one line. -/
def keyPart : Reader String := fun text =>
  match text with
  | '"' :: rest => (basicString 0 rest).map fun (chars, rest) => (String.ofList chars, rest)
  | '\'' :: rest => (literalString rest).map fun (chars, rest) => (String.ofList chars, rest)
  | _ =>
    match text.takeWhile isBareKeyChar with
    | [] => none
    | chars => some (String.ofList chars, text.dropWhile isBareKeyChar)

/-- A key of at most `limit` parts with the blanks behind it. -/
def keyParts : (limit : Nat) → Reader (List String)
  | 0, _ => none
  | limit + 1, text =>
    match keyPart text with
    | none => none
    | some (part, rest) =>
      match skipBlanks rest with
      | '.' :: rest =>
        (keyParts limit (skipBlanks rest)).map fun (parts, rest) => (part :: parts, rest)
      | rest => some ([part], rest)

def dottedKey : Reader (List String) := fun text => keyParts text.length text

end CopyrightHeader.Toml
