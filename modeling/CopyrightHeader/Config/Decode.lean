import CopyrightHeader.Config.Basic

/-! The configuration that a TOML document denotes.

No key but the four known ones may stand at the top. A style is a table or an array; what else it
holds is passed over, but has to be readable.
-/

set_option autoImplicit false

namespace CopyrightHeader.Config

open Toml (Value Table)

def decodeString (key : String) : Value → Except DecodeFault String
  | .string text => .ok text
  | _ => .error (.wrongType key "a string")

def decodeStrings (key : String) : Value → Except DecodeFault (List String)
  | .array items => items.mapM (decodeString key)
  | _ => .error (.wrongType key "an array")

def isFramingField (field : String) : Bool :=
  field = "begin" || field = "prefix" || field = "end"

def decodeField (key field : String) (table : Table) : Except DecodeFault String :=
  match table.lookup field with
  | some value => decodeString key value
  | none => .error (.missingField key field)

def decodeFraming (key : String) : Value → Except DecodeFault Framing
  | .table _ entries => do
    if Toml.entriesReadable (entries.filter fun entry => !isFramingField entry.1) then
      let opening ← decodeField key "begin" entries
      let lead ← decodeField key "prefix" entries
      let closing ← decodeField key "end" entries
      .ok ⟨opening, lead, closing⟩
    else .error (.outOfRange key)
  | .array (opening :: lead :: closing :: _) => do
    let opening ← decodeString key opening
    let lead ← decodeString key lead
    let closing ← decodeString key closing
    .ok ⟨opening, lead, closing⟩
  | _ => .error (.wrongType key "a comment style")

def decodeFramings (key : String) : Value → Except DecodeFault (SortedMap Framing)
  | .table _ entries => do
    let framings ← entries.mapM fun (name, value) => do
      let framing ← decodeFraming name value
      .ok (name, framing)
    .ok (.ofList framings)
  | _ => .error (.wrongType key "a table")

def decodeEntry (config : Config) (entry : String × Value) : Except DecodeFault Config :=
  match entry with
  | ("notice", value) => do
    let lines ← decodeStrings "notice" value
    .ok { config with noticeLines := some lines }
  | ("exclude", value) => do
    let entries ← decodeStrings "exclude" value
    .ok { config with exclude := some entries }
  | ("comment-styles", value) => do
    let framings ← decodeFramings "comment-styles" value
    .ok { config with extensions := framings }
  | ("filenames", value) => do
    let framings ← decodeFramings "filenames" value
    .ok { config with fileNames := framings }
  | (key, _) => .error (.unknownKey key)

def empty : Config := ⟨none, none, .empty, .empty⟩

/-- The configuration that a text denotes, faults of its own not looked for. -/
def parse (text : String) : Except DecodeFault Config :=
  match Toml.parse text with
  | .error error => .error (.document error)
  | .ok table => table.foldlM decodeEntry empty

end CopyrightHeader.Config
