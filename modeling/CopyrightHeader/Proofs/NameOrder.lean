import CopyrightHeader.FileSystem.Directory

/-! Names by their characters and by their bytes.

A character with a greater number has a UTF-8 code that is greater at the first byte in which the
two differ, and no code is the start of another. So names, and lists of names, have the same order
by their characters as by their bytes.
-/

set_option autoImplicit false

namespace CopyrightHeader

theorem toNat_val_lt (c : Char) : c.val.toNat < 0x110000 := by
  rcases c.valid with low | ⟨-, high⟩
  · exact Nat.lt_trans low (by decide)
  · exact high

/-- The codes of two characters are told apart before what follows them is looked at. -/
theorem utf8EncodeChar_append_lt {c d : Char} (less : c < d) (back other : List UInt8) :
    String.utf8EncodeChar c ++ back < String.utf8EncodeChar d ++ other := by
  have values : c.val.toNat < d.val.toNat := less
  have bound := toNat_val_lt d
  -- One case for each two lengths of codes: the first byte of a longer code is greater, and codes
  -- of one length are numbers to the base 64.
  fun_cases String.utf8EncodeChar c <;> fun_cases String.utf8EncodeChar d
  all_goals
    simp only [List.cons_append, List.nil_append, List.cons_lt_cons_iff, UInt8.lt_iff_toNat_lt,
      ← UInt8.toNat_inj, UInt8.toNat_ofNat', Nat.reducePow]
    simp (disch := omega) only [Nat.mod_eq_of_lt]
    omega

theorem flatMap_utf8EncodeChar_lt {text other : List Char} (less : text < other) :
    text.flatMap String.utf8EncodeChar < other.flatMap String.utf8EncodeChar := by
  induction text generalizing other with
  | nil =>
    cases other with
    | nil => exact absurd less (List.not_lt_nil [])
    | cons d other =>
      obtain ⟨byte, code, same⟩ := List.exists_cons_of_ne_nil (String.utf8EncodeChar_ne_nil (c := d))
      rw [List.flatMap_cons, same]
      exact List.nil_lt_cons _ _
  | cons c text ih =>
    cases other with
    | nil => exact absurd less (List.not_lt_nil _)
    | cons d other =>
      rcases List.cons_lt_cons_iff.1 less with head | ⟨rfl, tail⟩
      · exact utf8EncodeChar_append_lt head _ _
      · exact List.append_left_lt (ih tail)

theorem utf8_eq (text : String) :
    text.toUTF8.data.toList = text.toList.flatMap String.utf8EncodeChar := by
  have encoded : text.toUTF8 = text.toList.utf8Encode := String.utf8Encode_toList.symm
  rw [encoded, List.utf8Encode, List.data_toByteArray]

theorem utf8_lt {text other : String} (less : text < other) :
    text.toUTF8.data.toList < other.toUTF8.data.toList := by
  rw [utf8_eq, utf8_eq]
  exact flatMap_utf8EncodeChar_lt less

namespace FileName

def bytes (name : FileName) : List UInt8 := name.text.toUTF8.data.toList

theorem bytes_lt {name other : FileName} (less : name < other) : name.bytes < other.bytes :=
  utf8_lt less

theorem map_bytes_lt {way other : List FileName} (less : way < other) :
    way.map bytes < other.map bytes := by
  induction way generalizing other with
  | nil =>
    cases other with
    | nil => exact absurd less (List.not_lt_nil [])
    | cons next other => exact List.nil_lt_cons _ _
  | cons name way ih =>
    cases other with
    | nil => exact absurd less (List.not_lt_nil _)
    | cons next other =>
      rcases List.cons_lt_cons_iff.1 less with head | ⟨rfl, tail⟩
      · exact List.cons_lt_cons_iff.2 (.inl (bytes_lt head))
      · exact List.cons_lt_cons_iff.2 (.inr ⟨rfl, ih tail⟩)

end FileName

end CopyrightHeader
