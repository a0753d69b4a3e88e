/-!
# UTF-8

Texts as bytes.  Main statements: reading back the bytes of a text gives that text, and no other
bytes are read as it.
-/

namespace QueryPlanner.Text

/-- The UTF-8 encoding of a text. -/
def utf8 (s : String) : List UInt8 := s.toList.flatMap String.utf8EncodeChar

/-- The text that the bytes encode, if they are well-formed UTF-8. -/
def ofUtf8? (bytes : List UInt8) : Option String := String.fromUTF8? ⟨bytes.toArray⟩

theorem toByteArray_eq_utf8 (s : String) : s.toByteArray = ⟨(utf8 s).toArray⟩ := by
  have h : s.toByteArray = s.toList.utf8Encode := by
    rw [← String.toByteArray_ofList, String.ofList_toList]
  rw [h]
  apply ByteArray.ext
  simp [List.utf8Encode, utf8]

theorem ofUtf8?_utf8 (s : String) : ofUtf8? (utf8 s) = some s := by
  unfold ofUtf8?
  rw [← toByteArray_eq_utf8]
  simp only [String.fromUTF8?, s.isValidUTF8, dif_pos]
  rfl

theorem eq_utf8_of_ofUtf8? {raw : List UInt8} {s : String} (h : ofUtf8? raw = some s) :
    raw = utf8 s := by
  unfold ofUtf8? String.fromUTF8? at h
  split at h
  next hvalid =>
    cases h
    have hbytes := toByteArray_eq_utf8 (String.fromUTF8 ⟨raw.toArray⟩ hvalid)
    simpa [String.fromUTF8] using hbytes
  next => cases h

end QueryPlanner.Text
