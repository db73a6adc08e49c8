/-! # Text and its bytes

Files and channels carry bytes, the rest of the library carries text. The two
meet in UTF-8, and reading back what was written gives the same text.
-/
namespace MeshShell

abbrev Bytes := List UInt8

namespace Utf8

def encode (s : String) : Bytes := s.toByteArray.data.toList

/-- Nothing comes of bytes that are not well-formed UTF-8. -/
def decode? (bytes : Bytes) : Option String := String.fromUTF8? ⟨bytes.toArray⟩

theorem decode?_encode (s : String) : decode? (encode s) = some s := by
  obtain ⟨b, hb⟩ := s
  simp only [decode?, encode, Array.toArray_toList, String.fromUTF8?, String.fromUTF8]
  simp [hb]

end Utf8

end MeshShell
