/-! # Byte strings as text -/

namespace SearchExpr.Text

/-- The text that a byte string encodes in UTF-8, if it does. -/
def ofUtf8? (bytes : List UInt8) : Option String :=
  String.fromUTF8? ⟨bytes.toArray⟩

end SearchExpr.Text
