/-!
Texts as bytes. A text is written in UTF-8, and bytes that are not the UTF-8 form of any
text have no text.
-/

namespace ScoreScript

/-- The UTF-8 bytes of a text. -/
def utf8 (text : String) : List UInt8 :=
  text.toList.flatMap String.utf8EncodeChar

/-- The text whose UTF-8 bytes are given. -/
def ofUtf8? (bytes : List UInt8) : Option String :=
  String.fromUTF8? ⟨bytes.toArray⟩

end ScoreScript
