/-!
# UTF-8

Strings as bytes, and bytes as the string they spell when they are well formed.
-/

namespace ObjectLedger

def utf8Bytes (s : String) : List UInt8 := s.toUTF8.data.toList

/-- The string that bytes spell; refuses bytes that are not well formed. -/
def utf8String? (bytes : List UInt8) : Option String := String.fromUTF8? ⟨bytes.toArray⟩

end ObjectLedger
