/-!
# Bytes and text

Message bodies and files are lists of bytes.  A text is kept in UTF-8; not every list of bytes is
the form of a text.
-/

namespace Reminders

/-- A sequence of bytes. -/
abbrev Bytes := List UInt8

namespace Bytes

/-- The UTF-8 form of a text. -/
def ofString (s : String) : Bytes := s.toByteArray.data.toList

/-- The text of which these bytes are the UTF-8 form. -/
def toString? (b : Bytes) : Option String := String.fromUTF8? ⟨⟨b⟩⟩

end Bytes

end Reminders
