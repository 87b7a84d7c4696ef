/-! Texts as bytes in UTF-8. -/

namespace TapeMachine.Text

/-- The bytes of a text. -/
def encode (s : String) : List UInt8 :=
  s.toByteArray.data.toList

/-- The text that bytes encode, or the reason why they encode none. -/
def decode (bytes : List UInt8) : Except String String :=
  match String.fromUTF8? bytes.toByteArray with
  | some s => .ok s
  | none => .error "stream did not contain valid UTF-8"

end TapeMachine.Text
