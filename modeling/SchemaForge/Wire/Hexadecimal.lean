import SchemaForge.Json.Token
import SchemaForge.Wire.Codec
set_option autoImplicit false

/-!
# Bytes in hexadecimal digits

## Main definitions

* `SchemaForge.Wire.hexOfBytes` — the digits of bytes, two for each.
* `SchemaForge.Wire.bytesOfHex?` — the bytes that digits stand for.
-/

namespace SchemaForge.Wire

/-- The digits of bytes, two for each. -/
def hexOfBytes (bytes : Bytes) : String :=
  String.ofList (bytes.flatMap fun b =>
    [Nat.digitChar (b.toNat / 16), Nat.digitChar (b.toNat % 16)])

/-- The bytes that digits stand for. -/
def bytesOfHexDigits? : List Char → Option Bytes
  | [] => some []
  | high :: low :: rest => do
    let byte := UInt8.ofNat ((← Json.hexDigit? high) * 16 + (← Json.hexDigit? low))
    return byte :: (← bytesOfHexDigits? rest)
  | [_] => none

/-- The bytes that a text of digits stands for. -/
def bytesOfHex? (text : String) : Option Bytes := bytesOfHexDigits? text.toList

end SchemaForge.Wire
