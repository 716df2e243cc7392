import Rio.Charset.Basic
import Rio.Charset.ShiftJis
import Rio.Charset.SingleByte
import Rio.Charset.Utf16
import Rio.Charset.Utf8

/-!
# Decoding script text

A byte order mark is text like any other. Decoding never fails: what is malformed becomes U+FFFD.
-/

namespace Rio.Charset

/-- Readers of the encodings that have no table here. Whoever uses this library brings them. -/
abbrev Readers := Charset → List UInt8 → List Char

/-- What is brought where such scripts hold nothing but ASCII. -/
def Readers.ascii : Readers :=
  fun _ => decodeSingleByte ""

/-- The text of bytes in an encoding. -/
def decode (charset : Charset) (bytes : List UInt8) (readers : Readers := .ascii) : String :=
  String.ofList <|
    match charset with
    | utf8 => Utf8.decode bytes
    | shiftJis => ShiftJis.decode bytes
    | utf16le => Utf16.decode .little bytes
    | utf16be => Utf16.decode .big bytes
    | windows1252 => decodeSingleByte windows1252Upper bytes
    | windows1251 => decodeSingleByte windows1251Upper bytes
    | koi8r => decodeSingleByte koi8rUpper bytes
    | iso8859p15 => decodeSingleByte iso8859p15Upper bytes
    | userDefined => decodeUserDefined bytes
    | replacement => if bytes.isEmpty then [] else ['�']
    | other => readers other bytes

end Rio.Charset
