import Rio.Charset.Basic

/-!
# Single-byte encodings

Bytes below 0x80 are ASCII. The other 128 bytes index a text of 128 characters.
-/

namespace Rio.Charset

/-- The characters of bytes 0x80 to 0xff in windows-1252. -/
def windows1252Upper : String :=
  "€\x81‚ƒ„…†‡ˆ‰Š‹Œ\x8dŽ\x8f\x90‘’“”•–—˜™š›œ\x9džŸ" ++
  "\xa0¡¢£¤¥¦§¨©ª«¬\xad®¯°±²³´µ¶·¸¹º»¼½¾¿" ++
  "ÀÁÂÃÄÅÆÇÈÉÊËÌÍÎÏÐÑÒÓÔÕÖ×ØÙÚÛÜÝÞß" ++
  "àáâãäåæçèéêëìíîïðñòóôõö÷øùúûüýþÿ"

/-- The characters of bytes 0x80 to 0xff in windows-1251. -/
def windows1251Upper : String :=
  "ЂЃ‚ѓ„…†‡€‰Љ‹ЊЌЋЏђ‘’“”•–—\x98™љ›њќћџ" ++
  "\xa0ЎўЈ¤Ґ¦§Ё©Є«¬\xad®Ї°±Ііґµ¶·ё№є»јЅѕї" ++
  "АБВГДЕЖЗИЙКЛМНОПРСТУФХЦЧШЩЪЫЬЭЮЯ" ++
  "абвгдежзийклмнопрстуфхцчшщъыьэюя"

/-- The characters of bytes 0x80 to 0xff in KOI8-R. -/
def koi8rUpper : String :=
  "─│┌┐└┘├┤┬┴┼▀▄█▌▐░▒▓⌠■∙√≈≤≥\xa0⌡°²·÷" ++
  "═║╒ё╓╔╕╖╗╘╙╚╛╜╝╞╟╠╡Ё╢╣╤╥╦╧╨╩╪╫╬©" ++
  "юабцдефгхийклмнопярстужвьызшэщчъ" ++
  "ЮАБЦДЕФГХИЙКЛМНОПЯРСТУЖВЬЫЗШЭЩЧЪ"

/-- The characters of bytes 0x80 to 0xff in ISO-8859-15. -/
def iso8859p15Upper : String :=
  "\x80\x81\x82\x83\x84\x85\x86\x87\x88\x89\x8a\x8b\x8c\x8d\x8e\x8f\x90\x91\x92\x93\x94\x95\x96\x97\x98\x99\x9a\x9b\x9c\x9d\x9e\x9f" ++
  "\xa0¡¢£€¥Š§š©ª«¬\xad®¯°±²³Žµ¶·ž¹º»ŒœŸ¿" ++
  "ÀÁÂÃÄÅÆÇÈÉÊËÌÍÎÏÐÑÒÓÔÕÖ×ØÙÚÛÜÝÞß" ++
  "àáâãäåæçèéêëìíîïðñòóôõö÷øùúûüýþÿ"

/-- Decoding of bytes by the characters of the upper half. -/
def decodeSingleByte (upper : String) (bytes : List UInt8) : List Char :=
  let table := upper.toList
  bytes.map fun b =>
    if b < 0x80 then Char.ofNat b.toNat else table.getD (b.toNat - 0x80) '\ufffd'

/-- Bytes from 0x80 are moved into a private block, so that they can be told from text. -/
def decodeUserDefined (bytes : List UInt8) : List Char :=
  bytes.map fun b => Char.ofNat (if b < 0x80 then b.toNat else 0xf700 + b.toNat)

end Rio.Charset
