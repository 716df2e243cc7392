import Rio.Numeral.Hex
import Rio.Unicode.GraphemeExtend
import Rio.Unicode.Printable

/-!
# Quoted text in listings

A text between double quotes on one line. Quotes, backslashes and the usual controls have short
escapes; any other character that does not print by itself is written by its code point.
-/

namespace Rio.Literal

/-- One character of quoted text. -/
def quoteChar (c : Char) : String :=
  if c == '\x00' then "\\0"
  else if c == '\t' then "\\t"
  else if c == '\r' then "\\r"
  else if c == '\n' then "\\n"
  else if c == '\\' then "\\\\"
  else if c == '"' then "\\\""
  else if Unicode.isGraphemeExtend c || !Unicode.isPrintable c then
    "\\u\x7b" ++ Numeral.hex c.toNat ++ "\x7d"
  else String.singleton c

/-- A text between quotes. -/
def quoted (s : String) : String :=
  "\"" ++ String.join (s.toList.map quoteChar) ++ "\""

end Rio.Literal
