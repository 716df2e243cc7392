import Rio.Bytecode.Decode
import Rio.Charset.Decode
import Rio.Literal.Quoted

/-!
# Listings

An instruction on one line: its address, its mnemonic and its operands. Strings are shown as quoted
text, so a line holds no line break whatever the script holds.
-/

namespace Rio

/-- Text operands are shown decoded and quoted. -/
def Charset.quote (charset : Charset) (raw : List UInt8) (readers : Charset.Readers) : String :=
  Literal.quoted (charset.decode raw readers)

/-- A choice of a menu in a listing. -/
def MenuOption.listing (charset : Charset) (o : MenuOption) (readers : Charset.Readers) : String :=
  "(" ++ ", ".intercalate
    [toString o.textId, charset.quote o.text readers, toString o.unknown1, toString o.flag,
      toString o.unknown2, charset.quote o.target readers] ++ ")"

/-- An operand in a listing. -/
def Operand.listing (charset : Charset) (operand : Operand) (readers : Charset.Readers) : String :=
  match operand with
  | .int value => toString value
  | .bytes raw => charset.quote raw readers
  | .transition t => Literal.quoted t.name
  | .options choices => ", ".intercalate (choices.map (·.listing charset readers))

/-- An instruction in a listing. -/
def Instruction.listing (charset : Charset) (i : Instruction)
    (readers : Charset.Readers := .ascii) : String :=
  Numeral.hexLiteral i.addr ++ ":" ++ i.mnemonic.name ++ "(" ++
    ", ".intercalate (i.operands.map (·.listing charset readers)) ++ ")"

/-- The listing of instructions, a line each. -/
def listing (charset : Charset) (instructions : List Instruction)
    (readers : Charset.Readers := .ascii) : String :=
  String.join (instructions.map fun i => i.listing charset readers ++ "\n")

end Rio
