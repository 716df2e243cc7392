import Rio.Unicode.Cased
import Rio.Unicode.CaseIgnorable
import Rio.Unicode.CaseMap

/-!
# Upper and lower case of texts

Casing is independent of a locale. A character may map to several (`ß` to `SS`), and the lower case
of a capital sigma depends on its place: at the end of a word it is the final form.
-/

namespace Rio.Unicode

/-- The case image of a character: an expansion if it has one, else the image under the runs. -/
def mapCase (expansions : List (Nat × List Nat)) (runs : List CaseRun) (c : Char) : List Char :=
  match expansions.find? (·.1 == c.toNat) with
  | some (_, image) => image.map Char.ofNat
  | none =>
    match CaseRun.image? runs c.toNat with
    | some n => [Char.ofNat n]
    | none => [c]

/-- Upper case of one character. -/
def upperChar (c : Char) : List Char :=
  mapCase upperExpansions upperRuns c

/-- Lower case of one character that stands alone. -/
def lowerChar (c : Char) : List Char :=
  mapCase lowerExpansions lowerRuns c

/-- Upper case of a text. -/
def toUpper (s : String) : String :=
  String.ofList (s.toList.flatMap upperChar)

/-- Whether the first character that casing does not look through has a case. -/
def startsCased (cs : List Char) : Bool :=
  match cs.dropWhile isCaseIgnorable with
  | [] => false
  | c :: _ => isCased c

/-- The two lower forms of a capital sigma: a word ends where a cased character stands before and
none stands after. -/
def lowerSigma (before after : List Char) : Char :=
  if startsCased before && !startsCased after then 'ς' else 'σ'

/-- Lower case of a text whose already lowered part is `before`, nearest character first. -/
def lowerFrom (before : List Char) : List Char → List Char
  | [] => []
  | c :: rest =>
    (if c == 'Σ' then [lowerSigma before rest] else lowerChar c) ++ lowerFrom (c :: before) rest

/-- Lower case of a text. -/
def toLower (s : String) : String :=
  String.ofList (lowerFrom [] s.toList)

end Rio.Unicode
