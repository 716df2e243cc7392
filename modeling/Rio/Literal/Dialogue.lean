/-!
# Dialogue text

Dialogue is written between double quotes, where `%`, quotes, brackets and braces have a meaning of
their own and are escaped. Two marks of the script survive in another form: `\n` stays a line break,
and a reading over a base, written `{base:reading}`, becomes ruby tags. Characters of an emoji table
are replaced.
-/

namespace Rio.Literal

/-- Replacements of single characters, and the font to show them in. -/
structure Emoji where
  table : List (Char × String)
  font : Option String
deriving Repr, DecidableEq

/-- Text inside a font tag, if a font is given. -/
def Emoji.wrap (emoji : Emoji) (text : String) : String :=
  match emoji.font with
  | none => text
  | some font => "\x7bfont=" ++ font ++ "\x7d" ++ text ++ "\x7b/font\x7d"

/-- The replacement of a character. -/
def Emoji.replacement? (emoji : Emoji) (c : Char) : Option String :=
  (emoji.table.find? (·.1 == c)).map fun entry => emoji.wrap entry.2

/-- A base text with its reading. -/
structure Ruby where
  base : List Char
  reading : List Char
deriving Repr, DecidableEq

/-- What a base or a reading may be: not empty and free of the marks of a group. -/
def isRubyPart (cs : List Char) : Bool :=
  !cs.isEmpty && !cs.contains '\x7b' && !cs.contains ':'

/-- Reads the rest of a group after its opening brace: up to the first closing brace, divided at the
first colon. -/
def ruby? (cs : List Char) : Option (Ruby × List Char) :=
  let body := cs.takeWhile (· != '\x7d')
  let base := body.takeWhile (· != ':')
  let reading := (body.dropWhile (· != ':')).drop 1
  match cs.dropWhile (· != '\x7d') with
  | [] => none
  | _ :: rest =>
    if body.contains ':' && isRubyPart base && isRubyPart reading then some (⟨base, reading⟩, rest)
    else none

/-- A group takes at least its closing brace. -/
theorem length_lt_of_ruby? {cs rest : List Char} {r : Ruby} (h : ruby? cs = some (r, rest)) :
    rest.length < cs.length := by
  have hle : (cs.dropWhile (· != '\x7d')).length ≤ cs.length := (List.dropWhile_sublist _).length_le
  simp only [ruby?] at h
  split at h
  · simp at h
  · next hd =>
    split at h
    · simp only [Option.some.injEq, Prod.mk.injEq] at h
      rw [hd, List.length_cons, h.2] at hle
      omega
    · simp at h

/-- The tags of a reading; a base of several characters is marked as one. -/
def Ruby.text (r : Ruby) : List Char :=
  let base :=
    if r.base.length > 1 then "\x7brb\x7d".toList ++ r.base ++ "\x7b/rb\x7d".toList else r.base
  base ++ "\x7brt\x7d".toList ++ r.reading ++ "\x7b/rt\x7d".toList

/-- The escape of a character that is not a backslash, an opening brace or part of a group. -/
def escapeChar (emoji : Option Emoji) (c : Char) : List Char :=
  if c == '%' || c == '"' || c == '\'' then ['\\', c]
  else if c == '[' || c == ']' || c == '\x7d' then [c, c]
  else
    match emoji.bind (·.replacement? c) with
    | some text => text.toList
    | none => [c]

/-- Escapes the characters of a text for a double-quoted literal. A backslash that opens neither
`\n` nor `\\` stands for itself. -/
def escapeChars (emoji : Option Emoji) : List Char → List Char
  | [] => []
  | '\\' :: 'n' :: rest => '\\' :: 'n' :: escapeChars emoji rest
  | '\\' :: '\\' :: rest => '\\' :: '\\' :: escapeChars emoji rest
  | c :: rest =>
    if c == '\\' then '\\' :: '\\' :: escapeChars emoji rest
    else if c == '\x7b' then
      match h : ruby? rest with
      | some (r, rest') =>
        have := length_lt_of_ruby? h
        r.text ++ escapeChars emoji rest'
      | none => '\x7b' :: '\x7b' :: escapeChars emoji rest
    else escapeChar emoji c ++ escapeChars emoji rest
termination_by cs => cs.length

/-- The text of a dialogue line as it stands between double quotes. -/
def escape (emoji : Option Emoji) (s : String) : String :=
  String.ofList (escapeChars emoji s.toList)

end Rio.Literal
