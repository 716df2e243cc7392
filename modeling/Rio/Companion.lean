import Rio.Profile.Basic
import Rio.Renpy.Document

/-!
# Companion files

Definitions that generated scripts refer to: the characters of a title, and the addresses of its
named flags.
-/

namespace Rio.Companion

open Renpy (Document Statement)

/-- The definition of a character. -/
def characterDefinition (p : Profile) (c : Character) : String :=
  let color :=
    match c.whoColor with
    | some color => ", who_color='" ++ color ++ "'"
    | none => ""
  "define " ++ p.qualify c.symbol ++ " = Character(" ++ Literal.singleQuoted c.name ++ color ++ ")"

/-- A document of one block with the given lines. -/
def block (header : String) (fill : Document → Document) : Document :=
  (fill ((({} : Document).header (.verbatim header)))).closeScope

/-- The definitions of all characters. -/
def characters (p : Profile) : String :=
  (block "init:" fun d =>
    p.characters.foldl (fun d c => d.statement (.verbatim (characterDefinition p c))) d).text

/-- The named flags by address. -/
def namedFlags (p : Profile) : List (String × Nat) :=
  p.flags.filterMap fun (addr, entry) => entry.name.map fun name => (name, addr)

/-- One entry of the table of flags. -/
def flagLine (name : String) (addr : Nat) : String :=
  "'" ++ name ++ "': " ++ toString addr ++ ","

/-- The table of the named flags. -/
def flagNames (p : Profile) : String :=
  let fill (d : Document) : Document :=
    match namedFlags p with
    | [] => d.statement (.verbatim "WILL_FLAG_NAMES = \x7b\x7d")
    | flags =>
      let opened := d.header (.verbatim "WILL_FLAG_NAMES = \x7b")
      let filled := flags.foldl (fun d (name, addr) =>
        d.statement (.verbatim (flagLine name addr))) opened
      filled.closeScope.statement (.verbatim "\x7d")
  (block "python early:" fill).text

end Rio.Companion
