/-!
# Single-quoted text

Text between single quotes; a quote inside it is written with a backslash before it, and nothing
else is changed.
-/

namespace Rio.Literal

/-- The characters between single quotes. -/
def escapeSingle (s : String) : String :=
  String.ofList (s.toList.flatMap fun c => if c == '\'' then ['\\', '\''] else [c])

/-- A text between single quotes. -/
def singleQuoted (s : String) : String :=
  "'" ++ escapeSingle s ++ "'"

end Rio.Literal
