import LineShell.Text.Basic

/-!
# Paths

A path names a place by the names on the way to it, with `/` between them. It starts at the root if
its first character is `/`, and at the working directory otherwise.
-/

namespace LineShell

/-- A directory or file, by the names on the way from the root to it. -/
abbrev Location := List Text

/-- The absolute path of a location. -/
def Location.path : Location → Text
  | [] => ['/']
  | names => names.flatMap ('/' :: ·)

namespace Path

/-- Whether a path starts at the root. -/
def isAbsolute (path : Text) : Bool :=
  path.head? == some '/'

/-- The path `rest` seen from `base`: an absolute path is its own, and any other follows `base` with
one `/` between them, or none if `base` is empty or ends in `/`. -/
def join (base rest : Text) : Text :=
  if isAbsolute rest then rest
  else if base.isEmpty || base.getLast? == some '/' then base ++ rest
  else base ++ '/' :: rest

/-- The names in a path. A path that ends in `/` has an empty name at the end, which asks for a
directory. -/
def names (path : Text) : List Text :=
  (path.splitOn '/').filter (!·.isEmpty) ++ if path.getLast? == some '/' then [[]] else []

end Path

end LineShell
