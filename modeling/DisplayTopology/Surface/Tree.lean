import DisplayTopology.Surface.Basic
import DisplayTopology.Text.Hex

/-!
# Printing a tree

The tree below a directory, one line for each item listed: a directory is followed by what lies in
it. The path of an item is that of its directory followed by the name it is listed with, so an entry
that is listed without a name shows as its own directory, and is not entered.
-/

namespace DisplayTopology

/-- A line that shows an entry. -/
inductive TreeLine where
  | dir (path : Path)
  | file (path : Path) (data : Bytes)
  | link (path target : Path)
  deriving DecidableEq

/-- A line as text. -/
def TreeLine.render : TreeLine → String
  | dir path => "D " ++ path.text
  | file path data => "F " ++ path.text ++ " " ++ Hex.encode data
  | link path target => "L " ++ path.text ++ " " ++ target.text

namespace Surface

/-- The lines for what a directory lists, and for what lies below it up to a depth. -/
def linesBelow (s : Surface) : Nat → Path → List TreeLine
  | 0, _ => []
  | depth + 1, dir =>
    match s.list dir with
    | .error _ => []
    | .ok items => items.flatMap fun item =>
      let here := dir / item.name
      match item.kind with
      | .dir => .dir here :: if item.name = "" then [] else s.linesBelow depth here
      | .file => [.file here ((s.contents? here).getD [])]
      | .link => [.link here ((s.target? here).getD (.ofText ""))]

/-- The lines for what lies below a directory; there are none below what is no directory. Every step
down leads to another entry, so no directory lies deeper than there are entries. -/
def tree (s : Surface) (p : Path) : List TreeLine := s.linesBelow (s.entries.entries.length + 1) p

end Surface

end DisplayTopology
