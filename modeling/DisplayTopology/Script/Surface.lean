import DisplayTopology.Surface.Driver
import DisplayTopology.Surface.Mutation
import DisplayTopology.Surface.Tree

/-!
# Calls of a surface

Every way to read, change and mark a surface, as a value, so that runs of any length can be spoken
about. A call answers and leaves a surface; one that fails leaves the surface as it was.
-/

namespace DisplayTopology

/-- One call of a surface. -/
inductive SurfaceCall where
  | createDir (path : Path)
  | removeLink (path : Path)
  | removeDir (path : Path)
  | write (path : Path) (data : Bytes)
  | read (path : Path)
  | createLink (target path : Path)
  | list (path : Path)
  | isDir (path : Path)
  | contains (path : Path)
  | contents (path : Path)
  | target (path : Path)
  | dirsBelow (path : Path)
  | addKernelDirs (path : Path)
  | addDefaultGroups (path : Path) (names : List String)
  | pin (path : Path)
  | failOn (path : Path) (errno : Errno)
  | tree (path : Path)
  deriving DecidableEq

/-- What a call of a surface answers. -/
inductive SurfaceAnswer where
  | done
  | refused (errno : Errno)
  | data (data : Bytes)
  | items (items : List Item)
  | flag (flag : Bool)
  | contents (data : Option Bytes)
  | target (path : Option Path)
  | paths (paths : List Path)
  | lines (lines : List TreeLine)
  deriving DecidableEq

namespace SurfaceCall

/-- The outcome of a call that changes the surface or fails. -/
def ofChange (s : Surface) : Except Errno Surface → SurfaceAnswer × Surface
  | .ok t => (.done, t)
  | .error e => (.refused e, s)

/-- The answer of a call that reads or fails. -/
def ofReading {α : Type} (answer : α → SurfaceAnswer) : Except Errno α → SurfaceAnswer
  | .ok a => answer a
  | .error e => .refused e

/-- Carries out a call. -/
def run (s : Surface) : SurfaceCall → SurfaceAnswer × Surface
  | createDir p => ofChange s (s.createDir p)
  | removeLink p => ofChange s (s.removeLink p)
  | removeDir p => ofChange s (s.removeDir p)
  | write p data => ofChange s (s.write p data)
  | read p => (ofReading .data (s.read p), s)
  | createLink leadsTo p => ofChange s (s.createLink leadsTo p)
  | list p => (ofReading .items (s.list p), s)
  | isDir p => (.flag (s.isDir p), s)
  | contains p => (.flag (s.contains p), s)
  | contents p => (.contents (s.contents? p), s)
  | target p => (.target (s.target? p), s)
  | dirsBelow p => (.paths (s.dirsBelow p), s)
  | addKernelDirs p => (.done, s.addKernelDirs p)
  | addDefaultGroups p names => (.done, s.addDefaultGroups p names)
  | pin p => (.done, s.pin p)
  | failOn p e => (.done, s.failOn p e)
  | tree p => (.lines (s.tree p), s)

/-- The surface after calls in order. -/
def runAll (s : Surface) (calls : List SurfaceCall) : Surface :=
  calls.foldl (fun s call => (call.run s).2) s

end SurfaceCall

end DisplayTopology
