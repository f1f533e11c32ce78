import DisplayTopology.Session.Device

/-!
# Tearing a topology down

A topology cannot be removed in one go: a directory that a link leads to is busy, and default
groups cannot be removed by hand. So the composer is stopped and the topology switched off; then
every directory for links is emptied and tried; then all directories are tried, each after those
below it. Nothing here fails: both walks log an event for everything they did or could not do, and
a `Report` sorts the events by kind.

The walks descend through directory listings, at most `budget` directories deep, and answer `none`
when that does not suffice. A directory that is listed without a name shows its own directory again,
so a walk that meets one never ends. Otherwise each step down is a new entry of the surface, and a
budget greater than the number of entries suffices. A directory whose name is no text is listed by a
text that leads elsewhere, so neither walk comes to it.
-/

namespace DisplayTopology

/-- What happened to a path while a topology was torn down. -/
inductive Event where
  /-- A link was unlinked. -/
  | unlinked (path : Path)
  /-- An entry in a directory for links could not be unlinked. -/
  | kept (path : Path)
  /-- A directory was removed. -/
  | removed (path : Path)
  /-- A directory could not be removed. -/
  | refused (path : Path) (errno : Errno)
  /-- There was no directory. -/
  | absent (path : Path)
  /-- What should be a directory could not be listed. -/
  | unlisted (path : Path)
  deriving DecidableEq

namespace Event

/-- The link that an event unlinked. -/
def unlinked? : Event → Option Path
  | unlinked p => some p
  | _ => none

/-- The directory that an event removed. -/
def removed? : Event → Option Path
  | removed p => some p
  | _ => none

/-- The default group that an event left to go with its parent. -/
def kernelOwned? : Event → Option Path
  | refused p .eperm => some p
  | _ => none

/-- The path that an event left behind for any other reason. -/
def skipped? : Event → Option Path
  | kept p => some p
  | unlisted p => some p
  | refused _ .eperm => none
  | refused p _ => some p
  | _ => none

end Event

/-- What a teardown did, by kind, each kind in the order it happened. -/
structure Report where
  /-- The links that were unlinked. -/
  unlinked : List Path
  /-- The directories that were removed. -/
  removed : List Path
  /-- The default groups that cannot be removed by hand. -/
  kernelOwned : List Path
  /-- What could not be removed for any other reason. -/
  skipped : List Path
  deriving DecidableEq

namespace Report

/-- The report of a log of events. -/
def ofEvents (events : List Event) : Report where
  unlinked := events.filterMap Event.unlinked?
  removed := events.filterMap Event.removed?
  kernelOwned := events.filterMap Event.kernelOwned?
  skipped := events.filterMap Event.skipped?

/-- Whether the root of a topology was removed. -/
def removedRoot (report : Report) (root : Path) : Bool :=
  report.removed.any fun p => p.location == root.location

end Report

namespace Teardown

/-- The events of a walk and the surface after it. -/
abbrev Walked := List Event × Surface

/-- Unlinks all that is listed in a directory for links. -/
def unlinkAll (dir : Path) : List Item → Surface → Walked
  | [], s => ([], s)
  | item :: items, s =>
    match s.removeLink (dir / item.name) with
    | .ok t =>
      let (events, u) := unlinkAll dir items t
      (.unlinked (dir / item.name) :: events, u)
    | .error _ =>
      let (events, u) := unlinkAll dir items s
      (.kept (dir / item.name) :: events, u)

/-- Tries to remove a directory. -/
def tryRemove (dir : Path) (s : Surface) : Event × Surface :=
  match s.removeDir dir with
  | .ok t => (.removed dir, t)
  | .error e => (.refused dir e, s)

/-- What a directory lists, if it can be listed. -/
def listed (s : Surface) (dir : Path) : List Item :=
  match s.list dir with
  | .ok items => items
  | .error _ => []

/-- Empties a directory for links and tries to remove it. -/
def clearLinkDir (dir : Path) (s : Surface) : Walked :=
  let (events, t) := unlinkAll dir (listed s dir) s
  let (event, u) := tryRemove dir t
  (events ++ [event], u)

/-- Visits the directories among listed items in order, each with the surface that the one before
left behind. -/
def overDirs (visit : String → Surface → Option Walked) : List Item → Surface → Option Walked
  | [], s => some ([], s)
  | item :: items, s =>
    match item.kind with
    | .dir =>
      match visit item.name s with
      | none => none
      | some (events, t) => (overDirs visit items t).map fun (more, u) => (events ++ more, u)
    | _ => overDirs visit items s

/-- Whether a name is that of a directory for links. -/
def isLinkDirName (name : String) : Bool := linkGroupMark.toList.isPrefixOf name.toList

/-- Clears the directories for links below a directory, and does not enter them further. -/
def clearLinks : Nat → Path → Surface → Option Walked
  | 0, _, _ => none
  | budget + 1, dir, s =>
    match s.list dir with
    | .error _ => some ([], s)
    | .ok items =>
      overDirs
        (fun name s =>
          if isLinkDirName name then some (clearLinkDir (dir / name) s)
          else clearLinks budget (dir / name) s)
        items s

/-- Tries to remove a directory after all directories below it. -/
def removeTree : Nat → Path → Surface → Option Walked
  | 0, _, _ => none
  | budget + 1, dir, s =>
    match s.list dir with
    | .error .enoent => some ([.absent dir], s)
    | .error _ => some ([.unlisted dir], s)
    | .ok items =>
      match overDirs (fun name s => removeTree budget (dir / name) s) items s with
      | none => none
      | some (events, t) =>
        let (event, u) := tryRemove dir t
        some (events ++ [event], u)

/-- How deep the walks on a surface may have to descend. -/
def budget (s : Surface) : Nat := s.entries.entries.length + 1

/-- Clears all directories for links below a root, then tries to remove all directories. -/
def removeTopology (root : Path) (s : Surface) : Option Walked :=
  match clearLinks (budget s) root s with
  | none => none
  | some (events, t) => (removeTree (budget t) root t).map fun (more, u) => (events ++ more, u)

end Teardown

/-- Tears down the topology of some settings, whoever built it. Neither a control that refuses to
stop the composer nor a topology that cannot be switched off prevents that. -/
def Device.teardown (d : Device) (settings : Settings) : Option (Report × Device) :=
  let stopped := (d.onControl fun c => c.stop settings.serviceName).2
  let off := (stopped.onSurface (Graph.setEnabled settings.root false)).2
  (Teardown.removeTopology settings.root off.surface).map fun (events, s) =>
    (.ofEvents events, { off with surface := s })

end DisplayTopology
