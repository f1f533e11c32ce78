import DisplayTopology.Path.Ancestors
import DisplayTopology.Path.Map
import DisplayTopology.Surface.Errno
import DisplayTopology.Text.Utf8

/-!
# Configuration surfaces

A driver that is configured through a file tree shows directories for resources, small files for
attributes and symbolic links for routes. A `Surface` is such a tree: its entries by path, the
default groups that the driver puts into new directories, the directories that are held busy, the
failures that are marked to happen, and the number of changes made so far.

Reading asks for the entry at a path (`entry?`); the listing of a directory has one item for every
entry that lies directly in it, in the order of locations (`list`, `mem_children_iff`).
-/

namespace DisplayTopology

/-- Who made a directory. Default groups are the driver's and cannot be removed by hand. -/
inductive Owner where
  | kernel
  | user
  deriving DecidableEq

/-- What a path can hold. -/
inductive Entry where
  | dir (owner : Owner)
  | file (data : Bytes)
  | link (target : Path)
  deriving DecidableEq

/-- What an entry is, without following links. -/
inductive EntryKind where
  | dir
  | file
  | link
  deriving DecidableEq

namespace EntryKind

/-- The name of a kind of entry. -/
def name : EntryKind → String
  | dir => "Dir"
  | file => "File"
  | link => "Symlink"

end EntryKind

/-- What an entry is. -/
def Entry.kind : Entry → EntryKind
  | dir _ => .dir
  | file _ => .file
  | link _ => .link

/-- One item of a directory's listing: the text that the name of an entry shows, and what the entry
is. An entry without a plain name is listed with the empty name. -/
structure Item where
  name : String
  kind : EntryKind
  deriving DecidableEq

/-- The item that lists an entry. Names that are no text show replacement characters, so the item of
such an entry does not lead to it, and may be that of another. -/
def Item.ofEntry (e : Path × Entry) : Item := ⟨(e.1.name?.map Bytes.shown).getD "", e.2.kind⟩

/-- A tree of configuration entries and how it answers changes. -/
structure Surface where
  /-- The entries of the tree. -/
  entries : PathMap Entry
  /-- The default groups of directories made in a directory. -/
  groups : PathMap (List String)
  /-- The directories that refuse removal. -/
  pinned : List Location
  /-- The paths at which making or writing an entry fails. -/
  failures : PathMap Errno
  /-- The number of changes that succeeded. -/
  mutations : Nat

namespace Surface

/-- The tree that holds nothing but the root directory. -/
def empty : Surface where
  entries := PathMap.empty.insert (.ofText "/") (.dir .kernel)
  groups := .empty
  pinned := []
  failures := .empty
  mutations := 0

/-! ## Reading -/

/-- The entry at a path. -/
def entry? (s : Surface) (p : Path) : Option Entry := s.entries.find? p.location

/-- Whether a path holds an entry. -/
def contains (s : Surface) (p : Path) : Bool := s.entries.contains p.location

/-- Whether a location holds a directory. -/
def dirAt (s : Surface) (l : Location) : Bool :=
  match s.entries.find? l with
  | some (.dir _) => true
  | _ => false

/-- Whether a path holds a directory. -/
def isDir (s : Surface) (p : Path) : Bool := s.dirAt p.location

/-- The contents of the file at a path. -/
def contents? (s : Surface) (p : Path) : Option Bytes :=
  match s.entry? p with
  | some (.file data) => some data
  | _ => none

/-- The target of the link at a path. -/
def target? (s : Surface) (p : Path) : Option Path :=
  match s.entry? p with
  | some (.link target) => some target
  | _ => none

/-- Reads the file at a path. -/
def read (s : Surface) (p : Path) : Except Errno Bytes :=
  match s.entry? p with
  | some (.file data) => .ok data
  | some (.dir _) => .error .eisdir
  | some (.link _) => .error .einval
  | none => .error .enoent

/-- The entries that lie directly in a directory, in order. The root is one step on from the empty
location and does not lie in it. -/
def children (s : Surface) (dir : Location) : List (Path × Entry) :=
  (s.entries.below dir).level.filter fun e => e.1.location.parent?.isSome

/-- Lists the directory at a path. -/
def list (s : Surface) (p : Path) : Except Errno (List Item) :=
  match s.entry? p with
  | some (.dir _) => .ok ((s.children p.location).map Item.ofEntry)
  | some _ => .error .enotdir
  | none => .error .enoent

/-- The directories below a path, in order. -/
def dirsBelow (s : Surface) (p : Path) : List Path :=
  ((s.entries.below p.location).entries.filter fun e => e.2.kind == .dir).map Prod.fst

theorem mem_children_iff {s : Surface} {dir : Location} {e : Path × Entry} :
    e ∈ s.children dir ↔ e ∈ s.entries.entries ∧ e.1.location.parent? = some dir := by
  rw [children, List.mem_filter, PathMap.mem_level_below_iff, Location.parent?_eq_some_iff]
  constructor
  · rintro ⟨⟨he, c, hc⟩, hp⟩
    refine ⟨he, c, fun h => ?_, hc⟩
    simp [hc, h] at hp
  · rintro ⟨he, c, hr, hc⟩
    exact ⟨⟨he, c, hc⟩, by simp [hc, hr]⟩

theorem mem_dirsBelow_iff {s : Surface} {p q : Path} :
    q ∈ s.dirsBelow p ↔
      q.location.below p.location ∧ ∃ owner, (q, Entry.dir owner) ∈ s.entries.entries := by
  have hk (e : Entry) : (e.kind == EntryKind.dir) ↔ ∃ owner, e = .dir owner := by
    cases e <;> simp [Entry.kind]
  simp only [dirsBelow, List.mem_map, List.mem_filter, PathMap.mem_entries_below_iff, hk]
  constructor
  · rintro ⟨⟨_, _⟩, ⟨⟨he, hb⟩, owner, rfl⟩, rfl⟩
    exact ⟨hb, owner, he⟩
  · rintro ⟨hb, owner, he⟩
    exact ⟨(q, .dir owner), ⟨⟨he, hb⟩, owner, rfl⟩, rfl⟩

theorem dirAt_iff {s : Surface} {l : Location} :
    s.dirAt l ↔ ∃ owner, s.entries.find? l = some (.dir owner) := by
  rw [dirAt]
  rcases s.entries.find? l with _ | (_ | _ | _) <;> simp

theorem list_eq_ok_iff {s : Surface} {p : Path} {items : List Item} :
    s.list p = .ok items ↔ s.isDir p ∧ items = (s.children p.location).map Item.ofEntry := by
  rw [list, isDir, dirAt, entry?]
  rcases s.entries.find? p.location with _ | (_ | _ | _) <;> simp [eq_comm (a := items)]

theorem exists_list_of_isDir {s : Surface} {p : Path} (h : s.isDir p) :
    ∃ items, s.list p = .ok items :=
  ⟨_, list_eq_ok_iff.2 ⟨h, rfl⟩⟩

/-- Listing fails for a path that is missing, and for one that is no directory. -/
theorem list_eq_error_iff {s : Surface} {p : Path} {e : Errno} :
    s.list p = .error e ↔
      s.isDir p = false ∧ e = if s.contains p then .enotdir else .enoent := by
  rw [list, isDir, dirAt, contains, PathMap.contains, entry?]
  rcases s.entries.find? p.location with _ | (_ | _ | _) <;> simp [eq_comm (a := e)]

/-! ## Marks -/

/-- Puts a kernel directory at a path and at the directories above it, where nothing is yet. -/
def addKernelDirs (s : Surface) (p : Path) : Surface :=
  { s with entries := p.ancestors.foldl (fun m dir => m.insertIfNew dir (.dir .kernel)) s.entries }

/-- The default groups of directories made in a directory. -/
def groupsIn (s : Surface) (dir : Location) : List String := (s.groups.find? dir).getD []

/-- Has directories made in `p` come with more default groups. -/
def addDefaultGroups (s : Surface) (p : Path) (names : List String) : Surface :=
  { s with groups := s.groups.insert p (s.groupsIn p.location ++ names) }

/-- Has the directory at a path refuse removal. -/
def pin (s : Surface) (p : Path) : Surface := { s with pinned := p.location :: s.pinned }

/-- Has making or writing an entry at a path fail. -/
def failOn (s : Surface) (p : Path) (e : Errno) : Surface :=
  { s with failures := s.failures.insert p e }

end Surface

end DisplayTopology
