import DisplayTopology.Surface.Basic

/-!
# Changes to a surface

Five calls change a surface: making and removing directories, writing files, making links, and
removing links. Each either succeeds with the surface after it or names the first fault that stands
in its way, and a call that fails leaves nothing behind. Attribute files go with their directory
and never by themselves; a directory goes together with the default groups and files in it, unless
it or one of these groups is held busy or holds entries that a user made.

Each call acts on lookups as it should: a new directory comes with the default groups registered
for its parent (`find?_of_createDir`), a removed one takes everything at or below it
(`find?_of_removeDir`), and files and links change their own location only.
-/

namespace DisplayTopology.Surface

/-! ## Faults -/

/-- Why no entry can lie at a location: it has no directory to lie in. -/
def parentFault? (s : Surface) (l : Location) : Option Errno :=
  match l.parent? with
  | none => some .einval
  | some dir =>
    match s.entries.find? dir with
    | some (.dir _) => none
    | some _ => some .enotdir
    | none => some .enoent

/-- Why nothing new can be made at a location: a failure is marked, something is there already, or
no directory can hold it. -/
def creationFault? (s : Surface) (l : Location) : Option Errno :=
  s.failures.find? l <|> (if s.entries.contains l then some .eexist else none) <|> s.parentFault? l

/-- Why no file can be written at a location: a failure is marked, no directory can hold it, or a
directory is there. -/
def writeFault? (s : Surface) (l : Location) : Option Errno :=
  s.failures.find? l <|> s.parentFault? l <|> (if s.dirAt l then some .eisdir else none)

/-- Whether some link's target lies at or below a location. -/
def referenced (s : Surface) (l : Location) : Bool :=
  s.entries.any fun e =>
    match e.2 with
    | .link target => target.location.within l
    | _ => false

/-- Why a directory is busy: it is pinned or a link leads into it. -/
def busyFault? (s : Surface) (l : Location) : Option Errno :=
  if s.pinned.contains l || s.referenced l then some .ebusy else none

/-- The first thing that holds the directory at `dir`, given what lies below it: a directory or link
that a user made in it or in one of its default groups, or such a group that is busy. The root is one
step below the empty location though it does not lie in it (`children`); here it would count, but no
call makes a directory of a user at the empty location, so none is ever to be removed there. -/
def heldFault? (s : Surface) (dir : Location) : Trie Entry → Option Errno
  | .empty => none
  | .node step slot below before after =>
    let here :=
      match slot with
      | none | some (_, .file _) => none
      | some (_, .dir .kernel) =>
        s.busyFault? (dir ++ [step]) <|> s.heldFault? (dir ++ [step]) below
      | some (_, .dir .user) | some (_, .link _) => some .enotempty
    s.heldFault? dir before <|> here <|> s.heldFault? dir after

/-- Why a directory cannot be removed although a user made it. -/
def removalFault? (s : Surface) (l : Location) : Option Errno :=
  s.busyFault? l <|> s.heldFault? l (s.entries.below l)

/-! ## Calls -/

/-- Makes the default groups of a directory. -/
def addGroups (p : Path) (names : List String) (m : PathMap Entry) : PathMap Entry :=
  names.foldl (fun m name => m.insert (p / name) (.dir .kernel)) m

/-- The default groups that a directory made at a location comes with. -/
def groupsFor (s : Surface) (l : Location) : List String := (l.parent?.map s.groupsIn).getD []

/-- Makes a directory, and in it the default groups registered for its parent. -/
def createDir (s : Surface) (p : Path) : Except Errno Surface :=
  match s.creationFault? p.location with
  | some e => .error e
  | none =>
    .ok { s with
      entries := addGroups p (s.groupsFor p.location) (s.entries.insert p (.dir .user))
      mutations := s.mutations + 1 }

/-- Writes a file, in place of the file or link that is there. -/
def write (s : Surface) (p : Path) (data : Bytes) : Except Errno Surface :=
  match s.writeFault? p.location with
  | some e => .error e
  | none => .ok { s with entries := s.entries.insert p (.file data), mutations := s.mutations + 1 }

/-- Makes a link to `target`, whatever that may be. -/
def createLink (s : Surface) (target p : Path) : Except Errno Surface :=
  match s.creationFault? p.location with
  | some e => .error e
  | none => .ok { s with entries := s.entries.insert p (.link target), mutations := s.mutations + 1 }

/-- Removes a link. -/
def removeLink (s : Surface) (p : Path) : Except Errno Surface :=
  match s.entry? p with
  | some (.link _) =>
    .ok { s with entries := s.entries.erase p.location, mutations := s.mutations + 1 }
  | some (.file _) => .error .eperm
  | some (.dir _) => .error .eisdir
  | none => .error .enoent

/-- Removes a directory that a user made, with everything below it. -/
def removeDir (s : Surface) (p : Path) : Except Errno Surface :=
  match s.entry? p with
  | some (.dir .kernel) => .error .eperm
  | some (.dir .user) =>
    match s.removalFault? p.location with
    | some e => .error e
    | none =>
      .ok { s with
        entries := s.entries.prune p.location
        mutations := s.mutations + 1 }
  | some _ => .error .enotdir
  | none => .error .enoent

/-! ## When a call finds no fault -/

theorem parentFault?_eq_none_iff {s : Surface} {l : Location} :
    s.parentFault? l = none ↔ ∃ dir, l.parent? = some dir ∧ s.dirAt dir := by
  rw [parentFault?]
  cases l.parent? with
  | none => simp
  | some dir =>
    simp only [Option.some.injEq, exists_eq_left', dirAt]
    rcases s.entries.find? dir with _ | (_ | _ | _) <;> simp

/-- An entry can be made where no failure is marked, nothing is yet, and a directory can hold it. -/
theorem creationFault?_eq_none_iff {s : Surface} {l : Location} :
    s.creationFault? l = none ↔ s.failures.find? l = none ∧ s.entries.contains l = false ∧
      ∃ dir, l.parent? = some dir ∧ s.dirAt dir := by
  simp [creationFault?, parentFault?_eq_none_iff]

/-- A file can be written where no failure is marked, no directory is, and a directory can hold it. -/
theorem writeFault?_eq_none_iff {s : Surface} {l : Location} :
    s.writeFault? l = none ↔ s.failures.find? l = none ∧ s.dirAt l = false ∧
      ∃ dir, l.parent? = some dir ∧ s.dirAt dir := by
  simp [writeFault?, parentFault?_eq_none_iff, and_comm]

/-! ## What the calls change -/

theorem createDir_eq_ok_iff {s t : Surface} {p : Path} :
    s.createDir p = .ok t ↔ s.creationFault? p.location = none ∧
      t = { s with
        entries := addGroups p (s.groupsFor p.location) (s.entries.insert p (.dir .user))
        mutations := s.mutations + 1 } := by
  unfold createDir
  split <;> simp [*, eq_comm (a := t)]

theorem write_eq_ok_iff {s t : Surface} {p : Path} {data : Bytes} :
    s.write p data = .ok t ↔ s.writeFault? p.location = none ∧
      t = { s with entries := s.entries.insert p (.file data), mutations := s.mutations + 1 } := by
  unfold write
  split <;> simp [*, eq_comm (a := t)]

theorem createLink_eq_ok_iff {s t : Surface} {target p : Path} :
    s.createLink target p = .ok t ↔ s.creationFault? p.location = none ∧
      t = { s with entries := s.entries.insert p (.link target), mutations := s.mutations + 1 } := by
  unfold createLink
  split <;> simp [*, eq_comm (a := t)]

theorem removeLink_eq_ok_iff {s t : Surface} {p : Path} :
    s.removeLink p = .ok t ↔ (∃ target, s.entry? p = some (.link target)) ∧
      t = { s with entries := s.entries.erase p.location, mutations := s.mutations + 1 } := by
  unfold removeLink
  split <;> simp [*, eq_comm (a := t)]

theorem removeDir_eq_ok_iff {s t : Surface} {p : Path} :
    s.removeDir p = .ok t ↔ s.entry? p = some (.dir .user) ∧ s.removalFault? p.location = none ∧
      t = { s with
        entries := s.entries.prune p.location
        mutations := s.mutations + 1 } := by
  unfold removeDir
  split
  · simp_all
  · split <;> simp [*, eq_comm (a := t)]
  · simp_all
  · simp_all

theorem find?_addGroups (p : Path) (names : List String) (m : PathMap Entry) (l : Location) :
    (addGroups p names m).find? l =
      if ∃ name ∈ names, (p / name).location = l then some (.dir .kernel) else m.find? l := by
  induction names generalizing m with
  | nil => simp [addGroups]
  | cons name names ih =>
    have : addGroups p (name :: names) m =
        addGroups p names (m.insert (p / name) (.dir .kernel)) := rfl
    rw [this, ih, PathMap.find?_insert]
    by_cases h₁ : ∃ n ∈ names, (p / n).location = l <;>
      by_cases h₂ : (p / name).location = l <;> simp [h₁, h₂]

/-- A new directory comes with the default groups registered for its parent. -/
theorem find?_of_createDir {s t : Surface} {p : Path} (h : s.createDir p = .ok t) (l : Location) :
    t.entries.find? l =
      if ∃ name ∈ s.groupsFor p.location, (p / name).location = l then some (.dir .kernel)
      else if p.location = l then some (.dir .user)
      else s.entries.find? l := by
  obtain ⟨-, rfl⟩ := createDir_eq_ok_iff.1 h
  rw [find?_addGroups, PathMap.find?_insert]

theorem find?_of_write {s t : Surface} {p : Path} {data : Bytes} (h : s.write p data = .ok t)
    (l : Location) :
    t.entries.find? l = if p.location = l then some (.file data) else s.entries.find? l := by
  obtain ⟨-, rfl⟩ := write_eq_ok_iff.1 h
  exact PathMap.find?_insert ..

theorem find?_of_createLink {s t : Surface} {target p : Path} (h : s.createLink target p = .ok t)
    (l : Location) :
    t.entries.find? l = if p.location = l then some (.link target) else s.entries.find? l := by
  obtain ⟨-, rfl⟩ := createLink_eq_ok_iff.1 h
  exact PathMap.find?_insert ..

theorem find?_of_removeLink {s t : Surface} {p : Path} (h : s.removeLink p = .ok t) (l : Location) :
    t.entries.find? l = if l = p.location then none else s.entries.find? l := by
  obtain ⟨-, rfl⟩ := removeLink_eq_ok_iff.1 h
  exact PathMap.find?_erase ..

/-- A removed directory takes everything at or below it. -/
theorem find?_of_removeDir {s t : Surface} {p : Path} (h : s.removeDir p = .ok t) (l : Location) :
    t.entries.find? l = if l.within p.location then none else s.entries.find? l := by
  obtain ⟨-, -, rfl⟩ := removeDir_eq_ok_iff.1 h
  exact PathMap.find?_prune ..

end DisplayTopology.Surface
