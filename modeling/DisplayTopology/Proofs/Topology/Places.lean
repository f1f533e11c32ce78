import DisplayTopology.Proofs.Surface.Hierarchy
import DisplayTopology.Topology.Graph

/-!
# Where a topology keeps things

Every planned operation acts on one path: the directory of a resource, the file of an attribute, or
a link (`GraphOp.path`). Seen from the root of the topology these are plain names (`GraphOp.place`,
`Graph.location_path`), and the names of a resource tell its kind and index
(`NodeId.place_injective`). So each of them lies at or below the root (`Graph.within_nodePath` and
its like) and directly in a directory that is known (`Graph.parent?_nodePath` and its like).
-/

namespace DisplayTopology

/-! ## Names -/

namespace NodeId

theorem isName_name (node : NodeId) : Path.IsName node.name := by
  have hslash : '/' ∉ Nat.toDigits 10 node.index := fun h =>
    absurd (Nat.isDigit_of_mem_toDigits (by decide) (by decide) h) (by decide)
  rw [Path.isName_iff, toList_name]
  simp only [ne_eq, ← String.toList_inj, toList_name]
  cases node.kind <;> simp [ResourceKind.stem, hslash]

/-- The names that lead from the root of a topology to the directory of a resource. -/
def place (node : NodeId) : List String := [node.kind.group, node.name]

theorem group_injective {a b : ResourceKind} (h : a.group = b.group) : a = b := by
  cases a <;> cases b <;> first | rfl | exact absurd h (by decide)

/-- Resources of different kind or index lie in different places. -/
theorem place_injective {a b : NodeId} (h : a.place = b.place) : a = b := by
  obtain ⟨hkind, hname⟩ : a.kind.group = b.kind.group ∧ a.name = b.name := by simpa [place] using h
  obtain ⟨kind, i⟩ := a
  obtain ⟨kind', j⟩ := b
  obtain rfl : kind = kind' := group_injective hkind
  have hdigits : Nat.toDigits 10 i = Nat.toDigits 10 j := by
    have hlist := congrArg String.toList hname
    rw [toList_name, toList_name] at hlist
    exact List.append_cancel_left hlist
  have hij : i = j := by
    have hvalue := congrArg (fun cs => Nat.ofDigitChars 10 cs 0) hdigits
    simpa only [Nat.ofDigitChars_ten_toDigits] using hvalue
  rw [hij]

end NodeId

namespace GraphOp

/-- The resource that an operation is about; for a link, its source. -/
def subject : GraphOp → NodeId
  | createNode node => node
  | setStatus connector _ => .connector connector
  | setConnectorType connector _ => .connector connector
  | setEdid connector _ => .connector connector
  | setPlaneType plane _ => .plane plane
  | setPlaneFormat plane => .plane plane
  | link src _ => src

/-- The names that lead from the directory of its resource to what an operation makes or writes. -/
def suffix : GraphOp → List String
  | createNode _ => []
  | setStatus _ _ => ["status"]
  | setConnectorType _ _ => ["type"]
  | setEdid _ _ => ["edid"]
  | setPlaneType _ _ => ["type"]
  | setPlaneFormat _ => ["supported_formats"]
  | link _ dst => [dst.kind.linkGroup, dst.name]

/-- The names that lead from the root of a topology to what an operation makes or writes. -/
def place (op : GraphOp) : List String := op.subject.place ++ op.suffix

/-- The path that an operation makes or writes. -/
def path (root : Path) : GraphOp → Path
  | createNode node => Graph.nodePath root node
  | setStatus connector _ => Graph.attrPath root (.connector connector) "status"
  | setConnectorType connector _ => Graph.attrPath root (.connector connector) "type"
  | setEdid connector _ => Graph.attrPath root (.connector connector) "edid"
  | setPlaneType plane _ => Graph.attrPath root (.plane plane) "type"
  | setPlaneFormat plane => Graph.attrPath root (.plane plane) "supported_formats"
  | link src dst => Graph.linkPath root src dst

/-- What an operation asks of the surface. -/
def task : GraphOp → SurfaceTask
  | createNode _ => .create
  | link _ _ => .link
  | _ => .write

end GraphOp

namespace ResourceKind

theorem isName_group (kind : ResourceKind) : Path.IsName kind.group := by cases kind <;> decide

theorem isName_linkGroup (kind : ResourceKind) : Path.IsName kind.linkGroup := by
  cases kind <;> decide

theorem linkGroup_injective {a b : ResourceKind} (h : a.linkGroup = b.linkGroup) : a = b := by
  cases a <;> cases b <;> first | rfl | exact absurd h (by decide)

end ResourceKind

/-- A target is told by the directory that a link to it lies in and by the name of the link. -/
theorem NodeId.eq_of_linkGroup_of_name {a b : NodeId} (hgroup : a.kind.linkGroup = b.kind.linkGroup)
    (hname : a.name = b.name) : a = b :=
  place_injective (by rw [place, place, ResourceKind.linkGroup_injective hgroup, hname])

/-! ## Locations -/

namespace Graph

variable (root : Path) (node src dst : NodeId) (kind : ResourceKind)

theorem location_nodePath :
    (nodePath root node).location = root.location ++ [.named node.kind.group, .named node.name] := by
  have hrel : node.relativePath.location = [.named node.kind.group, .named node.name] := by
    rw [NodeId.relativePath, Path.location_child _ node.isName_name,
      Path.location_of_isName node.kind.isName_group]
    rfl
  have habs : node.relativePath.isAbsolute = false := by
    rw [Path.isAbsolute, hrel]
    rfl
  rw [nodePath, Path.location_join habs, Path.added, hrel]
  split <;> rfl

theorem location_attrPath {attr : String} (h : Path.IsName attr) :
    (attrPath root node attr).location =
      root.location ++ [.named node.kind.group, .named node.name, .named attr] := by
  rw [attrPath, Path.location_child _ h, location_nodePath]
  simp

theorem location_linkDir :
    (linkDir root src kind).location =
      root.location ++ [.named src.kind.group, .named src.name, .named kind.linkGroup] := by
  rw [linkDir, Path.location_child _ kind.isName_linkGroup, location_nodePath]
  simp

theorem location_linkPath :
    (linkPath root src dst).location = root.location ++
      [.named src.kind.group, .named src.name, .named dst.kind.linkGroup, .named dst.name] := by
  rw [linkPath, Path.location_child _ dst.isName_name, location_linkDir]
  simp

theorem location_enabledPath :
    (enabledPath root).location = root.location ++ [.named "enabled"] :=
  root.location_child (by decide)

theorem location_groupPath :
    (root / kind.group).location = root.location ++ [.named kind.group] :=
  root.location_child kind.isName_group

/-- An operation's path leads on from the root by plain names. -/
theorem location_path (op : GraphOp) :
    (op.path root).location = root.location ++ op.place.map .named := by
  cases op with
  | createNode node => exact location_nodePath root node
  | link src dst => exact location_linkPath root src dst
  | setStatus | setConnectorType | setEdid | setPlaneType | setPlaneFormat =>
    exact location_attrPath root _ (by decide)

theorem length_nodePath : (nodePath root node).location.length = root.location.length + 2 := by
  simp [location_nodePath]

/-! ## At or below the root -/

theorem within_nodePath : (nodePath root node).location.within root.location := by
  rw [location_nodePath]
  exact Location.within_append ..

theorem within_attrPath {attr : String} (h : Path.IsName attr) :
    (attrPath root node attr).location.within root.location := by
  rw [location_attrPath root node h]
  exact Location.within_append ..

theorem within_linkDir : (linkDir root src kind).location.within root.location := by
  rw [location_linkDir]
  exact Location.within_append ..

theorem within_linkPath : (linkPath root src dst).location.within root.location := by
  rw [location_linkPath]
  exact Location.within_append ..

theorem within_enabledPath : (enabledPath root).location.within root.location := by
  rw [location_enabledPath]
  exact Location.within_append ..

/-! ## Directories that hold them -/

open Surface (parent?_append_named)

theorem parent?_groupPath : (root / kind.group).location.parent? = some root.location := by
  rw [location_groupPath, parent?_append_named]

theorem parent?_enabledPath : (enabledPath root).location.parent? = some root.location := by
  rw [location_enabledPath, parent?_append_named]

theorem parent?_nodePath :
    (nodePath root node).location.parent? = some (root / node.kind.group).location := by
  rw [location_nodePath, List.append_cons, parent?_append_named, location_groupPath]

theorem parent?_attrPath {attr : String} (h : Path.IsName attr) :
    (attrPath root node attr).location.parent? = some (nodePath root node).location := by
  rw [attrPath, Path.location_child _ h, parent?_append_named]

theorem parent?_linkDir :
    (linkDir root src kind).location.parent? = some (nodePath root src).location := by
  rw [linkDir, Path.location_child _ kind.isName_linkGroup, parent?_append_named]

theorem parent?_linkPath :
    (linkPath root src dst).location.parent? = some (linkDir root src dst.kind).location := by
  rw [linkPath, Path.location_child _ dst.isName_name, parent?_append_named]

end Graph

end DisplayTopology
