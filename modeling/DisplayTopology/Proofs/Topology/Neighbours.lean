import DisplayTopology.Proofs.Surface.Locality
import DisplayTopology.Proofs.Topology.Raised

/-!
# Resources side by side

The directories of all resources lie two steps below the root, and the two names tell the resource,
so those of different resources are separate (`separate_nodePath`): where the name of one begins with
the name of another, as with the indices 1 and 10, it is still another name. Attribute files and
links lie below the directory of their resource (`Owns.below`). So they are never where another
resource keeps anything, where any resource has its directory, or where the topology is switched on
(`resources_apart`). Links are found by the mark at the front of a directory's name, and no group and
no resource bears that mark (`clear_nodePath`).
-/

namespace DisplayTopology.Graph

open Location Teardown

/-- The names of the files that hold the attributes of resources. -/
def attributes : List String := ["status", "type", "edid", "supported_formats"]

/-- The paths of a resource beside its directory: the files of its attributes and its links. -/
inductive Owns (root : Path) (node : NodeId) : Path → Prop where
  | attr {name : String} (h : name ∈ attributes) : Owns root node (attrPath root node name)
  | link (dst : NodeId) : Owns root node (linkPath root node dst)

/-- Two resources have no place in common, and neither lies in the other. -/
structure Apart (root : Path) (a b : NodeId) : Prop where
  nodes : Separate (nodePath root a).location (nodePath root b).location
  owned : ∀ p q, Owns root a p → Owns root b q → p.location ≠ q.location

/-- What a resource owns lies neither at the switch nor at a directory of any resource, its links
lie in different places, and its directories for links are the first with the mark of such
directories on the way down from the root. -/
structure WellPlaced (root : Path) (node : NodeId) : Prop where
  ne_enabled : ∀ p, Owns root node p → p.location ≠ (enabledPath root).location
  ne_node : ∀ p other, Owns root node p → p.location ≠ (nodePath root other).location
  ne_link : ∀ dst other, dst ≠ other →
    (linkPath root node dst).location ≠ (linkPath root node other).location
  unmarked : ∀ kind l, l.below root.location → (linkDir root node kind).location.below l →
    ¬IsLinkDir l

variable {root p q : Path} {node a b : NodeId}

theorem isName_of_mem_attributes {name : String} (h : name ∈ attributes) : Path.IsName name := by
  have hall : ∀ name ∈ attributes, Path.IsName name := by decide
  exact hall name h

/-- What a resource owns lies below its directory. -/
theorem Owns.below (h : Owns root node p) : p.location.below (nodePath root node).location := by
  cases h with
  | attr h => exact below_of_parent? (parent?_attrPath root node (isName_of_mem_attributes h))
  | link dst =>
    exact below_of_within_of_below (within_of_parent? (parent?_linkPath root node dst))
      (below_of_parent? (parent?_linkDir root node dst.kind))

/-- The directories of different resources are separate. -/
theorem separate_nodePath (root : Path) (h : a ≠ b) :
    Separate (nodePath root a).location (nodePath root b).location := by
  refine separate_of_length_eq (by rw [length_nodePath, length_nodePath]) fun heq => h ?_
  rw [location_nodePath, location_nodePath] at heq
  exact NodeId.place_injective (by simpa [NodeId.place] using List.append_cancel_left heq)

theorem apart (root : Path) (h : a ≠ b) : Apart root a b where
  nodes := separate_nodePath root h
  owned p q hp hq heq := by
    have hout := (separate_nodePath root h).outside (within_of_below hp.below)
    rw [heq, within_of_below hq.below] at hout
    contradiction

/-- The links from a resource to different targets lie in different places. -/
theorem location_linkPath_inj {dst other : NodeId}
    (h : (linkPath root node dst).location = (linkPath root node other).location) : dst = other := by
  rw [location_linkPath, location_linkPath] at h
  obtain ⟨hgroup, hname⟩ : dst.kind.linkGroup = other.kind.linkGroup ∧ dst.name = other.name := by
    simpa using List.append_cancel_left h
  exact NodeId.eq_of_linkGroup_of_name hgroup hname

theorem wellPlaced (root : Path) (node : NodeId) : WellPlaced root node where
  ne_enabled p hp heq := by
    have hlt := length_lt_of_below hp.below
    rw [heq, length_nodePath, location_enabledPath, List.length_append, List.length_singleton] at hlt
    omega
  ne_node p other hp heq := by
    have hlt := length_lt_of_below hp.below
    rw [heq, length_nodePath, length_nodePath] at hlt
    omega
  ne_link _ _ hne heq := hne (location_linkPath_inj heq)
  unmarked kind := (clear_nodePath root node).above (parent?_linkDir root node kind)

/-- **Resources lie side by side** and never collide, whatever the root and their indices. -/
theorem resources_apart (root : Path) :
    (∀ a b, a ≠ b → Apart root a b) ∧ (∀ node, WellPlaced root node) ∧
      (∀ node : NodeId, isLinkDirName node.name = false) ∧
      ∀ kind : ResourceKind, isLinkDirName kind.group = false :=
  ⟨fun _ _ => apart root, wellPlaced root, isLinkDirName_name, isLinkDirName_group⟩

/-- The text of one path begins with the other, and yet neither resource lies in the other. -/
theorem resources_apart_sharedBeginning :
    NodeId.crtc 1 ≠ .crtc 10 ∧
      (nodePath (.ofText "c//..") (.crtc 1)).text.toList <+:
        (nodePath (.ofText "c//..") (.crtc 10)).text.toList ∧
      Apart (.ofText "c//..") (.crtc 1) (.crtc 10) := by
  have hne : NodeId.crtc 1 ≠ .crtc 10 := by decide
  exact ⟨hne, by decide +kernel, (resources_apart (.ofText "c//..")).1 _ _ hne⟩

end DisplayTopology.Graph
