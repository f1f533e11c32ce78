import DisplayTopology.Path.Basic
import DisplayTopology.Text.Numeral

/-!
# Resource nodes

A display is driven by resources of four kinds: connectors, CRTCs, encoders and planes. A resource
node is a kind and an index; its directory is named by both and lies in the group of its kind.
Encoders and planes route to CRTCs and connectors to encoders; the links of a node to targets of
one kind lie in a directory of its own that is named after the targets' group.
-/

namespace DisplayTopology

/-- The kinds of resources. -/
inductive ResourceKind where
  | connector
  | crtc
  | encoder
  | plane
  deriving DecidableEq

/-- What the names of directories with routing links begin with. -/
def linkGroupMark : String := "possible_"

namespace ResourceKind

/-- Every kind, in order. -/
def all : List ResourceKind := [connector, crtc, encoder, plane]

/-- The name of a kind. -/
def name : ResourceKind → String
  | connector => "Connector"
  | crtc => "Crtc"
  | encoder => "Encoder"
  | plane => "Plane"

/-- The place of a kind among the kinds. -/
def rank : ResourceKind → Nat
  | connector => 0
  | crtc => 1
  | encoder => 2
  | plane => 3

/-- The directory that holds all resources of a kind. -/
def group : ResourceKind → String
  | connector => "connectors"
  | crtc => "crtcs"
  | encoder => "encoders"
  | plane => "planes"

/-- What the directory names of resources of a kind begin with. -/
def stem : ResourceKind → String
  | connector => "CONNECTOR_"
  | crtc => "CRTC_"
  | encoder => "ENCODER_"
  | plane => "PLANE_"

/-- The directory inside a source that holds its links to resources of a kind. -/
def linkGroup (kind : ResourceKind) : String := linkGroupMark ++ kind.group

/-- Whether resources of the first kind route to resources of the second. -/
def routesTo : ResourceKind → ResourceKind → Bool
  | encoder, crtc => true
  | connector, encoder => true
  | plane, crtc => true
  | _, _ => false

theorem mem_all (kind : ResourceKind) : kind ∈ all := by cases kind <;> decide

end ResourceKind

/-- A resource: its kind, and its index among the resources of that kind. -/
structure NodeId where
  kind : ResourceKind
  index : Nat
  deriving DecidableEq

namespace NodeId

/-- The connector of this index. -/
def connector (index : Nat) : NodeId := ⟨.connector, index⟩

/-- The CRTC of this index. -/
def crtc (index : Nat) : NodeId := ⟨.crtc, index⟩

/-- The encoder of this index. -/
def encoder (index : Nat) : NodeId := ⟨.encoder, index⟩

/-- The plane of this index. -/
def plane (index : Nat) : NodeId := ⟨.plane, index⟩

/-- The name of a node's directory. -/
def name (node : NodeId) : String := node.kind.stem ++ toString node.index

/-- The path of a node's directory from the root of its topology. -/
def relativePath (node : NodeId) : Path := Path.ofText node.kind.group / node.name

/-- Nodes are ordered by kind, then by index. -/
instance : Ord NodeId := ⟨compareLex (compareOn fun node => node.kind.rank) (compareOn index)⟩

instance : Std.TransOrd NodeId :=
  inferInstanceAs (Std.TransCmp (compareLex (compareOn fun node => node.kind.rank) (compareOn index)))

instance : Std.LawfulEqOrd NodeId where
  eq_of_compare {a b} h := by
    obtain ⟨hk, hi⟩ := Ordering.then_eq_eq.1 h
    have hk : a.kind.rank = b.kind.rank := Std.LawfulEqOrd.eq_of_compare hk
    have hi : a.index = b.index := Std.LawfulEqOrd.eq_of_compare hi
    obtain ⟨ka, ia⟩ := a
    obtain ⟨kb, ib⟩ := b
    cases ka <;> cases kb <;> simp_all [ResourceKind.rank]

/-- Nodes in order; equal ones keep their places. -/
def sort (nodes : List NodeId) : List NodeId := nodes.mergeSort fun a b => (compare a b).isLE

/-- The node whose directory has this name. -/
def ofName? (name : String) : Option NodeId :=
  ResourceKind.all.findSome? fun kind =>
    if kind.stem.toList.isPrefixOf name.toList then
      (Text.numeral? Text.wordLimit64 (name.toList.drop kind.stem.toList.length)).map (NodeId.mk kind)
    else none

theorem toList_name (node : NodeId) :
    node.name.toList = node.kind.stem.toList ++ Nat.toDigits 10 node.index := by
  rw [name, String.toList_append, Nat.toString_eq_repr, Nat.toList_repr]

/-- A node of 64-bit index is found by its name. -/
theorem ofName?_name {node : NodeId} (h : node.index < Text.wordLimit64) :
    ofName? node.name = some node := by
  obtain ⟨kind, index⟩ := node
  cases kind <;>
    simp [ofName?, ResourceKind.all, List.findSome?, toList_name, ResourceKind.stem,
      Text.numeral?_toDigits h]

end NodeId

end DisplayTopology
