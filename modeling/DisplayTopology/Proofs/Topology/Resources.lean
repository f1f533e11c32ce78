import DisplayTopology.Proofs.Topology.Places
import DisplayTopology.Topology.Build

/-!
# The resources of displays

The displays of a topology call for resources: each a node, the attributes that are written to it,
and the node it routes to (`Resource`). They are listed display by display, with planes numbered
through (`Resource.displays`). The places of their operations are all different
(`Resource.pairwise_place`).
-/

namespace DisplayTopology

/-- A node, the operations that write its attributes, and the node that it routes to. -/
structure Resource where
  node : NodeId
  settings : List GraphOp
  target : Option NodeId

namespace Resource

/-- The operations that make a resource: its node first, then its attributes, then its route. -/
def ops (r : Resource) : List GraphOp :=
  .createNode r.node :: (r.settings ++ (r.target.map (.link r.node)).toList)

/-- The CRTC of a display. -/
def crtc (index : Nat) : Resource := ⟨.crtc index, [], none⟩

/-- The encoder of a display, which routes to its CRTC. -/
def encoder (index : Nat) : Resource := ⟨.encoder index, [], some (.crtc index)⟩

/-- The connector of a display, which routes to its encoder. -/
def connector (index : Nat) (spec : Option ConnectorSpec) : Resource where
  node := .connector index
  settings :=
    [.setStatus index (.ofEnabled (Plan.startEnabled spec)),
      .setConnectorType index (Plan.connectorType index spec)] ++
    ((spec.bind ConnectorSpec.monitor).map (.setEdid index)).toList
  target := some (.encoder index)

/-- A plane, which routes to the CRTC of its display. -/
def plane (index : Nat) (type : PlaneType) (crtc : Nat) : Resource :=
  ⟨.plane index, [.setPlaneType index type, .setPlaneFormat index], some (.crtc crtc)⟩

/-- Planes of a display, whose types go by their positions, counted from `position`. -/
def planes (crtc position : Nat) (indices : List Nat) : List Resource :=
  (indices.zipIdx position).map fun slot => plane slot.1 (.atPosition slot.2) crtc

/-- The resources of a display with planes numbered from `first`. -/
def display (index : Nat) (spec : Option ConnectorSpec) (first : Nat) : List Resource :=
  [crtc index, encoder index, connector index spec] ++
    planes index 0 (List.range' first (Plan.planesOf spec))

/-- The resources of displays numbered from `index`, with planes numbered from `first`. -/
def displays (index first : Nat) : List (Option ConnectorSpec) → List Resource
  | [] => []
  | spec :: specs =>
    display index spec first ++ displays (index + 1) (first + Plan.planesOf spec) specs

/-- The planes of each display, numbered from `first`. -/
def ranges (first : Nat) : List (Option ConnectorSpec) → List PlaneRange
  | [] => []
  | spec :: specs => ⟨first, first + Plan.planesOf spec⟩ :: ranges (first + Plan.planesOf spec) specs

/-- The first plane of the display at an index: it comes after the planes of all displays before. -/
def firstPlane : List (Option ConnectorSpec) → Nat → Nat
  | spec :: specs, index + 1 => Plan.planesOf spec + firstPlane specs index
  | _, _ => 0

theorem length_ranges (first : Nat) (specs : List (Option ConnectorSpec)) :
    (ranges first specs).length = specs.length := by
  induction specs generalizing first with
  | nil => rfl
  | cons spec specs ih => rw [ranges, List.length_cons, ih, List.length_cons]

@[simp] theorem planes_cons (crtc position index : Nat) (indices : List Nat) :
    planes crtc position (index :: indices) =
      plane index (.atPosition position) crtc :: planes crtc (position + 1) indices := by
  simp [planes]

/-! ## Which resources there are -/

/-- The planes of a display are numbered on from its first one. -/
theorem mem_planes_iff {r : Resource} {crtc first count : Nat} :
    r ∈ planes crtc 0 (List.range' first count) ↔
      ∃ k < count, r = plane (first + k) (.atPosition k) crtc := by
  simp only [planes, List.mem_map, List.mem_zipIdx_iff_getElem?, Prod.exists]
  constructor
  · rintro ⟨index, k, hk, rfl⟩
    have hlt : k < count := by
      have hlen := (List.getElem?_eq_some_iff.1 hk).1
      simpa using hlen
    rw [List.getElem?_range' hlt, Nat.one_mul] at hk
    exact ⟨k, hlt, by rw [Option.some.inj hk]⟩
  · rintro ⟨k, hk, rfl⟩
    exact ⟨first + k, k, by rw [List.getElem?_range' hk, Nat.one_mul], rfl⟩

theorem mem_display_iff {r : Resource} {index first : Nat} {spec : Option ConnectorSpec} :
    r ∈ display index spec first ↔ r = crtc index ∨ r = encoder index ∨ r = connector index spec ∨
      ∃ k < Plan.planesOf spec, r = plane (first + k) (.atPosition k) index := by
  rw [display, List.mem_append, mem_planes_iff]
  simp [or_assoc]

theorem mem_displays_iff {r : Resource} {index first : Nat} {specs : List (Option ConnectorSpec)} :
    r ∈ displays index first specs ↔ ∃ i spec, specs[i]? = some spec ∧
      r ∈ display (index + i) spec (first + firstPlane specs i) := by
  induction specs generalizing index first with
  | nil => simp [displays]
  | cons head specs ih =>
    rw [displays, List.mem_append, ih]
    constructor
    · rintro (hr | ⟨i, spec, hs, hr⟩)
      · exact ⟨0, head, rfl, by simpa [firstPlane] using hr⟩
      · refine ⟨i + 1, spec, by simpa using hs, ?_⟩
        have hi : index + 1 + i = index + (i + 1) := by omega
        have hf : first + Plan.planesOf head + firstPlane specs i =
            first + firstPlane (head :: specs) (i + 1) := by
          simp [firstPlane, Nat.add_assoc]
        rw [← hi, ← hf]
        exact hr
    · rintro ⟨i, spec, hs, hr⟩
      cases i with
      | zero =>
        obtain rfl : head = spec := by simpa using hs
        exact .inl (by simpa [firstPlane] using hr)
      | succ i =>
        refine .inr ⟨i, spec, by simpa using hs, ?_⟩
        have hi : index + 1 + i = index + (i + 1) := by omega
        have hf : first + Plan.planesOf head + firstPlane specs i =
            first + firstPlane (head :: specs) (i + 1) := by
          simp [firstPlane, Nat.add_assoc]
        rw [hi, hf]
        exact hr

/-! ## Resources have different nodes -/

theorem map_node_planes (crtc position : Nat) (indices : List Nat) :
    (planes crtc position indices).map node = indices.map NodeId.plane := by
  induction indices generalizing position with
  | nil => rfl
  | cons index indices ih => rw [planes_cons, List.map_cons, List.map_cons, ih]; rfl

theorem nodup_display (index first : Nat) (spec : Option ConnectorSpec) :
    ((display index spec first).map node).Nodup := by
  have hplanes : ((List.range' first (Plan.planesOf spec)).map NodeId.plane).Nodup := by
    have hrange : (List.range' first (Plan.planesOf spec)).Nodup := List.nodup_range'
    refine List.pairwise_map.2 (hrange.imp fun hne heq => hne ?_)
    exact (NodeId.mk.inj heq).2
  rw [display, List.map_append, map_node_planes, List.nodup_append]
  refine ⟨by simp [crtc, encoder, connector, NodeId.crtc, NodeId.encoder, NodeId.connector],
    hplanes, ?_⟩
  intro a ha b hb heq
  obtain ⟨k, -, rfl⟩ := List.mem_map.1 hb
  simp [crtc, encoder, connector, NodeId.crtc, NodeId.encoder, NodeId.connector, NodeId.plane,
    heq] at ha

/-- The nodes of a display bear its index, or number its planes. -/
theorem node_of_mem_display {r : Resource} {index first : Nat} {spec : Option ConnectorSpec}
    (h : r ∈ display index spec first) :
    r.node.kind ≠ .plane ∧ r.node.index = index ∨
      r.node.kind = .plane ∧ first ≤ r.node.index ∧
        r.node.index < first + Plan.planesOf spec := by
  rcases mem_display_iff.1 h with rfl | rfl | rfl | ⟨k, hk, rfl⟩
  · exact .inl ⟨by simp [crtc, NodeId.crtc], rfl⟩
  · exact .inl ⟨by simp [encoder, NodeId.encoder], rfl⟩
  · exact .inl ⟨by simp [connector, NodeId.connector], rfl⟩
  · refine .inr ⟨rfl, ?_, ?_⟩
    · exact Nat.le_add_right first k
    · exact Nat.add_lt_add_left hk first

theorem node_of_mem_displays {r : Resource} {index first : Nat} {specs : List (Option ConnectorSpec)}
    (h : r ∈ displays index first specs) :
    r.node.kind ≠ .plane ∧ index ≤ r.node.index ∨
      r.node.kind = .plane ∧ first ≤ r.node.index := by
  obtain ⟨i, spec, -, hr⟩ := mem_displays_iff.1 h
  rcases node_of_mem_display hr with ⟨hkind, hindex⟩ | ⟨hkind, hfirst, -⟩
  · exact .inl ⟨hkind, by omega⟩
  · exact .inr ⟨hkind, by omega⟩

/-- No node is made for two resources. -/
theorem nodup_displays (index first : Nat) (specs : List (Option ConnectorSpec)) :
    ((displays index first specs).map node).Nodup := by
  induction specs generalizing index first with
  | nil => simp [displays]
  | cons spec specs ih =>
    rw [displays, List.map_append, List.nodup_append]
    refine ⟨nodup_display index first spec, ih _ _, fun a ha b hb heq => ?_⟩
    obtain ⟨r, hr, rfl⟩ := List.mem_map.1 ha
    obtain ⟨r', hr', rfl⟩ := List.mem_map.1 hb
    have hnode := node_of_mem_display hr
    have hnode' := node_of_mem_displays hr'
    rw [← heq] at hnode'
    rcases hnode with ⟨hkind, hindex⟩ | ⟨hkind, -, hlt⟩
    · rcases hnode' with ⟨-, hle⟩ | ⟨hplane, -⟩
      · omega
      · exact hkind hplane
    · rcases hnode' with ⟨hother, -⟩ | ⟨-, hle⟩
      · exact hother hkind
      · omega

/-! ## Operations have different places -/

/-- The operations of a resource of a display are about its node. -/
theorem subject_of_mem_ops {r : Resource} {index first : Nat} {spec : Option ConnectorSpec}
    (h : r ∈ display index spec first) {op : GraphOp} (hop : op ∈ r.ops) : op.subject = r.node := by
  rcases mem_display_iff.1 h with rfl | rfl | rfl | ⟨k, hk, rfl⟩
  · simp only [crtc, ops, List.nil_append, Option.map_none, Option.toList_none,
      List.mem_singleton] at hop
    rw [hop]
    rfl
  · simp only [encoder, ops, List.nil_append, Option.map_some, Option.toList_some, List.mem_cons,
      List.not_mem_nil, or_false] at hop
    rcases hop with rfl | rfl <;> rfl
  · cases hm : spec.bind ConnectorSpec.monitor <;>
      simp [connector, ops, hm] at hop <;> rcases hop with rfl | rfl | rfl | hop <;> try rfl
    · rw [hop]
      rfl
    · rcases hop with rfl | rfl <;> rfl
  · simp only [plane, ops, Option.map_some, Option.toList_some, List.cons_append, List.nil_append,
      List.mem_cons, List.not_mem_nil, or_false] at hop
    rcases hop with rfl | rfl | rfl | rfl <;> rfl

/-- The operations of a resource act in different places. -/
theorem pairwise_suffix {r : Resource} {index first : Nat} {spec : Option ConnectorSpec}
    (h : r ∈ display index spec first) : r.ops.Pairwise fun a b => a.suffix ≠ b.suffix := by
  rcases mem_display_iff.1 h with rfl | rfl | rfl | ⟨k, hk, rfl⟩
  · simp [crtc, ops]
  · simp [encoder, ops, GraphOp.suffix]
  · cases hm : spec.bind ConnectorSpec.monitor <;> simp [connector, ops, hm, GraphOp.suffix]
  · simp [plane, ops, GraphOp.suffix]

theorem place_inj {a b : GraphOp} (h : a.place = b.place) :
    a.subject = b.subject ∧ a.suffix = b.suffix := by
  obtain ⟨hsubject, hsuffix⟩ := List.append_inj h (by simp [NodeId.place])
  exact ⟨NodeId.place_injective hsubject, hsuffix⟩

/-- **Places.** The operations for displays act in different places. -/
theorem pairwise_place (index first : Nat) (specs : List (Option ConnectorSpec)) :
    ((displays index first specs).flatMap ops).Pairwise fun a b => a.place ≠ b.place := by
  have hmem {r : Resource} (hr : r ∈ displays index first specs) :
      ∃ i spec first, r ∈ display i spec first := by
    obtain ⟨i, spec, -, hd⟩ := mem_displays_iff.1 hr
    exact ⟨_, _, _, hd⟩
  rw [List.pairwise_flatMap]
  refine ⟨fun r hr => ?_, ?_⟩
  · obtain ⟨i, spec, first, hd⟩ := hmem hr
    exact (pairwise_suffix hd).imp fun hne heq => hne (place_inj heq).2
  · have hnodes := List.pairwise_map.1 (nodup_displays index first specs)
    refine hnodes.imp_of_mem fun hr hr' hne a ha b hb heq => hne ?_
    obtain ⟨i, spec, first, hd⟩ := hmem hr
    obtain ⟨j, spec', first', hd'⟩ := hmem hr'
    rw [← subject_of_mem_ops hd ha, ← subject_of_mem_ops hd' hb, (place_inj heq).1]

end Resource

end DisplayTopology
