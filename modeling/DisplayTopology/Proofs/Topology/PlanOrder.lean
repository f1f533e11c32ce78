import DisplayTopology.Proofs.Topology.PlanContents
import Mathlib.Algebra.GroupWithZero.Nat
import Mathlib.Data.List.Basic

/-!
# The order of a built plan

The operations of a built plan fall into groups, one for each resource: its node is made first, its
attributes are written next, and its route is laid last (`Plan.opsAbout`). The resources have
different nodes, so the operations about a node are those of its resource and no others
(`Resource.filter_subject`). Planes are numbered through, display by display, so the planes of the
displays are consecutive ranges (`Resource.filter_plane`). Together these say all there is to say of
a built plan (`Plan.build_wellOrdered`).
-/

namespace DisplayTopology

namespace Resource

variable {r : Resource} {rs : List Resource} {specs : List (Option ConnectorSpec)}
  {index first i : Nat} {spec : Option ConnectorSpec}

/-! ## Nodes -/

/-- A resource makes its node and no other. -/
theorem filterMap_created_ops (h : ∀ op ∈ r.settings, op.created? = none) :
    r.ops.filterMap GraphOp.created? = [r.node] := by
  have hsettings : r.settings.filterMap GraphOp.created? = [] := List.filterMap_eq_nil_iff.2 h
  have hroute : ((r.target.map (.link r.node)).toList).filterMap GraphOp.created? = [] := by
    cases r.target <;> simp [GraphOp.created?]
  have hnode : (GraphOp.createNode r.node).created? = some r.node := rfl
  rw [ops, List.filterMap_cons_some hnode, List.filterMap_append, hsettings, hroute,
    List.append_nil]

theorem created?_of_mem_settings (h : r ∈ display index spec first) {op : GraphOp}
    (hop : op ∈ r.settings) : op.created? = none := by
  rcases mem_display_iff.1 h with rfl | rfl | rfl | ⟨k, hk, rfl⟩
  · simp [crtc] at hop
  · simp [encoder] at hop
  · cases hm : spec.bind ConnectorSpec.monitor <;> simp [connector, hm] at hop
    · rcases hop with rfl | rfl <;> rfl
    · rcases hop with rfl | rfl | rfl <;> rfl
  · simp [plane] at hop
    rcases hop with rfl | rfl <;> rfl

theorem exists_display_of_mem (h : r ∈ displays index first specs) :
    ∃ i spec first, r ∈ display i spec first := by
  obtain ⟨i, spec, -, hd⟩ := mem_displays_iff.1 h
  exact ⟨_, _, _, hd⟩

/-- The nodes that the operations for displays make are those of their resources, in order. -/
theorem filterMap_created_displays (index first : Nat) (specs : List (Option ConnectorSpec)) :
    ((displays index first specs).flatMap ops).filterMap GraphOp.created? =
      (displays index first specs).map node := by
  have hops : ∀ r ∈ displays index first specs, r.ops.filterMap GraphOp.created? = [r.node] := by
    intro r hr
    obtain ⟨i, spec, first, hd⟩ := exists_display_of_mem hr
    exact filterMap_created_ops fun op hop => created?_of_mem_settings hd hop
  rw [List.filterMap_flatMap, List.flatMap_congr hops, ← List.map_eq_flatMap]

/-- The planes of displays are numbered through. -/
theorem filter_plane (index first : Nat) (specs : List (Option ConnectorSpec)) :
    ((displays index first specs).map node).filter (fun node => node.kind = .plane) =
      (List.range' first (specs.map Plan.planesOf).sum).map NodeId.plane := by
  induction specs generalizing index first with
  | nil => rfl
  | cons spec specs ih =>
    have hplanes : ((List.range' first (Plan.planesOf spec)).map NodeId.plane).filter
        (fun node => node.kind = .plane) =
          (List.range' first (Plan.planesOf spec)).map NodeId.plane :=
      List.filter_eq_self.2 fun node hnode => by
        obtain ⟨k, -, rfl⟩ := List.mem_map.1 hnode
        rfl
    have hrest : ([crtc index, encoder index, connector index spec].map node).filter
        (fun node => node.kind = .plane) = [] := rfl
    rw [displays, List.map_append, List.filter_append, ih, display, List.map_append,
      map_node_planes, List.filter_append, hplanes, hrest, List.nil_append, List.map_cons,
      List.sum_cons, ← List.range'_append_1, List.map_append]

/-- The nodes of displays: three for each display, and the planes of all of them. -/
theorem mem_map_node_displays_iff {node : NodeId} :
    node ∈ (displays 0 0 specs).map Resource.node ↔
      node.kind ≠ .plane ∧ node.index < specs.length ∨
        node.kind = .plane ∧ node.index < (specs.map Plan.planesOf).sum := by
  by_cases hkind : node.kind = .plane
  · have hmem : node ∈ (displays 0 0 specs).map Resource.node ↔
        node ∈ ((displays 0 0 specs).map Resource.node).filter fun node => node.kind = .plane := by
      simp only [List.mem_filter, hkind, decide_true, and_true]
    obtain ⟨kind, index⟩ := node
    obtain rfl : kind = .plane := hkind
    rw [hmem, filter_plane]
    simp [NodeId.plane]
  · simp only [hkind, ne_eq, not_false_eq_true, true_and, false_and, or_false]
    constructor
    · intro hmem
      obtain ⟨r, hr, rfl⟩ := List.mem_map.1 hmem
      obtain ⟨i, spec, hspec, hd⟩ := mem_displays_iff.1 hr
      have hi := (List.getElem?_eq_some_iff.1 hspec).1
      rcases node_of_mem_display hd with ⟨-, hindex⟩ | ⟨hplane, -⟩
      · omega
      · exact absurd hplane hkind
    · intro hi
      have hmem {r : Resource} (hr : r ∈ display node.index specs[node.index]
          (firstPlane specs node.index)) (hnode : r.node = node) :
          node ∈ (displays 0 0 specs).map Resource.node := by
        refine List.mem_map.2 ⟨r, mem_displays_iff.2 ⟨node.index, specs[node.index], ?_, ?_⟩, hnode⟩
        · exact List.getElem?_eq_getElem hi
        · rwa [Nat.zero_add, Nat.zero_add]
      obtain ⟨kind, index⟩ := node
      cases kind with
      | plane => exact absurd rfl hkind
      | crtc => exact hmem (mem_display_iff.2 (.inl rfl)) rfl
      | encoder => exact hmem (mem_display_iff.2 (.inr (.inl rfl))) rfl
      | connector => exact hmem (mem_display_iff.2 (.inr (.inr (.inl rfl)))) rfl

/-! ## Operations about a node -/

/-- Among the operations of resources with different nodes, those about a node are those of its
resource. -/
theorem filter_subject (hsubject : ∀ r ∈ rs, ∀ op ∈ r.ops, op.subject = r.node)
    (hnodes : (rs.map node).Nodup) (hr : r ∈ rs) :
    (rs.flatMap ops).filter (fun op => op.subject = r.node) = r.ops := by
  have hnone {r' : Resource} (hr' : ∀ op ∈ r'.ops, op.subject = r'.node)
      (hne : r'.node ≠ r.node) : r'.ops.filter (fun op => op.subject = r.node) = [] :=
    List.filter_eq_nil_iff.2 fun op hop => by simp [hr' op hop, hne]
  induction rs with
  | nil => simp at hr
  | cons head rs ih =>
    obtain ⟨hhead, hrest⟩ := List.forall_mem_cons.1 hsubject
    obtain ⟨hnew, hnodes⟩ := List.nodup_cons.1 hnodes
    rw [List.flatMap_cons, List.filter_append]
    rcases List.mem_cons.1 hr with rfl | hr
    · have hself : r.ops.filter (fun op => op.subject = r.node) = r.ops :=
        List.filter_eq_self.2 fun op hop => by simp [hhead op hop]
      have hothers : (rs.flatMap ops).filter (fun op => op.subject = r.node) = [] := by
        rw [List.filter_flatMap, List.flatMap_eq_nil_iff]
        refine fun r' hr' => hnone (hrest r' hr') fun heq => hnew ?_
        exact heq ▸ List.mem_map_of_mem hr'
      rw [hself, hothers, List.append_nil]
    · have hne : head.node ≠ r.node := fun heq => hnew (heq ▸ List.mem_map_of_mem hr)
      rw [hnone hhead hne, List.nil_append, ih hrest hnodes hr]

/-- The first plane of a display comes after the planes of the displays before it. -/
theorem firstPlane_eq_sum (specs : List (Option ConnectorSpec)) (i : Nat) :
    firstPlane specs i = ((specs.take i).map Plan.planesOf).sum := by
  induction specs generalizing i with
  | nil => simp [firstPlane]
  | cons spec specs ih => cases i <;> simp [firstPlane, ih]

theorem getElem?_ranges (first : Nat) (specs : List (Option ConnectorSpec)) (i : Nat) :
    (ranges first specs)[i]? = specs[i]?.map fun spec =>
      ⟨first + firstPlane specs i, first + firstPlane specs i + Plan.planesOf spec⟩ := by
  induction specs generalizing first i with
  | nil => simp [ranges]
  | cons spec specs ih => cases i <;> simp [ranges, firstPlane, ih, Nat.add_assoc]

/-- The planes of the last display stop where the planes of all of them do. -/
theorem stop_getLast?_ranges (first : Nat) {specs : List (Option ConnectorSpec)} (h : specs ≠ []) :
    (ranges first specs).getLast?.map PlaneRange.stop =
      some (first + (specs.map Plan.planesOf).sum) := by
  induction specs generalizing first with
  | nil => contradiction
  | cons spec specs ih =>
    cases specs with
    | nil => simp [ranges]
    | cons next specs =>
      have hrest := ih (first + Plan.planesOf spec) (by simp)
      rw [ranges] at hrest ⊢
      rw [ranges, List.getLast?_cons_cons, hrest]
      simp [Nat.add_assoc]

end Resource

theorem GraphOp.Admissible.requires {known : List NodeId} {front back : List GraphOp} {op : GraphOp}
    (h : Admissible known (front ++ op :: back)) {node : NodeId} (hnode : node ∈ op.requires) :
    node ∈ known ∨ .createNode node ∈ front := by
  have hop := (admissible_append.1 h).2.1.2 node hnode
  rw [List.mem_append, mem_filterMap_created_iff] at hop
  exact hop

namespace Plan

/-- What an operation of a plan requires is made by an operation before it. -/
theorem Sound.requires {plan : Plan} {front back : List GraphOp} {op : GraphOp} (h : plan.Sound)
    (hsplit : plan.ops.toList = front ++ op :: back) :
    ∀ node ∈ op.requires, .createNode node ∈ front := fun _ hnode =>
  ((hsplit ▸ h.admissible).requires hnode).resolve_left List.not_mem_nil

/-- The operations of a plan that are about a node, in order. -/
def opsAbout (plan : Plan) (node : NodeId) : List GraphOp :=
  plan.ops.toList.filter fun op => op.subject = node

/-- The number of planes of the first displays. -/
def planesBefore (displays : List (Option ConnectorSpec)) (i : Nat) : Nat :=
  ((displays.take i).map planesOf).sum

/-- What a plan for displays holds, and in which order. -/
structure WellOrdered (displays : List (Option ConnectorSpec)) (plan : Plan) : Prop where
  /-- No node is made twice. -/
  nodup_nodes : plan.nodes.Nodup
  /-- The nodes made are those of all displays and of all planes. -/
  mem_nodes : ∀ node, node ∈ plan.nodes ↔
    node.kind ≠ .plane ∧ node.index < displays.length ∨
      node.kind = .plane ∧ node.index < plan.planeCount
  /-- Planes are made in order of index. -/
  planes_nodes : plan.nodes.filter (fun node => node.kind = .plane) =
    (List.range plan.planeCount).map NodeId.plane
  /-- What an operation requires is made by an operation before it. -/
  requires : ∀ front op back, plan.ops.toList = front ++ op :: back →
    ∀ node ∈ op.requires, .createNode node ∈ front
  /-- The planes of a display come after those of the displays before it. -/
  planesOf? : ∀ i, plan.planesOf? i = displays[i]?.map fun spec =>
    ⟨planesBefore displays i, planesBefore displays i + planesOf spec⟩
  /-- Every display has planes for a cursor and for a primary plane. -/
  two_le : ∀ spec ∈ displays, 2 ≤ planesOf spec
  /-- A CRTC is made, and that is all. -/
  crtc : ∀ i < displays.length, plan.opsAbout (.crtc i) = [.createNode (.crtc i)]
  /-- An encoder is made and linked to its CRTC. -/
  encoder : ∀ i < displays.length, plan.opsAbout (.encoder i) =
    [.createNode (.encoder i), .link (.encoder i) (.crtc i)]
  /-- A connector is made, given a status, a type and the EDID of its monitor if it has one, and
  then linked to its encoder. -/
  connector : ∀ i spec, displays[i]? = some spec → plan.opsAbout (.connector i) =
    [.createNode (.connector i), .setStatus i (.ofEnabled (startEnabled spec)),
      .setConnectorType i (connectorType i spec)] ++
    ((spec.bind ConnectorSpec.monitor).map (.setEdid i)).toList ++
    [.link (.connector i) (.encoder i)]
  /-- A plane is made, typed by its position, formatted, and linked to the CRTC of its display. -/
  plane : ∀ i spec k, displays[i]? = some spec → k < planesOf spec →
    plan.opsAbout (.plane (planesBefore displays i + k)) =
      [.createNode (.plane (planesBefore displays i + k)),
        .setPlaneType (planesBefore displays i + k)
          (if k = 0 then .cursor else if k = 1 then .primary else .overlay),
        .setPlaneFormat (planesBefore displays i + k),
        .link (.plane (planesBefore displays i + k)) (.crtc i)]
  /-- There are no operations about anything else. -/
  subject : ∀ op ∈ plan.ops.toList, op.subject ∈ plan.nodes

variable {plan : Plan} {displays : List (Option ConnectorSpec)} {count : Nat}
  {specs : List ConnectorSpec}

theorem two_le_planesOf (spec : Option ConnectorSpec) : 2 ≤ planesOf spec := by
  cases spec with
  | none => exact Nat.le_refl 2
  | some spec => exact Nat.le_min.2 ⟨Nat.le_add_left 2 _, by decide⟩

theorem atPosition_eq_ite (k : Nat) :
    PlaneType.atPosition k = if k = 0 then .cursor else if k = 1 then .primary else .overlay := by
  match k with
  | 0 | 1 => rfl
  | _ + 2 => rfl

/-- The planes of a plan are those of its displays. -/
theorem Extends.planeCount {ops : List GraphOp}
    (h : Extends empty ops (Resource.ranges 0 displays) plan) :
    plan.planeCount = (displays.map planesOf).sum := by
  have hranges : plan.planes.toList = Resource.ranges 0 displays := h.planes
  rw [Plan.planeCount, Array.back?_eq_getElem?, ← Array.getElem?_toList, ← Array.length_toList,
    hranges, ← List.getLast?_eq_getElem?]
  by_cases hne : displays = []
  · rw [hne]
    rfl
  · rw [Resource.stop_getLast?_ranges 0 hne, Nat.zero_add]
    rfl

/-- The nodes that a plan makes are those of its displays. -/
theorem Extends.nodes {ranges : List PlaneRange} (h : Extends empty
    ((Resource.displays 0 0 displays).flatMap Resource.ops) ranges plan) :
    plan.nodes = (Resource.displays 0 0 displays).map Resource.node := by
  have hops : plan.ops.toList = (Resource.displays 0 0 displays).flatMap Resource.ops := h.ops
  rw [Plan.nodes, hops, Resource.filterMap_created_displays]

/-- What a plan grown from nothing by the operations and planes of displays holds. -/
theorem Extends.wellOrdered (h : Extends empty ((Resource.displays 0 0 displays).flatMap Resource.ops)
    (Resource.ranges 0 displays) plan) : WellOrdered displays plan := by
  have hops : plan.ops.toList = (Resource.displays 0 0 displays).flatMap Resource.ops := h.ops
  have hranges : plan.planes.toList = Resource.ranges 0 displays := h.planes
  have hnodes := h.nodes
  have hcount := h.planeCount
  have hplanes : plan.nodes.filter (fun node => node.kind = .plane) =
      (List.range plan.planeCount).map NodeId.plane := by
    rw [hnodes, Resource.filter_plane, hcount, List.range_eq_range']
  -- the operations about a node are those of its resource
  have habout {i : Nat} {spec : Option ConnectorSpec} {r : Resource} (hspec : displays[i]? = some spec)
      (hr : r ∈ Resource.display i spec (planesBefore displays i)) :
      plan.opsAbout r.node = r.ops := by
    rw [opsAbout, hops]
    refine Resource.filter_subject (fun r hr op hop => ?_) (Resource.nodup_displays 0 0 displays) ?_
    · obtain ⟨_, _, _, hd⟩ := Resource.exists_display_of_mem hr
      exact Resource.subject_of_mem_ops hd hop
    · refine Resource.mem_displays_iff.2 ⟨i, spec, hspec, ?_⟩
      rwa [Nat.zero_add, Nat.zero_add, Resource.firstPlane_eq_sum]
  have hget {i : Nat} (hi : i < displays.length) : displays[i]? = some displays[i] :=
    List.getElem?_eq_getElem hi
  refine
    { nodup_nodes := hnodes ▸ Resource.nodup_displays 0 0 displays
      mem_nodes := fun node => ?_
      planes_nodes := hplanes
      requires := fun _ _ _ => (h.sound sound_empty).requires
      planesOf? := fun i => ?_
      two_le := fun spec _ => two_le_planesOf spec
      crtc := fun i hi => habout (hget hi) (Resource.mem_display_iff.2 (.inl rfl))
      encoder := fun i hi => habout (hget hi) (Resource.mem_display_iff.2 (.inr (.inl rfl)))
      connector := fun i spec hspec =>
        habout hspec (Resource.mem_display_iff.2 (.inr (.inr (.inl rfl))))
      plane := fun i spec k hspec hk => ?_
      subject := fun op hop => ?_ }
  · rw [hnodes, Resource.mem_map_node_displays_iff, hcount]
  · rw [Plan.planesOf?, ← Array.getElem?_toList, hranges, Resource.getElem?_ranges]
    simp only [Nat.zero_add, Resource.firstPlane_eq_sum]
    rfl
  · rw [← atPosition_eq_ite]
    exact habout hspec (Resource.mem_display_iff.2 (.inr (.inr (.inr ⟨k, hk, rfl⟩))))
  · rw [hops] at hop
    obtain ⟨r, hr, hop⟩ := List.mem_flatMap.1 hop
    obtain ⟨_, _, _, hd⟩ := Resource.exists_display_of_mem hr
    rw [Resource.subject_of_mem_ops hd hop, hnodes]
    exact List.mem_map_of_mem hr

end Plan

end DisplayTopology
