import DisplayTopology.Proofs.Topology.Resources

/-!
# What a built plan contains

A plan only ever grows, by operations that it admits and by the planes of displays (`Plan.Extends`).
Each function that plans something extends the plan by a known list of operations or fails with a
configuration error (`Plan.Plans`); these specifications compose along the functions
(`Plan.Plans.bind`), and for a description of displays they give the operations of a built plan in
one closed form (`Plan.plans_build`).
-/

namespace DisplayTopology

/-- Whether operations can be carried out in order once some nodes are there: every link is
routable, and the nodes that an operation requires are known or made by an operation before it. -/
def GraphOp.Admissible (known : List NodeId) : List GraphOp → Prop
  | [] => True
  | op :: ops =>
    (op.unroutable = false ∧ ∀ node ∈ op.requires, node ∈ known) ∧
      Admissible (known ++ op.created?.toList) ops

theorem GraphOp.admissible_append {known : List NodeId} {ops more : List GraphOp} :
    Admissible known (ops ++ more) ↔
      Admissible known ops ∧ Admissible (known ++ ops.filterMap GraphOp.created?) more := by
  induction ops generalizing known with
  | nil => simp [Admissible]
  | cons op ops ih =>
    have hcreated : (op :: ops).filterMap GraphOp.created? =
        op.created?.toList ++ ops.filterMap GraphOp.created? := by
      cases h : op.created? <;> simp [h]
    rw [List.cons_append, Admissible, ih, Admissible, hcreated, List.append_assoc]
    simp only [and_assoc]

theorem GraphOp.Admissible.unroutable {known : List NodeId} {ops : List GraphOp}
    (h : Admissible known ops) {op : GraphOp} (hop : op ∈ ops) : op.unroutable = false := by
  induction ops generalizing known with
  | nil => simp at hop
  | cons head ops ih =>
    rcases List.mem_cons.1 hop with rfl | hop
    · exact h.1.1
    · exact ih h.2 hop

theorem GraphOp.mem_filterMap_created_iff {ops : List GraphOp} {node : NodeId} :
    node ∈ ops.filterMap created? ↔ .createNode node ∈ ops := by
  rw [List.mem_filterMap]
  constructor
  · rintro ⟨op, hop, hnode⟩
    cases op with
    | createNode other =>
      obtain rfl := Option.some.inj hnode
      exact hop
    | setStatus | setConnectorType | setEdid | setPlaneType | setPlaneFormat | link =>
      simp [created?] at hnode
  · exact fun hop => ⟨_, hop, rfl⟩

namespace Plan

variable {plan next : Plan} {ops more : List GraphOp} {ranges others : List PlaneRange}
  {r : Except TopologyError Plan}

/-! ## Plans that grow -/

/-- The operations of a plan can be carried out in order, and the nodes it knows are made. -/
structure Sound (plan : Plan) : Prop where
  admissible : GraphOp.Admissible [] plan.ops.toList
  planned : ∀ node ∈ plan.planned, node ∈ plan.nodes

theorem sound_empty : empty.Sound := by
  refine ⟨trivial, fun node h => ?_⟩
  simp [empty] at h

/-- A plan goes on from another by operations and by planes of displays. -/
structure Extends (plan : Plan) (ops : List GraphOp) (ranges : List PlaneRange) (next : Plan) :
    Prop where
  ops : next.ops.toList = plan.ops.toList ++ ops
  planes : next.planes.toList = plan.planes.toList ++ ranges
  sound : plan.Sound → next.Sound

theorem Extends.refl (plan : Plan) : Extends plan [] [] plan := ⟨by simp, by simp, id⟩

theorem Extends.trans {last : Plan} (h : Extends plan ops ranges next)
    (h' : Extends next more others last) : Extends plan (ops ++ more) (ranges ++ others) last :=
  ⟨by rw [h'.ops, h.ops, List.append_assoc], by rw [h'.planes, h.planes, List.append_assoc],
    h'.sound ∘ h.sound⟩

theorem extends_addNode (plan : Plan) (node : NodeId) :
    Extends plan [.createNode node] [] (plan.addNode node) := by
  have hops : (plan.addNode node).ops.toList = plan.ops.toList ++ [.createNode node] := by
    simp [addNode]
  refine ⟨hops, by simp [addNode], fun h => ⟨?_, fun other hmem => ?_⟩⟩
  · rw [hops, GraphOp.admissible_append]
    exact ⟨h.admissible, ⟨rfl, by simp [GraphOp.requires]⟩, trivial⟩
  · rw [nodes, hops, List.filterMap_append, List.mem_append]
    rcases mem_planned_addNode.1 hmem with rfl | hmem
    · exact .inr (by simp [GraphOp.created?])
    · exact .inl (h.planned other hmem)

theorem extends_push {op : GraphOp} (h : plan.push op = .ok next) : Extends plan [op] [] next := by
  obtain ⟨⟨hroute, hnodes⟩, rfl⟩ := push_eq_ok_iff.1 h
  refine ⟨by simp, by simp, fun hs => ⟨?_, fun node hmem => ?_⟩⟩
  · rw [Array.toList_push, GraphOp.admissible_append]
    refine ⟨hs.admissible, ⟨hroute, fun node hmem => ?_⟩, trivial⟩
    exact List.mem_append_right _ (hs.planned node (hnodes node hmem))
  · rw [nodes, Array.toList_push, List.filterMap_append]
    exact List.mem_append_left _ (hs.planned node hmem)

/-- Recording the planes of a display plans no operation. -/
theorem extends_planes (plan : Plan) (range : PlaneRange) :
    Extends plan [] [range] { plan with planes := plan.planes.push range } :=
  ⟨by simp, by simp, fun h => ⟨h.admissible, h.planned⟩⟩

/-- The next free index is where the planes of the last display stop. -/
theorem planeCount_of_extends {range : PlaneRange} (h : Extends plan ops [range] next) :
    next.planeCount = range.stop := by
  rw [planeCount, Array.back?_eq_getElem?, ← Array.getElem?_toList, ← Array.length_toList, h.planes]
  simp

theorem connectorCount_of_extends (h : Extends empty ops ranges next) :
    next.connectorCount = ranges.length := by
  rw [connectorCount, ← Array.length_toList, h.planes, List.length_append]
  exact Nat.zero_add _

/-! ## Specifications of planning functions -/

/-- What a planning function answers: the plan extended by certain operations and planes, or a
configuration error. -/
structure Plans (plan : Plan) (ops : List GraphOp) (ranges : List PlaneRange)
    (r : Except TopologyError Plan) : Prop where
  ok : ∀ next, r = .ok next → Extends plan ops ranges next
  error : ∀ e, r = .error e → e.isConfiguration

theorem Extends.plans (h : Extends plan ops ranges next) : Plans plan ops ranges (.ok next) := by
  refine ⟨fun _ he => ?_, fun _ he => by simp at he⟩
  obtain rfl := Except.ok.inj he
  exact h

theorem plans_error {e : TopologyError} (h : e.isConfiguration) :
    Plans plan ops ranges (.error e) := by
  refine ⟨fun _ he => by simp at he, fun _ he => ?_⟩
  obtain rfl := Except.error.inj he
  exact h

theorem Extends.andThen (h : Extends plan ops ranges next) (h' : Plans next more others r) :
    Plans plan (ops ++ more) (ranges ++ others) r :=
  ⟨fun last he => h.trans (h'.ok last he), h'.error⟩

theorem Plans.bind (ranges : List PlaneRange) {f : Plan → Except TopologyError Plan}
    (h : Plans plan ops ranges r)
    (hf : ∀ next, r = .ok next → Extends plan ops ranges next → Plans next more others (f next)) :
    Plans plan (ops ++ more) (ranges ++ others) (r >>= f) := by
  cases hr : r with
  | error e => exact plans_error (h.error e hr)
  | ok next => exact (h.ok next hr).andThen (hf next hr (h.ok next hr))

theorem plans_push (plan : Plan) (op : GraphOp) : Plans plan [op] [] (plan.push op) := by
  refine ⟨fun next h => extends_push h, fun e h => ?_⟩
  rw [push, fault?] at h
  cases hroute : routeFault? op with
  | some fault =>
    obtain rfl : fault = e := by simpa [hroute] using h
    cases op <;> simp [routeFault?] at hroute
    rw [← hroute.2]
    rfl
  | none =>
    cases hmiss : plan.missing? op with
    | none => simp [hroute, hmiss] at h
    | some node =>
      obtain rfl : TopologyError.nodeNotPlanned op node = e := by simpa [hroute, hmiss] using h
      rfl

theorem plans_pushAll (plan : Plan) (ops : List GraphOp) : Plans plan ops [] (plan.pushAll ops) := by
  induction ops generalizing plan with
  | nil => exact (Extends.refl plan).plans
  | cons op ops ih =>
    have hpush := plans_push plan op
    rw [pushAll]
    cases hr : plan.push op with
    | error e => exact plans_error (hpush.error e hr)
    | ok next => exact (hpush.ok next hr).andThen (ih next)

theorem plans_addConnector (plan : Plan) (index : Nat) (spec : Option ConnectorSpec) :
    Plans plan (Resource.connector index spec).ops [] (plan.addConnector index spec) :=
  (extends_addNode plan (.connector index)).andThen (plans_pushAll _ _)

theorem plans_addPlane (plan : Plan) (plane : Nat) (type : PlaneType) (crtc : Nat) :
    Plans plan (Resource.plane plane type crtc).ops [] (plan.addPlane plane type crtc) :=
  (extends_addNode plan (.plane plane)).andThen (plans_pushAll _ _)

theorem plans_addPlanes (plan : Plan) (crtc position : Nat) (planes : List Nat) :
    Plans plan ((Resource.planes crtc position planes).flatMap Resource.ops) []
      (plan.addPlanes crtc position planes) := by
  induction planes generalizing plan position with
  | nil => exact (Extends.refl plan).plans
  | cons plane planes ih =>
    have hplane := plans_addPlane plan plane (.atPosition position) crtc
    rw [addPlanes, Resource.planes_cons, List.flatMap_cons]
    cases hr : plan.addPlane plane (.atPosition position) crtc with
    | error e => exact plans_error (hplane.error e hr)
    | ok next => exact (hplane.ok next hr).andThen (ih next (position + 1))

theorem plans_addDisplay (plan : Plan) (index : Nat) (spec : Option ConnectorSpec) (first : Nat) :
    Plans plan ((Resource.display index spec first).flatMap Resource.ops)
      [⟨first, first + planesOf spec⟩] (plan.addDisplay index spec first) := by
  have hnodes := (extends_addNode plan (.crtc index)).trans
    (extends_addNode (plan.addNode (.crtc index)) (.encoder index))
  have hindices : PlaneRange.indices ⟨first, first + planesOf spec⟩ =
      List.range' first (planesOf spec) := by
    rw [PlaneRange.indices, Nat.add_sub_cancel_left]
  have hops : (Resource.display index spec first).flatMap Resource.ops =
      (([.createNode (.crtc index)] ++ [.createNode (.encoder index)]) ++
        [.link (.encoder index) (.crtc index)]) ++ (Resource.connector index spec).ops ++
      (Resource.planes index 0 (List.range' first (planesOf spec))).flatMap Resource.ops := by
    simp [Resource.display, Resource.crtc, Resource.encoder, Resource.ops]
  rw [hops, addDisplay, List.append_assoc, List.append_assoc]
  refine hnodes.andThen (Plans.bind [] (plans_push _ _) fun linked _ _ => ?_)
  refine Plans.bind [] (plans_addConnector linked index spec) fun routed _ _ => ?_
  dsimp only
  split
  · rw [← List.append_nil (List.flatMap _ _)]
    refine Plans.bind [] (hindices ▸ plans_addPlanes routed index 0 _) fun full _ _ => ?_
    exact (extends_planes full _).plans
  · exact plans_error rfl

theorem plans_addDisplays (plan : Plan) (index first : Nat) (specs : List (Option ConnectorSpec))
    (hfirst : plan.planeCount = first) :
    Plans plan ((Resource.displays index first specs).flatMap Resource.ops)
      (Resource.ranges first specs) (plan.addDisplays index specs) := by
  induction specs generalizing plan index first with
  | nil => exact (Extends.refl plan).plans
  | cons spec specs ih =>
    subst hfirst
    have hdisplay := plans_addDisplay plan index spec plan.planeCount
    rw [addDisplays, Resource.displays, List.flatMap_append]
    cases hr : plan.addDisplay index spec plan.planeCount with
    | error e => exact plans_error (hdisplay.error e hr)
    | ok next =>
      have hnext := hdisplay.ok next hr
      exact hnext.andThen (ih next (index + 1) _ (planeCount_of_extends hnext))

theorem isConfiguration_of_validateAll {index : Nat} {specs : List ConnectorSpec}
    {e : TopologyError} (h : validateAll index specs = .error e) : e.isConfiguration := by
  induction specs generalizing index with
  | nil => simp [validateAll] at h
  | cons spec specs ih =>
    rw [validateAll] at h
    cases hv : spec.validate index with
    | error fault =>
      obtain ⟨-, rfl⟩ := ConnectorSpec.validate_eq_error_iff.1 hv
      rw [hv] at h
      rw [← Except.error.inj h]
      rfl
    | ok _ =>
      rw [hv] at h
      exact ih h

/-- The specifications that displays go by: those given, or none for each display. -/
def describe (count : Nat) (specs : List ConnectorSpec) : List (Option ConnectorSpec) :=
  if specs = [] then List.replicate count none else specs.map some

/-- **Contents of a plan.** A description that can be planned gives the resources of its displays in
order, and there are as many displays as asked for; one that cannot has a configuration error. -/
theorem plans_build (count : Nat) (specs : List ConnectorSpec) :
    Plans empty ((Resource.displays 0 0 (describe count specs)).flatMap Resource.ops)
      (Resource.ranges 0 (describe count specs)) (build count specs) := by
  unfold build
  split
  · exact plans_error rfl
  · split
    · exact plans_error rfl
    · split
      · rename_i e he
        exact plans_error (isConfiguration_of_validateAll he)
      · exact plans_addDisplays empty 0 0 _ rfl

end Plan

/-- A description that can be planned has a specification, or none, for every display. -/
theorem length_describe_of_build {count : Nat} {specs : List ConnectorSpec} {plan : Plan}
    (h : Plan.build count specs = .ok plan) : (Plan.describe count specs).length = count := by
  unfold Plan.build at h
  split at h
  · simp at h
  · split at h
    · simp at h
    · rename_i hmatch
      unfold Plan.describe
      split
      · exact List.length_replicate
      · rename_i hspecs
        rw [List.length_map]
        exact Decidable.byContradiction fun hne => hmatch ⟨hspecs, hne⟩

end DisplayTopology
