import DisplayTopology.Proofs.Topology.PlanOrder

/-!
# Which descriptions can be planned

A description of displays is checked in a fixed order: that there are displays, that there are as
many specifications as displays, that no display asks for too many overlays, and, display by
display, that the planes planned so far can be counted in a word. The first of these that fails is
the answer, and where none fails there is a plan (`Plan.build_judged`). Nothing else can go wrong: the
functions that plan a display add the nodes that an operation needs before the operation
(`Plan.Succeeds`), so an operation is never turned down.
-/

namespace DisplayTopology.Plan

variable {plan next : Plan} {ops : List GraphOp} {op : GraphOp} {node : NodeId}
  {r : Except TopologyError Plan} {spec : Option ConnectorSpec}
  {displays : List (Option ConnectorSpec)} {specs : List ConnectorSpec}
  {index first count crtc position i : Nat}

/-! ## Operations on known nodes are planned -/

/-- A planning function that succeeds and forgets no node. -/
def Succeeds (plan : Plan) (r : Except TopologyError Plan) : Prop :=
  ∃ next, r = .ok next ∧ ∀ node ∈ plan.planned, node ∈ next.planned

/-- Operations on known nodes are planned. They make no node known. -/
theorem pushAll_eq_ok (h : ∀ op ∈ ops, op.unroutable = false ∧
    ∀ node ∈ op.requires, node ∈ plan.planned) : Succeeds plan (plan.pushAll ops) := by
  induction ops generalizing plan with
  | nil => exact ⟨plan, rfl, fun _ => id⟩
  | cons op ops ih =>
    obtain ⟨hop, hops⟩ := List.forall_mem_cons.1 h
    have hnext : ∀ op' ∈ ops, op'.unroutable = false ∧
        ∀ node ∈ op'.requires, node ∈ { plan with ops := plan.ops.push op }.planned := hops
    rw [pushAll, push_eq_ok_iff.2 ⟨hop, rfl⟩]
    exact ih hnext

/-- What succeeds from a plan with one more node succeeds. -/
theorem Succeeds.of_addNode (h : Succeeds (plan.addNode node) r) : Succeeds plan r := by
  obtain ⟨next, hr, hknown⟩ := h
  exact ⟨next, hr, fun other ho => hknown other (mem_planned_addNode.2 (.inr ho))⟩

theorem mem_planned_addNode_self (plan : Plan) (node : NodeId) : node ∈ (plan.addNode node).planned :=
  mem_planned_addNode.2 (.inl rfl)

theorem succeeds_addConnector (plan : Plan) (spec : Option ConnectorSpec)
    (h : .encoder index ∈ plan.planned) : Succeeds plan (plan.addConnector index spec) := by
  have hself := mem_planned_addNode_self plan (.connector index)
  have hencoder : NodeId.encoder index ∈ (plan.addNode (.connector index)).planned :=
    mem_planned_addNode.2 (.inr h)
  refine .of_addNode (pushAll_eq_ok fun op hop => ?_)
  simp only [List.mem_append, List.mem_cons, List.not_mem_nil, or_false, Option.mem_toList,
    Option.map_eq_some_iff] at hop
  rcases hop with ((rfl | rfl) | ⟨monitor, -, rfl⟩) | rfl
  · exact ⟨rfl, List.forall_mem_singleton.2 hself⟩
  · exact ⟨rfl, List.forall_mem_singleton.2 hself⟩
  · exact ⟨rfl, List.forall_mem_singleton.2 hself⟩
  · exact ⟨rfl, List.forall_mem_cons.2 ⟨hself, List.forall_mem_singleton.2 hencoder⟩⟩

theorem succeeds_addPlane (plan : Plan) (plane : Nat) (type : PlaneType)
    (h : .crtc crtc ∈ plan.planned) : Succeeds plan (plan.addPlane plane type crtc) := by
  have hself := mem_planned_addNode_self plan (.plane plane)
  have hcrtc : NodeId.crtc crtc ∈ (plan.addNode (.plane plane)).planned :=
    mem_planned_addNode.2 (.inr h)
  refine .of_addNode (pushAll_eq_ok fun op hop => ?_)
  simp only [List.mem_cons, List.not_mem_nil, or_false] at hop
  rcases hop with rfl | rfl | rfl
  · exact ⟨rfl, List.forall_mem_singleton.2 hself⟩
  · exact ⟨rfl, List.forall_mem_singleton.2 hself⟩
  · exact ⟨rfl, List.forall_mem_cons.2 ⟨hself, List.forall_mem_singleton.2 hcrtc⟩⟩

theorem exists_addPlanes_eq_ok (plan : Plan) (position : Nat) (planes : List Nat)
    (h : .crtc crtc ∈ plan.planned) : ∃ next, plan.addPlanes crtc position planes = .ok next := by
  induction planes generalizing plan position with
  | nil => exact ⟨plan, rfl⟩
  | cons plane planes ih =>
    obtain ⟨next, hnext, hknown⟩ := succeeds_addPlane plan plane (.atPosition position) h
    rw [addPlanes, hnext]
    exact ih next (position + 1) (hknown _ h)

/-! ## Displays are planned while their planes can be counted -/

/-- A display is planned exactly when the planes planned after it can be counted in a word. -/
theorem addDisplay_spec (plan : Plan) (index first : Nat) (spec : Option ConnectorSpec) :
    (first + planesOf spec < Text.wordLimit64 →
      ∃ next, plan.addDisplay index spec first = .ok next) ∧
    (Text.wordLimit64 ≤ first + planesOf spec →
      plan.addDisplay index spec first = .error (.tooManyPlanes index (planesOf spec - 2))) := by
  let made := (plan.addNode (.crtc index)).addNode (.encoder index)
  have hcrtc : .crtc index ∈ made.planned :=
    mem_planned_addNode.2 (.inr (mem_planned_addNode_self plan _))
  have hencoder : .encoder index ∈ made.planned := mem_planned_addNode_self _ _
  have hlink : made.push (.link (.encoder index) (.crtc index)) = .ok _ :=
    push_eq_ok_iff.2 ⟨⟨rfl, List.forall_mem_cons.2 ⟨hencoder, List.forall_mem_singleton.2 hcrtc⟩⟩, rfl⟩
  obtain ⟨routed, hrouted, hknown⟩ := succeeds_addConnector
    { made with ops := made.ops.push (.link (.encoder index) (.crtc index)) } spec hencoder
  obtain ⟨full, hfull⟩ := exists_addPlanes_eq_ok routed 0
    (PlaneRange.indices ⟨first, first + planesOf spec⟩) (hknown _ hcrtc)
  unfold addDisplay
  rw [show ((plan.addNode (.crtc index)).addNode (.encoder index)).push
    (.link (.encoder index) (.crtc index)) = _ from hlink]
  simp only [bind, Except.bind, hrouted]
  constructor
  · intro hlt
    rw [if_pos hlt, hfull]
    exact ⟨_, rfl⟩
  · intro hle
    rw [if_neg (Nat.not_lt.2 hle)]
    rfl

theorem addDisplays_append (plan : Plan) (index : Nat) (displays more : List (Option ConnectorSpec)) :
    plan.addDisplays index (displays ++ more) =
      match plan.addDisplays index displays with
      | .error e => .error e
      | .ok plan => plan.addDisplays (index + displays.length) more := by
  induction displays generalizing plan index with
  | nil => rfl
  | cons spec displays ih =>
    rw [List.cons_append, addDisplays, addDisplays]
    cases plan.addDisplay index spec plan.planeCount with
    | error e => rfl
    | ok next =>
      have hindex : index + 1 + displays.length = index + (spec :: displays).length := by
        rw [List.length_cons]
        omega
      simp only [ih, hindex]

/-- **Run.** Displays are planned while all their planes can be counted in a word. -/
theorem addDisplays_of_lt (hfirst : plan.planeCount = first)
    (h : first + (displays.map planesOf).sum < Text.wordLimit64) :
    ∃ next, plan.addDisplays index displays = .ok next := by
  induction displays generalizing plan index first with
  | nil => exact ⟨plan, rfl⟩
  | cons spec displays ih =>
    rw [List.map_cons, List.sum_cons] at h
    obtain ⟨next, hnext⟩ := (addDisplay_spec plan index first spec).1 (by omega)
    have hcount : next.planeCount = first + planesOf spec :=
      planeCount_of_extends ((plans_addDisplay plan index spec first).ok next hnext)
    rw [addDisplays, hfirst, hnext]
    exact ih hcount (by omega)

/-- Planning displays fails only for too many planes. -/
theorem exists_of_addDisplays_eq_error {e : TopologyError}
    (h : plan.addDisplays index displays = .error e) :
    ∃ connector requested, e = .tooManyPlanes connector requested := by
  induction displays generalizing plan index with
  | nil => simp [addDisplays] at h
  | cons spec displays ih =>
    obtain ⟨hlt, hle⟩ := addDisplay_spec plan index plan.planeCount spec
    rw [addDisplays] at h
    rcases Nat.lt_or_ge (plan.planeCount + planesOf spec) Text.wordLimit64 with hc | hc
    · obtain ⟨next, hnext⟩ := hlt hc
      rw [hnext] at h
      exact ih h
    · rw [hle hc] at h
      exact ⟨_, _, (Except.error.inj h).symm⟩

/-! ## Specifications are checked in order -/

/-- The first specification with too many overlays is reported. -/
theorem validateAll_eq_error {spec : ConnectorSpec} (hspec : specs[i]? = some spec)
    (hover : maxOverlays < spec.overlays)
    (hbefore : ∀ other ∈ specs.take i, other.overlays ≤ maxOverlays) :
    validateAll index specs = .error (.tooManyPlanes (index + i) spec.overlays) := by
  induction specs generalizing index i with
  | nil => simp at hspec
  | cons head specs ih =>
    cases i with
    | zero =>
      obtain rfl : head = spec := by simpa using hspec
      rw [validateAll, ConnectorSpec.validate_eq_error_iff.2 ⟨hover, rfl⟩]
      rfl
    | succ i =>
      rw [List.take_succ_cons, List.forall_mem_cons] at hbefore
      rw [validateAll, ConnectorSpec.validate_eq_ok_iff.2 hbefore.1]
      have hindex : index + 1 + i = index + (i + 1) := by omega
      exact hindex ▸ ih (by simpa using hspec) hbefore.2

theorem exists_of_validateAll_eq_error {e : TopologyError}
    (h : validateAll index specs = .error e) :
    ∃ connector requested, e = .tooManyPlanes connector requested := by
  induction specs generalizing index with
  | nil => simp [validateAll] at h
  | cons spec specs ih =>
    rw [validateAll] at h
    cases hv : spec.validate index with
    | error fault =>
      rw [hv] at h
      obtain ⟨-, rfl⟩ := ConnectorSpec.validate_eq_error_iff.1 hv
      exact ⟨_, _, (Except.error.inj h).symm⟩
    | ok _ =>
      rw [hv] at h
      exact ih h

/-! ## Judging a description -/

/-- The planes that a display asks for: a cursor, a primary plane, and its overlays. -/
def requested (spec : Option ConnectorSpec) : Nat := 2 + (spec.map ConnectorSpec.overlays).getD 0

/-- The planes that the first displays ask for together. -/
def requestedBefore (displays : List (Option ConnectorSpec)) (i : Nat) : Nat :=
  ((displays.take i).map requested).sum

/-- There are displays, and either as many specifications or none. -/
structure Matching (count : Nat) (specs : List ConnectorSpec) : Prop where
  count_ne_zero : count ≠ 0
  length_eq : specs = [] ∨ specs.length = count

/-- No specification asks for too many overlays. -/
def Permitted (specs : List ConnectorSpec) : Prop := ∀ spec ∈ specs, spec.overlays ≤ maxOverlays

/-- The planes of a plan are counted and numbered by words. -/
structure WordIndexed (plan : Plan) : Prop where
  planeCount : plan.planeCount < Text.wordLimit64
  index : ∀ k, .plane k ∈ plan.nodes → k < plan.planeCount

/-- What a description of `count` displays is answered with. -/
structure Judged (count : Nat) (specs : List ConnectorSpec) (r : Except TopologyError Plan) :
    Prop where
  /-- Without displays there is nothing to plan. -/
  noConnectors : count = 0 → r = .error .noConnectors
  /-- Specifications, if there are any, have to be as many as the displays. -/
  countMismatch : count ≠ 0 → specs ≠ [] → specs.length ≠ count →
    r = .error (.countMismatch count specs.length)
  /-- The first specification with too many overlays is reported. -/
  overlays : Matching count specs → ∀ i spec, specs[i]? = some spec →
    maxOverlays < spec.overlays → Permitted (specs.take i) →
    r = .error (.tooManyPlanes i spec.overlays)
  /-- Otherwise the first display whose planes can no longer be counted in a word is reported. Those
  before it were planned. -/
  planes : Matching count specs → Permitted specs → ∀ i spec,
    (describe count specs)[i]? = some spec →
    (∀ j < i, requestedBefore (describe count specs) (j + 1) < Text.wordLimit64) →
    Text.wordLimit64 ≤ requestedBefore (describe count specs) (i + 1) →
    r = .error (.tooManyPlanes i (requested spec - 2)) ∧
      ∃ plan, empty.addDisplays 0 ((describe count specs).take i) = .ok plan ∧ plan.WordIndexed
  /-- Where all planes can be counted in a word there is a plan, with all displays and planes. -/
  planned : Matching count specs → Permitted specs →
    requestedBefore (describe count specs) count < Text.wordLimit64 →
    ∃ plan, r = .ok plan ∧ plan.connectorCount = count ∧
      plan.planeCount = requestedBefore (describe count specs) count ∧ plan.WordIndexed
  /-- No operation is turned down for a node that is missing, and no link for its kinds. -/
  admitted : (∀ op node, r ≠ .error (.nodeNotPlanned op node)) ∧
    ∀ src dst, r ≠ .error (.invalidLink src dst)

theorem length_describe (h : Matching count specs) : (describe count specs).length = count := by
  unfold describe
  split
  · exact List.length_replicate
  · rename_i hne
    rw [List.length_map]
    exact h.length_eq.resolve_left hne

/-- A display that is permitted has the planes that it asks for. -/
theorem planesOf_eq_requested (hp : Permitted specs) (h : spec ∈ describe count specs) :
    planesOf spec = requested spec := by
  cases spec with
  | none => rfl
  | some spec =>
    have hmem : spec ∈ specs := by
      unfold describe at h
      split at h
      · simp at h
      · simpa using h
    have hcount := ConnectorSpec.planeCount_of_le (hp spec hmem)
    simp only [planesOf, requested, Option.map_some, Option.getD_some, hcount]
    omega

theorem requestedBefore_eq_sum (hp : Permitted specs) (i : Nat) :
    requestedBefore (describe count specs) i =
      (((describe count specs).take i).map planesOf).sum := by
  refine congrArg List.sum (List.map_congr_left fun spec hspec => ?_)
  exact (planesOf_eq_requested hp (List.mem_of_mem_take hspec)).symm

theorem build_eq_addDisplays (hm : Matching count specs) (hp : Permitted specs) :
    build count specs = empty.addDisplays 0 (describe count specs) := by
  have hlength : ¬(specs ≠ [] ∧ specs.length ≠ count) := fun h =>
    hm.length_eq.elim h.1 h.2
  rw [build, if_neg hm.count_ne_zero, if_neg hlength, validateAll_eq_ok_iff.2 hp, describe]

/-- Planned displays have planes that are numbered by words, if these can be counted. -/
theorem Extends.wordIndexed (h : Extends empty ((Resource.displays 0 0 displays).flatMap Resource.ops)
    (Resource.ranges 0 displays) plan) (hlt : (displays.map planesOf).sum < Text.wordLimit64) :
    plan.WordIndexed := by
  refine ⟨h.planeCount ▸ hlt, fun k hk => ?_⟩
  rcases (h.wellOrdered.mem_nodes (.plane k)).1 hk with ⟨hkind, -⟩ | ⟨-, hindex⟩
  · exact absurd rfl hkind
  · exact hindex

/-- There are three kinds of complaint about a description. -/
theorem kind_of_build_eq_error {e : TopologyError} (h : build count specs = .error e) :
    e = .noConnectors ∨ e = .countMismatch count specs.length ∨
      ∃ connector requested, e = .tooManyPlanes connector requested := by
  unfold build at h
  split at h
  · exact .inl (Except.error.inj h).symm
  · split at h
    · exact .inr (.inl (Except.error.inj h).symm)
    · split at h
      · rename_i fault hfault
        obtain rfl : fault = e := Except.error.inj h
        exact .inr (.inr (exists_of_validateAll_eq_error hfault))
      · exact .inr (.inr (exists_of_addDisplays_eq_error h))

/-- Displays whose planes can be counted in a word are planned. -/
theorem exists_extends_of_lt (hlt : (displays.map planesOf).sum < Text.wordLimit64) :
    ∃ plan, empty.addDisplays 0 displays = .ok plan ∧
      Extends empty ((Resource.displays 0 0 displays).flatMap Resource.ops)
        (Resource.ranges 0 displays) plan := by
  have hfirst : empty.planeCount = 0 := rfl
  obtain ⟨plan, hplan⟩ : ∃ plan, empty.addDisplays 0 displays = .ok plan :=
    addDisplays_of_lt hfirst (by rwa [Nat.zero_add])
  exact ⟨plan, hplan, (plans_addDisplays empty 0 0 displays rfl).ok plan hplan⟩

/-- The display whose planes can no longer be counted, while those before it can, is reported. -/
theorem addDisplays_eq_error (hspec : displays[i]? = some spec)
    (hlt : ((displays.take i).map planesOf).sum < Text.wordLimit64)
    (hle : Text.wordLimit64 ≤ ((displays.take (i + 1)).map planesOf).sum) :
    empty.addDisplays 0 displays = .error (.tooManyPlanes i (planesOf spec - 2)) := by
  obtain ⟨hi, hget⟩ := List.getElem?_eq_some_iff.1 hspec
  obtain ⟨plan, hplan, hextends⟩ := exists_extends_of_lt hlt
  have hsplit : displays = displays.take i ++ spec :: displays.drop (i + 1) := by
    rw [← hget, List.getElem_cons_drop, List.take_append_drop]
  have hindex : 0 + (displays.take i).length = i := by
    rw [List.length_take_of_le (Nat.le_of_lt hi), Nat.zero_add]
  have hover : Text.wordLimit64 ≤ plan.planeCount + planesOf spec := by
    rw [hextends.planeCount]
    rw [List.take_add_one, hspec] at hle
    simpa using hle
  rw [hsplit, addDisplays_append, hplan]
  simp only [hindex]
  rw [addDisplays, (addDisplay_spec plan i plan.planeCount spec).2 hover]

/-- **A description is judged** by what it asks for, in a fixed order, and is planned whenever
nothing is wrong with it. -/
theorem build_judged (count : Nat) (specs : List ConnectorSpec) :
    Judged count specs (build count specs) := by
  have hmatching (hm : Matching count specs) : ¬(specs ≠ [] ∧ specs.length ≠ count) :=
    fun h => hm.length_eq.elim h.1 h.2
  refine ⟨fun h => ?_, fun hcount hne hlength => ?_, fun hm i spec hspec hover hbefore => ?_,
    fun hm hp i spec hspec hbefore hover => ?_, fun hm hp hlt => ?_, ?_⟩
  · rw [build, if_pos h]
  · rw [build, if_neg hcount, if_pos ⟨hne, hlength⟩]
  · rw [build, if_neg hm.count_ne_zero, if_neg (hmatching hm),
      validateAll_eq_error hspec hover hbefore, Nat.zero_add]
  · have hlt : (((describe count specs).take i).map planesOf).sum < Text.wordLimit64 := by
      rw [← requestedBefore_eq_sum hp]
      cases i with
      | zero => exact Nat.pow_pos (by decide)
      | succ i => exact hbefore i (Nat.lt_succ_self i)
    rw [requestedBefore_eq_sum hp] at hover
    obtain ⟨plan, hplan, hextends⟩ := exists_extends_of_lt hlt
    refine ⟨?_, plan, hplan, hextends.wordIndexed hlt⟩
    rw [build_eq_addDisplays hm hp, addDisplays_eq_error hspec hlt hover,
      planesOf_eq_requested hp (List.mem_of_getElem? hspec)]
  · have htake : (describe count specs).take count = describe count specs :=
      List.take_of_length_le (Nat.le_of_eq (length_describe hm))
    have hsum : requestedBefore (describe count specs) count =
        (((describe count specs).take count).map planesOf).sum := requestedBefore_eq_sum hp count
    rw [htake] at hsum
    rw [hsum] at hlt
    obtain ⟨plan, hplan, hextends⟩ := exists_extends_of_lt hlt
    have hbuild : build count specs = .ok plan := by rw [build_eq_addDisplays hm hp, hplan]
    refine ⟨plan, hbuild, ?_, hsum ▸ hextends.planeCount, hextends.wordIndexed hlt⟩
    rw [connectorCount_of_extends hextends, Resource.length_ranges, length_describe hm]
  · constructor
    · intro op node he
      rcases kind_of_build_eq_error he with h | h | ⟨_, _, h⟩ <;> simp at h
    · intro src dst he
      rcases kind_of_build_eq_error he with h | h | ⟨_, _, h⟩ <;> simp at h

end DisplayTopology.Plan
