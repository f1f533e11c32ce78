import DisplayTopology.Topology.Plan
import DisplayTopology.Topology.Spec

/-!
# Building plans

The plan for a number of displays, described by one specification each or by none. A display has a
CRTC, an encoder that routes to it, a connector that routes to the encoder, and planes that route
to the CRTC; planes are numbered through over all displays. Everything that can be wrong with the
description is found here: no displays at all, a number of specifications other than the number of
displays, too many overlays, or more planes than a 64-bit word counts.
-/

namespace DisplayTopology.Plan

/-- Whether the display at an index starts plugged in: as specified, and otherwise not. -/
def startEnabled (spec : Option ConnectorSpec) : Bool := (spec.map ConnectorSpec.enabled).getD false

/-- The connector type of the display at an index: as specified, and otherwise an internal panel
for the first display and DisplayPort for the others. -/
def connectorType (index : Nat) (spec : Option ConnectorSpec) : ConnectorType :=
  match spec with
  | some spec => spec.type
  | none => if index = 0 then .edp else .displayPort

/-- The number of planes of a display: as specified, and otherwise a cursor and a primary plane. -/
def planesOf (spec : Option ConnectorSpec) : Nat := (spec.map ConnectorSpec.planeCount).getD 2

/-- Plans the connector of a display with its attributes and its route to the encoder. -/
def addConnector (plan : Plan) (index : Nat) (spec : Option ConnectorSpec) :
    Except TopologyError Plan :=
  (plan.addNode (.connector index)).pushAll <|
    [.setStatus index (.ofEnabled (startEnabled spec)),
      .setConnectorType index (connectorType index spec)] ++
    ((spec.bind ConnectorSpec.monitor).map (.setEdid index)).toList ++
    [.link (.connector index) (.encoder index)]

/-- Plans a plane with its attributes and its route to a CRTC. -/
def addPlane (plan : Plan) (plane : Nat) (type : PlaneType) (crtc : Nat) :
    Except TopologyError Plan :=
  (plan.addNode (.plane plane)).pushAll
    [.setPlaneType plane type, .setPlaneFormat plane, .link (.plane plane) (.crtc crtc)]

/-- Plans planes for a CRTC. Each plane's type goes by its position, counted from `position`. -/
def addPlanes (plan : Plan) (crtc position : Nat) : List Nat → Except TopologyError Plan
  | [] => .ok plan
  | plane :: planes =>
    match plan.addPlane plane (.atPosition position) crtc with
    | .error e => .error e
    | .ok plan => plan.addPlanes crtc (position + 1) planes

/-- Plans a display with planes numbered from `first`. -/
def addDisplay (plan : Plan) (index : Nat) (spec : Option ConnectorSpec) (first : Nat) :
    Except TopologyError Plan := do
  let plan ← ((plan.addNode (.crtc index)).addNode (.encoder index)).push
    (.link (.encoder index) (.crtc index))
  let plan ← plan.addConnector index spec
  let count := planesOf spec
  if first + count < Text.wordLimit64 then
    let range : PlaneRange := ⟨first, first + count⟩
    let plan ← plan.addPlanes index 0 range.indices
    return { plan with planes := plan.planes.push range }
  else
    throw (.tooManyPlanes index (count - 2))

/-- Plans displays, numbered from `index`, with planes numbered on from those planned. -/
def addDisplays (plan : Plan) (index : Nat) : List (Option ConnectorSpec) → Except TopologyError Plan
  | [] => .ok plan
  | spec :: specs =>
    match plan.addDisplay index spec plan.planeCount with
    | .error e => .error e
    | .ok plan => plan.addDisplays (index + 1) specs

/-- Checks specifications as those of the connectors from `index` on. -/
def validateAll (index : Nat) : List ConnectorSpec → Except TopologyError Unit
  | [] => .ok ()
  | spec :: specs =>
    match spec.validate index with
    | .error e => .error e
    | .ok _ => validateAll (index + 1) specs

/-- The plan for `count` displays, described by `specs` unless that is empty. -/
def build (count : Nat) (specs : List ConnectorSpec) : Except TopologyError Plan :=
  if count = 0 then .error .noConnectors
  else if specs ≠ [] ∧ specs.length ≠ count then .error (.countMismatch count specs.length)
  else
    match validateAll 0 specs with
    | .error e => .error e
    | .ok _ =>
      empty.addDisplays 0 (if specs = [] then List.replicate count none else specs.map some)

/-- The plan for `count` displays without specifications: an internal panel first, then
DisplayPort, all unplugged, each with a cursor and a primary plane. -/
def generic (count : Nat) : Except TopologyError Plan := build count []

/-- The plan for one display per specification, of which there must be some. -/
def ofSpecs (specs : List ConnectorSpec) : Except TopologyError Plan :=
  if specs = [] then .error .noConnectors else build specs.length specs

/-- Without specifications there is nothing to build either. -/
theorem ofSpecs_eq_build (specs : List ConnectorSpec) : ofSpecs specs = build specs.length specs := by
  cases specs with
  | nil => rfl
  | cons => rfl

theorem validateAll_eq_ok_iff {index : Nat} {specs : List ConnectorSpec} :
    validateAll index specs = .ok () ↔ ∀ spec ∈ specs, spec.overlays ≤ maxOverlays := by
  induction specs generalizing index with
  | nil => simp [validateAll]
  | cons spec specs ih =>
    have hv := @ConnectorSpec.validate_eq_ok_iff spec index
    rw [validateAll, List.forall_mem_cons, ← hv, ← @ih (index + 1)]
    cases spec.validate index <;> simp

end DisplayTopology.Plan
