import DisplayTopology.Topology.Error

/-!
# Connector specifications

A specification describes one virtual display: the type of its connector, whether it starts
plugged in, its overlay planes, and the monitor it pretends to be. Each display has a cursor and a
primary plane besides its overlays; counts are 64-bit words, and a count that does not fit is the
greatest word.
-/

namespace DisplayTopology

/-- The description of one virtual display. Unless it says otherwise, a display is a DisplayPort
connector that starts plugged in, without overlays and without a monitor. -/
structure ConnectorSpec where
  type : ConnectorType := .displayPort
  enabled : Bool := true
  overlays : Nat := 0
  monitor : Option Monitor := none
  deriving DecidableEq

namespace ConnectorSpec

/-- The number of planes of a display: a cursor, a primary plane, and the overlays. -/
def planeCount (spec : ConnectorSpec) : Nat := min (spec.overlays + 2) (Text.wordLimit64 - 1)

/-- Checks a specification as that of the connector of this index. -/
def validate (spec : ConnectorSpec) (index : Nat) : Except TopologyError Unit :=
  if maxOverlays < spec.overlays then .error (.tooManyPlanes index spec.overlays) else .ok ()

theorem validate_eq_ok_iff {spec : ConnectorSpec} {index : Nat} :
    spec.validate index = .ok () ↔ spec.overlays ≤ maxOverlays := by
  rw [validate]
  split <;> simp <;> omega

theorem validate_eq_error_iff {spec : ConnectorSpec} {index : Nat} {e : TopologyError} :
    spec.validate index = .error e ↔
      maxOverlays < spec.overlays ∧ e = .tooManyPlanes index spec.overlays := by
  rw [validate]
  by_cases h : maxOverlays < spec.overlays <;> simp [h, eq_comm (a := e)]

/-- A display of a valid specification has two planes more than overlays. -/
theorem planeCount_of_le {spec : ConnectorSpec} (h : spec.overlays ≤ maxOverlays) :
    spec.planeCount = spec.overlays + 2 := by
  rw [planeCount, Nat.min_eq_left]
  have hword : Text.wordLimit64 = 18446744073709551616 := rfl
  simp only [maxOverlays] at h
  omega

end ConnectorSpec

end DisplayTopology
