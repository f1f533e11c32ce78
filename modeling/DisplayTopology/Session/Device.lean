import DisplayTopology.Composer.Control
import DisplayTopology.Composer.Settings
import DisplayTopology.Topology.Graph

/-!
# Devices

What a session works on: a configuration surface and a control. Sessions on one device share both.
-/

namespace DisplayTopology

/-- A device: its configuration surface and its control. -/
structure Device where
  surface : Surface
  control : Control

namespace Device

/-- What a step on a device answers, and the device after it. -/
abbrev Effect := Except TopologyError Unit × Device

/-- An effect on the surface of a device. -/
def onSurface (d : Device) (f : Surface → Graph.Effect) : Effect :=
  let (answer, s) := f d.surface
  (answer, { d with surface := s })

/-- An effect on the control of a device; where it fails the control stays as it was. -/
def onControl (d : Device) (f : Control → Except TopologyError Control) : Effect :=
  match f d.control with
  | .ok c => (.ok (), { d with control := c })
  | .error e => (.error e, d)

end Device

end DisplayTopology
