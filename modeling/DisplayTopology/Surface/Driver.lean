import DisplayTopology.Display.Node
import DisplayTopology.Surface.Basic

/-!
# The driver's surface

The tree that the driver shows before a topology is built: the directories above the root of the
topology, and the default groups that making the root and the resources will bring along. The root
receives a group for every kind of resource, connectors receive a directory for links to encoders,
and encoders and planes one for links to CRTCs.
-/

namespace DisplayTopology.Surface

/-- The surface of a driver that is ready for a topology at `root`. -/
def ofDriver (root : Path) : Surface :=
  let base :=
    match root.parent? with
    | none => empty
    | some dir => (empty.addKernelDirs dir).addDefaultGroups dir (ResourceKind.all.map ResourceKind.group)
  base
    |>.addDefaultGroups (root / ResourceKind.connector.group) [ResourceKind.encoder.linkGroup]
    |>.addDefaultGroups (root / ResourceKind.encoder.group) [ResourceKind.crtc.linkGroup]
    |>.addDefaultGroups (root / ResourceKind.plane.group) [ResourceKind.crtc.linkGroup]

end DisplayTopology.Surface
