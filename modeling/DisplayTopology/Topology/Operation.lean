import DisplayTopology.Display.Connector
import DisplayTopology.Display.Node
import DisplayTopology.Edid.Monitor

/-!
# Topology operations

A topology is built by operations that each make one resource, write one attribute, or lay one
routing link. All but the first kind name nodes that have to be there before (`requires`).
-/

namespace DisplayTopology

/-- One step of building a topology. -/
inductive GraphOp where
  | createNode (node : NodeId)
  | setStatus (connector : Nat) (status : ConnectorStatus)
  | setConnectorType (connector : Nat) (type : ConnectorType)
  | setEdid (connector : Nat) (monitor : Monitor)
  | setPlaneType (plane : Nat) (type : PlaneType)
  | setPlaneFormat (plane : Nat)
  | link (src dst : NodeId)
  deriving DecidableEq

namespace GraphOp

/-- The name of a kind of operation. -/
def name : GraphOp → String
  | createNode _ => "CreateNode"
  | setStatus _ _ => "SetStatus"
  | setConnectorType _ _ => "SetConnectorType"
  | setEdid _ _ => "SetEdid"
  | setPlaneType _ _ => "SetPlaneType"
  | setPlaneFormat _ => "SetPlaneFormat"
  | link _ _ => "Link"

/-- The nodes that have to be there before an operation. -/
def requires : GraphOp → List NodeId
  | createNode _ => []
  | setStatus connector _ => [.connector connector]
  | setConnectorType connector _ => [.connector connector]
  | setEdid connector _ => [.connector connector]
  | setPlaneType plane _ => [.plane plane]
  | setPlaneFormat plane => [.plane plane]
  | link src dst => [src, dst]

/-- The node that an operation makes. -/
def created? : GraphOp → Option NodeId
  | createNode node => some node
  | _ => none

/-- Whether an operation is a link between kinds that do not route to each other. -/
def unroutable : GraphOp → Bool
  | link src dst => !src.kind.routesTo dst.kind
  | _ => false

end GraphOp

end DisplayTopology
