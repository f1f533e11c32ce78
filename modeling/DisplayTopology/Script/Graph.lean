import DisplayTopology.Topology.Graph

/-!
# Calls on the resources of a topology

Every operation on the resources below a root, as a value. Only `apply` carries out planned
operations; the others are the single operations they consist of.
-/

namespace DisplayTopology

/-- One call on the resources of a topology. -/
inductive GraphCall where
  | createRoot
  | nodePath (node : NodeId)
  | createNode (node : NodeId)
  | setStatus (connector : Nat) (status : ConnectorStatus)
  | readStatus (connector : Nat)
  | setConnectorType (connector : Nat) (type : ConnectorType)
  | setEdid (connector : Nat) (edid : Bytes)
  | setPlaneType (plane : Nat) (type : PlaneType)
  | setPlaneFormat (plane : Nat)
  | link (src dst : NodeId)
  | setEnabled (enabled : Bool)
  | apply (op : GraphOp)
  deriving DecidableEq

/-- What a call on the resources of a topology answers. -/
inductive GraphAnswer where
  | done
  | failed (e : TopologyError)
  | path (path : Path)
  | status (status : Option ConnectorStatus)
  deriving DecidableEq

namespace GraphCall

/-- The outcome of an operation. -/
def ofEffect : Graph.Effect → GraphAnswer × Surface
  | (.ok _, s) => (.done, s)
  | (.error e, s) => (.failed e, s)

/-- The answer to reading a status. -/
def ofStatus : Except TopologyError (Option ConnectorStatus) → GraphAnswer
  | .ok status => .status status
  | .error e => .failed e

/-- Carries out a call on the topology at `root`. -/
def run (root : Path) (s : Surface) : GraphCall → GraphAnswer × Surface
  | createRoot => ofEffect (Graph.createRoot root s)
  | nodePath node => (.path (Graph.nodePath root node), s)
  | createNode node => ofEffect (Graph.createNode root node s)
  | setStatus connector status => ofEffect (Graph.setStatus root connector status s)
  | readStatus connector => (ofStatus (Graph.readStatus root connector s), s)
  | setConnectorType connector type => ofEffect (Graph.setConnectorType root connector type s)
  | setEdid connector edid => ofEffect (Graph.setEdid root connector edid s)
  | setPlaneType plane type => ofEffect (Graph.setPlaneType root plane type s)
  | setPlaneFormat plane => ofEffect (Graph.setPlaneFormat root plane s)
  | link src dst => ofEffect (Graph.link root src dst s)
  | setEnabled enabled => ofEffect (Graph.setEnabled root enabled s)
  | apply op => ofEffect (Graph.apply root op s)

end GraphCall

end DisplayTopology
