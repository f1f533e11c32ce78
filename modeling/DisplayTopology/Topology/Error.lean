import DisplayTopology.Surface.Errno
import DisplayTopology.Text.Quoted
import DisplayTopology.Topology.Operation

/-!
# Errors of topologies

What can go wrong while a topology is configured, built and switched. A *configuration error* is
found before anything is touched; the others are refusals of the surface or of the control.
-/

namespace DisplayTopology

/-- The most overlay planes that a connector may have: planes are tracked in masks of 32 bits. -/
def maxOverlays : Nat := 32

/-- What was asked of the surface. -/
inductive SurfaceTask where
  | create
  | read
  | write
  | link
  deriving DecidableEq

/-- The verb for a task. -/
def SurfaceTask.verb : SurfaceTask → String
  | create => "create"
  | read => "read"
  | write => "write"
  | link => "link"

/-- What can go wrong with a topology. -/
inductive TopologyError where
  | noConnectors
  | countMismatch (requested provided : Nat)
  | unknownConnectorType (name : String)
  | unknownMonitor (name : String)
  | tooManyPlanes (connector requested : Nat)
  | connectorOutOfRange (index count : Nat)
  | invalidLink (src dst : NodeId)
  | nodeNotPlanned (op : GraphOp) (node : NodeId)
  | resource (task : SurfaceTask) (path : Path) (errno : Errno)
  | missingEndpoint (src dst : NodeId) (missing : Path)
  | emptyEdid (connector : Nat)
  | property (key value reason : String)
  deriving DecidableEq

namespace TopologyError

/-- What an error says. -/
def message : TopologyError → String
  | noConnectors => "At least one connector must be specified"
  | countMismatch requested provided =>
    "Requested " ++ toString requested ++ " displays but " ++ toString provided ++
      " connector specs were provided"
  | unknownConnectorType name => "Unknown connector type " ++ Text.quoteText name
  | unknownMonitor name => "Unknown monitor " ++ Text.quoteText name
  | tooManyPlanes connector requested =>
    "Connector " ++ toString connector ++ " asked for " ++ toString requested ++
      " overlay planes, at most " ++ toString maxOverlays ++ " are allowed"
  | connectorOutOfRange index count =>
    "Connector " ++ toString index ++ " is out of range, only " ++ toString count ++
      " connectors exist"
  | invalidLink src dst =>
    "Cannot link " ++ src.name ++ " to " ++ dst.name ++ ", no such routing exists"
  | nodeNotPlanned op node => op.name ++ " references " ++ node.name ++ " before it was created"
  | resource task path errno =>
    "Failed to " ++ task.verb ++ " " ++ path.text ++ ": " ++ errno.message
  | missingEndpoint src dst missing =>
    "Cannot link " ++ src.name ++ " to " ++ dst.name ++ ": " ++ missing.text ++ " does not exist"
  | emptyEdid connector => "No EDID data found for connector " ++ toString connector
  | property key value reason => "Failed to set property " ++ key ++ " to " ++ value ++ ": " ++ reason

/-- Whether an error is found before anything is touched. -/
def isConfiguration : TopologyError → Bool
  | noConnectors | countMismatch _ _ | unknownConnectorType _ | unknownMonitor _ => true
  | tooManyPlanes _ _ | connectorOutOfRange _ _ | invalidLink _ _ | nodeNotPlanned _ _ => true
  | resource _ _ _ | missingEndpoint _ _ _ | emptyEdid _ | property _ _ _ => false

end TopologyError

end DisplayTopology
