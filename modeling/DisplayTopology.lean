import DisplayTopology.CommandLine.Command
import DisplayTopology.CommandLine.Rehearsal
import DisplayTopology.CommandLine.Token
import DisplayTopology.Composer.Control
import DisplayTopology.Composer.Settings
import DisplayTopology.Display.Connector
import DisplayTopology.Display.Node
import DisplayTopology.Edid.Digests
import DisplayTopology.Edid.Monitor
import DisplayTopology.LogLevel
import DisplayTopology.Main
import DisplayTopology.Path.Ancestors
import DisplayTopology.Path.Basic
import DisplayTopology.Path.Location
import DisplayTopology.Path.Map
import DisplayTopology.Path.Trie
import DisplayTopology.Script.Control
import DisplayTopology.Script.Graph
import DisplayTopology.Script.Run
import DisplayTopology.Script.Session
import DisplayTopology.Script.Surface
import DisplayTopology.Session.Basic
import DisplayTopology.Session.Device
import DisplayTopology.Session.Provision
import DisplayTopology.Session.Teardown
import DisplayTopology.Surface.Basic
import DisplayTopology.Surface.Driver
import DisplayTopology.Surface.Errno
import DisplayTopology.Surface.Mutation
import DisplayTopology.Surface.Tree
import DisplayTopology.Text.Blank
import DisplayTopology.Text.Combining
import DisplayTopology.Text.Hex
import DisplayTopology.Text.Numeral
import DisplayTopology.Text.Quoted
import DisplayTopology.Text.Split
import DisplayTopology.Text.Unprintable
import DisplayTopology.Text.Utf8
import DisplayTopology.Text.Visible
import DisplayTopology.Topology.Build
import DisplayTopology.Topology.Error
import DisplayTopology.Topology.Graph
import DisplayTopology.Topology.Operation
import DisplayTopology.Topology.Plan
import DisplayTopology.Topology.Spec
import DisplayTopology.Proofs.Surface.Hierarchy
import DisplayTopology.Proofs.Surface.Listing
import DisplayTopology.Proofs.Surface.Removal
import DisplayTopology.Proofs.Teardown.Remnant
import DisplayTopology.Proofs.Teardown.Walks
import DisplayTopology.Proofs.Teardown.Survival
import DisplayTopology.Proofs.Topology.Raised
import DisplayTopology.Proofs.Topology.Neighbours
import DisplayTopology.Proofs.Teardown.Undoing
import DisplayTopology.Proofs.Topology.PlanContents
import DisplayTopology.Proofs.Surface.Driver
import DisplayTopology.Proofs.Session.Steps
import DisplayTopology.Proofs.Session.Rollback
import DisplayTopology.Proofs.Session.Lifetime
import DisplayTopology.Proofs.Topology.Growth
import DisplayTopology.Proofs.Session.Building
import DisplayTopology.Proofs.Session.Declared
import DisplayTopology.Proofs.Teardown.Account
import DisplayTopology.Proofs.Topology.Flush
import DisplayTopology.Proofs.Session.Changes
import DisplayTopology.Proofs.Session.Grounded
import DisplayTopology.Proofs.Session.Apart
import DisplayTopology.Proofs.Teardown.Locality
import DisplayTopology.Proofs.Session.Separation
import DisplayTopology.Proofs.Surface.Histories
import DisplayTopology.Proofs.Teardown.Repeated
import DisplayTopology.Proofs.Session.ControlLog
import DisplayTopology.Proofs.Teardown.Quiet
import DisplayTopology.Proofs.Session.Occupied
import DisplayTopology.Proofs.Topology.PlanOrder
import DisplayTopology.Proofs.Topology.Validity
import DisplayTopology.Proofs.Session.Hotplug
import DisplayTopology.Proofs.Path.Respelling
import DisplayTopology.Proofs.Surface.Respelling
import DisplayTopology.Proofs.Topology.Respelling
import DisplayTopology.Proofs.Session.Respelling
import DisplayTopology.Proofs.Surface.Removability
import DisplayTopology.Proofs.Topology.Failures
import DisplayTopology.Proofs.Topology.Admission
import DisplayTopology.Proofs.CommandLine.Grammar
import DisplayTopology.Proofs.Topology.StatusReading
import DisplayTopology.Proofs.CommandLine.Acceptance
import DisplayTopology.Proofs.Teardown.Visits
import DisplayTopology.Proofs.Text.HexDecoding
