import DisplayTopology.Session.Provision
import DisplayTopology.Session.Teardown

/-!
# Topology sessions

A session owns one topology from provisioning to teardown. Provisioning is all or nothing: a
description that cannot be planned touches nothing, and a step that fails has the topology torn
down again before the error is given, together with the report of that rollback. While the session
is ready its connectors can be switched and read. It tears its topology down once at most, at the
latest when it is dropped, and not at all when cleanup was disabled before.

Whatever tears a topology down answers `none` when the teardown never ends.
-/

namespace DisplayTopology

/-- Where in its life a session is. -/
inductive Phase where
  | ready
  | tornDown
  deriving DecidableEq

/-- The name of a phase. -/
def Phase.name : Phase → String
  | ready => "Ready"
  | tornDown => "TornDown"

/-- A session that was provisioned. -/
structure Session where
  settings : Settings
  /-- The number of connectors, plugged in or not. -/
  connectors : Nat
  /-- The number of planes of all connectors. -/
  planes : Nat
  phase : Phase := .ready
  /-- Whether the topology stays in place when the session goes away. -/
  cleanupDisabled : Bool := false
  deriving DecidableEq

/-- A provisioning that failed, with the report of the rollback if anything was touched. -/
structure ProvisionError where
  error : TopologyError
  rollback : Option Report
  deriving DecidableEq

/-- What a failed provisioning says. -/
def ProvisionError.message (e : ProvisionError) : String :=
  "Failed to provision virtual displays: " ++ e.error.message

namespace Session

/-- The session that a plan's topology was built for. -/
def ofPlan (settings : Settings) (plan : Plan) : Session where
  settings := settings
  connectors := plan.connectorCount
  planes := plan.planeCount

/-- Builds a plan's topology on a device. -/
def provisionPlan (settings : Settings) (plan : Plan) (d : Device) :
    Option (Except ProvisionError Session × Device) :=
  match ProvisionStep.runAll settings.root (ProvisionStep.ofPlan settings plan) d with
  | (.ok _, d) => some (.ok (.ofPlan settings plan), d)
  | (.error e, d) => (d.teardown settings).map fun (report, d) => (.error ⟨e, some report⟩, d)

/-- Builds a topology of `count` displays on a device, described by `specs` unless that is empty. -/
def provision (settings : Settings) (count : Nat) (specs : List ConnectorSpec) (d : Device) :
    Option (Except ProvisionError Session × Device) :=
  match Plan.build count specs with
  | .error e => some (.error ⟨e, none⟩, d)
  | .ok plan => provisionPlan settings plan d

/-- The complaint about a connector that a session does not have. -/
def rangeFault? (session : Session) (index : Nat) : Option TopologyError :=
  if index < session.connectors then none
  else some (.connectorOutOfRange index session.connectors)

/-- Plugs a display into a connector, or unplugs it. -/
def toggle (session : Session) (index : Nat) (enable : Bool) (d : Device) : Device.Effect :=
  match session.rangeFault? index with
  | some e => (.error e, d)
  | none => d.onSurface (Graph.setStatus session.settings.root index (.ofEnabled enable))

/-- Reads the status of a connector. -/
def status (session : Session) (index : Nat) (d : Device) :
    Except TopologyError (Option ConnectorStatus) :=
  match session.rangeFault? index with
  | some e => .error e
  | none => Graph.readStatus session.settings.root index d.surface

/-- Has the topology stay in place when the session goes away. -/
def disableCleanup (session : Session) : Session := { session with cleanupDisabled := true }

/-- Tears the topology down, unless cleanup is disabled or that was done before. -/
def teardown (session : Session) (d : Device) : Option (Option Report × Session × Device) :=
  if session.cleanupDisabled || session.phase == .tornDown then some (none, session, d)
  else
    (d.teardown session.settings).map fun (report, d) =>
      (some report, { session with phase := .tornDown }, d)

/-- Lets a session go, which tears its topology down first if that is still to be done. -/
def drop (session : Session) (d : Device) : Option Device :=
  (session.teardown d).map fun (_, _, d) => d

end Session

end DisplayTopology
