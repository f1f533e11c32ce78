import DisplayTopology.Session.Basic

/-!
# Calls of a session

What can be done with a session that was provisioned, as a value. Dropping a session leaves none.
-/

namespace DisplayTopology

/-- One call of a session. -/
inductive SessionCall where
  | info
  | toggle (connector : Nat) (enable : Bool)
  | status (connector : Nat)
  | disableCleanup
  | teardown
  | drop
  deriving DecidableEq

/-- What a call of a session answers. -/
inductive SessionAnswer where
  | done
  | failed (e : TopologyError)
  | info (session : Session)
  | status (status : Option ConnectorStatus)
  /-- The report of a teardown if there was one, and whether it removed the root. -/
  | report (report : Option Report) (removedRoot : Option Bool)
  deriving DecidableEq

namespace SessionCall

/-- The answer of a step on a device. -/
def ofAnswer : Except TopologyError Unit → SessionAnswer
  | .ok _ => .done
  | .error e => .failed e

/-- The answer to reading a status. -/
def ofStatus : Except TopologyError (Option ConnectorStatus) → SessionAnswer
  | .ok found => .status found
  | .error e => .failed e

/-- Carries out a call: the answer, the session unless it was dropped, and the device after it. -/
def run (session : Session) (d : Device) :
    SessionCall → Option (SessionAnswer × Option Session × Device)
  | info => some (.info session, session, d)
  | toggle connector enable =>
    let (answer, d) := session.toggle connector enable d
    some (ofAnswer answer, session, d)
  | status connector => some (ofStatus (session.status connector d), session, d)
  | disableCleanup => some (.done, session.disableCleanup, d)
  | teardown =>
    (session.teardown d).map fun (report, next, d) =>
      (.report report (report.map fun r => r.removedRoot session.settings.root), next, d)
  | drop => (session.drop d).map fun d => (.done, none, d)

end SessionCall

end DisplayTopology
