import DisplayTopology.Text.Split
import DisplayTopology.Topology.Spec

/-!
# Display tokens

A token describes one display: a connector type and, after commas, the number of overlay planes and
the name of a monitor. An empty number of planes means none. Of several mistakes in a token the
first counts, in the order of the fields, and the number of planes is bounded last.
-/

namespace DisplayTopology

/-- What is wrong with the token for a display. -/
inductive TokenError where
  | tooManyFields (token : String)
  | invalidPlanes (text : String)
  | rejected (e : TopologyError)
  deriving DecidableEq

namespace TokenError

/-- What an error says. -/
def message : TokenError → String
  | tooManyFields token => "Too many fields in connector configuration " ++ Text.quoteText token
  | invalidPlanes text => "Invalid number of planes: " ++ text
  | rejected e => e.message

/-- The error of the topology that is the cause. -/
def cause? : TokenError → Option TopologyError
  | rejected e => some e
  | _ => none

end TokenError

namespace ConnectorSpec

/-- The connector type that a field names. -/
def typeOfField (field : String) : Except TokenError ConnectorType :=
  match ConnectorType.ofName? field with
  | some type => .ok type
  | none => .error (.rejected (.unknownConnectorType field))

/-- The number of overlays that a field gives; a missing or empty field gives none. -/
def overlaysOfField (field : Option String) : Except TokenError Nat :=
  match field with
  | none => .ok 0
  | some text =>
    if text = "" then .ok 0
    else
      match Text.numeral? Text.wordLimit64 text.toList with
      | some count => .ok count
      | none => .error (.invalidPlanes text)

/-- The monitor that a field names; a missing field names none. -/
def monitorOfField (field : Option String) : Except TokenError (Option Monitor) :=
  match field with
  | none => .ok none
  | some name =>
    match Monitor.ofName? name with
    | some monitor => .ok (some monitor)
    | none => .error (.rejected (.unknownMonitor name))

/-- The specification of the connector at an index from its fields. -/
def ofFields (index : Nat) (type : String) (planes monitor : Option String) :
    Except TokenError ConnectorSpec := do
  let type ← typeOfField type
  let overlays ← overlaysOfField planes
  let monitor ← monitorOfField monitor
  let spec : ConnectorSpec := { type, overlays, monitor }
  match spec.validate index with
  | .ok _ => return spec
  | .error e => throw (.rejected e)

/-- The specification that a token gives for the connector at an index. -/
def ofToken (index : Nat) (token : String) : Except TokenError ConnectorSpec :=
  match (Text.split ',' token.toList).map String.ofList with
  | [type] => ofFields index type none none
  | [type, planes] => ofFields index type (some planes) none
  | [type, planes, monitor] => ofFields index type (some planes) (some monitor)
  | _ => .error (.tooManyFields token)

/-- The specifications that tokens give for the connectors from an index on, up to the first token
that is wrong. -/
def ofTokens (index : Nat) : List String → Except TokenError (List ConnectorSpec)
  | [] => .ok []
  | token :: tokens => do
    let spec ← ofToken index token
    let specs ← ofTokens (index + 1) tokens
    return spec :: specs

end ConnectorSpec

end DisplayTopology
