import DisplayTopology.CommandLine.Command
import DisplayTopology.Script.Run
import DisplayTopology.Surface.Driver

/-!
# Rehearsing a command

What a command does to a device that is ready for a topology under the standard settings. The
displays it asks for are provisioned and then all plugged in, and stay when the command ends.
-/

namespace DisplayTopology

/-- Why a command failed. -/
inductive RehearsalError where
  /-- A teardown did not end. -/
  | endless
  | notProvisioned (e : ProvisionError)
  | notEnabled (connector : Nat) (e : TopologyError)
  deriving DecidableEq

/-- What a failure says. -/
def RehearsalError.message : RehearsalError → String
  | endless => "Teardown does not end"
  | notProvisioned e => "Failed to set up vkms: " ++ e.message ++ ": " ++ e.error.message
  | notEnabled connector e =>
    "Failed to enable connector " ++ toString connector ++ ": " ++ e.message

namespace Command

/-- The device that a command is rehearsed on. -/
def freshDevice : Device := ⟨.ofDriver Settings.standard.root, .empty⟩

/-- Plugs displays into connectors, up to the first that fails. -/
def plugInAll (session : Session) : List Nat → Device → Except RehearsalError Device
  | [], d => .ok d
  | connector :: connectors, d =>
    match session.toggle connector true d with
    | (.ok _, d) => plugInAll session connectors d
    | (.error e, _) => .error (.notEnabled connector e)

/-- Provisions displays and plugs all of them in. -/
def setUp (count : Nat) (specs : List ConnectorSpec) (d : Device) : Except RehearsalError Device :=
  match Session.provision .standard count specs d with
  | none => .error .endless
  | some (.error e, _) => .error (.notProvisioned e)
  | some (.ok session, d) => plugInAll session.disableCleanup (List.range session.connectors) d

/-- Carries out a command. -/
def rehearse (d : Device) : Command → Except RehearsalError Device
  | generic count => setUp count [] d
  | config specs => setUp specs.length specs d
  | cleanup =>
    match d.teardown .standard with
    | none => .error .endless
    | some (_, d) => .ok d

end Command

end DisplayTopology
