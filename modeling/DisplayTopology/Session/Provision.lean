import DisplayTopology.Session.Device
import DisplayTopology.Topology.Build

/-!
# Provisioning steps

Building a topology on a device is a list of steps, carried out up to the first that fails: the
composer is stopped and pointed at the device, the root is made, the operations of the plan are
carried out, the topology is switched on, and the composer is started.
-/

namespace DisplayTopology

/-- One step of provisioning. -/
inductive ProvisionStep where
  | setProperty (key value : String)
  | createRoot
  | operation (op : GraphOp)
  | enable
  deriving DecidableEq

namespace ProvisionStep

/-- The steps that build a plan's topology. -/
def ofPlan (settings : Settings) (plan : Plan) : List ProvisionStep :=
  [setProperty Control.stopKey settings.serviceName,
    setProperty settings.backendProperty settings.drmDevice, createRoot] ++
  plan.ops.toList.map operation ++
  [enable, setProperty Control.startKey settings.serviceName]

/-- Carries out a step for a topology at `root`. -/
def run (root : Path) (d : Device) : ProvisionStep → Device.Effect
  | setProperty key value => d.onControl fun c => c.set key value
  | createRoot => d.onSurface (Graph.createRoot root)
  | operation op => d.onSurface (Graph.apply root op)
  | enable => d.onSurface (Graph.setEnabled root true)

/-- Carries out steps in order, up to the first that fails. -/
def runAll (root : Path) : List ProvisionStep → Device → Device.Effect
  | [], d => (.ok (), d)
  | step :: steps, d =>
    match step.run root d with
    | (.error e, d) => (.error e, d)
    | (.ok _, d) => runAll root steps d

theorem runAll_append (root : Path) (steps more : List ProvisionStep) (d : Device) :
    runAll root (steps ++ more) d =
      match runAll root steps d with
      | (.error e, d) => (.error e, d)
      | (.ok _, d) => runAll root more d := by
  induction steps generalizing d with
  | nil => rfl
  | cons step steps ih =>
    rw [List.cons_append, runAll, runAll]
    rcases step.run root d with ⟨_ | _, d⟩
    · rfl
    · exact ih d

end ProvisionStep

end DisplayTopology
