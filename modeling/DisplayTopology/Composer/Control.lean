import DisplayTopology.Topology.Error

/-!
# System control

The composer that shows the displays is a service. It is started and stopped, and pointed at a
display device, by setting system properties. A `Control` records the properties that were set, in
order; setting a property that is marked to fail records nothing.
-/

namespace DisplayTopology

/-- The properties that were set so far, and those that cannot be set. -/
structure Control where
  /-- The keys and values that were set, in order. -/
  calls : List (String × String)
  /-- The keys that cannot be set. -/
  failing : List String
  deriving DecidableEq

namespace Control

/-- The control that has set nothing and refuses nothing. -/
def empty : Control := ⟨[], []⟩

/-- The property that starts a service. -/
def startKey : String := "ctl.start"

/-- The property that stops a service. -/
def stopKey : String := "ctl.stop"

/-- Why a property that is marked to fail is not set. -/
def refusal : String := "injected failure"

/-- Has setting a property fail. -/
def fail (c : Control) (key : String) : Control := { c with failing := key :: c.failing }

/-- Sets a property. -/
def set (c : Control) (key value : String) : Except TopologyError Control :=
  if c.failing.contains key then .error (.property key value refusal)
  else .ok { c with calls := c.calls ++ [(key, value)] }

/-- The value that a property was last set to. -/
def get? (c : Control) (key : String) : Option String :=
  (c.calls.reverse.find? fun call => call.1 == key).map Prod.snd

/-- Starts a service. -/
def start (c : Control) (service : String) : Except TopologyError Control := c.set startKey service

/-- Stops a service. -/
def stop (c : Control) (service : String) : Except TopologyError Control := c.set stopKey service

/-- Starts or stops a service. -/
def toggle (c : Control) (service : String) (enable : Bool) : Except TopologyError Control :=
  if enable then c.start service else c.stop service

theorem set_eq_ok_iff {c d : Control} {key value : String} :
    c.set key value = .ok d ↔
      key ∉ c.failing ∧ d = { c with calls := c.calls ++ [(key, value)] } := by
  rw [set]
  by_cases h : key ∈ c.failing <;> simp [h, eq_comm (a := d)]

end Control

end DisplayTopology
