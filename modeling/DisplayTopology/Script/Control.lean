import DisplayTopology.Composer.Control

/-!
# Calls of a control

Every way to set, mark and read properties, as a value.
-/

namespace DisplayTopology

/-- One call of a control. -/
inductive ControlCall where
  | set (key value : String)
  | start (service : String)
  | stop (service : String)
  | toggle (service : String) (enable : Bool)
  | fail (key : String)
  | get (key : String)
  | calls
  deriving DecidableEq

/-- What a call of a control answers. -/
inductive ControlAnswer where
  | done
  | failed (e : TopologyError)
  | value (value : Option String)
  | calls (calls : List (String × String))
  deriving DecidableEq

namespace ControlCall

/-- The outcome of setting a property. -/
def ofSetting (c : Control) : Except TopologyError Control → ControlAnswer × Control
  | .ok d => (.done, d)
  | .error e => (.failed e, c)

/-- Carries out a call. -/
def run (c : Control) : ControlCall → ControlAnswer × Control
  | set key value => ofSetting c (c.set key value)
  | start service => ofSetting c (c.start service)
  | stop service => ofSetting c (c.stop service)
  | toggle service enable => ofSetting c (c.toggle service enable)
  | fail key => (.done, c.fail key)
  | get key => (.value (c.get? key), c)
  | calls => (.calls c.calls, c)

end ControlCall

end DisplayTopology
