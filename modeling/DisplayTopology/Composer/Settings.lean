import DisplayTopology.Path.Basic

/-!
# Session settings

Where a session builds its topology, and which service and properties it drives.
-/

namespace DisplayTopology

/-- The settings of a session. -/
structure Settings where
  /-- The root directory of the topology. -/
  root : Path
  /-- The device that the composer opens. -/
  drmDevice : String
  /-- The property that selects the device. -/
  backendProperty : String
  /-- The composer's service. -/
  serviceName : String
  /-- How many milliseconds the driver is given to settle before directories are removed. -/
  settleMillis : Nat
  deriving DecidableEq

namespace Settings

/-- The directory of the driver's configuration surface. -/
def driverDir : Path := .ofText "/config/vkms"

/-- The name of the topology in the driver's directory. -/
def instanceName : String := "my-vkms"

/-- The settings that a session has unless told otherwise. -/
def standard : Settings where
  root := driverDir / instanceName
  drmDevice := "/dev/dri/card1"
  backendProperty := "vendor.hwc.drm.device"
  serviceName := "vendor.hwcomposer-3"
  settleMillis := 500

/-- The file that switches the topology on. -/
def enabledPath (settings : Settings) : Path := settings.root / "enabled"

end Settings

end DisplayTopology
