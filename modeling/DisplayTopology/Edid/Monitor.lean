import DisplayTopology.Edid.Digests
import DisplayTopology.Text.Hex

/-!
# Emulated monitors

A virtual connector may pretend that a monitor is plugged in. The catalogue holds monitors of three
families: internal panels, DisplayPort monitors and HDMI monitors; each has a symbolic name and the
EDID that it reports. Names are distinct over the whole catalogue (`Monitor.ofName?_name`).
-/

namespace DisplayTopology

/-- The families of emulated monitors. -/
inductive MonitorFamily where
  | edp
  | dp
  | hdmi
  deriving DecidableEq

/-- The name of a family. -/
def MonitorFamily.name : MonitorFamily → String
  | edp => "edp"
  | dp => "dp"
  | hdmi => "hdmi"

/-- The emulated monitors. -/
inductive Monitor where
  | redrix
  | asusVe258
  | dellU2410Dp
  | hpSpectre32Dp
  | hpZ24iDp
  | asusVh238
  | dellU2410Hdmi
  | hpSpectre32Hdmi
  | hpZ24iHdmi
  deriving DecidableEq

namespace Monitor

/-- The catalogue, in order: internal panels, DisplayPort monitors, HDMI monitors. -/
def all : List Monitor :=
  [redrix, asusVe258, dellU2410Dp, hpSpectre32Dp, hpZ24iDp, asusVh238, dellU2410Hdmi,
    hpSpectre32Hdmi, hpZ24iHdmi]

/-- The family that a monitor belongs to. -/
def family : Monitor → MonitorFamily
  | redrix => .edp
  | asusVe258 | dellU2410Dp | hpSpectre32Dp | hpZ24iDp => .dp
  | asusVh238 | dellU2410Hdmi | hpSpectre32Hdmi | hpZ24iHdmi => .hdmi

/-- The symbolic name of a monitor. -/
def name : Monitor → String
  | redrix => "REDRIX"
  | asusVe258 => "ACI_9713_ASUS_VE258_DP"
  | dellU2410Dp => "DEL_61463_DELL_U2410_DP"
  | hpSpectre32Dp => "HP_Spectre32_4K_DP"
  | hpZ24iDp => "HWP_12446_HP_Z24i_DP"
  | asusVh238 => "ACI_9155_ASUS_VH238_HDMI"
  | dellU2410Hdmi => "DEL_61462_DELL_U2410_HDMI"
  | hpSpectre32Hdmi => "HP_Spectre32_4K_HDMI"
  | hpZ24iHdmi => "HWP_12447_HP_Z24i_HDMI"

/-- The digest of a monitor's EDID, row by row. -/
def digestRows : Monitor → List String
  | redrix => Edid.Digest.redrix
  | asusVe258 => Edid.Digest.asusVe258
  | dellU2410Dp => Edid.Digest.dellU2410Dp
  | hpSpectre32Dp => Edid.Digest.hpSpectre32Dp
  | hpZ24iDp => Edid.Digest.hpZ24iDp
  | asusVh238 => Edid.Digest.asusVh238
  | dellU2410Hdmi => Edid.Digest.dellU2410Hdmi
  | hpSpectre32Hdmi => Edid.Digest.hpSpectre32Hdmi
  | hpZ24iHdmi => Edid.Digest.hpZ24iHdmi

/-- The digest of a monitor's EDID. -/
def digest (m : Monitor) : String := String.join m.digestRows

/-- The EDID that a monitor reports. -/
def edid (m : Monitor) : Bytes := Hex.decode m.digest

/-- The monitors of a family, in order. -/
def ofFamily (f : MonitorFamily) : List Monitor := all.filter fun m => m.family == f

/-- The monitor of this name. -/
def ofName? (name : String) : Option Monitor := all.find? fun m => m.name == name

/-- The monitor of this name in one family. -/
def ofNameIn? (f : MonitorFamily) (name : String) : Option Monitor :=
  (ofFamily f).find? fun m => m.name == name

theorem mem_all (m : Monitor) : m ∈ all := by cases m <;> decide

theorem ofName?_name (m : Monitor) : ofName? m.name = some m := by cases m <;> decide

theorem ofName?_eq_some_iff {name : String} {m : Monitor} :
    ofName? name = some m ↔ name = m.name :=
  ⟨fun h => .symm (by simpa using List.find?_some h), fun h => h ▸ ofName?_name m⟩

theorem ofName?_eq_none_iff {name : String} :
    ofName? name = none ↔ ∀ m : Monitor, name ≠ m.name := by
  simp only [Option.eq_none_iff_forall_ne_some, ne_eq, ofName?_eq_some_iff]

end Monitor

end DisplayTopology
