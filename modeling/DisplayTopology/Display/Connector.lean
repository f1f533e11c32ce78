/-!
# Connectors and planes

The types and states of connectors and the types of planes, with the names that people use for
them and the codes that the driver's attribute files hold. Names and codes find their values again
(`ConnectorType.ofName?_name`, `ConnectorType.ofCode?_code`, `ConnectorStatus.ofCode?_code`).
-/

namespace DisplayTopology

/-- The types of display connectors. -/
inductive ConnectorType where
  | unknown
  | vga
  | displayPort
  | hdmiA
  | hdmiB
  | edp
  | virtual
  | dsi
  | dpi
  | writeback
  deriving DecidableEq

namespace ConnectorType

/-- Every connector type, by code. -/
def all : List ConnectorType :=
  [unknown, vga, displayPort, hdmiA, hdmiB, edp, virtual, dsi, dpi, writeback]

/-- The code in a connector's type attribute. -/
def code : ConnectorType → Nat
  | unknown => 0
  | vga => 1
  | displayPort => 10
  | hdmiA => 11
  | hdmiB => 12
  | edp => 14
  | virtual => 15
  | dsi => 16
  | dpi => 17
  | writeback => 18

/-- The short name of a connector type. -/
def name : ConnectorType → String
  | unknown => "UNKNOWN"
  | vga => "VGA"
  | displayPort => "DP"
  | hdmiA => "HDMIA"
  | hdmiB => "HDMIB"
  | edp => "eDP"
  | virtual => "VIRTUAL"
  | dsi => "DSI"
  | dpi => "DPI"
  | writeback => "WRITEBACK"

/-- The connector type of this short name; letter case counts. -/
def ofName? (name : String) : Option ConnectorType := all.find? fun t => t.name == name

/-- The connector type of this code. -/
def ofCode? (code : Nat) : Option ConnectorType := all.find? fun t => t.code == code

theorem mem_all (t : ConnectorType) : t ∈ all := by cases t <;> decide

theorem ofName?_name (t : ConnectorType) : ofName? t.name = some t := by cases t <;> rfl

theorem ofCode?_code (t : ConnectorType) : ofCode? t.code = some t := by cases t <;> rfl

theorem ofName?_eq_some_iff {name : String} {t : ConnectorType} :
    ofName? name = some t ↔ name = t.name :=
  ⟨fun h => .symm (by simpa using List.find?_some h), fun h => h ▸ ofName?_name t⟩

theorem ofName?_eq_none_iff {name : String} :
    ofName? name = none ↔ ∀ t : ConnectorType, name ≠ t.name := by
  simp only [Option.eq_none_iff_forall_ne_some, ne_eq, ofName?_eq_some_iff]

end ConnectorType

/-- Whether a display is plugged into a connector. -/
inductive ConnectorStatus where
  | connected
  | disconnected
  | unknown
  deriving DecidableEq

namespace ConnectorStatus

/-- Every status, by code. -/
def all : List ConnectorStatus := [connected, disconnected, unknown]

/-- The name of a status. -/
def name : ConnectorStatus → String
  | connected => "Connected"
  | disconnected => "Disconnected"
  | unknown => "Unknown"

/-- The code in a connector's status attribute. -/
def code : ConnectorStatus → Nat
  | connected => 1
  | disconnected => 2
  | unknown => 3

/-- The status of this code. -/
def ofCode? (code : Nat) : Option ConnectorStatus := all.find? fun s => s.code == code

/-- The status of a connector that is switched on or off. -/
def ofEnabled (enabled : Bool) : ConnectorStatus := if enabled then connected else disconnected

theorem ofCode?_code (s : ConnectorStatus) : ofCode? s.code = some s := by cases s <;> rfl

theorem code_of_ofCode? {code : Nat} {s : ConnectorStatus} (h : ofCode? code = some s) :
    s.code = code := by
  simpa using List.find?_some h

end ConnectorStatus

/-- What a plane of a display is for. -/
inductive PlaneType where
  | overlay
  | primary
  | cursor
  deriving DecidableEq

namespace PlaneType

/-- The name of a plane type. -/
def name : PlaneType → String
  | overlay => "Overlay"
  | primary => "Primary"
  | cursor => "Cursor"

/-- The code in a plane's type attribute. -/
def code : PlaneType → Nat
  | overlay => 0
  | primary => 1
  | cursor => 2

/-- The type of the plane at a position among a connector's planes: a cursor comes first, then a
primary plane, then overlays. -/
def atPosition : Nat → PlaneType
  | 0 => cursor
  | 1 => primary
  | _ => overlay

/-- What a plane's formats attribute holds: every format is supported. -/
def supportedFormats : String := "+*"

end PlaneType

end DisplayTopology
