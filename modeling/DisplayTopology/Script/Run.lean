import DisplayTopology.Script.Control
import DisplayTopology.Script.Graph
import DisplayTopology.Script.Session
import DisplayTopology.Script.Surface

/-!
# Scripts

A script works on one device with any number of named sessions. Its actions are the calls of the
surface, of the control, of the resources below a root and of the sessions, provisioning a session,
and tearing down by force. A run carries out actions in order (`run_append`); it has no end when
one of its teardowns has none.
-/

namespace DisplayTopology.Script

/-- What a script works on. -/
structure State where
  device : Device
  /-- The sessions by name. -/
  sessions : List (String × Session)

/-- One action of a script. -/
inductive Action where
  | surface (call : SurfaceCall)
  | control (call : ControlCall)
  | graph (root : Path) (call : GraphCall)
  /-- Provisions a session under a name. -/
  | provision (name : String) (settings : Settings) (count : Nat) (specs : List ConnectorSpec)
  | session (name : String) (call : SessionCall)
  /-- Tears down the topology of some settings, whoever built it. -/
  | forceDelete (settings : Settings)
  deriving DecidableEq

/-- What an action answers. -/
inductive Answer where
  | surface (answer : SurfaceAnswer)
  | control (answer : ControlAnswer)
  | graph (answer : GraphAnswer)
  | provisioned (session : Session)
  | rejected (error : ProvisionError)
  | session (answer : SessionAnswer)
  | deleted (report : Report) (removedRoot : Bool)
  /-- There is no session of the name. -/
  | noSession
  deriving DecidableEq

namespace State

/-- The state before a script: a surface, an unused control, and no sessions. -/
def start (surface : Surface) : State := ⟨⟨surface, .empty⟩, []⟩

/-- The state with another surface. -/
def setSurface (st : State) (s : Surface) : State := { st with device := { st.device with surface := s } }

/-- The state with another control. -/
def setControl (st : State) (c : Control) : State := { st with device := { st.device with control := c } }

/-- The session of a name. -/
def session? (st : State) (name : String) : Option Session :=
  (st.sessions.find? fun slot => slot.1 == name).map Prod.snd

/-- Puts a session under a name, or leaves the name free. -/
def setSession (st : State) (name : String) (session : Option Session) : State :=
  { st with
    sessions := (session.map (Prod.mk name)).toList ++ st.sessions.filter fun slot => slot.1 != name }

theorem session?_setSession (st : State) (name other : String) (session : Option Session) :
    (st.setSession name session).session? other =
      if other = name then session else st.session? other := by
  by_cases h : other = name
  · subst h
    cases session with
    | none => simp [session?, setSession]
    | some session => simp [session?, setSession]
  · have hf : (st.sessions.filter fun slot => slot.1 != name).find? (fun slot => slot.1 == other) =
        st.sessions.find? fun slot => slot.1 == other := by
      rw [List.find?_filter]
      congr 1
      funext slot
      by_cases hs : slot.1 = other <;> simp [hs, h]
    cases session with
    | none => simp [session?, setSession, hf, h]
    | some session => simp [session?, setSession, hf, h, Ne.symm h]

end State

/-- Carries out an action. Provisioning under a name that is in use forgets the session that had the
name as it stands: its topology is not torn down, as it would be if that session were dropped. -/
def step (st : State) : Action → Option (Answer × State)
  | .surface call =>
    let (answer, s) := call.run st.device.surface
    some (.surface answer, st.setSurface s)
  | .control call =>
    let (answer, c) := call.run st.device.control
    some (.control answer, st.setControl c)
  | .graph root call =>
    let (answer, s) := call.run root st.device.surface
    some (.graph answer, st.setSurface s)
  | .provision name settings count specs =>
    (Session.provision settings count specs st.device).map fun
      | (.ok session, d) => (.provisioned session, { st with device := d }.setSession name session)
      | (.error e, d) => (.rejected e, { st with device := d })
  | .session name call =>
    match st.session? name with
    | none => some (.noSession, st)
    | some session =>
      (call.run session st.device).map fun (answer, next, d) =>
        (.session answer, { st with device := d }.setSession name next)
  | .forceDelete settings =>
    (st.device.teardown settings).map fun (report, d) =>
      (.deleted report (report.removedRoot settings.root), { st with device := d })

/-- Carries out actions in order: the answers, and the state after them. -/
def run (st : State) : List Action → Option (List Answer × State)
  | [] => some ([], st)
  | action :: actions =>
    match step st action with
    | none => none
    | some (answer, st) => (run st actions).map fun (answers, st) => (answer :: answers, st)

theorem run_append (st : State) (actions more : List Action) :
    run st (actions ++ more) =
      (run st actions).bind fun (answers, st) =>
        (run st more).map fun (rest, st) => (answers ++ rest, st) := by
  induction actions generalizing st with
  | nil => simp [run]
  | cons action actions ih =>
    rw [List.cons_append, run, run]
    cases step st action with
    | none => rfl
    | some next =>
      obtain ⟨answer, st⟩ := next
      simp only [ih]
      cases run st actions <;> simp [Function.comp_def]

end DisplayTopology.Script
