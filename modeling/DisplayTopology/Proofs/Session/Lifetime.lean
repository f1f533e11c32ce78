import DisplayTopology.Proofs.Session.Steps
import DisplayTopology.Proofs.Surface.Driver
import DisplayTopology.Proofs.Teardown.Undoing
import DisplayTopology.Script.Run

/-!
# The life of a session

After a session was provisioned on a vacant surface, connectors may be toggled and read, calls may be
marked to fail, cleanup may be disabled and a teardown asked for, in any order and any number of
times. Whichever of the last two comes first decides the fate of the session (`fate`): its topology
is torn down once, and the entries are those from before it was provisioned, or it is kept until it
is torn down by force (`session_lifetime`).

The invariant is `Standing`: a session that is pending or kept stands on a raised surface, and one
that was torn down on the entries from before.
-/

namespace DisplayTopology

open Location Surface

/-- What may happen to a session between its provisioning and its end. -/
inductive LifeCall where
  | toggle (connector : Nat) (enable : Bool)
  | status (connector : Nat)
  | disableCleanup
  | teardown
  /-- A path of the surface is marked to fail. -/
  | failOn (path : Path) (errno : Errno)

/-- A call in the life of a session as an action of a script. -/
def LifeCall.action (name : String) : LifeCall → Script.Action
  | toggle connector enable => .session name (.toggle connector enable)
  | status connector => .session name (.status connector)
  | disableCleanup => .session name .disableCleanup
  | teardown => .session name .teardown
  | failOn path errno => .surface (.failOn path errno)

/-- What becomes of a session. -/
inductive Fate where
  /-- Its topology is still to be torn down. -/
  | pending
  /-- Its topology was torn down. -/
  | tornDown
  /-- Its topology stays in place. -/
  | kept
  deriving DecidableEq

namespace Fate

/-- A fate once decided stays; it is decided by a teardown or by disabling cleanup. -/
def next : Fate → LifeCall → Fate
  | pending, .teardown => tornDown
  | pending, .disableCleanup => kept
  | f, _ => f

/-- The phase that goes with a fate. -/
def phase : Fate → Phase
  | tornDown => .tornDown
  | _ => .ready

/-- The number of teardowns that a fate stands for. -/
def teardowns : Fate → Nat
  | tornDown => 1
  | _ => 0

end Fate

/-- The fate of a session after calls: whichever of a teardown and disabling cleanup came first. -/
def fate (calls : List LifeCall) : Fate := calls.foldl Fate.next .pending

/-- Whether an answer reports a teardown. -/
def Script.Answer.isReport : Script.Answer → Bool
  | .session (.report (some _) _) => true
  | _ => false

@[simp] theorem isReport_ofAnswer (answer : Except TopologyError Unit) :
    (Script.Answer.session (SessionCall.ofAnswer answer)).isReport = false := by
  cases answer <;> rfl

@[simp] theorem isReport_ofStatus (answer : Except TopologyError (Option ConnectorStatus)) :
    (Script.Answer.session (SessionCall.ofStatus answer)).isReport = false := by
  cases answer <;> rfl

variable {base : Surface} {settings : Settings} {session : Session} {d : Device} {f : Fate}
  {name : String} {st : Script.State}

/-! ## The invariant -/

/-- How a session of a fate stands, over the surface from before it was provisioned. -/
inductive Standing (base : Surface) (settings : Settings) : Fate → Session → Device → Prop where
  | pending {session : Session} {d : Device} (hset : session.settings = settings)
      (hphase : session.phase = .ready) (hclean : session.cleanupDisabled = false)
      (hraised : Raised base settings.root.location d.surface) :
      Standing base settings .pending session d
  | tornDown {session : Session} {d : Device} (hset : session.settings = settings)
      (hphase : session.phase = .tornDown) (hne : settings.root.location ≠ [])
      (hentries : d.surface.entries.entries = base.entries.entries) :
      Standing base settings .tornDown session d
  | kept {session : Session} {d : Device} (hset : session.settings = settings)
      (hphase : session.phase = .ready) (hclean : session.cleanupDisabled = true)
      (hraised : Raised base settings.root.location d.surface) :
      Standing base settings .kept session d

namespace Standing

theorem settings_eq (h : Standing base settings f session d) : session.settings = settings := by
  cases h <;> assumption

theorem phase_eq (h : Standing base settings f session d) : session.phase = f.phase := by
  cases h <;> assumption

/-- Where the entries are those from before, there is no directory at the root or below it. -/
theorem isDir_eq_false (hb : base.Vacant settings.root.location)
    (hne : settings.root.location ≠ [])
    (h : d.surface.entries.entries = base.entries.entries) {dir : Path}
    (hw : dir.location.within settings.root.location) : d.surface.isDir dir = false := by
  have hslot := PathMap.entries_eq_iff.1 h dir.location
  have hfree := hb.find?_eq_none hne hw
  rw [isDir, dirAt, PathMap.find?_congr hslot, hfree]

/-- Toggling a connector that is gone changes nothing. -/
theorem setStatus_of_gone (hb : base.Vacant settings.root.location)
    (hne : settings.root.location ≠ [])
    (h : d.surface.entries.entries = base.entries.entries) (connector : Nat)
    (status : ConnectorStatus) :
    (Graph.setStatus settings.root connector status d.surface).2 = d.surface := by
  have hattr : Path.IsName "status" := by decide
  have hgone : d.surface.isDir (Graph.nodePath settings.root (.connector connector)) = false := by
    exact isDir_eq_false hb hne h (Graph.within_nodePath settings.root (.connector connector))
  have hparent := Graph.parent?_attrPath settings.root (.connector connector) hattr
  obtain ⟨e, he⟩ := exists_write_eq_error hparent hgone (Graph.codeBytes status.code)
  rw [Graph.setStatus, Graph.writeAttr, he]
  rfl

theorem toggle (h : Standing base settings f session d) (hb : base.Vacant settings.root.location)
    (connector : Nat) (enable : Bool) :
    Standing base settings f session (session.toggle connector enable d).2 := by
  unfold Session.toggle
  split
  · exact h
  · cases h with
    | pending hset hphase hclean hraised =>
      refine .pending hset hphase hclean ?_
      rw [Device.onSurface_surface, hset]
      exact hraised.setStatus connector _
    | kept hset hphase hclean hraised =>
      refine .kept hset hphase hclean ?_
      rw [Device.onSurface_surface, hset]
      exact hraised.setStatus connector _
    | tornDown hset hphase hne hentries =>
      refine .tornDown hset hphase hne ?_
      rw [Device.onSurface_surface, hset, setStatus_of_gone hb hne hentries, hentries]

theorem failOn (h : Standing base settings f session d) (p : Path) (e : Errno) :
    Standing base settings f session { d with surface := d.surface.failOn p e } := by
  cases h with
  | pending hset hphase hclean hraised => exact .pending hset hphase hclean (hraised.failOn p e)
  | kept hset hphase hclean hraised => exact .kept hset hphase hclean (hraised.failOn p e)
  | tornDown hset hphase hne hentries => exact .tornDown hset hphase hne hentries

theorem disableCleanup (h : Standing base settings f session d) :
    Standing base settings (f.next .disableCleanup) session.disableCleanup d := by
  cases h with
  | pending hset hphase _ hraised => exact .kept hset hphase rfl hraised
  | kept hset hphase _ hraised => exact .kept hset hphase rfl hraised
  | tornDown hset hphase hne hentries => exact .tornDown hset hphase hne hentries

/-- A teardown is carried out while the fate of the session is pending, and gives back the entries;
after that nothing happens. -/
theorem teardown (h : Standing base settings f session d)
    (hb : base.Vacant settings.root.location) :
    (f = .pending → ∃ report after,
      session.teardown d = some (some report, { session with phase := .tornDown }, after) ∧
        report.removedRoot settings.root ∧
        after.surface.entries.entries = base.entries.entries) ∧
      (f ≠ .pending → session.teardown d = some (none, session, d)) := by
  cases h with
  | pending hset hphase hclean hraised =>
    refine ⟨fun _ => ?_, fun hne => absurd rfl hne⟩
    obtain ⟨report, after, ht, hentries, hroot⟩ := hraised.teardown hb
    exact ⟨report, after, by simp [Session.teardown, hset, hphase, hclean, ht], hroot, hentries⟩
  | kept hset hphase hclean hraised =>
    exact ⟨fun h => by simp at h, fun _ => by simp [Session.teardown, hclean]⟩
  | tornDown hset hphase hne hentries =>
    exact ⟨fun h => by simp at h, fun _ => by simp [Session.teardown, hphase]⟩

/-- A session that was torn down stands on the entries from before. -/
theorem of_teardown (h : Standing base settings .pending session d) {after : Device}
    (hentries : after.surface.entries.entries = base.entries.entries) :
    Standing base settings .tornDown { session with phase := .tornDown } after := by
  cases h with
  | pending hset hphase hclean hraised => exact .tornDown hset rfl hraised.root_ne_nil hentries

/-- Whatever became of a session, a teardown by force gives back the entries from before. -/
theorem forceDelete (h : Standing base settings f session d)
    (hb : base.Vacant settings.root.location) :
    ∃ report after, d.teardown settings = some (report, after) ∧
      after.surface.entries.entries = base.entries.entries := by
  cases h with
  | pending hset hphase hclean hraised | kept hset hphase hclean hraised =>
    obtain ⟨report, after, ht, hentries, -⟩ := hraised.teardown hb
    exact ⟨report, after, ht, hentries⟩
  | tornDown hset hphase hne hentries =>
    have hdir : d.surface.isDir settings.root = false :=
      isDir_eq_false hb hne hentries (within_refl _)
    obtain ⟨report, after, ht, hafter, -⟩ := teardown_of_not_isDir hdir
    exact ⟨report, after, ht, by rw [hafter, hentries]⟩

end Standing

/-! ## Steps and runs of scripts -/

/-- The session of a name stands on the device of a script. -/
def Stands (base : Surface) (settings : Settings) (f : Fate) (name : String) (st : Script.State) :
    Prop :=
  ∃ session, st.session? name = some session ∧ Standing base settings f session st.device

theorem Stands.of_setSession {next : Session} (h : Standing base settings f next d) :
    Stands base settings f name ((Script.State.mk d st.sessions).setSession name (some next)) :=
  ⟨next, by rw [Script.State.session?_setSession, if_pos rfl], h⟩

/-- **Step.** Each call of a session's life leaves it standing with its next fate, and reports a
teardown exactly when that is when its fate is decided so. -/
theorem Stands.step (h : Stands base settings f name st)
    (hb : base.Vacant settings.root.location) (call : LifeCall) :
    ∃ answer next, Script.step st (call.action name) = some (answer, next) ∧
      Stands base settings (f.next call) name next ∧
      f.teardowns + [answer].countP Script.Answer.isReport = (f.next call).teardowns := by
  obtain ⟨session, hname, hstands⟩ := h
  cases call with
  | toggle connector enable =>
    have hf : f.next (.toggle connector enable) = f := by cases f <;> rfl
    rw [LifeCall.action, Script.step, hname, hf]
    exact ⟨_, _, rfl, .of_setSession (hstands.toggle hb connector enable),
      by simp⟩
  | status connector =>
    have hf : f.next (.status connector) = f := by cases f <;> rfl
    rw [LifeCall.action, Script.step, hname, hf]
    exact ⟨_, _, rfl, .of_setSession hstands, by simp⟩
  | disableCleanup =>
    have hf : (f.next .disableCleanup).teardowns = f.teardowns := by cases f <;> rfl
    rw [LifeCall.action, Script.step, hname, hf]
    exact ⟨_, _, rfl, .of_setSession hstands.disableCleanup, rfl⟩
  | failOn path errno =>
    have hf : f.next (.failOn path errno) = f := by cases f <;> rfl
    rw [LifeCall.action, Script.step, hf]
    exact ⟨_, _, rfl, ⟨session, hname, hstands.failOn path errno⟩, rfl⟩
  | teardown =>
    rw [LifeCall.action, Script.step, hname]
    by_cases hf : f = .pending
    · subst hf
      obtain ⟨report, after, ht, -, hentries⟩ := (hstands.teardown hb).1 rfl
      simp only [SessionCall.run, ht, Option.map_some]
      exact ⟨_, _, rfl, .of_setSession (hstands.of_teardown hentries), rfl⟩
    · have hnext : f.next .teardown = f := by cases f <;> first | rfl | exact absurd rfl hf
      simp only [SessionCall.run, (hstands.teardown hb).2 hf, Option.map_some, hnext]
      exact ⟨_, _, rfl, .of_setSession hstands, rfl⟩

/-- **Run.** Calls of a session's life all end and leave it standing with the fate they decide. -/
theorem Stands.run (h : Stands base settings f name st)
    (hb : base.Vacant settings.root.location) (calls : List LifeCall) :
    ∃ answers last, Script.run st (calls.map (LifeCall.action name)) = some (answers, last) ∧
      Stands base settings (calls.foldl Fate.next f) name last ∧
      f.teardowns + answers.countP Script.Answer.isReport =
        (calls.foldl Fate.next f).teardowns := by
  induction calls generalizing f st with
  | nil => exact ⟨[], st, rfl, h, rfl⟩
  | cons call calls ih =>
    obtain ⟨answer, next, hstep, hnext, hcount⟩ := h.step hb call
    obtain ⟨answers, last, hrun, hlast, hcounts⟩ := ih hnext
    refine ⟨answer :: answers, last, by simp [Script.run, hstep, hrun], hlast, ?_⟩
    rw [← List.singleton_append, List.countP_append]
    rw [List.foldl_cons]
    omega

/-! ## The life of a session -/

/-- What is known of a session of a fate, and of the device that it stands on. -/
structure Lifetime (base : Surface) (settings : Settings) (name : String) (f : Fate)
    (answers : List Script.Answer) (st : Script.State) : Prop where
  /-- The session is in the phase of its fate. -/
  phase : ∃ session, st.session? name = some session ∧ session.phase = f.phase
  /-- One teardown was carried out if the session was torn down, and none otherwise. -/
  reports : answers.countP Script.Answer.isReport = f.teardowns
  /-- After the teardown the entries are those from before the session. -/
  entries : f = .tornDown → st.device.surface.entries.entries = base.entries.entries
  /-- A teardown, if it is still to be done, gives back the entries from before the session. -/
  pending_teardown : f = .pending → ∃ report next,
    Script.step st (.session name .teardown) =
      some (.session (.report (some report) (some true)), next) ∧
    next.device.surface.entries.entries = base.entries.entries
  /-- Any other teardown answers none and changes neither the surface nor the control. -/
  decided_teardown : f ≠ .pending → ∃ next,
    Script.step st (.session name .teardown) = some (.session (.report none none), next) ∧
    next.device = st.device
  /-- To drop the session does what is still to be done. -/
  drop : ∃ next, Script.step st (.session name .drop) = some (.session .done, next) ∧
    next.session? name = none ∧ (f ≠ .pending → next.device = st.device) ∧
    (f ≠ .kept → next.device.surface.entries.entries = base.entries.entries)
  /-- On this device, with or without the session, a teardown by force gives back the entries from
  before the session. -/
  forceDelete : ∀ other : Script.State, other.device = st.device → ∃ report removedRoot next,
    Script.step other (.forceDelete settings) = some (.deleted report removedRoot, next) ∧
    next.device.surface.entries.entries = base.entries.entries

theorem Stands.lifetime (h : Stands base settings f name st)
    (hb : base.Vacant settings.root.location) {answers : List Script.Answer}
    (hcount : answers.countP Script.Answer.isReport = f.teardowns) :
    Lifetime base settings name f answers st := by
  obtain ⟨session, hname, hstands⟩ := h
  have hentries (hf : f = .tornDown) :
      st.device.surface.entries.entries = base.entries.entries := by
    subst hf
    cases hstands with
    | tornDown _ _ _ hentries => exact hentries
  refine ⟨⟨session, hname, hstands.phase_eq⟩, hcount, hentries, fun hf => ?_, fun hf => ?_, ?_, ?_⟩
  · obtain ⟨report, after, ht, hroot, hafter⟩ := (hstands.teardown hb).1 hf
    rw [Script.step, hname]
    simp only [SessionCall.run, ht, Option.map_some, hstands.settings_eq, hroot]
    exact ⟨report, _, rfl, hafter⟩
  · rw [Script.step, hname]
    simp only [SessionCall.run, (hstands.teardown hb).2 hf, Option.map_some]
    exact ⟨_, rfl, rfl⟩
  · rw [Script.step, hname]
    by_cases hf : f = .pending
    · obtain ⟨report, after, ht, -, hafter⟩ := (hstands.teardown hb).1 hf
      simp only [SessionCall.run, Session.drop, ht, Option.map_some]
      exact ⟨_, rfl, by rw [Script.State.session?_setSession, if_pos rfl],
        fun hne => absurd hf hne, fun _ => hafter⟩
    · simp only [SessionCall.run, Session.drop, (hstands.teardown hb).2 hf, Option.map_some]
      refine ⟨_, rfl, by rw [Script.State.session?_setSession, if_pos rfl], fun _ => rfl,
        fun hkept => hentries ?_⟩
      cases f with
      | tornDown => rfl
      | pending => exact absurd rfl hf
      | kept => exact absurd rfl hkept
  · intro other hother
    obtain ⟨report, after, ht, hafter⟩ := hstands.forceDelete hb
    exact ⟨report, report.removedRoot settings.root, { other with device := after },
      by simp [Script.step, hother, ht], hafter⟩

/-- An action that provisions a session keeps it under its name. -/
theorem Script.exists_provision_of_step {count : Nat} {specs : List ConnectorSpec}
    {started : Script.State} (h : Script.step st (.provision name settings count specs) =
      some (.provisioned session, started)) :
    ∃ after, Session.provision settings count specs st.device = some (.ok session, after) ∧
      started = Script.State.setSession { st with device := after } name session := by
  rw [Script.step] at h
  obtain ⟨⟨answer, after⟩, hprov, hanswer⟩ := Option.map_eq_some_iff.1 h
  cases answer with
  | error e => simp at hanswer
  | ok made =>
    simp only [Prod.mk.injEq, Script.Answer.provisioned.injEq] at hanswer
    obtain ⟨rfl, rfl⟩ := hanswer
    exact ⟨after, hprov, rfl⟩

/-- A session that was provisioned on a vacant surface stands on it. -/
theorem stands_of_provision {count : Nat} {specs : List ConnectorSpec} {started : Script.State}
    (hv : st.device.surface.Vacant settings.root.location)
    (hp : Script.step st (.provision name settings count specs) =
      some (.provisioned session, started)) :
    Stands st.device.surface settings .pending name started := by
  obtain ⟨after, hprov, rfl⟩ := Script.exists_provision_of_step hp
  obtain ⟨plan, -, rfl, hr⟩ := Session.exists_plan_of_provision hprov
  refine .of_setSession ?_
  rcases ProvisionStep.runAll_ofPlan plan hv with ⟨e, failed, -, he, -⟩ | ⟨-, hraised⟩
  · rw [hr] at he
    simp at he
  · rw [hr] at hraised
    exact .pending rfl rfl rfl hraised

/-- **The life of a session** that was provisioned on a vacant surface undoes itself once or not at
all. After any calls, its fate says what was done and what is still to be done. -/
theorem session_lifetime (st : Script.State) (name : String) (settings : Settings) (count : Nat)
    (specs : List ConnectorSpec) (session : Session) (started : Script.State)
    (calls : List LifeCall) (hv : st.device.surface.Vacant settings.root.location)
    (hp : Script.step st (.provision name settings count specs) =
      some (.provisioned session, started)) :
    ∃ answers last, Script.run started (calls.map (LifeCall.action name)) = some (answers, last) ∧
      Lifetime st.device.surface settings name (fate calls) answers last := by
  obtain ⟨answers, last, hrun, hlast, hcount⟩ := (stands_of_provision hv hp).run hv calls
  exact ⟨answers, last, hrun, hlast.lifetime hv (by simpa [Fate.teardowns] using hcount)⟩

theorem session_lifetime_driver :
    (Surface.ofDriver (.ofText "/c/v")).Vacant (Path.ofText "/c/v").location ∧
      ∃ session started,
        Script.step (.start (.ofDriver (.ofText "/c/v")))
            (.provision "s" { Settings.standard with root := .ofText "/c/v" } 1 []) =
          some (.provisioned session, started) ∧
        ∃ answers last,
          Script.run started
              ([.toggle 0 true, .teardown, .disableCleanup, .teardown].map (LifeCall.action "s")) =
            some (answers, last) ∧
          Lifetime (.ofDriver (.ofText "/c/v")) { Settings.standard with root := .ofText "/c/v" }
            "s" .tornDown answers last := by
  have hparent : ((Path.ofText "/c/v").parent?).isSome := by decide +kernel
  obtain ⟨dir, hdir⟩ := Option.isSome_iff_exists.1 hparent
  have hok : (Script.step (.start (.ofDriver (.ofText "/c/v")))
      (.provision "s" { Settings.standard with root := .ofText "/c/v" } 1 [])).any
        (fun r => r.1 matches .provisioned _) := by decide +kernel
  obtain ⟨⟨answer, started⟩, hstep, hanswer⟩ := (Option.any_eq_true _ _).1 hok
  cases answer with
  | provisioned session =>
    exact ⟨vacant_ofDriver hdir, session, started, hstep,
      session_lifetime (.start (.ofDriver (.ofText "/c/v"))) "s"
        { Settings.standard with root := .ofText "/c/v" } 1 [] session started
        [.toggle 0 true, .teardown, .disableCleanup, .teardown] (vacant_ofDriver hdir) hstep⟩
  | _ => simp at hanswer

end DisplayTopology
