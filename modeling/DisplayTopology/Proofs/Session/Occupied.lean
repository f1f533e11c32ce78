import DisplayTopology.Proofs.Session.Apart
import DisplayTopology.Proofs.Session.ControlLog
import DisplayTopology.Proofs.Session.Declared
import DisplayTopology.Proofs.Teardown.Quiet

/-!
# A root that is taken

A second session is provisioned at a root where the topology of a first one stands, and nothing is
marked to fail. It stops when the root is to be made, and its rollback does not ask whose topology it
finds: it takes down that of the first session, passes nothing over, and leaves the entries from
before both (`Occupies.provision`). The first session does not notice. It still says that it is
ready, but its connectors are gone and there is nothing left for its teardown (`Ousted`). So the
second one goes through when it is tried again (`provision_occupied`).

The rollback is quiet because a finished topology is in order (`Complete.tidy`), and switching its
connectors keeps it so (`Occupies.toggle`).
-/

namespace DisplayTopology

open Location Surface Teardown

variable {root : Path} {ops : List GraphOp} {base s t : Surface} {l dir : Location} {p : Path}
  {e : Entry} {settings : Settings} {session : Session} {count : Nat} {specs : List ConnectorSpec}
  {plan : Plan} {d : Device} {name : String} {st : Script.State}

/-! ## A finished topology is in order -/

/-- A directory for links that operations show is the driver's. -/
theorem Shown.owner_eq_kernel (h : Shown root ops l e) {owner : Owner} (he : e = .dir owner)
    (hb : l.below root.location) (hlink : IsLinkDir l) : owner = .kernel := by
  cases h with
  | root => exact absurd rfl (ne_of_below hb)
  | group => exact (Entry.dir.inj he).symm
  | @added op _ _ hop h =>
    cases h with
    | linkDir => exact (Entry.dir.inj he).symm
    | entry =>
      cases op with
      | createNode node => exact absurd hlink (not_isLinkDir_nodePath root node)
      | setStatus | setConnectorType | setEdid | setPlaneType | setPlaneFormat | link =>
        simp [GraphOp.entry] at he

/-- What operations show in a directory for links is a link. -/
theorem Shown.eq_link (h : Shown root ops l e) (hp : l.parent? = some dir)
    (hb : dir.below root.location) (hlink : IsLinkDir dir) : ∃ target, e = .link target := by
  have parent_eq {above : Location} (habove : l.parent? = some above) : dir = above :=
    Option.some.inj (hp.symm.trans habove)
  cases h with
  | root =>
    have hlen := length_of_parent? hp
    have hlt := length_lt_of_below hb
    omega
  | group kind =>
    exact absurd (parent_eq (Graph.parent?_groupPath root kind)) (ne_of_below hb)
  | @added op _ _ hop h =>
    cases h with
    | linkDir node kind =>
      rw [parent_eq (Graph.parent?_linkDir root node kind)] at hlink
      exact absurd hlink (not_isLinkDir_nodePath root node)
    | entry =>
      cases op with
      | link src dst => exact ⟨_, rfl⟩
      | createNode node =>
        rw [parent_eq (Graph.parent?_nodePath root node)] at hlink
        exact absurd hlink (not_isLinkDir_groupPath root node.kind)
      | setStatus | setConnectorType | setEdid | setPlaneType | setPlaneFormat =>
        rw [parent_eq (Graph.parent?_attrPath root _ (by decide))] at hlink
        exact absurd hlink (not_isLinkDir_nodePath root _)

theorem ProvisionStep.Complete.tidy (h : Complete base root ops s) : Tidy s root.location := by
  refine ⟨fun l owner hb hlink hl => ?_, fun l e dir hl hp hb hlink => ?_⟩
  · rcases (h.find? l _ (within_of_below hb)).1 hl with hshown | ⟨-, he⟩
    · exact hshown.owner_eq_kernel rfl hb hlink
    · simp at he
  · have hw : l.within root.location := within_trans (within_of_parent? hp) (within_of_below hb)
    rcases (h.find? l e hw).1 hl with hshown | ⟨rfl, -⟩
    · exact hshown.eq_link hp hb hlink
    · -- the switch lies in the root itself
      rw [Graph.parent?_enabledPath] at hp
      obtain rfl := Option.some.inj hp
      exact absurd rfl (ne_of_below hb)

/-- A file that is written outside the directories for links leaves them in order. -/
theorem Teardown.Tidy.write {data : Bytes} (h : Tidy s root.location)
    (hp : p.location.parent? = some dir) (hnot : dir.below root.location → ¬IsLinkDir dir)
    (hw : s.write p data = .ok t) : Tidy t root.location := by
  refine ⟨fun l owner hb hlink hl => ?_, fun l e above hl hpl hb hlink => ?_⟩
  · rw [find?_of_write hw] at hl
    split at hl
    · simp at hl
    · exact h.linkDir l owner hb hlink hl
  · rw [find?_of_write hw] at hl
    split at hl
    · rename_i heq
      rw [← heq, hp] at hpl
      obtain rfl := Option.some.inj hpl
      exact absurd hlink (hnot hb)
    · exact h.link l e above hl hpl hb hlink

theorem Teardown.Tidy.setStatus (h : Tidy s root.location) (connector : Nat)
    (status : ConnectorStatus) :
    Tidy (Graph.setStatus root connector status s).2 root.location := by
  have hname : Path.IsName "status" := by decide
  have hparent := Graph.parent?_attrPath root (.connector connector) hname
  unfold Graph.setStatus Graph.writeAttr
  cases hw : s.write _ _ with
  | ok t => exact h.write hparent (fun _ => not_isLinkDir_nodePath root _) hw
  | error e => exact h

theorem Teardown.Tidy.setEnabled (h : Tidy s root.location) (enabled : Bool) :
    Tidy (Graph.setEnabled root enabled s).2 root.location := by
  have hparent := Graph.parent?_enabledPath root
  unfold Graph.setEnabled
  cases hw : s.write _ _ with
  | ok t => exact h.write hparent (fun hb => absurd rfl (ne_of_below hb)) hw
  | error e => exact h

/-- **A quiet teardown.** A topology in order goes without anything passed over. -/
theorem Raised.teardown_quiet (h : Raised base settings.root.location d.surface)
    (hb : base.Vacant settings.root.location) (htidy : Tidy d.surface settings.root.location) :
    ∃ report after, d.teardown settings = some (report, after) ∧
      after.surface.entries.entries = base.entries.entries ∧ report.removedRoot settings.root ∧
      report.skipped = [] := by
  obtain ⟨report, after, ht, hentries, hroot⟩ := h.teardown hb
  refine ⟨report, after, ht, hentries, hroot, ?_⟩
  rw [teardown_eq_map] at ht
  obtain ⟨⟨events, t⟩, hrun, heq⟩ := Option.map_eq_some_iff.1 ht
  obtain ⟨rfl, -⟩ := Prod.mk.inj heq
  have hoff := h.setEnabled false
  have hquiet : Quiet events := by
    refine quiet_removeTopology hoff.tree hoff.text hoff.root_ne_nil (htidy.setEnabled false)
      (dirAt_of_find? hoff.root_user) ?_ hrun
    -- what holds a directory of the topology would hold the root
    exact fun l hw huser => (hoff.loose hb).of_within hw huser
  exact hquiet.skipped_eq_nil

/-! ## Provisioning where nothing is marked -/

/-- Neither a path of the surface nor a property is marked to fail. -/
structure Device.Unmarked (d : Device) : Prop where
  surface : ∀ l, d.surface.failures.find? l = none
  control : d.control.failing = []

theorem Device.Unmarked.of_changes (h : d.Unmarked) {after : Device} {l : Location}
    (hsurface : Changes l d.surface after.surface)
    (hcontrol : after.control.failing = d.control.failing) : after.Unmarked := by
  refine ⟨fun m => ?_, hcontrol.trans h.control⟩
  rw [hsurface.marks.2.2]
  exact h.surface m

theorem Device.Unmarked.provision (h : d.Unmarked) {answer : Except ProvisionError Session}
    {after : Device} (hp : Session.provision settings count specs d = some (answer, after)) :
    after.Unmarked := by
  refine h.of_changes (Session.changes_provision hp) ?_
  rw [(Session.control_provision hp).1, Control.failing_record]

theorem Device.Unmarked.marked?_eq_none (h : d.Unmarked) (root : Path) (step : ProvisionStep) :
    step.marked? root d = none := by
  cases step <;> simp [ProvisionStep.marked?, h.surface, h.control]

/-- Where nothing is marked, a description that can be planned is provisioned, and its topology is
finished. -/
theorem Prepared.provision (hb : Prepared d.surface settings.root) (hd : d.Unmarked)
    (hplan : Plan.build count specs = .ok plan) :
    ∃ after, Session.provision settings count specs d = some (.ok (.ofPlan settings plan), after) ∧
      Raised d.surface settings.root.location after.surface ∧
      Tidy after.surface settings.root.location := by
  obtain ⟨after, hr, hafter⟩ := (hb.follows_build hplan).ok
    (List.findSome?_eq_none_iff.2 fun step _ => hd.marked?_eq_none settings.root step)
  refine ⟨after, ?_, ?_, hafter.surface.tidy⟩
  · rw [Session.provision, hplan]
    simp only [Session.provisionPlan, hr]
  · rcases ProvisionStep.runAll_ofPlan plan hb.vacant with ⟨e, stopped, -, hstop, -⟩ | ⟨-, hraised⟩
    · simp [hr] at hstop
    · rwa [hr] at hraised

/-- A plan has a connector for every display that was asked for. -/
theorem connectors_ofPlan (settings : Settings) (hplan : Plan.build count specs = .ok plan) :
    (Session.ofPlan settings plan).connectors = count := by
  have hextends := (Plan.plans_build count specs).ok plan hplan
  rw [Session.ofPlan, Plan.connectorCount_of_extends hextends, Resource.length_ranges,
    length_describe_of_build hplan]

/-! ## A session that occupies its root -/

/-- The session of a name stands on a topology in order, and nothing is marked. -/
structure Occupies (base : Surface) (name : String) (session : Session) (st : Script.State) : Prop
    where
  named : st.session? name = some session
  raised : Raised base session.settings.root.location st.device.surface
  tidy : Tidy st.device.surface session.settings.root.location
  changes : Changes session.settings.root.location base st.device.surface
  unmarked : st.device.Unmarked

/-- **Step.** To switch a connector keeps the root occupied. -/
theorem Occupies.toggle (h : Occupies base name session st) (connector : Nat) (enable : Bool) :
    ∃ answer next, Script.step st (.session name (.toggle connector enable)) = some (answer, next) ∧
      Occupies base name session next := by
  have hraised : Raised base session.settings.root.location
        (session.toggle connector enable st.device).2.surface ∧
      Tidy (session.toggle connector enable st.device).2.surface session.settings.root.location := by
    unfold Session.toggle
    split
    · exact ⟨h.raised, h.tidy⟩
    · rw [Device.onSurface_surface]
      exact ⟨h.raised.setStatus connector _, h.tidy.setStatus connector _⟩
  have hchanges := session.changes_toggle connector enable st.device
  have hunmarked : (session.toggle connector enable st.device).2.Unmarked := by
    refine h.unmarked.of_changes hchanges ?_
    rw [Session.control_toggle]
  rw [Script.step, h.named]
  refine ⟨_, _, rfl, ?_, hraised.1, hraised.2, h.changes.trans hchanges, hunmarked⟩
  rw [Script.State.session?_setSession, if_pos rfl]

/-- **Run.** To switch connectors, any number of times, keeps the root occupied. -/
theorem Occupies.toggleAll (h : Occupies base name session st) (toggles : List (Nat × Bool)) :
    ∃ answers last,
      Script.run st (toggles.map fun t => .session name (.toggle t.1 t.2)) = some (answers, last) ∧
      Occupies base name session last := by
  induction toggles generalizing st with
  | nil => exact ⟨[], st, rfl, h⟩
  | cons toggle toggles ih =>
    obtain ⟨answer, next, hstep, hnext⟩ := h.toggle toggle.1 toggle.2
    obtain ⟨answers, last, hrun, hlast⟩ := ih hnext
    exact ⟨answer :: answers, last, by simp [Script.run, hstep, hrun], hlast⟩

/-- The steps of a plan stop at a root that is taken. -/
theorem ProvisionStep.runAll_ofPlan_of_contains (hd : d.Unmarked)
    (hthere : d.surface.contains settings.root) (plan : Plan) :
    ∃ control, runAll settings.root (ofPlan settings plan) d =
      (.error (.resource .create settings.root .eexist), ⟨d.surface, control⟩) := by
  obtain ⟨s, c⟩ := d
  have hfree (key : String) : key ∉ c.failing := by
    rw [show c.failing = [] from hd.control]
    exact List.not_mem_nil
  have hroot : s.createDir settings.root = .error .eexist := by
    have hmark : s.failures.find? settings.root.location = none := hd.surface _
    have hthere : s.entries.contains settings.root.location := hthere
    simp [createDir, creationFault?, hmark, hthere]
  rw [ofPlan_eq_surfaceSteps]
  rcases runAll_setProperty settings.root settings.stopEntry _ s c with ⟨-, hstop⟩ | ⟨hmem, -⟩
  · rcases runAll_setProperty settings.root settings.backendEntry _ s
      (c.record [settings.stopEntry]) with ⟨-, hpoint⟩ | ⟨hmem, -⟩
    · rw [hstop, hpoint]
      refine ⟨(c.record [settings.stopEntry]).record [settings.backendEntry], ?_⟩
      simp [surfaceSteps, runAll, run, Device.onSurface, Graph.createRoot, hroot, Graph.perform]
    · exact absurd hmem (hfree _)
  · exact absurd hmem (hfree _)

/-- **Eviction.** A session that is provisioned at an occupied root fails because the root is there,
and its rollback clears the root, which can then be built on as before. -/
theorem Occupies.provision (h : Occupies base name session st)
    (hb : Prepared base session.settings.root) {again : Settings}
    (hagain : again.root = session.settings.root) (hplan : Plan.build count specs = .ok plan) :
    ∃ report after, Session.provision again count specs st.device =
        some (.error ⟨.resource .create again.root .eexist, some report⟩, after) ∧
      report.removedRoot again.root ∧ report.skipped = [] ∧
      after.surface.entries.entries = base.entries.entries ∧
      Prepared after.surface again.root ∧ after.Unmarked := by
  have hthere : st.device.surface.contains again.root := by
    rw [hagain]
    exact contains_of_find? h.raised.root_user
  obtain ⟨control, hr⟩ := ProvisionStep.runAll_ofPlan_of_contains h.unmarked hthere plan
  have hraised : Raised base again.root.location (Device.mk st.device.surface control).surface :=
    hagain ▸ h.raised
  obtain ⟨report, after, ht, hentries, hroot, hskipped⟩ :=
    hraised.teardown_quiet (hagain ▸ hb.vacant) (hagain ▸ h.tidy)
  have hp : Session.provision again count specs st.device =
      some (.error ⟨.resource .create again.root .eexist, some report⟩, after) := by
    rw [Session.provision, hplan]
    simp only [Session.provisionPlan, hr, ht, Option.map_some]
  have hmore := Session.changes_provision hp
  rw [hagain] at hmore
  obtain ⟨hgroups, hpinned, -⟩ := Changes.marks (h.changes.trans hmore)
  exact ⟨report, after, hp, hroot, hskipped, hentries,
    hagain ▸ hb.congr hentries hgroups hpinned, h.unmarked.provision hp⟩

/-! ## A session whose topology is gone -/

/-- Nothing has changed but perhaps the order in which sessions are kept. -/
structure Script.State.Unchanged (st next : Script.State) : Prop where
  device : next.device = st.device
  sessions : ∀ name, next.session? name = st.session? name

/-- What is left of a session whose topology was taken down by another. -/
structure Ousted (name : String) (session : Session) (st : Script.State) : Prop where
  /-- It still says that it is ready, with all its connectors. -/
  info : session.phase = .ready ∧ ∃ next,
    Script.step st (.session name .info) = some (.session (.info session), next) ∧
    st.Unchanged next
  /-- None of its connectors can be switched. -/
  toggle : ∀ connector < session.connectors, ∀ enable, ∃ next,
    Script.step st (.session name (.toggle connector enable)) = some (.session (.failed
      (.resource .write (Graph.attrPath session.settings.root (.connector connector) "status")
        .enoent)), next) ∧
    st.Unchanged next
  /-- None of its connectors can be read. -/
  status : ∀ connector < session.connectors, ∃ next,
    Script.step st (.session name (.status connector)) = some (.session (.failed
      (.resource .read (Graph.attrPath session.settings.root (.connector connector) "status")
        .enoent)), next) ∧
    st.Unchanged next
  /-- There is nothing that it could tear down. -/
  teardown : ∃ next, Script.step st (.session name .teardown) =
      some (.session (.report (some ⟨[], [], [], []⟩) (some false)), next) ∧
    next.device.surface = st.device.surface

theorem Script.State.Unchanged.refl (st : Script.State) : st.Unchanged st := ⟨rfl, fun _ => rfl⟩

/-- To put a session back under its name changes nothing. -/
theorem Script.State.unchanged_setSession (h : st.session? name = some session) :
    st.Unchanged (st.setSession name (some session)) := by
  refine ⟨rfl, fun other => ?_⟩
  rw [session?_setSession]
  split
  · rename_i heq
    rw [heq, h]
  · rfl

/-- A call of a session that gives back the session and the device changes nothing. -/
theorem Script.exists_step_unchanged (hnamed : st.session? name = some session)
    {call : SessionCall} {answer : SessionAnswer}
    (hrun : call.run session st.device = some (answer, some session, st.device)) :
    ∃ next, Script.step st (.session name call) = some (.session answer, next) ∧
      st.Unchanged next := by
  refine ⟨_, ?_, Script.State.unchanged_setSession hnamed⟩
  rw [Script.step, hnamed]
  simp only [hrun, Option.map_some]

section Gone

variable {connector : Nat}

/-- Without its directory, the status of a connector cannot be written. -/
theorem setStatus_of_free (hmarks : ∀ l, s.failures.find? l = none)
    (hfree : s.entries.find? (Graph.nodePath root (.connector connector)).location = none)
    (status : ConnectorStatus) :
    Graph.setStatus root connector status s =
      (.error (.resource .write (Graph.attrPath root (.connector connector) "status") .enoent),
        s) := by
  have hname : Path.IsName "status" := by decide
  have hfault : s.writeFault? (Graph.attrPath root (.connector connector) "status").location =
      some .enoent := by
    simp [writeFault?, parentFault?, hmarks, Graph.parent?_attrPath root _ hname, hfree]
  rw [Graph.setStatus, Graph.writeAttr, Surface.write, hfault, Graph.perform]

/-- Where there is nothing, no status is read. -/
theorem readStatus_of_free (hfree : s.entries.find?
      (Graph.attrPath root (.connector connector) "status").location = none) :
    Graph.readStatus root connector s =
      .error (.resource .read (Graph.attrPath root (.connector connector) "status") .enoent) := by
  have hread : s.read (Graph.attrPath root (.connector connector) "status") = .error .enoent := by
    rw [Surface.read, entry?, hfree]
  rw [Graph.readStatus_eq, hread]

/-- Where there is nothing, a teardown does nothing to the surface. -/
theorem teardown_of_free (hfree : d.surface.entries.find? settings.root.location = none) :
    ∃ control, d.teardown settings = some (⟨[], [], [], []⟩, ⟨d.surface, control⟩) := by
  have hdir : d.surface.isDir settings.root = false := by
    rw [isDir, dirAt, hfree]
  have hlist : d.surface.list settings.root = .error .enoent := by
    rw [list, entry?, hfree]
  have hrun : removeTopology settings.root d.surface =
      some ([.absent settings.root], d.surface) := by
    simp [removeTopology, clearLinks, removeTree, budget, hlist]
  rw [teardown_eq_map, setEnabled_of_not_isDir hdir, hrun]
  exact ⟨_, rfl⟩

end Gone

/-- **What an evicted session is left with**, where nothing is marked to fail. -/
theorem ousted_of_free (hnamed : st.session? name = some session) (hphase : session.phase = .ready)
    (hclean : session.cleanupDisabled = false) (hunmarked : st.device.Unmarked)
    (hfree : ∀ l, l.within session.settings.root.location →
      st.device.surface.entries.find? l = none) : Ousted name session st := by
  refine ⟨⟨hphase, Script.exists_step_unchanged hnamed rfl⟩,
    fun connector hc enable => Script.exists_step_unchanged hnamed ?_,
    fun connector hc => Script.exists_step_unchanged hnamed ?_, ?_⟩
  · have hnode := hfree _ (Graph.within_nodePath session.settings.root (.connector connector))
    have hset := setStatus_of_free hunmarked.surface hnode (.ofEnabled enable)
    simp only [SessionCall.run, Session.toggle, Session.rangeFault?, if_pos hc, Device.onSurface,
      hset, SessionCall.ofAnswer]
  · have hname : Path.IsName "status" := by decide
    have hread := readStatus_of_free
      (hfree _ (Graph.within_attrPath session.settings.root (.connector connector) hname))
    simp only [SessionCall.run, Session.status, Session.rangeFault?, if_pos hc, hread,
      SessionCall.ofStatus]
  · obtain ⟨control, ht⟩ := teardown_of_free (hfree _ (within_refl _))
    rw [Script.step, hnamed]
    simp only [SessionCall.run, Session.teardown, hphase, hclean, ht]
    exact ⟨_, rfl, rfl⟩

/-! ## Provisioning again -/

/-- **A root that is taken.** On a driver's surface where nothing is marked to fail, a session is
provisioned and its connectors are switched any number of times. Another session at the same root
then fails because the root is there, and its rollback removes the root, passes nothing over and
gives back the entries of the driver. The first session is left without its topology, and the
second, tried again, goes through, however often the first is asked in between. -/
theorem provision_occupied (st : Script.State) (name other : String) (settings again : Settings)
    (count count' : Nat) (specs specs' : List ConnectorSpec) (plan plan' : Plan)
    (toggles : List (Nat × Bool)) (hroot : settings.root.parent?.isSome)
    (hsurface : st.device.surface = .ofDriver settings.root)
    (hfailing : st.device.control.failing = []) (hplan : Plan.build count specs = .ok plan)
    (hagain : again.root = settings.root) (hplan' : Plan.build count' specs' = .ok plan') :
    ∃ session started, Script.step st (.provision name settings count specs) =
        some (.provisioned session, started) ∧
      session.settings = settings ∧ session.connectors = count ∧
      ∃ answers mid, Script.run started
          (toggles.map fun t => .session name (.toggle t.1 t.2)) = some (answers, mid) ∧
        ∃ report next, Script.step mid (.provision other again count' specs') =
            some (.rejected ⟨.resource .create settings.root .eexist, some report⟩, next) ∧
          report.removedRoot settings.root ∧ report.skipped = [] ∧
          next.device.surface.entries.entries = (Surface.ofDriver settings.root).entries.entries ∧
          ∀ later, next.Unchanged later → Ousted name session later ∧
            ∃ retried last, Script.step later (.provision other again count' specs') =
              some (.provisioned retried, last) := by
  obtain ⟨dir, hdir⟩ := Option.isSome_iff_exists.1 hroot
  have hfailures : (Surface.ofDriver settings.root).failures = .empty := by
    rw [Surface.ofDriver, hdir]
    rfl
  have hb : Prepared st.device.surface settings.root := by
    rw [hsurface]
    exact prepared_ofDriver hdir (Surface.ofDriver settings.root).failures
  have hunmarked : st.device.Unmarked := by
    refine ⟨fun l => ?_, hfailing⟩
    rw [hsurface, hfailures, PathMap.find?_empty]
  -- the first session and its connectors
  obtain ⟨after, hfirst, hraised, htidy⟩ := hb.provision hunmarked hplan
  let session := Session.ofPlan settings plan
  let started := Script.State.setSession { st with device := after } name (some session)
  have hstarted : Occupies st.device.surface name session started := by
    refine ⟨?_, hraised, htidy, Session.changes_provision hfirst, hunmarked.provision hfirst⟩
    rw [Script.State.session?_setSession, if_pos rfl]
  obtain ⟨answers, mid, hrun, hmid⟩ := hstarted.toggleAll toggles
  -- the second session and its rollback
  obtain ⟨report, cleared, hsecond, hremoved, hskipped, hentries, hprepared, hleft⟩ :=
    hmid.provision hb hagain hplan'
  refine ⟨session, started, by rw [Script.step, hfirst]; rfl, rfl, connectors_ofPlan settings hplan,
    answers, mid, hrun, report, { mid with device := cleared },
    by rw [Script.step, hsecond, hagain]; rfl, hagain ▸ hremoved, hskipped, hsurface ▸ hentries, ?_⟩
  -- what both sessions meet after that
  intro later hlater
  have hdevice : later.device = cleared := hlater.device
  have hnamed : later.session? name = some session := (hlater.sessions name).trans hmid.named
  constructor
  · refine ousted_of_free hnamed rfl rfl (hdevice ▸ hleft) ?_
    intro l hw
    rw [hdevice]
    exact hprepared.vacant.find?_eq_none hprepared.root_ne_nil (hagain ▸ hw)
  · obtain ⟨last, hretry, -, -⟩ := hprepared.provision hleft hplan'
    rw [Script.step, hdevice, hretry]
    exact ⟨_, _, rfl⟩

theorem provision_occupied_smaller :
    ((Path.ofText "/c/v").parent?).isSome ∧
      (Plan.build 2 []).isOk ∧ (Plan.build 1 []).isOk ∧
      ∃ session started, Script.step (.start (.ofDriver (.ofText "/c/v")))
          (.provision "a" { Settings.standard with root := .ofText "/c/v" } 2 []) =
            some (.provisioned session, started) ∧
        ∃ answers mid, Script.run started
            ([(1, true), (0, false), (7, true)].map fun t => .session "a" (.toggle t.1 t.2)) =
              some (answers, mid) ∧
          ∃ report next, Script.step mid
              (.provision "b" { Settings.standard with root := .ofText "/c/v" } 1 []) =
                some (.rejected ⟨.resource .create (.ofText "/c/v") .eexist, some report⟩, next) ∧
            report.skipped = [] ∧ Ousted "a" session next ∧
            ∃ retried last, Script.step next
              (.provision "b" { Settings.standard with root := .ofText "/c/v" } 1 []) =
                some (.provisioned retried, last) := by
  have hroot : ((Path.ofText "/c/v").parent?).isSome := by decide +kernel
  have hfirst : (Plan.build 2 []).isOk := by decide +kernel
  have hsecond : (Plan.build 1 []).isOk := by decide +kernel
  cases hplan : Plan.build 2 [] with
  | error e => simp [hplan, Except.isOk, Except.toBool] at hfirst
  | ok plan =>
    cases hplan' : Plan.build 1 [] with
    | error e => simp [hplan', Except.isOk, Except.toBool] at hsecond
    | ok plan' =>
      obtain ⟨session, started, hstart, -, -, answers, mid, hrun, report, next, hstep, -, hskipped,
          -, hlater⟩ :=
        provision_occupied (.start (.ofDriver (.ofText "/c/v"))) "a" "b"
          { Settings.standard with root := .ofText "/c/v" }
          { Settings.standard with root := .ofText "/c/v" } 2 1 [] [] plan plan'
          [(1, true), (0, false), (7, true)] hroot rfl rfl hplan rfl hplan'
      obtain ⟨housted, hretry⟩ := hlater next (.refl next)
      exact ⟨hroot, rfl, rfl, session, started, hstart, answers, mid, hrun, report, next, hstep,
        hskipped, housted, hretry⟩

end DisplayTopology
