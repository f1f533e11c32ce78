import DisplayTopology.Proofs.Teardown.Respelling
import DisplayTopology.Script.Run

/-!
# Only locations matter

How paths are spelled makes no difference to what a script does. Where every path of a script, and
the root that its surface was made for, is replaced by another spelling of its location, actions
succeed or fail alike, all that they answer is the same up to the spelling of paths, and they leave
the same entries at the same locations (`script_respelled`).

One step of a script keeps two states that differ in spelling only that way
(`Script.respelled_step`), and from there whole runs do.
-/

namespace DisplayTopology

/-! ## Sessions -/

/-- Two sessions whose settings differ in spelling only, and otherwise the same. -/
structure Session.Respelled (session session' : Session) : Prop where
  settings : session.settings.Respelled session'.settings
  connectors : session.connectors = session'.connectors
  planes : session.planes = session'.planes
  phase : session.phase = session'.phase
  cleanupDisabled : session.cleanupDisabled = session'.cleanupDisabled

/-- Two failed provisionings that differ in spelling only. -/
structure ProvisionError.Respelled (e e' : ProvisionError) : Prop where
  error : e.error.Respelled e'.error
  rollback : Option.Rel Report.Respelled e.rollback e'.rollback

variable {d d' : Device} {root root' : Path} {settings settings' : Settings}
  {session session' : Session}

namespace ProvisionStep

theorem respelled_run (h : d.Respelled d') (hroot : root.Respelled root') (step : ProvisionStep) :
    Device.EffectAlike (step.run root d) (step.run root' d') := by
  cases step with
  | setProperty key value => exact Device.respelled_onControl h _
  | createRoot => exact Device.respelled_onSurface h (Graph.respelled_createRoot h.surface hroot)
  | operation op => exact Device.respelled_onSurface h (Graph.respelled_apply h.surface hroot op)
  | enable => exact Device.respelled_onSurface h (Graph.respelled_setEnabled h.surface hroot true)

theorem respelled_runAll (h : d.Respelled d') (hroot : root.Respelled root')
    (steps : List ProvisionStep) :
    Device.EffectAlike (runAll root steps d) (runAll root' steps d') := by
  induction steps generalizing d d' with
  | nil => exact ⟨.ok rfl, h⟩
  | cons step steps ih =>
    have hstep := respelled_run h hroot step
    rw [runAll, runAll]
    generalize step.run root d = x at hstep
    generalize step.run root' d' = y at hstep
    obtain ⟨answer, reached⟩ := x
    obtain ⟨answer', reached'⟩ := y
    obtain ⟨hanswer, hreached⟩ : DoneAlike answer answer' ∧ reached.Respelled reached' := hstep
    cases hanswer with
    | error he => exact ⟨.error he, hreached⟩
    | ok => exact ih hreached

/-- The steps of a plan do not depend on the root. -/
theorem ofPlan_eq (h : settings.Respelled settings') (plan : Plan) :
    ofPlan settings plan = ofPlan settings' plan := by
  rw [ofPlan, ofPlan, h.serviceName, h.backendProperty, h.drmDevice]

end ProvisionStep

namespace Session

/-- Two attempts to provision a session, with answers and devices that differ in spelling only. -/
abbrev ProvisionedAlike :
    Except ProvisionError Session × Device → Except ProvisionError Session × Device → Prop :=
  Paired (ResultRel ProvisionError.Respelled Session.Respelled) Device.Respelled

theorem respelled_provisionPlan (h : d.Respelled d') (hs : settings.Respelled settings')
    (plan : Plan) :
    Option.Rel ProvisionedAlike (provisionPlan settings plan d) (provisionPlan settings' plan d') := by
  have hrun := ProvisionStep.respelled_runAll h hs.root (ProvisionStep.ofPlan settings' plan)
  rw [provisionPlan, provisionPlan, ProvisionStep.ofPlan_eq hs]
  generalize ProvisionStep.runAll settings.root _ d = x at hrun
  generalize ProvisionStep.runAll settings'.root _ d' = y at hrun
  obtain ⟨answer, reached⟩ := x
  obtain ⟨answer', reached'⟩ := y
  obtain ⟨hanswer, hreached⟩ : DoneAlike answer answer' ∧ reached.Respelled reached' := hrun
  cases hanswer with
  | ok => exact .some ⟨.ok ⟨hs, rfl, rfl, rfl, rfl⟩, hreached⟩
  | error he =>
    exact optionRel_map (Device.respelled_teardown hreached hs) fun _ _ hd =>
      ⟨.error ⟨he, .some hd.1⟩, hd.2⟩

theorem respelled_provision (h : d.Respelled d') (hs : settings.Respelled settings') (count : Nat)
    (specs : List ConnectorSpec) :
    Option.Rel ProvisionedAlike (provision settings count specs d)
      (provision settings' count specs d') := by
  rw [provision, provision]
  split
  · exact .some ⟨.error ⟨.refl _, .none⟩, h⟩
  · exact respelled_provisionPlan h hs _

theorem rangeFault?_eq (hs : session.Respelled session') (index : Nat) :
    session.rangeFault? index = session'.rangeFault? index := by
  rw [rangeFault?, rangeFault?, hs.connectors]

theorem respelled_toggle (h : d.Respelled d') (hs : session.Respelled session') (index : Nat)
    (enable : Bool) :
    Device.EffectAlike (session.toggle index enable d) (session'.toggle index enable d') := by
  rw [toggle, toggle, rangeFault?_eq hs]
  split
  · exact ⟨.error (.refl _), h⟩
  · exact Device.respelled_onSurface h
      (Graph.respelled_writeAttr h.surface hs.settings.root _ "status" _)

theorem respelled_status (h : d.Respelled d') (hs : session.Respelled session') (index : Nat) :
    ResultRel TopologyError.Respelled Eq (session.status index d) (session'.status index d') := by
  rw [status, status, rangeFault?_eq hs]
  split
  · exact .error (.refl _)
  · exact Graph.respelled_readStatus h.surface hs.settings.root index

theorem respelled_teardown (h : d.Respelled d') (hs : session.Respelled session') :
    Option.Rel (Paired (Option.Rel Report.Respelled) (Paired Session.Respelled Device.Respelled))
      (session.teardown d) (session'.teardown d') := by
  have hkept : (session.cleanupDisabled || session.phase == .tornDown) =
      (session'.cleanupDisabled || session'.phase == .tornDown) := by
    rw [hs.cleanupDisabled, hs.phase]
  rw [teardown, teardown, hkept]
  split
  · exact .some ⟨.none, hs, h⟩
  · exact optionRel_map (Device.respelled_teardown h hs.settings) fun _ _ hd =>
      ⟨.some hd.1, ⟨hs.settings, hs.connectors, hs.planes, rfl, hs.cleanupDisabled⟩, hd.2⟩

theorem respelled_drop (h : d.Respelled d') (hs : session.Respelled session') :
    Option.Rel Device.Respelled (session.drop d) (session'.drop d') :=
  optionRel_map (respelled_teardown h hs) fun _ _ hd => hd.2.2

end Session

/-! ## Calls of a session -/

/-- Two answers that differ at most in how paths are spelled. -/
inductive SessionAnswer.Respelled : SessionAnswer → SessionAnswer → Prop where
  | refl (answer : SessionAnswer) : Respelled answer answer
  | failed {e f : TopologyError} (h : e.Respelled f) : Respelled (.failed e) (.failed f)
  | info {session session' : Session} (h : session.Respelled session') :
      Respelled (.info session) (.info session')
  | report {r r' : Option Report} (h : Option.Rel Report.Respelled r r')
      (removedRoot : Option Bool) : Respelled (.report r removedRoot) (.report r' removedRoot)

namespace SessionCall

theorem respelled_ofAnswer {answer answer' : Except TopologyError Unit}
    (h : DoneAlike answer answer') : (ofAnswer answer).Respelled (ofAnswer answer') := by
  cases h with
  | error he => exact .failed he
  | ok => exact .refl .done

theorem respelled_ofStatus {answer answer' : Except TopologyError (Option ConnectorStatus)}
    (h : ResultRel TopologyError.Respelled Eq answer answer') :
    (ofStatus answer).Respelled (ofStatus answer') := by
  cases h with
  | error he => exact .failed he
  | ok heq => exact heq ▸ .refl _

/-- **Calls of a session under other spellings** both end, alike, or neither ends. -/
theorem respelled_run (h : d.Respelled d') (hs : session.Respelled session')
    (call : SessionCall) :
    Option.Rel (Paired SessionAnswer.Respelled
        (Paired (Option.Rel Session.Respelled) Device.Respelled))
      (call.run session d) (call.run session' d') := by
  cases call with
  | info => exact .some ⟨.info hs, .some hs, h⟩
  | toggle connector enable =>
    have htoggle := Session.respelled_toggle h hs connector enable
    exact .some ⟨respelled_ofAnswer htoggle.1, .some hs, htoggle.2⟩
  | status connector =>
    exact .some ⟨respelled_ofStatus (Session.respelled_status h hs connector), .some hs, h⟩
  | disableCleanup =>
    exact .some ⟨.refl .done, .some ⟨hs.settings, hs.connectors, hs.planes, hs.phase, rfl⟩, h⟩
  | teardown =>
    refine optionRel_map (Session.respelled_teardown h hs) fun x y hd => ?_
    obtain ⟨report, next, after⟩ := x
    obtain ⟨report', next', after'⟩ := y
    obtain ⟨hreport, hnext, hafter⟩ : Option.Rel Report.Respelled report report' ∧
        next.Respelled next' ∧ after.Respelled after' := hd
    have hroot : report.map (fun r => r.removedRoot session.settings.root) =
        report'.map (fun r => r.removedRoot session'.settings.root) :=
      optionRel_eq_iff.1 (optionRel_map hreport fun _ _ hr => hr.removedRoot_eq hs.settings.root)
    refine ⟨?_, .some hnext, hafter⟩
    dsimp only
    rw [hroot]
    exact .report hreport _
  | drop => exact optionRel_map (Session.respelled_drop h hs) fun _ _ hd => ⟨.refl .done, .none, hd⟩

end SessionCall

/-! ## Scripts -/

namespace Script

/-- Two actions of one kind whose paths are respelled and whose other arguments are the same. -/
inductive Action.Respelled : Action → Action → Prop where
  | surface {call call' : SurfaceCall} (h : call.Respelled call') :
      Respelled (.surface call) (.surface call')
  | control (call : ControlCall) : Respelled (.control call) (.control call)
  | graph {root root' : Path} (h : root.Respelled root') (call : GraphCall) :
      Respelled (.graph root call) (.graph root' call)
  | provision (name : String) {settings settings' : Settings} (h : settings.Respelled settings')
      (count : Nat) (specs : List ConnectorSpec) :
      Respelled (.provision name settings count specs) (.provision name settings' count specs)
  | session (name : String) (call : SessionCall) :
      Respelled (.session name call) (.session name call)
  | forceDelete {settings settings' : Settings} (h : settings.Respelled settings') :
      Respelled (.forceDelete settings) (.forceDelete settings')

/-- Two answers that differ at most in how paths are spelled. -/
inductive Answer.Respelled : Answer → Answer → Prop where
  | refl (answer : Answer) : Respelled answer answer
  | surface {a b : SurfaceAnswer} (h : a.Respelled b) : Respelled (.surface a) (.surface b)
  | graph {a b : GraphAnswer} (h : a.Respelled b) : Respelled (.graph a) (.graph b)
  | provisioned {session session' : Session} (h : session.Respelled session') :
      Respelled (.provisioned session) (.provisioned session')
  | rejected {e e' : ProvisionError} (h : e.Respelled e') : Respelled (.rejected e) (.rejected e')
  | session {a b : SessionAnswer} (h : a.Respelled b) : Respelled (.session a) (.session b)
  | deleted {r r' : Report} (h : r.Respelled r') (removedRoot : Bool) :
      Respelled (.deleted r removedRoot) (.deleted r' removedRoot)

/-- Two states whose devices and sessions differ in spelling only. -/
structure State.Respelled (st st' : State) : Prop where
  device : st.device.Respelled st'.device
  sessions : List.Forall₂ (fun slot slot' => slot.1 = slot'.1 ∧ slot.2.Respelled slot'.2)
    st.sessions st'.sessions

variable {st st' : State} {action action' : Action}

namespace State.Respelled

theorem session? (h : st.Respelled st') (name : String) :
    Option.Rel Session.Respelled (st.session? name) (st'.session? name) :=
  optionRel_map (optionRel_find? (fun _ _ hslot => by rw [hslot.1]) h.sessions)
    fun _ _ hslot => hslot.2

theorem setSession (h : st.Respelled st') (name : String) {next next' : Option Session}
    (hnext : Option.Rel Session.Respelled next next') :
    (st.setSession name next).Respelled (st'.setSession name next') := by
  refine ⟨h.device, List.rel_append ?_ (List.rel_filter (fun _ _ hslot => ?_) h.sessions)⟩
  · exact optionRel_toList (optionRel_map hnext fun _ _ hs => ⟨rfl, hs⟩)
  · dsimp only
    rw [hslot.1]

theorem withDevice (h : st.Respelled st') (hd : d.Respelled d') :
    State.Respelled { st with device := d } { st' with device := d' } :=
  ⟨hd, h.sessions⟩

end State.Respelled

/-- Two actions with answers and states that differ in spelling only. -/
abbrev SteppedAlike : Answer × State → Answer × State → Prop :=
  Paired Answer.Respelled State.Respelled

/-- **Step.** Respelled actions, in states that differ in spelling only, both end, with answers and
states that differ in spelling only, or neither ends. -/
theorem respelled_step (h : st.Respelled st') (haction : action.Respelled action') :
    Option.Rel SteppedAlike (step st action) (step st' action') := by
  cases haction with
  | surface hcall =>
    have hrun := SurfaceCall.respelled_run h.device.surface hcall
    exact .some ⟨.surface hrun.1, h.withDevice ⟨hrun.2, h.device.control⟩⟩
  | control call =>
    rw [step, step, h.device.control]
    exact .some ⟨.refl _, h.withDevice ⟨h.device.surface, rfl⟩⟩
  | graph hroot call =>
    have hrun := GraphCall.respelled_run h.device.surface hroot call
    exact .some ⟨.graph hrun.1, h.withDevice ⟨hrun.2, h.device.control⟩⟩
  | provision name hs count specs =>
    refine optionRel_map (Session.respelled_provision h.device hs count specs) fun x y hp => ?_
    obtain ⟨answer, after⟩ := x
    obtain ⟨answer', after'⟩ := y
    obtain ⟨hanswer, hafter⟩ : ResultRel ProvisionError.Respelled Session.Respelled answer answer' ∧
        after.Respelled after' := hp
    cases hanswer with
    | error he => exact ⟨.rejected he, h.withDevice hafter⟩
    | ok hs => exact ⟨.provisioned hs, (h.withDevice hafter).setSession name (.some hs)⟩
  | session name call =>
    have hsession := h.session? name
    rw [step, step]
    generalize st.session? name = x at hsession
    generalize st'.session? name = y at hsession
    cases hsession with
    | none => exact .some ⟨.refl .noSession, h⟩
    | some hs =>
      exact optionRel_map (SessionCall.respelled_run h.device hs call) fun _ _ hrun =>
        ⟨.session hrun.1, (h.withDevice hrun.2.2).setSession name hrun.2.1⟩
  | forceDelete hs =>
    refine optionRel_map (Device.respelled_teardown h.device hs) fun x y hd => ?_
    refine ⟨?_, h.withDevice hd.2⟩
    dsimp only
    rw [hd.1.removedRoot_eq hs.root]
    exact .deleted hd.1 _

/-- Two runs with answers and states that differ in spelling only. -/
abbrev RanAlike : List Answer × State → List Answer × State → Prop :=
  Paired (List.Forall₂ Answer.Respelled) State.Respelled

/-- **Run.** Respelled scripts both end, alike, or neither ends. -/
theorem respelled_run {actions actions' : List Action} (h : st.Respelled st')
    (hactions : List.Forall₂ Action.Respelled actions actions') :
    Option.Rel RanAlike (run st actions) (run st' actions') := by
  induction hactions generalizing st st' with
  | nil => exact .some ⟨.nil, h⟩
  | cons haction _ ih =>
    have hstep := respelled_step h haction
    rw [run, run]
    generalize step st _ = x at hstep
    generalize step st' _ = y at hstep
    cases hstep with
    | none => exact .none
    | some hnext =>
      exact optionRel_map (ih hnext.2) fun _ _ hrest => ⟨.cons hnext.1 hrest.1, hrest.2⟩

/-- Two surfaces that a script may start from: the empty one, or those of a driver that is ready for
topologies at respelled roots. -/
inductive StartsAlike : Surface → Surface → Prop where
  | empty : StartsAlike .empty .empty
  | ofDriver {root root' : Path} (h : root.Respelled root') :
      StartsAlike (.ofDriver root) (.ofDriver root')

/-- Two runs that end alike. -/
structure EndsAlike (x y : List Answer × State) : Prop where
  /-- The actions answer alike. -/
  answers : List.Forall₂ Answer.Respelled x.1 y.1
  /-- The same entries lie at the same locations, and links lead to the same. -/
  entries : List.Forall₂ (KeyedRel Entry.Respelled) x.2.device.surface.entries.entries
    y.2.device.surface.entries.entries
  /-- The surfaces were changed as often. -/
  mutations : x.2.device.surface.mutations = y.2.device.surface.mutations
  /-- The same properties were set on the control. -/
  control : x.2.device.control = y.2.device.control
  /-- The sessions are in the same state. -/
  sessions : ∀ name, Option.Rel Session.Respelled (x.2.session? name) (y.2.session? name)

theorem StartsAlike.respelled {start start' : Surface} (h : StartsAlike start start') :
    start.Respelled start' := by
  cases h with
  | empty => exact Surface.respelled_empty
  | ofDriver hroot => exact Surface.respelled_ofDriver hroot

/-- **Only locations matter.** Scripts that differ in the spelling of paths only, from surfaces made
for respelled roots, both end alike or both do not end. -/
theorem script_respelled {start start' : Surface} {actions actions' : List Action}
    (hstart : StartsAlike start start')
    (hactions : List.Forall₂ Action.Respelled actions actions') :
    Option.Rel EndsAlike (run (.start start) actions) (run (.start start') actions') := by
  have hstates : (State.start start).Respelled (.start start') := ⟨⟨hstart.respelled, rfl⟩, .nil⟩
  have hrun := respelled_run hstates hactions
  generalize run (.start start) actions = x at hrun
  generalize run (.start start') actions' = y at hrun
  cases hrun with
  | none => exact .none
  | some hran =>
    obtain ⟨hanswers, hlast⟩ := hran
    exact .some ⟨hanswers, hlast.device.surface.entries.entries, hlast.device.surface.mutations,
      hlast.device.control, hlast.session?⟩

theorem script_respelled_slashes :
    ∃ x y,
      run (.start (.ofDriver (.ofText "/c/v")))
        [.provision "s" { Settings.standard with root := .ofText "/c/v" } 1 [],
          .surface (.createLink (.ofText "a/b") (.ofText "/c/v/connectors/l")),
          .session "s" (.toggle 0 true), .session "s" .drop] = some x ∧
      run (.start (.ofDriver (.ofText "//c/./v/")))
        [.provision "s" { Settings.standard with root := .ofText "/c/./v" } 1 [],
          .surface (.createLink (.ofText "a//b/.") (.ofText "/c/v//connectors/l/")),
          .session "s" (.toggle 0 true), .session "s" .drop] = some y ∧
      EndsAlike x y := by
  have hstart : StartsAlike (.ofDriver (.ofText "/c/v")) (.ofDriver (.ofText "//c/./v/")) :=
    .ofDriver (by decide +kernel)
  have hsettings : Settings.Respelled { Settings.standard with root := .ofText "/c/v" }
      { Settings.standard with root := .ofText "/c/./v" } :=
    ⟨by decide +kernel, rfl, rfl, rfl, rfl⟩
  have hlink : SurfaceCall.Respelled
      (.createLink (.ofText "a/b") (.ofText "/c/v/connectors/l"))
      (.createLink (.ofText "a//b/.") (.ofText "/c/v//connectors/l/")) :=
    .createLink (by decide +kernel) (by decide +kernel)
  have hends : (run (.start (.ofDriver (.ofText "/c/v")))
      [.provision "s" { Settings.standard with root := .ofText "/c/v" } 1 [],
        .surface (.createLink (.ofText "a/b") (.ofText "/c/v/connectors/l")),
        .session "s" (.toggle 0 true), .session "s" .drop]).isSome := by decide +kernel
  have halike := script_respelled hstart
    (.cons (Action.Respelled.provision "s" hsettings 1 []) (.cons (.surface hlink)
      (.cons (.session "s" (.toggle 0 true)) (.cons (.session "s" .drop) .nil))))
  obtain ⟨x, hx⟩ := Option.isSome_iff_exists.1 hends
  rw [hx] at halike
  generalize run (.start (.ofDriver (.ofText "//c/./v/"))) _ = y at halike
  cases halike with
  | some hxy => exact ⟨x, _, hx, rfl, hxy⟩

end Script

end DisplayTopology
