import DisplayTopology.Proofs.Session.Lifetime

/-!
# What is recorded on the control

Everything that is done to topologies goes through one control, and what an action records there
follows from the state before it (`Script.State.recorded`). Provisioning stops the composer, points
it at the device and starts it again around all calls of the surface; where it fails on the way its
rollback stops the composer once more; and each teardown stops it. So the log of a whole run is made
of what each action records in turn (`Script.log_of_run`).
-/

namespace DisplayTopology

/-! ## Recording -/

namespace Control

variable {c : Control} {key value : String} {entries more : List (String × String)}

/-- The control after more settings. -/
def record (c : Control) (entries : List (String × String)) : Control :=
  { c with calls := c.calls ++ entries }

/-- What setting a property records: nothing if the property is marked to fail. -/
def recorded (c : Control) (key value : String) : List (String × String) :=
  if key ∈ c.failing then [] else [(key, value)]

@[simp] theorem record_nil : c.record [] = c := by simp [record]

@[simp] theorem record_record : (c.record entries).record more = c.record (entries ++ more) := by
  simp [record]

@[simp] theorem failing_record : (c.record entries).failing = c.failing := rfl

@[simp] theorem calls_record : (c.record entries).calls = c.calls ++ entries := rfl

@[simp] theorem recorded_record : (c.record entries).recorded key value = c.recorded key value := rfl

end Control

theorem Device.control_onControl_set (d : Device) (key value : String) :
    (d.onControl fun c => c.set key value).2.control =
      d.control.record (d.control.recorded key value) := by
  unfold Device.onControl
  by_cases h : key ∈ d.control.failing
  · simp [Control.set, h, Control.recorded]
  · simp [Control.set, h, Control.recorded, Control.record]

/-! ## The settings of a session -/

namespace Settings

/-- Stopping the composer. -/
def stopEntry (settings : Settings) : String × String := (Control.stopKey, settings.serviceName)

/-- Pointing the composer at the device. -/
def backendEntry (settings : Settings) : String × String :=
  (settings.backendProperty, settings.drmDevice)

/-- Starting the composer. -/
def startEntry (settings : Settings) : String × String := (Control.startKey, settings.serviceName)

/-- What a teardown records. -/
def teardownLog (settings : Settings) (c : Control) : List (String × String) :=
  if Control.stopKey ∈ c.failing then [] else [settings.stopEntry]

end Settings

theorem Settings.teardownLog_record (settings : Settings) (c : Control)
    (entries : List (String × String)) :
    settings.teardownLog (c.record entries) = settings.teardownLog c := rfl

/-- **A teardown** records that the composer is stopped, if that is not refused. -/
theorem Device.control_teardown {settings : Settings} {d after : Device} {report : Report}
    (h : d.teardown settings = some (report, after)) :
    after.control = d.control.record (settings.teardownLog d.control) := by
  rw [Teardown.teardown_eq_map] at h
  obtain ⟨_, -, heq⟩ := Option.map_eq_some_iff.1 h
  obtain ⟨-, rfl⟩ := Prod.mk.inj heq
  exact d.control_onControl_set Control.stopKey settings.serviceName

/-! ## Provisioning -/

namespace ProvisionStep

variable {root : Path} {settings : Settings} {plan : Plan} {d : Device}

/-- The steps of a plan on the surface. They come between pointing the composer at the device and
starting it. -/
def surfaceSteps (plan : Plan) : List ProvisionStep :=
  createRoot :: plan.ops.toList.map operation ++ [enable]

/-- Whether all steps of a plan on the surface succeed. -/
def builds (root : Path) (plan : Plan) (s : Surface) : Bool :=
  (runAll root (surfaceSteps plan) ⟨s, .empty⟩).1.isOk

theorem ofPlan_eq_surfaceSteps (settings : Settings) (plan : Plan) :
    ofPlan settings plan =
      setProperty settings.stopEntry.1 settings.stopEntry.2 ::
        setProperty settings.backendEntry.1 settings.backendEntry.2 ::
          (surfaceSteps plan ++ [setProperty settings.startEntry.1 settings.startEntry.2]) := by
  simp [ofPlan, surfaceSteps, Settings.stopEntry, Settings.backendEntry, Settings.startEntry]

/-- A property that is not marked to fail is recorded, and the steps after it are carried out. -/
theorem runAll_setProperty (root : Path) (entry : String × String) (steps : List ProvisionStep)
    (s : Surface) (c : Control) :
    (entry.1 ∉ c.failing ∧ runAll root (setProperty entry.1 entry.2 :: steps) ⟨s, c⟩ =
        runAll root steps ⟨s, c.record [entry]⟩) ∨
      (entry.1 ∈ c.failing ∧
        ∃ e, runAll root (setProperty entry.1 entry.2 :: steps) ⟨s, c⟩ = (.error e, ⟨s, c⟩)) := by
  by_cases h : entry.1 ∈ c.failing
  · simp [runAll, run, Device.onControl, Control.set, h]
  · simp [runAll, run, Device.onControl, Control.set, h, Control.record]

/-- A step that sets no property does not look at the control and leaves it alone. -/
theorem run_of_ne (root : Path) {step : ProvisionStep} (h : ∀ key value, step ≠ setProperty key value)
    (s : Surface) (c c' : Control) :
    step.run root ⟨s, c⟩ = ((step.run root ⟨s, c'⟩).1, ⟨(step.run root ⟨s, c'⟩).2.surface, c⟩) := by
  cases step with
  | setProperty key value => exact absurd rfl (h key value)
  | createRoot | operation | enable => rfl

theorem runAll_of_not_mem {steps : List ProvisionStep}
    (h : ∀ key value, setProperty key value ∉ steps) (s : Surface) (c c' : Control) :
    runAll root steps ⟨s, c⟩ =
      ((runAll root steps ⟨s, c'⟩).1, ⟨(runAll root steps ⟨s, c'⟩).2.surface, c⟩) := by
  induction steps generalizing s with
  | nil => rfl
  | cons step steps ih =>
    have hne : ∀ key value, step ≠ setProperty key value :=
      fun key value heq => h key value (heq ▸ List.mem_cons_self)
    have hstep := run_of_ne root hne s c c'
    have hcontrol := run_of_ne root hne s c' c'
    rw [runAll, runAll, hstep]
    rcases hr : step.run root ⟨s, c'⟩ with ⟨e | ⟨⟩, ⟨t, ct⟩⟩
    · rfl
    · rw [hr] at hcontrol
      obtain rfl : ct = c' := congrArg (fun effect => effect.2.control) hcontrol
      exact ih (fun key value hmem => h key value (List.mem_cons_of_mem _ hmem)) t

theorem runAll_surfaceSteps (root : Path) (plan : Plan) (s : Surface) (c : Control) :
    ∃ answer t, runAll root (surfaceSteps plan) ⟨s, c⟩ = (answer, ⟨t, c⟩) ∧
      (builds root plan s ↔ answer = .ok ()) := by
  have hmem : ∀ key value, setProperty key value ∉ surfaceSteps plan := by simp [surfaceSteps]
  refine ⟨_, _, runAll_of_not_mem hmem s c .empty, ?_⟩
  rw [builds]
  rcases (runAll root (surfaceSteps plan) ⟨s, .empty⟩).1 with e | ⟨⟩ <;>
    simp [Except.isOk, Except.toBool]

/-- How the steps of a plan end, and what they record until then. -/
inductive Attempt (settings : Settings) (plan : Plan) (d : Device) :
    Except TopologyError Unit → List (String × String) → Prop where
  | unstopped (e : TopologyError) (hstop : Control.stopKey ∈ d.control.failing) :
      Attempt settings plan d (.error e) []
  | unpointed (e : TopologyError) (hstop : Control.stopKey ∉ d.control.failing)
      (hbackend : settings.backendProperty ∈ d.control.failing) :
      Attempt settings plan d (.error e) [settings.stopEntry]
  | unbuilt (e : TopologyError) (hstop : Control.stopKey ∉ d.control.failing)
      (hbackend : settings.backendProperty ∉ d.control.failing)
      (hbuilt : ¬(builds settings.root plan d.surface ∧ Control.startKey ∉ d.control.failing)) :
      Attempt settings plan d (.error e) [settings.stopEntry, settings.backendEntry]
  | built (hstop : Control.stopKey ∉ d.control.failing)
      (hbackend : settings.backendProperty ∉ d.control.failing)
      (hbuilt : builds settings.root plan d.surface ∧ Control.startKey ∉ d.control.failing) :
      Attempt settings plan d (.ok ())
        [settings.stopEntry, settings.backendEntry, settings.startEntry]

/-- **The steps of a plan** are an attempt, wherever they stop. -/
theorem attempt_runAll (settings : Settings) (plan : Plan) (d : Device) :
    ∃ answer t entries, runAll settings.root (ofPlan settings plan) d =
        (answer, ⟨t, d.control.record entries⟩) ∧ Attempt settings plan d answer entries := by
  obtain ⟨s, c⟩ := d
  rw [ofPlan_eq_surfaceSteps]
  rcases runAll_setProperty settings.root settings.stopEntry _ s c with
    ⟨hstop, hr⟩ | ⟨hstop, e, hr⟩
  · rw [hr]
    rcases runAll_setProperty settings.root settings.backendEntry _ s
      (c.record [settings.stopEntry]) with ⟨hbackend, hr⟩ | ⟨hbackend, e, hr⟩
    · obtain ⟨answer, t, hsurface, hbuilds⟩ := runAll_surfaceSteps settings.root plan s
        (c.record [settings.stopEntry, settings.backendEntry])
      rw [hr, Control.record_record, runAll_append, List.singleton_append, hsurface]
      rcases answer with e | ⟨⟩
      · exact ⟨_, _, _, rfl, .unbuilt e hstop hbackend fun h => by simpa using hbuilds.1 h.1⟩
      · rcases runAll_setProperty settings.root settings.startEntry [] t
          (c.record [settings.stopEntry, settings.backendEntry]) with
          ⟨hstart, hr⟩ | ⟨hstart, e, hr⟩
        · refine ⟨.ok (), t, _, ?_, .built hstop hbackend ⟨hbuilds.2 rfl, hstart⟩⟩
          dsimp only
          rw [hr, Control.record_record]
          rfl
        · exact ⟨_, _, _, hr, .unbuilt e hstop hbackend fun h => h.2 hstart⟩
    · exact ⟨_, _, _, hr, .unpointed e hstop hbackend⟩
  · exact ⟨_, _, _, by rw [hr, Control.record_nil], .unstopped e hstop⟩

end ProvisionStep

namespace Session

open ProvisionStep

variable {settings : Settings} {session : Session} {count : Nat} {specs : List ConnectorSpec}
  {d after : Device} {answer : Except ProvisionError Session}

/-- What provisioning records: nothing for a description that cannot be planned or where the
composer cannot be stopped; otherwise the composer is stopped, pointed at the device and started,
and stopped again where that or the building of the topology fails. -/
def provisionLog (settings : Settings) (count : Nat) (specs : List ConnectorSpec) (d : Device) :
    List (String × String) :=
  match Plan.build count specs with
  | .error _ => []
  | .ok plan =>
    if Control.stopKey ∈ d.control.failing then []
    else if settings.backendProperty ∈ d.control.failing then
      [settings.stopEntry, settings.stopEntry]
    else if builds settings.root plan d.surface ∧ Control.startKey ∉ d.control.failing then
      [settings.stopEntry, settings.backendEntry, settings.startEntry]
    else [settings.stopEntry, settings.backendEntry, settings.stopEntry]

/-- The attempt of a plan, and the teardown after it if it failed, make up what provisioning
records. -/
theorem provisionLog_of_attempt {plan : Plan} {result : Except TopologyError Unit}
    {entries : List (String × String)} (hplan : Plan.build count specs = .ok plan)
    (h : Attempt settings plan d result entries) :
    (∀ e, result = .error e →
        entries ++ settings.teardownLog d.control = provisionLog settings count specs d) ∧
      (result = .ok () → entries = provisionLog settings count specs d) ∧
      (result = .ok () ↔ provisionLog settings count specs d =
        [settings.stopEntry, settings.backendEntry, settings.startEntry]) := by
  rw [provisionLog, hplan]
  have hne : settings.stopEntry ≠ settings.startEntry := by
    simp [Settings.stopEntry, Settings.startEntry, Control.stopKey, Control.startKey]
  cases h with
  | unstopped e hstop => simp [hstop, Settings.teardownLog]
  | unpointed e hstop hbackend => simp [hstop, hbackend, Settings.teardownLog]
  | unbuilt e hstop hbackend hbuilt => simp [hstop, hbackend, hbuilt, Settings.teardownLog, hne]
  | built hstop hbackend hbuilt => simp [hstop, hbackend, hbuilt]

/-- **Provisioning** records what it should, and goes through exactly when that ends with the start
of the composer. A configuration error stands for a description that cannot be planned. -/
theorem control_provision (h : provision settings count specs d = some (answer, after)) :
    after.control = d.control.record (provisionLog settings count specs d) ∧
      ((∃ session, answer = .ok session) ↔ provisionLog settings count specs d =
        [settings.stopEntry, settings.backendEntry, settings.startEntry]) ∧
      ((∃ e, answer = .error e ∧ e.error.isConfiguration) ↔
        ∃ e, Plan.build count specs = .error e) := by
  have hplans := Plan.plans_build count specs
  unfold provision at h
  cases hplan : Plan.build count specs with
  | error e =>
    rw [hplan] at h
    obtain ⟨rfl, rfl⟩ := Prod.mk.inj (Option.some.inj h)
    simp [provisionLog, hplan, hplans.error e hplan]
  | ok plan =>
    simp only [hplan, provisionPlan] at h
    obtain ⟨result, t, entries, hr, hattempt⟩ := attempt_runAll settings plan d
    obtain ⟨hfail, hdone, hiff⟩ := provisionLog_of_attempt hplan hattempt
    rw [hr] at h
    cases result with
    | error e =>
      obtain ⟨⟨report, torn⟩, ht, heq⟩ := Option.map_eq_some_iff.1 h
      obtain ⟨rfl, rfl⟩ := Prod.mk.inj heq
      have hnot : e.isConfiguration = false :=
        not_isConfiguration_of_runAll (fun op hop => unroutable_of_mem_ofPlan
          ((hplans.ok plan hplan).sound Plan.sound_empty) hop) (congrArg Prod.fst hr)
      refine ⟨?_, by simpa using hiff, by simp [hnot]⟩
      rw [Device.control_teardown ht, Settings.teardownLog_record, Control.record_record, hfail e rfl]
    | ok =>
      obtain ⟨rfl, rfl⟩ := Prod.mk.inj (Option.some.inj h)
      exact ⟨by rw [← hdone rfl], by simpa using hiff, by simp⟩

/-- Whether a session still tears its topology down when it is asked to, or goes away. -/
def cleansUp (session : Session) : Bool := session.phase == .ready && !session.cleanupDisabled

/-- **The teardown of a session** records that of its topology, if it is carried out. -/
theorem control_teardown {report : Option Report} {next : Session}
    (h : session.teardown d = some (report, next, after)) :
    after.control = d.control.record
        (if session.cleansUp then session.settings.teardownLog d.control else []) ∧
      (report.isSome ↔ session.cleansUp) := by
  have hclean : session.cleansUp = !(session.cleanupDisabled || session.phase == .tornDown) := by
    rw [cleansUp]
    cases session.phase <;> cases session.cleanupDisabled <;> rfl
  rw [teardown] at h
  split at h
  · rename_i hdone
    obtain ⟨rfl, -, rfl⟩ : none = report ∧ _ ∧ d = after := by simpa using h
    simp [hclean, hdone]
  · rename_i hpending
    obtain ⟨⟨done, torn⟩, ht, heq⟩ := Option.map_eq_some_iff.1 h
    obtain ⟨rfl, -, rfl⟩ : some done = report ∧ _ ∧ torn = after := by simpa using heq
    rw [Device.control_teardown ht]
    simp [hclean, hpending]

/-- What a call of a session records: only one that tears the topology down records anything. -/
def callLog (session : Session) (c : Control) : SessionCall → List (String × String)
  | .teardown | .drop => if session.cleansUp then session.settings.teardownLog c else []
  | .info | .toggle _ _ | .status _ | .disableCleanup => []

theorem control_toggle (session : Session) (index : Nat) (enable : Bool) (d : Device) :
    (session.toggle index enable d).2.control = d.control := by
  rw [toggle]
  split
  · rfl
  · rw [Device.onSurface_control]

theorem control_run {call : SessionCall} {reply : SessionAnswer} {left : Option Session}
    (h : call.run session d = some (reply, left, after)) :
    after.control = d.control.record (session.callLog d.control call) := by
  cases call with
  | info | status | disableCleanup =>
    obtain ⟨-, -, rfl⟩ : _ ∧ _ ∧ d = after := by simpa [SessionCall.run] using h
    exact Control.record_nil.symm
  | toggle index enable =>
    obtain ⟨-, -, rfl⟩ : _ ∧ _ ∧ (session.toggle index enable d).2 = after := by
      simpa [SessionCall.run] using h
    rw [control_toggle]
    exact Control.record_nil.symm
  | teardown =>
    obtain ⟨⟨report, next, torn⟩, ht, heq⟩ := Option.map_eq_some_iff.1 h
    obtain ⟨-, -, rfl⟩ : _ ∧ _ ∧ torn = after := by simpa using heq
    exact (control_teardown ht).1
  | drop =>
    obtain ⟨torn, ht, heq⟩ := Option.map_eq_some_iff.1 h
    obtain ⟨-, -, rfl⟩ : _ ∧ _ ∧ torn = after := by simpa using heq
    obtain ⟨⟨report, next, last⟩, hlast, rfl⟩ := Option.map_eq_some_iff.1 ht
    exact (control_teardown hlast).1

end Session

/-! ## Scripts -/

namespace Script

variable {st next last : State} {action : Action} {actions front back : List Action}
  {answer : Answer} {answers : List Answer}

/-- What a call of the control records. -/
def controlLog (c : Control) : ControlCall → List (String × String)
  | .set key value => c.recorded key value
  | .start service => c.recorded Control.startKey service
  | .stop service => c.recorded Control.stopKey service
  | .toggle service enable =>
    c.recorded (if enable then Control.startKey else Control.stopKey) service
  | .fail _ | .get _ | .calls => []

/-- What an action records on the control. Apart from settings made by hand, only provisioning and
teardowns record anything. -/
def State.log (st : State) : Action → List (String × String)
  | .provision _ settings count specs => Session.provisionLog settings count specs st.device
  | .session name call =>
    match st.session? name with
    | some session => session.callLog st.device.control call
    | none => []
  | .forceDelete settings => settings.teardownLog st.device.control
  | .control call => controlLog st.device.control call
  | .surface _ | .graph _ _ => []

/-- What actions record one after the other. -/
def State.logAll (st : State) : List Action → List (String × String)
  | [] => []
  | action :: actions =>
    st.log action ++
      match step st action with
      | none => []
      | some (_, next) => next.logAll actions

theorem controlRun_eq (c : Control) (call : ControlCall) :
    (call.run c).2 = c.record (controlLog c call) ∨
      ∃ key, call = .fail key ∧ (call.run c).2 = c.fail key := by
  have ofSetting (key value : String) :
      (ControlCall.ofSetting c (c.set key value)).2 = c.record (c.recorded key value) := by
    by_cases h : key ∈ c.failing
    · simp [Control.set, h, ControlCall.ofSetting, Control.recorded]
    · simp [Control.set, h, ControlCall.ofSetting, Control.recorded, Control.record]
  cases call with
  | set key value => exact .inl (ofSetting key value)
  | start service => exact .inl (ofSetting Control.startKey service)
  | stop service => exact .inl (ofSetting Control.stopKey service)
  | toggle service enable => cases enable <;> exact .inl (ofSetting _ service)
  | get | calls => exact .inl Control.record_nil.symm
  | fail key => exact .inr ⟨key, rfl, rfl⟩

/-- **Step.** An action records what its log says and marks nothing, or it is the call that marks a
property to fail. -/
theorem control_step (h : step st action = some (answer, next)) :
    next.device.control = st.device.control.record (st.log action) ∨
      ∃ key, action = .control (.fail key) ∧ next.device.control = st.device.control.fail key := by
  cases action with
  | surface | graph =>
    obtain ⟨-, rfl⟩ := Prod.ext_iff.1 (Option.some.inj h)
    exact .inl Control.record_nil.symm
  | control call =>
    obtain ⟨-, rfl⟩ := Prod.ext_iff.1 (Option.some.inj h)
    rcases controlRun_eq st.device.control call with hrecord | ⟨key, rfl, hfail⟩
    · exact .inl hrecord
    · exact .inr ⟨key, rfl, hfail⟩
  | provision name settings count specs =>
    obtain ⟨⟨outcome, d⟩, hd, heq⟩ := Option.map_eq_some_iff.1 h
    have hcontrol := (Session.control_provision hd).1
    cases outcome with
    | ok session =>
      obtain ⟨-, rfl⟩ := Prod.ext_iff.1 heq
      exact .inl hcontrol
    | error e =>
      obtain ⟨-, rfl⟩ := Prod.ext_iff.1 heq
      exact .inl hcontrol
  | session name call =>
    left
    cases hs : st.session? name with
    | none =>
      rw [step, hs] at h
      obtain ⟨-, rfl⟩ := Prod.ext_iff.1 (Option.some.inj h)
      simp [State.log, hs]
    | some session =>
      rw [step, hs] at h
      obtain ⟨⟨reply, left, d⟩, hd, heq⟩ := Option.map_eq_some_iff.1 h
      obtain ⟨-, rfl⟩ := Prod.ext_iff.1 heq
      rw [State.log, hs]
      exact Session.control_run hd
  | forceDelete settings =>
    obtain ⟨⟨report, d⟩, hd, heq⟩ := Option.map_eq_some_iff.1 h
    obtain ⟨-, rfl⟩ := Prod.ext_iff.1 heq
    exact .inl (Device.control_teardown hd)

theorem calls_step (h : step st action = some (answer, next)) :
    next.device.control.calls = st.device.control.calls ++ st.log action := by
  rcases control_step h with hrecord | ⟨key, rfl, hfail⟩
  · rw [hrecord, Control.calls_record]
  · rw [hfail]
    exact (List.append_nil _).symm

theorem failing_step (h : step st action = some (answer, next))
    (hmark : ∀ key, action ≠ .control (.fail key)) :
    next.device.control.failing = st.device.control.failing := by
  rcases control_step h with hrecord | ⟨key, rfl, -⟩
  · rw [hrecord, Control.failing_record]
  · exact absurd rfl (hmark key)

/-- How the answer to an action goes with what the action records. -/
def State.Agrees (st : State) (answer : Answer) : Action → Prop
  | .provision name settings count specs =>
    ((∃ session, answer = .provisioned session) ↔
        st.log (.provision name settings count specs) =
          [settings.stopEntry, settings.backendEntry, settings.startEntry]) ∧
      ((∃ e, answer = .rejected e ∧ e.error.isConfiguration) ↔
        ∃ e, Plan.build count specs = .error e)
  | .session name .teardown =>
    answer.isReport ↔ ∃ session, st.session? name = some session ∧ session.cleansUp
  | _ => True

theorem agrees_step (h : step st action = some (answer, next)) : st.Agrees answer action := by
  cases action with
  | provision name settings count specs =>
    obtain ⟨⟨outcome, d⟩, hd, heq⟩ := Option.map_eq_some_iff.1 h
    obtain ⟨-, hok, hconfig⟩ := Session.control_provision hd
    cases outcome with
    | ok session =>
      obtain ⟨rfl, -⟩ := Prod.ext_iff.1 heq
      exact ⟨by simpa [State.log] using hok, by simpa using hconfig⟩
    | error e =>
      obtain ⟨rfl, -⟩ := Prod.ext_iff.1 heq
      exact ⟨by simpa [State.log] using hok, by simpa using hconfig⟩
  | session name call =>
    cases call with
    | teardown =>
      cases hs : st.session? name with
      | none =>
        rw [step, hs] at h
        obtain ⟨rfl, -⟩ := Prod.ext_iff.1 (Option.some.inj h)
        simp [State.Agrees, hs, Answer.isReport]
      | some session =>
        rw [step, hs] at h
        obtain ⟨⟨reply, left, d⟩, hd, heq⟩ := Option.map_eq_some_iff.1 h
        obtain ⟨rfl, -⟩ := Prod.ext_iff.1 heq
        obtain ⟨⟨report, next, torn⟩, ht, heq⟩ := Option.map_eq_some_iff.1 hd
        obtain ⟨rfl, -, -⟩ : _ = reply ∧ _ ∧ _ := by simpa using heq
        have hreport := (Session.control_teardown ht).2
        cases report with
        | none => simpa [State.Agrees, hs, Answer.isReport] using hreport
        | some report => simpa [State.Agrees, hs, Answer.isReport] using hreport
    | info | toggle | status | disableCleanup | drop => trivial
  | surface | control | graph | forceDelete => trivial

/-- **Run.** The log of a run is made of what its actions record in turn. -/
theorem calls_run (h : run st actions = some (answers, last)) :
    last.device.control.calls = st.device.control.calls ++ st.logAll actions := by
  induction actions generalizing st answers with
  | nil =>
    obtain ⟨-, rfl⟩ := Prod.mk.inj (Option.some.inj h)
    exact (List.append_nil _).symm
  | cons action actions ih =>
    rw [run] at h
    split at h
    · simp at h
    · rename_i answer mid hstep
      obtain ⟨⟨rest, final⟩, hrest, heq⟩ := Option.map_eq_some_iff.1 h
      obtain ⟨-, rfl⟩ := Prod.mk.inj heq
      rw [ih hrest, calls_step hstep, State.logAll, hstep, List.append_assoc]

/-- A run goes through every one of its actions. -/
theorem exists_step_of_run (h : run st (front ++ action :: back) = some (answers, last)) :
    ∃ before mid answer next after, run st front = some (before, mid) ∧
      step mid action = some (answer, next) ∧ run next back = some (after, last) ∧
      answers = before ++ answer :: after := by
  rw [run_append] at h
  obtain ⟨⟨before, mid⟩, hfront, h⟩ := Option.bind_eq_some_iff.1 h
  obtain ⟨⟨rest, final⟩, hrest, heq⟩ := Option.map_eq_some_iff.1 h
  obtain ⟨rfl, rfl⟩ := Prod.mk.inj heq
  rw [run] at hrest
  split at hrest
  · simp at hrest
  · rename_i answer next hstep
    obtain ⟨⟨after, final⟩, hback, heq⟩ := Option.map_eq_some_iff.1 hrest
    obtain ⟨rfl, rfl⟩ := Prod.mk.inj heq
    exact ⟨before, mid, answer, next, after, hfront, hstep, hback, rfl⟩

/-- **The log of the control.** Over any run, whatever properties are marked to fail and whatever
the settings of its sessions name, each action records exactly what its log says, given the state
that it meets, and is answered accordingly: provisioning goes through exactly when it ends with the
start of the composer, and a session is torn down exactly when it still cleans up. -/
theorem log_of_run (h : run st actions = some (answers, last)) :
    last.device.control.calls = st.device.control.calls ++ st.logAll actions ∧
      ∀ front action back, actions = front ++ action :: back →
        ∃ before mid answer next after, run st front = some (before, mid) ∧
          step mid action = some (answer, next) ∧ answers = before ++ answer :: after ∧
          next.device.control.calls = mid.device.control.calls ++ mid.log action ∧
          mid.Agrees answer action ∧
          ((∀ key, action ≠ .control (.fail key)) →
            next.device.control.failing = mid.device.control.failing) := by
  refine ⟨calls_run h, ?_⟩
  rintro front action back rfl
  obtain ⟨before, mid, answer, next, after, hfront, hstep, -, rfl⟩ := exists_step_of_run h
  exact ⟨before, mid, answer, next, after, hfront, hstep, rfl, calls_step hstep, agrees_step hstep,
    failing_step hstep⟩

/-- A run that builds a topology and takes it down; then another cannot start the composer, and its
backend property is the one that stops it; and no display is asked for in the end. -/
def thwartedRun : List Action :=
  [.provision "a" { Settings.standard with root := .ofText "/c/v" } 1 [],
    .session "a" (.toggle 0 true), .session "a" .teardown,
    .control (.fail Control.startKey),
    .provision "b" { Settings.standard with
      root := .ofText "/c/v", backendProperty := Control.stopKey } 1 [],
    .provision "c" Settings.standard 0 []]

theorem log_of_thwartedRun :
    ∃ answers last, run (.start (.ofDriver (.ofText "/c/v"))) thwartedRun = some (answers, last) ∧
      last.device.control.calls =
        [("ctl.stop", Settings.standard.serviceName),
          (Settings.standard.backendProperty, Settings.standard.drmDevice),
          ("ctl.start", Settings.standard.serviceName),
          ("ctl.stop", Settings.standard.serviceName),
          ("ctl.stop", Settings.standard.serviceName),
          ("ctl.stop", Settings.standard.drmDevice),
          ("ctl.stop", Settings.standard.serviceName)] := by
  obtain ⟨⟨answers, last⟩, hrun⟩ : ∃ last,
      run (.start (.ofDriver (.ofText "/c/v"))) thwartedRun = some last :=
    Option.isSome_iff_exists.1 (by decide +kernel)
  refine ⟨answers, last, hrun, (log_of_run hrun).1.trans ?_⟩
  decide +kernel

end Script

end DisplayTopology
