import DisplayTopology.Proofs.Topology.PlanContents
import DisplayTopology.Proofs.Topology.Raised
import DisplayTopology.Session.Basic

/-!
# What the steps of provisioning leave

The steps of provisioning open with the root: up to and including it they leave a vacant surface as
it is or raise it (`runAll_opening`), and all steps after it keep the surface raised, however many
succeed (`raised_runAll`). So wherever provisioning stops, either the root was not made and nothing
changed, or a raised surface is left (`runAll_ofPlan`). What stops a step is no configuration error
(`not_isConfiguration_of_runAll`). Where a session was provisioned nothing stopped one
(`Session.exists_plan_of_provision`).
-/

namespace DisplayTopology

open Location Surface

/-! ## Effects on a device -/

namespace Device

variable {d : Device}

@[simp] theorem onSurface_fst (d : Device) (f : Surface → Graph.Effect) :
    (d.onSurface f).1 = (f d.surface).1 := rfl

@[simp] theorem onSurface_surface (d : Device) (f : Surface → Graph.Effect) :
    (d.onSurface f).2.surface = (f d.surface).2 := rfl

@[simp] theorem onSurface_control (d : Device) (f : Surface → Graph.Effect) :
    (d.onSurface f).2.control = d.control := rfl

@[simp] theorem onControl_surface (d : Device) (f : Control → Except TopologyError Control) :
    (d.onControl f).2.surface = d.surface := by
  unfold onControl
  split <;> rfl

end Device

/-! ## What stops a step -/

namespace Graph

variable {root : Path} {s : Surface} {e : TopologyError}

theorem not_isConfiguration_of_perform {task : SurfaceTask} {p : Path} {r : Except Errno Surface}
    (h : (perform task p s r).1 = .error e) : e.isConfiguration = false := by
  obtain ⟨-, errno, -, rfl⟩ := perform_of_error h
  rfl

theorem not_isConfiguration_of_apply {op : GraphOp} (hop : op.unroutable = false)
    (h : (apply root op s).1 = .error e) : e.isConfiguration = false := by
  cases op with
  | createNode | setStatus | setConnectorType | setPlaneType | setPlaneFormat =>
    exact not_isConfiguration_of_perform h
  | setEdid connector monitor =>
    rw [apply, setEdid] at h
    split at h
    · rw [← Except.error.inj h]
      rfl
    · exact not_isConfiguration_of_perform h
  | link src dst =>
    have houtcome := link_outcome root src dst s
    rw [apply] at h
    generalize link root src dst s = effect at houtcome h
    cases houtcome with
    | unroutable hno => simp [GraphOp.unroutable, hno] at hop
    | missing | noDir | noLink | halfWay =>
      obtain rfl := Except.error.inj h
      rfl
    | laid => simp at h

end Graph

namespace ProvisionStep

variable {root : Path} {base : Surface} {d : Device} {e : TopologyError}

/-- The steps that come before the operations of a plan; the last of them makes the root. -/
def opening (settings : Settings) : List ProvisionStep :=
  [setProperty Control.stopKey settings.serviceName,
    setProperty settings.backendProperty settings.drmDevice, createRoot]

/-- The steps that follow once the root is made. -/
def building (settings : Settings) (plan : Plan) : List ProvisionStep :=
  plan.ops.toList.map operation ++
    [enable, setProperty Control.startKey settings.serviceName]

theorem ofPlan_eq_append (settings : Settings) (plan : Plan) :
    ofPlan settings plan = opening settings ++ building settings plan := by
  rw [ofPlan, opening, building, List.append_assoc]

/-- A step that is no unroutable link is stopped by a refusal, not by a configuration error. -/
theorem not_isConfiguration_of_run {step : ProvisionStep}
    (hstep : ∀ op, step = operation op → op.unroutable = false)
    (h : (step.run root d).1 = .error e) : e.isConfiguration = false := by
  cases step with
  | setProperty key value =>
    rw [run, Device.onControl, Control.set] at h
    split at h
    · simp at h
    · rename_i heq
      obtain rfl := Except.error.inj h
      split at heq
      · rw [← Except.error.inj heq]
        rfl
      · simp at heq
  | createRoot | enable => exact Graph.not_isConfiguration_of_perform h
  | operation op => exact Graph.not_isConfiguration_of_apply (hstep op rfl) h

theorem not_isConfiguration_of_runAll {steps : List ProvisionStep}
    (hsteps : ∀ op, operation op ∈ steps → op.unroutable = false)
    (h : (runAll root steps d).1 = .error e) : e.isConfiguration = false := by
  induction steps generalizing d with
  | nil => simp [runAll] at h
  | cons step steps ih =>
    have hhead : ∀ op, step = operation op → op.unroutable = false :=
      fun op heq => hsteps op (heq ▸ List.mem_cons_self)
    rw [runAll] at h
    split at h
    · rename_i heq
      obtain rfl := Except.error.inj h
      exact not_isConfiguration_of_run hhead (congrArg Prod.fst heq)
    · exact ih (fun op hop => hsteps op (List.mem_cons_of_mem _ hop)) h

/-- The steps of a sound plan are no unroutable links. -/
theorem unroutable_of_mem_ofPlan {settings : Settings} {plan : Plan} (hplan : plan.Sound)
    {op : GraphOp} (h : operation op ∈ ofPlan settings plan) : op.unroutable = false := by
  have hop : op ∈ plan.ops.toList := by simpa [ofPlan] using h
  exact hplan.admissible.unroutable hop

/-! ## Raised surfaces -/

/-- Every step but the making of the root keeps a raised surface raised. -/
theorem raised_run (h : Raised base root.location d.surface) {step : ProvisionStep}
    (hstep : step ≠ createRoot) : Raised base root.location (step.run root d).2.surface := by
  cases step with
  | setProperty key value => simpa [run] using h
  | createRoot => contradiction
  | operation op => exact h.apply op
  | enable => exact h.setEnabled true

/-- **Run.** Steps after the making of the root keep a raised surface raised, wherever they stop. -/
theorem raised_runAll (h : Raised base root.location d.surface) {steps : List ProvisionStep}
    (hsteps : createRoot ∉ steps) : Raised base root.location (runAll root steps d).2.surface := by
  induction steps generalizing d with
  | nil => exact h
  | cons step steps ih =>
    obtain ⟨hstep, hsteps⟩ := not_or.1 (fun hor => hsteps (List.mem_cons.2 hor))
    have hrun := raised_run h (Ne.symm hstep)
    rw [runAll]
    split
    · rename_i heq
      rw [heq] at hrun
      exact hrun
    · rename_i heq
      rw [heq] at hrun
      exact ih hrun hsteps

/-- Opening a vacant surface either fails and leaves the surface alone, or raises it. -/
theorem runAll_opening {settings : Settings} (hv : d.surface.Vacant settings.root.location) :
    (∃ e after, runAll settings.root (opening settings) d = (.error e, after) ∧
        after.surface = d.surface) ∨
      ∃ after, runAll settings.root (opening settings) d = (.ok (), after) ∧
        Raised d.surface settings.root.location after.surface := by
  rw [opening, runAll]
  have hfirst : (run settings.root d
      (setProperty Control.stopKey settings.serviceName)).2.surface = d.surface :=
    Device.onControl_surface ..
  rcases hr : run settings.root d (setProperty Control.stopKey settings.serviceName)
    with ⟨e | ⟨⟩, d₁⟩
  · exact .inl ⟨e, d₁, rfl, by rw [hr] at hfirst; exact hfirst⟩
  rw [hr] at hfirst
  dsimp only at hfirst ⊢
  rw [runAll]
  have hsecond : (run settings.root d₁
      (setProperty settings.backendProperty settings.drmDevice)).2.surface = d.surface :=
    (Device.onControl_surface ..).trans hfirst
  rcases hr₂ : run settings.root d₁ (setProperty settings.backendProperty settings.drmDevice)
    with ⟨e | ⟨⟩, d₂⟩
  · exact .inl ⟨e, d₂, rfl, by rw [hr₂] at hsecond; exact hsecond⟩
  rw [hr₂] at hsecond
  dsimp only at hsecond ⊢
  rw [runAll, run, Device.onSurface, Graph.createRoot]
  cases hc : d₂.surface.createDir settings.root with
  | error errno => exact .inl ⟨_, _, rfl, hsecond⟩
  | ok t =>
    rw [hsecond] at hc
    exact .inr ⟨_, rfl, hv.createRoot hc⟩

/-- Wherever the steps of a plan stop on a vacant surface, either the opening failed and the surface
is as it was, or the root was made and a raised surface is left. -/
theorem runAll_ofPlan {settings : Settings} (plan : Plan)
    (hv : d.surface.Vacant settings.root.location) :
    (∃ e after, runAll settings.root (opening settings) d = (.error e, after) ∧
        runAll settings.root (ofPlan settings plan) d = (.error e, after) ∧
        after.surface = d.surface) ∨
      (runAll settings.root (opening settings) d).1 = .ok () ∧
        Raised d.surface settings.root.location
          (runAll settings.root (ofPlan settings plan) d).2.surface := by
  have hbuild : createRoot ∉ building settings plan := by simp [building]
  rw [ofPlan_eq_append, runAll_append]
  rcases runAll_opening hv with ⟨e, after, hr, hs⟩ | ⟨after, hr, hraised⟩
  · exact .inl ⟨e, after, hr, by rw [hr], hs⟩
  · refine .inr ⟨by rw [hr], ?_⟩
    rw [hr]
    exact raised_runAll hraised hbuild

end ProvisionStep

/-! ## What provisioned a session -/

/-- A session was provisioned by a plan all of whose steps went through. -/
theorem Session.exists_plan_of_provision {settings : Settings} {session : Session} {count : Nat}
    {specs : List ConnectorSpec} {d after : Device}
    (h : provision settings count specs d = some (.ok session, after)) :
    ∃ plan, Plan.build count specs = .ok plan ∧ session = .ofPlan settings plan ∧
      ProvisionStep.runAll settings.root (ProvisionStep.ofPlan settings plan) d =
        (.ok (), after) := by
  rw [provision] at h
  split at h
  · simp at h
  · rename_i plan hplan
    rw [provisionPlan] at h
    split at h
    · rename_i reached hr
      obtain ⟨rfl, rfl⟩ : Session.ofPlan settings plan = session ∧ reached = after := by
        simpa using h
      exact ⟨plan, hplan, rfl, hr⟩
    · obtain ⟨_, -, heq⟩ := Option.map_eq_some_iff.1 h
      simp at heq

end DisplayTopology
