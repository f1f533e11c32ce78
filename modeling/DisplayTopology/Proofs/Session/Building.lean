import DisplayTopology.Proofs.Session.Steps
import DisplayTopology.Proofs.Topology.Growth

/-!
# Only marks stop a provisioning

On a prepared surface each step of provisioning has one path or one property, and it fails exactly
when that is marked to fail (`ProvisionStep.marked?`). So the steps of a plan stop at the first that
is marked, with its error, and go through when none is (`ProvisionStep.follows_ofPlan`).
-/

namespace DisplayTopology

open Location Surface

/-- An effect that has the first of some marks for its error, and otherwise leaves a good device. -/
structure Follows (mark : Option TopologyError) (good : Device → Prop) (effect : Device.Effect) :
    Prop where
  error : ∀ e, mark = some e → effect.1 = .error e
  ok : mark = none → ∃ d, effect = (.ok (), d) ∧ good d

namespace ProvisionStep

/-- The error of a step whose path or property is marked to fail on a device. -/
def marked? (root : Path) (d : Device) : ProvisionStep → Option TopologyError
  | setProperty key value =>
    if key ∈ d.control.failing then some (.property key value Control.refusal) else none
  | createRoot => (d.surface.failures.find? root.location).map (.resource .create root)
  | operation op =>
    (d.surface.failures.find? (op.path root).location).map (.resource op.task (op.path root))
  | enable =>
    (d.surface.failures.find? (Graph.enabledPath root).location).map
      (.resource .write (Graph.enabledPath root))

variable {root : Path} {start d : Device} {good mid : Device → Prop} {steps more : List ProvisionStep}

theorem follows_append
    (h : Follows (steps.findSome? (marked? root start)) mid (runAll root steps d))
    (h' : ∀ d, mid d → Follows (more.findSome? (marked? root start)) good (runAll root more d)) :
    Follows ((steps ++ more).findSome? (marked? root start)) good
      (runAll root (steps ++ more) d) := by
  rw [List.findSome?_append, runAll_append]
  cases hm : steps.findSome? (marked? root start) with
  | some e =>
    have herror := h.error e hm
    refine ⟨fun fault hf => ?_, fun hn => by simp at hn⟩
    obtain rfl : e = fault := by simpa using hf
    rcases hr : runAll root steps d with ⟨answer, stopped⟩
    rw [hr] at herror
    obtain rfl : answer = .error e := herror
    rfl
  | none =>
    obtain ⟨reached, hr, hgood⟩ := h.ok hm
    rw [hr]
    exact h' reached hgood

theorem follows_singleton (step : ProvisionStep)
    (h : Follows (marked? root start step) good (step.run root d)) :
    Follows ([step].findSome? (marked? root start)) good (runAll root [step] d) := by
  have hmark : [step].findSome? (marked? root start) = marked? root start step := by
    cases hm : marked? root start step <;> simp [hm]
  rw [hmark, runAll]
  refine ⟨fun e he => ?_, fun hn => ?_⟩
  · have herror := h.error e he
    rcases hr : step.run root d with ⟨answer, stopped⟩
    rw [hr] at herror
    obtain rfl : answer = .error e := herror
    rfl
  · obtain ⟨reached, hr, hgood⟩ := h.ok hn
    exact ⟨reached, by rw [hr]; rfl, hgood⟩

/-! ## Single steps -/

/-- A device on which the same properties fail as at the start, and whose surface is good. -/
structure Kept (start : Device) (good : Surface → Prop) (d : Device) : Prop where
  failing : d.control.failing = start.control.failing
  surface : good d.surface

theorem follows_setProperty {good : Surface → Prop} (h : Kept start good d) (key value : String) :
    Follows (marked? root start (setProperty key value)) (Kept start good)
      (run root d (setProperty key value)) := by
  rw [marked?, ← h.failing, run, Device.onControl]
  by_cases hkey : key ∈ d.control.failing
  · have hset : d.control.set key value = .error (.property key value Control.refusal) := by
      simp [Control.set, hkey]
    rw [if_pos hkey, hset]
    exact ⟨fun e he => by rw [Option.some.inj he], fun hn => by simp at hn⟩
  · rw [if_neg hkey, Control.set_eq_ok_iff.2 ⟨hkey, rfl⟩]
    exact ⟨fun e he => by simp at he, fun _ => ⟨_, rfl, h.failing, h.surface⟩⟩

/-- A step on the surface that only a mark can stop. -/
theorem follows_onSurface {task : SurfaceTask} {p : Path} {before good : Surface → Prop}
    {f : Surface → Graph.Effect} (h : Kept start before d)
    (hfailures : d.surface.failures = start.surface.failures)
    (hf : Marked d.surface task p good (f d.surface)) :
    Follows ((start.surface.failures.find? p.location).map (.resource task p)) (Kept start good)
      (d.onSurface f) := by
  rw [← hfailures]
  cases hmark : d.surface.failures.find? p.location with
  | some errno =>
    refine ⟨fun e he => ?_, fun hn => by simp at hn⟩
    rw [Device.onSurface_fst, hf.error errno hmark]
    rw [Option.map_some] at he
    rw [Option.some.inj he]
  | none =>
    obtain ⟨t, ht, hgood⟩ := hf.ok hmark
    refine ⟨fun e he => by simp at he, fun _ => ⟨{ d with surface := t }, ?_, h.failing, hgood⟩⟩
    rw [Device.onSurface, ht]

/-! ## The operations of a plan -/

/-- **Run.** Operations that are admissible after those done, in places that are all new, stop at the
first whose path is marked, and otherwise all add their entries. -/
theorem follows_operations {base : Surface} (hb : Prepared base root)
    (hbase : base.failures = start.surface.failures) {done ops : List GraphOp}
    (h : Kept start (Grown base root done) d)
    (hadm : GraphOp.Admissible (done.filterMap GraphOp.created?) ops)
    (hplaces : (done ++ ops).Pairwise fun a b => a.place ≠ b.place) :
    Follows ((ops.map operation).findSome? (marked? root start))
      (Kept start (Grown base root (done ++ ops))) (runAll root (ops.map operation) d) := by
  induction ops generalizing done d with
  | nil =>
    rw [List.append_nil]
    exact ⟨fun e he => by simp at he, fun _ => ⟨d, rfl, h⟩⟩
  | cons op ops ih =>
    obtain ⟨⟨hroute, hnodes⟩, hrest⟩ := hadm
    have hnew : ∀ other ∈ done, other.place ≠ op.place := fun other hother =>
      (List.pairwise_append.1 hplaces).2.2 other hother op List.mem_cons_self
    have hassoc : done ++ op :: ops = done ++ [op] ++ ops := by simp
    have hcreated : (done ++ [op]).filterMap GraphOp.created? =
        done.filterMap GraphOp.created? ++ op.created?.toList := by
      cases hc : op.created? <;> simp [hc]
    have hfailures := h.surface.failures.trans hbase
    have hmade : ∀ node ∈ op.requires, .createNode node ∈ done := fun node hn =>
      GraphOp.mem_filterMap_created_iff.1 (hnodes node hn)
    have hstep := follows_onSurface (f := Graph.apply root op) h hfailures
      (h.surface.apply hb hroute hmade hnew)
    rw [List.map_cons, ← List.singleton_append, hassoc]
    refine follows_append (follows_singleton (operation op) hstep) fun reached hreached => ?_
    exact ih hreached (hcreated ▸ hrest) (hassoc ▸ hplaces)

/-- What provisioning leaves at or below the root, given what the operations of a plan add. -/
structure Complete (base : Surface) (root : Path) (ops : List GraphOp) (s : Surface) : Prop where
  find? : ∀ l e, l.within root.location → (s.entries.find? l = some e ↔
    Shown root ops l e ∨ l = (Graph.enabledPath root).location ∧ e = .file (Bytes.encode "1"))
  outside : ∀ l, l.within root.location = false → s.entries.slot? l = base.entries.slot? l

/-- **All steps.** On a prepared surface the steps of a sound plan whose operations act in different
places stop at the first step that is marked, and otherwise build the topology. -/
theorem follows_ofPlan {settings : Settings} {plan : Plan}
    (hb : Prepared start.surface settings.root) (hplan : plan.Sound)
    (hplaces : plan.ops.toList.Pairwise fun a b => a.place ≠ b.place) :
    Follows ((ofPlan settings plan).findSome? (marked? settings.root start))
      (Kept start (Complete start.surface settings.root plan.ops.toList))
      (runAll settings.root (ofPlan settings plan) start) := by
  have hstart : Kept start (· = start.surface) start := ⟨rfl, rfl⟩
  have hassoc : ofPlan settings plan =
      [setProperty Control.stopKey settings.serviceName] ++
        ([setProperty settings.backendProperty settings.drmDevice] ++ ([createRoot] ++
          (plan.ops.toList.map operation ++ ([enable] ++
            [setProperty Control.startKey settings.serviceName])))) := by
    simp [ofPlan]
  rw [hassoc]
  refine follows_append (follows_singleton _ (follows_setProperty hstart _ _)) fun d hd => ?_
  refine follows_append (follows_singleton _ (follows_setProperty hd _ _)) fun d hd => ?_
  have hroot : Marked d.surface .create settings.root (Grown start.surface settings.root [])
      (Graph.createRoot settings.root d.surface) := by
    rw [hd.surface]
    exact hb.createRoot
  refine follows_append (follows_singleton createRoot
    (follows_onSurface hd (by rw [hd.surface]) hroot)) fun d hd => ?_
  refine follows_append (follows_operations hb rfl hd hplan.admissible hplaces) fun d hd => ?_
  rw [List.nil_append] at hd
  refine follows_append (follows_singleton enable
    (follows_onSurface hd hd.surface.failures hd.surface.setEnabled)) fun d hd => ?_
  have hcomplete : Kept start (Complete start.surface settings.root plan.ops.toList) d :=
    ⟨hd.failing, hd.surface.1, hd.surface.2⟩
  exact follows_singleton _ (follows_setProperty hcomplete _ _)

end ProvisionStep

end DisplayTopology
