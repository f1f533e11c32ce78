import DisplayTopology.Proofs.Teardown.Locality

/-!
# What a session depends on

Two devices look the same to a session when their surfaces are alike off the other root and the same
properties cannot be set (`AlikeDevices`). The steps of provisioning, a teardown, and every call of
a session give the same answers on them and leave devices that look the same.
-/

namespace DisplayTopology

open Location Surface

/-- Two devices with surfaces that are alike, on which certain properties cannot be set. -/
structure AlikeDevices (failing : List String) (own other : Location) (d e : Device) : Prop where
  surface : Alike own other d.surface e.surface
  left : d.control.failing = failing
  right : e.control.failing = failing

variable {failing : List String} {other : Location} {d e : Device}

namespace Device

variable {own : Location}

theorem same_onSurface {f : Surface → Graph.Effect} (h : AlikeDevices failing own other d e)
    (hf : Same (Alike own other) (f d.surface) (f e.surface)) :
    Same (AlikeDevices failing own other) (d.onSurface f) (e.onSurface f) :=
  ⟨hf.1, hf.2, h.left, h.right⟩

/-- Setting a property depends on whether it can be set, not on what was set before. -/
theorem same_set (h : AlikeDevices failing own other d e) (key value : String) :
    Same (AlikeDevices failing own other) (d.onControl fun c => c.set key value)
      (e.onControl fun c => c.set key value) := by
  by_cases hkey : failing.contains key
  · have hset {c : Control} (hc : c.failing = failing) :
        c.set key value = .error (.property key value Control.refusal) := by
      rw [Control.set, hc, if_pos hkey]
    rw [onControl, onControl, hset h.left, hset h.right]
    exact ⟨rfl, h⟩
  · have hset {c : Control} (hc : c.failing = failing) :
        c.set key value = .ok { c with calls := c.calls ++ [(key, value)] } := by
      rw [Control.set, hc, if_neg hkey]
    rw [onControl, onControl, hset h.left, hset h.right]
    exact ⟨rfl, h.surface, h.left, h.right⟩

end Device

/-! ## Building -/

namespace ProvisionStep

variable {root : Path}

theorem same_run (h : AlikeDevices failing root.location other d e)
    (hsep : Separate root.location other) (step : ProvisionStep) :
    Same (AlikeDevices failing root.location other) (step.run root d) (step.run root e) := by
  have halike := h.surface.alikeOff
  cases step with
  | setProperty key value => exact Device.same_set h key value
  | createRoot =>
    exact Device.same_onSurface h (h.surface.same hsep (Graph.same_createRoot halike hsep)
      (Graph.changes_createRoot ..) (Graph.changes_createRoot ..))
  | operation op =>
    exact Device.same_onSurface h (h.surface.same hsep (Graph.same_apply halike hsep op)
      (Graph.changes_apply ..) (Graph.changes_apply ..))
  | enable =>
    exact Device.same_onSurface h (h.surface.same hsep (Graph.same_setEnabled halike hsep true)
      (Graph.changes_setEnabled ..) (Graph.changes_setEnabled ..))

theorem same_runAll (h : AlikeDevices failing root.location other d e)
    (hsep : Separate root.location other) (steps : List ProvisionStep) :
    Same (AlikeDevices failing root.location other) (runAll root steps d)
      (runAll root steps e) := by
  induction steps generalizing d e with
  | nil => exact ⟨rfl, h⟩
  | cons step steps ih =>
    have hstep := same_run h hsep step
    rw [runAll, runAll]
    rcases hd : step.run root d with ⟨answer, d'⟩
    rcases he : step.run root e with ⟨answer', e'⟩
    rw [hd, he] at hstep
    obtain ⟨rfl, halike⟩ :
      answer = answer' ∧ AlikeDevices failing root.location other d' e' := hstep
    cases answer with
    | error fault => exact ⟨rfl, halike⟩
    | ok => exact ih halike

end ProvisionStep

/-! ## Tearing down -/

/-- **Locality of teardowns.** A teardown gives the same report on devices that look the same. -/
theorem Device.same_teardown {settings : Settings}
    (h : AlikeDevices failing settings.root.location other d e)
    (hsep : Separate settings.root.location other) :
    SameRun (AlikeDevices failing settings.root.location other) (d.teardown settings)
      (e.teardown settings) := by
  have hstop := (same_set h Control.stopKey settings.serviceName).2
  have hoff := h.surface.same hsep (Graph.same_setEnabled h.surface.alikeOff hsep false)
    (Graph.changes_setEnabled ..) (Graph.changes_setEnabled ..)
  obtain ⟨⟨events, u⟩, ⟨events', v⟩, hu, hv, hevents, halike⟩ :=
    Teardown.same_removeTopology hoff.2 hsep
  obtain rfl : events = events' := hevents
  rw [Teardown.teardown_eq_map, Teardown.teardown_eq_map, hu, hv]
  exact .some ⟨rfl, halike, hstop.left, hstop.right⟩

/-! ## Sessions -/

namespace Session

theorem same_provision {settings : Settings}
    (h : AlikeDevices failing settings.root.location other d e)
    (hsep : Separate settings.root.location other) (count : Nat) (specs : List ConnectorSpec) :
    SameRun (AlikeDevices failing settings.root.location other) (provision settings count specs d)
      (provision settings count specs e) := by
  rw [provision, provision]
  cases Plan.build count specs with
  | error fault => exact .some ⟨rfl, h⟩
  | ok plan =>
    have hrun := ProvisionStep.same_runAll h hsep (ProvisionStep.ofPlan settings plan)
    show SameRun _ (provisionPlan settings plan d) (provisionPlan settings plan e)
    rw [provisionPlan, provisionPlan]
    rcases hd : ProvisionStep.runAll settings.root (ProvisionStep.ofPlan settings plan) d with
      ⟨answer, d'⟩
    rcases he : ProvisionStep.runAll settings.root (ProvisionStep.ofPlan settings plan) e with
      ⟨answer', e'⟩
    rw [hd, he] at hrun
    obtain ⟨rfl, halike⟩ :
      answer = answer' ∧ AlikeDevices failing settings.root.location other d' e' := hrun
    cases answer with
    | ok => exact .some ⟨rfl, halike⟩
    | error fault =>
      have hrolled := (Device.same_teardown halike hsep).map fun report =>
        (Except.error ⟨fault, some report⟩ : Except ProvisionError Session)
      simpa only [Option.map_map, Function.comp_def] using hrolled

variable {session : Session}

theorem same_toggle (h : AlikeDevices failing session.settings.root.location other d e)
    (hsep : Separate session.settings.root.location other) (index : Nat) (enable : Bool) :
    Same (AlikeDevices failing session.settings.root.location other)
      (session.toggle index enable d) (session.toggle index enable e) := by
  rw [toggle, toggle]
  split
  · exact ⟨rfl, h⟩
  · exact Device.same_onSurface h (h.surface.same hsep
      (Graph.same_writeAttr h.surface.alikeOff hsep _ _ (by decide))
      (Graph.changes_setStatus ..) (Graph.changes_setStatus ..))

theorem status_congr (h : AlikeDevices failing session.settings.root.location other d e)
    (hsep : Separate session.settings.root.location other) (index : Nat) :
    session.status index d = session.status index e := by
  rw [status, status, Graph.readStatus_congr h.surface.alikeOff hsep]

/-- A teardown of a session leaves the same session on devices that look the same. -/
theorem same_teardown (h : AlikeDevices failing session.settings.root.location other d e)
    (hsep : Separate session.settings.root.location other) :
    SameRun (Same (AlikeDevices failing session.settings.root.location other))
      (session.teardown d) (session.teardown e) := by
  rw [teardown, teardown]
  split
  · exact .some ⟨rfl, rfl, h⟩
  · obtain ⟨⟨report, d'⟩, ⟨report', e'⟩, hd, he, hreport, halike⟩ := Device.same_teardown h hsep
    obtain rfl : report = report' := hreport
    rw [hd, he]
    exact .some ⟨rfl, rfl, halike⟩

end Session

/-- **Locality of sessions.** Every call of a session gives the same answer on devices that look the
same, and leaves the same session. -/
theorem SessionCall.same_run {session : Session}
    (h : AlikeDevices failing session.settings.root.location other d e)
    (hsep : Separate session.settings.root.location other) (call : SessionCall) :
    SameRun (Same (AlikeDevices failing session.settings.root.location other))
      (call.run session d) (call.run session e) := by
  cases call with
  | info | disableCleanup => exact .some ⟨rfl, rfl, h⟩
  | toggle index enable =>
    obtain ⟨hanswer, halike⟩ := Session.same_toggle h hsep index enable
    exact .some ⟨congrArg ofAnswer hanswer, rfl, halike⟩
  | status index =>
    exact .some ⟨congrArg ofStatus (Session.status_congr h hsep index), rfl, h⟩
  | teardown | drop =>
    obtain ⟨⟨report, next, d'⟩, ⟨report', next', e'⟩, hd, he, hreport, hnext, halike⟩ :=
      Session.same_teardown h hsep
    obtain rfl : report = report' := hreport
    obtain rfl : next = next' := hnext
    simp only [run, Session.drop, hd, he, Option.map_some]
    exact .some ⟨rfl, rfl, halike⟩

end DisplayTopology
