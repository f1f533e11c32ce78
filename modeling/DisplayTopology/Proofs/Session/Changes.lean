import DisplayTopology.Proofs.Session.Steps
import DisplayTopology.Proofs.Teardown.Survival
import DisplayTopology.Proofs.Teardown.Trace
import DisplayTopology.Script.Run
import Mathlib.Logic.Relation

/-!
# What is done to a surface for a topology

Whatever is done for a topology, by an operation on its resources, a step of provisioning, a
teardown or a call of its session, comes down to calls at or below its root: what is made or written
is reached from the root by plain names, what a link leads to lies there and is a directory when the
link is laid, and what is removed lies there (`Change`). So a property that each such call keeps is
kept by everything that is done for a topology (`Changes`).
-/

namespace DisplayTopology

open Location Surface

/-- A call that went through, made for the topology at a root. -/
inductive Change (root : Location) (s t : Surface) : Prop where
  | createDir {p : Path} (names : List String) (hp : p.location = root ++ names.map .named)
      (h : s.createDir p = .ok t)
  | write {p : Path} {data : Bytes} (names : List String)
      (hp : p.location = root ++ names.map .named) (h : s.write p data = .ok t)
  | createLink {target p : Path} (names : List String) (hp : p.location = root ++ names.map .named)
      (htarget : target.location.within root) (hdir : s.isDir target)
      (h : s.createLink target p = .ok t)
  | removeLink {p : Path} (hw : p.location.within root) (h : s.removeLink p = .ok t)
  | removeDir {p : Path} (hw : p.location.within root) (h : s.removeDir p = .ok t)

/-- Calls that went through one after the other, made for the topology at a root. -/
abbrev Changes (root : Location) : Surface → Surface → Prop := Relation.ReflTransGen (Change root)

/-- What every call for a topology keeps is kept. -/
theorem Changes.inv {root : Location} {P : Surface → Prop} {s t : Surface}
    (hstep : ∀ s t, P s → Change root s t → P t) (h : Changes root s t) (hs : P s) : P t := by
  induction h with
  | refl => exact hs
  | tail _ h ih => exact hstep _ _ ih h

/-! ## Operations on resources -/

namespace Graph

variable {root : Path} {s : Surface}

theorem changes_perform {task : SurfaceTask} {p : Path} {r : Except Errno Surface}
    (h : ∀ t, r = .ok t → Change root.location s t) :
    Changes root.location s (perform task p s r).2 := by
  cases r with
  | ok t => exact .single (h t rfl)
  | error e => exact .refl

theorem changes_createRoot (root : Path) (s : Surface) :
    Changes root.location s (createRoot root s).2 :=
  changes_perform fun _ h => .createDir [] (by simp) h

theorem changes_createNode (node : NodeId) (s : Surface) :
    Changes root.location s (createNode root node s).2 :=
  changes_perform fun _ h => .createDir node.place (location_nodePath root node) h

theorem changes_writeAttr (node : NodeId) {attr : String} (data : Bytes) (s : Surface)
    (hattr : Path.IsName attr) : Changes root.location s (writeAttr root node attr data s).2 :=
  changes_perform fun _ h => .write (node.place ++ [attr]) (location_attrPath root node hattr) h

theorem changes_setStatus (connector : Nat) (status : ConnectorStatus) (s : Surface) :
    Changes root.location s (setStatus root connector status s).2 :=
  changes_writeAttr _ _ _ (by decide)

theorem changes_setEdid (connector : Nat) (edid : Bytes) (s : Surface) :
    Changes root.location s (setEdid root connector edid s).2 := by
  unfold setEdid
  split
  · exact .refl
  · exact changes_writeAttr _ _ _ (by decide)

theorem changes_setEnabled (root : Path) (enabled : Bool) (s : Surface) :
    Changes root.location s (setEnabled root enabled s).2 :=
  changes_perform fun _ h => .write ["enabled"] (location_enabledPath root) h

theorem changes_link (src dst : NodeId) (s : Surface) :
    Changes root.location s (link root src dst s).2 := by
  have hlinkDir {t : Surface} (h : s.createDir (linkDir root src dst.kind) = .ok t) :
      Changes root.location s t :=
    .single (.createDir (src.place ++ [dst.kind.linkGroup]) (location_linkDir root src dst.kind) h)
  have houtcome := link_outcome root src dst s
  generalize link root src dst s = effect at houtcome ⊢
  cases houtcome with
  | unroutable | missing | noDir | noLink => exact .refl
  | halfWay _ hdir => exact hlinkDir hdir
  | @laid t u hjoin hdir hlink =>
    -- the target was a directory before the directory for links was made, and the link needs it to
    -- be one after that
    have hlaid (hdst : t.isDir (nodePath root dst)) : Changes root.location t u :=
      .single (.createLink (src.place ++ [dst.kind.linkGroup, dst.name])
        (location_linkPath root src dst) (within_nodePath root dst) hdst hlink)
    rcases hdir with ⟨-, rfl⟩ | hdir
    · exact hlaid hjoin.dst_there
    · exact (hlinkDir hdir).trans (hlaid (dirAt_createDir hdir hjoin.dst_there))

theorem changes_apply (root : Path) (op : GraphOp) (s : Surface) :
    Changes root.location s (apply root op s).2 := by
  cases op with
  | createNode node => exact changes_createNode node s
  | setStatus | setConnectorType | setPlaneType | setPlaneFormat =>
    rw [apply]
    exact changes_writeAttr _ _ _ (by decide)
  | setEdid connector monitor => exact changes_setEdid connector monitor.edid s
  | link src dst => exact changes_link src dst s

end Graph

theorem GraphCall.changes_ofEffect {root : Location} {s : Surface} {effect : Graph.Effect}
    (h : Changes root s effect.2) : Changes root s (ofEffect effect).2 := by
  rcases effect with ⟨_ | _, t⟩ <;> exact h

theorem GraphCall.changes_run (root : Path) (call : GraphCall) (s : Surface) :
    Changes root.location s (call.run root s).2 := by
  cases call with
  | nodePath | readStatus => exact .refl
  | createRoot => exact changes_ofEffect (Graph.changes_createRoot root s)
  | createNode node => exact changes_ofEffect (Graph.changes_createNode node s)
  | setStatus | setConnectorType | setPlaneType | setPlaneFormat =>
    rw [run]
    exact changes_ofEffect (Graph.changes_writeAttr _ _ _ (by decide))
  | setEdid connector edid => exact changes_ofEffect (Graph.changes_setEdid connector edid s)
  | link src dst => exact changes_ofEffect (Graph.changes_link src dst s)
  | setEnabled enabled => exact changes_ofEffect (Graph.changes_setEnabled root enabled s)
  | apply op => exact changes_ofEffect (Graph.changes_apply root op s)

/-! ## Building -/

namespace ProvisionStep

theorem changes_run (root : Path) (d : Device) (step : ProvisionStep) :
    Changes root.location d.surface (step.run root d).2.surface := by
  cases step with
  | setProperty key value =>
    rw [run, Device.onControl_surface]
  | createRoot => exact Graph.changes_createRoot root d.surface
  | operation op => exact Graph.changes_apply root op d.surface
  | enable => exact Graph.changes_setEnabled root true d.surface

/-- **Run.** Steps of provisioning come down to calls, wherever they stop. -/
theorem changes_runAll (root : Path) (steps : List ProvisionStep) (d : Device) :
    Changes root.location d.surface (runAll root steps d).2.surface := by
  induction steps generalizing d with
  | nil => exact .refl
  | cons step steps ih =>
    have hrun := changes_run root d step
    rw [runAll]
    split
    · rename_i heq
      rw [heq] at hrun
      exact hrun
    · rename_i heq
      rw [heq] at hrun
      exact hrun.trans (ih _)

end ProvisionStep

/-! ## Tearing down -/

namespace Teardown

variable {s t : Surface} {root : Location} {event : Event} {events : List Event}

theorem Tells.changes (hw : event.path.location.within root) (h : Tells s event t) :
    Changes root s t := by
  cases h with
  | unlinked h => exact .single (.removeLink hw h)
  | removed h => exact .single (.removeDir hw h)
  | kept | refused | absent | unlisted => exact .refl

theorem Trace.changes (h : Trace root s events t) : Changes root s t := by
  induction h with
  | nil => exact .refl
  | cons hw h _ ih => exact (h.changes hw).trans ih

end Teardown

theorem Device.changes_teardown {settings : Settings} {d after : Device} {report : Report}
    (h : d.teardown settings = some (report, after)) :
    Changes settings.root.location d.surface after.surface := by
  rw [Teardown.teardown_eq_map] at h
  obtain ⟨⟨events, t⟩, ht, heq⟩ := Option.map_eq_some_iff.1 h
  obtain ⟨-, rfl⟩ := Prod.mk.inj heq
  exact (Graph.changes_setEnabled settings.root false d.surface).trans
    (Teardown.trace_removeTopology ht).changes

/-! ## Sessions -/

namespace Session

variable {settings : Settings} {session : Session} {d after : Device}

theorem changes_provision {count : Nat} {specs : List ConnectorSpec}
    {answer : Except ProvisionError Session}
    (h : provision settings count specs d = some (answer, after)) :
    Changes settings.root.location d.surface after.surface := by
  rw [provision] at h
  split at h
  · obtain ⟨-, rfl⟩ := Prod.mk.inj (Option.some.inj h)
    exact .refl
  · rename_i plan _
    have hrun := ProvisionStep.changes_runAll settings.root (ProvisionStep.ofPlan settings plan) d
    rw [provisionPlan] at h
    split at h
    · rename_i heq
      rw [heq] at hrun
      obtain ⟨-, rfl⟩ := Prod.mk.inj (Option.some.inj h)
      exact hrun
    · rename_i heq
      rw [heq] at hrun
      obtain ⟨⟨report, torn⟩, ht, heq⟩ := Option.map_eq_some_iff.1 h
      obtain ⟨-, rfl⟩ := Prod.mk.inj heq
      exact hrun.trans (Device.changes_teardown ht)

theorem changes_toggle (session : Session) (index : Nat) (enable : Bool) (d : Device) :
    Changes session.settings.root.location d.surface
      (session.toggle index enable d).2.surface := by
  rw [toggle]
  split
  · exact .refl
  · rw [Device.onSurface_surface]
    exact Graph.changes_setStatus index (.ofEnabled enable) d.surface

theorem changes_teardown {report : Option Report} {next : Session}
    (h : session.teardown d = some (report, next, after)) :
    Changes session.settings.root.location d.surface after.surface := by
  rw [teardown] at h
  split at h
  · obtain ⟨-, -, rfl⟩ : _ ∧ _ ∧ d = after := by simpa using h
    exact .refl
  · obtain ⟨⟨_, torn⟩, ht, heq⟩ := Option.map_eq_some_iff.1 h
    obtain ⟨-, -, rfl⟩ : _ ∧ _ ∧ torn = after := by simpa using heq
    exact Device.changes_teardown ht

end Session

theorem SessionCall.changes_run {session : Session} {d after : Device} {call : SessionCall}
    {answer : SessionAnswer} {next : Option Session}
    (h : call.run session d = some (answer, next, after)) :
    Changes session.settings.root.location d.surface after.surface := by
  cases call with
  | info | status | disableCleanup =>
    obtain ⟨-, -, rfl⟩ : _ ∧ _ ∧ d = after := by simpa [run] using h
    exact .refl
  | toggle index enable =>
    obtain ⟨-, -, rfl⟩ : _ ∧ _ ∧ (session.toggle index enable d).2 = after := by
      simpa [run] using h
    exact session.changes_toggle index enable d
  | teardown =>
    obtain ⟨⟨report, next, torn⟩, ht, heq⟩ := Option.map_eq_some_iff.1 h
    obtain ⟨-, -, rfl⟩ : _ ∧ _ ∧ torn = after := by simpa using heq
    exact Session.changes_teardown ht
  | drop =>
    obtain ⟨torn, ht, heq⟩ := Option.map_eq_some_iff.1 h
    obtain ⟨-, -, rfl⟩ : _ ∧ _ ∧ torn = after := by simpa using heq
    obtain ⟨⟨report, next, last⟩, hlast, rfl⟩ := Option.map_eq_some_iff.1 ht
    exact Session.changes_teardown hlast

/-! ## Scripts -/

namespace Script

variable {st next : State} {action : Action} {answer : Answer}

/-- The root of the topology that an action is for, if it is for one. -/
def State.root? (st : State) : Action → Option Path
  | .surface _ | .control _ => none
  | .graph root _ => some root
  | .provision _ settings _ _ => some settings.root
  | .session name _ => (st.session? name).map fun session => session.settings.root
  | .forceDelete settings => some settings.root

/-- An action for a topology comes down to calls made for it. -/
theorem changes_step {root : Path} (hroot : st.root? action = some root)
    (h : step st action = some (answer, next)) :
    Changes root.location st.device.surface next.device.surface := by
  cases action with
  | surface | control => simp [State.root?] at hroot
  | graph root call =>
    obtain rfl := Option.some.inj hroot
    obtain ⟨-, rfl⟩ := Prod.ext_iff.1 (Option.some.inj h)
    exact call.changes_run root st.device.surface
  | provision name settings count specs =>
    obtain rfl := Option.some.inj hroot
    obtain ⟨⟨outcome, d⟩, hd, heq⟩ := Option.map_eq_some_iff.1 h
    have hchanges := Session.changes_provision hd
    cases outcome with
    | ok session =>
      obtain ⟨-, rfl⟩ := Prod.ext_iff.1 heq
      exact hchanges
    | error e =>
      obtain ⟨-, rfl⟩ := Prod.ext_iff.1 heq
      exact hchanges
  | session name call =>
    obtain ⟨session, hs, rfl⟩ := Option.map_eq_some_iff.1 hroot
    rw [step, hs] at h
    obtain ⟨⟨reply, left, d⟩, hd, heq⟩ := Option.map_eq_some_iff.1 h
    obtain ⟨-, rfl⟩ := Prod.ext_iff.1 heq
    exact SessionCall.changes_run hd
  | forceDelete settings =>
    obtain rfl := Option.some.inj hroot
    obtain ⟨⟨report, d⟩, hd, heq⟩ := Option.map_eq_some_iff.1 h
    obtain ⟨-, rfl⟩ := Prod.ext_iff.1 heq
    exact Device.changes_teardown hd

/-- Any other action but a call of the surface leaves the surface alone. -/
theorem surface_step (hroot : st.root? action = none) (hcall : ∀ call, action ≠ .surface call)
    (h : step st action = some (answer, next)) : next.device.surface = st.device.surface := by
  cases action with
  | surface call => exact absurd rfl (hcall call)
  | control call =>
    obtain ⟨-, rfl⟩ := Prod.ext_iff.1 (Option.some.inj h)
    rfl
  | graph | provision | forceDelete => simp [State.root?] at hroot
  | session name call =>
    have hs : st.session? name = none := Option.map_eq_none_iff.1 hroot
    rw [step, hs] at h
    obtain ⟨-, rfl⟩ := Prod.ext_iff.1 (Option.some.inj h)
    rfl

end Script

end DisplayTopology
