import DisplayTopology.Proofs.Teardown.Walks
import DisplayTopology.Proofs.Topology.Places
import DisplayTopology.Script.Surface

/-!
# What survives a teardown

Before it walks, a teardown switches the topology off (`SwitchedOff`). What it takes after that
depends on the surface alone and not on the order of the walks (`teardown_survivors`): a directory
of a user below the root survives exactly when something that lasts holds it, or when it or one below
it has a name on the way that is no text; links survive unless they are routed, and whatever else
there is goes down with the first directory of a user above it that goes.
-/

namespace DisplayTopology.Teardown

open Location Surface

variable {s t off : Surface} {root : Path} {settings : Settings} {d : Device}

/-! ## Switching off -/

/-- The topology at `root` is off, unless its switch cannot be written, and nothing else changed. -/
structure SwitchedOff (s : Surface) (root : Path) (off : Surface) : Prop where
  pinned : off.pinned = s.pinned
  slot : ∀ l, l ≠ (Graph.enabledPath root).location → off.entries.slot? l = s.entries.slot? l
  switch : off.entries.find? (Graph.enabledPath root).location =
    if s.failures.find? (Graph.enabledPath root).location = none ∧
        s.dirAt (Graph.enabledPath root).location = false then
      some (.file (Bytes.encode "0"))
    else s.entries.find? (Graph.enabledPath root).location

theorem switchedOff_setEnabled (h : s.isDir root) :
    SwitchedOff s root (Graph.setEnabled root false s).2 := by
  have hparent := Graph.parent?_enabledPath root
  have hset : (Graph.setEnabled root false s).2 =
      (Graph.perform .write (Graph.enabledPath root) s
        (s.write (Graph.enabledPath root) (Bytes.encode "0"))).2 := rfl
  rw [hset]
  cases hw : s.write (Graph.enabledPath root) (Bytes.encode "0") with
  | ok t =>
    obtain ⟨hfault, ht⟩ := write_eq_ok_iff.1 hw
    obtain ⟨hmark, hdir, -⟩ := writeFault?_eq_none_iff.1 hfault
    refine ⟨?_, fun l hl => slot?_write hw hl, ?_⟩
    · rw [Graph.perform, ht]
    · rw [if_pos ⟨hmark, hdir⟩]
      exact (find?_of_write hw _).trans (if_pos rfl)
  | error e =>
    refine ⟨rfl, fun _ _ => rfl, (if_neg ?_).symm⟩
    rintro ⟨hmark, hdir⟩
    have hfault := writeFault?_eq_none_iff.2 ⟨hmark, hdir, root.location, hparent, h⟩
    have hok : s.write (Graph.enabledPath root) (Bytes.encode "0") = _ :=
      write_eq_ok_iff.2 ⟨hfault, rfl⟩
    rw [hw] at hok
    simp at hok

/-- Where there is no directory, there is no switch to write. -/
theorem setEnabled_of_not_isDir {enabled : Bool} (h : s.isDir root = false) :
    (Graph.setEnabled root enabled s).2 = s := by
  have hparent := Graph.parent?_enabledPath root
  obtain ⟨e, he⟩ :=
    exists_write_eq_error hparent h (Bytes.encode (if enabled then "1" else "0"))
  rw [Graph.setEnabled, he]
  rfl

theorem isTree_setEnabled {enabled : Bool} (hs : s.IsTree) :
    (Graph.setEnabled root enabled s).2.IsTree := by
  unfold Graph.setEnabled
  cases hw : s.write (Graph.enabledPath root) (Bytes.encode (if enabled then "1" else "0")) with
  | ok t => exact hs.write hw
  | error e => exact hs

theorem SwitchedOff.plainBelow (h : SwitchedOff s root off) (hp : s.PlainBelow root.location) :
    off.PlainBelow root.location := by
  intro l hl hb
  by_cases heq : l = (Graph.enabledPath root).location
  · exact ⟨_, by rw [heq, Graph.location_enabledPath, name?_append_named]⟩
  · refine hp l ?_ hb
    rw [PathMap.contains, ← PathMap.find?_congr (h.slot l heq)]
    exact hl

/-! ## A teardown in one piece -/

/-- A teardown stops the composer, switches the topology off, and walks. -/
theorem teardown_eq_map (settings : Settings) (d : Device) :
    d.teardown settings =
      (removeTopology settings.root (Graph.setEnabled settings.root false d.surface).2).map
        fun (events, t) =>
          (.ofEvents events, ⟨t, (d.onControl fun c => c.stop settings.serviceName).2.control⟩) := by
  have hsurface : (d.onControl fun c => c.stop settings.serviceName).2.surface = d.surface := by
    unfold Device.onControl
    split <;> rfl
  simp only [Device.teardown, Device.onSurface, hsurface]

/-- Without a directory at the root there is nothing to walk. -/
theorem removeTopology_of_not_isDir (h : s.isDir root = false) :
    ∃ event, removeTopology root s = some ([event], s) ∧ event.removed? = none := by
  obtain ⟨e, hlist⟩ : ∃ e, s.list root = .error e := ⟨_, list_eq_error_iff.2 ⟨h, rfl⟩⟩
  have hlinks : clearLinks (budget s) root s = some ([], s) := by simp [budget, clearLinks, hlist]
  rw [removeTopology, hlinks]
  cases e with
  | enoent => exact ⟨.absent root, by simp [budget, removeTree, hlist], rfl⟩
  | _ => exact ⟨.unlisted root, by simp [budget, removeTree, hlist], rfl⟩

/-! ## Survivors -/

/-- What a teardown at `root` leaves of a surface, entry by entry. -/
structure Survivors (s : Surface) (root : Location) (t : Surface) : Prop where
  /-- What is left was there before and is as it was. -/
  unchanged : ∀ l, t.entries.contains l → t.entries.slot? l = s.entries.slot? l
  /-- Outside the root everything is left. -/
  outside : ∀ l, l.within root = false → t.entries.slot? l = s.entries.slot? l
  /-- A link is left unless it is routed. -/
  link : ∀ l target, s.entries.find? l = some (.link target) →
    (t.entries.contains l ↔ ¬Routed root l)
  /-- A directory of a user is left when a pinned directory, or a link that is left, holds it, or
  when the way to it, or to a directory of a user below it, has a name that is no text. -/
  user : ∀ l, l.within root → s.entries.find? l = some (.dir .user) →
    (t.entries.contains l ↔ s.Held (fun m => ¬Routed root m) l ∨
      ∃ m, m.within l ∧ s.entries.find? m = some (.dir .user) ∧ ¬Legible root m)
  /-- A file or a default group is left when every directory of a user above it is. -/
  other : ∀ l e, l.within root → s.entries.find? l = some e → (∀ target, e ≠ .link target) →
    e ≠ .dir .user →
    (t.entries.contains l ↔
      ∀ m, m.within root → s.entries.find? m = some (.dir .user) → l.below m → t.entries.contains m)

/-- Where what is lost goes and everything else stays, survivors are left. -/
theorem survivors_of_lost {root : Location}
    (h : ∀ l, (Lost s root l → t.entries.slot? l = none) ∧
      (¬Lost s root l → t.entries.slot? l = s.entries.slot? l)) :
    Survivors s root t := by
  have hleft {l : Location} {e : Entry} (hl : s.entries.find? l = some e) :
      t.entries.contains l ↔ ¬Lost s root l := by
    constructor
    · intro hc hlost
      have hnone := PathMap.slot?_eq_none_iff.1 ((h l).1 hlost)
      rw [contains_eq_false_iff.2 hnone] at hc
      contradiction
    · intro hlost
      exact contains_of_find? ((PathMap.find?_congr ((h l).2 hlost)).trans hl)
  refine ⟨fun l hl => ?_, fun l hl => ?_, fun l target hl => ?_, fun l hw hl => ?_,
    fun l e hw hl hlink huser => ?_⟩
  · refine (h l).2 fun hlost => ?_
    have hnone := PathMap.slot?_eq_none_iff.1 ((h l).1 hlost)
    rw [contains_eq_false_iff.2 hnone] at hl
    contradiction
  · refine (h l).2 fun hlost => ?_
    rw [hlost.within] at hl
    contradiction
  · rw [hleft hl, lost_link_iff hl]
  · rw [hleft hl, lost_user_iff hl]
    constructor
    · intro hnot
      by_cases hheld : s.Held (fun m => ¬Routed root m) l
      · exact .inl hheld
      · refine .inr (Classical.byContradiction fun hall => hnot ⟨hw, hl, hheld, fun m hm hmu => ?_⟩)
        exact Classical.byContradiction fun hread => hall ⟨m, hm, hmu, hread⟩
    · rintro (hheld | ⟨m, hm, hmu, hread⟩) hloose
      · exact hloose.free hheld
      · exact hread (hloose.legible m hm hmu)
  · rw [hleft hl, lost_iff_exists_below hl hlink huser]
    constructor
    · intro hnot m hm hmu hb
      rw [hleft hmu, lost_user_iff hmu]
      exact fun hloose => hnot ⟨m, hloose, hb⟩
    · rintro hall ⟨m, hloose, hb⟩
      have hm := hall m hloose.within hloose.user hb
      rw [hleft hloose.user, lost_user_iff hloose.user] at hm
      exact hm hloose

/-- **What survives a teardown.** On a tree whose entries below a root that is not empty end in
plain names, every teardown ends. It changes nothing where the root is no directory; otherwise it
switches the topology off and leaves the survivors of that surface. -/
theorem teardown_survivors (settings : Settings) (d : Device) (hne : settings.root.text ≠ "")
    (hs : d.surface.IsTree) (hp : d.surface.PlainBelow settings.root.location) :
    ∃ report after, d.teardown settings = some (report, after) ∧
      (d.surface.isDir settings.root = false → after.surface = d.surface) ∧
      (d.surface.isDir settings.root → ∃ off, SwitchedOff d.surface settings.root off ∧
        Survivors off settings.root.location after.surface) := by
  rw [teardown_eq_map]
  cases hdir : d.surface.isDir settings.root with
  | false =>
    obtain ⟨event, ht, -⟩ := removeTopology_of_not_isDir hdir
    rw [setEnabled_of_not_isDir hdir, ht]
    exact ⟨_, _, rfl, fun _ => rfl, fun h => by simp at h⟩
  | true =>
    have hoff := switchedOff_setEnabled hdir
    obtain ⟨events, t, ht, -, hlost⟩ := removeTopology_spec (isTree_setEnabled hs)
      (hoff.plainBelow hp) (Path.location_ne_nil hne)
    rw [ht]
    exact ⟨_, _, rfl, fun h => by simp at h, fun _ => ⟨_, hoff, survivors_of_lost hlost⟩⟩

/-- A surface with a topology at `/c/v`: the driver's groups, a display that is lost, a plane that
is held by a link of its own, and a pinned group. -/
def heldSurface : Surface :=
  SurfaceCall.runAll (.ofDriver (.ofText "/c/v"))
    [.createDir (.ofText "/c/v"), .createDir (.ofText "/c/v/crtcs/C"),
      .createDir (.ofText "/c/v/encoders/E"),
      .createLink (.ofText "/c/v/crtcs/C") (.ofText "/c/v/encoders/E/possible_crtcs/C"),
      .createDir (.ofText "/c/v/planes/P"), .write (.ofText "/c/v/planes/P/type") [48],
      .createLink (.ofText "/c/v/crtcs") (.ofText "/c/v/planes/P/up"),
      .pin (.ofText "/c/v/planes")]

theorem teardown_survivors_heldSurface :
    (Path.ofText "/c/v").text ≠ "" ∧ heldSurface.IsTree ∧
      heldSurface.PlainBelow (Path.ofText "/c/v").location ∧
      heldSurface.isDir (Path.ofText "/c/v") ∧
      ∃ report after,
        Device.teardown ⟨heldSurface, .empty⟩ { Settings.standard with root := .ofText "/c/v" } =
          some (report, after) ∧
        ∃ off, SwitchedOff heldSurface (.ofText "/c/v") off ∧
          Survivors off (Path.ofText "/c/v").location after.surface := by
  have hne : (Path.ofText "/c/v").text ≠ "" := by decide
  have hs : heldSurface.IsTree := by decide +kernel
  have hp : heldSurface.PlainBelow (Path.ofText "/c/v").location := by decide +kernel
  have hdir : heldSurface.isDir (Path.ofText "/c/v") := by decide +kernel
  obtain ⟨report, after, ht, -, hleft⟩ := teardown_survivors
    { Settings.standard with root := .ofText "/c/v" } ⟨heldSurface, .empty⟩ hne hs hp
  exact ⟨hne, hs, hp, hdir, report, after, ht, hleft hdir⟩

/-- A directory of a user whose name is no text survives, and so does the root that it is in, where
there is neither a pin nor a link. -/
theorem teardown_survivors_illegible :
    (Path.ofText "/r").text ≠ "" ∧ illegibleSurface.IsTree ∧
      illegibleSurface.PlainBelow (Path.ofText "/r").location ∧
      illegibleSurface.isDir (.ofText "/r") ∧
      illegibleSurface.pinned = [] ∧ (∀ e ∈ illegibleSurface.entries.entries, e.2.kind ≠ .link) ∧
      ∃ report after,
        Device.teardown ⟨illegibleSurface, .empty⟩ { Settings.standard with root := .ofText "/r" } =
          some (report, after) ∧
        after.surface.entry? illegiblePath = some (.dir .user) ∧
        after.surface.entry? (.ofText "/r") = some (.dir .user) := by
  have hrun : (Device.teardown ⟨illegibleSurface, .empty⟩
      { Settings.standard with root := .ofText "/r" }).map (fun (_, after) =>
        (after.surface.entry? illegiblePath, after.surface.entry? (.ofText "/r"))) =
      some (some (.dir .user), some (.dir .user)) := by decide +kernel
  obtain ⟨⟨report, after⟩, hteardown, hleft⟩ := Option.map_eq_some_iff.1 hrun
  obtain ⟨hchild, hroot⟩ := Prod.mk.inj hleft
  exact ⟨by decide, by decide +kernel, by decide +kernel, by decide +kernel, by decide +kernel,
    by decide +kernel, report, after, hteardown, hchild, hroot⟩

end DisplayTopology.Teardown
