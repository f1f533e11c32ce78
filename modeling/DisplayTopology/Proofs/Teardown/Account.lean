import DisplayTopology.Proofs.Teardown.Survival
import DisplayTopology.Proofs.Teardown.Trace

/-!
# What a teardown reports

The report of a teardown accounts for what became of a topology (`teardown_accounted`). The links
and the directories of users that went are listed, each once, and a directory after the directories
of users below it; that much every trace does. That nothing left behind is passed over is due to the
second walk: it tries every directory at or below the root that it can come to, so one that is left
was refused (`refused_of_removeTree`). It comes to those that are reached by names that are text; one
with another name is left without a word (`teardown_accounted_illegible`). Default groups are
refused for what they are, and no other directory is refused in their way
(`Surface.removeDir_eq_eperm_iff`).
-/

namespace DisplayTopology

namespace Event

theorem kernelOwned?_eq_some_iff {event : Event} {p : Path} :
    event.kernelOwned? = some p ↔ event = .refused p .eperm := by
  cases event with
  | refused q e => cases e <;> simp [kernelOwned?]
  | unlinked | kept | removed | absent | unlisted => simp [kernelOwned?]

theorem skipped?_refused {p : Path} {e : Errno} (h : e ≠ .eperm) :
    (refused p e).skipped? = some p := by
  cases e with
  | eperm => exact absurd rfl h
  | _ => rfl

theorem removed?_eq_some_iff {event : Event} {p : Path} :
    event.removed? = some p ↔ event = .removed p := by
  cases event <;> simp [removed?]

end Event

namespace Teardown

open Location Surface

variable {s t u off : Surface} {root l : Location} {dir : Path} {event : Event}
  {events : List Event} {items : List Item} {visit : String → Surface → Option Walked}
  {report : Report}

/-! ## Every directory is tried -/

/-- Among the visits of the listed directories is the one of each of them. -/
theorem exists_visit_of_overDirs
    (hvisit : ∀ item ∈ items, ∀ s events t, visit item.name s = some (events, t) →
      Trace root s events t)
    (h : overDirs visit items s = some (events, t)) {item : Item} (hi : item ∈ items)
    (hk : item.kind = .dir) :
    ∃ before during after u v, events = before ++ (during ++ after) ∧ Trace root s before u ∧
      visit item.name u = some (during, v) ∧ Trace root v after t := by
  induction items generalizing s events with
  | nil => simp at hi
  | cons first items ih =>
    obtain ⟨hfirst, hitems⟩ := List.forall_mem_cons.1 hvisit
    rw [overDirs] at h
    split at h
    · split at h
      · simp at h
      · rename_i during v hv
        obtain ⟨⟨rest, w⟩, hrest, hw⟩ := Option.map_eq_some_iff.1 h
        obtain ⟨rfl, rfl⟩ := Prod.mk.inj hw
        rcases List.mem_cons.1 hi with rfl | hi
        · exact ⟨[], during, rest, s, v, rfl, .nil s, hv, trace_overDirs hitems hrest⟩
        · obtain ⟨before, mid, after, u, x, rfl, hbefore, hmid, hafter⟩ := ih hitems hrest hi
          exact ⟨during ++ before, mid, after, u, x, by simp, (hfirst _ _ _ hv).append hbefore,
            hmid, hafter⟩
    · rename_i hnot
      rcases List.mem_cons.1 hi with rfl | hi
      · exact absurd hk hnot
      · exact ih hitems h hi

/-- An event tells of a removal that was refused at a location. -/
def Refused (events : List Event) (l : Location) : Prop :=
  ∃ p e, .refused p e ∈ events ∧ p.location = l

theorem Refused.mono {more : List Event} (h : Refused events l) (hsub : events ⊆ more) :
    Refused more l := by
  obtain ⟨p, e, hmem, hl⟩ := h
  exact ⟨p, e, hsub hmem, hl⟩

theorem refused_of_tryRemove (h : (tryRemove dir s).2.dirAt dir.location) :
    Refused [(tryRemove dir s).1] dir.location := by
  unfold tryRemove at h ⊢
  cases hr : s.removeDir dir with
  | ok t =>
    simp only [hr] at h
    simp [dirAt, find?_of_removeDir hr, within_refl] at h
  | error e => exact ⟨dir, e, List.mem_singleton_self _, rfl⟩

/-- **What the second walk leaves was refused**, where it could read the way. -/
theorem refused_of_removeTree {n : Nat} (hs : s.IsTree) (hne : root ≠ [])
    (hw : dir.location.within root) (h : removeTree n dir s = some (events, t))
    (hl : Legible dir.location l) (hleft : t.dirAt l) : Refused events l := by
  induction n generalizing dir s events t with
  | zero => simp [removeTree] at h
  | succ n ih =>
    have hstart : s.dirAt l := ((trace_removeTree hw h).logged hs).dirAt hleft
    cases hlist : s.list dir with
    | error e =>
      have hdir : s.dirAt dir.location = false := (list_eq_error_iff.1 hlist).1
      rcases within_iff_eq_or_below.1 hl.within with rfl | hb
      · rw [hstart] at hdir
        contradiction
      · rw [dirAt, hs.find?_eq_none hdir (ne_nil_of_within hw hne) hb] at hstart
        contradiction
    | ok items =>
      have hitem := fun item (hi : item ∈ items) => within_item_root hw hlist hi
      have hvisit : ∀ item ∈ items, ∀ s events t,
          removeTree n (dir / item.name) s = some (events, t) → Trace root s events t :=
        fun item hi s events t hv => trace_removeTree (hitem item hi) hv
      rw [removeTree, hlist] at h
      simp only at h
      split at h
      · simp at h
      · rename_i first v hv
        obtain ⟨rfl, rfl⟩ : first ++ [(tryRemove dir v).1] = events ∧ (tryRemove dir v).2 = t :=
          Prod.ext_iff.1 (Option.some.inj h)
        have hfirst := trace_overDirs hvisit hv
        have hlast := (trace_tryRemove v hw).logged (hfirst.isTree hs)
        by_cases heq : l = dir.location
        · subst heq
          exact (refused_of_tryRemove hleft).mono (List.subset_append_right ..)
        · -- the visit to the listed directory that `l` is in was refused it, by induction
          obtain ⟨item, hi, hk, hread⟩ := exists_dir_of_legible hs hlist (contains_of_dirAt hstart)
            hl heq fun _ => hstart
          obtain ⟨before, during, after, x, y, rfl, hbefore, hmid, hafter⟩ :=
            exists_visit_of_overDirs hvisit hv hi hk
          have hx := hbefore.isTree hs
          have hy := (hvisit item hi _ _ _ hmid).isTree hx
          have hly : y.dirAt l := (hafter.logged hy).dirAt (hlast.dirAt hleft)
          have hrefused := ih hx (hitem item hi) hmid hread hly
          exact hrefused.mono fun event hevent => by simp [hevent]

/-- A directory that is left was refused by the second walk, where it could read the way. -/
theorem refused_of_removeTopology {root : Path} (hs : s.IsTree) (hne : root.location ≠ [])
    (h : removeTopology root s = some (events, t)) (hl : Legible root.location l)
    (hleft : t.dirAt l) : Refused events l := by
  rw [removeTopology] at h
  split at h
  · simp at h
  · rename_i first v hv
    obtain ⟨⟨rest, w⟩, hrest, hw⟩ := Option.map_eq_some_iff.1 h
    obtain ⟨rfl, rfl⟩ := Prod.mk.inj hw
    have hfirst := trace_clearLinks (within_refl _) hv
    have hrefused := refused_of_removeTree (hfirst.isTree hs) hne (within_refl _) hrest hl hleft
    exact hrefused.mono (List.subset_append_right ..)

/-! ## What events say about directories -/

/-- Every event of a trace tells of a call on a surface on the way. -/
theorem Trace.exists_tells (h : Trace root s events t) (hevent : event ∈ events) :
    ∃ front back u v, Trace root s front u ∧ Tells u event v ∧ Trace root v back t := by
  obtain ⟨front, back, rfl⟩ := List.append_of_mem hevent
  obtain ⟨u, hfront, hback⟩ := trace_append_iff.1 h
  cases hback with
  | cons _ htells hrest => exact ⟨front, back, u, _, hfront, htells, hrest⟩

/-- A directory is not permitted to go exactly if it is a default group. -/
theorem Trace.refused_iff {p : Path} {e : Errno} {owner : Owner} (hs : s.IsTree)
    (h : Trace root s events t) (hevent : .refused p e ∈ events)
    (hleft : t.entries.find? p.location = some (.dir owner)) : e = .eperm ↔ owner = .kernel := by
  obtain ⟨front, back, u, v, hfront, htells, hback⟩ := h.exists_tells hevent
  cases htells with
  | refused hr =>
    have hu : u.entry? p = some (.dir owner) :=
      (hback.logged (hfront.isTree hs)).find?_of_eq_some hleft
    have hperm := removeDir_eq_eperm_iff (s := u) (p := p)
    rw [hr, hu] at hperm
    simpa using hperm

theorem Trace.find?_of_eperm {p : Path} (hs : s.IsTree) (h : Trace root s events t)
    (hevent : .refused p .eperm ∈ events) :
    s.entries.find? p.location = some (.dir .kernel) := by
  obtain ⟨front, back, u, v, hfront, htells, -⟩ := h.exists_tells hevent
  cases htells with
  | refused hr => exact (hfront.logged hs).find?_of_eq_some (removeDir_eq_eperm_iff.1 hr)

/-- When a directory goes, the directories of users below it have gone. -/
theorem Trace.removed_after {front back : List Path} {p : Path} (hs : s.IsTree)
    (h : Trace root s events t) (hsplit : events.filterMap Event.removed? = front ++ p :: back)
    (hb : l.below p.location) (hl : s.entries.find? l = some (.dir .user)) :
    l ∈ front.map Path.location := by
  obtain ⟨before, rest, rfl, rfl, hrest⟩ := List.filterMap_eq_append_iff.1 hsplit
  obtain ⟨skip, event, after, rfl, hskip, hevent, -⟩ := List.filterMap_eq_cons_iff.1 hrest
  obtain rfl := Event.removed?_eq_some_iff.1 hevent
  rw [← List.append_assoc] at h
  obtain ⟨u, hbefore, hback⟩ := trace_append_iff.1 h
  have hgone : u.entries.find? l = none := by
    cases hback with
    | cons _ htells _ =>
      cases htells with
      | removed hr =>
        obtain ⟨huser, hfault, -⟩ := removeDir_eq_ok_iff.1 hr
        have hbelow := ((removalFault?_eq_none_iff (hbefore.isTree hs) (dirAt_of_find? huser)).1
          hfault).2
        rcases (hbefore.logged hs).find? l with heq | hn
        · exact absurd (heq.trans hl) (hbelow l hb)
        · exact hn
  have hlisted := ((hbefore.lists (fun _ _ _ => Tells.lists_removed) hs).mem_iff l).2
    ⟨⟨_, hl, rfl⟩, hgone⟩
  rwa [List.filterMap_append, List.filterMap_eq_nil_iff.2 hskip, List.append_nil] at hlisted

/-! ## Accounts -/

/-- A report accounts for what became of the topology at `root` between two surfaces. -/
structure Accounted (s : Surface) (root : Path) (report : Report) (t : Surface) : Prop where
  unlinked_nodup : (report.unlinked.map Path.location).Nodup
  /-- The links that are listed are those below the root that went, the switch aside. -/
  unlinked : ∀ l, l ∈ report.unlinked.map Path.location ↔
    l.below root.location ∧ l ≠ (Graph.enabledPath root).location ∧
      (∃ target, s.entries.find? l = some (.link target)) ∧ t.entries.contains l = false
  removed_nodup : (report.removed.map Path.location).Nodup
  /-- The directories that are listed as removed are those of users that went. -/
  removed : ∀ l, l ∈ report.removed.map Path.location ↔
    l.within root.location ∧ s.entries.find? l = some (.dir .user) ∧ t.entries.contains l = false
  /-- A directory is listed after the directories of users below it. -/
  removed_after : ∀ front p back, report.removed = front ++ p :: back →
    ∀ l, l.below p.location → s.entries.find? l = some (.dir .user) → l ∈ front.map Path.location
  /-- Only default groups are listed as such. -/
  kernelOwned : ∀ p ∈ report.kernelOwned, s.entries.find? p.location = some (.dir .kernel)
  /-- A default group that is left is listed, if the names on the way to it are text. -/
  left_kernel : ∀ l, Legible root.location l → t.entries.find? l = some (.dir .kernel) →
    l ∈ report.kernelOwned.map Path.location
  /-- A directory of a user that is left is listed, if the names on the way to it are text. -/
  left_user : ∀ l, Legible root.location l → t.entries.find? l = some (.dir .user) →
    l ∈ report.skipped.map Path.location

/-- The switch of a topology is not routed: it lies in the root itself. -/
theorem Routed.ne_enabledPath {root : Path} (h : Routed root.location l) :
    l ≠ (Graph.enabledPath root).location := by
  rintro rfl
  obtain ⟨-, dir, hp, hb, -⟩ := h
  rw [Graph.parent?_enabledPath] at hp
  exact ne_of_below hb (Option.some.inj hp).symm

/-- **Both walks account for what they do.** -/
theorem removeTopology_accounted {root : Path} (hs : s.IsTree) (hp : s.PlainBelow root.location)
    (hne : root.location ≠ []) :
    ∃ events t, removeTopology root s = some (events, t) ∧
      Accounted s root (.ofEvents events) t := by
  obtain ⟨events, t, ht, -, hlost⟩ := removeTopology_spec hs hp hne
  have htrace := trace_removeTopology ht
  have hlinks := htrace.lists (fun _ _ _ => Tells.lists_unlinked) hs
  have hdirs := htrace.lists (fun _ _ _ => Tells.lists_removed) hs
  have lost {l : Location} {e : Entry} (he : s.entries.find? l = some e)
      (hn : t.entries.find? l = none) : Lost s root.location l := by
    refine Classical.byContradiction fun hnot => ?_
    rw [PathMap.find?_congr ((hlost l).2 hnot), he] at hn
    simp at hn
  have refused {l : Location} {owner : Owner} (hl : Legible root.location l)
      (ho : t.entries.find? l = some (.dir owner)) :
      ∃ p e, .refused p e ∈ events ∧ p.location = l ∧ (e = .eperm ↔ owner = .kernel) := by
    obtain ⟨p, e, hevent, rfl⟩ := refused_of_removeTopology hs hne ht hl (dirAt_of_find? ho)
    exact ⟨p, e, hevent, rfl, htrace.refused_iff hs hevent ho⟩
  refine ⟨events, t, ht, hlinks.nodup, fun l => ?_, hdirs.nodup, fun l => ?_,
    fun front p back hsplit l hb hl => htrace.removed_after hs hsplit hb hl, fun p hmem => ?_,
    fun l hl ho => ?_, fun l hl ho => ?_⟩
  · rw [Report.ofEvents, hlinks.mem_iff, contains_eq_false_iff]
    constructor
    · rintro ⟨⟨_, he, target, rfl⟩, hn⟩
      have hr := (lost_link_iff he).1 (lost he hn)
      exact ⟨hr.below, hr.ne_enabledPath, ⟨target, he⟩, hn⟩
    · rintro ⟨-, -, ⟨target, he⟩, hn⟩
      exact ⟨⟨_, he, target, rfl⟩, hn⟩
  · rw [Report.ofEvents, hdirs.mem_iff, contains_eq_false_iff]
    constructor
    · rintro ⟨⟨_, he, rfl⟩, hn⟩
      exact ⟨(lost he hn).within, he, hn⟩
    · rintro ⟨-, he, hn⟩
      exact ⟨⟨_, he, rfl⟩, hn⟩
  · obtain ⟨event, hevent, he⟩ := List.mem_filterMap.1 hmem
    obtain rfl := Event.kernelOwned?_eq_some_iff.1 he
    exact htrace.find?_of_eperm hs hevent
  · obtain ⟨p, e, hevent, rfl, he⟩ := refused hl ho
    obtain rfl := he.2 rfl
    exact List.mem_map_of_mem (List.mem_filterMap.2 ⟨_, hevent, rfl⟩)
  · obtain ⟨p, e, hevent, rfl, he⟩ := refused hl ho
    have hperm : e ≠ .eperm := fun h => by simpa using he.1 h
    exact List.mem_map_of_mem (List.mem_filterMap.2 ⟨_, hevent, Event.skipped?_refused hperm⟩)

/-- Switching off turns no directory into anything else and nothing into a directory. -/
theorem SwitchedOff.find?_eq_dir_iff {root : Path} {owner : Owner} (h : SwitchedOff s root off) :
    off.entries.find? l = some (.dir owner) ↔ s.entries.find? l = some (.dir owner) := by
  by_cases hl : l = (Graph.enabledPath root).location
  · rw [hl, h.switch]
    split
    · rename_i hsw
      refine ⟨fun he => by simp at he, fun he => ?_⟩
      rw [dirAt_of_find? he] at hsw
      simp at hsw
    · rfl
  · rw [PathMap.find?_congr (h.slot l hl)]

/-- What accounts for a teardown of a topology that was switched off first accounts for both. -/
theorem SwitchedOff.accounted {root : Path} (h : SwitchedOff s root off)
    (ha : Accounted off root report t) : Accounted s root report t := by
  refine ⟨ha.unlinked_nodup, fun l => ?_, ha.removed_nodup, fun l => ?_, ?_, ?_, ha.left_kernel,
    ha.left_user⟩
  · rw [ha.unlinked]
    refine and_congr_right fun _ => and_congr_right fun hl => ?_
    rw [PathMap.find?_congr (h.slot l hl)]
  · rw [ha.removed, h.find?_eq_dir_iff]
  · exact fun front p back hsplit l hb hl =>
      ha.removed_after front p back hsplit l hb (h.find?_eq_dir_iff.2 hl)
  · exact fun p hp => h.find?_eq_dir_iff.1 (ha.kernelOwned p hp)

/-- **The report of a teardown accounts for what became of a topology**, on a tree whose entries
below a root that is a directory end in plain names. -/
theorem teardown_accounted (settings : Settings) (d : Device) (hne : settings.root.text ≠ "")
    (hs : d.surface.IsTree) (hp : d.surface.PlainBelow settings.root.location)
    (hdir : d.surface.isDir settings.root) :
    ∃ report after, d.teardown settings = some (report, after) ∧
      Accounted d.surface settings.root report after.surface := by
  have hoff := switchedOff_setEnabled hdir
  obtain ⟨events, t, ht, hacc⟩ := removeTopology_accounted (isTree_setEnabled hs)
    (hoff.plainBelow hp) (Path.location_ne_nil hne)
  rw [teardown_eq_map, ht]
  exact ⟨_, _, rfl, hoff.accounted hacc⟩

theorem teardown_accounted_heldSurface :
    (Path.ofText "/c/v").text ≠ "" ∧ heldSurface.IsTree ∧
      heldSurface.PlainBelow (Path.ofText "/c/v").location ∧
      heldSurface.isDir (Path.ofText "/c/v") ∧
      ∃ report after,
        Device.teardown ⟨heldSurface, .empty⟩ { Settings.standard with root := .ofText "/c/v" } =
          some (report, after) ∧
        Accounted heldSurface (.ofText "/c/v") report after.surface := by
  have hne : (Path.ofText "/c/v").text ≠ "" := by decide
  have hs : heldSurface.IsTree := by decide +kernel
  have hp : heldSurface.PlainBelow (Path.ofText "/c/v").location := by decide +kernel
  have hdir : heldSurface.isDir (Path.ofText "/c/v") := by decide +kernel
  exact ⟨hne, hs, hp, hdir, teardown_accounted
    { Settings.standard with root := .ofText "/c/v" } ⟨heldSurface, .empty⟩ hne hs hp hdir⟩

/-- A directory whose name is no text is left, and no list of the report has it. -/
theorem teardown_accounted_illegible :
    (Path.ofText "/r").text ≠ "" ∧ illegibleSurface.IsTree ∧
      illegibleSurface.PlainBelow (Path.ofText "/r").location ∧
      illegibleSurface.isDir (.ofText "/r") ∧
      ∃ report after,
        Device.teardown ⟨illegibleSurface, .empty⟩ { Settings.standard with root := .ofText "/r" } =
          some (report, after) ∧
        report = ⟨[], [.ofText "/r/😀"], [], [.ofText "/r"]⟩ ∧
        after.surface.entry? illegiblePath = some (.dir .user) := by
  have hrun : (Device.teardown ⟨illegibleSurface, .empty⟩
      { Settings.standard with root := .ofText "/r" }).map (fun (report, after) =>
        (report, after.surface.entry? illegiblePath)) =
      some (⟨[], [.ofText "/r/😀"], [], [.ofText "/r"]⟩, some (.dir .user)) := by decide +kernel
  obtain ⟨⟨report, after⟩, hteardown, hleft⟩ := Option.map_eq_some_iff.1 hrun
  obtain ⟨hreport, hchild⟩ := Prod.mk.inj hleft
  exact ⟨by decide, by decide +kernel, by decide +kernel, by decide +kernel, report, after,
    hteardown, hreport, hchild⟩

end Teardown

end DisplayTopology
