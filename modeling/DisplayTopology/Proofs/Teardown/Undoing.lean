import DisplayTopology.Proofs.Teardown.Survival
import DisplayTopology.Proofs.Topology.Raised

/-!
# Teardown undoes building

On a raised surface nothing holds the root: nothing there is pinned, links below it are routed, and
links outside lead elsewhere. So the root is lost with everything below it, and a teardown gives
back the entries of the surface that the topology was built over (`Raised.teardown`).
-/

namespace DisplayTopology

open Location Surface Teardown

variable {base s t : Surface} {settings : Settings} {d : Device} {events : List Event}

/-- A report tells that the root was removed exactly when an event does. -/
theorem Report.removedRoot_ofEvents_iff {root : Path} :
    (Report.ofEvents events).removedRoot root ↔
      ∃ p, .removed p ∈ events ∧ p.location = root.location := by
  rw [Report.removedRoot, Report.ofEvents, List.any_eq_true]
  constructor
  · rintro ⟨p, hp, hl⟩
    obtain ⟨event, hevent, he⟩ := List.mem_filterMap.1 hp
    cases event with
    | removed q =>
      obtain rfl : q = p := by simpa [Event.removed?] using he
      exact ⟨q, hevent, by simpa using hl⟩
    | unlinked | kept | refused | absent | unlisted => simp [Event.removed?] at he
  · rintro ⟨p, hp, hl⟩
    exact ⟨p, List.mem_filterMap.2 ⟨_, hp, rfl⟩, by simpa using hl⟩

namespace Raised

variable {root : Location}

/-- Nothing that lasts holds the root of a raised surface. -/
theorem loose (h : Raised base root s) (hb : base.Vacant root) : Loose s root root := by
  refine ⟨within_refl root, h.root_user, ?_,
    fun l hw hl => h.text.legible (contains_of_find? hl) hw⟩
  rintro (⟨l, hl, -, hw⟩ | ⟨l, target, hl, hlast, hor⟩)
  · have hpin := hb.unpinned l (h.pinned ▸ hl)
    rw [hw] at hpin
    contradiction
  · have hout : l.within root = false :=
      Bool.eq_false_iff.2 fun hw => hlast (h.routed l target hw hl)
    rcases hor with hbelow | ht
    · rw [within_of_below hbelow] at hout
      contradiction
    · have hbase : base.entries.find? l = some (.link target) := by
        rw [← PathMap.find?_congr (h.outside l hout), hl]
      rw [hb.untargeted l target hbase] at ht
      contradiction

/-- Everything at or below the root of a raised surface is lost, and nothing else. -/
theorem lost_iff (h : Raised base root s) (hb : base.Vacant root) {l : Location} :
    Lost s root l ↔ l.within root :=
  ⟨Lost.within, fun hw => .inr ⟨root, h.loose hb, hw⟩⟩

end Raised

/-- **Undoing.** A teardown of a topology that was built over a vacant surface, in part or in whole,
gives back the entries of that surface, and its report says that the root was removed. -/
theorem Raised.teardown (h : Raised base settings.root.location d.surface)
    (hb : base.Vacant settings.root.location) :
    ∃ report after, d.teardown settings = some (report, after) ∧
      after.surface.entries.entries = base.entries.entries ∧ report.removedRoot settings.root := by
  have hoff := h.setEnabled false
  obtain ⟨events, t, ht, hlog, hslot⟩ :=
    removeTopology_spec hoff.tree hoff.text.plain hoff.root_ne_nil
  have hgone (l : Location) (hw : l.within settings.root.location) :
      t.entries.slot? l = none := (hslot l).1 ((hoff.lost_iff hb).2 hw)
  rw [teardown_eq_map, ht]
  refine ⟨_, _, rfl, PathMap.entries_eq_iff.2 fun l => ?_, ?_⟩
  · cases hw : l.within settings.root.location with
    | true =>
      have hfree := hb.find?_eq_none h.root_ne_nil hw
      exact (hgone l hw).trans (PathMap.slot?_eq_none_iff.2 hfree).symm
    | false =>
      refine ((hslot l).2 fun hlost => ?_).trans (hoff.outside l hw)
      rw [hlost.within] at hw
      contradiction
  · refine Report.removedRoot_ofEvents_iff.2 ((hlog.removed _).2 ⟨hoff.root_user, ?_⟩)
    exact PathMap.slot?_eq_none_iff.1 (hgone _ (within_refl _))

/-- A teardown of a topology without a root leaves the surface alone. -/
theorem teardown_of_not_isDir (h : d.surface.isDir settings.root = false) :
    ∃ report after, d.teardown settings = some (report, after) ∧ after.surface = d.surface ∧
      report.removedRoot settings.root = false := by
  obtain ⟨event, ht, he⟩ := removeTopology_of_not_isDir h
  rw [teardown_eq_map, setEnabled_of_not_isDir h, ht]
  refine ⟨_, _, rfl, rfl, Bool.eq_false_iff.2 fun hr => ?_⟩
  obtain ⟨p, hp, -⟩ := Report.removedRoot_ofEvents_iff.1 hr
  rw [← List.mem_singleton.1 hp] at he
  simp [Event.removed?] at he

end DisplayTopology
