import DisplayTopology.Proofs.Session.Apart
import DisplayTopology.Proofs.Teardown.Account

/-!
# Tearing down twice

A teardown leaves nothing for a second one (`teardown_idempotent`). What was held at first is held
by something that lasts, and that is still there; so nothing that is left is lost on the surface
that it is left on (`Remnant.not_lost`). The switch of a topology that is left was written once and
is written again with the same contents (`SwitchedOff.setEnabled_again`).
-/

namespace DisplayTopology.Teardown

open Location Surface

variable {s t off : Surface} {l : Location} {root again : Path}

/-! ## What is left is lost no more -/

/-- Where all that is lost has gone, nothing is lost any more. -/
theorem Remnant.not_lost {root : Location} (h : Remnant s root t)
    (hdone : ∀ l, Lost s root l → t.entries.slot? l = none) (l : Location) : ¬Lost t root l := by
  have left {l : Location} {e : Entry} (he : t.entries.find? l = some e) : ¬Lost s root l := by
    intro hlost
    rw [PathMap.slot?_eq_none_iff.1 (hdone l hlost)] at he
    simp at he
  have hun : Unrouted t root := by
    rintro l ⟨⟨target, he⟩, hr⟩
    exact left he ((lost_link_iff (h.find?_of_eq_some he)).2 hr)
  rintro (⟨hlink, hr⟩ | ⟨d, hd, -⟩)
  · exact hun l ⟨hlink, hr⟩
  · -- `d` is left, so it was held, and what held it is there to hold it still
    have hbefore := h.find?_of_eq_some hd.user
    have hread : ∀ m, m.within d → s.entries.find? m = some (.dir .user) → Legible root m := by
      intro m hm hmu
      by_cases hstill : t.entries.find? m = some (.dir .user)
      · exact hd.legible m hm hstill
      · exact h.legible_of_find?_ne hmu hstill
    have hheld : s.Held (fun l => ¬Routed root l) d := by
      refine Classical.byContradiction fun hfree => left hd.user ?_
      exact (lost_user_iff hbefore).2 ⟨hd.within, hbefore, hfree, hread⟩
    refine hd.free ?_
    rcases h.held hheld with hpin | ⟨m, target, hm, -, hor⟩
    · exact .inl hpin
    · exact .inr ⟨m, target, hm, fun hr => hun m ⟨⟨target, hm⟩, hr⟩, hor⟩

/-- The walks leave a remnant from which all that is lost has gone. -/
theorem remnant_of_removeTopology (hs : s.IsTree) (hp : s.PlainBelow root.location)
    (hne : root.location ≠ []) :
    ∃ events t, removeTopology root s = some (events, t) ∧ Trace root.location s events t ∧
      Remnant s root.location t ∧ ∀ l, Lost s root.location l → t.entries.slot? l = none := by
  obtain ⟨events, t, ht, -, hlost⟩ := removeTopology_spec hs hp hne
  have htrace := trace_removeTopology ht
  refine ⟨events, t, ht, htrace, ⟨htrace.isTree hs, (Changes.marks htrace.changes).2.1, ?_⟩,
    fun l => (hlost l).1⟩
  intro l
  by_cases hl : Lost s root.location l
  · exact .inr ⟨(hlost l).1 hl, hl⟩
  · exact .inl ((hlost l).2 hl)

/-- Where nothing is lost, the walks change nothing and list nothing as gone. -/
theorem removeTopology_of_not_lost (hs : s.IsTree) (hp : s.PlainBelow root.location)
    (hne : root.location ≠ []) (h : ∀ l, ¬Lost s root.location l) :
    ∃ events t, removeTopology root s = some (events, t) ∧
      (∀ l, t.entries.slot? l = s.entries.slot? l) ∧
      (Report.ofEvents events).unlinked = [] ∧ (Report.ofEvents events).removed = [] := by
  obtain ⟨events, t, ht, hacc⟩ := removeTopology_accounted hs hp hne
  obtain ⟨_, _, ht', -, hlost⟩ := removeTopology_spec hs hp hne
  obtain ⟨rfl, rfl⟩ := Prod.mk.inj (Option.some.inj (ht.symm.trans ht'))
  have hslot (l : Location) : t.entries.slot? l = s.entries.slot? l := (hlost l).2 (h l)
  have stays {l : Location} {e : Entry} (he : s.entries.find? l = some e)
      (hgone : t.entries.contains l = false) : False := by
    rw [contains_eq_false_iff, PathMap.find?_congr (hslot l), he] at hgone
    simp at hgone
  refine ⟨events, t, ht, hslot, ?_, ?_⟩
  · refine List.eq_nil_iff_forall_not_mem.2 fun p hp => ?_
    obtain ⟨-, -, ⟨target, he⟩, hgone⟩ := (hacc.unlinked p.location).1 (List.mem_map_of_mem hp)
    exact stays he hgone
  · refine List.eq_nil_iff_forall_not_mem.2 fun p hp => ?_
    obtain ⟨-, he, hgone⟩ := (hacc.removed p.location).1 (List.mem_map_of_mem hp)
    exact stays he hgone

/-! ## The switch -/

/-- A topology that is switched off, and has its switch still, is not changed by switching it off
again. -/
theorem SwitchedOff.setEnabled_again (h : SwitchedOff s root off)
    (hfree : s.isDir (Graph.enabledPath root) = false) (hroot : again.location = root.location)
    (hmarks : t.failures = s.failures)
    (hkept : t.entries.slot? (Graph.enabledPath root).location =
      off.entries.slot? (Graph.enabledPath root).location) (l : Location) :
    (Graph.setEnabled again false t).2.entries.slot? l = t.entries.slot? l := by
  have hloc : (Graph.enabledPath again).location = (Graph.enabledPath root).location := by
    rw [Graph.location_enabledPath, Graph.location_enabledPath, hroot]
  have hset : (Graph.setEnabled again false t).2 =
      (Graph.perform .write (Graph.enabledPath again) t
        (t.write (Graph.enabledPath again) (Bytes.encode "0"))).2 := rfl
  rw [hset]
  cases hw : t.write (Graph.enabledPath again) (Bytes.encode "0") with
  | error e => rfl
  | ok u =>
    obtain ⟨hfault, rfl⟩ := write_eq_ok_iff.1 hw
    obtain ⟨hmark, -, -⟩ := writeFault?_eq_none_iff.1 hfault
    rw [hloc, hmarks] at hmark
    by_cases hl : l = (Graph.enabledPath again).location
    · -- the switch was written before, so it has the contents that it is given
      have hswitch := h.switch
      rw [if_pos ⟨hmark, hfree⟩, PathMap.find?, ← hkept, ← hloc, ← hl] at hswitch
      obtain ⟨⟨p, e⟩, he, rfl⟩ := Option.map_eq_some_iff.1 hswitch
      show (t.entries.insert _ _).slot? l = _
      rw [PathMap.slot?_insert, if_pos hl, ← hl, he]
      rfl
    · exact slot?_write hw hl

/-- The switch of a topology whose root is left is left. -/
theorem SwitchedOff.not_lost_enabledPath (h : SwitchedOff s root off)
    (hfree : s.isDir (Graph.enabledPath root) = false)
    (hroot : ¬Lost off root.location root.location) :
    ¬Lost off root.location (Graph.enabledPath root).location := by
  rintro (⟨-, hr⟩ | ⟨d, hd, hw⟩)
  · exact hr.ne_enabledPath rfl
  · refine hroot (.inr ⟨d, hd, ?_⟩)
    rcases within_iff_eq_or_below.1 hw with rfl | hb
    · have hdir := dirAt_of_find? (h.find?_eq_dir_iff.1 hd.user)
      rw [Surface.isDir] at hfree
      rw [hdir] at hfree
      contradiction
    · exact within_of_below_of_parent? hb (Graph.parent?_enabledPath root)

/-- On what the walks leave of a surface that was switched off, switching off again changes
nothing. -/
theorem slot?_setEnabled_of_remnant (hroot : again.location = root.location)
    (hfree : s.isDir (Graph.enabledPath root) = false)
    (ht : Remnant (Graph.setEnabled root false s).2 root.location t)
    (hdone : ∀ l, Lost (Graph.setEnabled root false s).2 root.location l →
      t.entries.slot? l = none)
    (hmarks : t.failures = s.failures) (l : Location) :
    (Graph.setEnabled again false t).2.entries.slot? l = t.entries.slot? l := by
  cases hdir : t.isDir again with
  | false => rw [setEnabled_of_not_isDir hdir]
  | true =>
    obtain ⟨owner, ho⟩ := dirAt_iff.1 hdir
    rw [hroot] at ho
    have hbefore : s.isDir root := by
      refine Classical.byContradiction fun hnot => ?_
      rw [setEnabled_of_not_isDir (Bool.eq_false_iff.2 hnot)] at ht
      exact hnot (dirAt_of_find? (ht.find?_of_eq_some ho))
    have hoff := switchedOff_setEnabled hbefore
    have hleft : ¬Lost (Graph.setEnabled root false s).2 root.location root.location := by
      intro hlost
      rw [PathMap.slot?_eq_none_iff.1 (hdone _ hlost)] at ho
      simp at ho
    refine hoff.setEnabled_again hfree hroot hmarks ?_ l
    rcases ht.slot (Graph.enabledPath root).location with hkept | ⟨-, hlost⟩
    · exact hkept
    · exact absurd hlost (hoff.not_lost_enabledPath hfree hleft)

/-! ## Twice -/

/-- **A second teardown finds nothing to do.** On a tree whose entries below a root that is not
empty end in plain names, and whose switch is no directory, whatever is pinned, marked to fail or
linked there: tearing down again at the same root leaves the entries as the first teardown left
them, and reports nothing as unlinked or removed. -/
theorem teardown_idempotent (settings again : Settings) (d : Device)
    (hne : settings.root.text ≠ "") (hs : d.surface.IsTree)
    (hp : d.surface.PlainBelow settings.root.location)
    (hfree : d.surface.isDir (Graph.enabledPath settings.root) = false)
    (hroot : again.root.location = settings.root.location) :
    ∃ report after report' after', d.teardown settings = some (report, after) ∧
      after.teardown again = some (report', after') ∧
      after'.surface.entries.entries = after.surface.entries.entries ∧
      report'.unlinked = [] ∧ report'.removed = [] := by
  have hnil := Path.location_ne_nil hne
  have hplain : (Graph.setEnabled settings.root false d.surface).2.PlainBelow
      settings.root.location := by
    cases hdir : d.surface.isDir settings.root with
    | true => exact (switchedOff_setEnabled hdir).plainBelow hp
    | false =>
      rw [setEnabled_of_not_isDir hdir]
      exact hp
  obtain ⟨events, t, ht, htrace, hleft, hdone⟩ :=
    remnant_of_removeTopology (isTree_setEnabled hs) hplain hnil
  have hmarks : t.failures = d.surface.failures :=
    (Changes.marks ((Graph.changes_setEnabled _ _ _).trans htrace.changes)).2.2
  have hsame := slot?_setEnabled_of_remnant hroot hfree hleft hdone hmarks
  -- so the second walks start on what the first ones left, where nothing is lost any more
  have hagain : Remnant (Graph.setEnabled settings.root false d.surface).2 settings.root.location
      (Graph.setEnabled again.root false t).2 := by
    refine ⟨isTree_setEnabled hleft.tree, ?_, fun l => by rw [hsame]; exact hleft.slot l⟩
    rw [(Changes.marks (Graph.changes_setEnabled again.root false t)).2.1, hleft.pinned]
  have hnone := hagain.not_lost fun l hl => by rw [hsame, hdone l hl]
  rw [← hroot] at hnone hnil
  obtain ⟨events', t', ht', hslot, hunlinked, hremoved⟩ := removeTopology_of_not_lost hagain.tree
    (hroot ▸ hagain.plainBelow hplain) hnil hnone
  rw [teardown_eq_map, ht]
  refine ⟨_, _, _, _, rfl, by rw [teardown_eq_map, ht']; rfl, ?_, hunlinked, hremoved⟩
  exact PathMap.entries_eq_iff.2 fun l => (hslot l).trans (hsame l)

theorem teardown_idempotent_heldSurface :
    (Path.ofText "/c/v").text ≠ "" ∧ heldSurface.IsTree ∧
      heldSurface.PlainBelow (Path.ofText "/c/v").location ∧
      heldSurface.isDir (Graph.enabledPath (.ofText "/c/v")) = false ∧
      (Path.ofText "/c//v/").location = (Path.ofText "/c/v").location ∧
      ∃ report after report' after',
        Device.teardown ⟨heldSurface, .empty⟩ { Settings.standard with root := .ofText "/c/v" } =
          some (report, after) ∧
        after.teardown { Settings.standard with root := .ofText "/c//v/" } =
          some (report', after') ∧
        after'.surface.entries.entries = after.surface.entries.entries ∧
        report'.unlinked = [] ∧ report'.removed = [] := by
  have hne : (Path.ofText "/c/v").text ≠ "" := by decide
  have hs : heldSurface.IsTree := by decide +kernel
  have hp : heldSurface.PlainBelow (Path.ofText "/c/v").location := by decide +kernel
  have hfree : heldSurface.isDir (Graph.enabledPath (.ofText "/c/v")) = false := by decide +kernel
  have hroot : (Path.ofText "/c//v/").location = (Path.ofText "/c/v").location := by decide
  exact ⟨hne, hs, hp, hfree, hroot, teardown_idempotent
    { Settings.standard with root := .ofText "/c/v" }
    { Settings.standard with root := .ofText "/c//v/" } ⟨heldSurface, .empty⟩ hne hs hp hfree hroot⟩

end DisplayTopology.Teardown
