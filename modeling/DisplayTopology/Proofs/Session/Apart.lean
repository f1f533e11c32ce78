import DisplayTopology.Proofs.Session.Changes
import DisplayTopology.Proofs.Surface.Locality

/-!
# Topologies that keep apart

What is done for a topology stays at or below its root: everything outside is as it was, and so are
the marks of the surface (`Change.slot?`, `Change.marks`). So two roots that are separate can be
worked on side by side. A surface is in order for one of them when it is a tree, default groups have
plain names, entries below the root end in plain names, and no link at or below the other root leads
to it (`Apart`); whatever is done for either of the two keeps it so (`Apart.change_own`,
`Apart.change_other`).
-/

namespace DisplayTopology

open Location Surface

variable {s t : Surface} {root own other l : Location} {p target : Path}

/-! ## What a call for a topology leaves alone -/

/-- A call for a topology changes nothing outside its root. -/
theorem Change.slot? (hg : s.PlainGroups) (h : Change root s t) (hl : l.within root = false) :
    t.entries.slot? l = s.entries.slot? l := by
  have outside {p : Path} (hp : p.location.within root) : l.within p.location = false :=
    Bool.eq_false_iff.2 fun hw => absurd (within_trans hw hp) (Bool.eq_false_iff.1 hl)
  have ne {p : Path} (hp : p.location.within root) : l ≠ p.location := by
    rintro rfl
    exact absurd hp (Bool.eq_false_iff.1 hl)
  cases h with
  | createDir names hp h => exact slot?_createDir hg h (outside (hp ▸ within_append ..))
  | write names hp h => exact slot?_write h (ne (hp ▸ within_append ..))
  | createLink names hp _ _ h => exact slot?_createLink h (ne (hp ▸ within_append ..))
  | removeLink hw h => rw [slot?_removeLink h, if_neg (ne hw)]
  | removeDir hw h => rw [slot?_removeDir h, outside hw, if_neg Bool.false_ne_true]

/-- A call for a topology leaves the marks of the surface alone. -/
theorem Change.marks (h : Change root s t) :
    t.groups = s.groups ∧ t.pinned = s.pinned ∧ t.failures = s.failures := by
  cases h with
  | createDir _ _ h => rw [(createDir_eq_ok_iff.1 h).2]; exact ⟨rfl, rfl, rfl⟩
  | write _ _ h => rw [(write_eq_ok_iff.1 h).2]; exact ⟨rfl, rfl, rfl⟩
  | createLink _ _ _ _ h => rw [(createLink_eq_ok_iff.1 h).2]; exact ⟨rfl, rfl, rfl⟩
  | removeLink _ h => rw [(removeLink_eq_ok_iff.1 h).2]; exact ⟨rfl, rfl, rfl⟩
  | removeDir _ h => rw [(removeDir_eq_ok_iff.1 h).2.2]; exact ⟨rfl, rfl, rfl⟩

theorem Changes.marks (h : Changes root s t) :
    t.groups = s.groups ∧ t.pinned = s.pinned ∧ t.failures = s.failures := by
  refine h.inv (P := fun t => t.groups = s.groups ∧ t.pinned = s.pinned ∧ t.failures = s.failures)
    (fun t u ht h => ?_) ⟨rfl, rfl, rfl⟩
  obtain ⟨hgroups, hpinned, hfailures⟩ := h.marks
  exact ⟨hgroups.trans ht.1, hpinned.trans ht.2.1, hfailures.trans ht.2.2⟩

theorem Change.isTree (hs : s.IsTree) (hg : s.PlainGroups) (h : Change root s t) : t.IsTree := by
  cases h with
  | createDir _ _ h => exact hs.createDir hg h
  | write _ _ h => exact hs.write h
  | createLink _ _ _ _ h => exact hs.createLink h
  | removeLink _ h => exact hs.removeLink h
  | removeDir _ h => exact hs.removeDir h

/-- Nothing turns up where entries are taken. -/
theorem contains_of_slot? (ht : t.entries.slot? l = s.entries.slot? l ∨ t.entries.slot? l = none)
    (hl : t.entries.contains l) : s.entries.contains l := by
  rcases ht with he | hn
  · rwa [PathMap.contains, ← PathMap.find?_congr he]
  · rw [contains_eq_false_iff.2 (PathMap.slot?_eq_none_iff.1 hn)] at hl
    contradiction

theorem Change.plainBelow (hp : s.PlainBelow root) (hg : s.PlainGroups) (h : Change root s t) :
    t.PlainBelow root := by
  intro l hl hb
  have hgrown : Legible root l ∨ s.entries.contains l := by
    cases h with
    | createDir _ hloc h => exact legible_or_contains_of_createDir hg hloc h hl
    | write _ hloc h => exact legible_or_contains_of_insert hloc (fun _ => slot?_write h) hl
    | createLink _ hloc _ _ h =>
      exact legible_or_contains_of_insert hloc (fun _ => slot?_createLink h) hl
    | removeLink _ h =>
      refine .inr (contains_of_slot? ?_ hl)
      rw [slot?_removeLink h]
      split
      · exact .inr rfl
      · exact .inl rfl
    | removeDir _ h =>
      refine .inr (contains_of_slot? ?_ hl)
      rw [slot?_removeDir h]
      split
      · exact .inr rfl
      · exact .inl rfl
  exact hgrown.elim (fun hread => hread.exists_name? hb) fun hs => hp l hs hb

/-- A link that turns up leads to the topology itself. -/
theorem Change.link (h : Change root s t) (hl : t.entries.find? l = some (.link target)) :
    s.entries.find? l = some (.link target) ∨ target.location.within root := by
  cases h with
  | createDir _ _ h =>
    rw [find?_of_createDir h] at hl
    split at hl
    · simp at hl
    · split at hl
      · simp at hl
      · exact .inl hl
  | write _ _ h =>
    rw [find?_of_write h] at hl
    split at hl
    · simp at hl
    · exact .inl hl
  | createLink _ _ htarget _ h =>
    rw [find?_of_createLink h] at hl
    split at hl
    · obtain rfl := Entry.link.inj (Option.some.inj hl)
      exact .inr htarget
    · exact .inl hl
  | removeLink _ h =>
    rw [find?_of_removeLink h] at hl
    split at hl
    · simp at hl
    · exact .inl hl
  | removeDir _ h =>
    rw [find?_of_removeDir h] at hl
    split at hl
    · simp at hl
    · exact .inl hl

/-! ## Surfaces in order for a root -/

/-- A surface that is in order for work at the root `own` beside a topology at `other`. -/
structure Apart (own other : Location) (s : Surface) : Prop where
  tree : s.IsTree
  groups : s.PlainGroups
  plain : s.PlainBelow own
  untargeted : Untargeted s other own

namespace Apart

/-- What is done for the topology itself keeps its surface in order. -/
theorem change_own (hsep : Separate own other) (hs : Apart own other s) (h : Change own s t) :
    Apart own other t := by
  refine ⟨h.isTree hs.tree hs.groups, hs.groups.congr h.marks.1, h.plainBelow hs.plain hs.groups,
    fun l target hl he => hs.untargeted l target hl ?_⟩
  rw [← PathMap.find?_congr (h.slot? hs.groups (hsep.symm.outside hl)), he]

/-- What is done for the other topology keeps the surface in order. -/
theorem change_other (hsep : Separate own other) (hs : Apart own other s) (h : Change other s t) :
    Apart own other t := by
  refine ⟨h.isTree hs.tree hs.groups, hs.groups.congr h.marks.1, fun l hl hb => ?_,
    fun l target hl he => ?_⟩
  · have hslot := h.slot? hs.groups (hsep.outside (within_of_below hb))
    exact hs.plain l (contains_of_slot? (.inl hslot) hl) hb
  · rcases h.link he with he | htarget
    · exact hs.untargeted l target hl he
    · exact hsep.symm.outside htarget

theorem changes_own (hsep : Separate own other) (hs : Apart own other s) (h : Changes own s t) :
    Apart own other t :=
  h.inv (fun _ _ hs h => hs.change_own hsep h) hs

theorem changes_other (hsep : Separate own other) (hs : Apart own other s)
    (h : Changes other s t) : Apart own other t :=
  h.inv (fun _ _ hs h => hs.change_other hsep h) hs

end Apart

/-- **Frame.** Whatever is done for a topology leaves all that lies outside its root as it was. -/
theorem Changes.alikeOff (hg : s.PlainGroups) (h : Changes root s t) : AlikeOff root t s := by
  refine (h.inv (P := fun t => t.PlainGroups ∧ AlikeOff root t s) (fun t u ht h => ?_)
    ⟨hg, .refl s⟩).2
  obtain ⟨hgroups, hpinned, hfailures⟩ := h.marks
  have hstep : AlikeOff root u t := ⟨fun l hl => h.slot? ht.1 hl, hgroups, hpinned, hfailures⟩
  exact ⟨ht.1.congr hgroups, hstep.trans ht.2⟩

end DisplayTopology
