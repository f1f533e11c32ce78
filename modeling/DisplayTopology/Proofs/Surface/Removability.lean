import DisplayTopology.Proofs.Surface.Removal
import DisplayTopology.Script.Surface

/-!
# Which directories can be removed

A directory goes exactly when it is a user's and nothing holds it: no directory at or below it is
pinned, no link leads there, and below it, however deep, lie only files and default groups
(`Removable`). The call that removes it takes what lies at or below it and nothing else; a call that
is refused takes nothing (`removal_decided`). The call itself looks at the children of the directory
and goes down through default groups only; on a tree this finds whatever lies below.
-/

namespace DisplayTopology.Surface

open Location

variable {s : Surface} {d : Location}

/-- A user made the directory at a location, and nothing holds it. -/
structure Removable (s : Surface) (d : Location) : Prop where
  user : s.entries.find? d = some (.dir .user)
  unpinned : ∀ l ∈ s.pinned, l.within d → s.dirAt l = false
  untargeted : ∀ l target, s.entries.find? l = some (.link target) →
    target.location.within d = false
  no_link : ∀ l target, l.below d → s.entries.find? l ≠ some (.link target)
  no_user : ∀ l, l.below d → s.entries.find? l ≠ some (.dir .user)

/-- What a call that removes the directory at a path answers, and the surface that it leaves. -/
structure RemovalDecided (s : Surface) (p : Path) (outcome : SurfaceAnswer × Surface) : Prop where
  /-- The directory goes exactly when it is removable. -/
  done_iff : outcome.1 = .done ↔ s.Removable p.location
  /-- What lies at or below it goes, everything else stays, and one more change is counted. -/
  removed : outcome.1 = .done →
    outcome.2.entries.entries = s.entries.entries.filter (fun e => !e.1.location.within p.location) ∧
      outcome.2 = { s with entries := outcome.2.entries, mutations := s.mutations + 1 }
  /-- Any other answer refuses the call and leaves the surface as it was. -/
  refused : outcome.1 ≠ .done → (∃ e, outcome.1 = .refused e) ∧ outcome.2 = s

/-- A directory of a user is removable exactly when removing it finds no fault. -/
theorem removable_iff (hs : s.IsTree) (hd : s.entries.find? d = some (.dir .user)) :
    s.Removable d ↔ s.removalFault? d = none := by
  rw [removalFault?_eq_none_iff hs (dirAt_of_find? hd)]
  constructor
  · intro h
    refine ⟨?_, h.no_user⟩
    rintro (⟨l, hl, hdir, hw⟩ | ⟨l, target, hl, -, hb | ht⟩)
    · simp [h.unpinned l hl hw] at hdir
    · exact h.no_link l target hb hl
    · simp [h.untargeted l target hl] at ht
  · rintro ⟨hheld, huser⟩
    refine ⟨hd, fun l hl hw => ?_, fun l target hl => ?_, fun l target hb hl => ?_, huser⟩
    · exact Bool.eq_false_iff.2 fun hdir => hheld (.inl ⟨l, hl, hdir, hw⟩)
    · exact Bool.eq_false_iff.2 fun ht => hheld (.inr ⟨l, target, hl, trivial, .inr ht⟩)
    · exact hheld (.inr ⟨l, target, hl, trivial, .inl hb⟩)

/-- **Removal is decided** by what lies at and below the directory and by what leads there. -/
theorem removal_decided (hs : s.IsTree) (p : Path) :
    RemovalDecided s p ((SurfaceCall.removeDir p).run s) := by
  rw [SurfaceCall.run]
  cases hr : s.removeDir p with
  | ok t =>
    obtain ⟨huser, hfault, rfl⟩ := removeDir_eq_ok_iff.1 hr
    refine ⟨iff_of_true rfl ((removable_iff hs huser).2 hfault), fun _ => ⟨?_, rfl⟩,
      fun h => absurd rfl h⟩
    exact PathMap.entries_prune s.entries p.location
  | error e =>
    refine ⟨iff_of_false (by simp [SurfaceCall.ofChange]) fun h => ?_, fun h => ?_,
      fun _ => ⟨⟨e, rfl⟩, rfl⟩⟩
    · have hok := removeDir_eq_ok_iff.2 ⟨h.user, (removable_iff hs h.user).1 h, rfl⟩
      rw [hr] at hok
      simp at hok
    · simp [SurfaceCall.ofChange] at h

/-- A surface with a plane that has a file and a group for links, and a CRTC to which a link
leads. -/
def routedSurface : Surface :=
  SurfaceCall.runAll (.ofDriver (.ofText "/c/v"))
    [.createDir (.ofText "/c/v"), .createDir (.ofText "/c/v/crtcs/C"),
      .createDir (.ofText "/c/v/encoders/E"),
      .createLink (.ofText "/c/v/crtcs/C") (.ofText "/c/v/encoders/E/possible_crtcs/C"),
      .createDir (.ofText "/c/v/planes/P"), .write (.ofText "/c/v/planes/P/type") [48]]

theorem removal_decided_routedSurface :
    routedSurface.IsTree ∧
      RemovalDecided routedSurface (.ofText "/c/v/planes/P")
        ((SurfaceCall.removeDir (.ofText "/c/v/planes/P")).run routedSurface) ∧
      routedSurface.Removable (Path.ofText "/c/v/planes/P").location ∧
      ¬routedSurface.Removable (Path.ofText "/c/v/crtcs/C").location := by
  have hs : routedSurface.IsTree := by decide +kernel
  have hplane := removal_decided hs (.ofText "/c/v/planes/P")
  have hcrtc := removal_decided hs (.ofText "/c/v/crtcs/C")
  refine ⟨hs, hplane, hplane.done_iff.1 (by decide +kernel), fun h => ?_⟩
  exact absurd (hcrtc.done_iff.2 h) (by decide +kernel)

end DisplayTopology.Surface
