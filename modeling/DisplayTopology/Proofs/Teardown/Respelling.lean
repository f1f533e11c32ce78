import DisplayTopology.Proofs.Topology.Respelling
import DisplayTopology.Session.Teardown

/-!
# Teardowns under other spellings

The walks of a teardown make their paths from names that are listed, and listings do not depend on
how anything is spelled. So walks from respelled directories, on surfaces that differ in spelling
only, visit the same directories in the same order: they log events that differ in spelling only, and
either both end or neither does (`Teardown.respelled_removeTopology`). That holds of teardowns under
respelled settings, too (`Device.respelled_teardown`).
-/

namespace DisplayTopology

/-! ## Events and reports -/

/-- Two events of one kind at respelled paths. -/
inductive Event.Respelled : Event → Event → Prop where
  | unlinked {p q : Path} (h : p.Respelled q) : Respelled (.unlinked p) (.unlinked q)
  | kept {p q : Path} (h : p.Respelled q) : Respelled (.kept p) (.kept q)
  | removed {p q : Path} (h : p.Respelled q) : Respelled (.removed p) (.removed q)
  | refused {p q : Path} (h : p.Respelled q) (errno : Errno) :
      Respelled (.refused p errno) (.refused q errno)
  | absent {p q : Path} (h : p.Respelled q) : Respelled (.absent p) (.absent q)
  | unlisted {p q : Path} (h : p.Respelled q) : Respelled (.unlisted p) (.unlisted q)

namespace Event.Respelled

variable {e f : Event}

theorem unlinked? (h : e.Respelled f) : Option.Rel Path.Respelled e.unlinked? f.unlinked? := by
  cases h with
  | unlinked hp => exact .some hp
  | kept | removed | refused | absent | unlisted => exact .none

theorem removed? (h : e.Respelled f) : Option.Rel Path.Respelled e.removed? f.removed? := by
  cases h with
  | removed hp => exact .some hp
  | unlinked | kept | refused | absent | unlisted => exact .none

theorem kernelOwned? (h : e.Respelled f) :
    Option.Rel Path.Respelled e.kernelOwned? f.kernelOwned? := by
  cases h with
  | refused hp errno => cases errno <;> first | exact .some hp | exact .none
  | unlinked | kept | removed | absent | unlisted => exact .none

theorem skipped? (h : e.Respelled f) : Option.Rel Path.Respelled e.skipped? f.skipped? := by
  cases h with
  | refused hp errno => cases errno <;> first | exact .some hp | exact .none
  | kept hp | unlisted hp => exact .some hp
  | unlinked | removed | absent => exact .none

end Event.Respelled

/-- Two reports that differ at most in how paths are spelled. -/
structure Report.Respelled (r r' : Report) : Prop where
  unlinked : List.Forall₂ Path.Respelled r.unlinked r'.unlinked
  removed : List.Forall₂ Path.Respelled r.removed r'.removed
  kernelOwned : List.Forall₂ Path.Respelled r.kernelOwned r'.kernelOwned
  skipped : List.Forall₂ Path.Respelled r.skipped r'.skipped

theorem Report.respelled_ofEvents {events events' : List Event}
    (h : List.Forall₂ Event.Respelled events events') :
    (Report.ofEvents events).Respelled (.ofEvents events') where
  unlinked := List.rel_filterMap (fun _ _ he => he.unlinked?) h
  removed := List.rel_filterMap (fun _ _ he => he.removed?) h
  kernelOwned := List.rel_filterMap (fun _ _ he => he.kernelOwned?) h
  skipped := List.rel_filterMap (fun _ _ he => he.skipped?) h

/-- Whether the root was removed does not depend on spelling. -/
theorem Report.Respelled.removedRoot_eq {r r' : Report} {root root' : Path} (h : r.Respelled r')
    (hroot : root.Respelled root') : r.removedRoot root = r'.removedRoot root' := by
  have hremoved := Path.forall₂_respelled_iff.1 h.removed
  have hany (ps : List Path) : (ps.any fun p => p.location == root'.location) =
      (ps.map Path.location).any fun l => l == root'.location := by
    rw [List.any_map]
    rfl
  rw [Report.removedRoot, Report.removedRoot, hroot.location_eq, hany, hany, hremoved]

variable {s t : Surface} {dir dir' root root' : Path}

namespace Teardown

/-! ## Walks -/

/-- Two walks with events and surfaces that differ in spelling only. -/
abbrev WalkedAlike : Walked → Walked → Prop :=
  Paired (List.Forall₂ Event.Respelled) Surface.Respelled

theorem respelled_tryRemove (h : s.Respelled t) (hdir : dir.Respelled dir') :
    Paired Event.Respelled Surface.Respelled (tryRemove dir s) (tryRemove dir' t) := by
  have hcall := h.removeDir hdir
  rw [tryRemove, tryRemove]
  generalize s.removeDir dir = x at hcall
  generalize t.removeDir dir' = y at hcall
  cases hcall with
  | @error e e' he =>
    obtain rfl : e = e' := he
    exact ⟨.refused hdir e, h⟩
  | ok hst => exact ⟨.removed hdir, hst⟩

theorem respelled_unlinkAll (h : s.Respelled t) (hdir : dir.Respelled dir') (items : List Item) :
    WalkedAlike (unlinkAll dir items s) (unlinkAll dir' items t) := by
  induction items generalizing s t with
  | nil => exact ⟨.nil, h⟩
  | cons item items ih =>
    have hpath := hdir.child item.name
    have hcall := h.removeLink hpath
    rw [unlinkAll, unlinkAll]
    generalize s.removeLink (dir / item.name) = x at hcall
    generalize t.removeLink (dir' / item.name) = y at hcall
    cases hcall with
    | error =>
      obtain ⟨hevents, hlast⟩ := ih h
      exact ⟨.cons (.kept hpath) hevents, hlast⟩
    | ok hst =>
      obtain ⟨hevents, hlast⟩ := ih hst
      exact ⟨.cons (.unlinked hpath) hevents, hlast⟩

theorem respelled_clearLinkDir (h : s.Respelled t) (hdir : dir.Respelled dir') :
    WalkedAlike (clearLinkDir dir s) (clearLinkDir dir' t) := by
  have hlisted : listed s dir = listed t dir' := by rw [listed, listed, h.list_eq hdir]
  obtain ⟨hevents, hsurface⟩ := respelled_unlinkAll h hdir (listed t dir')
  obtain ⟨hevent, hlast⟩ := respelled_tryRemove hsurface hdir
  rw [clearLinkDir, clearLinkDir, hlisted]
  exact ⟨List.rel_append hevents (.cons hevent .nil), hlast⟩

/-- Visiting the same listed directories ends alike if every visit does. -/
theorem respelled_overDirs {visit visit' : String → Surface → Option Walked}
    (hvisit : ∀ name {s t}, s.Respelled t →
      Option.Rel WalkedAlike (visit name s) (visit' name t))
    (h : s.Respelled t) (items : List Item) :
    Option.Rel WalkedAlike (overDirs visit items s) (overDirs visit' items t) := by
  induction items generalizing s t with
  | nil => exact .some ⟨.nil, h⟩
  | cons item items ih =>
    rw [overDirs, overDirs]
    cases item.kind with
    | file | link => exact ih h
    | dir =>
      have hfirst := hvisit item.name h
      dsimp only
      generalize visit item.name s = x at hfirst
      generalize visit' item.name t = y at hfirst
      cases hfirst with
      | none => exact .none
      | some hwalked =>
        obtain ⟨hevents, hst⟩ := hwalked
        exact optionRel_map (ih hst) fun _ _ hmore =>
          ⟨List.rel_append hevents hmore.1, hmore.2⟩

theorem respelled_clearLinks (n : Nat) (h : s.Respelled t) (hdir : dir.Respelled dir') :
    Option.Rel WalkedAlike (clearLinks n dir s) (clearLinks n dir' t) := by
  induction n generalizing dir dir' s t with
  | zero => exact .none
  | succ n ih =>
    rw [clearLinks, clearLinks, h.list_eq hdir]
    split
    · exact .some ⟨.nil, h⟩
    · refine respelled_overDirs (fun name s t h => ?_) h _
      split
      · exact .some (respelled_clearLinkDir h (hdir.child name))
      · exact ih h (hdir.child name)

theorem respelled_removeTree (n : Nat) (h : s.Respelled t) (hdir : dir.Respelled dir') :
    Option.Rel WalkedAlike (removeTree n dir s) (removeTree n dir' t) := by
  induction n generalizing dir dir' s t with
  | zero => exact .none
  | succ n ih =>
    rw [removeTree, removeTree, h.list_eq hdir]
    split
    · exact .some ⟨.cons (.absent hdir) .nil, h⟩
    · exact .some ⟨.cons (.unlisted hdir) .nil, h⟩
    · rename_i items _
      have hdirs : Option.Rel WalkedAlike
          (overDirs (fun name s => removeTree n (dir / name) s) items s)
          (overDirs (fun name s => removeTree n (dir' / name) s) items t) :=
        respelled_overDirs (fun name s t h => ih h (hdir.child name)) h items
      generalize overDirs (fun name s => removeTree n (dir / name) s) items s = x at hdirs
      generalize overDirs (fun name s => removeTree n (dir' / name) s) items t = y at hdirs
      cases hdirs with
      | none => exact .none
      | some hwalked =>
        obtain ⟨hevents, hst⟩ := hwalked
        obtain ⟨hevent, hlast⟩ := respelled_tryRemove hst hdir
        exact .some ⟨List.rel_append hevents (.cons hevent .nil), hlast⟩

theorem budget_eq (h : s.Respelled t) : budget s = budget t := by
  rw [budget, budget, h.entries.entries.length_eq]

/-- **Walks under other spellings** both end, with events that differ in spelling only, or neither
ends. -/
theorem respelled_removeTopology (h : s.Respelled t) (hroot : root.Respelled root') :
    Option.Rel WalkedAlike (removeTopology root s) (removeTopology root' t) := by
  have hlinks := respelled_clearLinks (budget t) h hroot
  rw [removeTopology, removeTopology, budget_eq h]
  generalize clearLinks (budget t) root s = x at hlinks
  generalize clearLinks (budget t) root' t = y at hlinks
  cases hlinks with
  | none => exact .none
  | @some x y hwalked =>
    obtain ⟨hevents, hst⟩ := hwalked
    have htree := respelled_removeTree (budget y.2) hst hroot
    dsimp only
    rw [budget_eq hst]
    exact optionRel_map htree fun _ _ hmore => ⟨List.rel_append hevents hmore.1, hmore.2⟩

end Teardown

/-! ## Devices -/

/-- Two devices whose surfaces differ in spelling only, and with the same control. -/
structure Device.Respelled (d d' : Device) : Prop where
  surface : d.surface.Respelled d'.surface
  control : d.control = d'.control

/-- Two settings with respelled roots that are otherwise the same. -/
structure Settings.Respelled (settings settings' : Settings) : Prop where
  root : settings.root.Respelled settings'.root
  drmDevice : settings.drmDevice = settings'.drmDevice
  backendProperty : settings.backendProperty = settings'.backendProperty
  serviceName : settings.serviceName = settings'.serviceName
  settleMillis : settings.settleMillis = settings'.settleMillis

namespace Device

variable {d d' : Device}

/-- Two steps on devices with answers and devices that differ in spelling only. -/
abbrev EffectAlike : Effect → Effect → Prop := Paired DoneAlike Device.Respelled

theorem respelled_onSurface {f f' : Surface → Graph.Effect} (h : d.Respelled d')
    (hf : Graph.EffectAlike (f d.surface) (f' d'.surface)) :
    EffectAlike (d.onSurface f) (d'.onSurface f') :=
  ⟨hf.1, hf.2, h.control⟩

theorem respelled_onControl (h : d.Respelled d') (f : Control → Except TopologyError Control) :
    EffectAlike (d.onControl f) (d'.onControl f) := by
  rw [onControl, onControl, h.control]
  split
  · exact ⟨.ok rfl, h.surface, rfl⟩
  · exact ⟨.error (.refl _), h⟩

/-- **Teardowns under other spellings** both end, with reports that differ in spelling only, or
neither ends. -/
theorem respelled_teardown {settings settings' : Settings} (h : d.Respelled d')
    (hs : settings.Respelled settings') :
    Option.Rel (Paired Report.Respelled Device.Respelled) (d.teardown settings)
      (d'.teardown settings') := by
  have hstopped := respelled_onControl h fun c => c.stop settings.serviceName
  have hoff := respelled_onSurface hstopped.2
    (Graph.respelled_setEnabled hstopped.2.surface hs.root false)
  rw [teardown, teardown, ← hs.serviceName]
  refine optionRel_map (Teardown.respelled_removeTopology hoff.2.surface hs.root)
    fun x y hwalked => ?_
  exact ⟨Report.respelled_ofEvents hwalked.1, hwalked.2, hoff.2.control⟩

end Device

end DisplayTopology
