import DisplayTopology.Proofs.Surface.Removal
import Mathlib.Data.List.Basic

/-!
# What calls depend on

Two surfaces are *alike off* a location when they have the same marks and the same entries but for
what is at or below that location (`AlikeOff`). A call at a path that is separate from the location,
neither above it nor below it, cannot tell the two apart: it gives the same answer on both and leaves
them alike. For making, writing and linking that is because they look at the path and the directory
it lies in, and for listing because it looks at what lies below the path. Removing a directory looks
at the links of the whole surface, so there those at or below the location must not lead to the
directory (`AlikeOff.removeDir`).
-/

namespace DisplayTopology

namespace Location

/-- Neither of two locations is at or below the other. -/
structure Separate (a b : Location) : Prop where
  left : a.within b = false
  right : b.within a = false

variable {a b l : Location}

theorem Separate.symm (h : Separate a b) : Separate b a := ⟨h.right, h.left⟩

/-- What is at or below a location is outside of one that is separate from it. -/
theorem Separate.outside (h : Separate a b) (hl : l.within a) : l.within b = false := by
  refine Bool.eq_false_iff.2 fun hb => ?_
  rcases List.prefix_or_prefix_of_prefix (within_iff.1 hl) (within_iff.1 hb) with hab | hba
  · exact absurd (within_iff.2 hab) (Bool.eq_false_iff.1 h.right)
  · exact absurd (within_iff.2 hba) (Bool.eq_false_iff.1 h.left)

theorem Separate.of_within (h : Separate a b) (hl : l.within a) : Separate l b :=
  ⟨h.outside hl, Bool.eq_false_iff.2 fun hb =>
    absurd (within_trans hb hl) (Bool.eq_false_iff.1 h.right)⟩

/-- A location that is separate from another is not empty. -/
theorem Separate.ne_nil (h : Separate a b) : a ≠ [] := by
  rintro rfl
  exact absurd (within_iff.2 List.nil_prefix) (Bool.eq_false_iff.1 h.right)

/-- Different locations of one length are separate. -/
theorem separate_of_length_eq (hlen : a.length = b.length) (hne : a ≠ b) : Separate a b :=
  ⟨Bool.eq_false_iff.2 fun hw => hne ((within_iff.1 hw).eq_of_length hlen.symm).symm,
    Bool.eq_false_iff.2 fun hw => hne ((within_iff.1 hw).eq_of_length hlen)⟩

/-- Locations that part at their last step are separate. -/
theorem separate_append_singleton {c d : Component} (l : Location) (h : c ≠ d) :
    Separate (l ++ [c]) (l ++ [d]) :=
  separate_of_length_eq (by simp) (by simpa using h)

end Location

namespace Surface

open Location

/-- Two surfaces with the same marks, and the same entries outside of a location. -/
structure AlikeOff (off : Location) (s t : Surface) : Prop where
  slot : ∀ l, l.within off = false → s.entries.slot? l = t.entries.slot? l
  groups : s.groups = t.groups
  pinned : s.pinned = t.pinned
  failures : s.failures = t.failures

/-- Two calls that fail with the same error, or leave surfaces that are alike. -/
inductive SameCall (off : Location) : Except Errno Surface → Except Errno Surface → Prop where
  | ok {s t : Surface} (h : AlikeOff off s t) : SameCall off (.ok s) (.ok t)
  | error (e : Errno) : SameCall off (.error e) (.error e)

variable {s t : Surface} {off l : Location} {p target : Path}

/-- No link at or below `off` leads to or below a location. -/
def Untargeted (s : Surface) (off d : Location) : Prop :=
  ∀ l target, l.within off → s.entries.find? l = some (.link target) →
    target.location.within d = false

theorem Untargeted.of_within {d : Location} (h : Untargeted s off d) (hl : l.within d) :
    Untargeted s off l := fun m target hm he => Bool.eq_false_iff.2 fun hw =>
  absurd (within_trans hw hl) (Bool.eq_false_iff.1 (h m target hm he))

namespace AlikeOff

theorem refl (s : Surface) : AlikeOff off s s := ⟨fun _ _ => rfl, rfl, rfl, rfl⟩

theorem symm (h : AlikeOff off s t) : AlikeOff off t s :=
  ⟨fun l hl => (h.slot l hl).symm, h.groups.symm, h.pinned.symm, h.failures.symm⟩

theorem trans {u : Surface} (h : AlikeOff off s t) (h' : AlikeOff off t u) : AlikeOff off s u :=
  ⟨fun l hl => (h.slot l hl).trans (h'.slot l hl), h.groups.trans h'.groups,
    h.pinned.trans h'.pinned, h.failures.trans h'.failures⟩

theorem find? (h : AlikeOff off s t) (hl : l.within off = false) :
    s.entries.find? l = t.entries.find? l :=
  PathMap.find?_congr (h.slot l hl)

theorem dirAt (h : AlikeOff off s t) (hl : l.within off = false) : s.dirAt l = t.dirAt l :=
  dirAt_congr (h.find? hl)

/-! ## Reading -/

theorem entry? (h : AlikeOff off s t) (hp : Separate p.location off) : s.entry? p = t.entry? p :=
  h.find? hp.left

theorem isDir (h : AlikeOff off s t) (hp : Separate p.location off) : s.isDir p = t.isDir p :=
  h.dirAt hp.left

theorem read (h : AlikeOff off s t) (hp : Separate p.location off) : s.read p = t.read p := by
  rw [Surface.read, Surface.read, h.entry? hp]

theorem list (h : AlikeOff off s t) (hp : Separate p.location off) : s.list p = t.list p := by
  have hchildren : s.children p.location = t.children p.location := by
    rw [children, children,
      PathMap.level_below_congr fun k hk => h.slot k (hp.outside (within_of_below hk))]
  rw [Surface.list, Surface.list, h.entry? hp, hchildren]

/-! ## Making and writing -/

theorem parentFault? (h : AlikeOff off s t) (hl : l.within off = false) :
    s.parentFault? l = t.parentFault? l := by
  cases hdir : l.parent? with
  | none => simp [Surface.parentFault?, hdir]
  | some dir =>
    have hout : dir.within off = false := by
      refine Bool.eq_false_iff.2 fun hw => ?_
      rw [within_trans (within_of_parent? hdir) hw] at hl
      contradiction
    simp [Surface.parentFault?, hdir, h.find? hout]

theorem creationFault? (h : AlikeOff off s t) (hl : l.within off = false) :
    s.creationFault? l = t.creationFault? l := by
  rw [Surface.creationFault?, Surface.creationFault?, h.failures, h.parentFault? hl,
    PathMap.contains, PathMap.contains, h.find? hl]

theorem writeFault? (h : AlikeOff off s t) (hl : l.within off = false) :
    s.writeFault? l = t.writeFault? l := by
  rw [Surface.writeFault?, Surface.writeFault?, h.failures, h.parentFault? hl, h.dirAt hl]

theorem slot?_addGroups_congr {m n : PathMap Entry} (p : Path) (names : List String)
    (h : m.slot? l = n.slot? l) : (addGroups p names m).slot? l = (addGroups p names n).slot? l := by
  induction names generalizing m n with
  | nil => exact h
  | cons name names ih => exact ih (PathMap.slot?_insert_congr (p / name) (.dir .kernel) h)

theorem createDir (h : AlikeOff off s t) (hp : Separate p.location off) :
    SameCall off (s.createDir p) (t.createDir p) := by
  rw [Surface.createDir, Surface.createDir, h.creationFault? hp.left, groupsFor_congr h.groups]
  cases t.creationFault? p.location with
  | some e => exact .error e
  | none =>
    refine .ok ⟨fun l hl => ?_, h.groups, h.pinned, h.failures⟩
    exact slot?_addGroups_congr p _ (PathMap.slot?_insert_congr p _ (h.slot l hl))

theorem write (h : AlikeOff off s t) (data : Bytes) (hp : Separate p.location off) :
    SameCall off (s.write p data) (t.write p data) := by
  rw [Surface.write, Surface.write, h.writeFault? hp.left]
  cases t.writeFault? p.location with
  | some e => exact .error e
  | none =>
    exact .ok ⟨fun l hl => PathMap.slot?_insert_congr p _ (h.slot l hl), h.groups, h.pinned,
      h.failures⟩

theorem createLink (h : AlikeOff off s t) (target : Path) (hp : Separate p.location off) :
    SameCall off (s.createLink target p) (t.createLink target p) := by
  rw [Surface.createLink, Surface.createLink, h.creationFault? hp.left]
  cases t.creationFault? p.location with
  | some e => exact .error e
  | none =>
    exact .ok ⟨fun l hl => PathMap.slot?_insert_congr p _ (h.slot l hl), h.groups, h.pinned,
      h.failures⟩

/-! ## Removing -/

theorem removeLink (h : AlikeOff off s t) (hp : Separate p.location off) :
    SameCall off (s.removeLink p) (t.removeLink p) := by
  rw [Surface.removeLink, Surface.removeLink, h.entry? hp]
  match t.entry? p with
  | none => exact .error .enoent
  | some (.dir _) => exact .error .eisdir
  | some (.file _) => exact .error .eperm
  | some (.link _) =>
    refine .ok ⟨fun l hl => ?_, h.groups, h.pinned, h.failures⟩
    show (s.entries.erase _).slot? l = (t.entries.erase _).slot? l
    rw [PathMap.slot?_erase, PathMap.slot?_erase, h.slot l hl]

theorem busyFault? (h : AlikeOff off s t) (hs : Untargeted s off l) (ht : Untargeted t off l) :
    s.busyFault? l = t.busyFault? l := by
  have key {s t : Surface} (h : AlikeOff off s t) (hs : Untargeted s off l)
      (href : s.referenced l) : t.referenced l := by
    obtain ⟨m, target, hm, hw⟩ := referenced_iff.1 href
    refine referenced_iff.2 ⟨m, target, ?_, hw⟩
    rw [← h.find? (Bool.eq_false_iff.2 fun hmo => ?_), hm]
    rw [hs m target hmo hm] at hw
    contradiction
  have href : s.referenced l = t.referenced l :=
    Bool.eq_iff_iff.2 ⟨key h hs, key h.symm ht⟩
  rw [Surface.busyFault?, Surface.busyFault?, h.pinned, href]

/-- Removing a directory depends on what lies below it and on the links that lead there. -/
theorem removeDir (h : AlikeOff off s t) (hs : s.IsTree) (ht : t.IsTree)
    (hp : Separate p.location off) (hus : Untargeted s off p.location)
    (hut : Untargeted t off p.location) : SameCall off (s.removeDir p) (t.removeDir p) := by
  have hfault : s.removalFault? p.location = t.removalFault? p.location := by
    have hentries := PathMap.entries_below_congr (m := s.entries) (n := t.entries)
      fun k hk => h.slot k (hp.outside (within_of_below hk))
    -- below the directory only default groups are asked whether links lead to them
    have hentry : ∀ e ∈ (t.entries.below p.location).entries, s.entryFault? e = t.entryFault? e := by
      rintro ⟨q, owner | data | target⟩ he
      · have hw := within_of_below (PathMap.mem_entries_below_iff.1 he).2
        cases owner with
        | kernel => exact h.busyFault? (hus.of_within hw) (hut.of_within hw)
        | user => rfl
      · rfl
      · rfl
    rw [removalFault?, removalFault?, h.busyFault? hus hut,
      heldFault?_eq_findSome? (s.entries.placed_below _) (hangs_below hs _),
      heldFault?_eq_findSome? (t.entries.placed_below _) (hangs_below ht _), hentries,
      ← List.head?_filterMap, ← List.head?_filterMap, List.filterMap_congr hentry]
  rw [Surface.removeDir, Surface.removeDir, h.entry? hp, hfault]
  rcases t.entry? p with _ | (_ | _) | _ | _
  · exact .error .enoent
  · exact .error .eperm
  · cases t.removalFault? p.location with
    | some e => exact .error e
    | none =>
      refine .ok ⟨fun l hl => ?_, h.groups, h.pinned, h.failures⟩
      show (s.entries.prune _).slot? l = (t.entries.prune _).slot? l
      rw [PathMap.slot?_prune, PathMap.slot?_prune, h.slot l hl]
  · exact .error .enotdir
  · exact .error .enotdir

end AlikeOff

end Surface

end DisplayTopology
