import DisplayTopology.Proofs.Teardown.Remnant
import DisplayTopology.Proofs.Topology.Links
import DisplayTopology.Proofs.Topology.Places

/-!
# Topologies under construction

A surface is *vacant* at a root when nothing is there, nothing there is pinned, and no link leads
there (`Surface.Vacant`). From the moment the root is made, whatever was or was not built on it,
the surface is *raised* over the vacant one (`Raised`): what lies outside the root is as it was,
what lies below it is reached by names that are text, and every link below it is routed. Making the
root of a vacant surface raises it (`Vacant.createRoot`), and every operation of a topology keeps it
raised, whether it succeeds or fails (`Raised.apply`, `Raised.setEnabled`, `Raised.setStatus`).
-/

namespace DisplayTopology

open Location Surface

/-- Nothing is at a location or held there, and directories come with groups of plain names only. -/
structure Surface.Vacant (s : Surface) (root : Location) : Prop where
  tree : s.IsTree
  groups : s.PlainGroups
  free : s.entries.find? root = none
  unpinned : ∀ l ∈ s.pinned, l.within root = false
  untargeted : ∀ l target, s.entries.find? l = some (.link target) →
    target.location.within root = false

/-- A surface on which a topology stands at `root`, built over `base` in part or in whole. -/
structure Raised (base : Surface) (root : Location) (s : Surface) : Prop where
  tree : s.IsTree
  groups : s.PlainGroups
  pinned : s.pinned = base.pinned
  root_ne_nil : root ≠ []
  root_user : s.entries.find? root = some (.dir .user)
  text : s.TextBelow root
  routed : ∀ l target, l.within root → s.entries.find? l = some (.link target) →
    Teardown.Routed root l
  outside : ∀ l, l.within root = false → s.entries.slot? l = base.entries.slot? l

variable {base s t : Surface} {root : Location} {p : Path}

/-- Nothing is at or below a vacant root. -/
theorem Surface.Vacant.find?_eq_none (h : s.Vacant root) (hne : root ≠ []) {l : Location}
    (hw : l.within root) : s.entries.find? l = none :=
  h.tree.find?_eq_none_of_within h.free hne hw

/-! ## Places below a root -/

section Places

variable {names : List String}

theorem below_of_names (hne : names ≠ []) :
    below (root ++ names.map Component.named) root := by
  obtain ⟨name, rest, rfl⟩ := List.exists_cons_of_ne_nil hne
  exact below_append_cons root (.named name) (rest.map .named)

/-- After a directory was made, reached by texts, an entry is legible or was there before. -/
theorem Surface.legible_or_contains_of_createDir (hg : s.PlainGroups)
    (hp : p.location = root ++ names.map .named) (hc : s.createDir p = .ok t) {l : Location}
    (hl : t.entries.contains l) : Legible root l ∨ s.entries.contains l := by
  obtain ⟨e, he⟩ := PathMap.contains_iff.1 hl
  rcases eq_of_find?_createDir hg hc he with ⟨⟨text, rfl⟩, -⟩ | ⟨rfl, -⟩ | hs
  · exact .inl (Legible.child ⟨names, hp⟩ text)
  · exact .inl ⟨names, hp⟩
  · exact .inr (contains_of_find? hs)

/-- So it is after anything was put at a path reached by texts. -/
theorem Surface.legible_or_contains_of_insert (hp : p.location = root ++ names.map .named)
    (ht : ∀ l, l ≠ p.location → t.entries.slot? l = s.entries.slot? l) {l : Location}
    (hl : t.entries.contains l) : Legible root l ∨ s.entries.contains l := by
  by_cases heq : l = p.location
  · exact .inl ⟨names, heq ▸ hp⟩
  · right
    rwa [PathMap.contains, ← PathMap.find?_congr (ht l heq)]

end Places

/-! ## Directories for links -/

section LinkDirs

open Teardown

theorem isLinkDirName_name (node : NodeId) : isLinkDirName node.name = false := by
  rw [isLinkDirName, NodeId.toList_name]
  cases node.kind <;> rfl

theorem isLinkDirName_group (kind : ResourceKind) : isLinkDirName kind.group = false := by
  cases kind <;> decide

theorem isLinkDirName_linkGroup (kind : ResourceKind) : isLinkDirName kind.linkGroup := by
  cases kind <;> decide

theorem not_isLinkDir_groupPath (root : Path) (kind : ResourceKind) :
    ¬IsLinkDir (root / kind.group).location := by
  intro h
  rw [Graph.location_groupPath, isLinkDir_append_named, isLinkDirName_group] at h
  contradiction

theorem not_isLinkDir_nodePath (root : Path) (node : NodeId) :
    ¬IsLinkDir (Graph.nodePath root node).location := by
  intro h
  rw [Graph.location_nodePath, List.append_cons, isLinkDir_append_named, isLinkDirName_name] at h
  contradiction

/-- On the way down to a resource there is no directory for links. -/
theorem clear_nodePath (root : Path) (node : NodeId) :
    Clear root.location (Graph.nodePath root node).location := by
  have hgroup := (clear_root root.location).child (Graph.parent?_groupPath root node.kind)
    (not_isLinkDir_groupPath root node.kind)
  exact hgroup.child (Graph.parent?_nodePath root node) (not_isLinkDir_nodePath root node)

/-- The links of a topology are routed: above them only the directory they lie in is one for
links. -/
theorem routed_linkPath (root : Path) (src dst : NodeId) :
    Routed root.location (Graph.linkPath root src dst).location := by
  have hparent := Graph.parent?_linkDir root src dst.kind
  refine ⟨⟨src.place ++ [dst.kind.linkGroup, dst.name], Graph.location_linkPath root src dst⟩,
    (Graph.linkDir root src dst.kind).location, Graph.parent?_linkPath root src dst,
    below_of_below_of_within (below_of_parent? hparent) (Graph.within_nodePath root src), ?_,
    (clear_nodePath root src).above hparent⟩
  rw [Graph.linkDir, Path.location_child _ dst.kind.isName_linkGroup, isLinkDir_append_named]
  exact isLinkDirName_linkGroup dst.kind

end LinkDirs

/-! ## Calls on a raised surface -/

namespace Raised

/-- A directory made below the root by plain names. -/
theorem createDir (h : Raised base root s) (names : List String) (hne : names ≠ [])
    (hp : p.location = root ++ names.map .named) (hc : s.createDir p = .ok t) :
    Raised base root t := by
  have hbelow : p.location.below root := hp ▸ below_of_names hne
  have hout (l : Location) (hl : l.within p.location = false) :
      t.entries.slot? l = s.entries.slot? l := slot?_createDir h.groups hc hl
  have hcongr := (createDir_eq_ok_iff.1 hc).2
  refine ⟨h.tree.createDir h.groups hc, h.groups.congr (by rw [hcongr]), by rw [hcongr, h.pinned],
    h.root_ne_nil, ?_, fun l hl hb => ?_, fun l target hw hl => ?_, fun l hl => ?_⟩
  · rw [PathMap.find?_congr (hout root (Bool.eq_false_iff.2 fun hw => ?_)), h.root_user]
    exact ne_of_below (below_of_within_of_below hw hbelow) rfl
  · exact (legible_or_contains_of_createDir h.groups hp hc hl).elim id fun hs => h.text l hs hb
  · rcases eq_of_find?_createDir h.groups hc hl with ⟨-, he⟩ | ⟨-, he⟩ | hs
    · simp at he
    · simp at he
    · exact h.routed l target hw hs
  · rw [hout l (Bool.eq_false_iff.2 fun hw => ?_), h.outside l hl]
    rw [within_trans hw (within_of_below hbelow)] at hl
    contradiction

/-- A file or link put below the root by plain names; a link is to be routed. -/
theorem insert (h : Raised base root s) (names : List String) {e : Entry} (hne : names ≠ [])
    (hp : p.location = root ++ names.map .named)
    (he : ∀ target, e = .link target → Teardown.Routed root p.location)
    (htree : t.IsTree)
    (ht : t = { s with entries := s.entries.insert p e, mutations := s.mutations + 1 }) :
    Raised base root t := by
  have hbelow : p.location.below root := hp ▸ below_of_names hne
  have hslot {l : Location} (hl : l ≠ p.location) : t.entries.slot? l = s.entries.slot? l := by
    rw [ht]
    exact PathMap.slot?_insert_of_ne hl
  have hself : t.entries.find? p.location = some e := by simp [ht]
  refine ⟨htree, h.groups.congr (by rw [ht]), by rw [ht, h.pinned], h.root_ne_nil, ?_,
    fun l hl hb => ?_, fun l target hw hl => ?_, fun l hl => ?_⟩
  · rw [PathMap.find?_congr (hslot (ne_of_below hbelow).symm), h.root_user]
  · exact (legible_or_contains_of_insert hp (fun _ => hslot) hl).elim id fun hs => h.text l hs hb
  · by_cases heq : l = p.location
    · subst heq
      exact he target (Option.some.inj (hself.symm.trans hl))
    · exact h.routed l target hw ((PathMap.find?_congr (hslot heq)).symm.trans hl)
  · rw [hslot, h.outside l hl]
    rintro rfl
    rw [within_of_below hbelow] at hl
    contradiction

theorem write (h : Raised base root s) (names : List String) {data : Bytes} (hne : names ≠ [])
    (hp : p.location = root ++ names.map .named) (hw : s.write p data = .ok t) :
    Raised base root t :=
  h.insert names hne hp (by simp) (h.tree.write hw) (write_eq_ok_iff.1 hw).2

theorem createLink (h : Raised base root s) (names : List String) {target : Path}
    (hne : names ≠ []) (hp : p.location = root ++ names.map .named)
    (hr : Teardown.Routed root p.location) (hc : s.createLink target p = .ok t) :
    Raised base root t :=
  h.insert names hne hp (fun _ _ => hr) (h.tree.createLink hc) (createLink_eq_ok_iff.1 hc).2

/-- Marks at which calls fail are no entries. -/
theorem failOn (h : Raised base root s) (p : Path) (e : Errno) : Raised base root (s.failOn p e) :=
  ⟨h.tree, h.groups, h.pinned, h.root_ne_nil, h.root_user, h.text, h.routed, h.outside⟩

/-! ## Operations on a raised topology -/

/-- A call that leaves a raised surface if it succeeds leaves one in any case. -/
theorem perform (h : Raised base root s) {task : SurfaceTask} {r : Except Errno Surface}
    (hr : ∀ t, r = .ok t → Raised base root t) : Raised base root (Graph.perform task p s r).2 := by
  cases r with
  | ok t => exact hr t rfl
  | error e => exact h

section Operations

variable {root : Path}

theorem createNode (h : Raised base root.location s) (node : NodeId) :
    Raised base root.location (Graph.createNode root node s).2 :=
  h.perform fun _ hc =>
    h.createDir node.place (by simp [NodeId.place]) (Graph.location_nodePath root node) hc

theorem writeAttr (h : Raised base root.location s) (node : NodeId) {attr : String} (data : Bytes)
    (hattr : Path.IsName attr) :
    Raised base root.location (Graph.writeAttr root node attr data s).2 :=
  h.perform fun _ hw =>
    h.write (node.place ++ [attr]) (by simp) (Graph.location_attrPath root node hattr) hw

theorem setStatus (h : Raised base root.location s) (connector : Nat) (status : ConnectorStatus) :
    Raised base root.location (Graph.setStatus root connector status s).2 :=
  h.writeAttr _ _ (by decide)

theorem setEnabled (h : Raised base root.location s) (enabled : Bool) :
    Raised base root.location (Graph.setEnabled root enabled s).2 :=
  h.perform fun _ hw =>
    h.write ["enabled"] (by simp) (Graph.location_enabledPath root) hw

theorem link (h : Raised base root.location s) (src dst : NodeId) :
    Raised base root.location (Graph.link root src dst s).2 := by
  have hlinkDir {t : Surface} (hc : s.createDir (Graph.linkDir root src dst.kind) = .ok t) :
      Raised base root.location t :=
    h.createDir (src.place ++ [dst.kind.linkGroup]) (by simp)
      (Graph.location_linkDir root src dst.kind) hc
  have houtcome := Graph.link_outcome root src dst s
  generalize Graph.link root src dst s = effect at houtcome ⊢
  cases houtcome with
  | unroutable | missing | noDir | noLink => exact h
  | halfWay _ hdir => exact hlinkDir hdir
  | @laid t u _ hdir hlink =>
    have ht : Raised base root.location t := by
      rcases hdir with ⟨-, rfl⟩ | hdir
      · exact h
      · exact hlinkDir hdir
    exact ht.createLink (src.place ++ [dst.kind.linkGroup, dst.name]) (by simp)
      (Graph.location_linkPath root src dst) (routed_linkPath root src dst) hlink

/-- **Step.** Every planned operation keeps a raised surface raised, also when it fails. -/
theorem apply (h : Raised base root.location s) (op : GraphOp) :
    Raised base root.location (Graph.apply root op s).2 := by
  cases op with
  | createNode node => exact h.createNode node
  | setStatus connector status => exact h.setStatus connector status
  | setConnectorType | setPlaneType | setPlaneFormat => exact h.writeAttr _ _ (by decide)
  | setEdid connector monitor =>
    rw [Graph.apply, Graph.setEdid]
    split
    · exact h
    · exact h.writeAttr _ _ (by decide)
  | link src dst => exact h.link src dst

end Operations

end Raised

/-! ## Raising a topology -/

theorem Surface.Vacant.failOn (h : s.Vacant root) (p : Path) (e : Errno) :
    (s.failOn p e).Vacant root :=
  ⟨h.tree, h.groups, h.free, h.unpinned, h.untargeted⟩

/-- A surface with the entries, groups and pins of a vacant one is vacant. -/
theorem Surface.Vacant.congr (h : base.Vacant root)
    (hentries : s.entries.entries = base.entries.entries) (hgroups : s.groups = base.groups)
    (hpinned : s.pinned = base.pinned) : s.Vacant root := by
  have hslot := PathMap.entries_eq_iff.1 hentries
  have hfind (l : Location) : s.entries.find? l = base.entries.find? l :=
    PathMap.find?_congr (hslot l)
  refine ⟨h.tree.of_slots (fun l hl => ?_) fun _ dir _ _ _ => hslot dir, h.groups.congr hgroups, ?_,
    ?_, fun l target hl => ?_⟩
  · rwa [PathMap.contains, ← hfind]
  · rw [hfind, h.free]
  · rw [hpinned]
    exact h.unpinned
  · rw [hfind] at hl
    exact h.untargeted l target hl

/-- Making the root of a vacant surface raises it. -/
theorem Surface.Vacant.createRoot (h : s.Vacant p.location) (hc : s.createDir p = .ok t) :
    Raised s p.location t := by
  obtain ⟨-, -, dir, hdir, -⟩ := creationFault?_eq_none_iff.1 (createDir_eq_ok_iff.1 hc).1
  have hne : p.location ≠ [] := by
    intro hn
    simp [hn] at hdir
  have hcongr := (createDir_eq_ok_iff.1 hc).2
  refine ⟨h.tree.createDir h.groups hc, h.groups.congr (by rw [hcongr]), by rw [hcongr], hne,
    find?_createDir_self h.groups hc, fun l hl hb => ?_, fun l target hw hl => ?_,
    fun l hl => slot?_createDir h.groups hc hl⟩
  · obtain ⟨e, he⟩ := PathMap.contains_iff.1 hl
    rcases eq_of_find?_createDir h.groups hc he with ⟨⟨step, rfl⟩, -⟩ | ⟨rfl, -⟩ | hs
    · exact (legible_refl p.location).child _
    · exact absurd rfl (ne_of_below hb)
    · rw [h.find?_eq_none hne (within_of_below hb)] at hs
      simp at hs
  · rcases eq_of_find?_createDir h.groups hc hl with ⟨-, he⟩ | ⟨-, he⟩ | hs
    · simp at he
    · simp at he
    · rw [h.find?_eq_none hne hw] at hs
      simp at hs

end DisplayTopology
