import DisplayTopology.Proofs.Topology.Raised
import DisplayTopology.Surface.Driver

/-!
# The driver's surface is vacant

Before a topology is built, the driver shows the directories above the root and nothing else
(`find?_ofDriver`). So its surface is vacant at the root (`vacant_ofDriver`), and its default groups
are those of the root and of the resources (`groupsFor_ofDriver_root`, `groupsFor_ofDriver_node`).
-/

namespace DisplayTopology

/-- The kinds of resources that a kind routes to. -/
def ResourceKind.targets (kind : ResourceKind) : List ResourceKind := all.filter kind.routesTo

namespace Surface

open Location

variable {s : Surface} {l : Location} {p root dir : Path} {names : List String}

/-! ## Kernel directories -/

theorem find?_foldl_insertIfNew (dirs : List Path) (m : PathMap Entry) (l : Location) :
    (dirs.foldl (fun m dir => m.insertIfNew dir (.dir .kernel)) m).find? l =
      if m.find? l = none ∧ ∃ q ∈ dirs, q.location = l then some (.dir .kernel) else m.find? l := by
  induction dirs generalizing m with
  | nil => simp
  | cons q dirs ih =>
    rw [List.foldl_cons, ih, PathMap.find?_insertIfNew]
    cases hm : m.find? l with
    | some e => by_cases hq : q.location = l <;> simp [hq]
    | none => by_cases hq : q.location = l <;> simp [hq]

theorem find?_addKernelDirs (s : Surface) (p : Path) (l : Location) :
    (s.addKernelDirs p).entries.find? l =
      if s.entries.find? l = none ∧ l <+: p.location ∧ (p.isAbsolute → l ≠ []) then
        some (.dir .kernel)
      else s.entries.find? l := by
  show PathMap.find? (List.foldl _ _ _) l = _
  simp only [find?_foldl_insertIfNew, Path.exists_mem_ancestors_iff]

/-! ## Default groups -/

theorem groupsIn_addDefaultGroups (s : Surface) (p : Path) (names : List String) (l : Location) :
    (s.addDefaultGroups p names).groupsIn l =
      if p.location = l then s.groupsIn l ++ names else s.groupsIn l := by
  show ((s.groups.insert p _).find? l).getD [] = _
  rw [PathMap.find?_insert]
  split
  · rename_i h
    rw [h]
    rfl
  · rfl

theorem PlainGroups.addDefaultGroups (h : s.PlainGroups) (hn : ∀ name ∈ names, Path.IsStep name) :
    (s.addDefaultGroups p names).PlainGroups := by
  intro e he name hname
  have hfind := PathMap.find?_of_mem he
  have hin : name ∈ (s.addDefaultGroups p names).groupsIn e.1.location := by
    rw [groupsIn, hfind]
    exact hname
  rw [groupsIn_addDefaultGroups] at hin
  split at hin
  · rcases List.mem_append.1 hin with hold | hnew
    · exact h.isStep hold
    · exact hn name hnew
  · exact h.isStep hin

/-! ## The driver's surface -/

/-- The driver shows the directories above the root, and the root directory. -/
theorem find?_ofDriver (h : root.parent? = some dir) (l : Location) :
    (ofDriver root).entries.find? l =
      if l = [.root] ∨ l <+: dir.location ∧ (dir.isAbsolute → l ≠ []) then some (.dir .kernel)
      else none := by
  have hent : (ofDriver root).entries = (empty.addKernelDirs dir).entries := by
    rw [ofDriver, h]
    rfl
  have hempty : empty.entries.find? l = if [.root] = l then some (.dir .kernel) else none := by
    show (PathMap.insert _ _ _).find? l = _
    rw [PathMap.find?_insert, PathMap.find?_empty]
    rfl
  rw [hent, find?_addKernelDirs, hempty]
  by_cases hl : [.root] = l
  · simp [hl]
  · simp [hl, Ne.symm hl]

theorem exists_location_of_parent? (h : root.parent? = some dir) :
    ∃ c, c ≠ .root ∧ root.location = dir.location ++ [c] := by
  have hloc := root.location_parent?
  rw [h] at hloc
  exact parent?_eq_some_iff.1 hloc.symm

theorem isTree_ofDriver (h : root.parent? = some dir) : (ofDriver root).IsTree := by
  intro l above hl hp
  obtain ⟨c, hc, rfl⟩ := parent?_eq_some_iff.1 hp
  obtain ⟨e, he⟩ := PathMap.contains_iff.1 hl
  rw [find?_ofDriver h] at he
  refine dirAt_iff.2 ⟨.kernel, ?_⟩
  rw [find?_ofDriver h, if_pos]
  split at he
  · rename_i hcase
    rcases hcase with hroot | ⟨hpre, -⟩
    · obtain ⟨-, hcr⟩ := List.append_inj' (show above ++ [c] = [] ++ [.root] from hroot) rfl
      exact absurd (List.singleton_inj.1 hcr) hc
    · refine .inr ⟨(List.prefix_append _ _).trans hpre, fun habs hnil => ?_⟩
      -- an absolute path does not start with `c`
      rw [Path.isAbsolute, beq_iff_eq] at habs
      obtain ⟨rest, hrest⟩ := hpre
      rw [← hrest, hnil] at habs
      exact hc (by simpa using habs)
  · simp at he

theorem plainGroups_ofDriver (root : Path) : (ofDriver root).PlainGroups := by
  have hempty : empty.PlainGroups := by
    intro e he
    have hfind := PathMap.find?_of_mem he
    rw [show empty.groups = .empty from rfl, PathMap.find?_empty] at hfind
    simp at hfind
  have hgroups : ∀ name ∈ ResourceKind.all.map ResourceKind.group, Path.IsStep name := by
    intro name hname
    obtain ⟨kind, -, rfl⟩ := List.mem_map.1 hname
    exact Path.isStep_of_isName kind.isName_group
  have hlinks (kind : ResourceKind) : ∀ name ∈ [kind.linkGroup], Path.IsStep name := by
    intro name hname
    rw [List.mem_singleton.1 hname]
    exact Path.isStep_of_isName kind.isName_linkGroup
  unfold ofDriver
  refine PlainGroups.addDefaultGroups (PlainGroups.addDefaultGroups (PlainGroups.addDefaultGroups ?_
    (hlinks _)) (hlinks _)) (hlinks _)
  split
  · exact hempty
  · exact PlainGroups.addDefaultGroups (hempty.congr rfl) hgroups

/-- **The driver's surface** is vacant at every root that lies in a directory. -/
theorem vacant_ofDriver (h : root.parent? = some dir) : (ofDriver root).Vacant root.location := by
  refine ⟨isTree_ofDriver h, plainGroups_ofDriver root, ?_, fun l hl => ?_, fun l target hl => ?_⟩
  · obtain ⟨c, hc, hloc⟩ := exists_location_of_parent? h
    rw [find?_ofDriver h, if_neg]
    rintro (hroot | ⟨hpre, -⟩)
    · rw [hloc] at hroot
      obtain ⟨-, hcr⟩ := List.append_inj' (show dir.location ++ [c] = [] ++ [.root] from hroot) rfl
      exact absurd (List.singleton_inj.1 hcr) hc
    · have hle := hpre.length_le
      rw [hloc, List.length_append, List.length_singleton] at hle
      omega
  · have hpinned : (ofDriver root).pinned = [] := by
      rw [ofDriver, h]
      rfl
    rw [hpinned] at hl
    simp at hl
  · rw [find?_ofDriver h] at hl
    split at hl <;> simp at hl

/-! ## Groups of the driver's surface -/

theorem groupsIn_addKernelDirs_empty (dir : Path) (l : Location) :
    (empty.addKernelDirs dir).groupsIn l = [] := by
  show ((PathMap.empty : PathMap (List String)).find? l).getD [] = []
  rw [PathMap.find?_empty]
  rfl

/-- The root comes with a group for every kind of resource. -/
theorem groupsFor_ofDriver_root (h : root.parent? = some dir) :
    (ofDriver root).groupsFor root.location = ResourceKind.all.map ResourceKind.group := by
  obtain ⟨c, hc, hloc⟩ := exists_location_of_parent? h
  have hparent : root.location.parent? = some dir.location :=
    parent?_eq_some_iff.2 ⟨c, hc, hloc⟩
  have hlong (kind : ResourceKind) : (root / kind.group).location ≠ dir.location := by
    intro heq
    have hlen := congrArg List.length heq
    rw [Graph.location_groupPath, hloc] at hlen
    simp at hlen
  rw [groupsFor, hparent, ofDriver, h]
  simp only [Option.map_some, Option.getD_some, groupsIn_addDefaultGroups, hlong, if_false, if_true,
    groupsIn_addKernelDirs_empty, List.nil_append]

/-- A resource comes with a directory for its links to resources of every kind that it routes to. -/
theorem groupsFor_ofDriver_node (h : root.parent? = some dir) (node : NodeId) :
    (ofDriver root).groupsFor (Graph.nodePath root node).location =
      node.kind.targets.map ResourceKind.linkGroup := by
  obtain ⟨c, hc, hloc⟩ := exists_location_of_parent? h
  have hparent : (Graph.nodePath root node).location.parent? =
      some (root.location ++ [.named node.kind.group]) := by
    rw [Graph.location_nodePath]
    exact parent?_eq_some_iff.2 ⟨.named node.name, by simp, by simp⟩
  have hlong : dir.location ≠ root.location ++ [.named node.kind.group] := by
    intro heq
    have hlen := congrArg List.length heq
    rw [hloc] at hlen
    simp at hlen
  rw [groupsFor, hparent, ofDriver, h]
  simp only [Option.map_some, Option.getD_some, groupsIn_addDefaultGroups,
    Graph.location_groupPath, hlong, if_false, groupsIn_addKernelDirs_empty]
  cases node.kind <;> simp only [ResourceKind.group] <;> simp <;> rfl

end Surface

end DisplayTopology
