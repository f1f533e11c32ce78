import DisplayTopology.Proofs.Surface.Driver
import DisplayTopology.Proofs.Topology.PlanContents

/-!
# How a topology grows

While the operations of a plan are carried out on a driver's surface, what lies at or below the root
is known at every moment: the root and its groups, and for each operation so far the entry that it
adds at its path, with the directories for links that come with a node (`Shown`). An operation whose
nodes are there and whose place is new fails exactly when its path is marked to fail, and otherwise
adds its entry (`Grown.apply`).
-/

namespace DisplayTopology

open Location Surface

/-- No monitor of the catalogue reports an empty EDID. -/
theorem Monitor.edid_ne_nil (m : Monitor) : m.edid ≠ [] := by
  obtain ⟨row, rest, hrows, hrow⟩ : ∃ row rest, m.digestRows = row :: rest ∧
      2 ≤ row.utf8ByteSize := by
    cases m <;> exact ⟨_, _, rfl, by decide⟩
  have hlen : m.edid.length = m.digest.utf8ByteSize / 2 := Hex.length_decode _
  rw [digest, hrows, String.join_cons, String.utf8ByteSize_append] at hlen
  intro hnil
  rw [hnil, List.length_nil] at hlen
  omega

/-- The entry that an operation adds at its path. -/
def GraphOp.entry (root : Path) : GraphOp → Entry
  | createNode _ => .dir .user
  | setStatus _ status => .file (Graph.codeBytes status.code)
  | setConnectorType _ type => .file (Graph.codeBytes type.code)
  | setEdid _ monitor => .file monitor.edid
  | setPlaneType _ type => .file (Graph.codeBytes type.code)
  | setPlaneFormat _ => .file (Bytes.encode PlaneType.supportedFormats)
  | link _ dst => .link (Graph.nodePath root dst)

/-- What an operation adds: its entry and, for a node, the directories for its links. -/
inductive Added (root : Path) : GraphOp → Location → Entry → Prop where
  | entry (op : GraphOp) : Added root op (op.path root).location (op.entry root)
  | linkDir (node : NodeId) (kind : ResourceKind) (h : kind ∈ node.kind.targets) :
      Added root (.createNode node) (Graph.linkDir root node kind).location (.dir .kernel)

/-- What lies at or below the root after operations. -/
inductive Shown (root : Path) (done : List GraphOp) : Location → Entry → Prop where
  | root : Shown root done root.location (.dir .user)
  | group (kind : ResourceKind) : Shown root done (root / kind.group).location (.dir .kernel)
  | added {op : GraphOp} {l : Location} {e : Entry} (hop : op ∈ done) (h : Added root op l e) :
      Shown root done l e

variable {base s t : Surface} {root : Path} {done : List GraphOp} {op : GraphOp} {l : Location}
  {e : Entry}

/-! ## Places -/

theorem map_named_inj {names others : List String}
    (h : names.map Component.named = others.map Component.named) : names = others :=
  List.map_inj_right (fun _ _ => Component.named_inj.1) |>.1 h

theorem GraphOp.two_le_length_place (op : GraphOp) : 2 ≤ op.place.length := by
  rw [place, NodeId.place, List.length_append]
  simp

theorem GraphOp.suffix_ne_linkGroup (op : GraphOp) (kind : ResourceKind) :
    op.suffix ≠ [kind.linkGroup] := by
  cases op with
  | createNode | link => simp [suffix]
  | setStatus | setConnectorType | setEdid | setPlaneType | setPlaneFormat =>
    cases kind <;> simp only [suffix] <;> decide

theorem Graph.location_linkDir_eq_map (root : Path) (node : NodeId) (kind : ResourceKind) :
    (linkDir root node kind).location =
      root.location ++ (node.place ++ [kind.linkGroup]).map .named :=
  location_linkDir root node kind

theorem Added.within (h : Added root op l e) : l.within root.location := by
  cases h with
  | entry => rw [Graph.location_path]; exact within_append ..
  | linkDir => rw [Graph.location_linkDir]; exact within_append ..

theorem Shown.within (h : Shown root done l e) : l.within root.location := by
  cases h with
  | root => exact within_refl _
  | group kind => rw [Graph.location_groupPath]; exact within_append ..
  | added _ h => exact h.within

theorem shown_append_iff : Shown root (done ++ [op]) l e ↔ Shown root done l e ∨ Added root op l e := by
  constructor
  · intro h
    cases h with
    | root => exact .inl .root
    | group kind => exact .inl (.group kind)
    | added hop h =>
      rcases List.mem_append.1 hop with hop | hop
      · exact .inl (.added hop h)
      · exact .inr (List.mem_singleton.1 hop ▸ h)
  · rintro (h | h)
    · cases h with
      | root => exact .root
      | group kind => exact .group kind
      | added hop h => exact .added (List.mem_append_left _ hop) h
    · exact .added (List.mem_append_right _ List.mem_cons_self) h

theorem added_createNode_iff {node : NodeId} : Added root (.createNode node) l e ↔
    l = (Graph.nodePath root node).location ∧ e = .dir .user ∨
      ∃ kind ∈ node.kind.targets,
        l = (Graph.linkDir root node kind).location ∧ e = .dir .kernel := by
  constructor
  · intro h
    cases h with
    | entry => exact .inl ⟨rfl, rfl⟩
    | linkDir _ kind hkind => exact .inr ⟨kind, hkind, rfl, rfl⟩
  · rintro (⟨rfl, rfl⟩ | ⟨kind, hkind, rfl, rfl⟩)
    · exact .entry (.createNode node)
    · exact .linkDir node kind hkind

theorem shown_nil_iff : Shown root [] l e ↔ l = root.location ∧ e = .dir .user ∨
    ∃ kind : ResourceKind, l = (root / kind.group).location ∧ e = .dir .kernel := by
  constructor
  · intro h
    cases h with
    | root => exact .inl ⟨rfl, rfl⟩
    | group kind => exact .inr ⟨kind, rfl, rfl⟩
    | added hop => simp at hop
  · rintro (⟨rfl, rfl⟩ | ⟨kind, rfl, rfl⟩)
    · exact .root
    · exact .group kind

/-- Nothing is shown at a new place. -/
theorem not_shown_of_new (op : GraphOp) (hnew : ∀ other ∈ done, other.place ≠ op.place) :
    ¬Shown root done (op.path root).location e := by
  have hlen := op.two_le_length_place
  have hplace := Graph.location_path root op
  intro h
  generalize hl : (op.path root).location = l at h
  rw [hl] at hplace
  cases h with
  | root =>
    have hcount := congrArg List.length hplace
    rw [List.length_append, List.length_map] at hcount
    omega
  | group kind =>
    rw [Graph.location_groupPath] at hplace
    have hcount := congrArg List.length hplace
    rw [List.length_append, List.length_append, List.length_map, List.length_singleton] at hcount
    omega
  | @added other _ _ hop h =>
    cases h with
    | entry =>
      rw [Graph.location_path, List.append_cancel_left_eq] at hplace
      exact hnew other hop (map_named_inj hplace)
    | linkDir node kind _ =>
      rw [Graph.location_linkDir_eq_map, List.append_cancel_left_eq] at hplace
      have hsplit : node.place ++ [kind.linkGroup] = op.subject.place ++ op.suffix :=
        map_named_inj hplace
      have hsuffix := (List.append_inj hsplit (by simp [NodeId.place])).2
      exact op.suffix_ne_linkGroup kind hsuffix.symm

/-- The switch of a topology is at none of its places. -/
theorem not_shown_enabled : ¬Shown root done (Graph.enabledPath root).location e := by
  intro h
  generalize hl : (Graph.enabledPath root).location = l at h
  rw [Graph.location_enabledPath] at hl
  cases h with
  | root => simp at hl
  | group kind =>
    rw [Graph.location_groupPath] at hl
    cases kind <;> simp [ResourceKind.group] at hl
  | @added other _ _ hop hadd =>
    have hlen := congrArg List.length hl
    cases hadd with
    | entry =>
      have hplace := other.two_le_length_place
      rw [Graph.location_path] at hlen
      simp at hlen
      omega
    | linkDir =>
      rw [Graph.location_linkDir] at hlen
      simp at hlen

/-! ## Effects that only a mark can stop -/

/-- An effect at a path that fails with the mark there, and otherwise succeeds with a good surface. -/
structure Marked (s : Surface) (task : SurfaceTask) (p : Path) (good : Surface → Prop)
    (effect : Graph.Effect) : Prop where
  error : ∀ errno, s.failures.find? p.location = some errno →
    effect = (.error (.resource task p errno), s)
  ok : s.failures.find? p.location = none → ∃ t, effect = (.ok (), t) ∧ good t

namespace Marked

variable {task : SurfaceTask} {p : Path} {good : Surface → Prop} {effect : Graph.Effect}

theorem of_perform {r : Except Errno Surface}
    (herror : ∀ errno, s.failures.find? p.location = some errno → r = .error errno)
    (hok : s.failures.find? p.location = none → ∃ t, r = .ok t ∧ good t) :
    Marked s task p good (Graph.perform task p s r) := by
  refine ⟨fun errno hmark => ?_, fun hfree => ?_⟩
  · rw [herror errno hmark, Graph.perform]
  · obtain ⟨t, rfl, ht⟩ := hok hfree
    exact ⟨t, rfl, ht⟩

theorem createDir (hfree : s.entries.find? p.location = none)
    (hparent : ∃ dir, p.location.parent? = some dir ∧ s.dirAt dir)
    (hgood : ∀ t, s.createDir p = .ok t → good t) :
    Marked s task p good (Graph.perform task p s (s.createDir p)) := by
  refine of_perform (fun errno hmark => by simp [Surface.createDir, creationFault?, hmark]) ?_
  intro hnone
  have hfault := creationFault?_eq_none_iff.2 ⟨hnone, contains_eq_false_iff.2 hfree, hparent⟩
  exact ⟨_, createDir_eq_ok_iff.2 ⟨hfault, rfl⟩, hgood _ (createDir_eq_ok_iff.2 ⟨hfault, rfl⟩)⟩

theorem write {data : Bytes} (hfree : s.entries.find? p.location = none)
    (hparent : ∃ dir, p.location.parent? = some dir ∧ s.dirAt dir)
    (hgood : ∀ t, s.write p data = .ok t → good t) :
    Marked s task p good (Graph.perform task p s (s.write p data)) := by
  refine of_perform (fun errno hmark => by simp [Surface.write, writeFault?, hmark]) ?_
  intro hnone
  have hfault := writeFault?_eq_none_iff.2 ⟨hnone, by rw [dirAt, hfree], hparent⟩
  exact ⟨_, write_eq_ok_iff.2 ⟨hfault, rfl⟩, hgood _ (write_eq_ok_iff.2 ⟨hfault, rfl⟩)⟩

theorem createLink {target : Path} (hfree : s.entries.find? p.location = none)
    (hparent : ∃ dir, p.location.parent? = some dir ∧ s.dirAt dir)
    (hgood : ∀ t, s.createLink target p = .ok t → good t) :
    Marked s task p good (Graph.perform task p s (s.createLink target p)) := by
  refine of_perform (fun errno hmark => by simp [Surface.createLink, creationFault?, hmark]) ?_
  intro hnone
  have hfault := creationFault?_eq_none_iff.2 ⟨hnone, contains_eq_false_iff.2 hfree, hparent⟩
  exact ⟨_, createLink_eq_ok_iff.2 ⟨hfault, rfl⟩, hgood _ (createLink_eq_ok_iff.2 ⟨hfault, rfl⟩)⟩

end Marked

/-! ## Growing -/

/-- What a surface needs before a topology is built on it: default groups for the root and for
resources, and a directory for the root. -/
structure Prepared (base : Surface) (root : Path) : Prop where
  vacant : base.Vacant root.location
  parent : ∃ dir, root.location.parent? = some dir ∧ base.dirAt dir
  groupsFor_root : base.groupsFor root.location = ResourceKind.all.map ResourceKind.group
  groupsFor_node : ∀ node, base.groupsFor (Graph.nodePath root node).location =
    node.kind.targets.map ResourceKind.linkGroup

theorem Prepared.root_ne_nil (h : Prepared base root) : root.location ≠ [] := by
  obtain ⟨dir, hdir, -⟩ := h.parent
  intro hn
  simp [hn] at hdir

/-- A surface with the entries, groups and pins of a prepared one is prepared. -/
theorem Prepared.congr (h : Prepared base root) (hentries : s.entries.entries = base.entries.entries)
    (hgroups : s.groups = base.groups) (hpinned : s.pinned = base.pinned) : Prepared s root := by
  obtain ⟨dir, hdir, hparent⟩ := h.parent
  have hfind := PathMap.find?_congr (PathMap.entries_eq_iff.1 hentries dir)
  refine ⟨h.vacant.congr hentries hgroups hpinned, ⟨dir, hdir, ?_⟩, ?_, fun node => ?_⟩
  · rw [dirAt_congr hfind, hparent]
  · rw [groupsFor_congr hgroups, h.groupsFor_root]
  · rw [groupsFor_congr hgroups, h.groupsFor_node]

/-- A surface on which operations have been carried out, from the making of the root on. -/
structure Grown (base : Surface) (root : Path) (done : List GraphOp) (s : Surface) : Prop where
  tree : s.IsTree
  groups : s.groups = base.groups
  failures : s.failures = base.failures
  find? : ∀ l e, l.within root.location → (s.entries.find? l = some e ↔ Shown root done l e)
  outside : ∀ l, l.within root.location = false → s.entries.slot? l = base.entries.slot? l

namespace Grown

theorem find?_of_shown (h : Grown base root done s) (hl : Shown root done l e) :
    s.entries.find? l = some e := (h.find? l e hl.within).2 hl

theorem find?_eq_none (h : Grown base root done s) (hw : l.within root.location)
    (hl : ∀ e, ¬Shown root done l e) : s.entries.find? l = none := by
  refine Option.eq_none_iff_forall_ne_some.2 fun e he => hl e ?_
  exact (h.find? l e hw).1 he

/-- A surface with just what an operation adds has grown by it. -/
theorem of_added (h : Grown base root done s) (ht : t.IsTree) (hgroups : t.groups = s.groups)
    (hfailures : t.failures = s.failures)
    (hfind : ∀ l e, t.entries.find? l = some e ↔ s.entries.find? l = some e ∨ Added root op l e)
    (hout : ∀ l, l.within root.location = false → t.entries.slot? l = s.entries.slot? l) :
    Grown base root (done ++ [op]) t := by
  refine ⟨ht, hgroups.trans h.groups, hfailures.trans h.failures, fun l e hw => ?_,
    fun l hl => (hout l hl).trans (h.outside l hl)⟩
  rw [hfind, h.find? l e hw, shown_append_iff]

/-- What is put at a new place is what an operation adds there, if it adds nothing else. -/
theorem of_insert (h : Grown base root done s) (hnew : ∀ other ∈ done, other.place ≠ op.place)
    (honly : ∀ l e, Added root op l e → l = (op.path root).location ∧ e = op.entry root)
    (htree : t.IsTree)
    (ht : t = { s with
      entries := s.entries.insert (op.path root) (op.entry root), mutations := s.mutations + 1 }) :
    Grown base root (done ++ [op]) t := by
  have hw : (op.path root).location.within root.location := (Added.entry op).within
  have hfree := h.find?_eq_none hw fun e => not_shown_of_new _ hnew
  refine h.of_added htree (by rw [ht]) (by rw [ht]) (fun l e => ?_) fun l hl => ?_
  · rw [ht, PathMap.find?_insert_eq_some_iff hfree]
    refine or_congr_right ⟨?_, honly l e⟩
    rintro ⟨rfl, rfl⟩
    exact .entry op
  · rw [ht]
    refine PathMap.slot?_insert_of_ne fun heq => ?_
    rw [heq, hw] at hl
    contradiction

/-- Making a node adds its directory and the directories for its links. -/
theorem createNode (h : Grown base root done s) (hb : Prepared base root) {node : NodeId}
    (hc : s.createDir (Graph.nodePath root node) = .ok t) :
    Grown base root (done ++ [.createNode node]) t := by
  have hplain : s.PlainGroups := hb.vacant.groups.congr h.groups
  have hw : (Graph.nodePath root node).location.within root.location :=
    (Added.entry (.createNode node)).within
  have hgroups : s.groupsFor (Graph.nodePath root node).location =
      node.kind.targets.map ResourceKind.linkGroup := by
    rw [groupsFor_congr h.groups, hb.groupsFor_node]
  have hcongr := (createDir_eq_ok_iff.1 hc).2
  refine h.of_added (h.tree.createDir hplain hc) (by rw [hcongr]) (by rw [hcongr])
    (fun l e => ?_) fun l hl => slot?_createDir hplain hc (Bool.eq_false_iff.2 fun hwl => ?_)
  · rw [find?_createDir_eq_some_iff hplain h.tree hc hgroups, added_createNode_iff]
    rfl
  · rw [within_trans hwl hw] at hl
    contradiction

/-- The directory of a node that was made is there. -/
theorem dirAt_node (h : Grown base root done s) {node : NodeId}
    (hnode : .createNode node ∈ done) : s.dirAt (Graph.nodePath root node).location :=
  dirAt_of_find? (h.find?_of_shown (.added hnode (.entry (.createNode node))))

/-- The directory for links to a kind is there with a node that routes to it. -/
theorem dirAt_linkDir (h : Grown base root done s) {node : NodeId} {kind : ResourceKind}
    (hnode : .createNode node ∈ done) (hroute : node.kind.routesTo kind) :
    s.dirAt (Graph.linkDir root node kind).location := by
  have hkind : kind ∈ node.kind.targets := List.mem_filter.2 ⟨kind.mem_all, hroute⟩
  exact dirAt_of_find? (h.find?_of_shown (.added hnode (.linkDir node kind hkind)))

theorem writeAttr (h : Grown base root done s) {node : NodeId} {attr : String} {data : Bytes}
    (hnode : .createNode node ∈ done) (hnew : ∀ other ∈ done, other.place ≠ op.place)
    (hattr : Path.IsName attr) (hpath : op.path root = Graph.attrPath root node attr)
    (hentry : op.entry root = .file data)
    (honly : ∀ l e, Added root op l e → l = (op.path root).location ∧ e = op.entry root) :
    Marked s .write (op.path root) (Grown base root (done ++ [op]))
      (Graph.writeAttr root node attr data s) := by
  have hparent : (op.path root).location.parent? = some (Graph.nodePath root node).location := by
    rw [hpath, Graph.parent?_attrPath root node hattr]
  have hfree := h.find?_eq_none (Added.entry op).within fun e => not_shown_of_new _ hnew
  rw [Graph.writeAttr, ← hpath]
  refine Marked.write hfree ⟨_, hparent, h.dirAt_node hnode⟩ fun t hw => ?_
  refine h.of_insert hnew honly (h.tree.write hw) ?_
  rw [hentry]
  exact (write_eq_ok_iff.1 hw).2

/-- Between nodes that were made, only the link itself is left to be laid. -/
theorem link_eq_perform (h : Grown base root done s) {src dst : NodeId}
    (hroute : src.kind.routesTo dst.kind) (hsrc : .createNode src ∈ done)
    (hdst : .createNode dst ∈ done) :
    Graph.link root src dst s =
      Graph.perform .link (Graph.linkPath root src dst) s
        (s.createLink (Graph.nodePath root dst) (Graph.linkPath root src dst)) :=
  Graph.link_of_isDir hroute (h.dirAt_node hsrc) (h.dirAt_node hdst) (h.dirAt_linkDir hsrc hroute)

theorem link (h : Grown base root done s) {src dst : NodeId}
    (hroute : src.kind.routesTo dst.kind) (hsrc : .createNode src ∈ done)
    (hdst : .createNode dst ∈ done)
    (hnew : ∀ other ∈ done, other.place ≠ (GraphOp.link src dst).place) :
    Marked s .link (Graph.linkPath root src dst) (Grown base root (done ++ [.link src dst]))
      (Graph.link root src dst s) := by
  have hdir : s.isDir (Graph.linkDir root src dst.kind) := h.dirAt_linkDir hsrc hroute
  have hfree := h.find?_eq_none (Added.entry (.link src dst)).within fun e =>
    not_shown_of_new _ hnew
  rw [h.link_eq_perform hroute hsrc hdst]
  refine Marked.createLink hfree ⟨_, Graph.parent?_linkPath root src dst, hdir⟩ fun t hc => ?_
  refine h.of_insert hnew (fun l e hadd => ?_) (h.tree.createLink hc) (createLink_eq_ok_iff.1 hc).2
  cases hadd with
  | entry => exact ⟨rfl, rfl⟩

/-- **Step.** An operation whose nodes are there and whose place is new fails with the mark at its
path, and otherwise adds its entry. -/
theorem apply (h : Grown base root done s) (hb : Prepared base root)
    (hroute : op.unroutable = false) (hnodes : ∀ node ∈ op.requires, .createNode node ∈ done)
    (hnew : ∀ other ∈ done, other.place ≠ op.place) :
    Marked s op.task (op.path root) (Grown base root (done ++ [op])) (Graph.apply root op s) := by
  cases op with
  | createNode node =>
    have hparent := Graph.parent?_nodePath root node
    have hgroup := h.find?_of_shown (.group node.kind)
    have hfree := h.find?_eq_none (Added.entry (.createNode node)).within fun e =>
      not_shown_of_new _ hnew
    exact Marked.createDir hfree ⟨_, hparent, dirAt_of_find? hgroup⟩ fun t hc =>
      h.createNode hb hc
  | link src dst =>
    refine h.link (by simpa [GraphOp.unroutable] using hroute) (hnodes src ?_) (hnodes dst ?_) hnew
    · simp [GraphOp.requires]
    · simp [GraphOp.requires]
  | setEdid connector monitor =>
    rw [Graph.apply, Graph.setEdid, if_neg monitor.edid_ne_nil]
    refine h.writeAttr (hnodes _ List.mem_cons_self) hnew (by decide) rfl rfl fun l e hadd => ?_
    cases hadd with
    | entry => exact ⟨rfl, rfl⟩
  | setStatus | setConnectorType | setPlaneType | setPlaneFormat =>
    refine h.writeAttr (hnodes _ List.mem_cons_self) hnew (by decide) rfl rfl fun l e hadd => ?_
    cases hadd with
    | entry => exact ⟨rfl, rfl⟩

/-- Switching the topology on adds its switch. -/
theorem setEnabled (h : Grown base root done s) :
    Marked s .write (Graph.enabledPath root)
      (fun t => (∀ l e, l.within root.location → (t.entries.find? l = some e ↔
          Shown root done l e ∨
            l = (Graph.enabledPath root).location ∧ e = .file (Bytes.encode "1"))) ∧
        ∀ l, l.within root.location = false → t.entries.slot? l = base.entries.slot? l)
      (Graph.setEnabled root true s) := by
  have hparent := Graph.parent?_enabledPath root
  have hw := Graph.within_enabledPath root
  have hfree := h.find?_eq_none hw fun e => not_shown_enabled
  refine Marked.write hfree ⟨_, hparent, dirAt_of_find? (h.find?_of_shown .root)⟩ fun t hwrite => ?_
  refine ⟨fun l e hl => ?_, fun l hl => ?_⟩
  · rw [(write_eq_ok_iff.1 hwrite).2, PathMap.find?_insert_eq_some_iff hfree, h.find? l e hl]
    rfl
  · rw [slot?_write hwrite, h.outside l hl]
    rintro rfl
    rw [hw] at hl
    contradiction

end Grown

/-- Making the root of a prepared surface shows the root and its groups. -/
theorem Prepared.createRoot (hb : Prepared base root) :
    Marked base .create root (Grown base root []) (Graph.createRoot root base) := by
  have hplain := hb.vacant.groups
  refine Marked.createDir hb.vacant.free hb.parent fun t hc => ?_
  have hcongr := (createDir_eq_ok_iff.1 hc).2
  refine ⟨hb.vacant.tree.createDir hplain hc, by rw [hcongr], by rw [hcongr], fun l e hw => ?_,
    fun l hl => slot?_createDir hplain hc hl⟩
  have hnone := hb.vacant.find?_eq_none hb.root_ne_nil hw
  rw [find?_createDir_eq_some_iff hplain hb.vacant.tree hc hb.groupsFor_root, hnone,
    shown_nil_iff]
  simp [ResourceKind.mem_all]

/-- The driver's surface is prepared for a topology, whatever is marked to fail. -/
theorem prepared_ofDriver {dir : Path} (h : root.parent? = some dir) (failures : PathMap Errno) :
    Prepared { ofDriver root with failures := failures } root := by
  obtain ⟨tree, groups, free, unpinned, untargeted⟩ := vacant_ofDriver h
  obtain ⟨c, hc, hloc⟩ := exists_location_of_parent? h
  refine ⟨⟨tree, groups, free, unpinned, untargeted⟩,
    ⟨dir.location, parent?_eq_some_iff.2 ⟨c, hc, hloc⟩, ?_⟩, groupsFor_ofDriver_root h,
    groupsFor_ofDriver_node h⟩
  refine dirAt_iff.2 ⟨.kernel, ?_⟩
  show (ofDriver root).entries.find? dir.location = _
  rw [find?_ofDriver h, if_pos]
  refine .inr ⟨List.prefix_refl _, fun habs hnil => ?_⟩
  rw [Path.isAbsolute, hnil] at habs
  simp at habs

end DisplayTopology
