import DisplayTopology.Proofs.Topology.Growth
import Mathlib.Data.List.Induction

/-!
# Carrying out a plan

What a plan admits can be carried out. On the driver's surface, once the root is made, the
operations of a plan fail only where they make a node or lay a link a second time: all of them go
through exactly when no node and no link occurs twice, and otherwise the first that occurs again
fails, because something is there already (`flush_ofCalls`).

An attribute may be written any number of times. So what is shown after operations is what is shown
after those of them that were not overwritten (`Grown.rewrite`); every operation that makes
something is among these.
-/

namespace DisplayTopology

open Location Surface

/-! ## Plans made by calls -/

/-- One call that adds to a plan. -/
inductive PlanCall where
  | addNode (node : NodeId)
  | push (op : GraphOp)
  deriving DecidableEq

/-- The plan after a call; one that is rejected leaves the plan as it was. -/
def PlanCall.run (plan : Plan) : PlanCall → Plan
  | addNode node => plan.addNode node
  | push op =>
    match plan.push op with
    | .ok next => next
    | .error _ => plan

/-- The plan that calls make from the plan without operations. -/
def Plan.ofCalls (calls : List PlanCall) : Plan := calls.foldl PlanCall.run .empty

/-- A call keeps a plan sound. -/
theorem Plan.Sound.run {plan : Plan} (h : plan.Sound) (call : PlanCall) :
    (call.run plan).Sound := by
  cases call with
  | addNode node => exact (extends_addNode plan node).sound h
  | push op =>
    rw [PlanCall.run]
    split
    · rename_i next hnext
      exact (extends_push hnext).sound h
    · exact h

theorem Plan.sound_ofCalls (calls : List PlanCall) : (Plan.ofCalls calls).Sound := by
  have key {plan : Plan} (h : plan.Sound) : (calls.foldl PlanCall.run plan).Sound := by
    induction calls generalizing plan with
    | nil => exact h
    | cons call calls ih => exact ih (h.run call)
  exact key sound_empty

namespace GraphOp

/-- The link that an operation lays. -/
def linked? : GraphOp → Option (NodeId × NodeId)
  | link src dst => some (src, dst)
  | _ => none

/-- No node and no link occurs twice among operations. -/
def Distinct (ops : List GraphOp) : Prop :=
  (ops.filterMap created?).Nodup ∧ (ops.filterMap linked?).Nodup

/-- An operation makes a node or lays a link that occurs before. -/
inductive Repeats (done : List GraphOp) : GraphOp → Prop where
  | node {node : NodeId} (h : .createNode node ∈ done) : Repeats done (createNode node)
  | link {src dst : NodeId} (h : .link src dst ∈ done) : Repeats done (link src dst)

variable {ops done : List GraphOp} {op other : GraphOp}

theorem mem_filterMap_linked_iff {src dst : NodeId} :
    (src, dst) ∈ ops.filterMap linked? ↔ .link src dst ∈ ops := by
  rw [List.mem_filterMap]
  constructor
  · rintro ⟨op, hop, hlink⟩
    cases op with
    | link a b =>
      obtain ⟨rfl, rfl⟩ := Prod.mk.inj (Option.some.inj hlink)
      exact hop
    | createNode | setStatus | setConnectorType | setEdid | setPlaneType | setPlaneFormat =>
      simp [linked?] at hlink
  · exact fun hop => ⟨_, hop, rfl⟩

theorem nodup_filterMap_append_singleton_iff {α : Type} (pick : GraphOp → Option α) :
    ((done ++ [op]).filterMap pick).Nodup ↔
      (done.filterMap pick).Nodup ∧ ∀ a, pick op = some a → a ∉ done.filterMap pick := by
  rw [List.filterMap_append]
  cases hpick : pick op with
  | none => simp [hpick]
  | some a =>
    rw [List.filterMap_cons_some hpick, List.filterMap_nil, List.nodup_append]
    refine and_congr_right fun _ => ⟨?_, fun h => ⟨List.pairwise_singleton .., ?_⟩⟩
    · rintro ⟨-, h⟩ b hb hmem
      exact h b hmem a (List.mem_singleton_self a) (Option.some.inj hb).symm
    · rintro b hb c hc rfl
      exact h b (congrArg some (List.mem_singleton.1 hc).symm) hb

/-- One more operation keeps operations distinct unless it repeats one of them. -/
theorem distinct_append_singleton_iff :
    Distinct (done ++ [op]) ↔ Distinct done ∧ ¬Repeats done op := by
  have hrepeats : ¬Repeats done op ↔
      (∀ node, op.created? = some node → node ∉ done.filterMap created?) ∧
        ∀ ends, op.linked? = some ends → ends ∉ done.filterMap linked? := by
    cases op with
    | createNode node =>
      have hnode : Repeats done (createNode node) ↔ .createNode node ∈ done :=
        ⟨fun h => by cases h with | node h => exact h, .node⟩
      simp [hnode, created?, linked?, ← mem_filterMap_created_iff]
    | link src dst =>
      have hlink : Repeats done (link src dst) ↔ .link src dst ∈ done :=
        ⟨fun h => by cases h with | link h => exact h, .link⟩
      simp [hlink, created?, linked?, ← mem_filterMap_linked_iff]
    | setStatus | setConnectorType | setEdid | setPlaneType | setPlaneFormat =>
      refine iff_of_true (fun h => by cases h) ⟨fun node h => ?_, fun ends h => ?_⟩
      · simp [created?] at h
      · simp [linked?] at h
  rw [hrepeats, Distinct, Distinct, nodup_filterMap_append_singleton_iff,
    nodup_filterMap_append_singleton_iff]
  exact and_and_and_comm

theorem Distinct.of_append {more : List GraphOp} (h : Distinct (ops ++ more)) : Distinct ops := by
  rw [Distinct, List.filterMap_append, List.filterMap_append] at h
  exact ⟨(List.nodup_append.1 h.1).1, (List.nodup_append.1 h.2).1⟩

/-- Among operations that are not distinct, one is the first that repeats another. -/
theorem exists_repeats (h : ¬Distinct ops) :
    ∃ front op back, ops = front ++ op :: back ∧ Distinct front ∧ Repeats front op := by
  induction ops using List.reverseRecOn with
  | nil => exact absurd ⟨List.nodup_nil, List.nodup_nil⟩ h
  | append_singleton ops op ih =>
    by_cases hd : Distinct ops
    · refine ⟨ops, op, [], rfl, hd, Classical.byContradiction fun hr => h ?_⟩
      exact distinct_append_singleton_iff.2 ⟨hd, hr⟩
    · obtain ⟨front, first, back, rfl, hfront, hfirst⟩ := ih hd
      exact ⟨front, first, back ++ [op], by simp, hfront, hfirst⟩

/-! ## Operations that write and operations that make -/

theorem task_eq_write_iff : op.task = .write ↔ op.suffix.length = 1 := by
  cases op <;> simp [task, suffix]

/-- What acts in the place of an operation that writes is one that writes. -/
theorem task_of_place_eq (h : other.place = op.place) : other.task = .write ↔ op.task = .write := by
  rw [task_eq_write_iff, task_eq_write_iff, (Resource.place_inj h).2]

/-- An operation that makes something is the only one in its place. -/
theorem eq_of_place_eq (h : other.place = op.place) (hop : op.task ≠ .write) : other = op := by
  have hother : other.task ≠ .write := fun hw => hop ((task_of_place_eq h).1 hw)
  obtain ⟨hsubject, hsuffix⟩ := Resource.place_inj h
  cases op with
  | createNode node =>
    cases other with
    | createNode => exact congrArg createNode hsubject
    | link => simp [suffix] at hsuffix
    | setStatus | setConnectorType | setEdid | setPlaneType | setPlaneFormat => simp [task] at hother
  | link src dst =>
    cases other with
    | createNode => simp [suffix] at hsuffix
    | link a b =>
      obtain ⟨hgroup, hname⟩ : b.kind.linkGroup = dst.kind.linkGroup ∧ b.name = dst.name := by
        simpa [suffix] using hsuffix
      rw [show a = src from hsubject, NodeId.eq_of_linkGroup_of_name hgroup hname]
    | setStatus | setConnectorType | setEdid | setPlaneType | setPlaneFormat => simp [task] at hother
  | setStatus | setConnectorType | setEdid | setPlaneType | setPlaneFormat => simp [task] at hop

/-- An operation that makes something repeats an operation exactly if it is one of them. -/
theorem repeats_iff_mem (hop : op.task ≠ .write) : Repeats done op ↔ op ∈ done := by
  constructor
  · intro h
    cases h with
    | node h | link h => exact h
  · intro h
    cases op with
    | createNode => exact .node h
    | link => exact .link h
    | setStatus | setConnectorType | setEdid | setPlaneType | setPlaneFormat => simp [task] at hop

theorem Repeats.task_ne_write (h : Repeats done op) : op.task ≠ .write := by
  cases h with
  | node | link => simp [task]

/-- An operation that writes an attribute of its subject, whatever the surface. -/
theorem exists_writeAttr (root : Path) (h : op.task = .write) :
    ∃ attr data, Path.IsName attr ∧ op.subject ∈ op.requires ∧
      op.path root = Graph.attrPath root op.subject attr ∧ op.entry root = .file data ∧
      ∀ s, Graph.apply root op s = Graph.writeAttr root op.subject attr data s := by
  cases op with
  | createNode | link => simp [task] at h
  | setEdid connector monitor =>
    refine ⟨"edid", monitor.edid, by decide, List.mem_cons_self, rfl, rfl, fun s => ?_⟩
    rw [Graph.apply, Graph.setEdid, if_neg monitor.edid_ne_nil]
    rfl
  | setStatus | setConnectorType | setPlaneType | setPlaneFormat =>
    exact ⟨_, _, by decide, List.mem_cons_self, rfl, rfl, fun _ => rfl⟩

end GraphOp

/-! ## Writing again -/

variable {base s t : Surface} {root : Path} {done kept ops : List GraphOp} {op : GraphOp}
  {l : Location} {e : Entry}

theorem Shown.mono {more : List GraphOp} (h : Shown root done l e) (hsub : done ⊆ more) :
    Shown root more l e := by
  cases h with
  | root => exact .root
  | group kind => exact .group kind
  | added hop h => exact .added (hsub hop) h

theorem added_write_iff (hop : op.task = .write) :
    Added root op l e ↔ l = (op.path root).location ∧ e = op.entry root := by
  constructor
  · intro h
    cases h with
    | entry => exact ⟨rfl, rfl⟩
    | linkDir => simp [GraphOp.task] at hop
  · rintro ⟨rfl, rfl⟩
    exact .entry op

theorem GraphOp.location_eq_of_place_eq {other : GraphOp} (h : other.place = op.place) :
    (other.path root).location = (op.path root).location := by
  rw [Graph.location_path, Graph.location_path, h]

/-- The operations that do not act in the place of another. -/
def GraphOp.elsewhere (op : GraphOp) (ops : List GraphOp) : List GraphOp :=
  ops.filter fun other => other.place ≠ op.place

theorem GraphOp.mem_elsewhere_iff {other : GraphOp} :
    other ∈ op.elsewhere ops ↔ other ∈ ops ∧ other.place ≠ op.place := by
  simp [elsewhere]

/-- Where an operation writes, the operations before it show a file if they show anything, and the
others show nothing. -/
theorem shown_elsewhere_iff (hop : op.task = .write) :
    Shown root (op.elsewhere done) l e ↔ Shown root done l e ∧ l ≠ (op.path root).location := by
  constructor
  · refine fun h => ⟨h.mono fun other hother => (GraphOp.mem_elsewhere_iff.1 hother).1, ?_⟩
    rintro rfl
    exact not_shown_of_new op (fun other hother => (GraphOp.mem_elsewhere_iff.1 hother).2) h
  · rintro ⟨h, hl⟩
    cases h with
    | root => exact .root
    | group kind => exact .group kind
    | @added other _ _ hother h =>
      refine .added (GraphOp.mem_elsewhere_iff.2 ⟨hother, fun hplace => hl ?_⟩) h
      obtain ⟨rfl, -⟩ := (added_write_iff ((GraphOp.task_of_place_eq hplace).2 hop)).1 h
      exact GraphOp.location_eq_of_place_eq hplace

theorem Shown.exists_file (hop : op.task = .write) (h : Shown root done (op.path root).location e) :
    ∃ data, e = .file data := by
  have hnot : ¬Shown root (op.elsewhere done) (op.path root).location e :=
    fun h => ((shown_elsewhere_iff hop).1 h).2 rfl
  generalize hl : (op.path root).location = l at h hnot
  cases h with
  | root => exact absurd .root hnot
  | group kind => exact absurd (.group kind) hnot
  | @added other _ _ hother h =>
    by_cases hplace : other.place = op.place
    · have hwrite := (GraphOp.task_of_place_eq hplace).2 hop
      obtain ⟨-, rfl⟩ := (added_write_iff hwrite).1 h
      obtain ⟨attr, data, -, -, -, hentry, -⟩ := GraphOp.exists_writeAttr root hwrite
      exact ⟨data, hentry⟩
    · exact absurd (.added (GraphOp.mem_elsewhere_iff.2 ⟨hother, hplace⟩) h) hnot

namespace Grown

/-- Writing an attribute shows it in place of what was written there before. -/
theorem rewrite (h : Grown base root done s) (hop : op.task = .write)
    (hmark : base.failures.find? (op.path root).location = none)
    (hnodes : ∀ node ∈ op.requires, .createNode node ∈ done) :
    ∃ t, Graph.apply root op s = (.ok (), t) ∧ Grown base root (op.elsewhere done ++ [op]) t := by
  obtain ⟨attr, data, hname, hsubject, hpath, hentry, happly⟩ := GraphOp.exists_writeAttr root hop
  have hparent : (op.path root).location.parent? =
      some (Graph.nodePath root op.subject).location := by
    rw [hpath, Graph.parent?_attrPath root op.subject hname]
  have hdir : s.dirAt (op.path root).location = false := by
    refine Bool.eq_false_iff.2 fun hd => ?_
    obtain ⟨owner, ho⟩ := dirAt_iff.1 hd
    obtain ⟨data, hdata⟩ := ((h.find? _ _ (Added.entry op).within).1 ho).exists_file hop
    simp at hdata
  have hfault := writeFault?_eq_none_iff.2
    ⟨h.failures ▸ hmark, hdir, _, hparent, h.dirAt_node (hnodes _ hsubject)⟩
  have hwrite : s.write (op.path root) data = .ok _ := write_eq_ok_iff.2 ⟨hfault, rfl⟩
  refine ⟨_, ?_, h.tree.write hwrite, h.groups, h.failures, fun l e hw => ?_, fun l hl => ?_⟩
  · rw [happly, Graph.writeAttr, ← hpath, hwrite, Graph.perform]
  · rw [shown_append_iff, shown_elsewhere_iff hop, added_write_iff hop, find?_of_write hwrite,
      hentry]
    by_cases hl : l = (op.path root).location
    · simp [hl, eq_comm (a := e)]
    · rw [if_neg (Ne.symm hl), h.find? l e hw]
      simp [hl]
  · rw [slot?_write hwrite, h.outside l hl]
    rintro rfl
    rw [(Added.entry op).within] at hl
    contradiction

/-- Making something that is shown fails, because something is there already. -/
theorem apply_again (h : Grown base root done s) (hop : op ∈ done) (hmake : op.task ≠ .write)
    (hmark : base.failures.find? (op.path root).location = none) (hroute : op.unroutable = false)
    (hnodes : ∀ node ∈ op.requires, .createNode node ∈ done) :
    Graph.apply root op s = (.error (.resource op.task (op.path root) .eexist), s) := by
  have hthere := contains_of_find? (h.find?_of_shown (.added hop (.entry op)))
  have hfault : s.creationFault? (op.path root).location = some .eexist := by
    simp [creationFault?, h.failures, hmark, hthere]
  cases op with
  | createNode node =>
    have hc : s.createDir (Graph.nodePath root node) = .error .eexist := by
      rw [createDir, show s.creationFault? (Graph.nodePath root node).location = _ from hfault]
    rw [Graph.apply, Graph.createNode, hc]
    rfl
  | link src dst =>
    have hsrc : .createNode src ∈ done := hnodes src (by simp [GraphOp.requires])
    have hdst : .createNode dst ∈ done := hnodes dst (by simp [GraphOp.requires])
    have hroute : src.kind.routesTo dst.kind := by simpa [GraphOp.unroutable] using hroute
    have hc : s.createLink (Graph.nodePath root dst) (Graph.linkPath root src dst) =
        .error .eexist := by
      rw [createLink, show s.creationFault? (Graph.linkPath root src dst).location = _ from hfault]
    rw [Graph.apply, h.link_eq_perform hroute hsrc hdst, hc]
    rfl
  | setStatus | setConnectorType | setEdid | setPlaneType | setPlaneFormat =>
    simp [GraphOp.task] at hmake

end Grown

/-! ## Carrying out operations -/

/-- A surface after operations that all went through: it shows those that were not overwritten. -/
def Flushed (base : Surface) (root : Path) (done : List GraphOp) (s : Surface) : Prop :=
  ∃ kept, Grown base root kept s ∧ kept ⊆ done ∧ ∀ op ∈ done, op.task ≠ .write → op ∈ kept

namespace Flushed

/-- **Step.** An operation that repeats nothing goes through. -/
theorem apply (h : Flushed base root done s) (hb : Prepared base root)
    (hmarks : ∀ l, base.failures.find? l = none) (hroute : op.unroutable = false)
    (hnodes : ∀ node ∈ op.requires, .createNode node ∈ done) (hnew : ¬GraphOp.Repeats done op) :
    ∃ t, Graph.apply root op s = (.ok (), t) ∧ Flushed base root (done ++ [op]) t := by
  obtain ⟨kept, hgrown, hsub, hmade⟩ := h
  have hthere : ∀ node ∈ op.requires, .createNode node ∈ kept :=
    fun node hn => hmade _ (hnodes node hn) (by simp [GraphOp.task])
  by_cases hop : op.task = .write
  · obtain ⟨t, ht, hwritten⟩ := hgrown.rewrite hop (hmarks _) hthere
    refine ⟨t, ht, _, hwritten, fun other hother => ?_, fun other hother hmake => ?_⟩
    · rcases List.mem_append.1 hother with hother | hother
      · exact List.mem_append_left _ (hsub (GraphOp.mem_elsewhere_iff.1 hother).1)
      · exact List.mem_append_right _ hother
    · rcases List.mem_append.1 hother with hother | hother
      · refine List.mem_append_left _ (GraphOp.mem_elsewhere_iff.2 ⟨hmade _ hother hmake, ?_⟩)
        exact fun hplace => hmake ((GraphOp.task_of_place_eq hplace).2 hop)
      · exact List.mem_append_right _ hother
  · have hplaces : ∀ other ∈ kept, other.place ≠ op.place := by
      intro other hother hplace
      obtain rfl := GraphOp.eq_of_place_eq hplace hop
      exact hnew ((GraphOp.repeats_iff_mem hop).2 (hsub hother))
    have hmark : s.failures.find? (op.path root).location = none := hgrown.failures ▸ hmarks _
    obtain ⟨t, ht, hadded⟩ := (hgrown.apply hb hroute hthere hplaces).ok hmark
    refine ⟨t, ht, _, hadded, fun other hother => ?_, fun other hother hmake => ?_⟩
    · rcases List.mem_append.1 hother with hother | hother
      · exact List.mem_append_left _ (hsub hother)
      · exact List.mem_append_right _ hother
    · rcases List.mem_append.1 hother with hother | hother
      · exact List.mem_append_left _ (hmade _ hother hmake)
      · exact List.mem_append_right _ hother

/-- An operation that repeats another fails, because something is there already. -/
theorem apply_repeated (h : Flushed base root done s)
    (hmarks : ∀ l, base.failures.find? l = none) (hroute : op.unroutable = false)
    (hnodes : ∀ node ∈ op.requires, .createNode node ∈ done) (hop : GraphOp.Repeats done op) :
    Graph.apply root op s = (.error (.resource op.task (op.path root) .eexist), s) := by
  obtain ⟨kept, hgrown, -, hmade⟩ := h
  have hmake := hop.task_ne_write
  refine hgrown.apply_again (hmade _ ((GraphOp.repeats_iff_mem hmake).1 hop) hmake) hmake
    (hmarks _) hroute fun node hn => hmade _ (hnodes node hn) (by simp [GraphOp.task])

/-- **Run.** Operations that repeat nothing, in an order in which they are admissible, all go
through. -/
theorem applyAll (h : Flushed base root done s) (hb : Prepared base root)
    (hmarks : ∀ l, base.failures.find? l = none)
    (hadm : GraphOp.Admissible (done.filterMap GraphOp.created?) ops)
    (hdistinct : GraphOp.Distinct (done ++ ops)) :
    ∃ t, Graph.applyAll root ops s = (.ok (), t) ∧ Flushed base root (done ++ ops) t := by
  induction ops generalizing done s with
  | nil => exact ⟨s, rfl, by rwa [List.append_nil]⟩
  | cons op ops ih =>
    obtain ⟨⟨hroute, hnodes⟩, hrest⟩ := hadm
    have hassoc : done ++ op :: ops = done ++ [op] ++ ops := by simp
    have hcreated : (done ++ [op]).filterMap GraphOp.created? =
        done.filterMap GraphOp.created? ++ op.created?.toList := by
      cases hc : op.created? <;> simp [hc]
    rw [hassoc] at hdistinct
    have hnew := (GraphOp.distinct_append_singleton_iff.1 hdistinct.of_append).2
    obtain ⟨t, ht, hflushed⟩ := h.apply hb hmarks hroute
      (fun node hn => GraphOp.mem_filterMap_created_iff.1 (hnodes node hn)) hnew
    obtain ⟨u, hu, hall⟩ := ih hflushed (hcreated ▸ hrest) hdistinct
    exact ⟨u, by rw [Graph.applyAll, ht]; exact hu, hassoc ▸ hall⟩

end Flushed

/-- How the operations of a plan go when they are carried out on a surface in order. -/
structure Flushes (root : Path) (plan : Plan) (made : Surface) : Prop where
  /-- They all go through exactly when no node is made twice and no link is laid twice. -/
  ok_iff : (Graph.applyAll root plan.ops.toList made).1 = .ok () ↔ GraphOp.Distinct plan.ops.toList
  /-- Otherwise those before the first that repeats another go through, and it fails. -/
  fails : ¬GraphOp.Distinct plan.ops.toList → ∃ front op back t,
    plan.ops.toList = front ++ op :: back ∧ GraphOp.Distinct front ∧ GraphOp.Repeats front op ∧
      Graph.applyAll root front made = (.ok (), t) ∧
      Graph.apply root op t = (.error (.resource op.task (op.path root) .eexist), t) ∧
      Graph.applyAll root plan.ops.toList made =
        (.error (.resource op.task (op.path root) .eexist), t)

/-- A sound plan is carried out on a prepared surface up to the first operation that repeats
another. -/
theorem Prepared.flushes {plan : Plan} {made : Surface} (hb : Prepared base root)
    (hmarks : ∀ l, base.failures.find? l = none) (hplan : plan.Sound)
    (hmade : Grown base root [] made) : Flushes root plan made := by
  have hstart : Flushed base root [] made := ⟨[], hmade, fun _ h => h, by simp⟩
  have hfails : ¬GraphOp.Distinct plan.ops.toList → ∃ front op back t,
      plan.ops.toList = front ++ op :: back ∧ GraphOp.Distinct front ∧ GraphOp.Repeats front op ∧
        Graph.applyAll root front made = (.ok (), t) ∧
        Graph.apply root op t = (.error (.resource op.task (op.path root) .eexist), t) ∧
        Graph.applyAll root plan.ops.toList made =
          (.error (.resource op.task (op.path root) .eexist), t) := by
    intro hnot
    obtain ⟨front, op, back, hops, hdistinct, hrepeats⟩ := GraphOp.exists_repeats hnot
    have hadm := hplan.admissible
    rw [hops, GraphOp.admissible_append] at hadm
    obtain ⟨hfront, ⟨hroute, hnodes⟩, -⟩ := hadm
    obtain ⟨t, ht, hflushed⟩ := hstart.applyAll hb hmarks hfront hdistinct
    have hop := hflushed.apply_repeated hmarks hroute
      (fun node hn => GraphOp.mem_filterMap_created_iff.1 (hnodes node hn)) hrepeats
    refine ⟨front, op, back, t, hops, hdistinct, hrepeats, ht, hop, ?_⟩
    rw [hops, Graph.applyAll_append, ht]
    simp only [Graph.applyAll, hop]
  refine ⟨⟨fun hok => ?_, fun hdistinct => ?_⟩, hfails⟩
  · refine Classical.byContradiction fun hnot => ?_
    obtain ⟨front, op, back, t, -, -, -, -, -, hall⟩ := hfails hnot
    rw [hall] at hok
    simp at hok
  · obtain ⟨t, ht, -⟩ := hstart.applyAll hb hmarks hplan.admissible hdistinct
    rw [ht]

/-- **The dependency check of plans is sound.** On the driver's surface for a root that has a
parent, the root can be made, and then the operations of a plan that calls made go through up to the
first that makes a node or lays a link again. -/
theorem flush_ofCalls (calls : List PlanCall) (root : Path) (h : root.parent?.isSome) :
    ∃ made, Graph.createRoot root (.ofDriver root) = (.ok (), made) ∧
      Flushes root (.ofCalls calls) made := by
  obtain ⟨dir, hdir⟩ := Option.isSome_iff_exists.1 h
  have hfailures : (Surface.ofDriver root).failures = .empty := by
    rw [Surface.ofDriver, hdir]
    rfl
  have hmarks : ∀ l, (Surface.ofDriver root).failures.find? l = none := by
    intro l
    rw [hfailures, PathMap.find?_empty]
  have hb : Prepared (Surface.ofDriver root) root :=
    prepared_ofDriver hdir (Surface.ofDriver root).failures
  obtain ⟨made, hmade, hgrown⟩ := hb.createRoot.ok (hmarks _)
  exact ⟨made, hmade, hb.flushes hmarks (Plan.sound_ofCalls calls) hgrown⟩

theorem flush_ofCalls_repeatedLink :
    (Path.ofText "/c/v").parent?.isSome ∧
      ∃ made, Graph.createRoot (.ofText "/c/v") (.ofDriver (.ofText "/c/v")) = (.ok (), made) ∧
        Flushes (.ofText "/c/v")
          (.ofCalls [.addNode (.crtc 0), .addNode (.encoder 0), .push (.link (.encoder 0) (.crtc 0)),
            .push (.link (.plane 0) (.crtc 0)), .push (.link (.encoder 0) (.crtc 0))]) made := by
  have h : (Path.ofText "/c/v").parent?.isSome := by decide
  exact ⟨h, flush_ofCalls _ _ h⟩

end DisplayTopology
