import DisplayTopology.Proofs.Surface.Respelling
import DisplayTopology.Script.Graph

/-!
# Resources under other spellings

All paths of a topology are made from its root. So operations at respelled roots, on surfaces that
differ in spelling only, ask for the same things at the same locations: they fail alike, with errors
that name one location, or leave surfaces that differ in spelling only (`GraphCall.respelled_run`).
-/

namespace DisplayTopology

/-- Two errors that differ at most in how a path is spelled. -/
inductive TopologyError.Respelled : TopologyError → TopologyError → Prop where
  | refl (e : TopologyError) : Respelled e e
  | resource (task : SurfaceTask) {p q : Path} (h : p.Respelled q) (errno : Errno) :
      Respelled (.resource task p errno) (.resource task q errno)
  | missingEndpoint (src dst : NodeId) {p q : Path} (h : p.Respelled q) :
      Respelled (.missingEndpoint src dst p) (.missingEndpoint src dst q)

/-- Two answers, both successes or errors that differ at most in spelling. -/
abbrev DoneAlike : Except TopologyError Unit → Except TopologyError Unit → Prop :=
  ResultRel TopologyError.Respelled Eq

variable {s t : Surface} {root root' p q : Path}

namespace Graph

/-- Two outcomes that differ in spelling only. -/
abbrev EffectAlike : Effect → Effect → Prop := Paired DoneAlike Surface.Respelled

/-! ## Paths -/

theorem respelled_nodePath (h : root.Respelled root') (node : NodeId) :
    (nodePath root node).Respelled (nodePath root' node) :=
  h.join (.refl node.relativePath)

theorem respelled_attrPath (h : root.Respelled root') (node : NodeId) (attr : String) :
    (attrPath root node attr).Respelled (attrPath root' node attr) :=
  (respelled_nodePath h node).child attr

theorem respelled_linkDir (h : root.Respelled root') (src : NodeId) (kind : ResourceKind) :
    (linkDir root src kind).Respelled (linkDir root' src kind) :=
  (respelled_nodePath h src).child kind.linkGroup

theorem respelled_linkPath (h : root.Respelled root') (src dst : NodeId) :
    (linkPath root src dst).Respelled (linkPath root' src dst) :=
  (respelled_linkDir h src dst.kind).child dst.name

theorem respelled_enabledPath (h : root.Respelled root') :
    (enabledPath root).Respelled (enabledPath root') :=
  h.child "enabled"

/-! ## Operations -/

theorem respelled_perform {task : SurfaceTask} {r r' : Except Errno Surface}
    (h : s.Respelled t) (hp : p.Respelled q) (hr : Surface.ChangedAlike r r') :
    EffectAlike (perform task p s r) (perform task q t r') := by
  cases hr with
  | @error errno errno' he =>
    obtain rfl : errno = errno' := he
    exact ⟨.error (.resource task hp errno), h⟩
  | ok hst => exact ⟨.ok rfl, hst⟩

theorem respelled_createRoot (h : s.Respelled t) (hroot : root.Respelled root') :
    EffectAlike (createRoot root s) (createRoot root' t) :=
  respelled_perform h hroot (h.createDir hroot)

theorem respelled_createNode (h : s.Respelled t) (hroot : root.Respelled root') (node : NodeId) :
    EffectAlike (createNode root node s) (createNode root' node t) :=
  respelled_perform h (respelled_nodePath hroot node) (h.createDir (respelled_nodePath hroot node))

theorem respelled_writeAttr (h : s.Respelled t) (hroot : root.Respelled root') (node : NodeId)
    (attr : String) (data : Bytes) :
    EffectAlike (writeAttr root node attr data s) (writeAttr root' node attr data t) :=
  respelled_perform h (respelled_attrPath hroot node attr)
    (h.write (respelled_attrPath hroot node attr) data)

theorem respelled_setEdid (h : s.Respelled t) (hroot : root.Respelled root') (connector : Nat)
    (edid : Bytes) : EffectAlike (setEdid root connector edid s) (setEdid root' connector edid t) := by
  rw [setEdid, setEdid]
  split
  · exact ⟨.error (.refl _), h⟩
  · exact respelled_writeAttr h hroot _ "edid" edid

theorem respelled_setEnabled (h : s.Respelled t) (hroot : root.Respelled root') (enabled : Bool) :
    EffectAlike (setEnabled root enabled s) (setEnabled root' enabled t) :=
  respelled_perform h (respelled_enabledPath hroot) (h.write (respelled_enabledPath hroot) _)

/-- The same endpoint is missing first. -/
theorem respelled_missingEndpoint? (h : s.Respelled t) (hroot : root.Respelled root')
    (src dst : NodeId) :
    Option.Rel Path.Respelled (missingEndpoint? root src dst s) (missingEndpoint? root' src dst t) := by
  refine optionRel_find? (fun p q hp => ?_)
    (.cons (respelled_nodePath hroot src) (.cons (respelled_nodePath hroot dst) .nil))
  rw [h.isDir_eq hp]

theorem respelled_ensureLinkDir (h : s.Respelled t) (hroot : root.Respelled root') (src : NodeId)
    (kind : ResourceKind) :
    EffectAlike (ensureLinkDir root src kind s) (ensureLinkDir root' src kind t) := by
  have hdir := respelled_linkDir hroot src kind
  rw [ensureLinkDir, ensureLinkDir, h.isDir_eq hdir]
  split
  · exact ⟨.ok rfl, h⟩
  · exact respelled_perform h hdir (h.createDir hdir)

theorem respelled_link (h : s.Respelled t) (hroot : root.Respelled root') (src dst : NodeId) :
    EffectAlike (link root src dst s) (link root' src dst t) := by
  have hmissing := respelled_missingEndpoint? h hroot src dst
  have hensure := respelled_ensureLinkDir h hroot src dst.kind
  have hlink := respelled_linkPath hroot src dst
  rw [link, link]
  split
  · generalize missingEndpoint? root src dst s = x at hmissing
    generalize missingEndpoint? root' src dst t = y at hmissing
    cases hmissing with
    | some hp => exact ⟨.error (.missingEndpoint src dst hp), h⟩
    | none =>
      dsimp only
      generalize ensureLinkDir root src dst.kind s = x at hensure
      generalize ensureLinkDir root' src dst.kind t = y at hensure
      obtain ⟨answer, u⟩ := x
      obtain ⟨answer', v⟩ := y
      obtain ⟨hanswer, huv⟩ : DoneAlike answer answer' ∧ u.Respelled v := hensure
      cases hanswer with
      | error he => exact ⟨.error he, huv⟩
      | ok => exact respelled_perform huv hlink (huv.createLink (respelled_nodePath hroot dst) hlink)
  · exact ⟨.error (.refl _), h⟩

/-- **Operations under other spellings** fail alike or leave surfaces that differ in spelling
only. -/
theorem respelled_apply (h : s.Respelled t) (hroot : root.Respelled root') (op : GraphOp) :
    EffectAlike (apply root op s) (apply root' op t) := by
  cases op with
  | createNode node => exact respelled_createNode h hroot node
  | setStatus | setConnectorType | setPlaneType | setPlaneFormat =>
    rw [apply, apply]
    exact respelled_writeAttr h hroot _ _ _
  | setEdid connector monitor => exact respelled_setEdid h hroot connector monitor.edid
  | link src dst => exact respelled_link h hroot src dst

/-- The same status is read, or one error. -/
theorem respelled_readStatus (h : s.Respelled t) (hroot : root.Respelled root') (connector : Nat) :
    ResultRel TopologyError.Respelled Eq (readStatus root connector s)
      (readStatus root' connector t) := by
  have hpath := respelled_attrPath hroot (.connector connector) "status"
  have hread := h.read_eq hpath
  rw [readStatus_eq, readStatus_eq, hread]
  split
  · exact .ok rfl
  · exact .error (.resource .read hpath _)

end Graph

/-! ## Calls -/

/-- Two answers that differ at most in how paths are spelled. -/
inductive GraphAnswer.Respelled : GraphAnswer → GraphAnswer → Prop where
  | refl (answer : GraphAnswer) : Respelled answer answer
  | failed {e f : TopologyError} (h : e.Respelled f) : Respelled (.failed e) (.failed f)
  | path {p q : Path} (h : p.Respelled q) : Respelled (.path p) (.path q)

namespace GraphCall

theorem respelled_ofEffect {x y : Graph.Effect} (h : Graph.EffectAlike x y) :
    Paired GraphAnswer.Respelled Surface.Respelled (ofEffect x) (ofEffect y) := by
  obtain ⟨answer, u⟩ := x
  obtain ⟨answer', v⟩ := y
  obtain ⟨hanswer, huv⟩ : DoneAlike answer answer' ∧ u.Respelled v := h
  cases hanswer with
  | error he => exact ⟨.failed he, huv⟩
  | ok => exact ⟨.refl .done, huv⟩

/-- **Calls under other spellings.** A call at respelled roots, on surfaces that differ in spelling
only, answers alike and leaves surfaces that differ in spelling only. -/
theorem respelled_run (h : s.Respelled t) (hroot : root.Respelled root') (call : GraphCall) :
    Paired GraphAnswer.Respelled Surface.Respelled (call.run root s) (call.run root' t) := by
  cases call with
  | nodePath node => exact ⟨.path (Graph.respelled_nodePath hroot node), h⟩
  | readStatus connector =>
    have hstatus := Graph.respelled_readStatus h hroot connector
    rw [run, run]
    generalize Graph.readStatus root connector s = x at hstatus
    generalize Graph.readStatus root' connector t = y at hstatus
    cases hstatus with
    | error he => exact ⟨.failed he, h⟩
    | ok heq => exact ⟨heq ▸ .refl _, h⟩
  | createRoot => exact respelled_ofEffect (Graph.respelled_createRoot h hroot)
  | createNode node => exact respelled_ofEffect (Graph.respelled_createNode h hroot node)
  | setStatus | setConnectorType | setPlaneType | setPlaneFormat =>
    rw [run, run]
    exact respelled_ofEffect (Graph.respelled_writeAttr h hroot _ _ _)
  | setEdid connector edid => exact respelled_ofEffect (Graph.respelled_setEdid h hroot connector edid)
  | link src dst => exact respelled_ofEffect (Graph.respelled_link h hroot src dst)
  | setEnabled enabled => exact respelled_ofEffect (Graph.respelled_setEnabled h hroot enabled)
  | apply op => exact respelled_ofEffect (Graph.respelled_apply h hroot op)

end GraphCall

end DisplayTopology
