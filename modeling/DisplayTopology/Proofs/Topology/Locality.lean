import DisplayTopology.Proofs.Surface.Locality
import DisplayTopology.Proofs.Topology.Places
import DisplayTopology.Script.Graph

/-!
# What operations on a topology depend on

All paths of a topology lie at or below its root. So where the root is separate from another
location, operations on the topology give the same answers on surfaces that are alike off that
location, and leave them alike (`GraphCall.same_run`).
-/

namespace DisplayTopology

open Location Surface

/-- Two outcomes with the same answer and with related states. -/
def Same {α σ : Type} (R : σ → σ → Prop) (x y : α × σ) : Prop := x.1 = y.1 ∧ R x.2 y.2

variable {s t : Surface} {off : Location} {root : Path}

namespace Graph

/-! ## Operations -/

theorem same_perform {task : SurfaceTask} {p : Path} {r r' : Except Errno Surface}
    (h : AlikeOff off s t) (hr : SameCall off r r') :
    Same (AlikeOff off) (perform task p s r) (perform task p t r') := by
  cases hr with
  | ok hr => exact ⟨rfl, hr⟩
  | error e => exact ⟨rfl, h⟩

theorem same_createRoot (h : AlikeOff off s t) (hsep : Separate root.location off) :
    Same (AlikeOff off) (createRoot root s) (createRoot root t) :=
  same_perform h (h.createDir hsep)

theorem same_createNode (h : AlikeOff off s t) (hsep : Separate root.location off)
    (node : NodeId) : Same (AlikeOff off) (createNode root node s) (createNode root node t) :=
  same_perform h (h.createDir (hsep.of_within (within_nodePath root node)))

theorem same_writeAttr (h : AlikeOff off s t) (hsep : Separate root.location off)
    (node : NodeId) {attr : String} (data : Bytes) (hattr : Path.IsName attr) :
    Same (AlikeOff off) (writeAttr root node attr data s) (writeAttr root node attr data t) :=
  same_perform h (h.write data (hsep.of_within (within_attrPath root node hattr)))

theorem same_setEdid (h : AlikeOff off s t) (hsep : Separate root.location off)
    (connector : Nat) (edid : Bytes) :
    Same (AlikeOff off) (setEdid root connector edid s) (setEdid root connector edid t) := by
  unfold setEdid
  split
  · exact ⟨rfl, h⟩
  · exact same_writeAttr h hsep _ _ (by decide)

theorem same_setEnabled (h : AlikeOff off s t) (hsep : Separate root.location off)
    (enabled : Bool) :
    Same (AlikeOff off) (setEnabled root enabled s) (setEnabled root enabled t) :=
  same_perform h (h.write _ (hsep.of_within (within_enabledPath root)))

theorem same_ensureLinkDir (h : AlikeOff off s t) (hsep : Separate root.location off)
    (src : NodeId) (kind : ResourceKind) :
    Same (AlikeOff off) (ensureLinkDir root src kind s) (ensureLinkDir root src kind t) := by
  have hdir := hsep.of_within (within_linkDir root src kind)
  rw [ensureLinkDir, ensureLinkDir, h.isDir hdir]
  split
  · exact ⟨rfl, h⟩
  · exact same_perform h (h.createDir hdir)

theorem same_link (h : AlikeOff off s t) (hsep : Separate root.location off)
    (src dst : NodeId) : Same (AlikeOff off) (link root src dst s) (link root src dst t) := by
  have hmissing : missingEndpoint? root src dst s = missingEndpoint? root src dst t := by
    simp only [missingEndpoint?, List.find?_cons, List.find?_nil,
      h.isDir (hsep.of_within (within_nodePath root src)),
      h.isDir (hsep.of_within (within_nodePath root dst))]
  have hdir := same_ensureLinkDir h hsep src dst.kind
  rw [link, link, hmissing]
  split
  · split
    · exact ⟨rfl, h⟩
    · rcases hs : ensureLinkDir root src dst.kind s with ⟨answer, u⟩
      rcases ht : ensureLinkDir root src dst.kind t with ⟨answer', v⟩
      rw [hs, ht] at hdir
      obtain ⟨rfl, huv⟩ : answer = answer' ∧ AlikeOff off u v := hdir
      cases answer with
      | error e => exact ⟨rfl, huv⟩
      | ok =>
        exact same_perform huv (huv.createLink _ (hsep.of_within (within_linkPath root src dst)))
  · exact ⟨rfl, h⟩

theorem same_apply (h : AlikeOff off s t) (hsep : Separate root.location off) (op : GraphOp) :
    Same (AlikeOff off) (apply root op s) (apply root op t) := by
  cases op with
  | createNode node => exact same_createNode h hsep node
  | setStatus | setConnectorType | setPlaneType | setPlaneFormat =>
    rw [apply]
    exact same_writeAttr h hsep _ _ (by decide)
  | setEdid connector monitor => exact same_setEdid h hsep connector monitor.edid
  | link src dst => exact same_link h hsep src dst

theorem readStatus_congr (h : AlikeOff off s t) (hsep : Separate root.location off)
    (connector : Nat) : readStatus root connector s = readStatus root connector t := by
  have hname : Path.IsName "status" := by decide
  have hread := h.read (hsep.of_within (within_attrPath root (.connector connector) hname))
  rw [readStatus_eq, readStatus_eq, hread]

end Graph

namespace GraphCall

theorem same_ofEffect {x y : Graph.Effect} (h : Same (AlikeOff off) x y) :
    Same (AlikeOff off) (ofEffect x) (ofEffect y) := by
  obtain ⟨answer, u⟩ := x
  obtain ⟨answer', v⟩ := y
  obtain ⟨rfl, huv⟩ : answer = answer' ∧ AlikeOff off u v := h
  cases answer with
  | ok | error => exact ⟨rfl, huv⟩

/-- **Locality of operations.** A call on the resources of a topology cannot tell surfaces apart
that are alike off a location separate from the root. -/
theorem same_run (h : AlikeOff off s t) (hsep : Separate root.location off) (call : GraphCall) :
    Same (AlikeOff off) (call.run root s) (call.run root t) := by
  cases call with
  | nodePath node => exact ⟨rfl, h⟩
  | readStatus connector =>
    rw [run, run, Graph.readStatus_congr h hsep]
    exact ⟨rfl, h⟩
  | createRoot => exact same_ofEffect (Graph.same_createRoot h hsep)
  | createNode node => exact same_ofEffect (Graph.same_createNode h hsep node)
  | setStatus | setConnectorType | setPlaneType | setPlaneFormat =>
    rw [run, run]
    exact same_ofEffect (Graph.same_writeAttr h hsep _ _ (by decide))
  | setEdid connector edid => exact same_ofEffect (Graph.same_setEdid h hsep connector edid)
  | link src dst => exact same_ofEffect (Graph.same_link h hsep src dst)
  | setEnabled enabled => exact same_ofEffect (Graph.same_setEnabled h hsep enabled)
  | apply op => exact same_ofEffect (Graph.same_apply h hsep op)

end GraphCall

end DisplayTopology
