import DisplayTopology.Proofs.Surface.Histories
import DisplayTopology.Proofs.Topology.Links
import DisplayTopology.Script.Graph

/-!
# What failed operations leave behind

An operation on a topology that fails leaves the surface as it was, with one exception. A link takes
two calls where the directory for links of its kind is not there: one makes the directory, the other
lays the link in it. If the first goes through and the second is refused, the link stops half way
(`Graph.StopsHalfWay`), and the directory stays, with its default groups and nothing else
(`Surface.Made`). What is left behind by any call follows from that (`GraphCall.traced_run`).
-/

namespace DisplayTopology

open Location Surface

variable {s t u : Surface} {p target : Path} {root : Path} {src dst : NodeId}

/-! ## New directories and links -/

/-- A surface with one more directory at a path that was free, and in it the default groups that are
registered for it; everything else is as it was. -/
structure Surface.Made (s : Surface) (p : Path) (t : Surface) : Prop where
  free : ∀ l, l.within p.location → s.entries.find? l = none
  dir : t.entries.find? p.location = some (.dir .user)
  groups : ∀ name ∈ s.groupsFor p.location, t.entries.find? (p / name).location = some (.dir .kernel)
  others : ∀ l, l ≠ p.location → (∀ name ∈ s.groupsFor p.location, (p / name).location ≠ l) →
    t.entries.slot? l = s.entries.slot? l
  rest : t = { s with entries := t.entries, mutations := s.mutations + 1 }

theorem Surface.made_of_createDir (hs : s.IsTree) (hg : s.PlainGroups) (h : s.createDir p = .ok t) :
    s.Made p t := by
  obtain ⟨hfault, ht⟩ := createDir_eq_ok_iff.1 h
  obtain ⟨-, hfree, dir, hparent, -⟩ := creationFault?_eq_none_iff.1 hfault
  have hne : p.location ≠ [] := by
    intro hnil
    simp [hnil] at hparent
  refine ⟨fun l hw => ?_, find?_createDir_self hg h, fun name hname => ?_, fun l hl hgroups => ?_, ?_⟩
  · exact hs.find?_eq_none_of_within (contains_eq_false_iff.1 hfree) hne hw
  · rw [find?_of_createDir h, if_pos ⟨name, hname, rfl⟩]
  · rw [ht]
    exact (slot?_addGroups hgroups).trans (PathMap.slot?_insert_of_ne hl)
  · rw [ht]

/-- A new link leaves every directory in place. -/
theorem Surface.dirAt_createLink {l : Location} (h : s.createLink target p = .ok t)
    (hl : s.dirAt l) : t.dirAt l := by
  obtain ⟨hfault, rfl⟩ := createLink_eq_ok_iff.1 h
  obtain ⟨-, hfree, -⟩ := creationFault?_eq_none_iff.1 hfault
  exact dirAt_insert (by rw [dirAt, contains_eq_false_iff.1 hfree]) hl

/-- A link that was made stands in the way of another at its path. -/
theorem Surface.createLink_again {other : Path} (h : s.createLink target p = .ok t) :
    t.createLink other p = .error .eexist := by
  obtain ⟨hmark, -⟩ := creationFault?_eq_none_iff.1 (createLink_eq_ok_iff.1 h).1
  have hthere : t.entries.contains p.location :=
    contains_of_find? ((find?_of_createLink h p.location).trans (if_pos rfl))
  have hfault : t.creationFault? p.location = some .eexist := by
    have hfailures : t.failures = s.failures := by rw [(createLink_eq_ok_iff.1 h).2]
    simp [creationFault?, hfailures, hmark, hthere]
  rw [createLink, hfault]

namespace Graph

/-! ## Links -/

/-- A link that stops half way: its directory is not there and can be made, but not the link in it. -/
structure StopsHalfWay (root : Path) (src dst : NodeId) (s : Surface) : Prop
    extends Joinable root src dst s where
  absent : s.contains (linkDir root src dst.kind) = false
  blocked : ∃ t e, s.createDir (linkDir root src dst.kind) = .ok t ∧
    t.createLink (nodePath root dst) (linkPath root src dst) = .error e

/-- A link that stops half way leaves its directory. -/
theorem exists_link_of_stopsHalfWay (h : StopsHalfWay root src dst s) :
    ∃ e t, s.createDir (linkDir root src dst.kind) = .ok t ∧
      link root src dst s = (.error (.resource .link (linkPath root src dst) e), t) := by
  obtain ⟨t, e, hdir, hlink⟩ := h.blocked
  have hthere : ¬s.isDir (linkDir root src dst.kind) := fun hthere =>
    Bool.eq_false_iff.1 h.absent (contains_of_dirAt hthere)
  refine ⟨e, t, hdir, ?_⟩
  rw [link_of_not_isDir h.toJoinable hthere, hdir]
  dsimp only
  rw [hlink, perform]

/-- An effect that leaves a surface as it was if it is a failure. -/
def Untouched (s : Surface) (effect : Effect) : Prop := ∀ e, effect.1 = .error e → effect.2 = s

/-- Any other link that fails leaves the surface as it was. -/
theorem untouched_link (h : ¬StopsHalfWay root src dst s) : Untouched s (link root src dst s) := by
  have houtcome := link_outcome root src dst s
  generalize link root src dst s = effect at houtcome ⊢
  intro e he
  cases houtcome with
  | unroutable | missing | noDir | noLink => rfl
  | halfWay hjoin hdir hlink =>
    have habsent := (creationFault?_eq_none_iff.1 (createDir_eq_ok_iff.1 hdir).1).2.1
    exact absurd ⟨hjoin, habsent, _, _, hdir, hlink⟩ h
  | laid => simp at he

/-- What a link that was laid tells about the surface before it, and about the one after it. -/
structure Laid (root : Path) (src dst : NodeId) (s t : Surface) : Prop where
  joinable : Joinable root src dst s
  free : s.contains (linkPath root src dst) = false
  leads : t.target? (linkPath root src dst) = some (nodePath root dst)
  /-- The same link once more is refused, because something is there already. -/
  again : link root src dst t = (.error (.resource .link (linkPath root src dst) .eexist), t)

theorem laid_of_link (hg : s.PlainGroups) (h : link root src dst s = (.ok (), u)) :
    Laid root src dst s u := by
  have houtcome := link_outcome root src dst s
  rw [h] at houtcome
  cases houtcome with
  | @laid t _ hjoin hdir hlink =>
    have hkeeps {l : Location} (hl : s.dirAt l) : t.dirAt l := by
      rcases hdir with ⟨-, rfl⟩ | hdir
      · exact hl
      · exact dirAt_createDir hdir hl
    have hthere : t.isDir (linkDir root src dst.kind) := by
      rcases hdir with ⟨hthere, rfl⟩ | hdir
      · exact hthere
      · exact dirAt_of_find? (find?_createDir_self hg hdir)
    have hfree : t.entries.find? (linkPath root src dst).location = none :=
      contains_eq_false_iff.1 (creationFault?_eq_none_iff.1 (createLink_eq_ok_iff.1 hlink).1).2.1
    refine ⟨hjoin, contains_eq_false_iff.2 ?_, ?_, ?_⟩
    · rcases hdir with ⟨-, rfl⟩ | hdir
      · exact hfree
      · rw [find?_of_createDir hdir] at hfree
        split at hfree
        · simp at hfree
        · split at hfree
          · simp at hfree
          · exact hfree
    · rw [target?, entry?, find?_of_createLink hlink, if_pos rfl]
    · rw [link_of_isDir hjoin.routes (dirAt_createLink hlink (hkeeps hjoin.src_there))
        (dirAt_createLink hlink (hkeeps hjoin.dst_there)) (dirAt_createLink hlink hthere),
        createLink_again hlink]
      rfl

/-! ## Other operations -/

theorem untouched_perform {task : SurfaceTask} {r : Except Errno Surface} :
    Untouched s (perform task p s r) :=
  fun _ h => (perform_of_error h).1

theorem untouched_writeAttr {node : NodeId} {attr : String} {data : Bytes} :
    Untouched s (writeAttr root node attr data s) :=
  untouched_perform

theorem untouched_setEdid (connector : Nat) (edid : Bytes) :
    Untouched s (setEdid root connector edid s) := by
  unfold setEdid
  split
  · exact fun _ _ => rfl
  · exact untouched_writeAttr

end Graph

namespace GraphCall

variable {call : GraphCall}

/-- The ends of the link that a call lays. -/
def link? : GraphCall → Option (NodeId × NodeId)
  | link src dst => some (src, dst)
  | apply (.link src dst) => some (src, dst)
  | _ => none

/-- What a call leaves on a surface, and what it tells if it is a link that was laid. -/
structure Traced (root : Path) (s : Surface) (call : GraphCall) (outcome : GraphAnswer × Surface) :
    Prop where
  /-- A call that fails leaves the surface as it was, unless it is a link that stops half way. -/
  untouched : ∀ e, outcome.1 = .failed e →
    (∀ src dst, call.link? = some (src, dst) → ¬Graph.StopsHalfWay root src dst s) → outcome.2 = s
  /-- A link that stops half way fails and leaves its directory. -/
  halfWay : ∀ src dst, call.link? = some (src, dst) → Graph.StopsHalfWay root src dst s →
    (∃ e, outcome.1 = .failed (.resource .link (Graph.linkPath root src dst) e)) ∧
      s.Made (Graph.linkDir root src dst.kind) outcome.2
  /-- A link that does not fail was laid. -/
  laid : ∀ src dst, call.link? = some (src, dst) → outcome.1 = .done →
    Graph.Laid root src dst s outcome.2

theorem run_of_link? (h : call.link? = some (src, dst)) (root : Path) (s : Surface) :
    call.run root s = ofEffect (Graph.link root src dst s) := by
  unfold link? at h
  split at h
  · obtain ⟨rfl, rfl⟩ := Prod.mk.inj (Option.some.inj h)
    rfl
  · obtain ⟨rfl, rfl⟩ := Prod.mk.inj (Option.some.inj h)
    rfl
  · simp at h

theorem snd_ofEffect_of_untouched {effect : Graph.Effect} {e : TopologyError}
    (hu : Graph.Untouched s effect) (h : (ofEffect effect).1 = .failed e) :
    (ofEffect effect).2 = s := by
  rcases effect with ⟨_ | _, t⟩
  · exact hu _ rfl
  · simp [ofEffect] at h

/-- A call that is no link and fails leaves the surface as it was. -/
theorem run_of_failed {e : TopologyError} (hcall : call.link? = none)
    (h : (call.run root s).1 = .failed e) : (call.run root s).2 = s := by
  cases call with
  | nodePath | readStatus => rfl
  | createRoot | createNode | setEnabled =>
    rw [run] at h ⊢
    exact snd_ofEffect_of_untouched Graph.untouched_perform h
  | setStatus | setConnectorType | setPlaneType | setPlaneFormat =>
    rw [run] at h ⊢
    exact snd_ofEffect_of_untouched Graph.untouched_writeAttr h
  | setEdid connector edid =>
    exact snd_ofEffect_of_untouched (Graph.untouched_setEdid connector edid) h
  | link => simp [link?] at hcall
  | apply op =>
    cases op with
    | createNode =>
      rw [run, Graph.apply] at h ⊢
      exact snd_ofEffect_of_untouched Graph.untouched_perform h
    | setStatus | setConnectorType | setPlaneType | setPlaneFormat =>
      rw [run, Graph.apply] at h ⊢
      exact snd_ofEffect_of_untouched Graph.untouched_writeAttr h
    | setEdid connector monitor =>
      exact snd_ofEffect_of_untouched (Graph.untouched_setEdid connector monitor.edid) h
    | link => simp [link?] at hcall

/-- **Failed calls leave no trace**, but for a link that stops half way; and a link that is laid was
laid where nothing was, between resources that are there. -/
theorem traced_run (hs : s.IsTree) (hg : s.PlainGroups) (root : Path) (call : GraphCall) :
    Traced root s call (call.run root s) := by
  refine ⟨fun e he hlink => ?_, fun src dst hlink hhalf => ?_, fun src dst hlink hdone => ?_⟩
  · cases hcall : call.link? with
    | none => exact run_of_failed hcall he
    | some ends =>
      rw [run_of_link? hcall] at he ⊢
      exact snd_ofEffect_of_untouched (Graph.untouched_link (hlink _ _ hcall)) he
  · obtain ⟨e, t, hdir, hhalf⟩ := Graph.exists_link_of_stopsHalfWay hhalf
    rw [run_of_link? hlink, hhalf]
    exact ⟨⟨e, rfl⟩, made_of_createDir hs hg hdir⟩
  · rw [run_of_link? hlink] at hdone ⊢
    rcases hlaid : Graph.link root src dst s with ⟨e | ⟨⟩, t⟩
    · rw [hlaid] at hdone
      simp [ofEffect] at hdone
    · exact Graph.laid_of_link hg hlaid

/-- Calls that make an encoder and a CRTC, where directories made in the encoder come with a group
that bears the name of the CRTC. -/
def crowdingCalls : List SurfaceCall :=
  [.addKernelDirs (.ofText "/c/v/encoders"), .addKernelDirs (.ofText "/c/v/crtcs"),
    .addDefaultGroups (.ofText "/c/v/encoders/ENCODER_1") ["CRTC_10"],
    .createDir (.ofText "/c/v/encoders/ENCODER_1"), .createDir (.ofText "/c/v/crtcs/CRTC_10")]

theorem traced_run_crowded :
    ∃ s, SurfaceCall.runAll .empty crowdingCalls = s ∧ s.IsTree ∧ s.PlainGroups ∧
      Traced (.ofText "/c/v") s (.link (.encoder 1) (.crtc 10))
        ((GraphCall.link (.encoder 1) (.crtc 10)).run (.ofText "/c/v") s) ∧
      ((GraphCall.link (.encoder 1) (.crtc 10)).run (.ofText "/c/v") s).1 =
        .failed (.resource .link (.ofText "/c/v/encoders/ENCODER_1/possible_crtcs/CRTC_10") .eexist) := by
  have hadmits : Surface.empty.AdmitsAll crowdingCalls := by decide +kernel
  have hwf := wellFormed_empty.runAll hadmits
  exact ⟨_, rfl, hwf.tree, hwf.groups, traced_run hwf.tree hwf.groups _ _, by decide +kernel⟩

end GraphCall

end DisplayTopology
