import DisplayTopology.Proofs.Surface.Hierarchy
import DisplayTopology.Topology.Graph

/-!
# What a link does

A link takes one call where the directory for links of its kind is there, and two where it is not:
the directory is made first. `LinkOutcome` lists all that can come of it, with what was found on the
surface in each case; what holds of links in general follows by cases on it (`link_outcome`).
-/

namespace DisplayTopology.Graph

open Surface

variable {root : Path} {src dst : NodeId} {s : Surface}

/-- Two resources that a link can join: their kinds route to each other, and both are there. -/
structure Joinable (root : Path) (src dst : NodeId) (s : Surface) : Prop where
  routes : src.kind.routesTo dst.kind
  src_there : s.isDir (nodePath root src)
  dst_there : s.isDir (nodePath root dst)

/-- What a link can do to a surface. -/
inductive LinkOutcome (root : Path) (src dst : NodeId) (s : Surface) : Effect → Prop where
  /-- The kinds do not route to each other. -/
  | unroutable (h : src.kind.routesTo dst.kind = false) :
      LinkOutcome root src dst s (.error (.invalidLink src dst), s)
  /-- A resource is missing. -/
  | missing {p : Path} (h : missingEndpoint? root src dst s = some p) :
      LinkOutcome root src dst s (.error (.missingEndpoint src dst p), s)
  /-- The directory for the link cannot be made. -/
  | noDir {e : Errno} (h : Joinable root src dst s)
      (hdir : s.createDir (linkDir root src dst.kind) = .error e) :
      LinkOutcome root src dst s (.error (.resource .create (linkDir root src dst.kind) e), s)
  /-- The directory is there, and the link is refused. -/
  | noLink {e : Errno} (h : Joinable root src dst s) (hthere : s.isDir (linkDir root src dst.kind))
      (hlink : s.createLink (nodePath root dst) (linkPath root src dst) = .error e) :
      LinkOutcome root src dst s (.error (.resource .link (linkPath root src dst) e), s)
  /-- The directory is made, and the link in it is refused. -/
  | halfWay {t : Surface} {e : Errno} (h : Joinable root src dst s)
      (hdir : s.createDir (linkDir root src dst.kind) = .ok t)
      (hlink : t.createLink (nodePath root dst) (linkPath root src dst) = .error e) :
      LinkOutcome root src dst s (.error (.resource .link (linkPath root src dst) e), t)
  /-- The link is laid in its directory, which is there or is made. -/
  | laid {t u : Surface} (h : Joinable root src dst s)
      (hdir : s.isDir (linkDir root src dst.kind) ∧ t = s ∨
        s.createDir (linkDir root src dst.kind) = .ok t)
      (hlink : t.createLink (nodePath root dst) (linkPath root src dst) = .ok u) :
      LinkOutcome root src dst s (.ok (), u)

/-- Where it is not there, the directory for the link is made first. -/
theorem link_of_not_isDir (h : Joinable root src dst s)
    (hdir : ¬s.isDir (linkDir root src dst.kind)) :
    link root src dst s =
      match s.createDir (linkDir root src dst.kind) with
      | .error e => (.error (.resource .create (linkDir root src dst.kind) e), s)
      | .ok t => perform .link (linkPath root src dst) t
          (t.createLink (nodePath root dst) (linkPath root src dst)) := by
  rw [link, if_pos h.routes, missingEndpoint?_eq_none_iff.2 ⟨h.src_there, h.dst_there⟩,
    ensureLinkDir, if_neg hdir]
  cases s.createDir (linkDir root src dst.kind) with
  | ok t => rfl
  | error e => rfl

/-- Nothing else comes of a link than the outcomes listed. -/
theorem link_outcome (root : Path) (src dst : NodeId) (s : Surface) :
    LinkOutcome root src dst s (link root src dst s) := by
  by_cases hroutes : src.kind.routesTo dst.kind
  · cases hmissing : missingEndpoint? root src dst s with
    | some p =>
      rw [link, if_pos hroutes, hmissing]
      exact .missing hmissing
    | none =>
      obtain ⟨hsrc, hdst⟩ := missingEndpoint?_eq_none_iff.1 hmissing
      have hjoin : Joinable root src dst s := ⟨hroutes, hsrc, hdst⟩
      by_cases hthere : s.isDir (linkDir root src dst.kind)
      · rw [link_of_isDir hroutes hsrc hdst hthere]
        cases hlink : s.createLink (nodePath root dst) (linkPath root src dst) with
        | ok u => exact .laid hjoin (.inl ⟨hthere, rfl⟩) hlink
        | error e => exact .noLink hjoin hthere hlink
      · rw [link_of_not_isDir hjoin hthere]
        cases hdir : s.createDir (linkDir root src dst.kind) with
        | error e => exact .noDir hjoin hdir
        | ok t =>
          dsimp only
          cases hlink : t.createLink (nodePath root dst) (linkPath root src dst) with
          | ok u => exact .laid hjoin (.inr hdir) hlink
          | error e => exact .halfWay hjoin hdir hlink
  · rw [link, if_neg hroutes]
    exact .unroutable (Bool.eq_false_iff.2 hroutes)

end DisplayTopology.Graph
