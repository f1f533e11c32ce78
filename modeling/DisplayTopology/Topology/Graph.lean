import DisplayTopology.Surface.Mutation
import DisplayTopology.Text.Blank
import DisplayTopology.Topology.Error

/-!
# Resources on a surface

A topology lies below a root directory. Each resource is a directory in the group of its kind, its
attributes are files in that directory, and a routing link lies in the source's directory for links
to targets of that kind, bears the target's name, and leads to the target's directory. The file
`enabled` in the root switches the topology on.

Every operation answers whether it succeeded and leaves a surface behind. An operation that fails
leaves the surface as it was (`perform_of_error`), but for a link whose directory could be made and
which itself could not.
-/

namespace DisplayTopology.Graph

/-- What an operation answers, and the surface after it. -/
abbrev Effect := Except TopologyError Unit × Surface

/-! ## Paths -/

/-- The directory of a resource. -/
def nodePath (root : Path) (node : NodeId) : Path := root.join node.relativePath

/-- The file of a resource's attribute. -/
def attrPath (root : Path) (node : NodeId) (attr : String) : Path := nodePath root node / attr

/-- The directory of a resource's links to resources of a kind. -/
def linkDir (root : Path) (src : NodeId) (kind : ResourceKind) : Path :=
  nodePath root src / kind.linkGroup

/-- The link from one resource to another. -/
def linkPath (root : Path) (src dst : NodeId) : Path := linkDir root src dst.kind / dst.name

/-- The file that switches a topology on. -/
def enabledPath (root : Path) : Path := root / "enabled"

/-! ## Operations -/

/-- The effect of one call on the surface: where the call fails, the surface stays as it was and
the error says what was to be done where. -/
def perform (task : SurfaceTask) (p : Path) (s : Surface) : Except Errno Surface → Effect
  | .ok t => (.ok (), t)
  | .error e => (.error (.resource task p e), s)

/-- Makes the root directory. -/
def createRoot (root : Path) (s : Surface) : Effect := perform .create root s (s.createDir root)

/-- Makes the directory of a resource. -/
def createNode (root : Path) (node : NodeId) (s : Surface) : Effect :=
  perform .create (nodePath root node) s (s.createDir (nodePath root node))

/-- Writes an attribute of a resource. -/
def writeAttr (root : Path) (node : NodeId) (attr : String) (data : Bytes) (s : Surface) : Effect :=
  perform .write (attrPath root node attr) s (s.write (attrPath root node attr) data)

/-- What an attribute that holds a code is set to. -/
def codeBytes (code : Nat) : Bytes := Bytes.encode (toString code)

/-- Sets the status of a connector. -/
def setStatus (root : Path) (connector : Nat) (status : ConnectorStatus) (s : Surface) : Effect :=
  writeAttr root (.connector connector) "status" (codeBytes status.code) s

/-- Sets the type of a connector. -/
def setConnectorType (root : Path) (connector : Nat) (type : ConnectorType) (s : Surface) : Effect :=
  writeAttr root (.connector connector) "type" (codeBytes type.code) s

/-- Sets the EDID of a connector, which must not be empty. -/
def setEdid (root : Path) (connector : Nat) (edid : Bytes) (s : Surface) : Effect :=
  if edid = [] then (.error (.emptyEdid connector), s)
  else writeAttr root (.connector connector) "edid" edid s

/-- Sets the type of a plane. -/
def setPlaneType (root : Path) (plane : Nat) (type : PlaneType) (s : Surface) : Effect :=
  writeAttr root (.plane plane) "type" (codeBytes type.code) s

/-- Has a plane support every format. -/
def setPlaneFormat (root : Path) (plane : Nat) (s : Surface) : Effect :=
  writeAttr root (.plane plane) "supported_formats" (Bytes.encode PlaneType.supportedFormats) s

/-- The first of two resources, source before target, whose directory is missing. -/
def missingEndpoint? (root : Path) (src dst : NodeId) (s : Surface) : Option Path :=
  [nodePath root src, nodePath root dst].find? fun p => !s.isDir p

/-- Makes the directory for a resource's links to resources of a kind, unless it is there. -/
def ensureLinkDir (root : Path) (src : NodeId) (kind : ResourceKind) (s : Surface) : Effect :=
  if s.isDir (linkDir root src kind) then (.ok (), s)
  else perform .create (linkDir root src kind) s (s.createDir (linkDir root src kind))

/-- Lays the link between two resources whose kinds route to each other and which are both there. -/
def link (root : Path) (src dst : NodeId) (s : Surface) : Effect :=
  if src.kind.routesTo dst.kind then
    match missingEndpoint? root src dst s with
    | some missing => (.error (.missingEndpoint src dst missing), s)
    | none =>
      match ensureLinkDir root src dst.kind s with
      | (.error e, t) => (.error e, t)
      | (.ok _, t) =>
        perform .link (linkPath root src dst) t (t.createLink (nodePath root dst) (linkPath root src dst))
  else (.error (.invalidLink src dst), s)

/-- Switches the topology on or off. -/
def setEnabled (root : Path) (enabled : Bool) (s : Surface) : Effect :=
  perform .write (enabledPath root) s
    (s.write (enabledPath root) (Bytes.encode (if enabled then "1" else "0")))

/-- Carries out a planned operation. -/
def apply (root : Path) : GraphOp → Surface → Effect
  | .createNode node => createNode root node
  | .setStatus connector status => setStatus root connector status
  | .setConnectorType connector type => setConnectorType root connector type
  | .setEdid connector monitor => setEdid root connector monitor.edid
  | .setPlaneType plane type => setPlaneType root plane type
  | .setPlaneFormat plane => setPlaneFormat root plane
  | .link src dst => link root src dst

/-- Carries out operations in order, up to the first that fails. -/
def applyAll (root : Path) : List GraphOp → Surface → Effect
  | [], s => (.ok (), s)
  | op :: ops, s =>
    match apply root op s with
    | (.error e, t) => (.error e, t)
    | (.ok _, t) => applyAll root ops t

/-! ## Reading a status -/

/-- The status that an attribute's contents stand for: a numeral of 32 bits, blanks around it
aside, that is the code of a status. -/
def statusOfBytes? (data : Bytes) : Option ConnectorStatus :=
  (Text.numeral? Text.wordLimit32 (Text.trim data.decode)).bind ConnectorStatus.ofCode?

/-- Reads the status of a connector; contents that are no status give none. -/
def readStatus (root : Path) (connector : Nat) (s : Surface) :
    Except TopologyError (Option ConnectorStatus) :=
  let p := attrPath root (.connector connector) "status"
  match s.read p with
  | .ok data => .ok (statusOfBytes? data)
  | .error e => .error (.resource .read p e)

/-! ## Effects -/

theorem perform_of_error {task : SurfaceTask} {p : Path} {s : Surface} {r : Except Errno Surface}
    {e : TopologyError} (h : (perform task p s r).1 = .error e) :
    (perform task p s r).2 = s ∧ ∃ errno, r = .error errno ∧ e = .resource task p errno := by
  cases r with
  | ok t => simp [perform] at h
  | error errno => simp_all [perform]

theorem perform_of_ok {task : SurfaceTask} {p : Path} {s : Surface} {r : Except Errno Surface}
    (h : (perform task p s r).1 = .ok ()) : r = .ok (perform task p s r).2 := by
  cases r with
  | ok t => rfl
  | error errno => simp [perform] at h

theorem applyAll_append (root : Path) (ops more : List GraphOp) (s : Surface) :
    applyAll root (ops ++ more) s =
      match applyAll root ops s with
      | (.error e, t) => (.error e, t)
      | (.ok _, t) => applyAll root more t := by
  induction ops generalizing s with
  | nil => rfl
  | cons op ops ih =>
    rw [List.cons_append, applyAll, applyAll]
    rcases apply root op s with ⟨_ | _, t⟩
    · rfl
    · exact ih t

/-- No endpoint is missing exactly when both resources have their directories. -/
theorem missingEndpoint?_eq_none_iff {root : Path} {src dst : NodeId} {s : Surface} :
    missingEndpoint? root src dst s = none ↔
      s.isDir (nodePath root src) ∧ s.isDir (nodePath root dst) := by
  simp [missingEndpoint?]

/-- Where the directory for it is there, only the link itself is left to be laid. -/
theorem link_of_isDir {root : Path} {src dst : NodeId} {s : Surface}
    (hroutes : src.kind.routesTo dst.kind) (hsrc : s.isDir (nodePath root src))
    (hdst : s.isDir (nodePath root dst)) (hdir : s.isDir (linkDir root src dst.kind)) :
    link root src dst s =
      perform .link (linkPath root src dst) s
        (s.createLink (nodePath root dst) (linkPath root src dst)) := by
  rw [link, if_pos hroutes, missingEndpoint?_eq_none_iff.2 ⟨hsrc, hdst⟩, ensureLinkDir, if_pos hdir]

theorem readStatus_eq (root : Path) (connector : Nat) (s : Surface) :
    readStatus root connector s =
      match s.read (attrPath root (.connector connector) "status") with
      | .ok data => .ok (statusOfBytes? data)
      | .error e => .error (.resource .read (attrPath root (.connector connector) "status") e) := by
  unfold readStatus
  exact rfl

theorem readStatus_of_file {root : Path} {connector : Nat} {s : Surface} {data : Bytes}
    (h : s.entry? (attrPath root (.connector connector) "status") = some (.file data)) :
    readStatus root connector s = .ok (statusOfBytes? data) := by
  rw [readStatus_eq, Surface.read, h]

/-- What is written for a status reads back as that status. -/
theorem statusOfBytes?_codeBytes (status : ConnectorStatus) :
    statusOfBytes? (codeBytes status.code) = some status := by
  rw [statusOfBytes?, codeBytes, Bytes.decode_encode]
  cases status <;> decide

end DisplayTopology.Graph
