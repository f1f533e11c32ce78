import DisplayTopology.Topology.Error
import Std.Data.TreeSet.Lemmas

/-!
# Topology plans

A plan lists the operations that build a topology, before anything is touched. It admits an
operation only when the nodes it requires were planned and, for a link, when the two kinds route to
each other (`push_eq_ok_iff`), so the operations can be carried out in order. A plan also remembers
which planes belong to which connector.
-/

namespace DisplayTopology

/-- The planes of one connector: the indices from `first` up to, not including, `stop`. -/
structure PlaneRange where
  first : Nat
  stop : Nat
  deriving DecidableEq

namespace PlaneRange

/-- The indices of a range, in order. -/
def indices (r : PlaneRange) : List Nat := List.range' r.first (r.stop - r.first)

end PlaneRange

/-- The operations that build a topology. -/
structure Plan where
  /-- The operations, in order. -/
  ops : Array GraphOp
  /-- The nodes that operations may use. -/
  planned : Std.TreeSet NodeId
  /-- The planes of each connector, in order. -/
  planes : Array PlaneRange

namespace Plan

/-- The plan without operations. -/
def empty : Plan := ⟨#[], ∅, #[]⟩

/-- Plans a node. -/
def addNode (plan : Plan) (node : NodeId) : Plan :=
  { plan with ops := plan.ops.push (.createNode node), planned := plan.planned.insert node }

/-- The complaint about a link between kinds that do not route to each other. -/
def routeFault? : GraphOp → Option TopologyError
  | .link src dst => if src.kind.routesTo dst.kind then none else some (.invalidLink src dst)
  | _ => none

/-- The first node that an operation requires and that is not planned. -/
def missing? (plan : Plan) (op : GraphOp) : Option NodeId :=
  op.requires.find? fun node => !plan.planned.contains node

/-- Why an operation cannot be planned yet: it is an unroutable link, or a node is missing. -/
def fault? (plan : Plan) (op : GraphOp) : Option TopologyError :=
  routeFault? op <|> (plan.missing? op).map (.nodeNotPlanned op)

/-- Plans an operation on nodes planned before. Planned this way, a node's own operation does not
make the node known to later operations. -/
def push (plan : Plan) (op : GraphOp) : Except TopologyError Plan :=
  match plan.fault? op with
  | some e => .error e
  | none => .ok { plan with ops := plan.ops.push op }

/-- Plans operations in order. -/
def pushAll (plan : Plan) : List GraphOp → Except TopologyError Plan
  | [] => .ok plan
  | op :: ops =>
    match plan.push op with
    | .error e => .error e
    | .ok plan => plan.pushAll ops

/-- The nodes that the operations make, in order. -/
def nodes (plan : Plan) : List NodeId := plan.ops.toList.filterMap GraphOp.created?

/-- The number of connectors. -/
def connectorCount (plan : Plan) : Nat := plan.planes.size

/-- The number of planes of all connectors, which is the next free index. -/
def planeCount (plan : Plan) : Nat := (plan.planes.back?.map PlaneRange.stop).getD 0

/-- The planes of a connector. -/
def planesOf? (plan : Plan) (connector : Nat) : Option PlaneRange := plan.planes[connector]?

/-- Planning a node makes it known, and nothing else. -/
theorem mem_planned_addNode {plan : Plan} {node other : NodeId} :
    other ∈ (plan.addNode node).planned ↔ other = node ∨ other ∈ plan.planned := by
  simp [addNode, Std.TreeSet.mem_insert, eq_comm (a := node)]

theorem routeFault?_eq_none_iff {op : GraphOp} : routeFault? op = none ↔ op.unroutable = false := by
  cases op <;> simp [routeFault?, GraphOp.unroutable]

theorem missing?_eq_none_iff {plan : Plan} {op : GraphOp} :
    plan.missing? op = none ↔ ∀ node ∈ op.requires, node ∈ plan.planned := by
  simp [missing?]

theorem missing?_eq_some_iff {plan : Plan} {op : GraphOp} {node : NodeId} :
    plan.missing? op = some node ↔ ∃ front back, op.requires = front ++ node :: back ∧
      (∀ other ∈ front, other ∈ plan.planned) ∧ node ∉ plan.planned := by
  rw [missing?, List.find?_eq_some_iff_append]
  constructor
  · rintro ⟨hnode, front, back, hreq, hfront⟩
    exact ⟨front, back, hreq, by simpa using hfront, by grind⟩
  · rintro ⟨front, back, hreq, hfront, hnode⟩
    exact ⟨by grind, front, back, hreq, by simpa using hfront⟩

theorem routeFault?_eq_some_iff {op : GraphOp} {e : TopologyError} :
    routeFault? op = some e ↔
      op.unroutable ∧ ∃ src dst, op = .link src dst ∧ e = .invalidLink src dst := by
  cases op with
  | link src dst =>
    by_cases hroute : src.kind.routesTo dst.kind
    · simp [routeFault?, GraphOp.unroutable, hroute]
    · rw [routeFault?, if_neg hroute, Option.some.injEq]
      constructor
      · rintro rfl
        exact ⟨by simpa [GraphOp.unroutable] using hroute, src, dst, rfl, rfl⟩
      · rintro ⟨-, _, _, h, rfl⟩
        obtain ⟨rfl, rfl⟩ := GraphOp.link.inj h
        rfl
  | _ => simp [routeFault?, GraphOp.unroutable]

/-- An operation is admitted when it is no unroutable link and its nodes were planned. -/
theorem push_eq_ok_iff {plan next : Plan} {op : GraphOp} :
    plan.push op = .ok next ↔
      (op.unroutable = false ∧ ∀ node ∈ op.requires, node ∈ plan.planned) ∧
        next = { plan with ops := plan.ops.push op } := by
  rw [← routeFault?_eq_none_iff, ← missing?_eq_none_iff, push, fault?]
  cases routeFault? op <;> cases plan.missing? op <;> simp [eq_comm (a := next)]

/-- An unroutable link is turned down as such, whatever its nodes; any other operation is turned
down for the first of its nodes that was not planned. -/
theorem push_eq_error_iff {plan : Plan} {op : GraphOp} {e : TopologyError} :
    plan.push op = .error e ↔
      (op.unroutable ∧ ∃ src dst, op = .link src dst ∧ e = .invalidLink src dst) ∨
        op.unroutable = false ∧ ∃ node, plan.missing? op = some node ∧ e = .nodeNotPlanned op node := by
  rw [← routeFault?_eq_some_iff, ← routeFault?_eq_none_iff, push, fault?]
  cases routeFault? op <;> cases plan.missing? op <;> simp [eq_comm (a := e)]

end Plan

end DisplayTopology
