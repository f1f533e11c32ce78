import DisplayTopology.Proofs.Topology.Flush
import DisplayTopology.Proofs.Topology.PlanOrder

/-!
# What a plan admits

A plan knows a node only from the call that planned it (`mem_planned_ofCalls`): an operation that
makes a node without planning it is listed, and the node stays unknown. So whether the next
operation is admitted, and for which node it is turned down, can be read off the calls alone
(`push_decided`), and what was admitted finds its nodes made by operations before it
(`Sound.requires`).
-/

namespace DisplayTopology

namespace Plan

variable {calls : List PlanCall} {op : GraphOp} {node : NodeId}

/-! ## The nodes a plan knows -/

/-- **Step.** A call makes a node known by planning it, and in no other way. -/
theorem mem_planned_run {plan : Plan} {call : PlanCall} :
    node ∈ (call.run plan).planned ↔ call = .addNode node ∨ node ∈ plan.planned := by
  cases call with
  | addNode other => simp [PlanCall.run, mem_planned_addNode, eq_comm (a := node)]
  | push op =>
    rw [PlanCall.run]
    split
    · rename_i next hnext
      obtain ⟨-, rfl⟩ := push_eq_ok_iff.1 hnext
      simp
    · simp

theorem ofCalls_append_singleton (calls : List PlanCall) (call : PlanCall) :
    ofCalls (calls ++ [call]) = call.run (ofCalls calls) := by
  rw [ofCalls, List.foldl_concat, ofCalls]

/-- **Run.** The nodes that a plan knows are those that calls planned. -/
theorem mem_planned_ofCalls : node ∈ (ofCalls calls).planned ↔ .addNode node ∈ calls := by
  induction calls using List.reverseRecOn with
  | nil => simp [ofCalls, empty]
  | append_singleton calls call ih =>
    rw [ofCalls_append_singleton, mem_planned_run, ih, List.mem_append, List.mem_singleton,
      eq_comm (a := call), or_comm]

/-! ## The next operation -/

/-- Calls planned all nodes that an operation requires. -/
def Provided (calls : List PlanCall) (op : GraphOp) : Prop :=
  ∀ node ∈ op.requires, .addNode node ∈ calls

/-- The first node an operation requires that calls did not plan. -/
def FirstUnplanned (calls : List PlanCall) (op : GraphOp) (node : NodeId) : Prop :=
  ∃ front back, op.requires = front ++ node :: back ∧
    (∀ other ∈ front, .addNode other ∈ calls) ∧ .addNode node ∉ calls

/-- A link names its source before its destination. -/
theorem firstUnplanned_link_iff {src dst : NodeId} : FirstUnplanned calls (.link src dst) node ↔
    node = src ∧ .addNode src ∉ calls ∨
      node = dst ∧ .addNode src ∈ calls ∧ .addNode dst ∉ calls := by
  constructor
  · rintro ⟨front, back, hreq, hfront, hnode⟩
    match front with
    | [] =>
      obtain ⟨rfl, -⟩ := List.cons.inj hreq
      exact .inl ⟨rfl, hnode⟩
    | [other] =>
      obtain ⟨rfl, hrest⟩ := List.cons.inj hreq
      obtain ⟨rfl, -⟩ := List.cons.inj hrest
      exact .inr ⟨rfl, hfront _ List.mem_cons_self, hnode⟩
    | _ :: _ :: _ => simp [GraphOp.requires] at hreq
  · rintro (⟨rfl, hnode⟩ | ⟨rfl, hsrc, hnode⟩)
    · exact ⟨[], [dst], rfl, by simp, hnode⟩
    · exact ⟨[src], [], rfl, by simpa using hsrc, hnode⟩

/-- What becomes of an operation that is planned after calls. -/
structure Decided (calls : List PlanCall) (op : GraphOp) (r : Except TopologyError Plan) : Prop where
  /-- It is admitted when it is no unroutable link and calls planned its nodes; it is then the last
  operation, and no node becomes known. -/
  ok_iff : ∀ next, r = .ok next ↔ (op.unroutable = false ∧ Provided calls op) ∧
    next = { ofCalls calls with ops := (ofCalls calls).ops.push op }
  /-- A link between kinds that do not route to each other is turned down as such; any other
  operation is turned down for the first of its nodes that no call planned. -/
  error_iff : ∀ e, r = .error e ↔
    (op.unroutable ∧ ∃ src dst, op = .link src dst ∧ e = .invalidLink src dst) ∨
      op.unroutable = false ∧ ∃ node, FirstUnplanned calls op node ∧ e = .nodeNotPlanned op node
  /-- A routable link is turned down for its source if that is unknown, else for its destination. -/
  link_iff : ∀ src dst, op = .link src dst → src.kind.routesTo dst.kind → ∀ node,
    r = .error (.nodeNotPlanned op node) ↔ node = src ∧ .addNode src ∉ calls ∨
      node = dst ∧ .addNode src ∈ calls ∧ .addNode dst ∉ calls
  /-- The plan goes on with an admitted operation at its end; a node that it makes is listed among
  the nodes of the plan. -/
  admitted : ∀ next, r = .ok next → ofCalls (calls ++ [.push op]) = next ∧
    next.ops.toList = (ofCalls calls).ops.toList ++ [op] ∧
    next.nodes = (ofCalls calls).nodes ++ op.created?.toList
  /-- The plan stays as it was if the operation is turned down. -/
  rejected : ∀ e, r = .error e → ofCalls (calls ++ [.push op]) = ofCalls calls

theorem provided_iff : Provided calls op ↔ ∀ node ∈ op.requires, node ∈ (ofCalls calls).planned :=
  forall₂_congr fun _ _ => mem_planned_ofCalls.symm

theorem firstUnplanned_iff : FirstUnplanned calls op node ↔ (ofCalls calls).missing? op = some node := by
  rw [FirstUnplanned, missing?_eq_some_iff]
  simp only [mem_planned_ofCalls]

theorem nodes_push (plan : Plan) (op : GraphOp) :
    ({ plan with ops := plan.ops.push op } : Plan).nodes = plan.nodes ++ op.created?.toList := by
  rw [nodes, nodes, Array.toList_push, List.filterMap_append]
  cases h : op.created? <;> simp [h]

theorem push_decided (calls : List PlanCall) (op : GraphOp) :
    Decided calls op ((ofCalls calls).push op) := by
  have herror (e : TopologyError) : (ofCalls calls).push op = .error e ↔
      (op.unroutable ∧ ∃ src dst, op = .link src dst ∧ e = .invalidLink src dst) ∨
        op.unroutable = false ∧ ∃ node, FirstUnplanned calls op node ∧
          e = .nodeNotPlanned op node := by
    rw [push_eq_error_iff]
    simp only [firstUnplanned_iff]
  refine
    { ok_iff := fun next => by rw [push_eq_ok_iff, provided_iff]
      error_iff := herror
      link_iff := fun src dst hop hroute node => ?_
      admitted := fun next hnext => ?_
      rejected := fun e he => by rw [ofCalls_append_singleton, PlanCall.run, he] }
  · subst hop
    rw [herror, ← firstUnplanned_link_iff]
    simp [GraphOp.unroutable, hroute]
  · rw [ofCalls_append_singleton, PlanCall.run, hnext]
    obtain ⟨-, rfl⟩ := push_eq_ok_iff.1 hnext
    exact ⟨rfl, Array.toList_push, nodes_push _ op⟩

/-- **A plan admits an operation exactly when its nodes were planned**, and so every operation of a
plan that calls made comes after those that make its nodes. -/
theorem ofCalls_decided (calls : List PlanCall) :
    (∀ op, Decided calls op ((ofCalls calls).push op)) ∧
      ∀ front op back, (ofCalls calls).ops.toList = front ++ op :: back →
        op.unroutable = false ∧ ∀ node ∈ op.requires, .createNode node ∈ front :=
  ⟨push_decided calls, fun _ op _ hsplit =>
    ⟨(sound_ofCalls calls).admissible.unroutable (hsplit ▸ by simp),
      (sound_ofCalls calls).requires hsplit⟩⟩

end Plan

end DisplayTopology
