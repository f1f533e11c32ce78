import DisplayTopology.Proofs.Path.Respelling
import DisplayTopology.Script.Surface
import DisplayTopology.Surface.Driver
import DisplayTopology.Surface.Tree

/-!
# Surfaces under other spellings

Two surfaces differ in spelling only when they hold the same entries at the same locations, up to the
spelling of the keys and of what links lead to, under the same marks (`Surface.Respelled`). Calls
with respelled paths cannot tell such surfaces apart: each fault is the same (`creationFault?_eq` and
its like), so the calls fail alike or leave surfaces that again differ in spelling only
(`SurfaceCall.respelled_run`).
-/

namespace DisplayTopology

/-! ## Results -/

/-- Two results that are both errors or both values, and related as such. -/
inductive ResultRel {ε α ε' β : Type} (E : ε → ε' → Prop) (R : α → β → Prop) :
    Except ε α → Except ε' β → Prop where
  | error {e : ε} {e' : ε'} (h : E e e') : ResultRel E R (.error e) (.error e')
  | ok {a : α} {b : β} (h : R a b) : ResultRel E R (.ok a) (.ok b)

/-- Two outcomes with related answers and related states. -/
def Paired {α β σ τ : Type} (A : α → β → Prop) (R : σ → τ → Prop) (x : α × σ) (y : β × τ) : Prop :=
  A x.1 y.1 ∧ R x.2 y.2

/-! ## Entries and surfaces -/

/-- Two entries that differ at most in the spelling of what a link leads to. -/
inductive Entry.Respelled : Entry → Entry → Prop where
  | refl (e : Entry) : Respelled e e
  | link {p q : Path} (h : p.Respelled q) : Respelled (.link p) (.link q)

theorem Entry.Respelled.kind_eq {e f : Entry} (h : e.Respelled f) : e.kind = f.kind := by
  cases h <;> rfl

/-- Two surfaces that differ in spelling only. -/
structure Surface.Respelled (s t : Surface) : Prop where
  entries : PathMap.Rel Entry.Respelled s.entries t.entries
  groups : PathMap.Rel Eq s.groups t.groups
  pinned : s.pinned = t.pinned
  failures : PathMap.Rel Eq s.failures t.failures
  mutations : s.mutations = t.mutations

variable {s t : Surface} {p q target leadsTo : Path}

namespace Surface

/-- Two results of changing a surface: the same error, or surfaces that differ in spelling only. -/
abbrev ChangedAlike : Except Errno Surface → Except Errno Surface → Prop :=
  ResultRel Eq Surface.Respelled

namespace Respelled

/-! ## Reading -/

/-- A location holds the same entry, or links that lead to one place. -/
theorem find?_cases (h : s.Respelled t) (l : Location) :
    s.entries.find? l = t.entries.find? l ∨ ∃ a b, a.Respelled b ∧
      s.entries.find? l = some (.link a) ∧ t.entries.find? l = some (.link b) := by
  have hfind := h.entries.find? l
  generalize s.entries.find? l = x at hfind
  generalize t.entries.find? l = y at hfind
  rcases hfind with ⟨e | htarget⟩ | _
  · exact .inl rfl
  · exact .inr ⟨_, _, htarget, rfl, rfl⟩
  · exact .inl rfl

theorem entry?_cases (h : s.Respelled t) (hp : p.Respelled q) :
    s.entry? p = t.entry? q ∨ ∃ a b, a.Respelled b ∧
      s.entry? p = some (.link a) ∧ t.entry? q = some (.link b) := by
  unfold entry?
  rw [hp.location_eq]
  exact h.find?_cases q.location

theorem contains_eq (h : s.Respelled t) (hp : p.Respelled q) : s.contains p = t.contains q := by
  rw [contains, contains, hp.location_eq, h.entries.contains_eq]

theorem dirAt_eq (h : s.Respelled t) (l : Location) : s.dirAt l = t.dirAt l := by
  rcases h.find?_cases l with he | ⟨a, b, -, hs, ht⟩
  · rw [dirAt, dirAt, he]
  · rw [dirAt, dirAt, hs, ht]

theorem isDir_eq (h : s.Respelled t) (hp : p.Respelled q) : s.isDir p = t.isDir q := by
  rw [isDir, isDir, hp.location_eq, h.dirAt_eq]

theorem contents?_eq (h : s.Respelled t) (hp : p.Respelled q) : s.contents? p = t.contents? q := by
  rcases h.entry?_cases hp with he | ⟨a, b, -, hs, ht⟩
  · rw [contents?, contents?, he]
  · rw [contents?, contents?, hs, ht]

theorem target? (h : s.Respelled t) (hp : p.Respelled q) :
    Option.Rel Path.Respelled (s.target? p) (t.target? q) := by
  rcases h.entry?_cases hp with he | ⟨a, b, htarget, hs, ht⟩
  · rw [Surface.target?, Surface.target?, he]
    split
    · exact .some (.refl _)
    · exact .none
  · rw [Surface.target?, Surface.target?, hs, ht]
    exact .some htarget

theorem read_eq (h : s.Respelled t) (hp : p.Respelled q) : s.read p = t.read q := by
  rcases h.entry?_cases hp with he | ⟨a, b, -, hs, ht⟩
  · rw [read, read, he]
  · rw [read, read, hs, ht]

/-- The same entries lie directly in a directory. -/
theorem children (h : s.Respelled t) (dir : Location) :
    List.Forall₂ (KeyedRel Entry.Respelled) (s.children dir) (t.children dir) := by
  refine List.rel_filter (fun e f hef => ?_) (h.entries.below dir).level
  dsimp only
  rw [hef.1.location_eq]

theorem items_eq (h : s.Respelled t) (dir : Location) :
    (s.children dir).map Item.ofEntry = (t.children dir).map Item.ofEntry := by
  rw [← List.forall₂_eq_eq_eq, List.forall₂_map_left_iff, List.forall₂_map_right_iff]
  refine (h.children dir).imp fun e f hef => ?_
  rw [Item.ofEntry, Item.ofEntry, hef.1.name?_eq, hef.2.kind_eq]

theorem list_eq (h : s.Respelled t) (hp : p.Respelled q) : s.list p = t.list q := by
  rcases h.entry?_cases hp with he | ⟨a, b, -, hs, ht⟩
  · rw [list, list, he, hp.location_eq, h.items_eq]
  · rw [list, list, hs, ht]

theorem dirsBelow (h : s.Respelled t) (hp : p.Respelled q) :
    List.Forall₂ Path.Respelled (s.dirsBelow p) (t.dirsBelow q) := by
  unfold Surface.dirsBelow
  rw [hp.location_eq, List.forall₂_map_left_iff, List.forall₂_map_right_iff]
  refine (List.rel_filter (fun e f hef => ?_) (h.entries.below q.location).entries).imp
    fun e f hef => hef.1
  dsimp only
  rw [hef.2.kind_eq]

/-! ## Marks -/

theorem addKernelDirs (h : s.Respelled t) (hp : p.Respelled q) :
    (s.addKernelDirs p).Respelled (t.addKernelDirs q) := by
  refine ⟨?_, h.groups, h.pinned, h.failures, h.mutations⟩
  exact List.rel_foldl (fun _ _ hm _ _ hdir => hm.insertIfNew hdir (.refl (.dir .kernel)))
    h.entries hp.ancestors

theorem groupsIn_eq (h : s.Respelled t) (dir : Location) : s.groupsIn dir = t.groupsIn dir := by
  rw [groupsIn, groupsIn, h.groups.find?_eq]

theorem addDefaultGroups (h : s.Respelled t) (hp : p.Respelled q) (names : List String) :
    (s.addDefaultGroups p names).Respelled (t.addDefaultGroups q names) := by
  refine ⟨h.entries, ?_, h.pinned, h.failures, h.mutations⟩
  exact h.groups.insert hp (by rw [hp.location_eq, h.groupsIn_eq])

theorem pin (h : s.Respelled t) (hp : p.Respelled q) : (s.pin p).Respelled (t.pin q) :=
  ⟨h.entries, h.groups, congrArg₂ List.cons hp h.pinned, h.failures, h.mutations⟩

theorem failOn (h : s.Respelled t) (hp : p.Respelled q) (e : Errno) :
    (s.failOn p e).Respelled (t.failOn q e) :=
  ⟨h.entries, h.groups, h.pinned, h.failures.insert hp rfl, h.mutations⟩

/-! ## Faults -/

theorem parentFault?_eq (h : s.Respelled t) (l : Location) :
    s.parentFault? l = t.parentFault? l := by
  rw [parentFault?, parentFault?]
  cases l.parent? with
  | none => rfl
  | some dir =>
    rcases h.find?_cases dir with he | ⟨a, b, -, hs, ht⟩
    · simp only [he]
    · simp only [hs, ht]

theorem creationFault?_eq (h : s.Respelled t) (l : Location) :
    s.creationFault? l = t.creationFault? l := by
  rw [creationFault?, creationFault?, h.failures.find?_eq, h.entries.contains_eq,
    h.parentFault?_eq]

theorem writeFault?_eq (h : s.Respelled t) (l : Location) : s.writeFault? l = t.writeFault? l := by
  rw [writeFault?, writeFault?, h.failures.find?_eq, h.dirAt_eq, h.parentFault?_eq]

/-- The same directories hold what some link leads to. -/
theorem referenced_eq (h : s.Respelled t) (l : Location) : s.referenced l = t.referenced l := by
  refine h.entries.any_eq fun ⟨_, e⟩ ⟨_, f⟩ ⟨_, he⟩ => ?_
  cases he with
  | refl => rfl
  | link htarget =>
    dsimp only
    rw [htarget.location_eq]

theorem busyFault?_eq (h : s.Respelled t) (l : Location) : s.busyFault? l = t.busyFault? l := by
  rw [busyFault?, busyFault?, h.pinned, h.referenced_eq]

/-- The same thing holds a directory first. -/
theorem heldFault?_eq (h : s.Respelled t) {below below' : Trie Entry}
    (hb : Trie.Rel Entry.Respelled below below') (dir : Location) :
    s.heldFault? dir below = t.heldFault? dir below' := by
  induction hb generalizing dir with
  | empty => rfl
  | node step hslot _ _ _ below before after =>
    unfold heldFault?
    rw [before, after]
    cases hslot with
    | none => rfl
    | @some e f hef =>
      obtain ⟨_, e⟩ := e
      obtain ⟨_, f⟩ := f
      obtain ⟨-, he⟩ : _ ∧ e.Respelled f := hef
      cases he with
      | link => rfl
      | refl =>
        rcases e with (_ | _) | _ | _
        · rw [h.busyFault?_eq, below]
        · rfl
        · rfl
        · rfl

theorem removalFault?_eq (h : s.Respelled t) (l : Location) :
    s.removalFault? l = t.removalFault? l := by
  rw [removalFault?, removalFault?, h.busyFault?_eq, h.heldFault?_eq (h.entries.below l)]

/-! ## Changes -/

theorem groupsFor_eq (h : s.Respelled t) (l : Location) : s.groupsFor l = t.groupsFor l := by
  rw [groupsFor, groupsFor]
  cases l.parent? with
  | none => rfl
  | some dir => rw [Option.map_some, Option.map_some, h.groupsIn_eq]

theorem addGroups {m n : PathMap Entry} (h : PathMap.Rel Entry.Respelled m n)
    (hp : p.Respelled q) (names : List String) :
    PathMap.Rel Entry.Respelled (addGroups p names m) (addGroups q names n) := by
  induction names generalizing m n with
  | nil => exact h
  | cons name names ih => exact ih (h.insert (hp.child name) (.refl (.dir .kernel)))

theorem createDir (h : s.Respelled t) (hp : p.Respelled q) :
    ChangedAlike (s.createDir p) (t.createDir q) := by
  unfold Surface.createDir
  rw [hp.location_eq, h.creationFault?_eq, h.groupsFor_eq]
  split
  · exact .error rfl
  · exact .ok ⟨addGroups (h.entries.insert hp (.refl (.dir .user))) hp _, h.groups, h.pinned,
      h.failures, congrArg (· + 1) h.mutations⟩

theorem write (h : s.Respelled t) (hp : p.Respelled q) (data : Bytes) :
    ChangedAlike (s.write p data) (t.write q data) := by
  unfold Surface.write
  rw [hp.location_eq, h.writeFault?_eq]
  split
  · exact .error rfl
  · exact .ok ⟨h.entries.insert hp (.refl (.file data)), h.groups, h.pinned, h.failures,
      congrArg (· + 1) h.mutations⟩

theorem createLink (h : s.Respelled t) (htarget : target.Respelled leadsTo)
    (hp : p.Respelled q) : ChangedAlike (s.createLink target p) (t.createLink leadsTo q) := by
  unfold Surface.createLink
  rw [hp.location_eq, h.creationFault?_eq]
  split
  · exact .error rfl
  · exact .ok ⟨h.entries.insert hp (.link htarget), h.groups, h.pinned, h.failures,
      congrArg (· + 1) h.mutations⟩

theorem removeLink (h : s.Respelled t) (hp : p.Respelled q) :
    ChangedAlike (s.removeLink p) (t.removeLink q) := by
  have hgone : ({ s with
      entries := s.entries.erase p.location, mutations := s.mutations + 1 } : Surface).Respelled
      { t with entries := t.entries.erase q.location, mutations := t.mutations + 1 } := by
    rw [hp.location_eq]
    exact ⟨h.entries.erase q.location, h.groups, h.pinned, h.failures,
      congrArg (· + 1) h.mutations⟩
  rcases h.entry?_cases hp with he | ⟨a, b, -, hs, ht⟩
  · rw [Surface.removeLink, Surface.removeLink, he]
    split
    · exact .ok hgone
    · exact .error rfl
    · exact .error rfl
    · exact .error rfl
  · rw [Surface.removeLink, Surface.removeLink, hs, ht]
    exact .ok hgone

theorem removeDir (h : s.Respelled t) (hp : p.Respelled q) :
    ChangedAlike (s.removeDir p) (t.removeDir q) := by
  rcases h.entry?_cases hp with he | ⟨a, b, -, hs, ht⟩
  · rw [Surface.removeDir, Surface.removeDir, he, hp.location_eq, h.removalFault?_eq]
    split
    · exact .error rfl
    · split
      · exact .error rfl
      · exact .ok ⟨h.entries.prune q.location, h.groups, h.pinned, h.failures,
          congrArg (· + 1) h.mutations⟩
    · exact .error rfl
    · exact .error rfl
  · rw [Surface.removeDir, Surface.removeDir, hs, ht]
    exact .error rfl

end Respelled

/-! ## The surfaces that scripts start from -/

theorem respelled_empty : Surface.empty.Respelled Surface.empty := by
  have hroot : PathMap.Rel Entry.Respelled Surface.empty.entries Surface.empty.entries :=
    PathMap.Rel.empty.insert (.refl (.ofText "/")) (Entry.Respelled.refl (.dir .kernel))
  exact ⟨hroot, .empty, rfl, .empty, rfl⟩

theorem respelled_ofDriver {root root' : Path} (h : root.Respelled root') :
    (ofDriver root).Respelled (ofDriver root') := by
  have hparent := h.parent?
  unfold ofDriver
  generalize root.parent? = x at hparent
  generalize root'.parent? = y at hparent
  cases hparent with
  | none =>
    exact ((respelled_empty.addDefaultGroups (h.child _) _).addDefaultGroups
      (h.child _) _).addDefaultGroups (h.child _) _
  | some hdir =>
    have hbase := (respelled_empty.addKernelDirs hdir).addDefaultGroups hdir
      (ResourceKind.all.map ResourceKind.group)
    exact ((hbase.addDefaultGroups (h.child _) _).addDefaultGroups
      (h.child _) _).addDefaultGroups (h.child _) _

end Surface

/-! ## Printed trees -/

/-- Two lines that differ at most in how a path and what a link leads to are spelled. -/
inductive TreeLine.Respelled : TreeLine → TreeLine → Prop where
  | dir {p q : Path} (h : p.Respelled q) : Respelled (.dir p) (.dir q)
  | file {p q : Path} (h : p.Respelled q) (data : Bytes) : Respelled (.file p data) (.file q data)
  | link {p q target leadsTo : Path} (h : p.Respelled q) (htarget : target.Respelled leadsTo) :
      Respelled (.link p target) (.link q leadsTo)

namespace Surface.Respelled

theorem target?_getD (h : s.Respelled t) (hp : p.Respelled q) (fallback : Path) :
    ((s.target? p).getD fallback).Respelled ((t.target? q).getD fallback) := by
  have htarget := h.target? hp
  generalize s.target? p = x at htarget
  generalize t.target? q = y at htarget
  cases htarget with
  | none => exact .refl fallback
  | some hab => exact hab

/-- What a directory lists is printed with the same lines. -/
theorem linesBelow (h : s.Respelled t) (depth : Nat) (hp : p.Respelled q) :
    List.Forall₂ TreeLine.Respelled (s.linesBelow depth p) (t.linesBelow depth q) := by
  induction depth generalizing p q with
  | zero => exact .nil
  | succ depth ih =>
    rw [Surface.linesBelow, Surface.linesBelow, h.list_eq hp]
    cases t.list q with
    | error _ => exact .nil
    | ok items =>
      refine List.rel_flatMap (List.forall₂_same.2 fun _ _ => rfl) fun item _ hitem => ?_
      subst hitem
      have hhere := hp.child item.name
      dsimp only
      cases item.kind with
      | dir =>
        refine .cons (.dir hhere) ?_
        split
        · exact .nil
        · exact ih hhere
      | file =>
        rw [h.contents?_eq hhere]
        exact .cons (.file hhere _) .nil
      | link => exact .cons (.link hhere (h.target?_getD hhere _)) .nil

theorem tree (h : s.Respelled t) (hp : p.Respelled q) :
    List.Forall₂ TreeLine.Respelled (s.tree p) (t.tree q) := by
  rw [Surface.tree, Surface.tree, h.entries.entries.length_eq]
  exact h.linesBelow _ hp

end Surface.Respelled

/-! ## Calls -/

/-- Two calls of one kind whose paths are respelled and whose other arguments are the same. -/
inductive SurfaceCall.Respelled : SurfaceCall → SurfaceCall → Prop where
  | createDir {p q : Path} (h : p.Respelled q) : Respelled (.createDir p) (.createDir q)
  | removeLink {p q : Path} (h : p.Respelled q) : Respelled (.removeLink p) (.removeLink q)
  | removeDir {p q : Path} (h : p.Respelled q) : Respelled (.removeDir p) (.removeDir q)
  | write {p q : Path} (h : p.Respelled q) (data : Bytes) : Respelled (.write p data) (.write q data)
  | read {p q : Path} (h : p.Respelled q) : Respelled (.read p) (.read q)
  | createLink {target leadsTo p q : Path} (htarget : target.Respelled leadsTo)
      (h : p.Respelled q) : Respelled (.createLink target p) (.createLink leadsTo q)
  | list {p q : Path} (h : p.Respelled q) : Respelled (.list p) (.list q)
  | isDir {p q : Path} (h : p.Respelled q) : Respelled (.isDir p) (.isDir q)
  | contains {p q : Path} (h : p.Respelled q) : Respelled (.contains p) (.contains q)
  | contents {p q : Path} (h : p.Respelled q) : Respelled (.contents p) (.contents q)
  | target {p q : Path} (h : p.Respelled q) : Respelled (.target p) (.target q)
  | dirsBelow {p q : Path} (h : p.Respelled q) : Respelled (.dirsBelow p) (.dirsBelow q)
  | addKernelDirs {p q : Path} (h : p.Respelled q) : Respelled (.addKernelDirs p) (.addKernelDirs q)
  | addDefaultGroups {p q : Path} (h : p.Respelled q) (names : List String) :
      Respelled (.addDefaultGroups p names) (.addDefaultGroups q names)
  | pin {p q : Path} (h : p.Respelled q) : Respelled (.pin p) (.pin q)
  | failOn {p q : Path} (h : p.Respelled q) (e : Errno) : Respelled (.failOn p e) (.failOn q e)
  | tree {p q : Path} (h : p.Respelled q) : Respelled (.tree p) (.tree q)

/-- Two answers that differ at most in how paths are spelled. -/
inductive SurfaceAnswer.Respelled : SurfaceAnswer → SurfaceAnswer → Prop where
  | refl (answer : SurfaceAnswer) : Respelled answer answer
  | target {x y : Option Path} (h : Option.Rel Path.Respelled x y) : Respelled (.target x) (.target y)
  | paths {ps qs : List Path} (h : List.Forall₂ Path.Respelled ps qs) :
      Respelled (.paths ps) (.paths qs)
  | lines {ls ms : List TreeLine} (h : List.Forall₂ TreeLine.Respelled ls ms) :
      Respelled (.lines ls) (.lines ms)

namespace SurfaceCall

theorem respelled_ofChange {r r' : Except Errno Surface} (h : s.Respelled t)
    (hr : Surface.ChangedAlike r r') :
    Paired SurfaceAnswer.Respelled Surface.Respelled (ofChange s r) (ofChange t r') := by
  cases hr with
  | error he => exact ⟨he ▸ .refl _, h⟩
  | ok hst => exact ⟨.refl _, hst⟩

theorem respelled_answer {answer answer' : SurfaceAnswer} (h : s.Respelled t)
    (ha : answer = answer') :
    Paired SurfaceAnswer.Respelled Surface.Respelled (answer, s) (answer', t) :=
  ⟨ha ▸ .refl answer, h⟩

/-- **Calls under other spellings.** Respelled calls of surfaces that differ in spelling only answer
alike and leave surfaces that differ in spelling only. -/
theorem respelled_run {call call' : SurfaceCall} (h : s.Respelled t) (hcall : call.Respelled call') :
    Paired SurfaceAnswer.Respelled Surface.Respelled (call.run s) (call'.run t) := by
  cases hcall with
  | createDir hp => exact respelled_ofChange h (h.createDir hp)
  | removeLink hp => exact respelled_ofChange h (h.removeLink hp)
  | removeDir hp => exact respelled_ofChange h (h.removeDir hp)
  | write hp data => exact respelled_ofChange h (h.write hp data)
  | createLink htarget hp => exact respelled_ofChange h (h.createLink htarget hp)
  | read hp => exact respelled_answer h (congrArg (ofReading .data) (h.read_eq hp))
  | list hp => exact respelled_answer h (congrArg (ofReading .items) (h.list_eq hp))
  | isDir hp => exact respelled_answer h (congrArg SurfaceAnswer.flag (h.isDir_eq hp))
  | contains hp => exact respelled_answer h (congrArg SurfaceAnswer.flag (h.contains_eq hp))
  | contents hp => exact respelled_answer h (congrArg SurfaceAnswer.contents (h.contents?_eq hp))
  | target hp => exact ⟨.target (h.target? hp), h⟩
  | dirsBelow hp => exact ⟨.paths (h.dirsBelow hp), h⟩
  | tree hp => exact ⟨.lines (h.tree hp), h⟩
  | addKernelDirs hp => exact ⟨.refl _, h.addKernelDirs hp⟩
  | addDefaultGroups hp names => exact ⟨.refl _, h.addDefaultGroups hp names⟩
  | pin hp => exact ⟨.refl _, h.pin hp⟩
  | failOn hp e => exact ⟨.refl _, h.failOn hp e⟩

end SurfaceCall

end DisplayTopology
