import DisplayTopology.Proofs.Session.Apart
import DisplayTopology.Proofs.Topology.Locality

/-!
# What a teardown depends on

A teardown beside another topology sees its own only. On surfaces that are alike off the other root,
and in order for the own one, the walks make the same calls with the same outcomes: they list what
lies below the own root, and a link of the other topology holds no directory there. That they may
descend to different depths, because the surfaces differ in size, makes no difference where both
depths suffice. So the walks log the same events and leave surfaces that are alike
(`same_removeTopology`).
-/

namespace DisplayTopology

open Location Surface

/-- Two surfaces in order for work at the root `own`, and alike off the other root. -/
structure Alike (own other : Location) (s t : Surface) : Prop where
  alikeOff : AlikeOff other s t
  left : Apart own other s
  right : Apart own other t

/-- Two runs that end with the same answer and related states. -/
def SameRun {α σ : Type} (R : σ → σ → Prop) (x y : Option (α × σ)) : Prop :=
  ∃ a b, x = some a ∧ y = some b ∧ Same R a b

/-- Two runs that end with the same answer and related states if they both end. -/
def SameEnd {α σ : Type} (R : σ → σ → Prop) (x y : Option (α × σ)) : Prop :=
  ∀ a b, x = some a → y = some b → Same R a b

section

variable {α β σ : Type} {R : σ → σ → Prop}

theorem SameRun.some {x y : α × σ} (h : Same R x y) : SameRun R (.some x) (.some y) :=
  ⟨x, y, rfl, rfl, h⟩

theorem SameRun.map {x y : Option (α × σ)} (h : SameRun R x y) (f : α → β) :
    SameRun R (x.map fun (a, s) => (f a, s)) (y.map fun (a, s) => (f a, s)) := by
  obtain ⟨⟨a, s⟩, ⟨b, t⟩, rfl, rfl, hab, hst⟩ := h
  exact ⟨_, _, rfl, rfl, congrArg f hab, hst⟩

theorem SameEnd.some {x y : α × σ} (h : Same R x y) : SameEnd R (.some x) (.some y) := by
  rintro a b ⟨⟩ ⟨⟩
  exact h

end

variable {own other : Location} {s t : Surface} {dir : Path} {items : List Item}

/-- Outcomes that are alike are in order if calls for the topology led to them. -/
theorem Alike.same {α : Type} {x y : α × Surface} (h : Alike own other s t)
    (hsep : Separate own other) (hxy : Same (AlikeOff other) x y) (hx : Changes own s x.2)
    (hy : Changes own t y.2) : Same (Alike own other) x y :=
  ⟨hxy.1, hxy.2, h.left.changes_own hsep hx, h.right.changes_own hsep hy⟩

/-- What is done for the other topology leaves a surface alike. -/
theorem Alike.frame {u : Surface} (h : Alike own other s t) (hsep : Separate own other)
    (hs : Changes other s u) : Alike own other u t :=
  ⟨(hs.alikeOff h.left.groups).trans h.alikeOff, h.left.changes_other hsep hs, h.right⟩

namespace Teardown

/-! ## Steps of a walk -/

theorem same_tryRemove (h : Alike own other s t) (hsep : Separate own other)
    (hw : dir.location.within own) : Same (Alike own other) (tryRemove dir s) (tryRemove dir t) := by
  have hcall := h.alikeOff.removeDir h.left.tree h.right.tree (hsep.of_within hw)
    (h.left.untargeted.of_within hw) (h.right.untargeted.of_within hw)
  refine h.same hsep ?_ (trace_tryRemove s hw).changes (trace_tryRemove t hw).changes
  unfold tryRemove
  generalize hx : s.removeDir dir = x at hcall
  generalize hy : t.removeDir dir = y at hcall
  cases hcall with
  | ok huv => exact ⟨rfl, huv⟩
  | error e => exact ⟨rfl, h.alikeOff⟩

theorem same_unlinkAll (h : Alike own other s t) (hsep : Separate own other)
    (hw : ∀ item ∈ items, (dir / item.name).location.within own) :
    Same (Alike own other) (unlinkAll dir items s) (unlinkAll dir items t) := by
  refine h.same hsep ?_ (trace_unlinkAll s hw).changes (trace_unlinkAll t hw).changes
  have halike := h.alikeOff
  clear h
  induction items generalizing s t with
  | nil => exact ⟨rfl, halike⟩
  | cons item items ih =>
    obtain ⟨hitem, hitems⟩ := List.forall_mem_cons.1 hw
    have hcall := halike.removeLink (hsep.of_within hitem)
    rw [unlinkAll, unlinkAll]
    generalize hx : s.removeLink (dir / item.name) = x at hcall
    generalize hy : t.removeLink (dir / item.name) = y at hcall
    cases hcall with
    | ok huv =>
      obtain ⟨hevents, hrest⟩ := ih hitems huv
      exact ⟨congrArg (List.cons _) hevents, hrest⟩
    | error e =>
      obtain ⟨hevents, hrest⟩ := ih hitems halike
      exact ⟨congrArg (List.cons _) hevents, hrest⟩

theorem same_clearLinkDir (h : Alike own other s t) (hsep : Separate own other)
    (hw : dir.location.within own) :
    Same (Alike own other) (clearLinkDir dir s) (clearLinkDir dir t) := by
  have hlisted : listed s dir = listed t dir := by
    rw [listed, listed, h.alikeOff.list (hsep.of_within hw)]
  have hitems : ∀ item ∈ listed t dir, (dir / item.name).location.within own := by
    intro item hi
    unfold listed at hi
    split at hi
    · rename_i items hlist
      exact within_item_root hw hlist hi
    · simp at hi
  obtain ⟨hevents, hsurface⟩ := same_unlinkAll h hsep hitems
  obtain ⟨hevent, hlast⟩ := same_tryRemove hsurface hsep hw
  rw [clearLinkDir, clearLinkDir, hlisted]
  exact ⟨congrArg₂ (fun events event => events ++ [event]) hevents hevent, hlast⟩

/-- Visiting the same listed directories ends the same way if every visit does. -/
theorem same_overDirs {visit visit' : String → Surface → Option Walked}
    (hvisit : ∀ item ∈ items, ∀ s t, Alike own other s t →
      SameEnd (Alike own other) (visit item.name s) (visit' item.name t))
    (h : Alike own other s t) :
    SameEnd (Alike own other) (overDirs visit items s) (overDirs visit' items t) := by
  induction items generalizing s t with
  | nil => exact .some ⟨rfl, h⟩
  | cons item items ih =>
    obtain ⟨hitem, hitems⟩ := List.forall_mem_cons.1 hvisit
    rw [overDirs, overDirs]
    cases item.kind with
    | file | link => exact ih hitems h
    | dir =>
      intro a b ha hb
      cases hs : visit item.name s with
      | none => simp [hs] at ha
      | some first =>
        cases ht : visit' item.name t with
        | none => simp [ht] at hb
        | some first' =>
          obtain ⟨hevents, halike⟩ := hitem s t h first first' hs ht
          rw [hs] at ha
          rw [ht] at hb
          obtain ⟨rest, hrest, rfl⟩ := Option.map_eq_some_iff.1 ha
          obtain ⟨rest', hrest', rfl⟩ := Option.map_eq_some_iff.1 hb
          obtain ⟨hmore, hlast⟩ := ih hitems halike rest rest' hrest hrest'
          exact ⟨congrArg₂ (· ++ ·) hevents hmore, hlast⟩

/-! ## Walks -/

theorem same_clearLinks {n m : Nat} (h : Alike own other s t) (hsep : Separate own other)
    (hw : dir.location.within own) :
    SameEnd (Alike own other) (clearLinks n dir s) (clearLinks m dir t) := by
  -- the two depths go down together; that one may run out first is why ends are compared, not runs
  induction n generalizing m dir s t with
  | zero => exact fun a b ha => by simp [clearLinks] at ha
  | succ n ih =>
    cases m with
    | zero => exact fun a b _ hb => by simp [clearLinks] at hb
    | succ m =>
      rw [clearLinks, clearLinks, h.alikeOff.list (hsep.of_within hw)]
      cases hlist : t.list dir with
      | error e => exact .some ⟨rfl, h⟩
      | ok items =>
        refine same_overDirs (fun item hi s t h => ?_) h
        have hitem := within_item_root hw hlist hi
        split
        · exact .some (same_clearLinkDir h hsep hitem)
        · exact ih h hitem

theorem same_removeTree {n m : Nat} (h : Alike own other s t) (hsep : Separate own other)
    (hw : dir.location.within own) :
    SameEnd (Alike own other) (removeTree n dir s) (removeTree m dir t) := by
  induction n generalizing m dir s t with
  | zero => exact fun a b ha => by simp [removeTree] at ha
  | succ n ih =>
    cases m with
    | zero => exact fun a b _ hb => by simp [removeTree] at hb
    | succ m =>
      rw [removeTree, removeTree, h.alikeOff.list (hsep.of_within hw)]
      cases hlist : t.list dir with
      | error e => cases e <;> exact .some ⟨rfl, h⟩
      | ok items =>
        have hdirs : SameEnd (Alike own other)
            (overDirs (fun name s => removeTree n (dir / name) s) items s)
            (overDirs (fun name s => removeTree m (dir / name) s) items t) :=
          same_overDirs (fun item hi s t h => ih h (within_item_root hw hlist hi)) h
        intro a b ha hb
        dsimp only at ha hb
        split at ha
        · simp at ha
        · rename_i first u hu
          split at hb
          · simp at hb
          · rename_i first' v hv
            obtain ⟨hevents, halike⟩ := hdirs _ _ hu hv
            obtain ⟨hevent, hlast⟩ := same_tryRemove halike hsep hw
            obtain rfl := Option.some.inj ha
            obtain rfl := Option.some.inj hb
            exact ⟨congrArg₂ (fun events event => events ++ [event]) hevents hevent, hlast⟩

/-- **Locality of the walks.** On surfaces that are alike both walks end, with the same events. -/
theorem same_removeTopology {root : Path} (h : Alike root.location other s t)
    (hsep : Separate root.location other) :
    SameRun (Alike root.location other) (removeTopology root s) (removeTopology root t) := by
  obtain ⟨events, u, hs, -⟩ := removeTopology_spec h.left.tree h.left.plain hsep.ne_nil
  obtain ⟨events', v, ht, -⟩ := removeTopology_spec h.right.tree h.right.plain hsep.ne_nil
  refine ⟨_, _, hs, ht, ?_⟩
  rw [removeTopology] at hs ht
  split at hs
  · simp at hs
  · rename_i first x hx
    split at ht
    · simp at ht
    · rename_i first' y hy
      obtain ⟨hevents, halike⟩ := same_clearLinks h hsep (within_refl _) _ _ hx hy
      obtain ⟨rest, hrest, heq⟩ := Option.map_eq_some_iff.1 hs
      obtain ⟨rest', hrest', heq'⟩ := Option.map_eq_some_iff.1 ht
      obtain ⟨hmore, hlast⟩ := same_removeTree halike hsep (within_refl _) _ _ hrest hrest'
      rw [← heq, ← heq']
      exact ⟨congrArg₂ (· ++ ·) hevents hmore, hlast⟩

end Teardown

end DisplayTopology
