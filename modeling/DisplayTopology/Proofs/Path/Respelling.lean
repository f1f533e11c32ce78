import DisplayTopology.Path.Ancestors
import DisplayTopology.Path.Map
import Mathlib.Data.List.Forall2

/-!
# Spellings of a path

One location has many spellings: slashes may be repeated or stand at the end, and a dot that is no
first component may be left out. Paths of one location are respellings of each other, and whatever is
made from respelled paths is respelled alike (`Path.Respelled.join`, `Path.Respelled.ancestors`).

Maps keyed by path are related when they hold related values at the same locations, whatever the
keys are spelled like (`PathMap.Rel`). Maps find their entries step by step, so related maps have
the same shape, and each reading of a map and each change to it keeps the relation by induction on
that shape.
-/

namespace DisplayTopology

/-! ## Paths -/

namespace Path

/-- Two paths are spellings of one location. -/
def Respelled (p q : Path) : Prop := p.location = q.location

instance (p q : Path) : Decidable (p.Respelled q) := inferInstanceAs (Decidable (_ = _))

variable {p q a b : Path}

theorem Respelled.refl (p : Path) : p.Respelled p := rfl

theorem Respelled.location_eq (h : p.Respelled q) : p.location = q.location := h

theorem Respelled.bytes_eq_nil_iff (h : p.Respelled q) : p.bytes = [] ↔ q.bytes = [] := by
  rw [← location_eq_nil_iff, ← location_eq_nil_iff, h.location_eq]

theorem Respelled.isAbsolute_eq (h : p.Respelled q) : p.isAbsolute = q.isAbsolute := by
  rw [isAbsolute, isAbsolute, h.location_eq]

theorem Respelled.name?_eq (h : p.Respelled q) : p.name? = q.name? := by
  rw [name?, name?, h.location_eq]

/-- Joined paths are respelled with their parts. -/
theorem Respelled.join (hp : p.Respelled q) (ha : a.Respelled b) :
    (p.join a).Respelled (q.join b) := by
  cases habs : a.isAbsolute with
  | true =>
    rw [join_of_isAbsolute habs, join_of_isAbsolute (ha.isAbsolute_eq ▸ habs)]
    exact ha
  | false =>
    have hadded : p.added a = q.added b := by
      rw [added, added, ha.location_eq]
      exact if_congr hp.bytes_eq_nil_iff rfl rfl
    rw [Respelled, location_join habs, location_join (ha.isAbsolute_eq ▸ habs), hp.location_eq,
      hadded]

theorem Respelled.child (h : p.Respelled q) (name : String) : (p / name).Respelled (q / name) :=
  h.join (.refl (ofText name))

theorem forall₂_respelled_iff {ps qs : List Path} :
    List.Forall₂ Respelled ps qs ↔ ps.map location = qs.map location := by
  rw [← List.forall₂_eq_eq_eq, List.forall₂_map_left_iff, List.forall₂_map_right_iff]
  rfl

/-- Respelled paths lead through respelled directories. -/
theorem Respelled.parents (h : p.Respelled q) : List.Forall₂ Respelled p.parents q.parents := by
  rw [forall₂_respelled_iff, map_location_parents, map_location_parents, h.isAbsolute_eq,
    h.location_eq]

theorem Respelled.ancestors (h : p.Respelled q) :
    List.Forall₂ Respelled p.ancestors q.ancestors :=
  .cons h h.parents

theorem Respelled.parent? (h : p.Respelled q) : Option.Rel Respelled p.parent? q.parent? := by
  have hparents := h.parents
  unfold Path.parent?
  cases hp : p.parents <;> cases hq : q.parents <;> rw [hp, hq] at hparents <;> cases hparents
  · exact .none
  · exact .some ‹_›

end Path

/-! ## Relations on options -/

section

variable {α β γ δ : Type} {R : α → β → Prop} {S : γ → δ → Prop} {x : Option α} {y : Option β}

theorem optionRel_eq_iff {x y : Option α} : Option.Rel Eq x y ↔ x = y := by
  constructor
  · rintro (⟨rfl⟩ | _) <;> rfl
  · rintro rfl
    cases x
    · exact .none
    · exact .some rfl

theorem optionRel_isSome (h : Option.Rel R x y) : x.isSome = y.isSome := by
  cases h <;> rfl

theorem optionRel_map {f : α → γ} {g : β → δ} (h : Option.Rel R x y)
    (hfg : ∀ a b, R a b → S (f a) (g b)) : Option.Rel S (x.map f) (y.map g) := by
  cases h with
  | some h => exact .some (hfg _ _ h)
  | none => exact .none

theorem optionRel_any {f : α → Bool} {g : β → Bool} (hfg : ∀ a b, R a b → f a = g b)
    (h : Option.Rel R x y) : x.any f = y.any g := by
  cases h with
  | some h => exact hfg _ _ h
  | none => rfl

/-- Searches that ask the same of related lists find related elements. -/
theorem optionRel_find? {f : α → Bool} {g : β → Bool} (hfg : ∀ a b, R a b → f a = g b)
    {xs : List α} {ys : List β} (h : List.Forall₂ R xs ys) :
    Option.Rel R (xs.find? f) (ys.find? g) := by
  induction h with
  | nil => exact .none
  | cons hab _ ih =>
    rw [List.find?_cons, List.find?_cons, hfg _ _ hab]
    split
    · exact .some hab
    · exact ih

theorem optionRel_toList (h : Option.Rel R x y) : List.Forall₂ R x.toList y.toList := by
  cases h with
  | some h => exact .cons h .nil
  | none => exact .nil

end

/-! ## Tries -/

/-- Two keyed values: one location, and related values. -/
def KeyedRel {α β : Type} (R : α → β → Prop) (e : Path × α) (f : Path × β) : Prop :=
  e.1.Respelled f.1 ∧ R e.2 f.2

/-- Tries with the same steps, and related values at them. -/
inductive Trie.Rel {α β : Type} (R : α → β → Prop) : Trie α → Trie β → Prop where
  | empty : Trie.Rel R .empty .empty
  | node (step : Component) {slot : Option (Path × α)} {slot' : Option (Path × β)}
      {below before after : Trie α} {below' before' after' : Trie β}
      (hslot : Option.Rel (KeyedRel R) slot slot') (hbelow : Trie.Rel R below below')
      (hbefore : Trie.Rel R before before') (hafter : Trie.Rel R after after') :
      Trie.Rel R (.node step slot below before after) (.node step slot' below' before' after')

namespace Trie.Rel

variable {α β : Type} {R : α → β → Prop} {t : Trie α} {u : Trie β}

theorem find? (h : Trie.Rel R t u) (c : Component) (l : Location) :
    Option.Rel (KeyedRel R) (t.find? c l) (u.find? c l) := by
  induction h generalizing c l with
  | empty => exact .none
  | node step hslot _ _ _ below before after =>
    unfold Trie.find?
    split
    · exact before c l
    · exact after c l
    · cases l with
      | nil => exact hslot
      | cons d l => exact below d l

theorem under (h : Trie.Rel R t u) (c : Component) (l : Location) :
    Trie.Rel R (t.under c l) (u.under c l) := by
  induction h generalizing c l with
  | empty => exact .empty
  | node step _ hbelow _ _ below before after =>
    unfold Trie.under
    split
    · exact before c l
    · exact after c l
    · cases l with
      | nil => exact hbelow
      | cons d l => exact below d l

theorem entries (h : Trie.Rel R t u) : List.Forall₂ (KeyedRel R) t.entries u.entries := by
  induction h with
  | empty => exact .nil
  | node step hslot _ _ _ below before after =>
    rw [entries_node, entries_node]
    exact List.rel_append before (List.rel_append (optionRel_toList hslot) (List.rel_append below after))

theorem level (h : Trie.Rel R t u) : List.Forall₂ (KeyedRel R) t.level u.level := by
  induction h with
  | empty => exact .nil
  | node step hslot _ _ _ _ before after =>
    rw [level_node, level_node]
    exact List.rel_append before (List.rel_append (optionRel_toList hslot) after)

theorem any_eq {f : Path × α → Bool} {g : Path × β → Bool}
    (hfg : ∀ e e', KeyedRel R e e' → f e = g e') (h : Trie.Rel R t u) : t.any f = u.any g := by
  induction h with
  | empty => rfl
  | node step hslot _ _ _ below before after =>
    rw [Trie.any, Trie.any, below, before, after, optionRel_any hfg hslot]

theorem only {slot : Option (Path × α)} {slot' : Option (Path × β)}
    (h : Option.Rel (KeyedRel R) slot slot') (c : Component) (l : Location) :
    Trie.Rel R (Trie.only slot c l) (Trie.only slot' c l) := by
  induction l generalizing c with
  | nil => exact .node c h .empty .empty .empty
  | cons d l ih => exact .node c .none (ih d) .empty .empty

theorem alter {f : Option (Path × α) → Option (Path × α)}
    {g : Option (Path × β) → Option (Path × β)}
    (hfg : ∀ x y, Option.Rel (KeyedRel R) x y → Option.Rel (KeyedRel R) (f x) (g y))
    (h : Trie.Rel R t u) (c : Component) (l : Location) :
    Trie.Rel R (t.alter f c l) (u.alter g c l) := by
  induction h generalizing c l with
  | empty => exact only (hfg _ _ .none) c l
  | node step hslot hbelow hbefore hafter below before after =>
    unfold Trie.alter
    split
    · exact .node step hslot hbelow (before c l) hafter
    · exact .node step hslot hbelow hbefore (after c l)
    · cases l with
      | nil => exact .node step (hfg _ _ hslot) hbelow hbefore hafter
      | cons d l => exact .node step hslot (below d l) hbefore hafter

theorem prune (h : Trie.Rel R t u) (c : Component) (l : Location) :
    Trie.Rel R (t.prune c l) (u.prune c l) := by
  induction h generalizing c l with
  | empty => exact .empty
  | node step hslot hbelow hbefore hafter below before after =>
    unfold Trie.prune
    split
    · exact .node step hslot hbelow (before c l) hafter
    · exact .node step hslot hbelow hbefore (after c l)
    · cases l with
      | nil => exact .node step .none .empty hbefore hafter
      | cons d l => exact .node step hslot (below d l) hbefore hafter

end Trie.Rel

/-! ## Maps -/

/-- Maps with related values at the same locations, under keys spelled in whatever way. -/
structure PathMap.Rel {α β : Type} (R : α → β → Prop) (m : PathMap α) (n : PathMap β) : Prop where
  origin : Option.Rel (KeyedRel R) m.origin n.origin
  trie : Trie.Rel R m.trie n.trie

namespace PathMap.Rel

variable {α β : Type} {R : α → β → Prop} {m : PathMap α} {n : PathMap β} {p q : Path}

theorem empty : PathMap.Rel R PathMap.empty PathMap.empty := ⟨.none, .empty⟩

theorem slot? (h : PathMap.Rel R m n) (l : Location) :
    Option.Rel (KeyedRel R) (m.slot? l) (n.slot? l) := by
  cases l with
  | nil => exact h.origin
  | cons c l => exact h.trie.find? c l

theorem find? (h : PathMap.Rel R m n) (l : Location) : Option.Rel R (m.find? l) (n.find? l) :=
  optionRel_map (h.slot? l) fun _ _ he => he.2

theorem find?_eq {m n : PathMap α} (h : PathMap.Rel Eq m n) (l : Location) :
    m.find? l = n.find? l :=
  optionRel_eq_iff.1 (h.find? l)

theorem contains_eq (h : PathMap.Rel R m n) (l : Location) : m.contains l = n.contains l :=
  optionRel_isSome (h.find? l)

theorem entries (h : PathMap.Rel R m n) : List.Forall₂ (KeyedRel R) m.entries n.entries :=
  List.rel_append (optionRel_toList h.origin) h.trie.entries

theorem any_eq {f : Path × α → Bool} {g : Path × β → Bool} (h : PathMap.Rel R m n)
    (hfg : ∀ e e', KeyedRel R e e' → f e = g e') : m.any f = n.any g := by
  rw [PathMap.any, PathMap.any, optionRel_any hfg h.origin, h.trie.any_eq hfg]

theorem below (h : PathMap.Rel R m n) (l : Location) : Trie.Rel R (m.below l) (n.below l) := by
  cases l with
  | nil => exact h.trie
  | cons c l => exact h.trie.under c l

theorem alter {f : Option (Path × α) → Option (Path × α)}
    {g : Option (Path × β) → Option (Path × β)} (h : PathMap.Rel R m n)
    (hfg : ∀ x y, Option.Rel (KeyedRel R) x y → Option.Rel (KeyedRel R) (f x) (g y))
    {l : Location} (hf : ∀ e ∈ f (m.slot? l), e.1.location = l)
    (hg : ∀ e ∈ g (n.slot? l), e.1.location = l) :
    PathMap.Rel R (m.alter l f hf) (n.alter l g hg) := by
  cases l with
  | nil => exact ⟨hfg _ _ h.origin, h.trie⟩
  | cons c l => exact ⟨h.origin, h.trie.alter hfg c l⟩

theorem insert (h : PathMap.Rel R m n) (hp : p.Respelled q) {a : α} {b : β} (hab : R a b) :
    PathMap.Rel R (m.insert p a) (n.insert q b) := by
  obtain ⟨qtext, qlocation, qeq⟩ := q
  obtain rfl : p.location = qlocation := hp
  refine h.alter (fun x y hxy => .some ⟨?_, hab⟩) _ _
  cases hxy with
  | some he => exact he.1
  | none => rfl

theorem insertIfNew (h : PathMap.Rel R m n) (hp : p.Respelled q) {a : α} {b : β} (hab : R a b) :
    PathMap.Rel R (m.insertIfNew p a) (n.insertIfNew q b) := by
  obtain ⟨qtext, qlocation, qeq⟩ := q
  obtain rfl : p.location = qlocation := hp
  refine h.alter (fun x y hxy => .some ?_) _ _
  cases hxy with
  | some he => exact he
  | none => exact ⟨rfl, hab⟩

theorem erase (h : PathMap.Rel R m n) (l : Location) : PathMap.Rel R (m.erase l) (n.erase l) :=
  h.alter (fun _ _ _ => .none) _ _

theorem prune (h : PathMap.Rel R m n) (l : Location) : PathMap.Rel R (m.prune l) (n.prune l) := by
  cases l with
  | nil => exact empty
  | cons c l => exact ⟨h.origin, h.trie.prune c l⟩

end PathMap.Rel

end DisplayTopology
