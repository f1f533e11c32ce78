import DisplayTopology.Text.Split
import DisplayTopology.Text.Utf8

/-!
# Locations

A path names its place by *components*: the root at the front, a current-directory step at the
front, parent steps, and plain names. A *location* is the list of components of a path. Repeated
and trailing slashes and later current-directory steps leave no component, so many spellings share
a location. Spellings and names are bytes, whether or not they are text.

Locations are ordered component by component, names by their bytes, and steps that are no
names before all names; this order is total and lawful, and a directory comes before all that
lies below it (`Location.compare_append_cons`). Where a spelling goes on after a slash, its location
goes on by the steps of what follows (`Location.ofBytes_append_slash`).
-/

namespace DisplayTopology

/-- The byte that stands between the pieces of a path. -/
def Bytes.slash : UInt8 := 0x2F

/-- One step of a path. -/
inductive Component where
  /-- The root directory. -/
  | root
  /-- A leading step that stays in the current directory. -/
  | current
  /-- A step to the directory above. -/
  | parent
  /-- A step to the entry of this name. -/
  | plain (name : Bytes)
  deriving DecidableEq

namespace Component

/-- The place of a component's kind among the kinds. -/
def rank : Component → Nat
  | root => 0
  | current => 1
  | parent => 2
  | plain _ => 3

/-- The step to the entry whose name is this text. -/
def named (text : String) : Component := plain (Bytes.encode text)

/-- The name of a component that has one. -/
def name? : Component → Option Bytes
  | plain name => some name
  | _ => none

/-- Whether a component is a name that is text. -/
def isText : Component → Bool
  | plain name => Bytes.encode name.shown == name
  | _ => false

/-- The name of a component, empty for one that has none. -/
def label (c : Component) : Bytes := c.name?.getD []

/-- Components are ordered by kind, and plain names by their bytes. -/
protected def compare : Component → Component → Ordering
  | plain a, plain b => Ord.compare a b
  | a, b => Ord.compare a.rank b.rank

instance : Ord Component := ⟨Component.compare⟩

theorem compare_eq_compareLex (a b : Component) :
    compare a b = compareLex (compareOn rank) (compareOn label) a b := by
  cases a <;> cases b <;> rfl

instance : Std.TransOrd Component := by
  have : (compare : Component → Component → Ordering) =
      compareLex (compareOn rank) (compareOn label) :=
    funext fun a => funext fun b => compare_eq_compareLex a b
  rw [Std.TransOrd, this]
  infer_instance

instance : Std.LawfulEqOrd Component where
  eq_of_compare {a b} h := by
    rw [compare_eq_compareLex] at h
    obtain ⟨hr, hl⟩ := Ordering.then_eq_eq.1 h
    have hr : a.rank = b.rank := Std.LawfulEqOrd.eq_of_compare hr
    have hl : a.label = b.label := Std.LawfulEqOrd.eq_of_compare hl
    cases a <;> cases b <;> simp_all [rank, label, name?]

/-- Names are ordered by their bytes. -/
theorem compare_plain (a b : Bytes) : compare (plain a) (plain b) = compare a b := rfl

theorem compare_plain_eq_lt_iff {a b : Bytes} : compare (plain a) (plain b) = .lt ↔ a < b := by
  rw [compare_plain]
  induction a generalizing b with
  | nil => cases b <;> simp
  | cons x a ih =>
    cases b with
    | nil => simp
    | cons y b =>
      rw [List.compare_cons_cons, Ordering.then_eq_lt, ih, List.cons_lt_cons_iff,
        Std.compare_eq_lt, Std.compare_eq_iff_eq]

/-- Only names come after a name. -/
theorem exists_plain_of_compare {name : Bytes} {c : Component}
    (h : compare (plain name) c = .lt) : ∃ other, c = plain other := by
  cases c with
  | plain other => exact ⟨other, rfl⟩
  | root | current | parent => cases h

/-- The component that one piece between slashes stands for, if it stands for any. -/
def ofPiece? : Bytes → Option Component
  | [] => none
  | [0x2E] => none
  | [0x2E, 0x2E] => some parent
  | piece => some (plain piece)

/-- A step has one text. -/
@[simp] theorem named_inj {s t : String} : named s = named t ↔ s = t := by
  rw [named, named, plain.injEq]
  exact ⟨Bytes.encode_injective, congrArg _⟩

theorem isText_iff {c : Component} : c.isText ↔ ∃ text, c = named text := by
  cases c with
  | plain name =>
    simp only [isText, beq_iff_eq, named, plain.injEq]
    exact ⟨fun h => ⟨_, h.symm⟩, fun ⟨text, h⟩ => by rw [h, Bytes.shown_encode]⟩
  | root | current | parent => simp [isText, named]

@[simp] theorem named_ne_root (text : String) : named text ≠ root := nofun

@[simp] theorem name?_named (text : String) : (named text).name? = some (Bytes.encode text) := rfl

end Component

/-- A place in the tree, step by step. -/
abbrev Location := List Component

namespace Location

/-- The location that the pieces between slashes name: an empty first piece of several is the
root, a dot in front stays in the current directory, and other empty pieces and dots say nothing. -/
def ofPieces : List Bytes → Location
  | [] :: piece :: pieces => .root :: (piece :: pieces).filterMap Component.ofPiece?
  | [0x2E] :: pieces => .current :: pieces.filterMap Component.ofPiece?
  | pieces => pieces.filterMap Component.ofPiece?

/-- The location that a spelling names. -/
def ofBytes (bytes : Bytes) : Location := ofPieces (Text.split Bytes.slash bytes)

/-- The location of the directory that holds this one; the root and the empty location have none. -/
def parent? (l : Location) : Option Location :=
  match l.getLast? with
  | none => none
  | some .root => none
  | some _ => some l.dropLast

/-- The plain name at the end of a location. -/
def name? (l : Location) : Option Bytes := l.getLast?.bind Component.name?

/-- Whether `l` is `dir` or lies below it. -/
def within (l dir : Location) : Bool := dir.isPrefixOf l

/-- Whether `l` lies below `dir`. -/
def below (l dir : Location) : Bool := l.within dir && l != dir

theorem within_iff {l dir : Location} : l.within dir ↔ dir <+: l := List.isPrefixOf_iff_prefix

theorem within_refl (l : Location) : l.within l := within_iff.2 (List.prefix_refl l)

theorem within_trans {a b c : Location} (hab : a.within b) (hbc : b.within c) : a.within c :=
  within_iff.2 ((within_iff.1 hbc).trans (within_iff.1 hab))

theorem within_append (dir l : Location) : Location.within (dir ++ l) dir :=
  within_iff.2 (List.prefix_append dir l)

/-- What lies below a directory goes on from it. -/
theorem below_iff {l dir : Location} : l.below dir ↔ ∃ c rest, l = dir ++ c :: rest := by
  rw [below, Bool.and_eq_true, within_iff, bne_iff_ne]
  constructor
  · rintro ⟨⟨rest, rfl⟩, h⟩
    obtain ⟨c, rest, rfl⟩ := List.exists_cons_of_ne_nil (l := rest) (by simpa using h)
    exact ⟨c, rest, rfl⟩
  · rintro ⟨c, rest, rfl⟩
    exact ⟨List.prefix_append .., by simp⟩

theorem within_of_below {l dir : Location} (h : l.below dir) : l.within dir := by
  rw [below, Bool.and_eq_true] at h
  exact h.1

theorem ne_of_below {l dir : Location} (h : l.below dir) : l ≠ dir := by
  rw [below, Bool.and_eq_true, bne_iff_ne] at h
  exact h.2

theorem below_of_within_of_ne {l dir : Location} (h : l.within dir) (hne : l ≠ dir) : l.below dir := by
  simp [below, h, hne]

/-- What is within a directory is the directory itself or lies below it. -/
theorem within_iff_eq_or_below {l dir : Location} : l.within dir ↔ l = dir ∨ l.below dir := by
  constructor
  · exact fun h => Decidable.or_iff_not_imp_left.2 (below_of_within_of_ne h)
  · rintro (rfl | h)
    · exact within_refl l
    · exact within_of_below h

theorem length_lt_of_below {l dir : Location} (h : l.below dir) : dir.length < l.length := by
  obtain ⟨c, rest, rfl⟩ := below_iff.1 h
  simp

/-- Nothing within a directory but the empty location is the empty location. -/
theorem ne_nil_of_within {l dir : Location} (h : l.within dir) (hne : dir ≠ []) : l ≠ [] := by
  intro hl
  rw [hl] at h
  exact hne (List.prefix_nil.1 (within_iff.1 h))

theorem below_of_within_of_below {a b c : Location} (hab : a.within b) (hbc : b.below c) :
    a.below c := by
  refine below_of_within_of_ne (within_trans hab (within_of_below hbc)) fun h => ?_
  have hlt := length_lt_of_below hbc
  have hle := (within_iff.1 hab).length_le
  rw [h] at hle
  omega

theorem below_of_below_of_within {a b c : Location} (hab : a.below b) (hbc : b.within c) :
    a.below c := by
  rcases within_iff_eq_or_below.1 hbc with rfl | h
  · exact hab
  · exact below_of_within_of_below (within_of_below hab) h

theorem below_append_cons (dir : Location) (c : Component) (rest : Location) :
    below (dir ++ c :: rest) dir :=
  below_iff.2 ⟨c, rest, rfl⟩

@[simp] theorem parent?_nil : parent? [] = none := rfl

@[simp] theorem parent?_append_singleton (l : Location) (c : Component) :
    parent? (l ++ [c]) = if c = .root then none else some l := by
  cases c <;> simp [parent?]

@[simp] theorem name?_append_plain (l : Location) (name : Bytes) :
    name? (l ++ [.plain name]) = some name := by
  simp [name?, Component.name?]

@[simp] theorem name?_append_named (l : Location) (text : String) :
    name? (l ++ [.named text]) = some (Bytes.encode text) :=
  name?_append_plain l _

/-- A location with a parent is the parent and one more step. -/
theorem parent?_eq_some_iff {l dir : Location} :
    l.parent? = some dir ↔ ∃ c, c ≠ .root ∧ l = dir ++ [c] := by
  constructor
  · intro h
    rcases List.eq_nil_or_concat l with rfl | ⟨front, c, rfl⟩
    · simp at h
    · rw [List.concat_eq_append, parent?_append_singleton] at h
      split at h
      · simp at h
      · rename_i hc
        exact ⟨c, hc, by rw [List.concat_eq_append, Option.some.inj h]⟩
  · rintro ⟨c, hc, rfl⟩
    rw [parent?_append_singleton, if_neg hc]

theorem within_of_parent? {l dir : Location} (h : l.parent? = some dir) : l.within dir := by
  obtain ⟨c, -, rfl⟩ := parent?_eq_some_iff.1 h
  exact within_append dir [c]

theorem below_of_parent? {l dir : Location} (h : l.parent? = some dir) : l.below dir := by
  obtain ⟨c, -, rfl⟩ := parent?_eq_some_iff.1 h
  exact below_append_cons dir c []

/-- What lies below a directory is in the directory or in one below it. -/
theorem within_of_below_of_parent? {l m dir : Location} (h : l.below m) (hp : l.parent? = some dir) :
    dir.within m := by
  obtain ⟨c, -, rfl⟩ := parent?_eq_some_iff.1 hp
  obtain ⟨d, rest, hl⟩ := below_iff.1 h
  rcases List.eq_nil_or_concat rest with rfl | ⟨front, e, rfl⟩
  · obtain ⟨rfl, -⟩ := List.append_inj' hl rfl
    exact within_refl dir
  · have hl : dir ++ [c] = (m ++ d :: front) ++ [e] := by simpa using hl
    obtain ⟨rfl, -⟩ := List.append_inj' hl rfl
    exact within_append m (d :: front)

theorem length_of_parent? {l dir : Location} (h : l.parent? = some dir) :
    l.length = dir.length + 1 := by
  obtain ⟨c, -, rfl⟩ := parent?_eq_some_iff.1 h
  simp

/-- Locations with a common beginning are ordered by what follows it. -/
theorem compare_append (dir l m : Location) : compare (dir ++ l) (dir ++ m) = compare l m := by
  induction dir with
  | nil => rfl
  | cons c dir ih => simpa [List.compare_cons_cons] using ih

/-- Locations that part after a common beginning are ordered by the steps at which they part. -/
theorem compare_append_of_lt (dir : Location) {c d : Component} (h : compare c d = .lt)
    (l m : Location) : compare (dir ++ c :: l) (dir ++ d :: m) = .lt := by
  rw [compare_append, List.compare_cons_cons, h, Ordering.lt_then]

/-- A directory comes before all that lies below it. -/
theorem compare_append_cons (dir : Location) (c : Component) (l : Location) :
    compare dir (dir ++ c :: l) = .lt := by
  have h := compare_append dir [] (c :: l)
  rwa [List.append_nil] at h

/-- Entries of one directory are ordered by their last steps. -/
theorem compare_append_singleton (dir : Location) (c d : Component) :
    compare (dir ++ [c]) (dir ++ [d]) = compare c d := by
  simp [compare_append, List.compare_cons_cons]

/-! ## Legible locations -/

/-- Whether the steps from a location to one at or below it are text. -/
def Legible (dir l : Location) : Prop := ∃ texts : List String, l = dir ++ texts.map .named

instance (dir l : Location) : Decidable (Legible dir l) :=
  decidable_of_iff (l.within dir ∧ ∀ c ∈ l.drop dir.length, c.isText) <| by
    constructor
    · rintro ⟨hw, htext⟩
      obtain ⟨rest, rfl⟩ := within_iff.1 hw
      rw [List.drop_left] at htext
      have hself : ∀ c ∈ rest, Component.named c.label.shown = id c := by
        intro c hc
        obtain ⟨text, rfl⟩ := Component.isText_iff.1 (htext c hc)
        simp [Component.label]
      refine ⟨rest.map fun c => c.label.shown, ?_⟩
      rw [List.map_map, List.append_cancel_left_eq]
      exact ((List.map_congr_left hself).trans (List.map_id rest)).symm
    · rintro ⟨texts, rfl⟩
      refine ⟨within_append .., ?_⟩
      rw [List.drop_left, List.forall_mem_map]
      exact fun text _ => Component.isText_iff.2 ⟨text, rfl⟩

theorem legible_refl (l : Location) : Legible l l := ⟨[], by simp⟩

theorem Legible.within {l dir : Location} (h : Legible dir l) : l.within dir := by
  obtain ⟨texts, rfl⟩ := h
  exact within_append ..

theorem Legible.child {l dir : Location} (h : Legible dir l) (text : String) :
    Legible dir (l ++ [.named text]) := by
  obtain ⟨texts, rfl⟩ := h
  exact ⟨texts ++ [text], by simp⟩

/-- What is legible from a directory is legible from a directory on the way. -/
theorem Legible.of_within {l m dir : Location} (h : Legible dir l) (hm : m.within dir)
    (hl : l.within m) : Legible m l := by
  obtain ⟨texts, rfl⟩ := h
  obtain ⟨front, rfl⟩ := within_iff.1 hm
  obtain ⟨back, hback⟩ := within_iff.1 hl
  rw [List.append_assoc, List.append_cancel_left_eq] at hback
  obtain ⟨_, texts, rfl, rfl, rfl⟩ := List.map_eq_append_iff.1 hback.symm
  exact ⟨texts, by simp⟩

/-- What is legible ends in a text. -/
theorem Legible.exists_named {l m dir : Location} (h : Legible dir l) (hp : l.parent? = some m)
    (hm : m.within dir) : ∃ text, l = m ++ [.named text] := by
  obtain ⟨c, -, rfl⟩ := parent?_eq_some_iff.1 hp
  obtain ⟨texts, ht⟩ := h.of_within hm (within_append ..)
  rw [List.append_cancel_left_eq] at ht
  obtain ⟨text, _, rfl, rfl, -⟩ := List.map_eq_cons_iff.1 ht.symm
  exact ⟨text, rfl⟩

theorem Legible.exists_name? {l dir : Location} (h : Legible dir l) (hb : l.below dir) :
    ∃ name, l.name? = some name := by
  obtain ⟨texts, rfl⟩ := h
  rcases List.eq_nil_or_concat texts with rfl | ⟨front, text, rfl⟩
  · exact absurd (by simp) (ne_of_below hb)
  · refine ⟨Bytes.encode text, ?_⟩
    rw [List.concat_eq_append, List.map_append, ← List.append_assoc]
    exact name?_append_named ..

/-- What is legible is the directory itself, or legible from one that lies in it. -/
theorem Legible.cases {l dir : Location} (h : Legible dir l) (hne : l ≠ dir) :
    ∃ text, Legible (dir ++ [.named text]) l := by
  obtain ⟨_ | ⟨text, texts⟩, rfl⟩ := h
  · simp at hne
  · exact ⟨text, texts, by simp⟩

/-! ## Locations of spellings -/

/-- A piece that names an entry: nonempty, without slashes, and no dot step (0x2E is a dot). -/
def IsName (piece : Bytes) : Prop :=
  piece ≠ [] ∧ piece ≠ [0x2E] ∧ piece ≠ [0x2E, 0x2E] ∧ Bytes.slash ∉ piece

instance (piece : Bytes) : Decidable (IsName piece) := by unfold IsName; infer_instance

theorem ofPiece?_of_isName {piece : Bytes} (h : IsName piece) :
    Component.ofPiece? piece = some (.plain piece) := by
  unfold Component.ofPiece?
  split <;> simp_all [IsName]

theorem ofPieces_cons {piece : Bytes} (he : piece ≠ []) (hd : piece ≠ [0x2E])
    (pieces : List Bytes) :
    ofPieces (piece :: pieces) = (piece :: pieces).filterMap Component.ofPiece? := by
  unfold ofPieces
  split <;> simp_all

/-- Pieces after the first ones add the components they stand for. -/
theorem ofPieces_append {front : List Bytes} (hf : front ≠ []) (hs : front ≠ [[]])
    (back : List Bytes) :
    ofPieces (front ++ back) = ofPieces front ++ back.filterMap Component.ofPiece? := by
  obtain ⟨piece, pieces, rfl⟩ := List.exists_cons_of_ne_nil hf
  by_cases he : piece = []
  · subst he
    obtain ⟨second, rest, rfl⟩ := List.exists_cons_of_ne_nil (l := pieces) (by simpa using hs)
    simp only [List.cons_append, ofPieces, ← List.filterMap_append]
  by_cases hd : piece = [0x2E]
  · subst hd
    simp [ofPieces]
  rw [List.cons_append, ofPieces_cons he hd, ofPieces_cons he hd, ← List.cons_append,
    List.filterMap_append]

/-- The components that a spelling adds to a location it is relative to. -/
def steps (bytes : Bytes) : Location := (Text.split Bytes.slash bytes).filterMap Component.ofPiece?

@[simp] theorem steps_nil : steps [] = [] := rfl

/-- A spelling that goes on after a slash adds the steps of what follows. -/
theorem ofBytes_append_slash {bytes : Bytes} (h : bytes ≠ []) (more : Bytes) :
    ofBytes (bytes ++ Bytes.slash :: more) = ofBytes bytes ++ steps more := by
  rw [ofBytes, Text.split_append_cons, ofPieces_append (Text.split_ne_nil _ _), ofBytes, steps]
  intro hs
  cases bytes with
  | nil => exact h rfl
  | cons c cs =>
    rw [Text.split] at hs
    split at hs
    · simp at hs
    · split at hs <;> simp at hs

theorem ofBytes_slash (more : Bytes) : ofBytes (Bytes.slash :: more) = .root :: steps more := by
  obtain ⟨piece, pieces, hp⟩ := List.exists_cons_of_ne_nil (Text.split_ne_nil Bytes.slash more)
  rw [ofBytes, Text.split_cons_self, steps, hp, ofPieces]

/-- What follows a slash adds its steps, also where the spelling before ends in that slash. -/
theorem ofBytes_append_of_endsWith {bytes more : Bytes} (h : bytes.getLast? = some Bytes.slash) :
    ofBytes (bytes ++ more) = ofBytes bytes ++ steps more := by
  obtain ⟨front, rfl⟩ := List.getLast?_eq_some_iff.1 h
  rw [List.append_assoc, List.singleton_append]
  cases front with
  | nil => simp [ofBytes_slash]
  | cons c cs => rw [ofBytes_append_slash (by simp), ofBytes_append_slash (by simp)]; simp

/-- A piece stands for a parent step or a plain name, if it stands for any component. -/
theorem mem_filterMap_ofPiece? {pieces : List Bytes} {c : Component}
    (h : c ∈ pieces.filterMap Component.ofPiece?) : c = .parent ∨ ∃ name, c = .plain name := by
  obtain ⟨piece, -, hp⟩ := List.mem_filterMap.1 h
  unfold Component.ofPiece? at hp
  split at hp
  · simp at hp
  · simp at hp
  · exact .inl (Option.some.inj hp).symm
  · exact .inr ⟨_, (Option.some.inj hp).symm⟩

theorem root_notMem_filterMap_ofPiece? (pieces : List Bytes) :
    .root ∉ pieces.filterMap Component.ofPiece? := fun h => by simpa using mem_filterMap_ofPiece? h

/-- Behind its front the location of a spelling has parent steps and plain names only. -/
theorem mem_tail_ofBytes {bytes : Bytes} {c : Component} (h : c ∈ (ofBytes bytes).tail) :
    c = .parent ∨ ∃ name, c = .plain name := by
  rw [ofBytes] at h
  unfold ofPieces at h
  split at h
  · exact mem_filterMap_ofPiece? h
  · exact mem_filterMap_ofPiece? h
  · exact mem_filterMap_ofPiece? (List.mem_of_mem_tail h)

/-- The root is in front of a location exactly when a slash is in front of the spelling. -/
theorem head?_ofBytes_eq_root_iff {bytes : Bytes} :
    (ofBytes bytes).head? = some .root ↔ bytes.head? = some Bytes.slash := by
  cases bytes with
  | nil => simp [ofBytes, ofPieces, Component.ofPiece?]
  | cons c cs =>
    by_cases hc : c = Bytes.slash
    · simp [hc, ofBytes_slash]
    · have hs : .root ∉ ofBytes (c :: cs) := by
        rw [ofBytes, Text.split, if_neg hc]
        cases Text.split Bytes.slash cs with
        | nil =>
          show .root ∉ ofPieces [[c]]
          unfold ofPieces
          split
          · simp_all
          · simpa using root_notMem_filterMap_ofPiece? _
          · exact root_notMem_filterMap_ofPiece? _
        | cons piece pieces =>
          show .root ∉ ofPieces ((c :: piece) :: pieces)
          unfold ofPieces
          split
          · simp_all
          · simpa using root_notMem_filterMap_ofPiece? _
          · exact root_notMem_filterMap_ofPiece? _
      simp only [List.head?_cons, Option.some.injEq, hc, iff_false]
      exact fun h => hs (List.mem_of_mem_head? h)

/-- Only the empty spelling names the empty location. -/
theorem ofBytes_ne_nil {bytes : Bytes} (h : bytes ≠ []) : ofBytes bytes ≠ [] := by
  obtain ⟨c, cs, rfl⟩ := List.exists_cons_of_ne_nil h
  by_cases hc : c = Bytes.slash
  · rw [hc, ofBytes_slash]
    simp
  have key (piece : Bytes) (pieces : List Bytes) :
      ofPieces ((c :: piece) :: pieces) ≠ [] := by
    by_cases hd : c :: piece = [0x2E]
    · rw [hd]
      simp [ofPieces]
    · obtain ⟨d, hpiece⟩ : ∃ d, Component.ofPiece? (c :: piece) = some d := by
        unfold Component.ofPiece?
        split <;> simp_all
      rw [ofPieces_cons (by simp) hd, List.filterMap_cons, hpiece]
      simp
  rw [ofBytes, Text.split, if_neg hc]
  split
  · exact key [] []
  · exact key _ _

theorem eq_of_ofPiece? {piece name : Bytes} (h : Component.ofPiece? piece = some (.plain name)) :
    piece = name := by
  unfold Component.ofPiece? at h
  split at h <;> simp_all

/-- The plain steps of a spelling's location are pieces of the spelling. -/
theorem mem_split_of_mem_ofBytes {bytes name : Bytes} (h : .plain name ∈ ofBytes bytes) :
    name ∈ Text.split Bytes.slash bytes ∧ Component.ofPiece? name = some (.plain name) := by
  have key {pieces : List Bytes} (h : .plain name ∈ pieces.filterMap Component.ofPiece?) :
      name ∈ pieces ∧ Component.ofPiece? name = some (.plain name) := by
    obtain ⟨piece, hm, hc⟩ := List.mem_filterMap.1 h
    obtain rfl := eq_of_ofPiece? hc
    exact ⟨hm, hc⟩
  rw [ofBytes] at h
  unfold ofPieces at h
  split at h
  · rename_i heq
    rw [heq]
    exact (key (by simpa using h)).imp_left (List.mem_cons_of_mem _)
  · rename_i heq
    rw [heq]
    exact (key (by simpa using h)).imp_left (List.mem_cons_of_mem _)
  · exact key h

/-- The plain steps of a spelling's location are names. -/
theorem isName_of_mem_ofBytes {bytes name : Bytes} (h : .plain name ∈ ofBytes bytes) :
    IsName name := by
  obtain ⟨hm, hc⟩ := mem_split_of_mem_ofBytes h
  have hs := Text.not_mem_of_mem_split hm
  refine ⟨?_, ?_, ?_, hs⟩ <;> rintro rfl <;> simp [Component.ofPiece?] at hc

/-- The pieces of a text are texts. -/
theorem exists_text_of_mem_split {text : String} {piece : Bytes}
    (h : piece ∈ Text.split Bytes.slash (Bytes.encode text)) : ∃ t, piece = Bytes.encode t := by
  obtain ⟨cs, rfl⟩ : ∃ cs, text = String.ofList cs := ⟨_, String.ofList_toList.symm⟩
  induction cs generalizing piece with
  | nil =>
    obtain rfl : piece = [] := by simpa [Text.split] using h
    exact ⟨"", rfl⟩
  | cons c cs ih =>
    have hcons : Bytes.encode (String.ofList (c :: cs)) =
        Bytes.encode (String.ofList [c]) ++ Bytes.encode (String.ofList cs) := by
      rw [← Bytes.encode_append, ← String.ofList_append, List.singleton_append]
    rw [hcons] at h
    by_cases hc : c = '/'
    · subst hc
      rw [show Bytes.encode (String.ofList ['/']) = [Bytes.slash] by decide, List.singleton_append,
        Text.split_cons_self] at h
      rcases List.mem_cons.1 h with rfl | h
      · exact ⟨"", rfl⟩
      · exact ih h
    · have hfree : Bytes.slash ∉ Bytes.encode (String.ofList [c]) := by
        rw [show Bytes.slash = UInt8.ofNat '/'.val.toNat by decide, Bytes.mem_encode_iff (by decide)]
        simpa using Ne.symm hc
      rw [Text.split_append_of_not_mem hfree] at h
      cases hs : Text.split Bytes.slash (Bytes.encode (String.ofList cs)) with
      | nil => exact absurd hs (Text.split_ne_nil _ _)
      | cons first pieces =>
        rw [hs] at h
        rcases List.mem_cons.1 h with rfl | h
        · obtain ⟨t, rfl⟩ := ih (by rw [hs]; exact List.mem_cons_self)
          exact ⟨String.ofList [c] ++ t, by simp⟩
        · exact ih (by rw [hs]; exact List.mem_cons_of_mem _ h)

/-- The plain steps of a text's location are texts. -/
theorem exists_text_of_mem_ofBytes {text : String} {name : Bytes}
    (h : .plain name ∈ ofBytes (Bytes.encode text)) : ∃ t, Component.plain name = .named t := by
  obtain ⟨t, rfl⟩ := exists_text_of_mem_split (mem_split_of_mem_ofBytes h).1
  exact ⟨t, rfl⟩

theorem current_notMem_filterMap_ofPiece? (pieces : List Bytes) :
    .current ∉ pieces.filterMap Component.ofPiece? :=
  fun h => by simpa using mem_filterMap_ofPiece? h

theorem filter_filterMap_ofPiece? (pieces : List Bytes) :
    (pieces.filterMap Component.ofPiece?).filter (· != .current) =
      pieces.filterMap Component.ofPiece? := by
  refine List.filter_eq_self.2 fun c hc => ?_
  have : c ≠ .current := fun h => current_notMem_filterMap_ofPiece? pieces (h ▸ hc)
  simpa using this

/-- A relative spelling adds the components of its location, but for a step that stays. -/
theorem steps_eq_filter {bytes : Bytes} (h : bytes.head? ≠ some Bytes.slash) :
    steps bytes = (ofBytes bytes).filter (· != .current) := by
  rw [ne_eq, ← head?_ofBytes_eq_root_iff] at h
  rw [ofBytes] at h ⊢
  rw [steps]
  unfold ofPieces at h ⊢
  split at h
  · simp at h
  · rename_i heq
    simp [heq, Component.ofPiece?, filter_filterMap_ofPiece?]
  · exact (filter_filterMap_ofPiece? _).symm

/-! ## Lines of locations -/

/-- The locations that steps lead to from `l`, one after the other. -/
def along (l : Location) : Location → List Location
  | [] => []
  | c :: steps => (l ++ [c]) :: along (l ++ [c]) steps

@[simp] theorem along_nil (l : Location) : along l [] = [] := rfl

theorem length_along (l steps : Location) : (along l steps).length = steps.length := by
  induction steps generalizing l with
  | nil => rfl
  | cons c steps ih => simp [along, ih]

theorem along_append (l front back : Location) :
    along l (front ++ back) = along l front ++ along (l ++ front) back := by
  induction front generalizing l with
  | nil => simp
  | cons c front ih => simp [along, ih]

/-- Steps lead to what they lead to at last, by way of what the steps before the last lead to. -/
theorem dropLast_cons_along (l front : Location) (c : Component) :
    (l :: along l (front ++ [c])).dropLast = l :: along l front := by
  rw [along_append, ← List.cons_append, along, along, List.dropLast_concat]

theorem getLast?_cons_along (l front : Location) :
    (l :: along l front).getLast? = some (l ++ front) := by
  induction front generalizing l with
  | nil => simp
  | cons c front ih => rw [along, List.getLast?_cons_cons, ih]; simp

/-- Steps lead to ever longer locations, so to none twice. -/
theorem nodup_cons_along (l steps : Location) : (l :: along l steps).Nodup := by
  have key : (l :: along l steps).Pairwise fun a b => a.length < b.length := by
    induction steps generalizing l with
    | nil => simp
    | cons c steps ih =>
      have hc := ih (l ++ [c])
      rw [along, List.pairwise_cons]
      refine ⟨fun m hm => ?_, hc⟩
      rcases List.mem_cons.1 hm with rfl | hm
      · simp
      · have hlt := List.rel_of_pairwise_cons hc hm
        simp at hlt
        omega
  exact key.imp fun hlt heq => by simp [heq] at hlt

theorem mem_cons_along_iff {l m front : Location} :
    m ∈ l :: along l front ↔ l <+: m ∧ m <+: l ++ front := by
  induction front generalizing l with
  | nil =>
    simp only [along_nil, List.mem_singleton, List.append_nil]
    refine ⟨fun h => by simp [h], fun h => ?_⟩
    exact h.2.eq_of_length_le h.1.length_le
  | cons c front ih =>
    rw [along, List.mem_cons, ih, List.append_assoc, List.singleton_append]
    constructor
    · rintro (rfl | ⟨h₁, h₂⟩)
      · exact ⟨List.prefix_refl _, List.prefix_append _ _⟩
      · exact ⟨(List.prefix_append _ _).trans h₁, h₂⟩
    · rintro ⟨⟨rest, rfl⟩, h⟩
      cases rest with
      | nil => simp
      | cons d rest =>
        obtain ⟨rfl, -⟩ := List.cons_prefix_cons.1 ((List.prefix_append_right_inj l).1 h)
        exact .inr ⟨⟨rest, by simp⟩, h⟩

end Location

end DisplayTopology
