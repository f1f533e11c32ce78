import DisplayTopology.Surface.Mutation

/-!
# Surfaces as trees

A surface is a *tree* when every entry that can lie in a directory lies in one that is there
(`IsTree`). Then every location above an entry holds a directory (`IsTree.dirAt_of_below`), and
nothing lies below a location that holds none (`IsTree.find?_eq_none`). Making, writing and removing
entries keeps a surface a tree as long as default groups have plain names (`PlainGroups`):
`IsTree.createDir`, `IsTree.write`, `IsTree.createLink`, `IsTree.removeLink`, `IsTree.removeDir`.
-/

namespace DisplayTopology.Surface

open Location

/-- Every entry that can lie in a directory lies in one that is there. -/
def IsTree (s : Surface) : Prop :=
  ∀ l dir, s.entries.contains l → l.parent? = some dir → s.dirAt dir

/-- The names of default groups are plain steps. -/
def PlainGroups (s : Surface) : Prop :=
  ∀ e ∈ s.groups.entries, ∀ name ∈ e.2, Path.IsStep name

/-- What lies below a location ends in a plain name. -/
def PlainBelow (s : Surface) (root : Location) : Prop :=
  ∀ l, s.entries.contains l → l.below root → ∃ name, l.name? = some name

/-- What lies below a location is reached from it by names that are text. -/
def TextBelow (s : Surface) (root : Location) : Prop :=
  ∀ l, s.entries.contains l → l.below root → Legible root l

/-- The directories below a location end in plain names. -/
def PlainDirsBelow (s : Surface) (d : Location) : Prop :=
  ∀ l, s.dirAt l → l.below d → ∃ name, l.name? = some name

/-- The directories below a location are reached from it by names that are text. -/
def TextDirsBelow (s : Surface) (d : Location) : Prop :=
  ∀ l, s.dirAt l → l.below d → Legible d l

variable {s t : Surface} {l m : Location} {p : Path}

instance (s : Surface) : Decidable s.IsTree :=
  decidable_of_iff (∀ e ∈ s.entries.entries, ∀ dir ∈ e.1.location.parent?, s.dirAt dir) <| by
    constructor
    · intro h l dir hl hp
      obtain ⟨v, hv⟩ := PathMap.contains_iff.1 hl
      obtain ⟨p, hm, rfl⟩ := PathMap.find?_eq_some_iff.1 hv
      exact h (p, v) hm dir hp
    · exact fun h e hm dir hp => h _ dir (PathMap.contains_iff.2 ⟨_, PathMap.find?_of_mem hm⟩) hp

instance (s : Surface) (root : Location) : Decidable (s.PlainBelow root) :=
  decidable_of_iff (∀ e ∈ s.entries.entries, e.1.location.below root → e.1.location.name?.isSome) <| by
    constructor
    · intro h l hl hb
      obtain ⟨v, hv⟩ := PathMap.contains_iff.1 hl
      obtain ⟨p, hm, rfl⟩ := PathMap.find?_eq_some_iff.1 hv
      exact Option.isSome_iff_exists.1 (h (p, v) hm hb)
    · intro h e hm hb
      exact Option.isSome_iff_exists.2 (h _ (PathMap.contains_iff.2 ⟨_, PathMap.find?_of_mem hm⟩) hb)

/-! ## Entries and the directories above them -/

theorem contains_of_find? {e : Entry} (h : s.entries.find? l = some e) : s.entries.contains l :=
  PathMap.contains_iff.2 ⟨e, h⟩

theorem contains_eq_false_iff : s.entries.contains l = false ↔ s.entries.find? l = none := by
  rw [PathMap.contains, Option.isSome_eq_false_iff, Option.isNone_iff_eq_none]

theorem contains_of_dirAt (h : s.dirAt l) : s.entries.contains l := by
  obtain ⟨owner, ho⟩ := dirAt_iff.1 h
  exact contains_of_find? ho

theorem dirAt_of_find? {owner : Owner} (h : s.entries.find? l = some (.dir owner)) : s.dirAt l :=
  dirAt_iff.2 ⟨owner, h⟩

theorem dirAt_of_kind {e : Entry} (he : s.entries.find? l = some e) (hk : e.kind = .dir) :
    s.dirAt l := by
  cases e with
  | dir owner => exact dirAt_of_find? he
  | file | link => simp [Entry.kind] at hk

instance (s : Surface) (d : Location) : Decidable (s.PlainDirsBelow d) :=
  decidable_of_iff (∀ e ∈ s.entries.entries, e.2.kind = .dir → e.1.location.below d →
      e.1.location.name?.isSome) <| by
    constructor
    · intro h l hl hb
      obtain ⟨owner, ho⟩ := dirAt_iff.1 hl
      obtain ⟨p, hm, rfl⟩ := PathMap.find?_eq_some_iff.1 ho
      exact Option.isSome_iff_exists.1 (h _ hm rfl hb)
    · intro h e hm hk hb
      exact Option.isSome_iff_exists.2 (h _ (dirAt_of_kind (PathMap.find?_of_mem hm) hk) hb)

instance (s : Surface) (d : Location) : Decidable (s.TextDirsBelow d) :=
  decidable_of_iff (∀ e ∈ s.entries.entries, e.2.kind = .dir → e.1.location.below d →
      Legible d e.1.location) <| by
    constructor
    · intro h l hl hb
      obtain ⟨owner, ho⟩ := dirAt_iff.1 hl
      obtain ⟨p, hm, rfl⟩ := PathMap.find?_eq_some_iff.1 ho
      exact h _ hm rfl hb
    · exact fun h e hm hk hb => h _ (dirAt_of_kind (PathMap.find?_of_mem hm) hk) hb

theorem TextDirsBelow.plain {d : Location} (h : s.TextDirsBelow d) : s.PlainDirsBelow d :=
  fun l hl hb => (h l hl hb).exists_name? hb

theorem TextBelow.plain {root : Location} (h : s.TextBelow root) : s.PlainBelow root :=
  fun l hl hb => (h l hl hb).exists_name? hb

theorem TextBelow.legible {root : Location} (h : s.TextBelow root) (hl : s.entries.contains l)
    (hw : l.within root) : Legible root l := by
  rcases within_iff_eq_or_below.1 hw with rfl | hb
  · exact legible_refl l
  · exact h l hl hb

/-- Where no entry turns up, names that are text remain so. -/
theorem TextBelow.mono {root : Location} (h : s.TextBelow root)
    (ht : ∀ l e, t.entries.find? l = some e → s.entries.find? l = some e) : t.TextBelow root := by
  intro l hl hb
  obtain ⟨e, he⟩ := PathMap.contains_iff.1 hl
  exact h l (contains_of_find? (ht l e he)) hb

theorem PlainBelow.dirs {root d : Location} (h : s.PlainBelow root) (hw : d.within root) :
    s.PlainDirsBelow d :=
  fun l hl hb => h l (contains_of_dirAt hl) (below_of_below_of_within hb hw)

theorem dirAt_congr (h : s.entries.find? l = t.entries.find? l) : s.dirAt l = t.dirAt l := by
  rw [dirAt, dirAt, h]

/-- An entry's location is that of its path. -/
theorem exists_path_of_contains (h : s.entries.contains l) : ∃ p : Path, p.location = l := by
  obtain ⟨v, hv⟩ := PathMap.contains_iff.1 h
  obtain ⟨p, -, hp⟩ := PathMap.find?_eq_some_iff.1 hv
  exact ⟨p, hp⟩

/-- An entry below some location lies in a directory. -/
theorem exists_parent?_of_below (hl : s.entries.contains l) (h : l.below m) (hm : m ≠ []) :
    ∃ dir, l.parent? = some dir := by
  obtain ⟨p, rfl⟩ := exists_path_of_contains hl
  obtain ⟨c, rest, hrest⟩ := below_iff.1 h
  rcases List.eq_nil_or_concat p.location with hn | ⟨dir, d, hd⟩
  · simp [hn] at hrest
  · rw [List.concat_eq_append] at hd
    refine ⟨dir, parent?_eq_some_iff.2 ⟨d, ?_, hd⟩⟩
    rintro rfl
    -- the root would stand behind `m`, which is not empty
    have hne : dir ≠ [] := by
      rintro rfl
      have hlen := congrArg List.length (hrest.symm.trans hd)
      have hpos := List.length_pos_iff.2 hm
      simp at hlen
      omega
    exact p.root_notMem_tail_location (by simp [hd, List.tail_append_of_ne_nil hne])

/-- Whatever lies above an entry is a directory. -/
theorem IsTree.dirAt_of_below (hs : s.IsTree) (hl : s.entries.contains l) (h : l.below m)
    (hm : m ≠ []) : s.dirAt m := by
  induction hn : l.length using Nat.strongRecOn generalizing l with
  | ind n ih =>
    obtain ⟨dir, hp⟩ := exists_parent?_of_below hl h hm
    have hd := hs l dir hl hp
    rcases within_iff_eq_or_below.1 (within_of_below_of_parent? h hp) with rfl | hb
    · exact hd
    · have hlen := length_of_parent? hp
      exact ih dir.length (by omega) (contains_of_dirAt hd) hb rfl

/-- Nothing lies below a location that holds no directory. -/
theorem IsTree.find?_eq_none (hs : s.IsTree) (hm : s.dirAt m = false) (hne : m ≠ [])
    (h : l.below m) : s.entries.find? l = none := by
  rw [← contains_eq_false_iff, Bool.eq_false_iff]
  intro hl
  rw [hs.dirAt_of_below hl h hne] at hm
  contradiction

/-- A free location has nothing at or below it. -/
theorem IsTree.find?_eq_none_of_within (hs : s.IsTree) (hm : s.entries.find? m = none)
    (hne : m ≠ []) (h : l.within m) : s.entries.find? l = none := by
  rcases within_iff_eq_or_below.1 h with rfl | hb
  · exact hm
  · exact hs.find?_eq_none (by rw [dirAt, hm]) hne hb

/-- An entry that ends in a plain name has it as its last step. -/
theorem eq_append_plain_of_name? {name : Bytes} (h : l.name? = some name) :
    ∃ dir, l = dir ++ [.plain name] := by
  rcases List.eq_nil_or_concat l with rfl | ⟨dir, c, rfl⟩
  · simp [name?] at h
  · rw [List.concat_eq_append] at h ⊢
    cases c <;> simp_all [name?, Component.name?]

/-- The entry below which a plain name lies. -/
theorem parent?_append_plain (dir : Location) (name : Bytes) :
    parent? (dir ++ [.plain name]) = some dir := by
  simp

theorem parent?_append_named (dir : Location) (text : String) :
    parent? (dir ++ [.named text]) = some dir :=
  parent?_append_plain dir _

/-! ## Default groups -/

theorem PlainGroups.isStep (hg : s.PlainGroups) {dir : Location} {name : String}
    (h : name ∈ s.groupsIn dir) : Path.IsStep name := by
  rw [groupsIn] at h
  cases hf : s.groups.find? dir with
  | none => simp [hf] at h
  | some names =>
    obtain ⟨q, hq, -⟩ := PathMap.find?_eq_some_iff.1 hf
    exact hg _ hq name (by simpa [hf] using h)

/-- A default group lies one plain step below its directory. -/
theorem PlainGroups.location_group (hg : s.PlainGroups) {name : String}
    (h : name ∈ s.groupsFor m) (p : Path) :
    ∃ text, (p / name).location = p.location ++ [.named text] := by
  have hstep : Path.IsStep name := by
    rw [groupsFor] at h
    cases hp : m.parent? with
    | none => simp [hp] at h
    | some dir => exact hg.isStep (by simpa [hp] using h)
  obtain ⟨text, hs⟩ := hstep.exists_named
  exact ⟨text, Path.location_of_step p hs⟩

theorem PlainGroups.congr (hg : s.PlainGroups) (h : t.groups = s.groups) : t.PlainGroups := by
  rw [PlainGroups, h]
  exact hg

theorem groupsFor_congr (h : t.groups = s.groups) : t.groupsFor l = s.groupsFor l := by
  have hin : t.groupsIn = s.groupsIn := by
    funext dir
    rw [groupsIn, groupsIn, h]
  rw [groupsFor, groupsFor, hin]

/-! ## What a new directory brings -/

/-- The directory itself is the user's. -/
theorem find?_createDir_self (hg : s.PlainGroups) (h : s.createDir p = .ok t) :
    t.entries.find? p.location = some (.dir .user) := by
  rw [find?_of_createDir h, if_neg, if_pos rfl]
  rintro ⟨name, hn, hl⟩
  obtain ⟨step, hs⟩ := hg.location_group hn p
  rw [hs] at hl
  simp at hl

/-- An entry after a new directory is one of its default groups, the directory or an old entry. -/
theorem eq_of_find?_createDir (hg : s.PlainGroups) (h : s.createDir p = .ok t) {e : Entry}
    (hl : t.entries.find? l = some e) :
    (∃ text, l = p.location ++ [.named text]) ∧ e = .dir .kernel ∨
      l = p.location ∧ e = .dir .user ∨ s.entries.find? l = some e := by
  rw [find?_of_createDir h] at hl
  split at hl
  · rename_i hex
    obtain ⟨name, hn, rfl⟩ := hex
    exact .inl ⟨hg.location_group hn p, (Option.some.inj hl).symm⟩
  · split at hl
    · rename_i heq
      exact .inr (.inl ⟨heq.symm, (Option.some.inj hl).symm⟩)
    · exact .inr (.inr hl)

/-- Default groups come to lie at free locations. -/
theorem IsTree.find?_group_of_createDir (hs : s.IsTree) (hg : s.PlainGroups)
    (h : s.createDir p = .ok t) {name : String} (hn : name ∈ s.groupsFor p.location) :
    s.entries.find? (p / name).location = none := by
  obtain ⟨-, hfree, dir, hp, -⟩ := creationFault?_eq_none_iff.1 (createDir_eq_ok_iff.1 h).1
  have hne : p.location ≠ [] := by
    intro hnil
    simp [hnil] at hp
  obtain ⟨step, hstep⟩ := hg.location_group hn p
  rw [hstep]
  exact hs.find?_eq_none_of_within (contains_eq_false_iff.1 hfree) hne (within_append ..)

/-- On a tree, the directory and its default groups are all that a new directory adds. -/
theorem find?_createDir_eq_some_iff {α : Type} {kinds : List α} {group : α → String}
    (hg : s.PlainGroups) (hs : s.IsTree) (h : s.createDir p = .ok t)
    (hgroups : s.groupsFor p.location = kinds.map group) {e : Entry} :
    t.entries.find? l = some e ↔ s.entries.find? l = some e ∨
      (l = p.location ∧ e = .dir .user ∨
        ∃ kind ∈ kinds, l = (p / group kind).location ∧ e = .dir .kernel) := by
  have hfault := creationFault?_eq_none_iff.1 (createDir_eq_ok_iff.1 h).1
  have hfree : s.entries.find? p.location = none := contains_eq_false_iff.1 hfault.2.1
  have hmem {kind : α} (hk : kind ∈ kinds) : group kind ∈ s.groupsFor p.location :=
    hgroups ▸ List.mem_map_of_mem hk
  rw [find?_of_createDir h]
  split
  · rename_i hex
    obtain ⟨name, hn, rfl⟩ := hex
    obtain ⟨step, hstep⟩ := hg.location_group hn p
    have hnone := hs.find?_group_of_createDir hg h hn
    obtain ⟨kind, hk, rfl⟩ := List.mem_map.1 (hgroups ▸ hn)
    rw [hnone]
    refine ⟨fun he => .inr (.inr ⟨kind, hk, rfl, (Option.some.inj he).symm⟩), ?_⟩
    rintro (he | ⟨heq, -⟩ | ⟨-, -, -, rfl⟩)
    · simp at he
    · simp [hstep] at heq
    · rfl
  · rename_i hnot
    have hgroup {kind : α} (hk : kind ∈ kinds) : l ≠ (p / group kind).location :=
      fun hl => hnot ⟨_, hmem hk, hl.symm⟩
    split
    · rename_i heq
      rw [← heq, hfree]
      refine ⟨fun he => .inr (.inl ⟨rfl, (Option.some.inj he).symm⟩), ?_⟩
      rintro (he | ⟨-, rfl⟩ | ⟨kind, hk, hl, -⟩)
      · simp at he
      · rfl
      · exact absurd (heq ▸ hl) (hgroup hk)
    · rename_i hl
      refine ⟨.inl, ?_⟩
      rintro (he | ⟨heq, -⟩ | ⟨kind, hk, heq, -⟩)
      · exact he
      · exact absurd heq.symm hl
      · exact absurd heq (hgroup hk)

theorem slot?_addGroups {names : List String} {q : PathMap Entry}
    (h : ∀ name ∈ names, (p / name).location ≠ l) :
    (addGroups p names q).slot? l = q.slot? l := by
  induction names generalizing q with
  | nil => rfl
  | cons name names ih =>
    obtain ⟨hn, hns⟩ := List.forall_mem_cons.1 h
    have hi : addGroups p (name :: names) q =
        addGroups p names (q.insert (p / name) (.dir .kernel)) := rfl
    rw [hi, ih hns, PathMap.slot?_insert_of_ne (Ne.symm hn)]

/-- A new directory changes nothing outside itself. -/
theorem slot?_createDir (hg : s.PlainGroups) (h : s.createDir p = .ok t)
    (hl : l.within p.location = false) : t.entries.slot? l = s.entries.slot? l := by
  obtain ⟨-, rfl⟩ := createDir_eq_ok_iff.1 h
  have hne : l ≠ p.location := by
    rintro rfl
    simp [within_refl] at hl
  show (addGroups p _ _).slot? l = _
  rw [slot?_addGroups, PathMap.slot?_insert_of_ne hne]
  intro name hn hloc
  obtain ⟨step, hs⟩ := hg.location_group hn p
  rw [← hloc, hs, within_append] at hl
  contradiction

theorem slot?_write {data : Bytes} (h : s.write p data = .ok t) (hl : l ≠ p.location) :
    t.entries.slot? l = s.entries.slot? l := by
  obtain ⟨-, rfl⟩ := write_eq_ok_iff.1 h
  exact PathMap.slot?_insert_of_ne hl

theorem slot?_createLink {target : Path} (h : s.createLink target p = .ok t) (hl : l ≠ p.location) :
    t.entries.slot? l = s.entries.slot? l := by
  obtain ⟨-, rfl⟩ := createLink_eq_ok_iff.1 h
  exact PathMap.slot?_insert_of_ne hl

theorem slot?_removeLink (h : s.removeLink p = .ok t) (l : Location) :
    t.entries.slot? l = if l = p.location then none else s.entries.slot? l := by
  obtain ⟨-, rfl⟩ := removeLink_eq_ok_iff.1 h
  exact PathMap.slot?_erase ..

theorem slot?_removeDir (h : s.removeDir p = .ok t) (l : Location) :
    t.entries.slot? l = if l.within p.location then none else s.entries.slot? l := by
  obtain ⟨-, -, rfl⟩ := removeDir_eq_ok_iff.1 h
  exact PathMap.slot?_prune ..

/-- Nothing is written where there is no directory for it. -/
theorem exists_write_eq_error {dir : Location} (hp : p.location.parent? = some dir)
    (hd : s.dirAt dir = false) (data : Bytes) : ∃ e, s.write p data = .error e := by
  cases hw : s.write p data with
  | error e => exact ⟨e, rfl⟩
  | ok t =>
    obtain ⟨-, -, above, ha, hda⟩ := writeFault?_eq_none_iff.1 (write_eq_ok_iff.1 hw).1
    rw [hp] at ha
    obtain rfl := Option.some.inj ha
    rw [hd] at hda
    contradiction

/-! ## Calls keep trees -/

/-- A new directory leaves every directory in place. -/
theorem dirAt_createDir (h : s.createDir p = .ok t) (hl : s.dirAt l) : t.dirAt l := by
  rw [dirAt_iff] at hl ⊢
  obtain ⟨owner, ho⟩ := hl
  rw [find?_of_createDir h]
  split
  · exact ⟨_, rfl⟩
  · split
    · exact ⟨_, rfl⟩
    · exact ⟨owner, ho⟩

theorem IsTree.createDir (hs : s.IsTree) (hg : s.PlainGroups) (h : s.createDir p = .ok t) :
    t.IsTree := by
  obtain ⟨-, -, above, hp, ha⟩ := creationFault?_eq_none_iff.1 (createDir_eq_ok_iff.1 h).1
  intro l dir hl hd
  obtain ⟨e, he⟩ := PathMap.contains_iff.1 hl
  rw [find?_of_createDir h] at he
  split at he
  · rename_i hex
    obtain ⟨name, hn, rfl⟩ := hex
    obtain ⟨step, hstep⟩ := hg.location_group hn p
    rw [hstep, parent?_append_named] at hd
    obtain rfl := Option.some.inj hd
    exact dirAt_of_find? (find?_createDir_self hg h)
  · split at he
    · rename_i heq
      rw [← heq, hp] at hd
      obtain rfl := Option.some.inj hd
      exact dirAt_createDir h ha
    · exact dirAt_createDir h (hs l dir (contains_of_find? he) hd)

/-- Putting something at a location that holds no directory keeps the other directories. -/
theorem dirAt_insert {e : Entry} (h : s.dirAt p.location = false) (hl : s.dirAt l) :
    Surface.dirAt { s with entries := s.entries.insert p e, mutations := s.mutations + 1 } l := by
  obtain ⟨owner, ho⟩ := dirAt_iff.1 hl
  have hne : p.location ≠ l := by
    rintro rfl
    rw [hl] at h
    contradiction
  refine dirAt_iff.2 ⟨owner, ?_⟩
  show (s.entries.insert p e).find? l = _
  rw [PathMap.find?_insert, if_neg hne, ho]

theorem IsTree.insert (hs : s.IsTree) {e : Entry} (h : s.dirAt p.location = false)
    (hp : ∃ dir, p.location.parent? = some dir ∧ s.dirAt dir) :
    IsTree { s with entries := s.entries.insert p e, mutations := s.mutations + 1 } := by
  intro l dir hl hd
  obtain ⟨v, hv⟩ := PathMap.contains_iff.1 hl
  change (s.entries.insert p e).find? l = _ at hv
  rw [PathMap.find?_insert] at hv
  refine dirAt_insert h ?_
  split at hv
  · rename_i heq
    obtain ⟨above, ha, hda⟩ := hp
    rw [← heq, ha] at hd
    exact Option.some.inj hd ▸ hda
  · exact hs l dir (contains_of_find? hv) hd

theorem IsTree.write (hs : s.IsTree) {data : Bytes} (h : s.write p data = .ok t) : t.IsTree := by
  obtain ⟨hf, rfl⟩ := write_eq_ok_iff.1 h
  obtain ⟨-, hd, hp⟩ := writeFault?_eq_none_iff.1 hf
  exact hs.insert hd hp

theorem IsTree.createLink (hs : s.IsTree) {target : Path} (h : s.createLink target p = .ok t) :
    t.IsTree := by
  obtain ⟨hf, rfl⟩ := createLink_eq_ok_iff.1 h
  obtain ⟨-, hc, hp⟩ := creationFault?_eq_none_iff.1 hf
  refine hs.insert (Bool.eq_false_iff.2 fun hd => ?_) hp
  rw [contains_of_dirAt hd] at hc
  contradiction

/-- A surface without some entries of a tree is a tree if it keeps what lies above what it keeps. -/
theorem IsTree.of_slots (hs : s.IsTree) (h : ∀ l, t.entries.contains l → s.entries.contains l)
    (hd : ∀ l dir, t.entries.contains l → l.parent? = some dir → s.dirAt dir →
      t.entries.slot? dir = s.entries.slot? dir) : t.IsTree := by
  intro l dir hl hp
  have hdir := hs l dir (h l hl) hp
  rw [dirAt_congr (PathMap.find?_congr (hd l dir hl hp hdir))]
  exact hdir

theorem IsTree.removeLink (hs : s.IsTree) (h : s.removeLink p = .ok t) : t.IsTree := by
  have hslot := slot?_removeLink h
  obtain ⟨⟨target, ht⟩, -⟩ := removeLink_eq_ok_iff.1 h
  refine hs.of_slots (fun l hl => ?_) fun l dir hl hp hdir => ?_
  · obtain ⟨e, he⟩ := PathMap.contains_iff.1 hl
    rw [find?_of_removeLink h] at he
    split at he
    · simp at he
    · exact contains_of_find? he
  · rw [hslot, if_neg]
    rintro rfl
    obtain ⟨owner, ho⟩ := dirAt_iff.1 hdir
    rw [Surface.entry?, ho] at ht
    simp at ht

theorem IsTree.removeDir (hs : s.IsTree) (h : s.removeDir p = .ok t) : t.IsTree := by
  have hslot := slot?_removeDir h
  have keeps {l : Location} (hl : t.entries.contains l) :
      s.entries.contains l ∧ l.within p.location = false := by
    obtain ⟨e, he⟩ := PathMap.contains_iff.1 hl
    rw [find?_of_removeDir h] at he
    split at he
    · simp at he
    · rename_i hw
      exact ⟨contains_of_find? he, by simpa using hw⟩
  refine hs.of_slots (fun l hl => (keeps hl).1) fun l dir hl hp hdir => ?_
  rw [hslot, if_neg]
  intro hw
  have hlw := within_trans (within_of_parent? hp) hw
  rw [(keeps hl).2] at hlw
  contradiction

end DisplayTopology.Surface
