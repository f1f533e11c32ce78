import DisplayTopology.Proofs.Surface.Locality
import DisplayTopology.Proofs.Teardown.Quiet

/-!
# What the walks of a teardown visit

Both walks list a tree while they take it apart. They end all the same, and descend no further than
the deepest directory lies (`height`). All this takes is that directories below the start end in
plain names: then a listed item leads one step down, whether or not it leads to what it lists
(`ends_clearLinks`, `ends_removeTree`). If these names are text, the walks also visit everything
once: a listed item leads to its directory, and what is done at one does not reach another
(`Walkable.item`). Entries of other kinds may have any names.

The visits of a walk are a `Sweep`: one after the other, each of a directory that is there when its
turn comes. Which directories are due is decided before the walk begins (`Visits`), by induction on
the depth: the second walk tries all at or below its start, from the bottom up
(`removeTree_visits`), and the first clears those for links that are outermost
(`clearLinks_visits`). A directory whose name is no text is passed over, and the item that lists it
leads elsewhere (`walks_once_illegible`).
-/

namespace DisplayTopology

namespace Surface

open Location

/-- Two surfaces with the same entries at and below a location. -/
def AlikeWithin (d : Location) (s t : Surface) : Prop :=
  ∀ l, l.within d → s.entries.slot? l = t.entries.slot? l

theorem AlikeWithin.dirAt {s t : Surface} {d l : Location} (h : AlikeWithin d s t)
    (hl : l.within d) : s.dirAt l = t.dirAt l :=
  dirAt_congr (PathMap.find?_congr (h l hl))

end Surface

namespace Teardown

open Location Surface

variable {s t u : Surface} {root l : Location} {dir : Path} {events more : List Event}
  {items : List Item} {paths : List Path} {n m : Nat}

/-- What the first walk does at a listed directory. -/
def clearItem (n : Nat) (dir : Path) (name : String) (s : Surface) : Option Walked :=
  if isLinkDirName name then some (clearLinkDir (dir / name) s) else clearLinks n (dir / name) s

theorem trace_clearItem {name : String} (hw : (dir / name).location.within root)
    (h : clearItem n dir name s = some (events, t)) : Trace root s events t := by
  rw [clearItem] at h
  split at h
  · obtain ⟨rfl, rfl⟩ := Prod.ext_iff.1 (Option.some.inj h)
    exact trace_clearLinkDir s hw
  · exact trace_clearLinks hw h

/-! ## Walks end -/

/-- A tree whose directories below a location end in plain names and lie less than `n` steps
down. -/
structure Endable (s : Surface) (d : Location) (n : Nat) : Prop where
  tree : s.IsTree
  plain : s.PlainDirsBelow d
  deep : Deep s d n

/-- **Step.** A walk from a listed item ends if that from the directory does, whatever was done since
it was listed. -/
theorem Endable.item (h : Endable s dir.location (n + 1)) (hlist : s.list dir = .ok items)
    {item : Item} (hi : item ∈ items) (hk : item.kind = .dir) (ht : Trace root s events t) :
    0 < n ∧ Endable t (dir / item.name).location n := by
  have hlog := ht.logged h.tree
  obtain ⟨hpos, hdeep⟩ := h.deep.item h.plain hlist hi hk hlog
  refine ⟨hpos, ht.isTree h.tree, fun l hl hb => ?_, hdeep⟩
  exact h.plain l (hlog.dirAt hl) (below_of_below_of_within hb (within_item hlist hi))

/-- **Run.** Visits of all listed directories end if each does, whatever the others did. -/
theorem ends_overDirs {visit : String → Surface → Option Walked}
    (htrace : ∀ item ∈ items, ∀ s events t, visit item.name s = some (events, t) →
      Trace root s events t)
    (hvisit : ∀ item ∈ items, item.kind = .dir → ∀ events t, Trace root s events t →
      (visit item.name t).isSome)
    (h : Trace root s events t) : (overDirs visit items t).isSome := by
  induction items generalizing events t with
  | nil => rfl
  | cons item items ih =>
    obtain ⟨htitem, htitems⟩ := List.forall_mem_cons.1 htrace
    obtain ⟨hitem, hitems⟩ := List.forall_mem_cons.1 hvisit
    rw [overDirs]
    split
    · rename_i hk
      obtain ⟨⟨more, u⟩, hu⟩ := Option.isSome_iff_exists.1 (hitem hk events t h)
      simp only [hu, Option.isSome_map]
      exact ih htitems hitems (h.append (htitem t more u hu))
    · exact ih htitems hitems h

/-- **The first walk ends.** -/
theorem ends_clearLinks (h : Endable s dir.location n) (hn : 0 < n) :
    (clearLinks n dir s).isSome := by
  induction n generalizing dir s with
  | zero => omega
  | succ n ih =>
    rw [clearLinks]
    cases hlist : s.list dir with
    | error e => rfl
    | ok items =>
      have hstart : Trace dir.location s [] s := .nil s
      refine ends_overDirs (fun item hi u events v hv => ?_)
        (fun item hi hk events u hu => ?_) hstart
      · exact trace_clearItem (within_item hlist hi) hv
      · obtain ⟨hpos, hend⟩ := h.item hlist hi hk hu
        split
        · rfl
        · exact ih hend hpos

/-- **The second walk ends.** -/
theorem ends_removeTree (h : Endable s dir.location n) (hn : 0 < n) :
    (removeTree n dir s).isSome := by
  induction n generalizing dir s with
  | zero => omega
  | succ n ih =>
    rw [removeTree]
    split
    · rfl
    · rfl
    · rename_i items hlist
      have hruns : (overDirs (fun name u => removeTree n (dir / name) u) items s).isSome := by
        have hstart : Trace dir.location s [] s := .nil s
        refine ends_overDirs (fun item hi u events v hv => ?_)
          (fun item hi hk events u hu => ?_) hstart
        · exact trace_removeTree (within_item hlist hi) hv
        · obtain ⟨hpos, hend⟩ := h.item hlist hi hk hu
          exact ih hend hpos
      obtain ⟨⟨events, t⟩, ht⟩ := Option.isSome_iff_exists.1 hruns
      rw [ht]
      rfl

/-! ## Directories side by side -/

/-- The item of a directory whose name is text leads to it. -/
theorem location_of_text_item (hx : s.TextDirsBelow dir.location) (h : s.list dir = .ok items)
    {item : Item} (hi : item ∈ items) (hk : item.kind = .dir) : s.isDir (dir / item.name) ∧
      (dir / item.name).location = dir.location ++ [.named item.name] := by
  refine ⟨?_, (location_of_dir_item hx.plain h hi hk).1⟩
  obtain ⟨-, rfl⟩ := list_eq_ok_iff.1 h
  obtain ⟨e, he, rfl⟩ := List.mem_map.1 hi
  obtain ⟨hm, hpar⟩ := mem_children_iff.1 he
  have hdir := dirAt_of_kind (PathMap.find?_of_mem hm) hk
  rw [isDir, leads_of_legible he (hx _ hdir (below_of_parent? hpar))]
  exact hdir

/-- What is at or below one of two listed directories is not at or below the other. -/
theorem pairwise_separate (hx : s.TextDirsBelow dir.location) (h : s.list dir = .ok items) :
    items.Pairwise fun i j => i.kind = .dir → j.kind = .dir →
      Separate (dir / i.name).location (dir / j.name).location := by
  obtain ⟨-, rfl⟩ := list_eq_ok_iff.1 h
  rw [List.pairwise_map]
  refine (pairwise_children s dir.location).imp_of_mem fun {a b} ha hb hlt hka hkb => ?_
  have leads {e : Path × Entry} (he : e ∈ s.children dir.location) (hk : e.2.kind = .dir) :
      (dir / (Item.ofEntry e).name).location = e.1.location := by
    obtain ⟨hm, hpar⟩ := mem_children_iff.1 he
    exact leads_of_legible he (hx _ (dirAt_of_kind (PathMap.find?_of_mem hm) hk)
      (below_of_parent? hpar))
  obtain ⟨c, -, hla⟩ := parent?_eq_some_iff.1 (mem_children_iff.1 ha).2
  obtain ⟨d, -, hlb⟩ := parent?_eq_some_iff.1 (mem_children_iff.1 hb).2
  rw [leads ha hka, leads hb hkb, hla, hlb]
  refine separate_append_singleton _ fun heq => ?_
  rw [hla, hlb, heq] at hlt
  simp at hlt

/-- A tree whose directories below a location are reached from it by names that are text, and lie
less than `n` steps down. -/
structure Walkable (s : Surface) (d : Location) (n : Nat) : Prop where
  tree : s.IsTree
  text : s.TextDirsBelow d
  deep : Deep s d n

/-- **Step.** A listed directory can be walked as the one that lists it can, and it is still there,
also after visits elsewhere. -/
theorem Walkable.item (h : Walkable s dir.location (n + 1)) (hlist : s.list dir = .ok items)
    {item : Item} (hi : item ∈ items) (hk : item.kind = .dir) (ht : t.IsTree)
    (halike : AlikeWithin (dir / item.name).location t s) :
    t.isDir (dir / item.name) ∧ Walkable t (dir / item.name).location n := by
  obtain ⟨hdir, hloc⟩ := location_of_text_item h.text hlist hi hk
  refine ⟨(halike.dirAt (within_refl _)).trans hdir, ht, fun l hl hb => ?_, fun rest hrest => ?_⟩
  · rw [halike.dirAt (within_of_below hb)] at hl
    have hw : (dir / item.name).location.within dir.location := hloc ▸ within_append ..
    exact (h.text l hl (below_of_below_of_within hb hw)).of_within hw (within_of_below hb)
  · rw [halike.dirAt (within_append ..), hloc] at hrest
    exact h.deep.child _ rest hrest

/-! ## Visits in turn -/

/-- Directories are visited one after the other, and each is there when its turn comes. -/
inductive Sweep (visit : Path → Surface → Walked) :
    List Path → Surface → List Event → Surface → Prop where
  | nil (s : Surface) : Sweep visit [] s [] s
  | cons {dir : Path} {dirs : List Path} {s u : Surface} {events : List Event} (hdir : s.isDir dir)
      (rest : Sweep visit dirs (visit dir s).2 events u) :
      Sweep visit (dir :: dirs) s ((visit dir s).1 ++ events) u

theorem Sweep.single {visit : Path → Surface → Walked} (hdir : s.isDir dir) :
    Sweep visit [dir] s (visit dir s).1 (visit dir s).2 := by
  simpa using Sweep.cons hdir (.nil _)

theorem Sweep.append {visit : Path → Surface → Walked} {others : List Path}
    (h : Sweep visit paths s events t) (h' : Sweep visit others t more u) :
    Sweep visit (paths ++ others) s (events ++ more) u := by
  induction h with
  | nil => exact h'
  | cons hdir _ ih =>
    rw [List.append_assoc]
    exact .cons hdir (ih h')

/-- What is due is visited, and nothing that lies at or below a path comes after it. -/
structure Visits (due : Location → Prop) (paths : List Path) : Prop where
  pairwise : paths.Pairwise fun p q => q.location.within p.location = false
  mem_iff : ∀ l, l ∈ paths.map Path.location ↔ due l

section Visits

variable {due due' : Location → Prop}

theorem Visits.nil (h : ∀ l, ¬due l) : Visits due [] :=
  ⟨.nil, fun l => by simp [h l]⟩

theorem Visits.single (dir : Path) : Visits (· = dir.location) [dir] :=
  ⟨List.pairwise_singleton _ _, fun l => by simp⟩

theorem Visits.congr (h : Visits due paths) (hdue : ∀ l, due l ↔ due' l) : Visits due' paths :=
  ⟨h.pairwise, fun l => (h.mem_iff l).trans (hdue l)⟩

/-- What is due later lies neither at nor below what was due before. -/
theorem Visits.append {others : List Path} (h : Visits due paths) (h' : Visits due' others)
    (hsep : ∀ l m, due l → due' m → m.within l = false) :
    Visits (fun l => due l ∨ due' l) (paths ++ others) := by
  refine ⟨List.pairwise_append.2 ⟨h.pairwise, h'.pairwise, fun p hp q hq => ?_⟩, fun l => ?_⟩
  · exact hsep _ _ ((h.mem_iff _).1 (List.mem_map_of_mem hp))
      ((h'.mem_iff _).1 (List.mem_map_of_mem hq))
  · rw [List.map_append, List.mem_append, h.mem_iff, h'.mem_iff]

theorem Visits.nodup (h : Visits due paths) : (paths.map Path.location).Nodup := by
  rw [List.Nodup, List.pairwise_map]
  refine h.pairwise.imp fun {p q} hout heq => ?_
  rw [heq, within_refl] at hout
  contradiction

/-- What lies below a path comes before it. -/
theorem Visits.mem_front (h : Visits due paths) {front back : List Path} {p : Path}
    (hsplit : paths = front ++ p :: back) (hl : due l) (hb : l.below p.location) :
    l ∈ front.map Path.location := by
  have hmem := (h.mem_iff l).2 hl
  rw [hsplit, List.map_append, List.mem_append, List.map_cons, List.mem_cons] at hmem
  rcases hmem with hfront | rfl | hback
  · exact hfront
  · exact absurd rfl (ne_of_below hb)
  · obtain ⟨q, hq, rfl⟩ := List.mem_map.1 hback
    have hpairwise := hsplit ▸ h.pairwise
    have hout := (List.pairwise_cons.1 (List.pairwise_append.1 hpairwise).2.1).1 q hq
    rw [within_of_below hb] at hout
    contradiction

end Visits

/-- **Run.** If every listed directory is swept as it is due, whatever was done at the others, then
all of them are. -/
theorem overDirs_visits (visit : String → Surface → Option Walked) (clean : Path → Surface → Walked)
    (region : String → Location → Prop)
    (htrace : ∀ name s events t, visit name s = some (events, t) →
      Trace (dir / name).location s events t)
    (hregion : ∀ name l, region name l → l.within (dir / name).location)
    (hsep : items.Pairwise fun i j => i.kind = .dir → j.kind = .dir →
      Separate (dir / i.name).location (dir / j.name).location)
    (hvisit : ∀ item ∈ items, item.kind = .dir → ∀ u, u.IsTree →
      AlikeWithin (dir / item.name).location u s → ∃ paths events v,
        visit item.name u = some (events, v) ∧ Sweep clean paths u events v ∧
          Visits (region item.name) paths)
    (ht : t.IsTree)
    (halike : ∀ item ∈ items, item.kind = .dir → AlikeWithin (dir / item.name).location t s) :
    ∃ paths events u, overDirs visit items t = some (events, u) ∧ Sweep clean paths t events u ∧
      Visits (fun l => ∃ item ∈ items, item.kind = .dir ∧ region item.name l) paths := by
  induction items generalizing t with
  | nil => exact ⟨[], [], t, rfl, .nil t, .nil (by simp)⟩
  | cons item items ih =>
    obtain ⟨hitem, hitems⟩ := List.forall_mem_cons.1 hvisit
    obtain ⟨hfirst, hothers⟩ := List.forall_mem_cons.1 halike
    obtain ⟨hsepitem, hsepitems⟩ := List.pairwise_cons.1 hsep
    cases hk : item.kind with
    | file | link =>
      obtain ⟨paths, events, u, hu, hsweep, hvisits⟩ := ih hsepitems hitems ht hothers
      refine ⟨paths, events, u, by simp [overDirs, hk, hu], hsweep, hvisits.congr fun l => ?_⟩
      simp [hk]
    | dir =>
      obtain ⟨paths, events, v, hv, hsweep, hvisits⟩ := hitem hk t ht (hfirst hk)
      have hrun := htrace _ _ _ _ hv
      -- what was done here lies outside of the directories still to come
      have hlater : ∀ other ∈ items, other.kind = .dir →
          AlikeWithin (dir / other.name).location v s := by
        intro other ho hko l hl
        rw [hrun.slot? ((hsepitem other ho hk hko).symm.outside hl)]
        exact hothers other ho hko l hl
      obtain ⟨others, more, u, hu, hsweep', hvisits'⟩ :=
        ih hsepitems hitems (hrun.isTree ht) hlater
      refine ⟨paths ++ others, events ++ more, u, by simp [overDirs, hk, hv, hu],
        hsweep.append hsweep', (hvisits.append hvisits' ?_).congr fun l => by simp [hk]⟩
      rintro l m hl ⟨other, ho, hko, hm⟩
      have hout := (hsepitem other ho hk hko).symm.outside (hregion _ _ hm)
      exact Bool.eq_false_iff.2 fun hw =>
        absurd (within_trans hw (hregion _ _ hl)) (Bool.eq_false_iff.1 hout)

/-! ## Directories that are tried -/

/-- Tries to remove a directory, as a walk of its own. -/
def tryDir (dir : Path) (s : Surface) : Walked := ([(tryRemove dir s).1], (tryRemove dir s).2)

/-- **The second walk** tries every directory at or below its start, from the bottom up. -/
theorem removeTree_visits (h : Walkable s dir.location n) (hdir : s.isDir dir) :
    ∃ paths events t, removeTree n dir s = some (events, t) ∧ Sweep tryDir paths s events t ∧
      Visits (fun l => l.within dir.location ∧ s.dirAt l) paths := by
  induction n generalizing dir s with
  | zero => exact absurd (h.deep.pos hdir) (Nat.lt_irrefl 0)
  | succ n ih =>
    obtain ⟨items, hlist⟩ := exists_list_of_isDir hdir
    have hbelow : ∀ item ∈ items, item.kind = .dir →
        (dir / item.name).location.below dir.location := by
      intro item hi hk
      rw [(location_of_text_item h.text hlist hi hk).2]
      exact below_append_cons ..
    have hvisit : ∀ item ∈ items, item.kind = .dir → ∀ u, u.IsTree →
        AlikeWithin (dir / item.name).location u s → ∃ paths events v,
          removeTree n (dir / item.name) u = some (events, v) ∧ Sweep tryDir paths u events v ∧
            Visits (fun l => l.within (dir / item.name).location ∧ s.dirAt l) paths := by
      intro item hi hk u hu halike
      obtain ⟨hthere, hwalk⟩ := h.item hlist hi hk hu halike
      obtain ⟨paths, events, v, hv, hsweep, hvisits⟩ := ih hwalk hthere
      refine ⟨paths, events, v, hv, hsweep, hvisits.congr fun l => and_congr_right fun hw => ?_⟩
      rw [halike.dirAt hw]
    obtain ⟨paths, events, t, ht, hsweep, hvisits⟩ := overDirs_visits
      (fun name u => removeTree n (dir / name) u) tryDir
      (fun name l => l.within (dir / name).location ∧ s.dirAt l)
      (fun _ _ _ _ hv => trace_removeTree (within_refl _) hv) (fun _ _ hl => hl.1)
      (pairwise_separate h.text hlist) hvisit h.tree fun _ _ _ _ _ => rfl
    -- all visits were below, so the directory itself is still there to be tried
    have hstill : t.isDir dir := by
      rw [isDir, dirAt_congr (PathMap.find?_congr (slot?_of_overDirs hbelow ht))]
      exact hdir
    refine ⟨paths ++ [dir], _, _, by rw [removeTree, hlist]; simp only [ht]; rfl,
      hsweep.append (.single hstill), (hvisits.append (.single dir) ?_).congr fun l => ?_⟩
    · rintro l _ ⟨item, hi, hk, hw, -⟩ rfl
      refine Bool.eq_false_iff.2 fun hout => ?_
      exact ne_of_below (below_of_within_of_below (within_trans hout hw) (hbelow item hi hk)) rfl
    · constructor
      · rintro (⟨item, hi, hk, hw, hl⟩ | rfl)
        · exact ⟨within_trans hw (within_of_below (hbelow item hi hk)), hl⟩
        · exact ⟨within_refl _, hdir⟩
      · rintro ⟨hw, hl⟩
        rcases within_iff_eq_or_below.1 hw with rfl | hb
        · exact .inr rfl
        · obtain ⟨item, hi, hk, hread⟩ := exists_dir_of_legible h.tree hlist (contains_of_dirAt hl)
            (h.text l hl hb) (ne_of_below hb) fun _ => hl
          exact .inl ⟨item, hi, hk, hread.within, hl⟩

/-! ## Directories for links -/

/-- A location has the name of a directory for links, and nothing between it and a root has. -/
structure OuterLinkDir (root l : Location) : Prop where
  below : l.below root
  isLinkDir : IsLinkDir l
  outermost : ∀ m, m.below root → l.below m → ¬IsLinkDir m

/-- A listed directory is cleared if it is for links, and nothing below it is outermost then. -/
theorem clearItem_visits {name : String} (hthere : s.isDir (dir / name))
    (hw : dir.location.within root) (hclear : Clear root dir.location)
    (hloc : (dir / name).location = dir.location ++ [.named name])
    (hwalk : Clear root (dir / name).location → ∃ paths events t,
      clearLinks n (dir / name) s = some (events, t) ∧ Sweep clearLinkDir paths s events t ∧
        Visits (fun l => (l.below (dir / name).location ∧ s.dirAt l) ∧ OuterLinkDir root l) paths) :
    ∃ paths events t, clearItem n dir name s = some (events, t) ∧
      Sweep clearLinkDir paths s events t ∧
      Visits (fun l => (l.within (dir / name).location ∧ s.dirAt l) ∧ OuterLinkDir root l)
        paths := by
  have hpar : (dir / name).location.parent? = some dir.location := by
    rw [hloc, parent?_append_named]
  have hname : IsLinkDir (dir / name).location ↔ isLinkDirName name := by
    rw [hloc, isLinkDir_append_named]
  have hb : (dir / name).location.below root :=
    below_of_below_of_within (below_of_parent? hpar) hw
  rw [clearItem]
  split
  · rename_i hlink
    refine ⟨[dir / name], _, _, rfl, .single hthere, (Visits.single _).congr fun l => ?_⟩
    constructor
    · rintro rfl
      exact ⟨⟨within_refl _, hthere⟩, hb, hname.2 hlink, hclear.above hpar⟩
    · rintro ⟨⟨hwl, -⟩, houter⟩
      rcases within_iff_eq_or_below.1 hwl with rfl | hbl
      · rfl
      · exact absurd (hname.2 hlink) (houter.outermost _ hb hbl)
  · rename_i hlink
    have hnot : ¬IsLinkDir (dir / name).location := fun h => hlink (hname.1 h)
    obtain ⟨paths, events, t, ht, hsweep, hvisits⟩ := hwalk (hclear.child hpar hnot)
    refine ⟨paths, events, t, ht, hsweep, hvisits.congr fun l => ?_⟩
    refine and_congr_left fun houter => and_congr_left fun _ => ⟨within_of_below, fun hwl => ?_⟩
    refine below_of_within_of_ne hwl ?_
    rintro rfl
    exact hnot houter.isLinkDir

/-- **The first walk** clears the directories for links that are outermost. -/
theorem clearLinks_visits (h : Walkable s dir.location n) (hn : 0 < n) (hne : dir.location ≠ [])
    (hw : dir.location.within root) (hclear : Clear root dir.location) :
    ∃ paths events t, clearLinks n dir s = some (events, t) ∧ Sweep clearLinkDir paths s events t ∧
      Visits (fun l => (l.below dir.location ∧ s.dirAt l) ∧ OuterLinkDir root l) paths := by
  induction n generalizing dir s with
  | zero => omega
  | succ n ih =>
    cases hlist : s.list dir with
    | error e =>
      refine ⟨[], [], s, by simp [clearLinks, hlist], .nil s, .nil ?_⟩
      rintro l ⟨⟨hb, hl⟩, -⟩
      have hdir : s.dirAt dir.location = false := (list_eq_error_iff.1 hlist).1
      rw [h.tree.dirAt_of_below (contains_of_dirAt hl) hb hne] at hdir
      contradiction
    | ok items =>
      have hvisit : ∀ item ∈ items, item.kind = .dir → ∀ u, u.IsTree →
          AlikeWithin (dir / item.name).location u s → ∃ paths events v,
            clearItem n dir item.name u = some (events, v) ∧
            Sweep clearLinkDir paths u events v ∧
            Visits (fun l => (l.within (dir / item.name).location ∧ s.dirAt l) ∧
              OuterLinkDir root l) paths := by
        intro item hi hk u hu halike
        obtain ⟨hthere, hwalk⟩ := h.item hlist hi hk hu halike
        have hloc := (location_of_text_item h.text hlist hi hk).2
        have hwi : (dir / item.name).location.within root := by
          rw [hloc]
          exact within_trans (within_append ..) hw
        obtain ⟨paths, events, v, hv, hsweep, hvisits⟩ :=
          clearItem_visits hthere hw hclear hloc
            (ih hwalk (hwalk.deep.pos hthere) (by simp [hloc]) hwi)
        refine ⟨paths, events, v, hv, hsweep, hvisits.congr fun l => ?_⟩
        refine and_congr_left fun _ => and_congr_right fun hwl => ?_
        rw [halike.dirAt hwl]
      obtain ⟨paths, events, t, ht, hsweep, hvisits⟩ :=
        overDirs_visits (clearItem n dir) clearLinkDir
          (fun name l => (l.within (dir / name).location ∧ s.dirAt l) ∧ OuterLinkDir root l)
          (fun _ _ _ _ => trace_clearItem (within_refl _)) (fun _ _ hl => hl.1.1)
          (pairwise_separate h.text hlist) hvisit h.tree fun _ _ _ _ _ => rfl
      refine ⟨paths, events, t, by rw [clearLinks, hlist]; exact ht, hsweep,
        hvisits.congr fun l => ?_⟩
      constructor
      · rintro ⟨item, hi, hk, ⟨hwl, hl⟩, houter⟩
        have hloc := (location_of_text_item h.text hlist hi hk).2
        rw [hloc] at hwl
        exact ⟨⟨below_of_within_of_below hwl (below_append_cons ..), hl⟩, houter⟩
      · rintro ⟨⟨hb, hl⟩, houter⟩
        obtain ⟨item, hi, hk, hread⟩ := exists_dir_of_legible h.tree hlist (contains_of_dirAt hl)
          (h.text l hl hb) (ne_of_below hb) fun _ => hl
        exact ⟨item, hi, hk, ⟨hread.within, hl⟩, houter⟩

/-! ## Depth -/

/-- How far below a path the deepest directory lies. -/
def height (s : Surface) (dir : Path) : Nat :=
  ((s.dirsBelow dir).map fun p => p.location.length - dir.location.length).max?.getD 0

theorem deep_height (s : Surface) (dir : Path) : Deep s dir.location (height s dir + 1) := by
  intro rest hdir
  cases rest with
  | nil => exact Nat.succ_pos _
  | cons c rest =>
    obtain ⟨owner, ho⟩ := dirAt_iff.1 hdir
    obtain ⟨p, hm, hloc⟩ := PathMap.find?_eq_some_iff.1 ho
    have hmem : p ∈ s.dirsBelow dir :=
      mem_dirsBelow_iff.2 ⟨hloc ▸ below_append_cons .., owner, hm⟩
    have hle := List.le_max?_getD_of_mem (k := 0)
      (List.mem_map_of_mem (f := fun p => p.location.length - dir.location.length) hmem)
    rw [hloc, List.length_append, Nat.add_sub_cancel_left] at hle
    exact Nat.lt_succ_of_le hle

theorem overDirs_mono {visit visit' : String → Surface → Option Walked} {r : Walked}
    (hvisit : ∀ name s r, visit name s = some r → visit' name s = some r)
    (h : overDirs visit items s = some r) : overDirs visit' items s = some r := by
  induction items generalizing s r with
  | nil => exact h
  | cons item items ih =>
    rw [overDirs] at h ⊢
    split at h
    · split at h
      · contradiction
      · rename_i events t ht
        obtain ⟨walked, hwalked, rfl⟩ := Option.map_eq_some_iff.1 h
        simp only [hvisit _ _ _ ht, ih hwalked, Option.map_some]
    · exact ih h

/-- A walk that ends goes the same way on more budget. -/
theorem clearLinks_mono {r : Walked} (hnm : n ≤ m) (h : clearLinks n dir s = some r) :
    clearLinks m dir s = some r := by
  induction n generalizing m dir s r with
  | zero => contradiction
  | succ n ih =>
    obtain ⟨m, rfl⟩ : ∃ k, m = k + 1 := ⟨m - 1, by omega⟩
    rw [clearLinks] at h ⊢
    cases hlist : s.list dir with
    | error e =>
      rw [hlist] at h
      exact h
    | ok items =>
      rw [hlist] at h
      refine overDirs_mono (fun name u walked hv => ?_) h
      split at hv
      · rename_i hlink
        rw [if_pos hlink, hv]
      · rename_i hlink
        rw [if_neg hlink]
        exact ih (by omega) hv

theorem removeTree_mono {r : Walked} (hnm : n ≤ m) (h : removeTree n dir s = some r) :
    removeTree m dir s = some r := by
  induction n generalizing m dir s r with
  | zero => contradiction
  | succ n ih =>
    obtain ⟨m, rfl⟩ : ∃ k, m = k + 1 := ⟨m - 1, by omega⟩
    rw [removeTree] at h ⊢
    split at h
    · exact h
    · exact h
    · split at h
      · contradiction
      · rename_i events t ht
        rw [overDirs_mono (fun name u walked hv => ih (by omega) hv) ht]
        exact h

/-! ## Both walks -/

theorem tryRemove_fst (dir : Path) (s : Surface) :
    (tryRemove dir s).1 = .removed dir ∨ ∃ e, (tryRemove dir s).1 = .refused dir e := by
  unfold tryRemove
  cases s.removeDir dir with
  | ok t => exact .inl rfl
  | error e => exact .inr ⟨e, rfl⟩

/-- The events of directories that are tried are about them, and about no listing. -/
theorem Sweep.events_of_tryDir (h : Sweep tryDir paths s events t) : events.map Event.path = paths ∧
    ∀ event ∈ events, ∀ p, event ≠ .absent p ∧ event ≠ .unlisted p := by
  induction h with
  | nil => simp
  | @cons dir dirs s u events hdir rest ih =>
    obtain ⟨hpaths, hevents⟩ := ih
    rcases tryRemove_fst dir s with he | ⟨e, he⟩ <;>
      simp [tryDir, he, Event.path, hpaths] <;> exact hevents

/-- On a budget that reaches the deepest directory, a walk from a directory ends, and it is a sweep
of the given paths that logs the given events. -/
def Sweeps (walk : Nat → Path → Surface → Option Walked) (visit : Path → Surface → Walked)
    (dir : Path) (s : Surface) (paths : List Path) (events : List Event) : Prop :=
  ∃ t, Sweep visit paths s events t ∧ ∀ n, height s dir < n → walk n dir s = some (events, t)

/-- Paths are those of all directories at or below a location, each once and from the bottom up. -/
structure BottomUp (s : Surface) (d : Location) (paths : List Path) : Prop where
  nodup : (paths.map Path.location).Nodup
  mem_iff : ∀ l, l ∈ paths.map Path.location ↔ l.within d ∧ s.dirAt l
  /-- What lies below a path comes before it. -/
  below : ∀ front p back, paths = front ++ p :: back → ∀ l, l.below p.location → s.dirAt l →
    l ∈ front.map Path.location

/-- How both walks of a teardown go from a directory. -/
structure WalksOnce (s : Surface) (dir : Path) : Prop where
  /-- The first walk clears the outermost directories for links, each once. -/
  clears : ∃ cleared events, Sweeps clearLinks clearLinkDir dir s cleared events ∧
    (cleared.map Path.location).Nodup ∧
    ∀ l, l ∈ cleared.map Path.location ↔ s.dirAt l ∧ OuterLinkDir dir.location l
  /-- The second walk tries all directories, and logs one event for each: that it was removed or
  refused, never that it was gone. -/
  tries : s.isDir dir → ∃ tried events, Sweeps removeTree tryDir dir s tried events ∧
    BottomUp s dir.location tried ∧ events.map Event.path = tried ∧
    ∀ event ∈ events, ∀ p, event ≠ .absent p ∧ event ≠ .unlisted p
  /-- Where there is no directory to start from, the second walk says so, and that is all. -/
  misses : s.isDir dir = false → ∃ event, (event = .absent dir ∨ event = .unlisted dir) ∧
    ∀ n, 0 < n → removeTree n dir s = some ([event], s)

theorem Visits.bottomUp (h : Visits (fun l => l.within dir.location ∧ s.dirAt l) paths) :
    BottomUp s dir.location paths := by
  refine ⟨h.nodup, h.mem_iff, fun front p back hsplit l hb hl => ?_⟩
  have hp : p.location.within dir.location :=
    ((h.mem_iff _).1 (List.mem_map_of_mem (by simp [hsplit]))).1
  exact h.mem_front hsplit ⟨within_of_below (below_of_below_of_within hb hp), hl⟩ hb

/-- **The walks of a teardown end**, on any tree whose directories below the start end in plain
names, no deeper than these lie, **and visit everything once** if these names are text. -/
theorem walks_once (dir : Path) (s : Surface) (hne : dir.text ≠ "") (hs : s.IsTree)
    (hp : s.PlainDirsBelow dir.location) :
    (∀ n, height s dir < n → (clearLinks n dir s).isSome ∧ (removeTree n dir s).isSome) ∧
      (s.TextDirsBelow dir.location → WalksOnce s dir) := by
  refine ⟨fun n hn => ?_, fun hx => ?_⟩
  · have hend : Endable s dir.location n :=
      ⟨hs, hp, fun rest hrest => Nat.lt_of_lt_of_le (deep_height s dir rest hrest) hn⟩
    exact ⟨ends_clearLinks hend (Nat.zero_lt_of_lt hn), ends_removeTree hend (Nat.zero_lt_of_lt hn)⟩
  have hwalk : Walkable s dir.location (height s dir + 1) := ⟨hs, hx, deep_height s dir⟩
  refine ⟨?_, fun hdir => ?_, fun hdir => ?_⟩
  · obtain ⟨paths, events, t, ht, hsweep, hvisits⟩ := clearLinks_visits hwalk (Nat.succ_pos _)
      (Path.location_ne_nil hne) (within_refl _) (clear_root _)
    refine ⟨paths, events, ⟨t, hsweep, fun n hn => clearLinks_mono hn ht⟩, hvisits.nodup,
      fun l => ?_⟩
    rw [hvisits.mem_iff]
    exact ⟨fun h => ⟨h.1.2, h.2⟩, fun h => ⟨⟨h.2.below, h.1⟩, h.2⟩⟩
  · obtain ⟨paths, events, t, ht, hsweep, hvisits⟩ := removeTree_visits hwalk hdir
    exact ⟨paths, events, ⟨t, hsweep, fun n hn => removeTree_mono hn ht⟩, hvisits.bottomUp,
      hsweep.events_of_tryDir⟩
  · have hstep (n : Nat) (hn : 0 < n) : ∃ k, n = k + 1 := ⟨n - 1, by omega⟩
    have hlist : s.list dir = .error _ := list_eq_error_iff.2 ⟨hdir, rfl⟩
    by_cases hfile : s.contains dir
    · rw [if_pos hfile] at hlist
      refine ⟨.unlisted dir, .inr rfl, fun n hn => ?_⟩
      obtain ⟨n, rfl⟩ := hstep n hn
      rw [removeTree, hlist]
    · rw [if_neg hfile] at hlist
      refine ⟨.absent dir, .inl rfl, fun n hn => ?_⟩
      obtain ⟨n, rfl⟩ := hstep n hn
      rw [removeTree, hlist]

/-- A surface on which a link, though no directory, ends in a step up. -/
def strayLinkSurface : Surface :=
  SurfaceCall.runAll heldSurface
    [.createLink (.ofText "/c/v/crtcs") (.ofText "/c/v/planes/..")]

theorem walks_once_strayLinkSurface :
    (Path.ofText "/c/v").text ≠ "" ∧ strayLinkSurface.IsTree ∧
      strayLinkSurface.PlainDirsBelow (Path.ofText "/c/v").location ∧
      strayLinkSurface.TextDirsBelow (Path.ofText "/c/v").location ∧
      ¬strayLinkSurface.PlainBelow (Path.ofText "/c/v").location ∧
      strayLinkSurface.isDir (.ofText "/c/v") ∧ WalksOnce strayLinkSurface (.ofText "/c/v") := by
  have hne : (Path.ofText "/c/v").text ≠ "" := by decide
  have hs : strayLinkSurface.IsTree := by decide +kernel
  have hp : strayLinkSurface.PlainDirsBelow (Path.ofText "/c/v").location := by decide +kernel
  have hx : strayLinkSurface.TextDirsBelow (Path.ofText "/c/v").location := by decide +kernel
  have hstray : ¬strayLinkSurface.PlainBelow (Path.ofText "/c/v").location := by decide +kernel
  have hdir : strayLinkSurface.isDir (.ofText "/c/v") := by decide +kernel
  exact ⟨hne, hs, hp, hx, hstray, hdir, (walks_once _ _ hne hs hp).2 hx⟩

/-- The second walk never comes to a directory whose name is no text, and finds the item that lists
it gone. -/
theorem walks_once_illegible :
    (Path.ofText "/r").text ≠ "" ∧ illegibleSurface.IsTree ∧
      illegibleSurface.PlainDirsBelow (Path.ofText "/r").location ∧
      illegibleSurface.isDir (.ofText "/r") ∧ illegibleSurface.isDir illegiblePath ∧
      (removeTree 2 (.ofText "/r") illegibleSurface).map Prod.fst = some
        [.removed (.ofText "/r/😀"), .absent (.ofText "/r/\uFFFD"), .absent (.ofText "/r/\uFFFD"),
          .refused (.ofText "/r") .enotempty] ∧
      ¬WalksOnce illegibleSurface (.ofText "/r") := by
  have hdir : illegibleSurface.isDir (.ofText "/r") := by decide +kernel
  have hrun : (removeTree 2 (.ofText "/r") illegibleSurface).map Prod.fst = some
      [.removed (.ofText "/r/😀"), .absent (.ofText "/r/\uFFFD"), .absent (.ofText "/r/\uFFFD"),
        .refused (.ofText "/r") .enotempty] := by decide +kernel
  have hheight : height illegibleSurface (.ofText "/r") < 2 := by decide +kernel
  refine ⟨by decide, by decide +kernel, by decide +kernel, hdir, by decide +kernel, hrun, ?_⟩
  intro honce
  obtain ⟨tried, events, ⟨t, -, hwalk⟩, -, -, hevents⟩ := honce.tries hdir
  rw [hwalk 2 hheight] at hrun
  obtain rfl := Option.some.inj hrun
  exact (hevents (.absent (.ofText "/r/\uFFFD")) (by simp) (.ofText "/r/\uFFFD")).1 rfl

end Teardown

end DisplayTopology
