import DisplayTopology.Proofs.Teardown.Account

/-!
# When a teardown passes nothing over

A log is *quiet* when it lists nothing as skipped. On a surface where directories for links are the
driver's and hold links only (`Tidy`), and names below the root are text, the first walk unlinks all
that it lists and is refused only what goes with its parent, so it takes links and nothing else
(`quiet_clearLinks`). Then, if every directory of a user is loose, each can be removed when the
second walk tries it, because it is still there and those below it are gone (`quiet_removeTree`). So
nothing is skipped (`quiet_removeTopology`).
-/

namespace DisplayTopology.Teardown

open Location Surface

variable {s t u v : Surface} {root l : Location} {dir : Path} {events more : List Event}
  {items : List Item} {visit : String → Surface → Option Walked}

/-- No event of a log is about a path that was left behind. -/
def Quiet (events : List Event) : Prop := ∀ event ∈ events, event.skipped? = none

theorem Quiet.nil : Quiet [] := by simp [Quiet]

theorem Quiet.append (h : Quiet events) (h' : Quiet more) : Quiet (events ++ more) :=
  List.forall_mem_append.2 ⟨h, h'⟩

theorem quiet_singleton {event : Event} : Quiet [event] ↔ event.skipped? = none := by simp [Quiet]

theorem Quiet.skipped_eq_nil (h : Quiet events) : (Report.ofEvents events).skipped = [] :=
  List.filterMap_eq_nil_iff.2 h

/-! ## What is outside a trace -/

theorem Tells.slot? {event : Event} (h : Tells s event t)
    (hl : l.within event.path.location = false) : t.entries.slot? l = s.entries.slot? l := by
  cases h with
  | unlinked h =>
    rw [slot?_removeLink h, if_neg]
    rintro rfl
    rw [Event.path, within_refl] at hl
    contradiction
  | removed h =>
    rw [Event.path] at hl
    rw [slot?_removeDir h, hl, if_neg Bool.false_ne_true]
  | kept | refused | absent | unlisted => rfl

/-- A trace changes nothing outside its root. -/
theorem Trace.slot? (h : Trace root s events t) (hl : l.within root = false) :
    t.entries.slot? l = s.entries.slot? l := by
  induction h with
  | nil => rfl
  | cons hw h _ ih =>
    rw [ih, h.slot? (Bool.eq_false_iff.2 fun hwl => ?_)]
    rw [within_trans hwl hw] at hl
    contradiction

/-! ## Surfaces in order -/

/-- Directories for links are the driver's, and hold links only. -/
structure Tidy (s : Surface) (root : Location) : Prop where
  linkDir : ∀ l owner, l.below root → IsLinkDir l → s.entries.find? l = some (.dir owner) →
    owner = .kernel
  link : ∀ l e dir, s.entries.find? l = some e → l.parent? = some dir → dir.below root →
    IsLinkDir dir → ∃ target, e = .link target

/-- Links have gone between two surfaces, and nothing else. -/
def Unlinks (s t : Surface) : Prop :=
  ∀ l, t.entries.slot? l = s.entries.slot? l ∨
    (∃ target, s.entries.find? l = some (.link target)) ∧ t.entries.slot? l = none

namespace Unlinks

theorem refl (s : Surface) : Unlinks s s := fun _ => .inl rfl

theorem trans (h : Unlinks s t) (h' : Unlinks t u) : Unlinks s u := by
  intro l
  rcases h l with he | ⟨hlink, hn⟩
  · rcases h' l with he' | ⟨hlink, hn⟩
    · exact .inl (he'.trans he)
    · exact .inr ⟨by rwa [← PathMap.find?_congr he], hn⟩
  · rcases h' l with he' | ⟨⟨target, ht⟩, -⟩
    · exact .inr ⟨hlink, he'.trans hn⟩
    · rw [PathMap.slot?_eq_none_iff.1 hn] at ht
      simp at ht

theorem find?_of_eq_some (h : Unlinks s t) {e : Entry} (hl : t.entries.find? l = some e) :
    s.entries.find? l = some e := by
  rcases h l with he | ⟨-, hn⟩
  · rw [← PathMap.find?_congr he, hl]
  · rw [PathMap.slot?_eq_none_iff.1 hn] at hl
    simp at hl

theorem find?_dir (h : Unlinks s t) {owner : Owner} (hl : s.entries.find? l = some (.dir owner)) :
    t.entries.find? l = some (.dir owner) := by
  rcases h l with he | ⟨⟨target, ht⟩, -⟩
  · rw [PathMap.find?_congr he, hl]
  · simp [hl] at ht

theorem tidy (h : Unlinks s t) (hs : Tidy s root) : Tidy t root :=
  ⟨fun l owner hb hlink ho => hs.linkDir l owner hb hlink (h.find?_of_eq_some ho),
    fun l e dir he => hs.link l e dir (h.find?_of_eq_some he)⟩

theorem textBelow (h : Unlinks s t) (hx : s.TextBelow root) : t.TextBelow root :=
  hx.mono fun _ _ => h.find?_of_eq_some

end Unlinks

/-! ## The first walk -/

/-- What lies in a directory is legible from there. -/
theorem legible_of_mem_children (hx : t.TextBelow root) (hw : l.within root) {e : Path × Entry}
    (he : e ∈ t.children l) : Legible l e.1.location := by
  obtain ⟨hm, hpar⟩ := mem_children_iff.1 he
  have hb := below_of_below_of_within (below_of_parent? hpar) hw
  exact (hx _ (contains_of_find? (PathMap.find?_of_mem hm)) hb).of_within hw
    (within_of_parent? hpar)

/-- An item leads to an entry of its kind. -/
theorem exists_entry_of_item (hx : t.TextBelow root) (hw : dir.location.within root)
    (h : t.list dir = .ok items) {item : Item} (hi : item ∈ items) :
    ∃ e, t.entries.find? (dir / item.name).location = some e ∧ e.kind = item.kind := by
  obtain ⟨-, rfl⟩ := list_eq_ok_iff.1 h
  obtain ⟨e, he, rfl⟩ := List.mem_map.1 hi
  refine ⟨e.2, ?_, rfl⟩
  rw [leads_of_legible he (legible_of_mem_children hx hw he)]
  exact PathMap.find?_of_mem (mem_children_iff.1 he).1

/-- What a directory lists lies in different places. -/
theorem nodup_items (hx : t.TextBelow root) (hw : dir.location.within root)
    (h : t.list dir = .ok items) :
    (items.map fun item => (dir / item.name).location).Nodup := by
  have hloc : ∀ e ∈ t.children dir.location,
      (dir / (Item.ofEntry e).name).location = e.1.location :=
    fun e he => leads_of_legible he (legible_of_mem_children hx hw he)
  obtain ⟨-, rfl⟩ := list_eq_ok_iff.1 h
  rw [List.map_map, List.map_congr_left (g := fun e => e.1.location) hloc, List.Nodup,
    List.pairwise_map]
  exact (pairwise_children t dir.location).imp fun hlt heq => by simp [heq] at hlt

/-- Links in different places are all unlinked. -/
theorem quiet_unlinkAll (hnodup : (items.map fun item => (dir / item.name).location).Nodup)
    (hlinks : ∀ item ∈ items, ∃ target,
      s.entries.find? (dir / item.name).location = some (.link target)) :
    Quiet (unlinkAll dir items s).1 ∧ Unlinks s (unlinkAll dir items s).2 := by
  induction items generalizing s with
  | nil => exact ⟨.nil, .refl s⟩
  | cons item items ih =>
    obtain ⟨hfirst, hrest⟩ := List.forall_mem_cons.1 hlinks
    obtain ⟨hnot, hnodup⟩ := List.nodup_cons.1 hnodup
    obtain ⟨t, ht⟩ : ∃ t, s.removeLink (dir / item.name) = .ok t :=
      ⟨_, removeLink_eq_ok_iff.2 ⟨hfirst, rfl⟩⟩
    have hstays : ∀ other ∈ items, ∃ target,
        t.entries.find? (dir / other.name).location = some (.link target) := by
      intro other hother
      obtain ⟨target, htarget⟩ := hrest other hother
      refine ⟨target, ?_⟩
      rw [find?_of_removeLink ht, if_neg, htarget]
      exact fun heq => hnot (List.mem_map.2 ⟨other, hother, heq⟩)
    obtain ⟨hquiet, hunlinks⟩ := ih hnodup hstays
    have hstep : Unlinks s t := by
      intro l
      rw [slot?_removeLink ht]
      split
      · rename_i heq
        exact .inr ⟨heq ▸ hfirst, rfl⟩
      · exact .inl rfl
    rw [unlinkAll, ht]
    exact ⟨List.forall_mem_cons.2 ⟨rfl, hquiet⟩, hstep.trans hunlinks⟩

/-- A default group is refused for what it is. -/
theorem tryRemove_of_kernel (h : s.entries.find? dir.location = some (.dir .kernel)) :
    tryRemove dir s = (.refused dir .eperm, s) := by
  rw [tryRemove, removeDir_eq_eperm_iff.2 h]

theorem quiet_clearLinkDir (hs : Tidy s root) (hx : s.TextBelow root)
    (hb : dir.location.below root) (hlink : IsLinkDir dir.location)
    (hdir : s.dirAt dir.location) :
    Quiet (clearLinkDir dir s).1 ∧ Unlinks s (clearLinkDir dir s).2 := by
  obtain ⟨items, hlist⟩ := exists_list_of_isDir hdir
  have hw := within_of_below hb
  have hlinks : ∀ item ∈ items, ∃ target,
      s.entries.find? (dir / item.name).location = some (.link target) := by
    intro item hi
    obtain ⟨e, he, -⟩ := exists_entry_of_item hx hw hlist hi
    have hpar : (dir / item.name).location.parent? = some dir.location := by
      rw [location_item hx.plain hw hlist hi, parent?_append_named]
    obtain ⟨target, rfl⟩ := hs.link _ e dir.location he hpar hb hlink
    exact ⟨target, he⟩
  obtain ⟨hquiet, hunlinks⟩ := quiet_unlinkAll (nodup_items hx hw hlist) hlinks
  obtain ⟨owner, ho⟩ := dirAt_iff.1 hdir
  obtain rfl := hs.linkDir _ owner hb hlink ho
  have hlisted : listed s dir = items := by rw [listed, hlist]
  rw [clearLinkDir, hlisted]
  simp only [tryRemove_of_kernel (hunlinks.find?_dir ho)]
  exact ⟨hquiet.append (quiet_singleton.2 rfl), hunlinks⟩

/-- **The first walk** passes nothing over and takes links only. -/
theorem quiet_clearLinks {n : Nat} (hs : Tidy s root) (hx : s.TextBelow root)
    (hw : dir.location.within root) (h : clearLinks n dir s = some (events, t)) :
    Quiet events ∧ Unlinks s t := by
  induction n generalizing dir s events t with
  | zero => simp [clearLinks] at h
  | succ n ih =>
    rw [clearLinks] at h
    split at h
    · obtain ⟨rfl, rfl⟩ : [] = events ∧ s = t := by simpa using h
      exact ⟨.nil, .refl s⟩
    · rename_i items hlist
      refine rel_overDirs (R := fun s events t => Quiet events ∧ Unlinks s t)
        (fun s => ⟨.nil, .refl s⟩)
        (fun _ _ _ _ _ h h' => ⟨h.1.append h'.1, h.2.trans h'.2⟩)
        (fun item hi hk done u more v hu hv => ?_) h
      have hloc := location_item hx.plain hw hlist hi
      have hpar : (dir / item.name).location.parent? = some dir.location := by
        rw [hloc, parent?_append_named]
      have hb := below_of_below_of_within (below_of_parent? hpar) hw
      split at hv
      · rename_i hlink
        obtain ⟨e, he, hke⟩ := exists_entry_of_item hx hw hlist hi
        obtain ⟨owner, ho⟩ := dirAt_iff.1 (dirAt_of_kind he (hke.trans hk))
        obtain ⟨rfl, rfl⟩ := Prod.ext_iff.1 (Option.some.inj hv)
        refine quiet_clearLinkDir (hu.2.tidy hs) (hu.2.textBelow hx) hb ?_
          (dirAt_of_find? (hu.2.find?_dir ho))
        rw [hloc, isLinkDir_append_named]
        exact hlink
      · exact ih (hu.2.tidy hs) (hu.2.textBelow hx) (within_of_below hb) hv

/-! ## The second walk -/

/-- Visits below a directory leave the directory itself alone. -/
theorem slot?_of_overDirs {n : Nat}
    (hbelow : ∀ item ∈ items, item.kind = .dir → (dir / item.name).location.below dir.location)
    (h : overDirs (fun name u => removeTree n (dir / name) u) items s = some (events, t)) :
    t.entries.slot? dir.location = s.entries.slot? dir.location := by
  refine rel_overDirs (R := fun s _ t => t.entries.slot? dir.location = s.entries.slot? dir.location)
    (fun _ => rfl) (fun _ _ _ _ _ h h' => h'.trans h) ?_ h
  intro item hi hk _ u more v _ hv
  refine (trace_removeTree (within_refl _) hv).slot? (Bool.eq_false_iff.2 fun hw => ?_)
  exact ne_of_below (below_of_within_of_below hw (hbelow item hi hk)) rfl

/-- A directory that is there is not skipped, if it is gone or a default group after it was tried. -/
theorem skipped?_tryRemove {owner : Owner}
    (hdir : s.entries.find? dir.location = some (.dir owner))
    (hgone : owner = .user → (tryRemove dir s).2.entries.find? dir.location = none) :
    (tryRemove dir s).1.skipped? = none := by
  cases owner with
  | kernel =>
    rw [tryRemove_of_kernel hdir]
    rfl
  | user =>
    have hnone := hgone rfl
    rw [tryRemove] at hnone ⊢
    split
    · rfl
    · rename_i hr
      simp only [hr] at hnone
      rw [hdir] at hnone
      simp at hnone

/-- What holds a directory or nothing can be listed, or is missing. -/
theorem list_eq_enoent {e : Errno}
    (hdir : ∀ e, s.entries.find? dir.location = some e → e.kind = .dir)
    (h : s.list dir = .error e) : e = .enoent := by
  obtain ⟨hfile, rfl⟩ := list_eq_error_iff.1 h
  cases hentry : s.entries.find? dir.location with
  | none => simp [Surface.contains, PathMap.contains, hentry]
  | some entry =>
    have hk := hdir entry hentry
    rw [isDir, dirAt, hentry] at hfile
    cases entry <;> simp_all [Entry.kind]

/-- **The second walk** passes nothing over, if every directory of a user is loose. -/
theorem quiet_removeTree {n : Nat} (hn : 0 < n) (hdeep : Deep t dir.location n)
    (h : Remnant s root t) (hx : s.TextBelow root) (hne : root ≠ []) (hun : Unrouted t root)
    (hloose : ∀ d, d.within root → s.entries.find? d = some (.dir .user) → Loose s root d)
    (hreach : Legible root dir.location)
    (hdir : ∀ e, t.entries.find? dir.location = some e → e.kind = .dir)
    (hrun : removeTree n dir t = some (events, u)) : Quiet events := by
  induction n generalizing dir t events u with
  | zero => omega
  | succ n ih =>
    have hw := hreach.within
    have hxt : t.TextBelow root := hx.mono fun _ _ => h.find?_of_eq_some
    -- a loose directory is gone at the end of its own walk
    obtain ⟨_, _, hrun', -, hgone⟩ := removeTree_spec hn hdeep h hx.plain hne hun hreach
    obtain ⟨rfl, rfl⟩ := Prod.mk.inj (Option.some.inj (hrun.symm.trans hrun'))
    rw [removeTree] at hrun
    split at hrun
    · obtain ⟨rfl, -⟩ : [.absent dir] = events ∧ _ := by simpa using hrun
      exact quiet_singleton.2 rfl
    · rename_i hnot hlist
      exact absurd (list_eq_enoent hdir hlist) hnot
    · rename_i items hlist
      split at hrun
      · simp at hrun
      · rename_i first v hv
        obtain ⟨rfl, rfl⟩ : first ++ [(tryRemove dir v).1] = events ∧ (tryRemove dir v).2 = u :=
          Prod.ext_iff.1 (Option.some.inj hrun)
        have hvisits : Progress s root t first v ∧ Quiet first := by
          refine rel_overDirs (R := fun t events u =>
            Remnant s root t → Progress s root t events u ∧ Quiet events)
            (fun _ h => ⟨.nil h, .nil⟩) ?_ ?_ hv h
          · intro t u v events more h h' ht
            obtain ⟨hfirst, hquiet⟩ := h ht
            obtain ⟨hrest, hquiet'⟩ := h' hfirst.remnant
            exact ⟨hfirst.append hrest, hquiet.append hquiet'⟩
          · intro item hi hk done x more y hdone hy hleft
            obtain ⟨hdone, -⟩ := hdone h
            obtain ⟨hpos, hdeepx⟩ :=
              hdeep.item (hxt.plain.dirs hw) hlist hi hk hdone.logged
            have hunx := hdone.logged.unrouted hun
            have hread : Legible root (dir / item.name).location := by
              rw [location_item hxt.plain hw hlist hi]
              exact hreach.child _
            obtain ⟨_, _, hy', hprogress, -⟩ :=
              removeTree_spec hpos hdeepx hleft hx.plain hne hunx hread
            obtain ⟨rfl, rfl⟩ := Prod.mk.inj (Option.some.inj (hy.symm.trans hy'))
            refine ⟨hprogress, ih hpos hdeepx hleft hunx hread (fun e he => ?_) hy⟩
            -- the listed directory is still there, or it is gone
            obtain ⟨before, hbefore, hkind⟩ := exists_entry_of_item hxt hw hlist hi
            rw [hdone.logged.find?_of_eq_some he] at hbefore
            rw [Option.some.inj hbefore, hkind, hk]
        obtain ⟨owner, ho⟩ := dirAt_iff.1 (list_eq_ok_iff.1 hlist).1
        have hbelow : ∀ item ∈ items, item.kind = .dir →
            (dir / item.name).location.below dir.location := by
          intro item hi _
          rw [location_item hxt.plain hw hlist hi]
          exact below_append_cons ..
        have hfound : v.entries.find? dir.location = some (.dir owner) := by
          rw [PathMap.find?_congr (slot?_of_overDirs hbelow hv), ho]
        refine hvisits.2.append (quiet_singleton.2 (skipped?_tryRemove hfound ?_))
        rintro rfl
        have hl := hloose _ hw (h.find?_of_eq_some ho)
        exact PathMap.slot?_eq_none_iff.1 (hgone _ hl (within_refl _))

/-- **A quiet teardown.** Where directories for links are in order and every directory of a user at
or below the root is loose, both walks pass nothing over. -/
theorem quiet_removeTopology {root : Path} (hs : s.IsTree) (hx : s.TextBelow root.location)
    (hne : root.location ≠ []) (htidy : Tidy s root.location) (hdir : s.isDir root)
    (hloose : ∀ d, d.within root.location → s.entries.find? d = some (.dir .user) →
      Loose s root.location d)
    (h : removeTopology root s = some (events, t)) : Quiet events := by
  obtain ⟨first, u, hu, hprogress, -, hun⟩ := clearLinks_root_spec hs hx.plain hne
  obtain ⟨hquiet, hunlinks⟩ := quiet_clearLinks htidy hx (within_refl _) hu
  rw [removeTopology, hu] at h
  obtain ⟨⟨rest, v⟩, hv, heq⟩ := Option.map_eq_some_iff.1 h
  obtain ⟨rfl, rfl⟩ := Prod.mk.inj heq
  refine hquiet.append (quiet_removeTree (Nat.succ_pos _)
    (deep_budget hprogress.remnant.tree hne) hprogress.remnant hx hne hun hloose (legible_refl _)
    (fun e he => ?_) hv)
  obtain ⟨owner, ho⟩ := dirAt_iff.1 hdir
  rw [hunlinks.find?_of_eq_some he] at ho
  rw [Option.some.inj ho]
  rfl

end DisplayTopology.Teardown
