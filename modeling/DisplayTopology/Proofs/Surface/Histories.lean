import DisplayTopology.Proofs.Surface.Driver
import DisplayTopology.Script.Surface

/-!
# What surfaces keep through their calls

A surface starts empty or as a driver's, and changes by calls. Whatever the calls are, it stays a
tree whose top is the kernel's (`WellFormed`), as long as default groups are added by plain names
and directories of the kernel are not put through files or links (`Admits`). On such a surface the
default groups that come with a new directory take no location that is taken, and a directory of
the kernel stays until a directory of the user above it is removed (`kernelAt_until_removed`).
-/

namespace DisplayTopology.Surface

open Location

variable {s t : Surface} {call : SurfaceCall} {p : Path} {l m : Location}

/-- A directory of the kernel is there. -/
def KernelAt (s : Surface) (l : Location) : Prop := s.entries.find? l = some (.dir .kernel)

instance (s : Surface) (l : Location) : Decidable (s.KernelAt l) := by
  unfold KernelAt
  infer_instance

/-- A tree that hangs from directories of the kernel, with plain names for default groups. -/
structure WellFormed (s : Surface) : Prop where
  tree : s.IsTree
  groups : s.PlainGroups
  /-- What lies in no directory is a directory of the kernel. -/
  top : ∀ l, s.entries.contains l → l.parent? = none → s.KernelAt l
  root : s.KernelAt [.root]

/-- What a call asks of a surface for it to stay well formed. Only the two calls that set a surface
up ask for anything. -/
def Admits (s : Surface) : SurfaceCall → Prop
  | .addDefaultGroups _ names => ∀ name ∈ names, Path.IsStep name
  | .addKernelDirs p => ∀ dir ∈ p.ancestors, ∀ e ∈ s.entry? dir, e.kind = .dir
  | _ => True

/-- Every call of a run is admitted where it comes. -/
def AdmitsAll (s : Surface) : List SurfaceCall → Prop
  | [] => True
  | call :: calls => s.Admits call ∧ (call.run s).2.AdmitsAll calls

instance (name : String) : Decidable (Path.IsStep name) :=
  decidable_of_iff ((Path.ofText name).location.parent? = some [] ∧
      (Path.ofText name).location.name?.isSome) <| by
    constructor
    · rintro ⟨hp, hn⟩
      obtain ⟨step, hstep⟩ := Option.isSome_iff_exists.1 hn
      obtain ⟨dir, hdir⟩ := eq_append_plain_of_name? hstep
      rw [hdir, parent?_append_plain] at hp
      obtain rfl := Option.some.inj hp
      exact ⟨step, hdir⟩
    · rintro ⟨step, hstep⟩
      rw [hstep]
      exact ⟨rfl, rfl⟩

instance (s : Surface) (call : SurfaceCall) : Decidable (s.Admits call) := by
  unfold Admits
  split <;> infer_instance

instance decidableAdmitsAll (s : Surface) : (calls : List SurfaceCall) → Decidable (s.AdmitsAll calls)
  | [] => isTrue trivial
  | call :: calls =>
    have := decidableAdmitsAll (call.run s).2 calls
    inferInstanceAs (Decidable (s.Admits call ∧ (call.run s).2.AdmitsAll calls))

/-! ## Kernel directories -/

theorem dirAt_addKernelDirs (hl : s.dirAt l) : (s.addKernelDirs p).dirAt l := by
  obtain ⟨owner, ho⟩ := dirAt_iff.1 hl
  refine dirAt_iff.2 ⟨owner, ?_⟩
  rw [find?_addKernelDirs, if_neg (by simp [ho]), ho]

/-- Where nothing but directories is in the way, the way to a path is made of directories. -/
theorem dirAt_addKernelDirs_of_prefix (h : s.Admits (.addKernelDirs p)) (hl : l <+: p.location)
    (habs : p.isAbsolute → l ≠ []) : (s.addKernelDirs p).dirAt l := by
  cases he : s.entries.find? l with
  | none =>
    refine dirAt_iff.2 ⟨.kernel, ?_⟩
    rw [find?_addKernelDirs, if_pos ⟨he, hl, habs⟩]
  | some e =>
    obtain ⟨dir, hdir, rfl⟩ := Path.exists_mem_ancestors_iff.2 ⟨hl, habs⟩
    exact dirAt_addKernelDirs (dirAt_of_kind he (h dir hdir e he))

theorem IsTree.addKernelDirs (hs : s.IsTree) (h : s.Admits (.addKernelDirs p)) :
    (s.addKernelDirs p).IsTree := by
  intro l dir hl hp
  obtain ⟨e, he⟩ := PathMap.contains_iff.1 hl
  rw [find?_addKernelDirs] at he
  split at he
  · rename_i hnew
    obtain ⟨-, hpre, -⟩ := hnew
    obtain ⟨c, hc, rfl⟩ := parent?_eq_some_iff.1 hp
    refine dirAt_addKernelDirs_of_prefix h ((List.prefix_append dir [c]).trans hpre) ?_
    -- the way of an absolute path starts with the root, and `c` is another step
    rintro habs rfl
    obtain ⟨rest, hrest⟩ := hpre
    rw [Path.isAbsolute, beq_iff_eq, ← hrest] at habs
    exact hc (by simpa using habs)
  · exact dirAt_addKernelDirs (hs l dir (contains_of_find? he) hp)

/-! ## One call -/

/-- What a call makes of a surface: the change that it names if that succeeds, more directories of
the kernel, more default groups, or the same entries and groups. -/
inductive Effect (s : Surface) : SurfaceCall → Surface → Prop where
  | createDir {p : Path} {t : Surface} (h : s.createDir p = .ok t) : Effect s (.createDir p) t
  | write {p : Path} {data : Bytes} {t : Surface} (h : s.write p data = .ok t) :
      Effect s (.write p data) t
  | createLink {target p : Path} {t : Surface} (h : s.createLink target p = .ok t) :
      Effect s (.createLink target p) t
  | removeLink {p : Path} {t : Surface} (h : s.removeLink p = .ok t) : Effect s (.removeLink p) t
  | removeDir {p : Path} {t : Surface} (h : s.removeDir p = .ok t) : Effect s (.removeDir p) t
  | addKernelDirs (p : Path) : Effect s (.addKernelDirs p) (s.addKernelDirs p)
  | addDefaultGroups (p : Path) (names : List String) :
      Effect s (.addDefaultGroups p names) (s.addDefaultGroups p names)
  | same {call : SurfaceCall} {t : Surface} (hentries : t.entries = s.entries)
      (hgroups : t.groups = s.groups) : Effect s call t

theorem effect_run (s : Surface) (call : SurfaceCall) : Effect s call (call.run s).2 := by
  have ofChange {r : Except Errno Surface} (h : ∀ t, r = .ok t → Effect s call t) :
      Effect s call (SurfaceCall.ofChange s r).2 := by
    cases r with
    | ok t => exact h t rfl
    | error e => exact .same rfl rfl
  cases call with
  | createDir p => exact ofChange fun _ h => .createDir h
  | write p data => exact ofChange fun _ h => .write h
  | createLink target p => exact ofChange fun _ h => .createLink h
  | removeLink p => exact ofChange fun _ h => .removeLink h
  | removeDir p => exact ofChange fun _ h => .removeDir h
  | addKernelDirs p => exact .addKernelDirs p
  | addDefaultGroups p names => exact .addDefaultGroups p names
  | pin | failOn => exact .same rfl rfl
  | read | list | isDir | contains | contents | target | dirsBelow | tree => exact .same rfl rfl

theorem kernelAt_addKernelDirs (hl : s.KernelAt l) : (s.addKernelDirs p).KernelAt l := by
  unfold KernelAt at hl ⊢
  rw [find?_addKernelDirs, if_neg (by simp [hl]), hl]

/-- What is made at a location without a directory leaves the kernel's directories alone. -/
theorem kernelAt_of_ne (hl : s.KernelAt l) (hfree : s.dirAt p.location = false)
    (h : p.location ≠ l → t.entries.find? l = s.entries.find? l) : t.KernelAt l := by
  refine (h ?_).trans hl
  rintro rfl
  rw [dirAt_of_find? hl] at hfree
  contradiction

/-- **Step.** One call leaves a directory of the kernel in place, unless it removes a directory of
the user above it. -/
theorem Effect.kernelAt (h : Effect s call t) (hl : s.KernelAt l) :
    t.KernelAt l ∨ ∃ p, call = .removeDir p ∧ l.below p.location ∧
      s.entries.find? p.location = some (.dir .user) ∧ t.entries.find? p.location = none := by
  cases h with
  | @createDir p _ h =>
    have hfree := (creationFault?_eq_none_iff.1 (createDir_eq_ok_iff.1 h).1).2.1
    left
    unfold KernelAt
    rw [find?_of_createDir h]
    split
    · rfl
    · split
      · rename_i heq
        rw [heq, contains_of_find? hl] at hfree
        contradiction
      · exact hl
  | @write p _ _ h =>
    have hfree := (writeFault?_eq_none_iff.1 (write_eq_ok_iff.1 h).1).2.1
    exact .inl (kernelAt_of_ne hl hfree fun hne => by rw [find?_of_write h, if_neg hne])
  | @createLink _ p _ h =>
    have hfree := (creationFault?_eq_none_iff.1 (createLink_eq_ok_iff.1 h).1).2.1
    refine .inl (kernelAt_of_ne hl ?_ fun hne => by rw [find?_of_createLink h, if_neg hne])
    rw [dirAt, contains_eq_false_iff.1 hfree]
  | @removeLink p _ h =>
    obtain ⟨target, htarget⟩ := (removeLink_eq_ok_iff.1 h).1
    refine .inl (kernelAt_of_ne hl ?_ fun hne => by rw [find?_of_removeLink h, if_neg hne.symm])
    rw [dirAt, ← entry?, htarget]
  | @removeDir p _ h =>
    have huser : s.entries.find? p.location = some (.dir .user) := (removeDir_eq_ok_iff.1 h).1
    by_cases hw : l.within p.location
    · have hne : l ≠ p.location := by
        rintro rfl
        rw [KernelAt, huser] at hl
        simp at hl
      refine .inr ⟨p, rfl, below_of_within_of_ne hw hne, huser, ?_⟩
      rw [find?_of_removeDir h, if_pos (within_refl _)]
    · left
      unfold KernelAt
      rw [find?_of_removeDir h, if_neg hw]
      exact hl
  | addKernelDirs p => exact .inl (kernelAt_addKernelDirs hl)
  | addDefaultGroups => exact .inl hl
  | same he => exact .inl (by rwa [KernelAt, he])

/-- A call that is admitted keeps a surface a tree. -/
theorem Effect.isTree (h : Effect s call t) (hadmits : s.Admits call) (hs : s.IsTree)
    (hg : s.PlainGroups) : t.IsTree := by
  cases h with
  | createDir h => exact hs.createDir hg h
  | write h => exact hs.write h
  | createLink h => exact hs.createLink h
  | removeLink h => exact hs.removeLink h
  | removeDir h => exact hs.removeDir h
  | addKernelDirs => exact hs.addKernelDirs hadmits
  | addDefaultGroups => exact hs
  | same he =>
    refine hs.of_slots (fun l hl => ?_) fun l dir _ _ _ => by rw [he]
    rwa [he] at hl

/-- Names of default groups stay plain, for they are plain when they are added. -/
theorem Effect.plainGroups (h : Effect s call t) (hadmits : s.Admits call) (hg : s.PlainGroups) :
    t.PlainGroups := by
  cases h with
  | createDir h => exact hg.congr (by rw [(createDir_eq_ok_iff.1 h).2])
  | write h => exact hg.congr (by rw [(write_eq_ok_iff.1 h).2])
  | createLink h => exact hg.congr (by rw [(createLink_eq_ok_iff.1 h).2])
  | removeLink h => exact hg.congr (by rw [(removeLink_eq_ok_iff.1 h).2])
  | removeDir h => exact hg.congr (by rw [(removeDir_eq_ok_iff.1 h).2.2])
  | addKernelDirs => exact hg.congr rfl
  | addDefaultGroups => exact hg.addDefaultGroups hadmits
  | same _ hgroups => exact hg.congr hgroups

/-- What comes to the top is a directory of the kernel. -/
theorem Effect.kernelAt_of_contains (h : Effect s call t) (hg : s.PlainGroups)
    (hp : l.parent? = none) (hl : t.entries.contains l) : s.entries.contains l ∨ t.KernelAt l := by
  -- what is made or written lies in a directory
  have hne {p : Path} (h : ∃ dir, p.location.parent? = some dir ∧ s.dirAt dir) :
      p.location ≠ l := by
    rintro rfl
    obtain ⟨dir, hdir, -⟩ := h
    rw [hp] at hdir
    simp at hdir
  obtain ⟨e, he⟩ := PathMap.contains_iff.1 hl
  cases h with
  | createDir h =>
    obtain ⟨-, -, hdir⟩ := creationFault?_eq_none_iff.1 (createDir_eq_ok_iff.1 h).1
    rcases eq_of_find?_createDir hg h he with ⟨-, rfl⟩ | ⟨heq, -⟩ | hold
    · exact .inr he
    · exact absurd heq.symm (hne hdir)
    · exact .inl (contains_of_find? hold)
  | write h =>
    obtain ⟨-, -, hdir⟩ := writeFault?_eq_none_iff.1 (write_eq_ok_iff.1 h).1
    rw [find?_of_write h, if_neg (hne hdir)] at he
    exact .inl (contains_of_find? he)
  | createLink h =>
    obtain ⟨-, -, hdir⟩ := creationFault?_eq_none_iff.1 (createLink_eq_ok_iff.1 h).1
    rw [find?_of_createLink h, if_neg (hne hdir)] at he
    exact .inl (contains_of_find? he)
  | removeLink h =>
    rw [find?_of_removeLink h] at he
    split at he
    · simp at he
    · exact .inl (contains_of_find? he)
  | removeDir h =>
    rw [find?_of_removeDir h] at he
    split at he
    · simp at he
    · exact .inl (contains_of_find? he)
  | addKernelDirs p =>
    rw [find?_addKernelDirs] at he
    split at he
    · rename_i hnew
      exact .inr (by rw [KernelAt, find?_addKernelDirs, if_pos hnew])
    · exact .inl (contains_of_find? he)
  | addDefaultGroups => exact .inl hl
  | same hentries => exact .inl (by rwa [← hentries])

namespace WellFormed

/-- Below a file or a link nothing lies. -/
theorem find?_eq_none_of_below (hs : s.WellFormed) {e : Entry} (he : s.entries.find? m = some e)
    (hk : e.kind ≠ .dir) (h : l.below m) : s.entries.find? l = none := by
  have hm : s.dirAt m = false := by
    rw [dirAt, he]
    cases e <;> simp_all [Entry.kind]
  refine hs.tree.find?_eq_none hm ?_ h
  rintro rfl
  rw [dirAt_of_find? (hs.top [] (contains_of_find? he) rfl)] at hm
  contradiction

/-- At the top nothing is removed, for a directory of the user lies in another and has only what
lies in directories below it. -/
theorem kernelAt_of_effect (hs : s.WellFormed) (h : Effect s call t) (hl : s.KernelAt l)
    (hp : l.parent? = none) : t.KernelAt l := by
  rcases h.kernelAt hl with hstays | ⟨p, -, hb, huser, -⟩
  · exact hstays
  · have hne : p.location ≠ [] := by
      intro hnil
      have htop := hs.top p.location (contains_of_find? huser) (by rw [hnil]; rfl)
      rw [KernelAt, huser] at htop
      simp at htop
    obtain ⟨dir, hdir⟩ := exists_parent?_of_below (contains_of_find? hl) hb hne
    rw [hp] at hdir
    simp at hdir

/-- **Step.** A call that is admitted keeps a surface well formed. -/
theorem of_effect (hs : s.WellFormed) (hadmits : s.Admits call) (h : Effect s call t) :
    t.WellFormed where
  tree := h.isTree hadmits hs.tree hs.groups
  groups := h.plainGroups hadmits hs.groups
  top l hl hp := by
    rcases h.kernelAt_of_contains hs.groups hp hl with hold | hnew
    · exact hs.kernelAt_of_effect h (hs.top l hold hp) hp
    · exact hnew
  root := hs.kernelAt_of_effect h hs.root rfl

/-- **Run.** Calls that are admitted keep a surface well formed. -/
theorem runAll (hs : s.WellFormed) {calls : List SurfaceCall} (h : s.AdmitsAll calls) :
    (SurfaceCall.runAll s calls).WellFormed := by
  induction calls generalizing s with
  | nil => exact hs
  | cons call calls ih => exact ih (hs.of_effect h.1 (effect_run s call)) h.2

end WellFormed

/-! ## First states -/

theorem wellFormed_empty : empty.WellFormed := by
  have hfind (l : Location) :
      empty.entries.find? l = if [.root] = l then some (.dir .kernel) else none := by
    show (PathMap.insert _ _ _).find? l = _
    rw [PathMap.find?_insert, PathMap.find?_empty]
    rfl
  have hroot {l : Location} (hl : empty.entries.contains l) : [.root] = l := by
    obtain ⟨e, he⟩ := PathMap.contains_iff.1 hl
    rw [hfind] at he
    split at he
    · assumption
    · simp at he
  refine ⟨fun l dir hl hp => ?_, fun e he => ?_, fun l hl _ => ?_, by rw [KernelAt, hfind, if_pos rfl]⟩
  · rw [← hroot hl] at hp
    simp [parent?] at hp
  · have hfind := PathMap.find?_of_mem he
    rw [show empty.groups = .empty from rfl, PathMap.find?_empty] at hfind
    simp at hfind
  · rw [KernelAt, hfind, if_pos (hroot hl)]

theorem wellFormed_ofDriver (root : Path) : (ofDriver root).WellFormed := by
  cases h : root.parent? with
  | none =>
    have hentries : (ofDriver root).entries = empty.entries := by
      rw [ofDriver, h]
      rfl
    refine ⟨?_, plainGroups_ofDriver root, ?_, ?_⟩
    · refine wellFormed_empty.tree.of_slots (fun l hl => ?_) fun l dir _ _ _ => by rw [hentries]
      rwa [hentries] at hl
    · intro l hl hp
      rw [KernelAt, hentries]
      exact wellFormed_empty.top l (by rwa [← hentries]) hp
    · rw [KernelAt, hentries]
      exact wellFormed_empty.root
  | some dir =>
    refine ⟨isTree_ofDriver h, plainGroups_ofDriver root, fun l hl _ => ?_, ?_⟩
    · obtain ⟨e, he⟩ := PathMap.contains_iff.1 hl
      rw [find?_ofDriver h] at he
      split at he
      · rename_i hdir
        rw [KernelAt, find?_ofDriver h, if_pos hdir]
      · simp at he
    · rw [KernelAt, find?_ofDriver h, if_pos (.inl rfl)]

/-! ## Runs -/

/-- **Run.** A directory of the kernel is there all along, or until a directory of the user above
it is removed. -/
theorem kernelAt_until_removed (hl : s.KernelAt l) (calls : List SurfaceCall) :
    (∀ begun, begun <+: calls → (SurfaceCall.runAll s begun).KernelAt l) ∨
      ∃ front p back, calls = front ++ .removeDir p :: back ∧
        (∀ begun, begun <+: front → (SurfaceCall.runAll s begun).KernelAt l) ∧
        l.below p.location ∧
        (SurfaceCall.runAll s front).entries.find? p.location = some (.dir .user) ∧
        (SurfaceCall.runAll s (front ++ [.removeDir p])).entries.find? p.location = none := by
  induction calls generalizing s with
  | nil =>
    refine .inl fun begun hb => ?_
    rw [List.prefix_nil.1 hb]
    exact hl
  | cons call calls ih =>
    have here {rest : List SurfaceCall}
        (h : ∀ begun, begun <+: rest → (SurfaceCall.runAll (call.run s).2 begun).KernelAt l) :
        ∀ begun, begun <+: call :: rest → (SurfaceCall.runAll s begun).KernelAt l := by
      intro begun hb
      rcases List.prefix_cons_iff.1 hb with rfl | ⟨later, rfl, hlater⟩
      · exact hl
      · exact h later hlater
    rcases (effect_run s call).kernelAt hl with hstays | ⟨p, rfl, hb, huser, hgone⟩
    · rcases ih hstays with hall | ⟨front, p, back, rfl, hfront, hb, huser, hgone⟩
      · exact .inl (here hall)
      · exact .inr ⟨call :: front, p, back, rfl, here hfront, hb, huser, hgone⟩
    · refine .inr ⟨[], p, calls, rfl, fun begun hb => ?_, hb, huser, hgone⟩
      rw [List.prefix_nil.1 hb]
      exact hl

/-- **Surfaces are trees.** Whatever is called on an empty surface or on a driver's, what is there
lies in directories, so that nothing lies below files and links; the root directory is the kernel's;
default groups that come with a new directory take no location that is taken; and a directory of
the kernel stays until a directory of the user above it is removed. -/
theorem tree_after_calls {start : Surface} (hstart : start = .empty ∨ ∃ root, start = .ofDriver root)
    {calls : List SurfaceCall} (hcalls : start.AdmitsAll calls)
    (hs : SurfaceCall.runAll start calls = s) :
    (∀ l dir, s.entries.contains l → l.parent? = some dir → s.dirAt dir) ∧
      (∀ l m e, s.entries.find? m = some e → e.kind ≠ .dir → l.below m →
        s.entries.find? l = none) ∧
      s.entries.find? (Path.ofText "/").location = some (.dir .kernel) ∧
      (∀ p t, s.createDir p = .ok t → ∀ name ∈ s.groupsFor p.location,
        s.entries.find? (p / name).location = none) ∧
      ∀ l, s.KernelAt l → ∀ more,
        (∀ begun, begun <+: more → (SurfaceCall.runAll s begun).KernelAt l) ∨
          ∃ front p back, more = front ++ .removeDir p :: back ∧
            (∀ begun, begun <+: front → (SurfaceCall.runAll s begun).KernelAt l) ∧
            l.below p.location ∧
            (SurfaceCall.runAll s front).entries.find? p.location = some (.dir .user) ∧
            (SurfaceCall.runAll s (front ++ [.removeDir p])).entries.find? p.location = none := by
  have hwf : s.WellFormed := by
    rw [← hs]
    rcases hstart with rfl | ⟨root, rfl⟩
    · exact wellFormed_empty.runAll hcalls
    · exact (wellFormed_ofDriver root).runAll hcalls
  exact ⟨hwf.tree, fun l m e he hk hb => hwf.find?_eq_none_of_below he hk hb, hwf.root,
    fun p t h name hn => hwf.tree.find?_group_of_createDir hwf.groups h hn,
    fun l hl more => kernelAt_until_removed hl more⟩

/-- Calls that set groups and directories up, build with paths spelled in several ways, and put a
file in place of a link. -/
def mixedCalls : List SurfaceCall :=
  [.addDefaultGroups (.ofText "/c/v/planes") ["formats"], .createDir (.ofText "/c//v/"),
    .createDir (.ofText "/c/v/planes/./P"), .createDir (.ofText "/c/v/planes/../planes"),
    .addKernelDirs (.ofText "a/./b"), .createLink (.ofText "anywhere") (.ofText "a/b/to"),
    .write (.ofText "a/b/to") [1], .pin (.ofText "/c/v"), .removeDir (.ofText "/c/v/planes/P")]

theorem tree_after_mixedCalls : (ofDriver (.ofText "/c/v")).AdmitsAll mixedCalls ∧
    ∃ s, SurfaceCall.runAll (.ofDriver (.ofText "/c/v")) mixedCalls = s ∧
      s.KernelAt (Path.ofText "/c/v/planes").location ∧
      s.entries.find? (Path.ofText "a/b/to").location = some (.file [1]) ∧
      s.entries.find? (Path.ofText "a/b/to/below").location = none := by
  have hcalls : (ofDriver (.ofText "/c/v")).AdmitsAll mixedCalls := by decide +kernel
  have hfile : (SurfaceCall.runAll (.ofDriver (.ofText "/c/v")) mixedCalls).entries.find?
      (Path.ofText "a/b/to").location = some (.file [1]) := by decide +kernel
  obtain ⟨-, hbelow, -⟩ := tree_after_calls (.inr ⟨_, rfl⟩) hcalls rfl
  exact ⟨hcalls, _, rfl, by decide +kernel, hfile,
    hbelow _ _ _ hfile (by simp [Entry.kind]) (by decide)⟩

end DisplayTopology.Surface
