import DisplayTopology.Proofs.Session.Changes
import DisplayTopology.Proofs.Surface.Driver

/-!
# Links lead to directories

A surface is *grounded* when every link on it leads to a directory that is there. Making directories
and writing files keeps it so, because neither puts anything in place of a directory; a link is laid
to a directory or, by hand, to whatever is named; and a directory that some link leads to, or leads
below, is busy and stays. So from an empty surface or a driver's, every run of calls, operations,
provisionings and teardowns reaches grounded surfaces only, if links laid by hand lead to
directories at that moment (`links_lead_to_directories`). Nothing is asked of the names of default
groups: groups are directories wherever they come to lie.
-/

namespace DisplayTopology

open Location

namespace Surface

variable {s t : Surface} {p target : Path} {l : Location}

/-- Every link leads to a directory. -/
def Grounded (s : Surface) : Prop :=
  ∀ l target, s.entries.find? l = some (.link target) → s.dirAt target.location

/-! ## Calls keep links grounded -/

/-- Where a directory was removed no link led, nor below it: any link, also one that went with the
directory, would have kept it. -/
theorem within_eq_false_of_removeDir (h : s.removeDir p = .ok t)
    (hl : s.entries.find? l = some (.link target)) :
    target.location.within p.location = false := by
  obtain ⟨-, hfault, -⟩ := removeDir_eq_ok_iff.1 h
  rw [removalFault?, Option.orElse_eq_orElse, Option.orElse_eq_or, Option.or_eq_none_iff] at hfault
  exact (busyFault?_eq_none_iff.1 hfault.1).2 l target hl

namespace Grounded

theorem createDir (hs : s.Grounded) (h : s.createDir p = .ok t) : t.Grounded := by
  intro l target hl
  rw [find?_of_createDir h] at hl
  split at hl
  · simp at hl
  · split at hl
    · simp at hl
    · exact dirAt_createDir h (hs l target hl)

/-- What is put where no directory is leaves links grounded, if it leads to a directory itself. -/
theorem insert (hs : s.Grounded) {e : Entry} (hfree : s.dirAt p.location = false)
    (he : ∀ target, e = .link target → s.dirAt target.location) :
    Grounded { s with entries := s.entries.insert p e, mutations := s.mutations + 1 } := by
  intro l target hl
  have hl : (s.entries.insert p e).find? l = some (.link target) := hl
  refine dirAt_insert hfree ?_
  rw [PathMap.find?_insert] at hl
  split at hl
  · exact he target (Option.some.inj hl)
  · exact hs l target hl

theorem write (hs : s.Grounded) {data : Bytes} (h : s.write p data = .ok t) : t.Grounded := by
  obtain ⟨hfault, rfl⟩ := write_eq_ok_iff.1 h
  obtain ⟨-, hfree, -⟩ := writeFault?_eq_none_iff.1 hfault
  exact hs.insert hfree (by simp)

theorem createLink (hs : s.Grounded) (hdir : s.isDir target) (h : s.createLink target p = .ok t) :
    t.Grounded := by
  obtain ⟨hfault, rfl⟩ := createLink_eq_ok_iff.1 h
  obtain ⟨-, hfree, -⟩ := creationFault?_eq_none_iff.1 hfault
  refine hs.insert ?_ fun other he => ?_
  · rw [dirAt, contains_eq_false_iff.1 hfree]
  · obtain rfl := Entry.link.inj he
    exact hdir

theorem removeLink (hs : s.Grounded) (h : s.removeLink p = .ok t) : t.Grounded := by
  obtain ⟨⟨other, hp⟩, -⟩ := removeLink_eq_ok_iff.1 h
  intro l target hl
  rw [find?_of_removeLink h] at hl
  split at hl
  · simp at hl
  · have hdir := hs l target hl
    have hne : target.location ≠ p.location := by
      intro heq
      obtain ⟨owner, ho⟩ := dirAt_iff.1 hdir
      rw [Surface.entry?, ← heq, ho] at hp
      simp at hp
    rw [dirAt_congr ((find?_of_removeLink h _).trans (if_neg hne))]
    exact hdir

/-- A directory that a link leads to or below is not removed. -/
theorem removeDir (hs : s.Grounded) (h : s.removeDir p = .ok t) : t.Grounded := by
  intro l target hl
  rw [find?_of_removeDir h] at hl
  split at hl
  · simp at hl
  · have htarget := find?_of_removeDir h target.location
    rw [within_eq_false_of_removeDir h hl, if_neg Bool.false_ne_true] at htarget
    rw [dirAt_congr htarget]
    exact hs l target hl

theorem addKernelDirs (hs : s.Grounded) (p : Path) : (s.addKernelDirs p).Grounded := by
  intro l target hl
  rw [find?_addKernelDirs] at hl
  split at hl
  · simp at hl
  · obtain ⟨owner, ho⟩ := dirAt_iff.1 (hs l target hl)
    refine dirAt_iff.2 ⟨owner, ?_⟩
    rw [find?_addKernelDirs, if_neg (by simp [ho]), ho]

/-- Whatever is done for a topology keeps links grounded. -/
theorem change {root : Location} (hs : s.Grounded) (h : Change root s t) : t.Grounded := by
  cases h with
  | createDir _ _ h => exact hs.createDir h
  | write _ _ h => exact hs.write h
  | createLink _ _ _ hdir h => exact hs.createLink hdir h
  | removeLink _ h => exact hs.removeLink h
  | removeDir _ h => exact hs.removeDir h

theorem changes {root : Location} (hs : s.Grounded) (h : Changes root s t) : t.Grounded :=
  h.inv (fun _ _ hs h => hs.change h) hs

/-! ## What links hold -/

/-- Where a link leads, neither the directory nor one above it can be removed. -/
theorem exists_removeDir_eq_error (hl : s.entries.find? l = some (.link target))
    (hw : target.location.within p.location) : ∃ e, s.removeDir p = .error e := by
  cases hr : s.removeDir p with
  | error e => exact ⟨e, rfl⟩
  | ok t =>
    rw [within_eq_false_of_removeDir hr hl] at hw
    contradiction

end Grounded

theorem grounded_empty : empty.Grounded := by
  intro l target hl
  have hl : (PathMap.empty.insert (.ofText "/") (Entry.dir .kernel)).find? l = _ := hl
  rw [PathMap.find?_insert, PathMap.find?_empty] at hl
  split at hl <;> simp at hl

theorem grounded_ofDriver (root : Path) : (ofDriver root).Grounded := by
  cases h : root.parent? with
  | none =>
    rw [ofDriver, h]
    exact grounded_empty
  | some dir =>
    rw [ofDriver, h]
    exact grounded_empty.addKernelDirs dir

/-- A call of a surface keeps links grounded, if a link that it lays leads to a directory. -/
theorem Grounded.run (hs : s.Grounded) {call : SurfaceCall}
    (hlink : ∀ target p, call = .createLink target p → s.isDir target) :
    (call.run s).2.Grounded := by
  have ofChange {r : Except Errno Surface} (h : ∀ t, r = .ok t → t.Grounded) :
      (SurfaceCall.ofChange s r).2.Grounded := by
    cases r with
    | ok t => exact h t rfl
    | error e => exact hs
  cases call with
  | createDir p => exact ofChange fun _ h => hs.createDir h
  | write p data => exact ofChange fun _ h => hs.write h
  | createLink target p => exact ofChange fun _ h => hs.createLink (hlink target p rfl) h
  | removeLink p => exact ofChange fun _ h => hs.removeLink h
  | removeDir p => exact ofChange fun _ h => hs.removeDir h
  | addKernelDirs p => exact hs.addKernelDirs p
  | addDefaultGroups | pin | failOn => exact hs
  | read | list | isDir | contains | contents | target | dirsBelow | tree => exact hs

end Surface

/-! ## Runs -/

namespace Script

open Surface

variable {st next : State} {action : Action} {actions : List Action} {answer : Answer}
  {answers : List Answer}

/-- Every link that an action lays by hand leads to a directory. -/
def State.Admits (st : State) (action : Action) : Prop :=
  ∀ target p, action = .surface (.createLink target p) → st.device.surface.isDir target

/-- The states that runs reach from an empty surface or a driver's. -/
inductive Reached : State → Prop where
  | new : Reached (.start .empty)
  | driver (root : Path) : Reached (.start (.ofDriver root))
  | step {st next : State} {action : Action} {answer : Answer} (h : Reached st)
      (hadmits : st.Admits action) (hstep : Script.step st action = some (answer, next)) :
      Reached next

/-- **Step.** Every action keeps links grounded. -/
theorem grounded_step (hs : st.device.surface.Grounded) (hadmits : st.Admits action)
    (h : step st action = some (answer, next)) : next.device.surface.Grounded := by
  cases hroot : st.root? action with
  | some root => exact hs.changes (changes_step hroot h)
  | none =>
    by_cases hcall : ∃ call, action = .surface call
    · obtain ⟨call, rfl⟩ := hcall
      obtain ⟨-, rfl⟩ := Prod.ext_iff.1 (Option.some.inj h)
      exact hs.run fun target p hc => hadmits target p (congrArg Action.surface hc)
    · rw [surface_step hroot (fun call hc => hcall ⟨call, hc⟩) h]
      exact hs

/-- **Run.** In every state that is reached, links are grounded. -/
theorem Reached.grounded (h : Reached st) : st.device.surface.Grounded := by
  induction h with
  | new => exact grounded_empty
  | driver root => exact grounded_ofDriver root
  | step _ hadmits hstep ih => exact grounded_step ih hadmits hstep

/-- A run that lays no link by hand reaches the state it ends in. -/
theorem Reached.run (h : Reached st)
    (hlinks : ∀ target p, .surface (.createLink target p) ∉ actions)
    (hrun : run st actions = some (answers, next)) : Reached next := by
  induction actions generalizing st answers with
  | nil =>
    obtain ⟨-, rfl⟩ := Prod.mk.inj (Option.some.inj hrun)
    exact h
  | cons action actions ih =>
    rw [Script.run] at hrun
    split at hrun
    · simp at hrun
    · rename_i answer mid hstep
      obtain ⟨⟨rest, last⟩, hrest, heq⟩ := Option.map_eq_some_iff.1 hrun
      obtain ⟨-, rfl⟩ := Prod.mk.inj heq
      have hadmits : st.Admits action := by
        rintro target p rfl
        exact absurd List.mem_cons_self (hlinks target p)
      exact ih (h.step hadmits hstep)
        (fun target p hmem => hlinks target p (List.mem_cons_of_mem _ hmem)) hrest

/-- A link between resources that was laid leads to the directory of its target. -/
theorem entry?_linkPath_of_link {root : Path} {src dst : NodeId} {s t : Surface}
    (h : Graph.link root src dst s = (.ok (), t)) :
    t.entry? (Graph.linkPath root src dst) = some (.link (Graph.nodePath root dst)) := by
  have houtcome := Graph.link_outcome root src dst s
  rw [h] at houtcome
  cases houtcome with
  | laid _ _ hlink => rw [Surface.entry?, find?_of_createLink hlink, if_pos rfl]

/-- **Links never dangle.** In every state that is reached, every link leads to a directory; while
it is there, neither that directory nor one above it can be removed; and a link between resources,
once laid, leads to the directory of its target. -/
theorem links_lead_to_directories (h : Reached st) :
    (∀ l target, st.device.surface.entries.find? l = some (.link target) →
        st.device.surface.isDir target ∧
          ∀ p : Path, target.location.within p.location →
            ∃ e, st.device.surface.removeDir p = .error e) ∧
      ∀ root src dst t, Graph.link root src dst st.device.surface = (.ok (), t) →
        t.entry? (Graph.linkPath root src dst) = some (.link (Graph.nodePath root dst)) :=
  ⟨fun l target hl => ⟨h.grounded l target hl, fun _ hw =>
    Grounded.exists_removeDir_eq_error hl hw⟩, fun _ _ _ _ => entry?_linkPath_of_link⟩

/-- A run that builds a topology and plugs its display in. -/
def buildingRun : List Action :=
  [.provision "left" { Settings.standard with root := .ofText "/c/v" } 1 [],
    .session "left" (.toggle 0 true)]

theorem links_lead_to_directories_provisioned :
    ∃ answers st, run (.start (.ofDriver (.ofText "/c/v"))) buildingRun = some (answers, st) ∧
      Reached st ∧
      st.device.surface.target? (.ofText "/c/v/encoders/ENCODER_0/possible_crtcs/CRTC_0") =
        some (.ofText "/c/v/crtcs/CRTC_0") ∧
      st.device.surface.isDir (.ofText "/c/v/crtcs/CRTC_0") ∧
      ∃ e, st.device.surface.removeDir (.ofText "/c/v") = .error e := by
  obtain ⟨⟨answers, st⟩, hrun⟩ : ∃ last,
      run (.start (.ofDriver (.ofText "/c/v"))) buildingRun = some last :=
    Option.isSome_iff_exists.1 (by decide +kernel)
  have hlink : st.device.surface.target? (.ofText "/c/v/encoders/ENCODER_0/possible_crtcs/CRTC_0") =
      some (.ofText "/c/v/crtcs/CRTC_0") := by
    have h : ∀ last ∈ run (.start (.ofDriver (.ofText "/c/v"))) buildingRun,
        last.2.device.surface.target? (.ofText "/c/v/encoders/ENCODER_0/possible_crtcs/CRTC_0") =
          some (.ofText "/c/v/crtcs/CRTC_0") := by decide +kernel
    exact h _ hrun
  have hreached : Reached st := (Reached.driver _).run (by simp [buildingRun]) hrun
  have hentry : st.device.surface.entries.find?
      (Path.ofText "/c/v/encoders/ENCODER_0/possible_crtcs/CRTC_0").location =
        some (.link (.ofText "/c/v/crtcs/CRTC_0")) := by
    rw [Surface.target?, Surface.entry?] at hlink
    split at hlink
    · rename_i target he
      rw [he, Option.some.inj hlink]
    · simp at hlink
  obtain ⟨hdir, hholds⟩ := (links_lead_to_directories hreached).1 _ _ hentry
  exact ⟨answers, st, hrun, hreached, hlink, hdir, hholds (.ofText "/c/v") (by decide)⟩

end Script

end DisplayTopology
