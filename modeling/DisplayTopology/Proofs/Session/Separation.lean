import DisplayTopology.Proofs.Session.Locality
import DisplayTopology.Proofs.Surface.Driver

/-!
# Topologies side by side

Two topologies with separate roots stand on one device, and a script works on both: every action
is for one of them (`Sides.Assigns`), in any order. The actions of one side are answered as if the
other side had none, and leave the same entries at or below its root; and what lies outside both
roots stays as it was (`Sides.run_separate`).

The proof compares the whole run with the run of one side. The states of the two look the same from
that side (`Sides.Alike`): a step of the side goes the same way in both (`Sides.Alike.step_own`),
and a step of the other side, which only the whole run makes, is not seen
(`Sides.Alike.step_other`).
-/

namespace DisplayTopology

open Location Surface

/-! ## What a session keeps -/

namespace Session

variable {settings : Settings} {session : Session} {d after : Device}

theorem settings_provision {count : Nat} {specs : List ConnectorSpec}
    (h : provision settings count specs d = some (.ok session, after)) :
    session.settings = settings := by
  obtain ⟨plan, -, rfl, -⟩ := exists_plan_of_provision h
  rfl

theorem settings_teardown {report : Option Report} {next : Session}
    (h : session.teardown d = some (report, next, after)) : next.settings = session.settings := by
  rw [teardown] at h
  split at h
  · obtain ⟨-, hnext, -⟩ : _ ∧ session = next ∧ _ := by simpa using h
    rw [hnext]
  · obtain ⟨⟨torn, left⟩, -, heq⟩ := Option.map_eq_some_iff.1 h
    obtain ⟨-, hnext, -⟩ : _ ∧ { session with phase := .tornDown } = next ∧ _ := by simpa using heq
    rw [← hnext]

end Session

/-- What is left of a session after a call has the settings that it was provisioned with. -/
theorem SessionCall.settings_run {session next : Session} {d after : Device} {call : SessionCall}
    {answer : SessionAnswer} (h : call.run session d = some (answer, some next, after)) :
    next.settings = session.settings := by
  cases call with
  | info | toggle | status =>
    obtain ⟨-, hnext, -⟩ : _ ∧ session = next ∧ _ := by simpa [run] using h
    rw [hnext]
  | disableCleanup =>
    obtain ⟨-, hnext, -⟩ : _ ∧ session.disableCleanup = next ∧ _ := by simpa [run] using h
    rw [← hnext, Session.disableCleanup]
  | teardown =>
    obtain ⟨⟨report, left, torn⟩, ht, heq⟩ := Option.map_eq_some_iff.1 h
    obtain ⟨-, rfl, -⟩ : _ ∧ left = next ∧ _ := by simpa using heq
    exact Session.settings_teardown ht
  | drop =>
    obtain ⟨torn, -, heq⟩ := Option.map_eq_some_iff.1 h
    simp at heq

namespace Script

/-! ## The two sides -/

/-- One of two topologies that stand side by side. -/
inductive Side where
  | left
  | right
  deriving DecidableEq

/-- The other of the two. -/
def Side.other : Side → Side
  | left => right
  | right => left

theorem Side.ne_other (side : Side) : side ≠ side.other := by
  cases side <;> simp [other]

theorem Side.other_other (side : Side) : side.other.other = side := by
  cases side <;> rfl

theorem Side.eq_other_of_ne {side acting : Side} (h : acting ≠ side) : acting = side.other := by
  cases side <;> cases acting <;> simp_all [other]

/-- Two topologies with separate roots, and which of them the sessions of a name are for. -/
structure Sides where
  root : Side → Location
  owner : String → Side
  separate : Separate (root .left) (root .right)

namespace Sides

variable {v : Sides} {side : Side} {st next o : State} {action : Action} {answer : Answer}
  {actions : List Action} {failing : List String}

theorem separate_other (v : Sides) (side : Side) : Separate (v.root side) (v.root side.other) := by
  cases side with
  | left => exact v.separate
  | right => exact v.separate.symm

/-- An action is for one side: on its resources, its settings or a session of its own. -/
def Assigns (v : Sides) (side : Side) : Action → Prop
  | .surface _ | .control _ => False
  | .graph root _ => root.location = v.root side
  | .provision name settings _ _ => v.owner name = side ∧ settings.root.location = v.root side
  | .session name _ => v.owner name = side
  | .forceDelete settings => settings.root.location = v.root side

instance (v : Sides) (side : Side) : DecidablePred (v.Assigns side)
  | .surface _ | .control _ => inferInstanceAs (Decidable False)
  | .graph root _ => inferInstanceAs (Decidable (root.location = v.root side))
  | .provision name settings _ _ =>
    inferInstanceAs (Decidable (v.owner name = side ∧ settings.root.location = v.root side))
  | .session name _ => inferInstanceAs (Decidable (v.owner name = side))
  | .forceDelete settings => inferInstanceAs (Decidable (settings.root.location = v.root side))

/-- No action is for both sides. -/
theorem not_assigns_other (h : v.Assigns side action) : ¬ v.Assigns side.other action := by
  have hroot : v.root side ≠ v.root side.other := by
    intro heq
    have hout := (v.separate_other side).left
    rw [← heq, within_refl] at hout
    contradiction
  cases action with
  | surface | control => exact h.elim
  | graph | forceDelete => exact fun ho => hroot (h.symm.trans ho)
  | provision => exact fun ho => hroot (h.2.symm.trans ho.2)
  | session => exact fun ho => side.ne_other (h.symm.trans ho)

/-- The answers that the actions of a side were given. -/
def answersOf (v : Sides) (side : Side) (actions : List Action) (answers : List Answer) :
    List Answer :=
  ((actions.zip answers).filter fun given => v.Assigns side given.1).map Prod.snd

/-! ## States in order -/

/-- Every session has its root where the topology of its side is. -/
def Owned (v : Sides) (st : State) : Prop :=
  ∀ name session, st.session? name = some session →
    session.settings.root.location = v.root (v.owner name)

/-- A state on which both sides can be worked: its surface is in order for both of them, and every
session belongs to its side. -/
structure Stands (v : Sides) (st : State) : Prop where
  tree : st.device.surface.IsTree
  groups : st.device.surface.PlainGroups
  plain : ∀ side, st.device.surface.PlainBelow (v.root side)
  untargeted : ∀ side, Untargeted st.device.surface (v.root side.other) (v.root side)
  owned : v.Owned st

theorem Stands.apart (h : v.Stands st) (side : Side) :
    Apart (v.root side) (v.root side.other) st.device.surface :=
  ⟨h.tree, h.groups, h.plain side, h.untargeted side⟩

/-- Two states that look the same from one side: their devices do, and so do its sessions. -/
structure Alike (v : Sides) (side : Side) (failing : List String) (st o : State) : Prop where
  device : AlikeDevices failing (v.root side) (v.root side.other) st.device o.device
  session : ∀ name, v.owner name = side → st.session? name = o.session? name

theorem Stands.alike (h : v.Stands st) (side : Side) :
    v.Alike side st.device.control.failing st st :=
  ⟨⟨⟨.refl _, h.apart side, h.apart side⟩, rfl, rfl⟩, fun _ _ => rfl⟩

/-- What looks the same from a side looks so for work at its root, however that is given. -/
theorem Alike.at_root {l : Location} (h : v.Alike side failing st o) (hl : l = v.root side) :
    AlikeDevices failing l (v.root side.other) st.device o.device ∧
      Separate l (v.root side.other) :=
  hl ▸ ⟨h.device, v.separate_other side⟩

/-! ## Steps of a side -/

theorem Alike.setSession {d e : Device} (h : v.Alike side failing st o)
    (hdevice : AlikeDevices failing (v.root side) (v.root side.other) d e) (name : String)
    (session : Option Session) :
    v.Alike side failing ({ st with device := d }.setSession name session)
      ({ o with device := e }.setSession name session) := by
  refine ⟨hdevice, fun other ho => ?_⟩
  rw [State.session?_setSession, State.session?_setSession]
  split
  · rfl
  · exact h.session other ho

/-- **Step of a side.** It is answered the same in states that look the same from there, and leaves
states that look the same. -/
theorem Alike.step_own (hst : v.Stands st) (h : v.Alike side failing st o)
    (ha : v.Assigns side action) :
    SameRun (v.Alike side failing) (step st action) (step o action) := by
  cases action with
  | surface | control => exact ha.elim
  | graph root call =>
    have hroot : root.location = v.root side := ha
    obtain ⟨hdevice, hsep⟩ := h.at_root hroot
    obtain ⟨hanswer, hsurface⟩ := hdevice.surface.same hsep
      (GraphCall.same_run hdevice.surface.alikeOff hsep call) (call.changes_run ..)
      (call.changes_run ..)
    exact .some ⟨congrArg Answer.graph hanswer, ⟨hroot ▸ hsurface, h.device.left, h.device.right⟩,
      h.session⟩
  | provision name settings count specs =>
    have hroot : settings.root.location = v.root side := ha.2
    obtain ⟨hdevice, hsep⟩ := h.at_root hroot
    obtain ⟨⟨outcome, d⟩, ⟨outcome', e⟩, hd, he, houtcome, halike⟩ :=
      Session.same_provision hdevice hsep count specs
    obtain rfl : outcome = outcome' := houtcome
    rw [hroot] at halike
    rw [step, step, hd, he]
    cases outcome with
    | ok session => exact .some ⟨rfl, h.setSession halike name session⟩
    | error e => exact .some ⟨rfl, halike, h.session⟩
  | session name call =>
    have howner : v.owner name = side := ha
    rw [step, step, ← h.session name howner]
    cases hs : st.session? name with
    | none => exact .some ⟨rfl, h⟩
    | some session =>
      have hroot : session.settings.root.location = v.root side :=
        howner ▸ hst.owned name session hs
      obtain ⟨hdevice, hsep⟩ := h.at_root hroot
      obtain ⟨⟨reply, left, d⟩, ⟨reply', left', e⟩, hd, he, hreply, hleft, halike⟩ :=
        SessionCall.same_run hdevice hsep call
      obtain rfl : reply = reply' := hreply
      obtain rfl : left = left' := hleft
      simp only [hd, he, Option.map_some]
      exact .some ⟨rfl, h.setSession (hroot ▸ halike) name left⟩
  | forceDelete settings =>
    have hroot : settings.root.location = v.root side := ha
    obtain ⟨hdevice, hsep⟩ := h.at_root hroot
    obtain ⟨⟨report, d⟩, ⟨report', e⟩, hd, he, hreport, halike⟩ :=
      Device.same_teardown hdevice hsep
    obtain rfl : report = report' := hreport
    rw [step, step, hd, he]
    exact .some ⟨rfl, hroot ▸ halike, h.session⟩

theorem Owned.setSession (h : v.Owned st) {d : Device} {key : String} {left : Option Session}
    (hleft : ∀ session, left = some session →
      session.settings.root.location = v.root (v.owner key)) :
    v.Owned ({ st with device := d }.setSession key left) := by
  intro name session hs
  rw [State.session?_setSession] at hs
  split at hs
  · rename_i hname
    exact hname ▸ hleft session hs
  · exact h name session hs

/-- After a step of a side every session still belongs to its side, and those of the other side are
what they were. -/
theorem Owned.step (hst : v.Owned st) (ha : v.Assigns side action)
    (h : Script.step st action = some (answer, next)) :
    v.Owned next ∧ ∀ name, v.owner name ≠ side → next.session? name = st.session? name := by
  have hother {d : Device} {key name : String} {left : Option Session} (hkey : v.owner key = side)
      (hname : v.owner name ≠ side) :
      ({ st with device := d }.setSession key left).session? name = st.session? name := by
    have hne : name ≠ key := by
      rintro rfl
      exact hname hkey
    rw [State.session?_setSession, if_neg hne]
    rfl
  cases action with
  | surface | control => exact ha.elim
  | graph root call =>
    obtain ⟨-, rfl⟩ := Prod.ext_iff.1 (Option.some.inj h)
    exact ⟨hst, fun _ _ => rfl⟩
  | provision key settings count specs =>
    obtain ⟨hkey, hroot⟩ : v.owner key = side ∧ settings.root.location = v.root side := ha
    obtain ⟨⟨outcome, d⟩, hd, heq⟩ := Option.map_eq_some_iff.1 h
    cases outcome with
    | ok made =>
      obtain ⟨-, rfl⟩ := Prod.mk.inj heq
      refine ⟨hst.setSession fun session hs => ?_, fun _ => hother hkey⟩
      rw [← Option.some.inj hs, Session.settings_provision hd, hroot, hkey]
    | error e =>
      obtain ⟨-, rfl⟩ := Prod.ext_iff.1 heq
      exact ⟨hst, fun _ _ => rfl⟩
  | session key call =>
    rw [Script.step] at h
    cases hs : st.session? key with
    | none =>
      rw [hs] at h
      obtain ⟨-, rfl⟩ := Prod.ext_iff.1 (Option.some.inj h)
      exact ⟨hst, fun _ _ => rfl⟩
    | some session =>
      rw [hs] at h
      obtain ⟨⟨reply, left, d⟩, hd, heq⟩ := Option.map_eq_some_iff.1 h
      obtain ⟨-, rfl⟩ := Prod.mk.inj heq
      refine ⟨hst.setSession fun later hl => ?_, fun _ => hother ha⟩
      subst hl
      rw [SessionCall.settings_run hd]
      exact hst key session hs
  | forceDelete settings =>
    obtain ⟨⟨report, d⟩, -, heq⟩ := Option.map_eq_some_iff.1 h
    obtain ⟨-, rfl⟩ := Prod.ext_iff.1 heq
    exact ⟨hst, fun _ _ => rfl⟩

/-- What an action of a side does to the surface, it does for the topology of that side. -/
theorem changes_step (hst : v.Stands st) (ha : v.Assigns side action)
    (h : step st action = some (answer, next)) :
    Changes (v.root side) st.device.surface next.device.surface := by
  cases hroot : st.root? action with
  | some root =>
    have hchanges := Script.changes_step hroot h
    have hloc : root.location = v.root side := by
      cases action with
      | surface | control => exact ha.elim
      | graph | forceDelete => exact Option.some.inj hroot ▸ ha
      | provision => exact Option.some.inj hroot ▸ ha.2
      | session name call =>
        obtain ⟨session, hs, rfl⟩ := Option.map_eq_some_iff.1 hroot
        have howner : v.owner name = side := ha
        exact howner ▸ hst.owned name session hs
    rwa [hloc] at hchanges
  | none =>
    have hcall : ∀ call, action ≠ .surface call := by
      rintro call rfl
      exact ha
    rw [surface_step hroot hcall h]

/-! ## Steps of the other side -/

/-- What an action leaves as it was for the other side. -/
structure Spares (v : Sides) (acting : Side) (st next : State) : Prop where
  changes : Changes (v.root acting) st.device.surface next.device.surface
  failing : next.device.control.failing = st.device.control.failing
  session : ∀ name, v.owner name ≠ acting → next.session? name = st.session? name

/-- **Step.** An action of a side goes through, spares the other side, and leaves a state in
order. -/
theorem Stands.step (hst : v.Stands st) (ha : v.Assigns side action) :
    ∃ answer next, Script.step st action = some (answer, next) ∧ v.Stands next ∧
      v.Spares side st next := by
  -- a state looks like itself, so a step of a side goes through
  obtain ⟨⟨answer, next⟩, _, hstep, -, -, halike⟩ := (hst.alike side).step_own hst ha
  have hchanges := changes_step hst ha hstep
  obtain ⟨howned, hsessions⟩ := hst.owned.step ha hstep
  have hown := (hst.apart side).changes_own (v.separate_other side) hchanges
  have hother := (hst.apart side.other).changes_other (v.separate_other side.other)
    (side.other_other.symm ▸ hchanges)
  refine ⟨answer, next, hstep, ⟨hown.tree, hown.groups, fun any => ?_, fun any => ?_, howned⟩,
    hchanges, halike.device.left, hsessions⟩
  · by_cases h : any = side
    · exact h ▸ hown.plain
    · exact Side.eq_other_of_ne h ▸ hother.plain
  · by_cases h : any = side
    · exact h ▸ hown.untargeted
    · exact Side.eq_other_of_ne h ▸ hother.untargeted

/-- **Step of the other side.** It is not seen from this side. -/
theorem Alike.step_other (h : v.Alike side failing st o) (hnext : v.Spares side.other st next) :
    v.Alike side failing next o := by
  refine ⟨⟨h.device.surface.frame (v.separate_other side) hnext.changes,
    hnext.failing.trans h.device.left, h.device.right⟩, fun name ho => ?_⟩
  rw [hnext.session name (ho ▸ side.ne_other), h.session name ho]

/-! ## Runs -/

/-- **Run.** A run of both sides goes through. The run of one side alone gives its answers and ends
in a state that looks the same from there. -/
theorem Alike.run (hst : v.Stands st) (h : v.Alike side failing st o)
    (hactions : ∀ action ∈ actions, ∃ acting, v.Assigns acting action) :
    ∃ answers last own, Script.run st actions = some (answers, last) ∧
      Script.run o (actions.filter (v.Assigns side ·)) =
        some (v.answersOf side actions answers, own) ∧
      v.Alike side failing last own := by
  induction actions generalizing st o with
  | nil => exact ⟨[], st, o, rfl, rfl, h⟩
  | cons action actions ih =>
    obtain ⟨⟨acting, ha⟩, hrest⟩ := List.forall_mem_cons.1 hactions
    obtain ⟨answer, next, hstep, hnext, hspares⟩ := hst.step ha
    by_cases hside : acting = side
    · subst hside
      obtain ⟨_, ⟨answer', after⟩, hs, ho, hanswer, halike⟩ := h.step_own hst ha
      obtain rfl := Option.some.inj (hstep.symm.trans hs)
      obtain rfl : answer = answer' := hanswer
      obtain ⟨answers, last, own, hrun, hown, hlast⟩ := ih hnext halike hrest
      refine ⟨answer :: answers, last, own, ?_, ?_, hlast⟩
      · rw [Script.run, hstep]
        simp only [hrun, Option.map_some]
      · rw [List.filter_cons_of_pos (by simpa using ha), Script.run, ho]
        simp [hown, answersOf, ha]
    · obtain rfl := Side.eq_other_of_ne hside
      have hnot : ¬ v.Assigns side action := by
        have hnot := not_assigns_other ha
        rwa [side.other_other] at hnot
      obtain ⟨answers, last, own, hrun, hown, hlast⟩ := ih hnext (h.step_other hspares) hrest
      refine ⟨answer :: answers, last, own, ?_, ?_, hlast⟩
      · rw [Script.run, hstep]
        simp only [hrun, Option.map_some]
      · rw [List.filter_cons_of_neg (by simpa using hnot), hown]
        simp [answersOf, hnot]

/-- **Frame of a run.** What lies outside both roots stays as it was. -/
theorem Stands.slot?_run {answers : List Answer} {last : State} {l : Location} (hst : v.Stands st)
    (hactions : ∀ action ∈ actions, ∃ acting, v.Assigns acting action)
    (h : Script.run st actions = some (answers, last))
    (hl : ∀ side, l.within (v.root side) = false) :
    last.device.surface.entries.slot? l = st.device.surface.entries.slot? l := by
  induction actions generalizing st answers with
  | nil =>
    obtain ⟨-, rfl⟩ := Prod.mk.inj (Option.some.inj h)
    rfl
  | cons action actions ih =>
    obtain ⟨⟨acting, ha⟩, hrest⟩ := List.forall_mem_cons.1 hactions
    obtain ⟨answer, next, hstep, hnext, hspares⟩ := hst.step ha
    simp only [Script.run, hstep] at h
    obtain ⟨⟨rest, final⟩, hfinal, heq⟩ := Option.map_eq_some_iff.1 h
    obtain ⟨-, rfl⟩ := Prod.mk.inj heq
    rw [ih hnext hrest hfinal]
    exact (hspares.changes.alikeOff hst.groups).slot l (hl acting)

/-- **Separate topologies do not interfere.** However the actions of two sides are interleaved, the
run goes through; the actions of either side are answered as if they were the only ones, and leave
the same entries at or below its root; and nothing outside both roots changes. -/
theorem run_separate (v : Sides) (st : State) (actions : List Action) (hst : v.Stands st)
    (hactions : ∀ action ∈ actions, ∃ side, v.Assigns side action) :
    ∃ answers last, Script.run st actions = some (answers, last) ∧
      (∀ side, ∃ own,
        Script.run st (actions.filter (v.Assigns side ·)) =
          some (v.answersOf side actions answers, own) ∧
        ∀ l, l.within (v.root side) →
          last.device.surface.entries.slot? l = own.device.surface.entries.slot? l) ∧
      ∀ l, (∀ side, l.within (v.root side) = false) →
        last.device.surface.entries.slot? l = st.device.surface.entries.slot? l := by
  obtain ⟨answers, last, -, hrun, -⟩ := (hst.alike .left).run hst hactions
  refine ⟨answers, last, hrun, fun side => ?_, fun l hl => hst.slot?_run hactions hrun hl⟩
  obtain ⟨_, _, own, hrun', hown, halike⟩ := (hst.alike side).run hst hactions
  obtain ⟨rfl, rfl⟩ := Prod.mk.inj (Option.some.inj (hrun.symm.trans hrun'))
  exact ⟨own, hown, fun l hl =>
    halike.device.surface.alikeOff.slot l ((v.separate_other side).outside hl)⟩

/-- The topologies at `/c/a` and `/c/b`; the sessions named `a` are for the first. -/
def neighbours : Sides where
  root
    | .left => (Path.ofText "/c/a").location
    | .right => (Path.ofText "/c/b").location
  owner name := if name = "a" then .left else .right
  separate := ⟨by decide, by decide⟩

/-- A run that builds two topologies and tears the first one down in between. -/
def mixedRun : List Action :=
  [.provision "a" { Settings.standard with root := .ofText "/c/a" } 1 [],
    .provision "b" { Settings.standard with root := .ofText "/c/b" } 1 [],
    .session "b" (.toggle 0 true),
    .session "a" .teardown,
    .graph (.ofText "/c/b") (.createNode (.crtc 1)),
    .session "b" (.status 0),
    .forceDelete { Settings.standard with root := .ofText "/c/b" }]

theorem run_separate_neighbours :
    neighbours.Stands (.start (.ofDriver (.ofText "/c/a"))) ∧
      (∀ action ∈ mixedRun, ∃ side, neighbours.Assigns side action) ∧
      ∃ answers last own, Script.run (.start (.ofDriver (.ofText "/c/a"))) mixedRun =
          some (answers, last) ∧
        Script.run (.start (.ofDriver (.ofText "/c/a")))
            (mixedRun.filter (neighbours.Assigns .right ·)) =
          some (neighbours.answersOf .right mixedRun answers, own) ∧
        ∀ l, l.within (Path.ofText "/c/b").location →
          last.device.surface.entries.slot? l = own.device.surface.entries.slot? l := by
  have hparent : ((Path.ofText "/c/a").parent?).isSome := by decide +kernel
  obtain ⟨dir, hdir⟩ := Option.isSome_iff_exists.1 hparent
  have hstands : neighbours.Stands (.start (.ofDriver (.ofText "/c/a"))) := by
    refine ⟨isTree_ofDriver hdir, plainGroups_ofDriver _, fun side => ?_,
      fun side l target _ hl => ?_, fun name session hs => ?_⟩
    · cases side <;> decide +kernel
    · have hl : (ofDriver (.ofText "/c/a")).entries.find? l = some (.link target) := hl
      rw [find?_ofDriver hdir] at hl
      split at hl <;> simp at hl
    · simp [State.session?, State.start] at hs
  have hactions : ∀ action ∈ mixedRun, ∃ side, neighbours.Assigns side action := by
    have hside : ∀ action ∈ mixedRun,
        neighbours.Assigns .left action ∨ neighbours.Assigns .right action := by decide +kernel
    exact fun action ha => (hside action ha).elim (fun h => ⟨_, h⟩) fun h => ⟨_, h⟩
  obtain ⟨answers, last, hrun, hsides, -⟩ := run_separate _ _ _ hstands hactions
  obtain ⟨own, hown, hslots⟩ := hsides .right
  exact ⟨hstands, hactions, answers, last, own, hrun, hown, hslots⟩

end Sides

end Script

end DisplayTopology
