import DisplayTopology.Proofs.Session.Steps
import DisplayTopology.Proofs.Surface.Driver
import DisplayTopology.Proofs.Teardown.Undoing

/-!
# A failed provisioning is rolled back

On a surface that is vacant at the root, provisioning always ends, and when it fails it gives back
the entries it found (`provision_rolledBack`), whichever step failed, for whatever reason. The
rollback tells the two kinds of failures apart: a description that cannot be planned is turned down
with nothing touched, and any other failure comes with a report that says whether the root had been
made.
-/

namespace DisplayTopology

open Surface

variable {settings : Settings} {d : Device}

/-- What a failed provisioning of the device `d` leaves. -/
structure RolledBack (settings : Settings) (d : Device) (failure : ProvisionError)
    (after : Device) : Prop where
  /-- The entries are the ones from before. -/
  entries : after.surface.entries.entries = d.surface.entries.entries
  /-- There was nothing to roll back exactly when the description was at fault. -/
  rollback_eq_none_iff : failure.rollback = none ↔ failure.error.isConfiguration
  /-- Then nothing at all has changed: no entry, no count of changes, no property. -/
  untouched : failure.rollback = none → after = d
  /-- A report says that the root was removed exactly when the steps up to its making succeeded. -/
  removedRoot_iff : ∀ report, failure.rollback = some report →
    (report.removedRoot settings.root ↔
      (ProvisionStep.runAll settings.root (ProvisionStep.opening settings) d).1 = .ok ())

/-- A plan whose steps fail on a vacant surface is rolled back. -/
theorem provisionPlan_rolledBack {plan : Plan} (hplan : plan.Sound)
    (hv : d.surface.Vacant settings.root.location) :
    ∃ answer after, Session.provisionPlan settings plan d = some (answer, after) ∧
      ∀ failure, answer = .error failure → RolledBack settings d failure after := by
  have hnot {e : TopologyError} {stopped : Device}
      (hr : ProvisionStep.runAll settings.root (ProvisionStep.ofPlan settings plan) d =
        (.error e, stopped)) : e.isConfiguration = false :=
    ProvisionStep.not_isConfiguration_of_runAll
      (fun op hop => ProvisionStep.unroutable_of_mem_ofPlan hplan hop) (congrArg Prod.fst hr)
  unfold Session.provisionPlan
  rcases ProvisionStep.runAll_ofPlan plan hv with ⟨e, stopped, hopen, hr, hs⟩ | ⟨hopen, hraised⟩
  · -- the root was not made, and the teardown has nothing to do
    have hdir : stopped.surface.isDir settings.root = false := by
      rw [hs, isDir, dirAt, hv.free]
    obtain ⟨report, after, ht, hafter, hroot⟩ := teardown_of_not_isDir hdir
    simp only [hr, ht, Option.map_some]
    refine ⟨_, _, rfl, fun failure hf => ?_⟩
    obtain rfl := Except.error.inj hf
    refine ⟨by rw [hafter, hs], by simp [hnot hr], by simp, fun rep hrep => ?_⟩
    obtain rfl : report = rep := Option.some.inj hrep
    simp [hroot, hopen]
  · -- whatever was built over the root goes with it
    rcases hr : ProvisionStep.runAll settings.root (ProvisionStep.ofPlan settings plan) d
      with ⟨e | ⟨⟩, stopped⟩
    · rw [hr] at hraised
      obtain ⟨report, after, ht, hafter, hroot⟩ := Raised.teardown hraised hv
      simp only [ht, Option.map_some]
      refine ⟨_, _, rfl, fun failure hf => ?_⟩
      obtain rfl := Except.error.inj hf
      refine ⟨hafter, by simp [hnot hr], by simp, fun rep hrep => ?_⟩
      obtain rfl : report = rep := Option.some.inj hrep
      exact iff_of_true hroot hopen
    · exact ⟨_, _, rfl, fun _ hf => by simp at hf⟩

/-- **Rollback.** On a vacant surface provisioning always ends, and one that fails leaves the entries
as they were, whatever was marked to fail. -/
theorem provision_rolledBack (settings : Settings) (count : Nat) (specs : List ConnectorSpec)
    (d : Device) (hv : d.surface.Vacant settings.root.location) :
    ∃ answer after, Session.provision settings count specs d = some (answer, after) ∧
      ∀ failure, answer = .error failure → RolledBack settings d failure after := by
  have hbuild := Plan.plans_build count specs
  unfold Session.provision
  cases hr : Plan.build count specs with
  | error e =>
    refine ⟨_, _, rfl, fun failure hf => ?_⟩
    obtain rfl := Except.error.inj hf
    exact ⟨rfl, by simp [hbuild.error e hr], fun _ => rfl, by simp⟩
  | ok plan => exact provisionPlan_rolledBack ((hbuild.ok plan hr).sound Plan.sound_empty) hv

/-- The driver's surface at `/c/v`, on which the connector of a display cannot be linked. -/
def stubbornDevice : Device where
  surface := (Surface.ofDriver (.ofText "/c/v")).failOn
    (.ofText "/c/v/connectors/CONNECTOR_0/possible_encoders/ENCODER_0") .enospc
  control := .empty

theorem provision_rolledBack_stubbornDevice :
    stubbornDevice.surface.Vacant (Path.ofText "/c/v").location ∧
      ∃ failure after,
        Session.provision { Settings.standard with root := .ofText "/c/v" } 1 [] stubbornDevice =
          some (.error failure, after) ∧
        RolledBack { Settings.standard with root := .ofText "/c/v" } stubbornDevice failure
          after := by
  have hparent : ((Path.ofText "/c/v").parent?).isSome := by decide +kernel
  obtain ⟨dir, hdir⟩ := Option.isSome_iff_exists.1 hparent
  have hv : stubbornDevice.surface.Vacant (Path.ofText "/c/v").location :=
    (vacant_ofDriver hdir).failOn _ _
  obtain ⟨answer, after, hp, hback⟩ := provision_rolledBack
    { Settings.standard with root := .ofText "/c/v" } 1 [] stubbornDevice hv
  cases answer with
  | error failure => exact ⟨hv, failure, after, hp, hback failure rfl⟩
  | ok session =>
    have hfails : ((Session.provision { Settings.standard with root := .ofText "/c/v" } 1 []
        stubbornDevice).any fun r => r.1.isOk) = false := by decide +kernel
    rw [hp] at hfails
    simp [Except.isOk, Except.toBool] at hfails

end DisplayTopology
