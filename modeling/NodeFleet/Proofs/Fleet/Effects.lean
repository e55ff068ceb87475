import NodeFleet.Proofs.Fleet.Calls
import NodeFleet.Proofs.Routine.Effects

/-!
# What leaves the machines alone

Beginning a call changes no machine and no tag of the cloud, and neither does serving one that
lists zones, networks, templates or tags, or logging a launch state. So the turns in which a launch
is planned leave the machines and tags as they are, and a history of such turns does so as well.
-/

namespace NodeFleet

open Program (CallsOnly)
open Fleet (resolving)

/-- Two states of a cloud with the same machines and tags. -/
def Cloud.Inventory.SameMachines (inv other : Cloud.Inventory) : Prop :=
  other.machines = inv.machines ∧ other.tags = inv.tags

namespace WorldState

theorem beginCall_sameMachines (w : WorldState) (call : Cloud.Call) :
    w.cloud.SameMachines (w.beginCall call).2.cloud := by
  cases call with
  | queryJob jobId =>
      rw [beginCall]
      split
      · exact ⟨rfl, rfl⟩
      · exact ⟨rfl, rfl⟩
  | _ => exact ⟨rfl, rfl⟩

theorem serve_sameMachines (inv : Cloud.Inventory) (today : Instant) {call : Cloud.Call}
    (h : call.operation ∈ resolving) : inv.SameMachines (inv.serve today call).2 := by
  rw [Cloud.Inventory.serve]
  split
  · exact ⟨rfl, rfl⟩
  · cases call with
    | listZones q => exact ⟨rfl, rfl⟩
    | listNetworks q => exact ⟨rfl, rfl⟩
    | listTemplates q => exact ⟨rfl, rfl⟩
    | listTags q => exact ⟨rfl, rfl⟩
    | _ => simp [resolving, Cloud.Call.operation] at h

end WorldState

/-- A question of a launch that has not deployed yet. -/
def Request.Planning (request : Request fleetSignature) : Prop :=
  CallsOnly resolving request ∨ ∃ subject state, request = .act (.log subject state)

namespace Event

/-- A turn that leaves the machines and tags of the cloud as they are. -/
def KeepsMachines (e : Event fleetWorld) : Prop :=
  e.before.world.cloud.SameMachines e.after.world.cloud

theorem keepsMachines_of_planning {e : Event fleetWorld} (h : e.request.Planning) :
    e.KeepsMachines := by
  obtain ⟨i, s, request⟩ := e
  rcases h with h | ⟨subject, state, rfl⟩
  · cases request with
    | act action =>
        cases action with
        | beginCall call => exact s.world.beginCall_sameMachines call
        | serveCall call => exact WorldState.serve_sameMachines s.world.cloud s.world.today h
        | log subject state => exact ⟨rfl, rfl⟩
        | change f => exact h.elim
        | _ => exact ⟨rfl, rfl⟩
    | _ => exact ⟨rfl, rfl⟩
  · exact ⟨rfl, rfl⟩

end Event

/-- A history of turns that keep the machines and tags keeps them. -/
theorem Steps.sameMachines {α : Type} {c d : Config fleetWorld α}
    {events : List (Event fleetWorld)} (h : Steps c events d)
    (keeps : ∀ e ∈ events, e.KeepsMachines) :
    c.shared.world.cloud.SameMachines d.shared.world.cloud := by
  induction h with
  | refl => exact ⟨rfl, rfl⟩
  | @turn d events i request next _ _ _ ih =>
      obtain ⟨hmachines, htags⟩ := ih fun e he => keeps e (List.mem_append_left _ he)
      obtain ⟨hmachines', htags'⟩ := keeps _ (List.mem_append_right _ List.mem_cons_self)
      rw [d.world_turn i request next]
      exact ⟨hmachines'.trans hmachines, htags'.trans htags⟩
  | wait _ _ ih => exact ih keeps

end NodeFleet
