import NodeFleet.Proofs.Fleet.Agreement
import NodeFleet.Proofs.Fleet.Remembering

/-!
# Fleets that work at once

Any number of provisioners that meet demands and of fleets that operate on instances, with one owner
or with several, work at the same time, next to programs that ask about no lock. A network or
template listing lists zones while it holds its own lock, so locks are waited for by holders of
locks. Still somebody always goes on: whoever holds the lock of the lowest rank among those that are
waited for asks something else, which is answered at once or when a call or a timer is over.
-/

namespace NodeFleet

open Routine (Obeys)
open Request (Harmless)

section Going

variable {σ : Signature} {W : World σ} {α : Type}

/-- Whether a routine is not done yet. -/
def Config.IsUnfinished (d : Config W α) (i : Nat) : Prop :=
  ∃ request next, d.routines[i]? = some (.ask request next)

/-- Whether a routine can take a step, or pauses until a call or a timer is over that is pending. -/
def Config.IsGoing (d : Config W α) (i : Nat) : Prop :=
  ∃ request next, d.routines[i]? = some (.ask request next) ∧
    (d.shared.isReady i request = true ∨
      ∃ token time, request = .pause token time ∧ d.shared.clock < time)

theorem Config.isUnfinished_of_result? {d : Config W α} {i : Nat} (h : i < d.routines.length)
    (unfinished : d.result? i = none) : d.IsUnfinished i := by
  have found := List.getElem?_eq_getElem h
  cases hroutine : d.routines[i] with
  | done a =>
      rw [hroutine] at found
      cases unfinished.symm.trans (Config.result?_eq_some_iff.2 found)
  | ask request next => exact ⟨request, next, by rw [found, hroutine]⟩

/-- A routine that is not done goes on, unless it waits for a lock that another one holds. -/
theorem Config.isGoing_of_head {d : Config W α} {i : Nat} {request : Request σ}
    {next : request.Answer → Routine σ α} (found : d.routines[i]? = some (.ask request next))
    (first : ∀ c, request.acquires? = some c → (d.shared.queues c).head? = some i) :
    d.IsGoing i := by
  refine ⟨request, next, found, ?_⟩
  cases request with
  | pause token time =>
      rcases Nat.lt_or_ge d.shared.clock time with hlater | hpast
      · exact .inr ⟨token, time, rfl, hlater⟩
      · exact .inl (by simp [Shared.isReady, hpast])
  | acquire c => exact .inl (by simp [Shared.isReady, first c rfl])
  | _ => exact .inl rfl

variable [DecidableEq σ.CacheName] {rank : σ.CacheName → Nat} {bound : Nat} {s : Shared σ W}
  {ps : List (Routine σ α)} {events : List (Event W)} {d : Config W α}

/-- Among orderly routines from free locks somebody goes on while somebody is not done. -/
theorem Steps.exists_isGoing (h : Steps (Config.start s ps) events d)
    (free : ∀ c, s.queues c = []) (orderly : ∀ p ∈ ps, p.Orderly rank bound []) {k : Nat}
    (unfinished : d.IsUnfinished k) : ∃ i, d.IsGoing i := by
  obtain ⟨request, next, found⟩ := unfinished
  cases hwaits : request.acquires? with
  | none =>
      exact ⟨k, Config.isGoing_of_head found fun c hc => by
        rw [hwaits] at hc
        cases hc⟩
  | some c =>
      obtain ⟨i, request', next', found', first⟩ := h.advances free orderly found hwaits
      exact ⟨i, Config.isGoing_of_head found' first⟩

end Going

/-- One of those that work at once: a provisioner that meets a demand, a fleet that carries out an
operation on instances, or anything else. -/
inductive Worker where
  | serves (o : Provisioner) (demand : Demand)
  | operates (f : Fleet) (op : InstanceOperation)
  | other (p : Program Unit)

namespace Worker

/-- What a worker does. -/
def program : Worker → Program Unit
  | .serves o demand => (fun _ => ()) <$> o.serve demand
  | .operates f op => (fun _ => ()) <$> f.operate op
  | .other p => p

/-- The others ask about no lock and store no listing. -/
def Fair : Worker → Prop
  | .other p => p.Obeys Harmless fun _ => True
  | _ => True

end Worker

/-- Fair workers have what every discipline has that lets harmless programs be. -/
theorem Discipline.worker (D : Discipline)
    (harmless : ∀ p : Program Unit, p.Obeys Harmless (fun _ => True) → D.Holds p)
    {worker : Worker} (fair : worker.Fair) : D.Holds worker.program := by
  cases worker with
  | serves o demand => exact D.map (D.serve o demand) _
  | operates f op => exact D.map (D.operate f op) _
  | other p => exact harmless p fair

theorem routine_of_worker {workers : List Worker} {k : Nat} {worker : Worker}
    (h : workers[k]? = some worker) : (workers.map Worker.program)[k]? = some worker.program := by
  rw [List.getElem?_map, h]
  rfl

theorem orderly_of_workers {workers : List Worker} (fair : ∀ worker ∈ workers, worker.Fair) :
    ∀ p ∈ workers.map Worker.program, p.IsOrderly := by
  intro p hp
  obtain ⟨worker, hworker, rfl⟩ := List.mem_map.1 hp
  exact ((Program.fairness {}).worker (fun _ => Program.fair_of_harmless)
    (fair worker hworker)).orderly

/-- From free locks, whatever workers do at once and in whichever order: while one of them is not
done, one can take a step or has a call or a timer pending, and every history goes on until all of
them are done. -/
theorem workers_never_deadlock {s : FleetState} {workers : List Worker}
    (free : ∀ cache, s.queues cache = []) (fair : ∀ worker ∈ workers, worker.Fair)
    {events : List (Event fleetWorld)} {d : Config fleetWorld Unit}
    (steps : Steps (Config.start s (workers.map Worker.program)) events d) :
    (∀ k, d.IsUnfinished k → ∃ i, d.IsGoing i) ∧
      ∃ later last, Steps d later last ∧ ∀ k, ¬last.IsUnfinished k := by
  have orderly := orderly_of_workers fair
  refine ⟨fun k => steps.exists_isGoing free orderly, ?_⟩
  obtain ⟨later, last, hlater, hdone⟩ := steps.completes free orderly
  refine ⟨later, last, hlater, fun k ⟨request, next, hk⟩ => ?_⟩
  have hlength : last.routines.length = (workers.map Worker.program).length :=
    (steps.trans hlater).length_eq
  obtain ⟨a, ha⟩ := hdone k (hlength ▸ (List.getElem?_eq_some_iff.1 hk).1)
  rw [hk] at ha
  cases ha

section Listers

/-- The stocked cloud, with calls that take time. -/
def pausingCloud : Cloud.Inventory :=
  { stockedCloud with latency := 5 }

/-- Two listings that need the zones, next to a sweep of the zones. -/
def listers : List Worker := [
  .serves stockedProvisioner (.browse (.networks "zone-1")),
  .serves stockedProvisioner (.browse (.templates "zone-1")),
  .other ((fun _ => ()) <$> Routine.request (.purge (⟨0, .zones⟩ : CacheId) : Request fleetSignature))]

/-- The first listing waits for the zones from the cloud, with the locks of networks and of zones;
the second one has the lock of templates and waits for that of zones. -/
theorem exists_listers_history : ∃ events d,
    Steps (Config.start (.initial (worldOf pausingCloud) : FleetState)
      (listers.map Worker.program)) events d ∧
    d.shared.queues ⟨0, .networks⟩ = [0] ∧ d.shared.queues ⟨0, .templates⟩ = [1] ∧
    d.shared.queues ⟨0, .zones⟩ = [0, 1] ∧
    (∀ i ∈ List.range 3, d.shared.canStep d.routines i = false) ∧ d.IsUnfinished 1 := by
  obtain ⟨events, d, steps, hnetworks, htemplates, hzones, hnone, hlength, hunfinished⟩ :
      ∃ events d, Steps (Config.start (.initial (worldOf pausingCloud) : FleetState)
          (listers.map Worker.program)) events d ∧
        d.shared.queues ⟨0, .networks⟩ = [0] ∧ d.shared.queues ⟨0, .templates⟩ = [1] ∧
        d.shared.queues ⟨0, .zones⟩ = [0, 1] ∧
        (∀ i ∈ List.range 3, d.shared.canStep d.routines i = false) ∧
        1 < d.routines.length ∧ d.result? 1 = none :=
    Config.exists_steps_of_follow [.turns 0 8, .turns 1 4, .turns 2 1] (by decide +kernel)
  exact ⟨events, d, steps, hnetworks, htemplates, hzones, hnone,
    Config.isUnfinished_of_result? hlength hunfinished⟩

/-- Nobody can take a step then, but a call is pending, and both listings come to an end. -/
theorem listers_never_deadlock : ∃ events d,
    Steps (Config.start (.initial (worldOf pausingCloud) : FleetState)
      (listers.map Worker.program)) events d ∧
    d.IsUnfinished 1 ∧ (∀ i ∈ List.range 3, d.shared.canStep d.routines i = false) ∧
    (∃ i, d.IsGoing i) ∧ ∃ later last, Steps d later last ∧ ∀ k, ¬last.IsUnfinished k := by
  have fair : ∀ worker ∈ listers, worker.Fair := by
    simp only [listers, List.forall_mem_cons]
    exact ⟨trivial, trivial, ⟨trivial, fun _ => trivial⟩, fun _ h => (nomatch h)⟩
  obtain ⟨events, d, steps, -, -, -, hnone, hunfinished⟩ := exists_listers_history
  obtain ⟨hgoing, hends⟩ := workers_never_deadlock (fun _ => rfl) fair steps
  exact ⟨events, d, steps, hunfinished, hnone, hgoing 1 hunfinished, hends⟩

end Listers

end NodeFleet
