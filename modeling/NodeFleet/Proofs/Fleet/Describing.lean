import NodeFleet.Proofs.Cloud.Records
import NodeFleet.Proofs.Fleet.Storing
import NodeFleet.Proofs.Time.Offsets

/-!
# Instances that describe machines

An instance describes a machine if it tells everything that the record of the machine tells, apart
from the state and the tags of the machine. Whoever is served by a cloud whose machines of an
identifier keep their records stores nothing under the identifier but what describes one of them.
-/

namespace NodeFleet

open Routine (Keeps)
open Program (Minds)
open Cloud (Inventory VirtualMachine lookup)
open Cloud.Inventory (KeepsRecords)
open Fleet (instanceKey course_of_fetchInstance)

/-- A text is what a whole second is written as at some offset, where its local time is of the years 0
to 9999. -/
def Instant.IsWritten (t : Instant) (text : String) : Prop :=
  t.nanos % 1000000000 = 0 ∧ ∃ (o : ClockOffset) (zone : List Char), o.Written zone ∧
    0 ≤ Calendar.yearOf ((t.seconds + o.seconds) / 86400) ∧
    Calendar.yearOf ((t.seconds + o.seconds) / 86400) ≤ 9999 ∧
    text = String.ofList (t.localText o.seconds ++ zone)

theorem Instant.IsWritten.ofCreationText? {t : Instant} {text : String} (h : t.IsWritten text) :
    Instant.ofCreationText? text = some t := by
  obtain ⟨whole, o, zone, written, year, year', rfl⟩ := h
  exact ofCreationText?_written whole year year' written

/-- An instance tells the record of a machine, whatever it says of the state and the tags. -/
structure Instance.Describes (found : Instance) (vm : VirtualMachine) : Prop where
  id : found.id = vm.id
  name : found.name = vm.name
  zone : found.zone = vm.zoneName
  zoneId : found.zoneId = vm.zoneId
  offering : found.serviceOffering = vm.offeringName
  offeringId : found.serviceOfferingId = vm.offeringId
  template : found.template = vm.templateName
  templateId : found.templateId = vm.templateId
  /-- The network is that of the first interface. -/
  network : ∀ nic ∈ vm.nics.head?, found.networkId = nic.networkId
  /-- A machine without interfaces has no network. -/
  noNetwork : vm.nics = [] → found.networkId = ""
  /-- The address is that of the first interface, which may have none. -/
  address : ∀ address, found.ipAddress = some address ↔
    address ≠ "" ∧ ∃ nic ∈ vm.nics.head?, nic.ipAddress = address
  /-- The creation time is read from the record. -/
  created : found.created = Instant.ofCreationText? vm.created
  /-- It is the second that the record was written with. -/
  createdAt : ∀ t : Instant, t.IsWritten vm.created → found.created = some t

theorem Instance.describes_ofMachine (vm : VirtualMachine) (tags : Table String) :
    (Instance.ofMachine vm tags).Describes vm where
  id := rfl
  name := rfl
  zone := rfl
  zoneId := rfl
  offering := rfl
  offeringId := rfl
  template := rfl
  templateId := rfl
  network nic hnic := by
    rw [ofMachine, VirtualMachine.networkId?, Option.mem_def.1 hnic]
    rfl
  noNetwork hnone := by
    rw [ofMachine, VirtualMachine.networkId?, hnone]
    rfl
  address address := by
    rw [ofMachine, VirtualMachine.ipAddress?]
    simp only [Option.filter_eq_some_iff, Option.map_eq_some_iff, decide_eq_true_eq, Option.mem_def]
    exact and_comm
  created := rfl
  createdAt _ written := written.ofCreationText?

theorem Instance.Describes.of_sameRecord {found : Instance} {vm other : VirtualMachine}
    (h : found.Describes vm) (same : vm.SameRecord other) : found.Describes other := by
  rw [same]
  exact ⟨h.id, h.name, h.zone, h.zoneId, h.offering, h.offeringId, h.template, h.templateId,
    h.network, h.noNetwork, h.address, h.created, h.createdAt⟩

/-- A cloud has a machine of an identifier that an instance describes. -/
def Cloud.Inventory.Contains (inv : Inventory) (id : String) (found : Instance) : Prop :=
  ∃ vm ∈ inv.machines, vm.id = id ∧ found.Describes vm

theorem Cloud.Inventory.Contains.keep {inv other : Inventory} {id : String} {found : Instance}
    (h : inv.Contains id found) (keeps : KeepsRecords id inv other) : other.Contains id found := by
  obtain ⟨vm, hvm, hid, describes⟩ := h
  obtain ⟨after, hafter, same⟩ := keeps vm hvm hid
  exact ⟨after, hafter, same.id_eq.trans hid, describes.of_sameRecord same⟩

/-- What is remembered under an identifier, fresh or not, describes a machine that the cloud has. -/
def Recalls (owner : Nat) (id : String) (s : FleetState) : Prop :=
  ∀ entry, (s.caches ⟨owner, .instances⟩).entries.get? (instanceKey id) = some entry →
    s.world.cloud.Contains id entry.value

section Reliance

/-- Machines of an identifier that are listed have the records of machines of a cloud, and a look for
an identifier lists no other. -/
def listsRecords (id : String) (inv : Inventory) : (action : Action) → action.Result → Prop
  | .beginCall call, opening => call.operation ≠ .queryJob → ∃ latency, opening = .delayed latency
  | .serveCall (.listMachines q), reply => ∀ page, reply = .ok page → ∀ vm ∈ page.items,
      (vm.id = id → ∃ after ∈ inv.machines, vm.SameRecord after) ∧
        ∀ other, q = { id := some other } → vm.id = other
  | _, _ => True

/-- The reliance of a provider whose machines of an identifier have the records of those that a cloud
has. -/
def recordReliance (owner : Nat) (id : String) (inv : Inventory) : Reliance fleetSignature :=
  .guarding owner id (inv.Contains id) (listsRecords id inv)

variable {owner : Nat} {id : String} {inv : Inventory} {trace : List (Exchange fleetSignature)}

theorem recordReliance_onMachines (owner : Nat) (id : String) (inv : Inventory) :
    (recordReliance owner id inv).OnMachines :=
  Reliance.onMachines_guarding fun begun => begun

/-- The instance of a machine that was looked up describes a machine of the cloud. -/
theorem contains_of_lookup {looked : String} {page : Cloud.Page VirtualMachine} {vm : VirtualMachine}
    (served : (recordReliance owner id inv).results (.serveCall (lookup looked)) (.ok page))
    (head : page.items.head? = some vm) (tags : Table String) :
    vm.id = looked ∧ (vm.id = id → inv.Contains id (.ofMachine vm tags)) := by
  obtain ⟨recorded, hid⟩ := served page rfl vm (List.mem_of_head? head)
  refine ⟨hid looked rfl, fun hown => ?_⟩
  obtain ⟨after, hafter, same⟩ := recorded hown
  exact ⟨after, hafter, same.id_eq.trans hown,
    (Instance.describes_ofMachine vm tags).of_sameRecord same⟩

variable (f : Fleet)

/-- Whoever reads an instance through its cache gets one that may be stored. -/
theorem keeps_getInstance_recorded (looked : String) :
    Keeps (recordReliance owner id inv) (fun r => ∀ found, r = .ok found →
        storesAdmitted owner id (inv.Contains id) ⟨f.owner, .instances⟩ (instanceKey looked) found)
      (f.getInstance looked).run := by
  refine keeps_getInstance_guarding f looked fun trace found course admitted hid => ?_
  cases course with
  | found looking head tagged parts =>
      rw [parts] at admitted
      obtain ⟨-, served⟩ := (recordReliance_onMachines owner id inv).served looking
        (by simp [Cloud.Call.operation]) (List.forall_mem_append.1 admitted).1
      obtain ⟨hown, contains⟩ := contains_of_lookup served head _
      exact contains (hown.trans hid)

/-- Whoever waits for a machine finds one whose instance may be stored. -/
theorem keeps_awaitState_recorded (token : Token) (looked : String) :
    Keeps (recordReliance owner id inv) (fun r => ∀ vm, r = .ok vm → ∀ tags : Table String,
        storesAdmitted owner id (inv.Contains id) ⟨f.owner, .instances⟩ (instanceKey vm.id)
          (Instance.ofMachine vm tags))
      (f.awaitState looked VirtualMachine.running token).run := by
  refine Routine.keeps_of_ends (Program.minds_of_callsPlainly (f.obeys_awaitState _ _ token)) ?_
  rintro trace r hends admitted vm rfl tags
  obtain ⟨page, hanswered, head, -⟩ := f.ends_awaitState token hends
  have on := recordReliance_onMachines owner id inv
  have hserved := hanswered.served (by simp [Cloud.Call.operation]) (on.delayed_trace admitted)
  obtain ⟨-, contains⟩ := contains_of_lookup (admitted _ hserved) head tags
  exact fun _ hkey => contains (instanceKey_inj.1 hkey)

/-- What a provider does stores for an identifier only what describes one of its machines. -/
def describing (owner : Nat) (id : String) (inv : Inventory) : Discipline :=
  (recordReliance_onMachines owner id inv).discipline
    (fun f looked => (keeps_getInstance_recorded f looked).mono fun _ _ => trivial)
    fun f c claim token request =>
      @Fleet.minds_deployment _ f c claim token request (fun _ => True)
        ((Program.minds_tryCall _ _).mono fun _ _ _ _ => trivial)
        fun looked _ => keeps_awaitState_recorded f token looked

end Reliance

end NodeFleet
