import NodeFleet.Proofs.Fleet.Readback
import NodeFleet.Proofs.Fleet.Remembering

/-!
# Tags of instances and stored tags

An instance is given its tags on four ways: those that its launch meant to set, those that a cache
holds, those that are listed for its machine and those of the record of the machine. As long as nobody
changes the tags of a machine all of them agree with what is stored, whichever calls fail and whatever
has expired, and a launch that has set its tags leaves them agreed. But a launch that has failed to set
them tells and remembers tags that are stored nowhere. A look that overlaps with the launch of its
machine may have seen it before the tags were set, so launches are looked at alone.
-/

namespace NodeFleet

open Routine (Ends Keeps Obeys)
open Program (Minds minds_of_callsPlainly obeys_call)
open Cloud (Inventory ResourceTag ResourceKind VirtualMachine)
open Fleet (instanceKey foundTags course_of_fetchInstance)

/-- Every instance that an owner remembers under an identifier, fresh or not, has the tags that are
stored. -/
def RemembersTags (owner : Nat) (id : String) (s : FleetState) : Prop :=
  ∀ entry, (s.caches ⟨owner, .instances⟩).entries.get? (instanceKey id) = some entry →
    entry.value.tags = tagTable (s.world.cloud.tagsOf id)

/-- A question to set tags on the machine of an identifier. -/
def Request.Tags (id : String) : Request fleetSignature → Prop
  | .act (.serveCall (.createTags w)) => id ∈ w.resourceIds
  | _ => False

/-- A turn in which nobody sets tags on the machine of an identifier, and that leaves them as they
are. -/
structure Event.LeavesTags (id : String) (e : Event fleetWorld) : Prop where
  unasked : ¬ e.request.Tags id
  kept : e.after.world.cloud.tagsOf id = e.before.world.cloud.tagsOf id

/-- Those who only look leave tags as they are. -/
theorem Event.leavesTags_of_looks {id : String} {e : Event fleetWorld} (h : e.request.Looks) :
    e.LeavesTags id := by
  refine ⟨fun tags => ?_, (Event.spares_of_looks h).tags⟩
  generalize e.request = request at h tags
  cases request with
  | act action =>
      cases action with
      | serveCall call =>
          cases call with
          | createTags w => exact h (by simp [Cloud.Call.operation, Cloud.Operation.changing])
          | _ => exact tags
      | _ => exact tags
  | _ => exact tags

section Reliance

/-- What the cloud answers about the tags of an identifier: a machine is listed with them, unless it is
another one, and so are they themselves; and nobody sets any. -/
def tellsTags (id : String) (tags : List ResourceTag) : (action : Action) → action.Result → Prop
  | .beginCall call, opening => call.operation ≠ .queryJob → ∃ latency, opening = .delayed latency
  | .serveCall (.listMachines q), reply => ∀ page, reply = .ok page → ∀ vm ∈ page.items,
      (vm.id = id → vm.tags = tags) ∧ ∀ other, q = { id := some other } → vm.id = other
  | .serveCall (.listTags q), reply =>
      q = ⟨id, .machine⟩ → ∀ listed, reply = .ok listed → listed = tags
  | .serveCall (.createTags w), _ => id ∉ w.resourceIds
  | _, _ => True

/-- The reliance of a provider next to a machine whose tags nobody changes. -/
def tagReliance (owner : Nat) (id : String) (tags : List ResourceTag) :
    Reliance fleetSignature :=
  .guarding owner id (·.tags = tagTable tags) (tellsTags id tags)

variable {owner : Nat} {id : String} {tags : List ResourceTag}
  {trace : List (Exchange fleetSignature)}

theorem tagReliance_onMachines (owner : Nat) (id : String) (tags : List ResourceTag) :
    (tagReliance owner id tags).OnMachines :=
  Reliance.onMachines_guarding fun begun => begun

variable (f : Fleet)

/-- Whoever reads an instance through its cache gets one with the tags of its machine, whether they are
remembered, listed or those of its record. -/
theorem keeps_getInstance_tagged (looked : String) :
    Keeps (tagReliance owner id tags) (fun r => ∀ found, r = .ok found →
        storesAdmitted owner id (·.tags = tagTable tags) ⟨f.owner, .instances⟩ (instanceKey looked)
          found)
      (f.getInstance looked).run := by
  refine keeps_getInstance_guarding f looked fun trace found course admitted hown => ?_
  subst hown
  have on := tagReliance_onMachines owner looked tags
  cases course with
  | @found look mark page vm reply looking head tagged parts =>
      rw [parts] at admitted
      obtain ⟨admittedLook, admittedMark⟩ := List.forall_mem_append.1 admitted
      obtain ⟨-, hlisted⟩ := on.served looking (by simp [Cloud.Call.operation]) admittedLook
      obtain ⟨-, htags⟩ := on.served tagged (by simp [Cloud.Call.operation]) admittedMark
      obtain ⟨hrecord, hid⟩ := hlisted page rfl vm (List.mem_of_head? head)
      change foundTags vm reply = tagTable tags
      cases reply with
      | ok listed => rw [foundTags, htags (by rw [hid looked rfl]) listed rfl]
      | error e => rw [foundTags, hrecord (hid looked rfl)]

/-- Whoever registers a machine sets tags on it, so it is another one. -/
theorem minds_register_tagged (c : NodeClass) (claim : NodeClaim) (vm : VirtualMachine) :
    Minds (tagReliance owner id tags) (f.register c claim vm) := by
  have on := tagReliance_onMachines owner id tags
  have hcall : Keeps (tagReliance owner id tags) (fun _ => vm.id ≠ id)
      (Program.call (.createTags ⟨[vm.id], .machine, f.machineTags c claim⟩)) := by
    refine Routine.keeps_of_ends
      (minds_of_callsPlainly (obeys_call (List.mem_singleton_self _))) ?_
    rintro trace reply hends admitted rfl
    obtain ⟨-, hother⟩ := on.served hends (by simp [Cloud.Call.operation]) admitted
    exact hother (List.mem_singleton_self _)
  refine hcall.bind fun _ other => ⟨?_, fun _ _ => trivial⟩
  exact fun _ hkey => absurd (instanceKey_inj.1 hkey) other

/-- What a provider does stores for a machine whose tags nobody changes only instances with these
tags. -/
def keepingTags (owner : Nat) (id : String) (tags : List ResourceTag) : Discipline :=
  (tagReliance_onMachines owner id tags).discipline
    (fun f looked => (keeps_getInstance_tagged f looked).mono fun _ _ => trivial)
    fun f c claim token request =>
      @Fleet.minds_deployment_of_register _ f c claim token request (fun _ => True)
        ((Program.minds_tryCall _ _).mono fun _ _ _ _ => trivial)
        fun _ _ => (minds_of_callsPlainly (f.obeys_awaitState _ _ token)).mono
          fun _ _ vm _ => minds_register_tagged f c claim vm

/-- In a turn that leaves tags as they are, the cloud tells them. -/
theorem Event.yields_of_leavesTags {e : Event fleetWorld} (leaves : e.LeavesTags id)
    (stored : e.before.world.cloud.tagsOf id = tags)
    (plain : ∀ t ∈ tags, t.resourceType = ResourceKind.machine.name) :
    e.Yields (tagReliance owner id tags) := by
  intro action haction
  cases action with
  | beginCall call =>
      intro hcall
      exact ⟨_, congrArg Prod.fst (e.before.world.beginCall_of_ne hcall)⟩
  | serveCall call =>
      change tellsTags id tags (.serveCall call)
        (e.before.world.cloud.serve e.before.world.today call).1
      rw [Inventory.serve]
      cases call with
      | listMachines q =>
          intro page hpage vm hvm
          split at hpage
          next => cases hpage
          next =>
            obtain rfl := Except.ok.inj hpage
            constructor
            · rintro rfl
              rw [← stored]
              rw [Inventory.items_listMachines] at hvm
              obtain ⟨other, -, rfl⟩ := List.mem_map.1 hvm
              rfl
            · rintro other rfl
              exact Inventory.id_of_mem_lookup hvm
      | listTags q =>
          rintro rfl listed hlisted
          split at hlisted
          next => cases hlisted
          next =>
            change e.before.world.cloud.listTags ⟨id, .machine⟩ = .ok listed at hlisted
            rw [← stored] at plain ⊢
            rcases Inventory.listTags_of_kind plain with hok | ⟨-, _, herror⟩
            · exact Except.ok.inj (hlisted.symm.trans hok)
            · rw [herror] at hlisted
              cases hlisted
      | createTags w =>
          intro hid
          exact leaves.unasked (by rw [haction]; exact hid)
      | _ => trivial
  | _ => trivial

end Reliance

section Providers

/-- Programs whose results have been made answers to a look for an instance. -/
abbrev Seeker : Type :=
  Program (Except ResourceError Instance)

/-- An operation on instances or a service, whatever is made of its result. -/
inductive Seeker.Provides (p : Seeker) : Prop
  | operates {f : Fleet} {op : InstanceOperation} {result : op.Answer → Except ResourceError Instance}
      (same : p = result <$> f.operate op) : Provides p
  | serves {o : Provisioner} {demand : Demand}
      {result : demand.Answer → Except ResourceError Instance}
      (same : p = result <$> o.serve demand) : Provides p

/-- Every operation and every service has what a discipline demands. -/
theorem Seeker.Provides.holds {p : Seeker} (h : p.Provides) (D : Discipline) : D.Holds p := by
  cases h with
  | operates same => exact same ▸ D.map (D.operate _ _) _
  | serves same => exact same ▸ D.map (D.serve _ _) _

/-- In a history nobody changes the tags of an identifier, which are those of a machine. Those who take
part provide something or remember no instance under the identifier. -/
structure TagsAtRest (owner : Nat) (id : String) (s : FleetState) (ps : List Seeker)
    (events : List (Event fleetWorld)) (d : Config fleetWorld (Except ResourceError Instance)) :
    Prop where
  steps : Steps (Config.start s ps) events d
  plain : ∀ t ∈ s.world.cloud.tagsOf id, t.resourceType = ResourceKind.machine.name
  leaves : ∀ e ∈ events, e.LeavesTags id
  parts : ∀ p ∈ ps, Seeker.Provides p ∨
    p.Obeys (fun request => request.StoresElsewhere owner id) fun _ => True

namespace TagsAtRest

variable {owner : Nat} {id : String} {s : FleetState} {ps : List Seeker}
  {events : List (Event fleetWorld)} {d : Config fleetWorld (Except ResourceError Instance)}

/-- Tags are at rest while instances are got and nothing else is done. -/
theorem of_looks (steps : Steps (Config.start s ps) events d)
    (plain : ∀ t ∈ s.world.cloud.tagsOf id, t.resourceType = ResourceKind.machine.name)
    (looks : ∀ p ∈ ps, ∃ (f : Fleet) (looked : String), p = f.operate (.get looked)) :
    TagsAtRest owner id s ps events d := by
  have obeys : ∀ p ∈ (Config.start s ps).routines, p.Obeys Request.Looks fun _ => True := by
    intro p hp
    obtain ⟨f, looked, rfl⟩ := looks p hp
    exact f.looks_getInstance looked
  refine ⟨steps, plain, fun e he => Event.leavesTags_of_looks (steps.asks obeys e he), ?_⟩
  intro p hp
  obtain ⟨f, looked, rfl⟩ := looks p hp
  exact .inl (.operates (id_map _).symm)

/-- The tags are the same in the end. -/
theorem tagsOf_eq (h : TagsAtRest owner id s ps events d) :
    (∀ e ∈ events, e.before.world.cloud.tagsOf id = s.world.cloud.tagsOf id) ∧
      d.shared.world.cloud.tagsOf id = s.world.cloud.tagsOf id := by
  refine h.steps.invariant
    (P := fun w : WorldState => w.cloud.tagsOf id = s.world.cloud.tagsOf id) ?_ ?_
  · rw [Config.world_start s]
  · exact fun e he hbefore => (h.leaves e he).kept.trans hbefore

/-- As long as the tags are at rest, nothing is remembered and nobody is told but them. -/
theorem relies (h : TagsAtRest owner id s ps events d) (remembers : RemembersTags owner id s) :
    (tagReliance owner id (s.world.cloud.tagsOf id)).Holds d.shared ∧
      ∀ e ∈ events, (tagReliance owner id (s.world.cloud.tagsOf id)).Admits e.exchange := by
  have holds : (tagReliance owner id (s.world.cloud.tagsOf id)).Holds (Config.start s ps).shared :=
    Reliance.Holds.congr (Reliance.holds_guarding_iff.2 remembers)
      (Config.caches_start s ps)
  have keeps (j : Nat) (p : Seeker) (hp : (Config.start s ps).routines[j]? = some p) :
      p.Keeps (tagReliance owner id (s.world.cloud.tagsOf id)) fun _ => True := by
    rcases h.parts p (List.mem_of_getElem? hp) with provides | elsewhere
    · exact provides.holds (keepingTags owner id (s.world.cloud.tagsOf id))
    · exact Routine.keeps_of_obeys elsewhere fun _ => Reliance.permits_guarding
  obtain ⟨hholds, -, hadmits⟩ := h.steps.keeps holds keeps fun e he =>
    Event.yields_of_leavesTags (h.leaves e he) (h.tagsOf_eq.1 e he) h.plain
  exact ⟨hholds, hadmits⟩

theorem remembersTags (h : TagsAtRest owner id s ps events d)
    (remembers : RemembersTags owner id s) : RemembersTags owner id d.shared := by
  intro entry hentry
  rw [h.tagsOf_eq.2]
  exact Reliance.holds_guarding_iff.1 (h.relies remembers).1 entry hentry

/-- Whoever gets an instance meanwhile gets it with the stored tags. -/
theorem tags_of_found {f : Fleet} {i : Nat} {found : Instance}
    (h : TagsAtRest f.owner id s ps events d) (remembers : RemembersTags f.owner id s)
    (own : ps[i]? = some (f.operate (.get id))) (done : d.routines[i]? = some (.done (.ok found))) :
    found.tags = tagTable (d.shared.world.cloud.tagsOf id) := by
  have admitted : ∀ x ∈ traceOf i events,
      (tagReliance f.owner id (s.world.cloud.tagsOf id)).Admits x := by
    intro x hx
    obtain ⟨e, he, rfl⟩ := exists_turn_of_mem hx
    exact (h.relies remembers).2 e (mem_turnsOf.1 he).1
  rw [h.tagsOf_eq.2]
  exact (keeps_getInstance_tagged f id).ends (h.steps.ends own done) admitted found rfl rfl rfl

end TagsAtRest

end Providers

section Launching

/-- A routine has launched a machine: it has created an instance, or a node whose instance that is. -/
inductive HasLaunched (f : Fleet) (p : Seeker) (trace : List (Exchange fleetSignature))
    (launched : Instance) : Prop
  | operates {c : NodeClass} {claim : NodeClaim} {candidates : List InstanceType} {token : Token}
      (same : p = f.operate (.create c claim candidates token))
      (ended : Ends p trace (.ok launched)) : HasLaunched f p trace launched
  | serves {o : Provisioner} {claim : NodeClaim}
      {result : Except NodeError NodeClaim → Except ResourceError Instance} {c : NodeClass}
      {types : List InstanceType} {first own : List (Exchange fleetSignature)} {today : Instant}
      (same : p = result <$> o.serve (.create claim)) (fleet : o.fleet = f)
      (created : Ends (f.createInstance c claim types o.shutdown).run own (.ok launched))
      (parts : trace = first ++ (own ++ [⟨.act .today, today⟩])) : HasLaunched f p trace launched

/-- In a history a routine has launched a machine, and nobody else has touched it. -/
structure LaunchedAlone (f : Fleet) (s : FleetState) (ps : List Seeker)
    (events : List (Event fleetWorld)) (d : Config fleetWorld (Except ResourceError Instance))
    (i : Nat) (launched : Instance) : Prop where
  steps : Steps (Config.start s ps) events d
  launch : ∃ p, ps[i]? = some p ∧ HasLaunched f p (traceOf i events) launched
  undisputed : ∀ first e later request reply, events = first ++ e :: later → e.routine = i →
    e.exchange = ⟨.act (.serveCall (.deployMachine request)), .ok reply⟩ →
      Undisputed f.owner i reply.id e later

theorem HasLaunched.registers {f : Fleet} {p : Seeker} {trace : List (Exchange fleetSignature)}
    {launched : Instance} (h : HasLaunched f p trace launched) (delayed : Delayed trace) :
    ∃ c claim, Registers f (f.machineTags c claim) trace launched := by
  cases h with
  | @operates c claim candidates token same ended =>
      exact ⟨c, claim, registers_of_createInstance (same ▸ ended) delayed⟩
  | @serves o claim result c types first own today same fleet created parts =>
      subst parts
      have hregisters := registers_of_createInstance created (delayed.sub fun x hx => by simp [hx])
      refine ⟨c, claim, hregisters.extend first ?_⟩
      exact List.forall_mem_singleton.2 ⟨trivial, rfl⟩

theorem Fleet.machineTags_ne_empty (f : Fleet) (c : NodeClass) (claim : NodeClaim) :
    f.machineTags c claim ≠ .empty := by
  intro hempty
  have hcontains := f.contains_machineTags c claim
  rw [hempty] at hcontains
  cases hcontains

namespace LaunchedAlone

variable {f : Fleet} {s : FleetState} {ps : List Seeker} {events : List (Event fleetWorld)}
  {d : Config fleetWorld (Except ResourceError Instance)} {i : Nat} {launched : Instance}

/-- The tags of a launched machine are those that were set on it. It is remembered with those that were
to be set. -/
theorem stored_eq (h : LaunchedAlone f s ps events d i launched) :
    ∃ result, (⟨.act (.serveCall (.createTags ⟨[launched.id], .machine, launched.tags⟩)), result⟩ :
        Exchange fleetSignature) ∈ traceOf i events ∧ launched.tags ≠ .empty ∧
      d.shared.world.cloud.tagsOf launched.id =
        Event.tagsSet launched.id launched.tags result ∧
      ∀ entry, (d.shared.caches ⟨f.owner, .instances⟩).entries.get? (instanceKey launched.id) =
        some entry → entry.value = launched := by
  obtain ⟨p, -, haslaunched⟩ := h.launch
  obtain ⟨c, claim, registers⟩ := haslaunched.registers (delayed_traceOf i events)
  obtain ⟨vm, result, rfl, -, -, asked, hosts, stored⟩ :=
    h.steps.registered_as registers h.undisputed
  exact ⟨result, asked, f.machineTags_ne_empty c claim, hosts.tags,
    Reliance.holds_guarding_iff.1 stored⟩

/-- A launched machine has the tags of its instance just when they could be set. It is remembered with
them in any case. -/
theorem tags_eq_iff (h : LaunchedAlone f s ps events d i launched) :
    ∃ result, (⟨.act (.serveCall (.createTags ⟨[launched.id], .machine, launched.tags⟩)), result⟩ :
        Exchange fleetSignature) ∈ traceOf i events ∧
      (launched.tags = tagTable (d.shared.world.cloud.tagsOf launched.id) ↔ result = .ok ()) ∧
      ∀ entry, (d.shared.caches ⟨f.owner, .instances⟩).entries.get? (instanceKey launched.id) =
        some entry → entry.value = launched := by
  obtain ⟨result, asked, tagged, stored, remembered⟩ := h.stored_eq
  refine ⟨result, asked, ?_, remembered⟩
  rw [stored]
  cases result with
  | ok _ => exact iff_of_true (Inventory.tagTable_tagOn .machine launched.id _).symm rfl
  | error e => exact iff_of_false tagged fun h => (nomatch h)

/-- A launched machine has tags as a machine only. -/
theorem plain (h : LaunchedAlone f s ps events d i launched) :
    ∀ t ∈ d.shared.world.cloud.tagsOf launched.id, t.resourceType = ResourceKind.machine.name := by
  obtain ⟨result, -, -, stored, -⟩ := h.stored_eq
  rw [stored]
  exact fun t => Event.resourceType_of_mem_tagsSet

end LaunchedAlone

end Launching

/-- What becomes of a provider and the tags of an identifier: nothing is remembered under it, as in the
beginning and after its removal, or the tags are at rest, or its machine has been launched and all its
tags have been set. -/
inductive TagsFollowed (f : Fleet) (id : String) : FleetState → Prop
  | forgotten {s : FleetState}
      (none : (s.caches ⟨f.owner, .instances⟩).entries.get? (instanceKey id) = none) :
      TagsFollowed f id s
  | atRest {s : FleetState} {ps : List Seeker} {events : List (Event fleetWorld)}
      {d : Config fleetWorld (Except ResourceError Instance)} (followed : TagsFollowed f id s)
      (rest : TagsAtRest f.owner id s ps events d) : TagsFollowed f id d.shared
  | launched {s : FleetState} {ps : List Seeker} {events : List (Event fleetWorld)}
      {d : Config fleetWorld (Except ResourceError Instance)} {i : Nat} {launched : Instance}
      (launch : LaunchedAlone f s ps events d i launched) (same : launched.id = id)
      (tagged : ∀ w e, (⟨.act (.serveCall (.createTags w)), .error e⟩ : Exchange fleetSignature) ∉
        traceOf i events) : TagsFollowed f id d.shared

theorem TagsFollowed.remembersTags {f : Fleet} {id : String} {s : FleetState}
    (h : TagsFollowed f id s) : RemembersTags f.owner id s := by
  induction h with
  | forgotten none =>
      intro entry hentry
      rw [none] at hentry
      cases hentry
  | atRest _ rest ih => exact rest.remembersTags ih
  | launched launch same tagged =>
      intro entry hentry
      obtain ⟨result, asked, hstored, hremembered⟩ := launch.tags_eq_iff
      rw [← same] at hentry ⊢
      rw [hremembered entry hentry]
      cases result with
      | ok _ => exact hstored.2 rfl
      | error e => exact absurd asked (tagged _ e)

/-- As long as every launch could set its tags, whatever a provider remembers under an identifier has
the tags that are stored, and so has every instance that it gets while they are at rest, out of its
cache or the cloud and whichever calls fail. After a removal that has destroyed the machine nothing is
left to be told. The instance of a launch has the stored tags just when they could be set; if not, it
has tags that are not stored, and is remembered with them. -/
theorem instances_carry_stored_tags {f : Fleet} {id : String} {s : FleetState}
    (followed : TagsFollowed f id s) :
    RemembersTags f.owner id s ∧
    (∀ (ps : List Seeker) (events : List (Event fleetWorld))
      (d : Config fleetWorld (Except ResourceError Instance)) (i : Nat) (found : Instance),
      TagsAtRest f.owner id s ps events d → ps[i]? = some (f.operate (.get id)) →
        d.routines[i]? = some (.done (.ok found)) →
          found.tags = tagTable (d.shared.world.cloud.tagsOf id)) ∧
    (∀ (token : Token) (i : Nat) (events : List (Event fleetWorld))
      (d : Config fleetWorld (Except ResourceError Unit)) (r : Except ResourceError Unit),
      CarriedOut f (.delete id token) s i events d r → Destroys id i events →
        TagsFollowed f id d.shared) ∧
    ∀ (t : FleetState) (ps : List Seeker) (events : List (Event fleetWorld))
      (d : Config fleetWorld (Except ResourceError Instance)) (i : Nat) (launched : Instance),
      LaunchedAlone f t ps events d i launched → ∃ result,
        (⟨.act (.serveCall (.createTags ⟨[launched.id], .machine, launched.tags⟩)), result⟩ :
          Exchange fleetSignature) ∈ traceOf i events ∧
        (launched.tags = tagTable (d.shared.world.cloud.tagsOf launched.id) ↔ result = .ok ()) ∧
        ∀ entry, (d.shared.caches ⟨f.owner, .instances⟩).entries.get? (instanceKey launched.id) =
          some entry → entry.value = launched := by
  refine ⟨followed.remembersTags, ?_, ?_, ?_⟩
  · intro ps events d i found rest own done
    exact rest.tags_of_found followed.remembersTags own done
  · intro token i events d r removal destroys
    exact .forgotten (removal.forgets destroys)
  · intro t ps events d i launched launch
    exact launch.tags_eq_iff

section Stocked

/-- The creation of an instance. -/
def creation : Seeker :=
  stockedProvisioner.fleet.operate (.create reconciledClass stockedClaim [smallType] 0)

/-- Two looks for the first machine. -/
def looks : List Seeker :=
  [stockedProvisioner.fleet.operate (.get "vm-1"), stockedProvisioner.fleet.operate (.get "vm-1")]

/-- Somebody who is done has got the first machine, with the stored tags or with others. -/
def Gets (d : Config fleetWorld (Except ResourceError Instance)) (i : Nat) (agrees : Bool) : Prop :=
  ∃ r ∈ d.result? i, ∃ found ∈ r.toOption, found.id = "vm-1" ∧
    (found.tags = tagTable (d.shared.world.cloud.tagsOf "vm-1") ↔ agrees = true)

instance (d : Config fleetWorld (Except ResourceError Instance)) (i : Nat) (agrees : Bool) :
    Decidable (Gets d i agrees) :=
  inferInstanceAs (Decidable (∃ r ∈ d.result? i, ∃ found ∈ r.toOption, found.id = "vm-1" ∧
    (found.tags = tagTable (d.shared.world.cloud.tagsOf "vm-1") ↔ agrees = true)))

theorem Gets.exists_done {d : Config fleetWorld (Except ResourceError Instance)} {i : Nat}
    {agrees : Bool} (h : Gets d i agrees) : ∃ found, d.routines[i]? = some (.done (.ok found)) ∧
      found.id = "vm-1" ∧
      (found.tags = tagTable (d.shared.world.cloud.tagsOf found.id) ↔ agrees = true) := by
  obtain ⟨r, hresult, found, hfound, hid, htags⟩ := h
  cases r with
  | error e => cases hfound
  | ok found =>
      obtain rfl := Option.some.inj hfound
      exact ⟨found, Config.result?_eq_some_iff.1 hresult, hid, hid ▸ htags⟩

/-- The first machine is created alone, without a failure if its tags are to be stored, and looked for
at once and when everything has expired. -/
def CreatesAndGets (agrees : Bool) (events : List (Event fleetWorld))
    (d : Config fleetWorld (Except ResourceError Instance)) : Prop :=
  Gets d 0 agrees ∧
  (∀ e ∈ events, e.routine = 0 ∧ (agrees = true → e.exchange.fails = false) ∧
    (e.request.serves Cloud.Call.deploys = true →
      e.before.world.cloud.machines = [] ∧ e.before.world.cloud.tags = [])) ∧
  ∃ path ∈ (Config.start d.shared looks).follow [.turns 0 1, .wait 1000000, .turns 1 13],
    Gets path.2 0 agrees ∧ Gets path.2 1 true

instance (agrees : Bool) (events : List (Event fleetWorld))
    (d : Config fleetWorld (Except ResourceError Instance)) :
    Decidable (CreatesAndGets agrees events d) :=
  inferInstanceAs (Decidable (_ ∧ _ ∧ _))

/-- An instance that is created and looked for twice, with a description of the tags that it has. -/
theorem exists_creation_history (cloud : Cloud.Inventory) (agrees : Bool)
    (follows : ∃ path ∈ (Config.start (.initial (worldOf cloud) : FleetState) [creation]).follow
      [.turns 0 55, .wait 5000, .turns 0 13], CreatesAndGets agrees path.1 path.2) :
    ∃ events d launched events' d' found later,
      LaunchedAlone stockedProvisioner.fleet (.initial (worldOf cloud)) [creation] events d 0
        launched ∧
      (agrees = true → ∀ w e, (⟨.act (.serveCall (.createTags w)), .error e⟩ :
        Exchange fleetSignature) ∉ traceOf 0 events) ∧
      (launched.tags = tagTable (d.shared.world.cloud.tagsOf launched.id) ↔ agrees = true) ∧
      launched.id = "vm-1" ∧
      TagsAtRest stockedProvisioner.fleet.owner "vm-1" d.shared looks events' d' ∧
      d'.routines[0]? = some (.done (.ok found)) ∧ d'.routines[1]? = some (.done (.ok later)) ∧
      (found.tags = tagTable (d'.shared.world.cloud.tagsOf "vm-1") ↔ agrees = true) := by
  obtain ⟨⟨events, d⟩, hfollow, hcreated, hevents, ⟨events', d'⟩, hlooks, hfirst, hsecond⟩ := follows
  have steps := Config.steps_of_follow hfollow
  have steps' := Config.steps_of_follow hlooks
  obtain ⟨launched, hdone, hid, hagrees⟩ := hcreated.exists_done
  have launch : LaunchedAlone stockedProvisioner.fleet (.initial (worldOf cloud)) [creation] events
      d 0 launched := by
    refine ⟨steps, ⟨creation, rfl, .operates rfl (steps.ends rfl hdone)⟩, ?_⟩
    intro first e later request reply cut _ deploys
    refine undisputed_of_sole (fun e he => (hevents e he).1) (fun e he request hrequest => ?_) cut
      deploys
    refine (hevents e he).2.2 ?_
    rw [hrequest]
    rfl
  obtain ⟨found, hfound, hid', hagrees'⟩ := hfirst.exists_done
  obtain ⟨later, hlater, -⟩ := hsecond.exists_done
  rw [hid'] at hagrees'
  refine ⟨events, d, launched, events', d', found, later, launch, ?_, hagrees, hid, ?_, hfound,
    hlater, hagrees'⟩
  · rintro rfl w error hx
    obtain ⟨e, he, hexchange⟩ := exists_turn_of_mem hx
    have hworks := (hevents e (mem_turnsOf.1 he).1).2.1 rfl
    rw [hexchange] at hworks
    cases hworks
  · refine .of_looks steps' (hid ▸ launch.plain) fun p hp => ?_
    obtain rfl : p = stockedProvisioner.fleet.operate (.get "vm-1") := by simpa [looks] using hp
    exact ⟨_, _, rfl⟩

/-- Tags that were set are on the instance of the launch, and on those that are got out of the cache and
out of the cloud. -/
theorem instances_carry_stored_tags_when_set : ∃ events d launched events' d' found later,
    LaunchedAlone stockedProvisioner.fleet (.initial (worldOf stockedCloud)) [creation] events d 0
      launched ∧
    launched.tags = tagTable (d.shared.world.cloud.tagsOf launched.id) ∧
    RemembersTags stockedProvisioner.fleet.owner "vm-1" d.shared ∧
    TagsAtRest stockedProvisioner.fleet.owner "vm-1" d.shared looks events' d' ∧
    d'.routines[0]? = some (.done (.ok found)) ∧ d'.routines[1]? = some (.done (.ok later)) ∧
    found.tags = tagTable (d'.shared.world.cloud.tagsOf "vm-1") ∧
    later.tags = tagTable (d'.shared.world.cloud.tagsOf "vm-1") := by
  obtain ⟨events, d, launched, events', d', found, later, launch, tagged, -, hid, rest, hfound,
    hlater, -⟩ := exists_creation_history stockedCloud true (by decide +kernel)
  have followed : TagsFollowed stockedProvisioner.fleet "vm-1" d.shared :=
    .launched launch hid (tagged rfl)
  obtain ⟨remembers, gets, -, launches⟩ := instances_carry_stored_tags followed
  obtain ⟨result, asked, hstored, -⟩ := launches _ _ _ _ _ _ launch
  have hset : result = .ok () := by
    cases result with
    | ok _ => rfl
    | error e => exact absurd asked (tagged rfl _ e)
  exact ⟨events, d, launched, events', d', found, later, launch, hstored.2 hset, remembers, rest,
    hfound, hlater, gets _ _ _ 0 found rest rfl hfound, gets _ _ _ 1 later rest rfl hlater⟩

/-- The stocked cloud while no tags can be set. -/
def untaggableCloud : Cloud.Inventory :=
  { stockedCloud with failures := [(.createTags, "tags are down")] }

/-- A launch that could not set its tags returns an instance with tags that are not stored, and whoever
gets it out of the cache is told the same. -/
theorem exists_instance_with_unstored_tags : ∃ events d launched events' d' found,
    LaunchedAlone stockedProvisioner.fleet (.initial (worldOf untaggableCloud)) [creation] events d 0
      launched ∧
    launched.tags ≠ tagTable (d.shared.world.cloud.tagsOf launched.id) ∧
    TagsAtRest stockedProvisioner.fleet.owner launched.id d.shared looks events' d' ∧
    d'.routines[0]? = some (.done (.ok found)) ∧
    found.tags ≠ tagTable (d'.shared.world.cloud.tagsOf launched.id) := by
  obtain ⟨events, d, launched, events', d', found, later, launch, -, hlaunched, hid, rest, hfound,
    -, hstored⟩ :=
    exists_creation_history untaggableCloud false (by decide +kernel)
  rw [← hid] at rest hstored
  exact ⟨events, d, launched, events', d', found, launch, fun h => Bool.noConfusion (hlaunched.1 h),
    rest, hfound, fun h => Bool.noConfusion (hstored.1 h)⟩

end Stocked

end NodeFleet
