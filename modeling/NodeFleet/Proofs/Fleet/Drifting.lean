import NodeFleet.Proofs.Fleet.Agreement
import NodeFleet.Proofs.NodeClass.Likeness

/-!
# Which nodes have drifted

A launched claim carries the hash of the spec that it was launched from. A check looks up the node
class of the claim once, and what it reports depends on nothing but what is stored under that name
then: the claim has drifted exactly if there is a node class, not about to go, whose spec differs
from that of the launch in more than order and zero values.
-/

namespace NodeFleet

open Routine (Ends ends_lift_bind ends_pure ends_request_bind)
open NodeClassSpec (HashSeparates)

/-- What is reported of a claim that has drifted. -/
def drifted : String := "NodeClassDrifted"

namespace NodeClaim

variable (claim : NodeClaim) (c : NodeClass)

/-- Annotating a claim records the hash and its version and changes no other annotation. -/
theorem get?_annotate (key : String) :
    (claim.annotate c).annotations.get? key =
      if key = Annotation.nodeClassHashVersion then some c.hash.version
      else if key = Annotation.nodeClassHash then some c.hash.value
      else claim.annotations.get? key := by
  rw [annotate, Table.get?_insert, Table.get?_insert]

/-- An annotated claim has drifted from the node classes of another hash. -/
theorem driftReason?_annotate (other : NodeClass) :
    (claim.annotate c).driftReason? other =
      if c.spec.hash = other.spec.hash then none else some drifted := by
  have hversion : c.hash.version = other.hash.version := rfl
  have hhash : c.hash.value = other.hash.value ↔ c.spec.hash = other.spec.hash :=
    ⟨fun h => congrArg (ConfigHash.mk ConfigHash.currentVersion) h, congrArg ConfigHash.value⟩
  have hkeys : Annotation.nodeClassHash ≠ Annotation.nodeClassHashVersion := by decide
  rw [driftReason?, get?_annotate, get?_annotate, if_neg hkeys, if_pos rfl, if_pos rfl]
  change (if c.hash.version = other.hash.version ∧ c.hash.value ≠ other.hash.value
    then some drifted else none) = _
  by_cases h : c.spec.hash = other.spec.hash
  · rw [if_pos h, if_neg fun drift => drift.2 (hhash.2 h)]
  · rw [if_neg h, if_pos ⟨hversion, fun hvalue => h (hhash.1 hvalue)⟩]

end NodeClaim

/-- A stored node class outdates a spec if it is not about to go and its spec differs in more than
order and zero values. -/
def Outdates (stored : Option NodeClass) (spec : NodeClassSpec) : Prop :=
  ∃ c, stored = some c ∧ c.isDeleting = false ∧ ¬ spec.Alike c.spec

/-- A report gives the reason if what is stored outdates a spec, and none if not. -/
structure ReportsOn (stored : Option NodeClass) (spec : NodeClassSpec) (reason : Option String) :
    Prop where
  drifted_iff : reason = some drifted ↔ Outdates stored spec
  none_iff : reason = none ↔ ¬ Outdates stored spec

theorem ReportsOn.of_outdates {stored : Option NodeClass} {spec : NodeClassSpec}
    (h : Outdates stored spec) : ReportsOn stored spec (some drifted) :=
  ⟨iff_of_true rfl h, iff_of_false (by simp) (not_not_intro h)⟩

theorem ReportsOn.of_not_outdates {stored : Option NodeClass} {spec : NodeClassSpec}
    (h : ¬ Outdates stored spec) : ReportsOn stored spec none :=
  ⟨iff_of_false (by simp) h, iff_of_true rfl h⟩

namespace Provisioner

variable {o : Provisioner} {claim created : NodeClaim} {c : NodeClass}
  {trace : List (Exchange fleetSignature)} {reason : Option String}

/-- A claim was launched from a node class that was stored under the name it gives. -/
def LaunchedFrom (o : Provisioner) (claim : NodeClaim) (c : NodeClass) (created : NodeClaim)
    (trace : List (Exchange fleetSignature)) : Prop :=
  ∃ name rest, claim.nodeClassRef = some name ∧
    trace = ⟨.act (.nodeClass name), some c⟩ :: rest ∧
    Ends (o.launchFor claim c).run rest (.ok created)

/-- A launched claim names its node class and carries the hash of its spec. -/
theorem LaunchedFrom.annotated (h : LaunchedFrom o claim c created trace) :
    created.nodeClassRef = some c.name ∧ ∃ bare : NodeClaim, created = bare.annotate c := by
  obtain ⟨name, rest, -, -, hlaunch⟩ := h
  rcases ends_launchFor hlaunch with ⟨_, he, _⟩ | ⟨_, _, _, _, ⟨_, he, _⟩ | ⟨launched, today, h, _⟩⟩
  · cases he
  · cases he
  · obtain rfl := Except.ok.inj h
    exact ⟨rfl, _, rfl⟩

theorem launchedFrom_of_create (h : Ends (o.create claim).run trace (.ok created)) :
    ∃ c, LaunchedFrom o claim c created trace := by
  cases hnamed : claim.nodeClassRef with
  | none =>
      obtain ⟨found, look, rest, rfl, hlook, hrest⟩ := ends_lift_bind.1 h
      rw [classOf?, hnamed] at hlook
      obtain ⟨-, rfl⟩ := ends_pure.1 hlook
      cases (Routine.ends_run_throw.1 hrest).2
  | some name =>
      obtain ⟨stored, rest, rfl, hrest⟩ := ends_create hnamed h
      rcases hrest with ⟨c, rfl, hlaunch⟩ | ⟨_, he, _⟩
      · exact ⟨c, name, rest, hnamed, rfl, hlaunch⟩
      · cases he

/-- What a check of a claim reports on what is stored. -/
def report (claim : NodeClaim) (stored : Option NodeClass) : Option String :=
  (stored.filter fun c => !c.isDeleting).bind claim.driftReason?

/-- A check of a claim that names its node class is one look at the store. -/
theorem program_check {name : String} (named : claim.nodeClassRef = some name) :
    (Party.serves o (.driftReason claim)).program =
      .ask (.act (.nodeClass name)) fun stored : Option NodeClass =>
        .done (.served (.driftReason claim) (report claim stored)) := by
  change Outcome.served (.driftReason claim) <$> isDrifted claim = _
  rw [isDrifted, classOf?, named]
  rfl

/-- What is answered to a check of a claim that carries the hash of a spec. -/
theorem reportsOn_of_annotated (bare : NodeClaim) (stored : Option NodeClass)
    (separates : ∀ other, stored = some other → HashSeparates c.spec other.spec) :
    ReportsOn stored c.spec (report (bare.annotate c) stored) := by
  rw [report]
  cases stored with
  | none => exact .of_not_outdates fun ⟨_, h, _⟩ => nomatch h
  | some other =>
      have halike := NodeClassSpec.hash_eq_iff_alike (separates other rfl)
      cases hdeleting : other.isDeleting with
      | true =>
          rw [Option.filter_some, hdeleting]
          refine .of_not_outdates fun ⟨found, hfound, hkept, _⟩ => ?_
          obtain rfl := Option.some.inj hfound
          rw [hdeleting] at hkept
          cases hkept
      | false =>
          rw [Option.filter_some, hdeleting, if_pos Bool.not_false, Option.bind_some,
            NodeClaim.driftReason?_annotate]
          split
          next hash =>
            refine .of_not_outdates fun ⟨found, hfound, _, hdiffers⟩ => hdiffers ?_
            obtain rfl := Option.some.inj hfound
            exact halike.1 hash
          next hash => exact .of_outdates ⟨other, rfl, hdeleting, mt halike.2 hash⟩

end Provisioner

open Provisioner (LaunchedFrom)

/-- Whoever checks a claim, whenever and next to whatever else, looks once at what is stored under
the name of the node class that the claim was launched from. The report is on what is stored then,
as far as the hash tells the specs apart, and a check that has not reported does so with its next
turn. -/
structure ChecksAgainst (c : NodeClass) (created : NodeClaim) : Prop where
  reports : ∀ (s : FleetState) (parties : List Party) (events : List (Event fleetWorld))
    (d : Config fleetWorld Outcome) (o : Provisioner) (j : Nat) (reason : Option String),
    Steps (Config.start s (parties.map Party.program)) events d →
    parties[j]? = some (.serves o (.driftReason created)) →
    d.routines[j]? = some (.done (.served (.driftReason created) reason)) →
    ∃ e, turnsOf j events = [e] ∧
      ((∀ other, e.before.world.nodeClasses.get? c.name = some other →
          HashSeparates c.spec other.spec) →
        ReportsOn (e.before.world.nodeClasses.get? c.name) c.spec reason)
  ends : ∀ (s : FleetState) (parties : List Party) (events : List (Event fleetWorld))
    (d : Config fleetWorld Outcome) (o : Provisioner) (j : Nat),
    Steps (Config.start s (parties.map Party.program)) events d →
    parties[j]? = some (.serves o (.driftReason created)) →
    (∃ reason, d.routines[j]? = some (.done (.served (.driftReason created) reason))) ∨
      ∃ last reason, Steps d [⟨j, d.shared, .act (.nodeClass c.name)⟩] last ∧
        last.routines[j]? = some (.done (.served (.driftReason created) reason))

theorem checksAgainst_of_annotated {c : NodeClass} {bare : NodeClaim}
    (named : (bare.annotate c).nodeClassRef = some c.name) :
    ChecksAgainst c (bare.annotate c) where
  reports s parties events d o j reason steps check checked := by
    have hends := steps.ends (routine_of_party check) checked
    rw [Provisioner.program_check named] at hends
    obtain ⟨stored, tail, htrace, htail⟩ := Routine.ends_ask.1 hends
    obtain ⟨rfl, houtcome⟩ := Routine.ends_done.1 htail
    obtain rfl := eq_of_heq (Outcome.served.inj houtcome).2
    obtain ⟨e, hturns, hexchange⟩ := List.map_eq_singleton_iff.1 htrace
    obtain ⟨-, rfl⟩ := Event.stored_of_exchange hexchange
    exact ⟨e, hturns, Provisioner.reportsOn_of_annotated bare _⟩
  ends s parties events d o j steps check := by
    obtain ⟨q, hq, hpath⟩ := steps.path (routine_of_party check)
    rw [Provisioner.program_check named] at hpath
    rcases Routine.path_ask_iff.1 hpath with ⟨-, rfl⟩ | ⟨stored, tail, -, htail⟩
    · have hj : j < d.routines.length := (List.getElem?_eq_some_iff.1 hq).1
      exact .inr ⟨_, Provisioner.report (bare.annotate c) (d.shared.world.nodeClasses.get? c.name),
        .turn (.refl d) hq rfl, List.getElem?_set_self hj⟩
    · obtain ⟨-, rfl⟩ := Routine.path_done_iff.1 htail
      exact .inl ⟨_, hq⟩

/-- A claim that a provisioner has launched names the node class that it was launched from, and
whatever comes to be stored, every check of it ends and reports drift exactly if a node class of that
name is stored that is not about to go and differs in more than order and zero values. Recording the
hash changes nothing else of a claim. -/
theorem drift_follows_the_stored_class :
    (∀ (s : FleetState) (parties : List Party) (events : List (Event fleetWorld))
        (d : Config fleetWorld Outcome) (i : Nat) (o : Provisioner) (claim created : NodeClaim),
      Steps (Config.start s (parties.map Party.program)) events d →
      parties[i]? = some (.serves o (.create claim)) →
      d.routines[i]? = some (.done (.served (.create claim) (.ok created))) →
      ∃ c, LaunchedFrom o claim c created (traceOf i events) ∧
        created.nodeClassRef = some c.name ∧ ChecksAgainst c created) ∧
    ∀ (claim : NodeClaim) (c : NodeClass),
      (∀ key, key ≠ Annotation.nodeClassHash → key ≠ Annotation.nodeClassHashVersion →
        (claim.annotate c).annotations.get? key = claim.annotations.get? key) ∧
      { claim.annotate c with annotations := claim.annotations } = claim := by
  constructor
  · intro s parties events d i o claim created steps launch launched
    have hends := Party.ends_serves (steps.ends (routine_of_party launch) launched)
    obtain ⟨c, hfrom⟩ := Provisioner.launchedFrom_of_create hends
    obtain ⟨named, bare, rfl⟩ := hfrom.annotated
    exact ⟨c, hfrom, named, checksAgainst_of_annotated named⟩
  · intro claim c
    refine ⟨fun key hhash hversion => ?_, rfl⟩
    rw [NodeClaim.get?_annotate, if_neg hversion, if_neg hhash]

section Stocked

/-- The node class after somebody has given it a key pair. -/
def changedClass : NodeClass :=
  { reconciledClass with spec := { reconciledClass.spec with sshKeyPair := some "ops" } }

theorem changedClass_separated : HashSeparates reconciledClass.spec changedClass.spec := fun h =>
  absurd h (by decide +kernel)

/-- A state in which the changed node class is stored. -/
def changedState : FleetState :=
  .initial { worldOf stockedCloud with nodeClasses := Table.empty.insert "class" changedClass }

/-- A check of the claim that the stocked launch has yielded reports drift where the changed node
class is stored. -/
theorem drift_follows_the_stored_class_when_changed :
    ∃ (events : List (Event fleetWorld)) (d : Config fleetWorld Outcome) (created : NodeClaim),
      Steps (Config.start (.initial (worldOf stockedCloud)) (stockedParties.map Party.program))
        events d ∧
      d.routines[2]? = some (.done (.served (.create stockedClaim) (.ok created))) ∧
      LaunchedFrom stockedProvisioner stockedClaim reconciledClass created (traceOf 2 events) ∧
      ∃ (check : List (Event fleetWorld)) (last : Config fleetWorld Outcome),
        Steps (Config.start changedState
          [(Party.serves stockedProvisioner (.driftReason created)).program]) check last ∧
        last.routines[0]? = some (.done (.served (.driftReason created) (some drifted))) := by
  obtain ⟨events, d, created, steps, -, h⟩ := exists_stocked_history
  obtain ⟨stored, href, hstored⟩ := h.stored
  obtain ⟨c, hfrom, -, checks⟩ :=
    drift_follows_the_stored_class.1 _ stockedParties events d 2 stockedProvisioner stockedClaim
      created steps h.launch h.launched
  have ⟨name, rest, hnamed, htrace, _⟩ := hfrom
  obtain rfl := Option.some.inj (hnamed.symm.trans href)
  obtain ⟨turn, hturn, hexchange⟩ := exists_turn_of_mem (show _ ∈ traceOf 2 events from
    htrace ▸ List.mem_cons_self)
  obtain ⟨hrequest, hread⟩ := Event.stored_of_exchange hexchange
  obtain rfl := Option.some.inj ((hstored turn hturn hrequest).symm.trans hread)
  refine ⟨events, d, created, steps, h.launched, hfrom, ?_⟩
  rcases checks.ends changedState [.serves stockedProvisioner (.driftReason created)] [] _
      stockedProvisioner 0 (.refl _) rfl with ⟨reason, hdone⟩ | ⟨last, reason, check, hdone⟩
  · obtain ⟨e, hturns, -⟩ := checks.reports changedState _ [] _ stockedProvisioner 0 reason
      (.refl _) rfl hdone
    cases hturns
  · obtain ⟨e, hturns, hreports⟩ := checks.reports changedState _ _ last stockedProvisioner 0
      reason check rfl hdone
    obtain rfl := (List.cons.inj hturns).1
    have hchanged := congrArg (fun w : WorldState => w.nodeClasses.get? "class")
      (Config.world_start changedState
        [(Party.serves stockedProvisioner (.driftReason created)).program])
    have hreport := hreports fun other hother => by
      obtain rfl : changedClass = other := Option.some.inj (hchanged.symm.trans hother)
      exact changedClass_separated
    obtain rfl := hreport.drifted_iff.2
      ⟨changedClass, hchanged, rfl, fun alike => by cases alike.sshKeyPair⟩
    exact ⟨_, last, check, hdone⟩

end Stocked

end NodeFleet
