import NodeFleet.Proofs.Fleet.Query

/-!
# Caching is transparent on a fixed stock

A fleet answers questions about a stock that does not change, one after another, at any times, while
listing operations fail as a whole and recover between the questions. Every answer is the one that
a fleet with empty caches gives next to a cloud without failures; every error is that of an operation
that fails during the question, or it is the error that such a fleet gives as well.
-/

namespace NodeFleet

open Program (CallsOnly)
open Fleet (listing)
open Cloud (Inventory Operation)

namespace Cloud.Inventory

theorem SameStores.trans {inv other third : Inventory} (h : inv.SameStores other)
    (h' : other.SameStores third) : inv.SameStores third := by
  rw [SameStores, h', h]

theorem SameStores.failures_eq {inv other : Inventory} (h : inv.SameStores other) :
    other.failures = inv.failures := by
  rw [h]

theorem SameStores.failure?_eq {inv other : Inventory} (h : inv.SameStores other) :
    other.failure? = inv.failure? := by
  funext op
  rw [failure?, h.failures_eq]
  rfl

/-- Listing the stock changes nothing. -/
theorem serve_of_listing (inv : Inventory) (today : Instant) {call : Call}
    (h : call.operation ∈ listing) : (inv.serve today call).2 = inv := by
  rw [serve]
  split
  · rfl
  · cases call with
    | listZones q => rfl
    | listNetworks q => rfl
    | listTemplates q => rfl
    | listOfferings q => rfl
    | listTags q => rfl
    | _ => simp [listing, Call.operation] at h

/-- Nothing but the listings of zones, networks, templates and service offerings fails as a whole. -/
def OnlyListingsFail (inv : Inventory) : Prop :=
  ∀ failure ∈ inv.failures,
    failure.1 ∈ [Operation.listZones, .listNetworks, .listTemplates, .listOfferings]

theorem OnlyListingsFail.listTags {inv : Inventory} (h : inv.OnlyListingsFail) :
    inv.failure? .listTags = none := by
  rw [failure?, List.lookup_eq_none_iff]
  intro failure hfailure
  have hop := h failure hfailure
  cases hfirst : failure.1 with
  | listTags => simp [hfirst] at hop
  | _ => rfl

end Cloud.Inventory

namespace Event

/-- A turn that calls listings only keeps the inventory. -/
theorem keepsStores_of_listing {e : Event fleetWorld} (h : CallsOnly listing e.request) :
    e.KeepsStores := by
  obtain ⟨i, s, request⟩ := e
  cases request with
  | act action =>
      cases action with
      | beginCall call =>
          refine s.world.beginCall_sameStores fun hop => ?_
          rw [CallsOnly, hop] at h
          simp [listing] at h
      | serveCall call =>
          rw [KeepsStores, after_served rfl, Inventory.serve_of_listing _ _ h]
          exact Inventory.sameStores_refl _
      | log subject state => exact h.elim
      | change f => exact h.elim
      | _ => exact s.world.cloud.sameStores_refl
  | _ => exact s.world.cloud.sameStores_refl

end Event

/-- Nothing stands in the way of questions about a stock: only listings fail, the caches hold what
fresh listings would yield, and the locks are free. -/
structure Stocked (inv : Inventory) (s : FleetState) : Prop where
  stock : inv.SameStock s.world.cloud
  listings : s.world.cloud.OnlyListingsFail
  holds : (listingReliance (fun _ => none) inv).Holds s
  free : ∀ cache, s.queues cache = []

namespace Stocked

variable {inv : Inventory} {s : FleetState}

/-- With empty caches nothing stands in the way. -/
theorem initial {w : WorldState} (stock : inv.SameStock w.cloud)
    (listings : w.cloud.OnlyListingsFail) : Stocked inv (.initial w) :=
  ⟨stock, listings, Reliance.holds_of_empty fun _ => rfl, fun _ => rfl⟩

variable (h : Stocked inv s) (f : Fleet) (q : Query) {events : List (Event fleetWorld)}
  {d : Config fleetWorld (Except ResourceError q.Answer)} {r : Except ResourceError q.Answer}

/-- The cloud keeps its inventory during a question. -/
theorem keepsStores (steps : Steps (Config.start s [(q.attempt f).run]) events d) :
    (∀ e ∈ events, s.world.cloud.SameStores e.before.world.cloud) ∧
      s.world.cloud.SameStores d.shared.world.cloud := by
  have hasks : ∀ e ∈ events, CallsOnly listing e.request :=
    steps.asks (List.forall_mem_singleton.2 (q.obeys_attempt f))
  have hstart : s.world.cloud.SameStores
      (Config.start s [(q.attempt f).run]).shared.world.cloud := by
    rw [Config.world_start s]
    exact s.world.cloud.sameStores_refl
  refine steps.invariant (P := fun w : WorldState => s.world.cloud.SameStores w.cloud) hstart
    fun e he hbefore => ?_
  exact hbefore.trans (Event.keepsStores_of_listing (hasks e he))

include h

/-- A question yields what the stock makes or the error of a failing operation, and nothing stands in
the way of the next one. -/
theorem answer (steps : Steps (Config.start s [(q.attempt f).run]) events d)
    (done : d.routines = [.done r]) :
    Stocked inv d.shared ∧ Faithful s.world.cloud.failure? (q.expected inv) r := by
  obtain ⟨hbefore, hafter⟩ := keepsStores f q steps
  have hacts : ∀ e ∈ events, e.Yields (listingReliance s.world.cloud.failure? inv) := by
    intro e he
    have hsame := hbefore e he
    rw [← hsame.failure?_eq]
    exact Event.yields_of_sameStock (hsame.sameStock h.stock)
  have hkeeps : ∀ (i : Nat) (p : Program (Except ResourceError q.Answer)),
      (Config.start s [(q.attempt f).run]).routines[i]? = some p →
        p.Keeps (listingReliance s.world.cloud.failure? inv)
          (Faithful s.world.cloud.failure? (q.expected inv)) := by
    intro i p hp
    obtain rfl := List.mem_singleton.1 (List.mem_of_getElem? hp)
    exact q.keeps_attempt f h.listings.listTags
  have hholds : (listingReliance s.world.cloud.failure? inv).Holds
      (Config.start s [(q.attempt f).run]).shared :=
    Reliance.Holds.congr h.holds (Config.caches_start s _)
  obtain ⟨holds, yields, -⟩ := steps.keeps hholds hkeeps hacts
  refine ⟨⟨?_, ?_, holds, ?_⟩, yields 0 (.done r) (by rw [done]; rfl)⟩
  · exact hafter.sameStock h.stock
  · rw [Inventory.OnlyListingsFail, hafter.failures_eq]
    exact h.listings
  · refine steps.free_of_done h.free (List.forall_mem_singleton.2 (q.orderly_attempt f)) ?_
    intro i p hp
    rw [done] at hp
    obtain rfl := List.mem_singleton.1 (List.mem_of_getElem? hp)
    exact ⟨r, rfl⟩

/-- Every question is answered. -/
theorem answers : ∃ events d r, Steps (Config.start s [(q.attempt f).run]) events d ∧
    s.run [(q.attempt f).run] = (d.shared, [some r]) ∧ d.routines = [.done r] := by
  obtain ⟨events, d, steps, hrun, hdone⟩ := run_completes s [(q.attempt f).run] h.free
    (List.forall_mem_singleton.2 (q.orderly_attempt f))
  obtain ⟨r, hr⟩ := hdone 0 (Nat.succ_pos _)
  obtain ⟨p, hp⟩ := List.length_eq_one_iff.1 steps.length_eq
  rw [hp] at hr
  obtain rfl := Option.some.inj hr
  exact ⟨events, d, r, steps, by rw [hrun, hp]; rfl, hp⟩

end Stocked

/-- What every fleet with empty caches answers to a question next to a cloud with a stock and without
failures. -/
def Query.AnsweredFresh (q : Query) (inv : Inventory) (r : Except ResourceError q.Answer) : Prop :=
  ∀ (g : Fleet) (w : WorldState), inv.SameStock w.cloud → w.cloud.failures = [] →
    ((Shared.initial w : FleetState).run [(q.attempt g).run]).2 = [some r]

theorem Query.answeredFresh_expected (q : Query) (inv : Inventory) :
    q.AnsweredFresh inv (q.expected inv) := by
  intro g w stock failures
  have stocked : Stocked inv (Shared.initial w : FleetState) :=
    .initial stock fun failure h => by
      rw [failures] at h
      cases h
  obtain ⟨events, d, r, steps, hrun, done⟩ := stocked.answers g q
  have hfaithful := (stocked.answer g q steps done).2
  have hnone : w.cloud.failure? = fun _ => none := by
    funext op
    rw [Inventory.failure?, failures]
    rfl
  change Faithful w.cloud.failure? _ r at hfaithful
  rw [hnone] at hfaithful
  rw [hrun, hfaithful.eq]

/-- The states between the questions that a fleet answers next to a cloud of a fixed stock. Caches
are empty at first. Between two questions time goes by, and the cloud may become any cloud of the
same stock in which nothing but listings fails. -/
inductive Browsed (f : Fleet) (inv : Inventory) : FleetState → Prop
  | fresh {w : WorldState} (stock : inv.SameStock w.cloud) (listings : w.cloud.OnlyListingsFail) :
      Browsed f inv (.initial w)
  | meanwhile {s : FleetState} (browsed : Browsed f inv s) (time : Nat) (w : WorldState)
      (later : s.clock ≤ time) (stock : inv.SameStock w.cloud)
      (listings : w.cloud.OnlyListingsFail) : Browsed f inv { s.moveClock time with world := w }
  | question {s : FleetState} {q : Query} {events : List (Event fleetWorld)}
      {d : Config fleetWorld (Except ResourceError q.Answer)} {r : Except ResourceError q.Answer}
      (browsed : Browsed f inv s) (steps : Steps (Config.start s [(q.attempt f).run]) events d)
      (done : d.routines = [.done r]) : Browsed f inv d.shared

theorem Browsed.stocked {f : Fleet} {inv : Inventory} {s : FleetState} (h : Browsed f inv s) :
    Stocked inv s := by
  induction h with
  | fresh stock listings => exact .initial stock listings
  | meanwhile _ time w later stock listings ih => exact ⟨stock, listings, ih.holds, ih.free⟩
  | question _ steps done ih => exact (ih.answer f _ steps done).1

/-- After any questions every question is answered, and the answer is the one that a fleet with empty
caches gives next to a cloud without failures; an error is that of an operation that fails as a whole
during the question, or it is the error that such a fleet gives. -/
theorem caching_is_transparent {f : Fleet} {inv : Inventory} {s : FleetState}
    (browsed : Browsed f inv s) (q : Query) :
    (∃ events d r, Steps (Config.start s [(q.attempt f).run]) events d ∧
      s.run [(q.attempt f).run] = (d.shared, [some r]) ∧ d.routines = [.done r]) ∧
    ∀ (events : List (Event fleetWorld)) (d : Config fleetWorld (Except ResourceError q.Answer))
      (r : Except ResourceError q.Answer),
      Steps (Config.start s [(q.attempt f).run]) events d → d.routines = [.done r] →
        (∀ a, r = .ok a → q.AnsweredFresh inv (.ok a)) ∧
          ∀ e, r = .error e →
            Injected s.world.cloud.failure? e ∨ q.AnsweredFresh inv (.error e) := by
  refine ⟨browsed.stocked.answers f q, fun events d r steps done => ?_⟩
  have hfaithful := (browsed.stocked.answer f q steps done).2
  have hfresh := q.answeredFresh_expected inv
  constructor
  · rintro a rfl
    rwa [faithful_ok.1 hfaithful] at hfresh
  · rintro e rfl
    rcases hfaithful.error with hexpected | hinjected
    · rw [hexpected] at hfresh
      exact .inr hfresh
    · exact .inl hinjected

/-- A cloud with one zone. -/
def oneZone : Inventory where
  zones := [{ id := "z1", name := "zone-1", allocationState := "Enabled" }]

/-- A fleet that keeps listings for a second. -/
def listingFleet : Fleet where
  owner := 0
  cacheTtl := 1000
  settings := { clusterName := "c1" }

/-- Empty caches next to this cloud while its zones cannot be listed. -/
def unlistedZone : FleetState :=
  .initial (worldOf (oneZone.fail .listZones "down"))

/-- While zones cannot be listed the question for them fails, and once they can it is answered as
next to a cloud without failures. -/
theorem caching_is_transparent_after_failure :
    (∃ e, Injected (oneZone.fail .listZones "down").failure? e ∨
      Query.AnsweredFresh .zones oneZone (.error e)) ∧
    ∃ zones, Query.AnsweredFresh .zones oneZone (.ok zones) := by
  have browsed : Browsed listingFleet oneZone unlistedZone :=
    .fresh ⟨rfl, rfl, rfl, rfl, rfl, rfl, rfl⟩ (List.forall_mem_singleton.2 List.mem_cons_self)
  have h := Steps.refl (Config.start unlistedZone [(Query.zones.attempt listingFleet).run])
  have h := h.turn (i := 0) rfl rfl
  have h := h.turn (i := 0) rfl rfl
  have h := h.turn (i := 0) rfl rfl
  have h := h.turn (i := 0) rfl rfl
  have h := h.turn (i := 0) rfl rfl
  have h := h.turn (i := 0) rfl rfl
  have h := h.turn (i := 0) rfl rfl
  have h := h.turn (i := 0) rfl rfl
  refine ⟨⟨_, ((caching_is_transparent browsed .zones).2 _ _ _ h rfl).2 _ rfl⟩, ?_⟩
  have recovered := (browsed.question h rfl).meanwhile 5 (worldOf oneZone) (Nat.zero_le 5)
    (.refl _) fun failure h => (nomatch h)
  obtain ⟨⟨events, d, r, steps, -, done⟩, answered⟩ := caching_is_transparent recovered .zones
  cases r with
  | ok zones => exact ⟨zones, (answered events d _ steps done).1 zones rfl⟩
  | error e =>
      rcases (answered events d _ steps done).2 e rfl with ⟨_, _, _, hfails, _⟩ | hfresh
      · cases hfails
      · have hrun := hfresh listingFleet (worldOf oneZone) (.refl _) rfl
        rw [Query.answeredFresh_expected .zones oneZone _ _ (.refl _) rfl] at hrun
        cases hrun

end NodeFleet
