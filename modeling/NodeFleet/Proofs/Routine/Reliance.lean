import NodeFleet.Proofs.Routine.Cached
import NodeFleet.Proofs.Routine.Completion

/-!
# Routines that rely on what is stored

A reliance says which values may be stored under which keys of the caches and which results the
actions have. A routine keeps it when it stores only such values, given that it finds only such
values and results. Where all routines keep a reliance and the actions have the results, the caches
never hold anything else, whatever expires, is purged or is fetched again and in whatever order the
routines take their turns; so every routine yields what it would yield if it relied on that alone.
-/

namespace NodeFleet

variable {σ : Signature} {W : World σ} {α β ε : Type}

/-- Which values may be stored and which results actions have. -/
structure Reliance (σ : Signature) where
  stores : (cache : σ.CacheName) → String → σ.Value cache → Prop
  results : (action : σ.Action) → σ.Result action → Prop

namespace Reliance

variable (R : Reliance σ)

/-- A question that stores nothing but what may be stored. -/
def Permits : Request σ → Prop
  | .write cache key value _ => R.stores cache key value
  | _ => True

/-- An exchange whose answer may be relied on. -/
def Admits : Exchange σ → Prop
  | ⟨.read cache key, found⟩ => ∀ value, found = some value → R.stores cache key value
  | ⟨.act action, result⟩ => R.results action result
  | _ => True

theorem permits_of_edits?_eq_none {request : Request σ} (h : request.edits? = none) :
    R.Permits request := by
  cases request with
  | write cache key value ttl => cases h
  | _ => trivial

/-- Everything that is stored may be, expired or not. -/
def Holds (s : Shared σ W) : Prop :=
  ∀ cache key entry, (s.caches cache).entries.get? key = some entry → R.stores cache key entry.value

variable {R}

theorem holds_of_empty {s : Shared σ W} (h : ∀ cache, s.caches cache = .empty) : R.Holds s := by
  intro cache key entry hentry
  rw [h cache] at hentry
  cases hentry

theorem Holds.congr {s t : Shared σ W} (h : R.Holds s) (hcaches : t.caches = s.caches) :
    R.Holds t := by
  rw [Holds, hcaches]
  exact h

variable [DecidableEq σ.CacheName]

/-- A permitted question leaves stored only what may be. -/
theorem Holds.answer {s : Shared σ W} (h : R.Holds s) {i : Nat} {request : Request σ}
    (permitted : R.Permits request) : R.Holds (s.answer i request).2 := by
  intro cache key entry hentry
  have hedits := s.edits_answer i request cache
  generalize (s.answer i request).2.caches cache = edited at hedits hentry
  cases hedits with
  | write k value ttl =>
      rw [Cache.entry_set] at hentry
      split at hentry
      next hkey =>
        cases hentry
        exact hkey ▸ permitted
      next => exact h cache key entry hentry
  | evict k =>
      rw [Cache.entry_delete] at hentry
      split at hentry
      next => cases hentry
      next => exact h cache key entry hentry
  | purge =>
      rw [Cache.entry_purge, Option.filter_eq_some_iff] at hentry
      exact h cache key entry hentry.1
  | none => exact h cache key entry hentry

/-- What a turn answers may be relied on if what is stored may be and so may the result of its
action. -/
theorem Holds.admits {s : Shared σ W} (h : R.Holds s) (i : Nat) (request : Request σ)
    (acts : ∀ action, request = .act action → R.results action (W.perform action s.world).1) :
    R.Admits ⟨request, (s.answer i request).1⟩ := by
  cases request with
  | read cache key =>
      intro value hvalue
      obtain ⟨entry, hentry, _, rfl⟩ := Cache.get?_eq_some_iff.1 hvalue
      exact h cache key entry hentry
  | act action => exact acts action rfl
  | _ => trivial

end Reliance

namespace Routine

variable {R : Reliance σ}

/-- Whatever is answered that may be relied on, the routine stores only what may be stored, and it
yields only what it may yield. -/
def Keeps (R : Reliance σ) (yields : α → Prop) : Routine σ α → Prop
  | .done a => yields a
  | .ask request next =>
      R.Permits request ∧ ∀ answer, R.Admits ⟨request, answer⟩ → Keeps R yields (next answer)

variable {yields : α → Prop}

theorem Keeps.bind {p : Routine σ α} {f : α → Routine σ β} {results : β → Prop}
    (hp : Keeps R yields p) (hf : ∀ a, yields a → Keeps R results (f a)) :
    Keeps R results (p >>= f) := by
  induction p with
  | done a => exact hf a hp
  | ask request next ih =>
      exact ⟨hp.1, fun answer hanswer => ih answer (hp.2 answer hanswer)⟩

theorem Keeps.mono {p : Routine σ α} {results : α → Prop} (hp : Keeps R yields p)
    (hyields : ∀ a, yields a → results a) : Keeps R results p := by
  induction p with
  | done a => exact hyields a hp
  | ask request next ih =>
      exact ⟨hp.1, fun answer hanswer => ih answer (hp.2 answer hanswer)⟩

/-- A routine that asks only what is permitted keeps the reliance without relying on it. -/
theorem keeps_of_obeys {p : Routine σ α} {asks : Request σ → Prop} (hp : Obeys asks yields p)
    (h : ∀ request, asks request → R.Permits request) : Keeps R yields p := by
  induction p with
  | done a => exact hp
  | ask request next ih => exact ⟨h _ hp.1, fun answer _ => ih answer (hp.2 answer)⟩

/-- A routine that keeps a reliance asks only what is permitted and goes on keeping it, as long as
it is answered what may be relied on. -/
theorem Keeps.path {p q : Routine σ α} {trace : List (Exchange σ)} (hp : Keeps R yields p)
    (h : Path p trace q) (admitted : ∀ x ∈ trace, R.Admits x) : Keeps R yields q := by
  induction h with
  | refl => exact hp
  | ask answer _ ih =>
      obtain ⟨hfirst, hrest⟩ := List.forall_mem_cons.1 admitted
      exact ih (hp.2 answer hfirst) hrest

theorem Keeps.ends {p : Routine σ α} {trace : List (Exchange σ)} {a : α} (hp : Keeps R yields p)
    (h : Ends p trace a) (admitted : ∀ x ∈ trace, R.Admits x) : yields a :=
  hp.path h admitted

/-- A routine that keeps a reliance yields what it may, if it does wherever it is answered what may be
relied on. -/
theorem keeps_of_ends {p : Routine σ α} (hp : Keeps R (fun _ => True) p)
    (h : ∀ trace a, Ends p trace a → (∀ x ∈ trace, R.Admits x) → yields a) : Keeps R yields p := by
  induction p with
  | done a => exact h [] a (.refl _) fun x hx => (nomatch hx)
  | ask request next ih =>
      refine ⟨hp.1, fun answer hanswer => ih answer (hp.2 answer hanswer) ?_⟩
      intro trace a hends admitted
      exact h _ a (.ask answer hends) (List.forall_mem_cons.2 ⟨hanswer, admitted⟩)

theorem keeps_run_lift {p : Routine σ α} {results : Except ε α → Prop}
    (h : Keeps R (fun a => results (.ok a)) p) :
    Keeps R results (liftM p : ExceptT ε (Routine σ) α).run :=
  Keeps.bind h fun _ => id

theorem Keeps.run_bind {x : ExceptT ε (Routine σ) α} {f : α → ExceptT ε (Routine σ) β}
    {middle : Except ε α → Prop} {results : Except ε β → Prop} (hx : Keeps R middle x.run)
    (herror : ∀ e, middle (.error e) → results (.error e))
    (hf : ∀ a, middle (.ok a) → Keeps R results (f a).run) :
    Keeps R results (x >>= f).run := by
  rw [ExceptT.run_bind]
  apply hx.bind
  intro r hr
  cases r with
  | error e => exact herror e hr
  | ok a => exact hf a hr

variable {cache : σ.CacheName} {key : String} {ttl : Nat}
  {fetch : Routine σ (Except ε (σ.Value cache))} {results : Except ε (σ.Value cache) → Prop}

/-- A read through a cache yields what may be stored or what its fetch yields, if the fetch yields
no value that may not be stored. -/
theorem keeps_cached (hfetch : Keeps R results fetch)
    (hstores : ∀ value, results (.ok value) ↔ R.stores cache key value) :
    Keeps R results (cached cache key ttl fetch) := by
  refine ⟨trivial, fun first hfirst => ?_⟩
  cases first with
  | some value => exact (hstores value).2 (hfirst value rfl)
  | none =>
      refine ⟨trivial, fun _ _ => ⟨trivial, fun second hsecond => ?_⟩⟩
      cases second with
      | some value => exact ⟨trivial, fun _ _ => (hstores value).2 (hsecond value rfl)⟩
      | none =>
          change Keeps R results (fetch >>= store cache key ttl)
          refine hfetch.bind fun result hresult => ?_
          cases result with
          | error e => exact ⟨trivial, fun _ _ => hresult⟩
          | ok value =>
              exact ⟨(hstores value).1 hresult, fun _ _ => ⟨trivial, fun _ _ => hresult⟩⟩

end Routine

section History

variable [DecidableEq σ.CacheName] {R : Reliance σ} {yields : Nat → α → Prop} {c d : Config W α}
  {events : List (Event W)}

/-- The actions of a turn have the results that are relied on. -/
def Event.Yields (R : Reliance σ) (e : Event W) : Prop :=
  ∀ action, e.request = .act action → R.results action (W.perform action e.before.world).1

/-- Along a history in which some routines keep a reliance and the others store only what may be
stored, nothing else is stored, every answer to those that rely may be relied on, and what is left of
them keeps the reliance. -/
theorem Steps.keepsAmong {relies : Nat → Prop} (h : Steps c events d) (holds : R.Holds c.shared)
    (keeps : ∀ (i : Nat) (p : Routine σ α), relies i → c.routines[i]? = some p →
      p.Keeps R (yields i))
    (others : ∀ e ∈ events, ¬ relies e.routine → R.Permits e.request)
    (acts : ∀ e ∈ events, relies e.routine → e.Yields R) :
    R.Holds d.shared ∧
      (∀ (i : Nat) (q : Routine σ α), relies i → d.routines[i]? = some q →
        q.Keeps R (yields i)) ∧
      ∀ e ∈ events, relies e.routine → R.Admits e.exchange := by
  induction h with
  | refl => exact ⟨holds, keeps, fun e he => (nomatch he)⟩
  | @turn d events i request next steps found ready ih =>
      obtain ⟨hothers, hother⟩ := List.forall_mem_append.1 others
      obtain ⟨hacts, hact⟩ := List.forall_mem_append.1 acts
      obtain ⟨hholds, hkeeps, hadmits⟩ := ih hothers hacts
      have hadmitted (hi : relies i) : R.Admits ⟨request, (d.shared.answer i request).1⟩ :=
        hholds.admits i request (hact _ List.mem_cons_self hi)
      have hpermitted : R.Permits request := by
        by_cases hi : relies i
        · exact (hkeeps i _ hi found).1
        · exact hother _ List.mem_cons_self hi
      refine ⟨?_, fun j q hj hq => ?_, ?_⟩
      · exact (hholds.answer hpermitted).congr (Config.caches_turn d i request next)
      · by_cases hij : i = j
        · subst hij
          have hlt : i < d.routines.length := (List.getElem?_eq_some_iff.1 found).1
          rw [Config.turn, List.getElem?_set_self hlt] at hq
          cases hq
          exact (hkeeps i _ hj found).2 _ (hadmitted hj)
        · rw [Config.turn, List.getElem?_set_ne hij] at hq
          exact hkeeps j q hj hq
      · exact List.forall_mem_append.2 ⟨hadmits, List.forall_mem_singleton.2 hadmitted⟩
  | wait _ _ ih => exact ih others acts

/-- Along a history in which only what may be stored is, nothing else gets stored. -/
theorem Steps.holds (h : Steps c events d) (holds : R.Holds c.shared)
    (permits : ∀ e ∈ events, R.Permits e.request) : R.Holds d.shared := by
  have hnone (i : Nat) (p : Routine σ α) (hfalse : False) (_ : c.routines[i]? = some p) :
      p.Keeps R fun _ => True := hfalse.elim
  exact (h.keepsAmong holds hnone (fun e he _ => permits e he) fun _ _ h => h.elim).1

/-- Along a history of routines that keep a reliance, only what may be stored is, every answer may be
relied on, and what is left of every routine keeps the reliance. -/
theorem Steps.keeps (h : Steps c events d) (holds : R.Holds c.shared)
    (keeps : ∀ (i : Nat) (p : Routine σ α), c.routines[i]? = some p → p.Keeps R (yields i))
    (acts : ∀ e ∈ events, e.Yields R) :
    R.Holds d.shared ∧
      (∀ (i : Nat) (q : Routine σ α), d.routines[i]? = some q → q.Keeps R (yields i)) ∧
      ∀ e ∈ events, R.Admits e.exchange := by
  obtain ⟨hholds, hkeeps, hadmits⟩ := h.keepsAmong holds (fun i p (_ : True) hp => keeps i p hp)
    (fun e _ hnot => absurd trivial hnot) fun e he _ => acts e he
  exact ⟨hholds, fun i q hq => hkeeps i q trivial hq, fun e he => hadmits e he trivial⟩

end History

end NodeFleet
