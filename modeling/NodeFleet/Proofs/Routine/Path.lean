import NodeFleet.Routine.Basic

/-!
# Paths of a routine

A path records what one routine asked and what it was answered, whoever gave the answers and
whatever happened in between. A statement about all paths of a routine therefore holds under every
schedule. Paths of a composed routine are cut where its first part is done.
-/

namespace NodeFleet

variable {σ : Signature} {α β ε : Type}

/-- A question with its answer. -/
structure Exchange (σ : Signature) where
  request : Request σ
  answer : request.Answer

namespace Routine

/-- A routine goes through the exchanges of a trace and then goes on as another routine. -/
inductive Path : Routine σ α → List (Exchange σ) → Routine σ α → Prop
  | refl (p : Routine σ α) : Path p [] p
  | ask {request : Request σ} {next : request.Answer → Routine σ α} (answer : request.Answer)
      {trace : List (Exchange σ)} {q : Routine σ α} (tail : Path (next answer) trace q) :
      Path (.ask request next) (⟨request, answer⟩ :: trace) q

/-- A routine goes through a trace and is done with a result. -/
def Ends (p : Routine σ α) (trace : List (Exchange σ)) (a : α) : Prop :=
  Path p trace (.done a)

section Path

theorem path_done_iff {a : α} {trace : List (Exchange σ)} {q : Routine σ α} :
    Path (.done a) trace q ↔ trace = [] ∧ q = .done a := by
  constructor
  · rintro ⟨⟩
    exact ⟨rfl, rfl⟩
  · rintro ⟨rfl, rfl⟩
    exact .refl _

theorem path_ask_iff {request : Request σ} {next : request.Answer → Routine σ α}
    {trace : List (Exchange σ)} {q : Routine σ α} :
    Path (.ask request next) trace q ↔
      (trace = [] ∧ q = .ask request next) ∨
        ∃ answer tail, trace = ⟨request, answer⟩ :: tail ∧ Path (next answer) tail q := by
  constructor
  · intro h
    cases h with
    | refl => exact .inl ⟨rfl, rfl⟩
    | ask answer tail => exact .inr ⟨answer, _, rfl, tail⟩
  · rintro (⟨rfl, rfl⟩ | ⟨answer, tail, rfl, h⟩)
    · exact .refl _
    · exact .ask answer h

theorem Path.eq_of_nil {p q : Routine σ α} (h : Path p [] q) : q = p := by
  cases h
  rfl

theorem Path.append {p q r : Routine σ α} {first second : List (Exchange σ)}
    (hp : Path p first q) (hq : Path q second r) : Path p (first ++ second) r := by
  induction hp with
  | refl => exact hq
  | ask answer _ ih => exact .ask answer (ih hq)

theorem Path.concat {p : Routine σ α} {trace : List (Exchange σ)} {request : Request σ}
    {next : request.Answer → Routine σ α} (h : Path p trace (.ask request next))
    (answer : request.Answer) : Path p (trace ++ [⟨request, answer⟩]) (next answer) :=
  h.append (.ask answer (.refl _))

theorem Path.bind {p q : Routine σ α} {trace : List (Exchange σ)} (h : Path p trace q)
    (f : α → Routine σ β) : Path (p >>= f) trace (q >>= f) := by
  induction h with
  | refl => exact .refl _
  | ask answer _ ih => exact .ask answer ih

/-- A path of a composed routine stays in the first part or goes on into the second. -/
theorem path_bind_iff {p : Routine σ α} {f : α → Routine σ β} {trace : List (Exchange σ)}
    {q : Routine σ β} :
    Path (p >>= f) trace q ↔
      (∃ r, Path p trace r ∧ q = r >>= f) ∨
        ∃ a first second, trace = first ++ second ∧ Ends p first a ∧ Path (f a) second q := by
  constructor
  · intro h
    induction p generalizing trace with
    | done a => exact .inr ⟨a, [], trace, rfl, .refl _, h⟩
    | ask request next ih =>
        rcases path_ask_iff.1 h with ⟨rfl, rfl⟩ | ⟨answer, tail, rfl, htail⟩
        · exact .inl ⟨_, .refl _, rfl⟩
        · rcases ih answer htail with ⟨r, hr, rfl⟩ | ⟨a, first, second, rfl, hfirst, hsecond⟩
          · exact .inl ⟨r, .ask answer hr, rfl⟩
          · exact .inr ⟨a, _, second, rfl, .ask answer hfirst, hsecond⟩
  · rintro (⟨r, hr, rfl⟩ | ⟨a, first, second, rfl, hfirst, hsecond⟩)
    · exact hr.bind f
    · exact (Path.bind hfirst f).append hsecond

end Path

section Ends

@[simp] theorem ends_done {a b : α} {trace : List (Exchange σ)} :
    Ends (.done a : Routine σ α) trace b ↔ trace = [] ∧ b = a := by
  rw [Ends, path_done_iff, Routine.done.injEq]

@[simp] theorem ends_pure {a b : α} {trace : List (Exchange σ)} :
    Ends (pure a : Routine σ α) trace b ↔ trace = [] ∧ b = a :=
  ends_done

theorem ends_ask {request : Request σ} {next : request.Answer → Routine σ α}
    {trace : List (Exchange σ)} {b : α} :
    Ends (.ask request next) trace b ↔
      ∃ answer tail, trace = ⟨request, answer⟩ :: tail ∧ Ends (next answer) tail b := by
  rw [Ends, path_ask_iff]
  simp [Ends]

@[simp] theorem ends_request {request : Request σ} {trace : List (Exchange σ)}
    {b : request.Answer} :
    Ends (Routine.request request) trace b ↔ trace = [⟨request, b⟩] := by
  rw [Routine.request, ends_ask]
  constructor
  · rintro ⟨answer, tail, rfl, h⟩
    obtain ⟨rfl, rfl⟩ := ends_done.1 h
    rfl
  · rintro rfl
    exact ⟨b, [], rfl, ends_done.2 ⟨rfl, rfl⟩⟩

theorem ends_bind {p : Routine σ α} {f : α → Routine σ β} {trace : List (Exchange σ)} {b : β} :
    Ends (p >>= f) trace b ↔
      ∃ a first second, trace = first ++ second ∧ Ends p first a ∧ Ends (f a) second b := by
  rw [Ends, path_bind_iff]
  constructor
  · rintro (⟨r, hr, hdone⟩ | h)
    · cases r with
      | done a =>
          rw [done_bind] at hdone
          refine ⟨a, trace, [], (List.append_nil _).symm, hr, ?_⟩
          rw [← hdone]
          exact .refl _
      | ask request next => cases hdone
    · exact h
  · exact .inr

theorem ends_request_bind {request : Request σ} {f : request.Answer → Routine σ β}
    {trace : List (Exchange σ)} {b : β} :
    Ends (Routine.request request >>= f) trace b ↔
      ∃ answer tail, trace = ⟨request, answer⟩ :: tail ∧ Ends (f answer) tail b :=
  ends_ask

theorem ends_map {p : Routine σ α} {f : α → β} {trace : List (Exchange σ)} {b : β} :
    Ends (f <$> p) trace b ↔ ∃ a, Ends p trace a ∧ b = f a := by
  rw [map_eq_pure_bind, ends_bind]
  constructor
  · rintro ⟨a, first, second, rfl, hfirst, hsecond⟩
    obtain ⟨rfl, rfl⟩ := ends_pure.1 hsecond
    exact ⟨a, (List.append_nil first).symm ▸ hfirst, rfl⟩
  · rintro ⟨a, h, rfl⟩
    exact ⟨a, trace, [], (List.append_nil _).symm, h, ends_pure.2 ⟨rfl, rfl⟩⟩

@[simp] theorem ends_run_lift {p : Routine σ α} {trace : List (Exchange σ)} {r : Except ε α} :
    Ends (liftM p : ExceptT ε (Routine σ) α).run trace r ↔ ∃ a, Ends p trace a ∧ r = .ok a :=
  ends_map

@[simp] theorem ends_run_pure {a : α} {trace : List (Exchange σ)} {r : Except ε α} :
    Ends (pure a : ExceptT ε (Routine σ) α).run trace r ↔ trace = [] ∧ r = .ok a :=
  ends_done

@[simp] theorem ends_run_throw {e : ε} {trace : List (Exchange σ)} {r : Except ε α} :
    Ends (throw e : ExceptT ε (Routine σ) α).run trace r ↔ trace = [] ∧ r = .error e :=
  ends_done

/-- Where an attempt is composed, the first part fails or the second one goes on. -/
theorem ends_run_bind {x : ExceptT ε (Routine σ) α} {f : α → ExceptT ε (Routine σ) β}
    {trace : List (Exchange σ)} {r : Except ε β} :
    Ends (x >>= f).run trace r ↔
      (∃ e, r = .error e ∧ Ends x.run trace (.error e)) ∨
        ∃ a first second, trace = first ++ second ∧ Ends x.run first (.ok a) ∧
          Ends (f a).run second r := by
  rw [ExceptT.run_bind, ends_bind]
  constructor
  · rintro ⟨(e | a), first, second, rfl, hfirst, hsecond⟩
    · obtain ⟨rfl, rfl⟩ := ends_pure.1 hsecond
      exact .inl ⟨e, rfl, (List.append_nil first).symm ▸ hfirst⟩
    · exact .inr ⟨a, first, second, rfl, hfirst, hsecond⟩
  · rintro (⟨e, rfl, h⟩ | ⟨a, first, second, rfl, hfirst, hsecond⟩)
    · exact ⟨.error e, trace, [], (List.append_nil _).symm, h, ends_pure.2 ⟨rfl, rfl⟩⟩
    · exact ⟨.ok a, first, second, rfl, hfirst, hsecond⟩

/-- An attempt that yields a value has gone on from a value. -/
theorem ends_run_bind_ok {x : ExceptT ε (Routine σ) α} {f : α → ExceptT ε (Routine σ) β}
    {trace : List (Exchange σ)} {b : β} (h : Ends (x >>= f).run trace (.ok b)) :
    ∃ a first second, trace = first ++ second ∧ Ends x.run first (.ok a) ∧
      Ends (f a).run second (.ok b) := by
  rcases ends_run_bind.1 h with ⟨e, he, _⟩ | h
  · cases he
  · exact h

theorem ends_lift_bind {p : Routine σ α} {f : α → ExceptT ε (Routine σ) β}
    {trace : List (Exchange σ)} {r : Except ε β} :
    Ends ((liftM p : ExceptT ε (Routine σ) α) >>= f).run trace r ↔
      ∃ a first second, trace = first ++ second ∧ Ends p first a ∧ Ends (f a).run second r := by
  rw [ends_run_bind]
  constructor
  · rintro (⟨e, -, h⟩ | ⟨a, first, second, rfl, hfirst, hsecond⟩)
    · obtain ⟨_, _, he⟩ := ends_run_lift.1 h
      cases he
    · obtain ⟨b, hb, hab⟩ := ends_run_lift.1 hfirst
      cases hab
      exact ⟨a, first, second, rfl, hb, hsecond⟩
  · rintro ⟨a, first, second, rfl, hfirst, hsecond⟩
    exact .inr ⟨a, first, second, rfl, ends_run_lift.2 ⟨a, hfirst, rfl⟩, hsecond⟩

theorem ends_lift_request_bind {request : Request σ}
    {f : request.Answer → ExceptT ε (Routine σ) β} {trace : List (Exchange σ)} {r : Except ε β} :
    Ends ((liftM (Routine.request request) : ExceptT ε (Routine σ) request.Answer) >>= f).run
        trace r ↔
      ∃ answer rest, trace = ⟨request, answer⟩ :: rest ∧ Ends (f answer).run rest r := by
  rw [ends_lift_bind]
  constructor
  · rintro ⟨answer, first, rest, rfl, hfirst, hrest⟩
    obtain rfl := ends_request.1 hfirst
    exact ⟨answer, rest, rfl, hrest⟩
  · rintro ⟨answer, rest, rfl, hrest⟩
    exact ⟨answer, _, rest, rfl, ends_request.2 rfl, hrest⟩

/-- Whatever a routine went through, it may go on until it is done, if every question has an
answer. -/
theorem Path.exists_ends [answered : ∀ request : Request σ, Nonempty request.Answer]
    {p q : Routine σ α} {trace : List (Exchange σ)} (h : Path p trace q) :
    ∃ rest a, Ends p (trace ++ rest) a := by
  suffices hq : ∃ rest a, Ends q rest a by
    obtain ⟨rest, a, hrest⟩ := hq
    exact ⟨rest, a, h.append hrest⟩
  clear h
  induction q with
  | done a => exact ⟨[], a, .refl _⟩
  | ask request next ih =>
      obtain ⟨answer⟩ := answered request
      obtain ⟨rest, a, hrest⟩ := ih answer
      exact ⟨_, a, .ask answer hrest⟩

end Ends

section Obeys

/-- Whatever is answered, the routine asks only what it may ask and yields only what it may
yield. -/
def Obeys (asks : Request σ → Prop) (yields : α → Prop) : Routine σ α → Prop
  | .done a => yields a
  | .ask request next => asks request ∧ ∀ answer, Obeys asks yields (next answer)

variable {asks : Request σ → Prop} {yields : α → Prop}

theorem Obeys.bind {p : Routine σ α} {f : α → Routine σ β} {results : β → Prop}
    (hp : Obeys asks yields p) (hf : ∀ a, yields a → Obeys asks results (f a)) :
    Obeys asks results (p >>= f) := by
  induction p with
  | done a => exact hf a hp
  | ask request next ih => exact ⟨hp.1, fun answer => ih answer (hp.2 answer)⟩

theorem Obeys.mono {p : Routine σ α} {may : Request σ → Prop} {results : α → Prop}
    (hp : Obeys asks yields p) (hasks : ∀ request, asks request → may request)
    (hyields : ∀ a, yields a → results a) : Obeys may results p := by
  induction p with
  | done a => exact hyields a hp
  | ask request next ih =>
      exact ⟨hasks request hp.1, fun answer => ih answer (hp.2 answer)⟩

theorem Obeys.map {p : Routine σ α} (hp : Obeys asks (fun _ => True) p) (f : α → β) :
    Obeys asks (fun _ => True) (f <$> p) := by
  rw [map_eq_pure_bind]
  exact hp.bind fun _ _ => trivial

theorem Obeys.path {p q : Routine σ α} {trace : List (Exchange σ)} (hp : Obeys asks yields p)
    (h : Path p trace q) : (∀ x ∈ trace, asks x.request) ∧ Obeys asks yields q := by
  induction h with
  | refl => exact ⟨fun x hx => (nomatch hx), hp⟩
  | ask answer _ ih =>
      obtain ⟨htail, hq⟩ := ih (hp.2 answer)
      refine ⟨fun x hx => ?_, hq⟩
      rcases List.mem_cons.1 hx with rfl | hx
      · exact hp.1
      · exact htail x hx

theorem Obeys.ends {p : Routine σ α} {trace : List (Exchange σ)} {a : α}
    (hp : Obeys asks yields p) (h : Ends p trace a) :
    (∀ x ∈ trace, asks x.request) ∧ yields a :=
  hp.path h

theorem obeys_run_lift {p : Routine σ α} {results : Except ε α → Prop}
    (h : Obeys asks (fun a => results (.ok a)) p) :
    Obeys asks results (liftM p : ExceptT ε (Routine σ) α).run :=
  Obeys.bind h fun _ => id

/-- An attempt whose error may be yielded goes on only from what it may yield. -/
theorem Obeys.run_bind {x : ExceptT ε (Routine σ) α} {f : α → ExceptT ε (Routine σ) β}
    {middle : Except ε α → Prop} {results : Except ε β → Prop} (hx : Obeys asks middle x.run)
    (herror : ∀ e, middle (.error e) → results (.error e))
    (hf : ∀ a, middle (.ok a) → Obeys asks results (f a).run) :
    Obeys asks results (x >>= f).run := by
  rw [ExceptT.run_bind]
  apply hx.bind
  intro r hr
  cases r with
  | error e => exact herror e hr
  | ok a => exact hf a hr

/-- A question that the first part of a composed routine may not ask is asked by the second one. -/
theorem Path.of_bind_right {p : Routine σ α} {f : α → Routine σ β} {trace : List (Exchange σ)}
    {request : Request σ} {next : request.Answer → Routine σ β}
    (h : Path (p >>= f) trace (.ask request next)) (hp : Obeys asks yields p)
    (other : ¬asks request) :
    ∃ a first second, trace = first ++ second ∧ Ends p first a ∧
      Path (f a) second (.ask request next) := by
  rcases path_bind_iff.1 h with ⟨r, hr, hnext⟩ | hsecond
  · cases r with
    | done a => exact ⟨a, trace, [], (List.append_nil _).symm, hr, hnext ▸ .refl _⟩
    | ask asked rest =>
        cases hnext
        exact absurd (hp.path hr).2.1 other
  · exact hsecond

/-- A question that the second part of a composed routine may not ask is asked by the first one. -/
theorem Path.of_bind_left {p : Routine σ α} {f : α → Routine σ β} {results : β → Prop}
    {trace : List (Exchange σ)} {request : Request σ} {next : request.Answer → Routine σ β}
    (h : Path (p >>= f) trace (.ask request next)) (hf : ∀ a, Obeys asks results (f a))
    (other : ¬asks request) :
    ∃ before : request.Answer → Routine σ α, Path p trace (.ask request before) ∧
      next = fun answer => before answer >>= f := by
  rcases path_bind_iff.1 h with ⟨r, hr, hnext⟩ | ⟨a, first, second, rfl, -, hsecond⟩
  · cases r with
    | done a =>
        have hask : Obeys asks results (.ask request next) := hnext ▸ hf a
        exact absurd hask.1 other
    | ask asked before =>
        cases hnext
        exact ⟨before, hr, rfl⟩
  · exact absurd ((hf a).path hsecond).2.1 other

end Obeys

end Routine

end NodeFleet
