import NodeFleet.Proofs.Routine.Prompt

/-!
# The pace of a routine in a prompt history

A routine arrives at a question and takes its turn later. In a prompt history the turn is taken at
the moment of the arrival, unless the question is a pause or about a lock that is held; after a pause
it is taken no later than when the pause ends or its token is cancelled. So the turns of a routine
that asks about no lock have moments that follow from its pauses alone, and every prompt history goes
on until it is done.
-/

namespace NodeFleet

variable {σ : Signature} {W : World σ} {α β : Type}

/-- In a history a token is cancelled at a moment or before. -/
def CancelledBy (c : Config W α) (events : List (Event W)) (token : Token) (moment : Nat) : Prop :=
  token ∈ c.shared.cancelled ∨ ∃ x ∈ events, x.request = .cancel token ∧ x.before.clock ≤ moment

/-- A question can be answered at a moment, as far as time and the cancellation of tokens are
concerned. -/
def Request.DueBy (cancelled : Token → Nat → Prop) (moment : Nat) : Request σ → Prop
  | .pause token time => time ≤ moment ∨ ∃ t, token = some t ∧ cancelled t moment
  | .acquire _ => False
  | _ => True

/-- A routine that is not done and whose question can be answered at a moment. -/
def Routine.DueBy (cancelled : Token → Nat → Prop) (moment : Nat) : Routine σ α → Prop
  | .done _ => False
  | .ask request _ => request.DueBy cancelled moment

section Weaken

variable {cancelled others : Token → Nat → Prop} {bound moment : Nat} {token : Token}
  {c : Config W α} {events : List (Event W)}

/-- A cancellation that is not earlier than a bound makes nothing due before it. -/
theorem Request.DueBy.weaken {request : Request σ} (h : request.DueBy others moment)
    (late : ∀ token moment, others token moment → cancelled token moment ∨ bound ≤ moment) :
    request.DueBy cancelled moment ∨ bound ≤ moment := by
  cases request with
  | pause token time =>
      rcases h with past | ⟨t, rfl, hcancelled⟩
      · exact .inl (.inl past)
      · exact (late t moment hcancelled).imp_left fun h => .inr ⟨t, rfl, h⟩
  | acquire cache => exact h.elim
  | _ => exact .inl trivial

theorem Routine.DueBy.weaken {q : Routine σ α} (h : q.DueBy others moment)
    (late : ∀ token moment, others token moment → cancelled token moment ∨ bound ≤ moment) :
    q.DueBy cancelled moment ∨ bound ≤ moment := by
  cases q with
  | done a => exact h.elim
  | ask request next => exact Request.DueBy.weaken h late

theorem CancelledBy.of_concat {x : Event W}
    (h : CancelledBy c (events ++ [x]) token moment) :
    CancelledBy c events token moment ∨ x.before.clock ≤ moment := by
  rcases h with hstart | ⟨y, hy, hcancel, hmoment⟩
  · exact .inl (.inl hstart)
  · rcases List.mem_append.1 hy with hy | hy
    · exact .inl (.inr ⟨y, hy, hcancel, hmoment⟩)
    · obtain rfl := List.mem_singleton.1 hy
      exact .inr hmoment

theorem CancelledBy.append (h : CancelledBy c events token moment)
    (later : List (Event W)) : CancelledBy c (events ++ later) token moment :=
  h.imp_right fun ⟨x, hx, hcancel⟩ => ⟨x, List.mem_append_left _ hx, hcancel⟩

theorem CancelledBy.mono {later : Nat} (h : CancelledBy c events token moment)
    (hle : moment ≤ later) : CancelledBy c events token later :=
  h.imp_right fun ⟨x, hx, hcancel, hmoment⟩ => ⟨x, hx, hcancel, Nat.le_trans hmoment hle⟩

end Weaken

variable [DecidableEq σ.CacheName]

/-- A turn is taken as soon as its question can be answered. A pause that has elapsed was not cut
short by then, and one that was cut short was cut short by a cancellation. -/
structure Event.Timely (cancelled : Token → Nat → Prop) (arrived : Nat) (e : Event W) : Prop where
  since : arrived ≤ e.before.clock
  prompt {moment : Nat} (later : arrived ≤ moment) (due : e.request.DueBy cancelled moment) :
    e.before.clock ≤ moment
  elapsed {token : Token} {time : Nat}
    (answered : e.exchange = ⟨.pause (some token) time, .elapsed⟩) :
    time ≤ e.before.clock ∧ ∀ moment, cancelled token moment → e.before.clock ≤ moment
  cut {token : Token} {time : Nat}
    (answered : e.exchange = ⟨.pause (some token) time, .cancelled⟩) :
    cancelled token e.before.clock

namespace Event.Timely

variable {cancelled : Token → Nat → Prop} {arrived moment time : Nat} {e : Event W} {token : Token}
  {wake : Wake}

/-- A question that is due when its routine arrives is answered then. -/
theorem clock_eq (h : e.Timely cancelled arrived) (due : e.request.DueBy cancelled arrived) :
    e.before.clock = arrived :=
  Nat.le_antisymm (h.prompt (Nat.le_refl _) due) h.since

/-- A pause is over when it ends or its token is cancelled. -/
theorem pause_le (h : e.Timely cancelled arrived)
    (answered : e.exchange = ⟨.pause (some token) time, wake⟩) (later : arrived ≤ moment)
    (past : cancelled token moment ∨ time ≤ moment) : e.before.clock ≤ moment := by
  refine h.prompt later ?_
  rw [show e.request = .pause (some token) time from congrArg Exchange.request answered]
  exact past.symm.imp_right fun hcancelled => ⟨token, rfl, hcancelled⟩

/-- A pause that elapses is over when it ends, if its routine has arrived by then. -/
theorem clock_of_elapsed (h : e.Timely cancelled arrived)
    (answered : e.exchange = ⟨.pause (some token) time, .elapsed⟩) :
    e.before.clock = max arrived time :=
  Nat.le_antisymm
    (h.pause_le answered (Nat.le_max_left _ _) (.inr (Nat.le_max_right _ _)))
    (Nat.max_le.2 ⟨h.since, (h.elapsed answered).1⟩)

end Event.Timely

/-- Who asks for the time is told that of the turn. -/
theorem Event.clock_of_now {e : Event W} {time : Nat} (h : e.exchange = ⟨.now, time⟩) :
    e.before.clock = time := by
  obtain ⟨i, s, request⟩ := e
  obtain ⟨rfl, hanswer⟩ := Exchange.mk.inj h
  exact eq_of_heq hanswer

namespace Routine

/-- A routine takes turns that suit the moments at which it arrives at them, and goes on as another
routine at which it has arrived at a moment. -/
inductive Paced (P : Nat → Event W → Prop) :
    Nat → Routine σ α → List (Event W) → Routine σ α → Nat → Prop
  | refl (arrived : Nat) (p : Routine σ α) : Paced P arrived p [] p arrived
  | turn {arrived left : Nat} {e : Event W} {next : e.request.Answer → Routine σ α}
      {turns : List (Event W)} {q : Routine σ α} (first : P arrived e)
      (rest : Paced P e.before.clock (next e.answer) turns q left) :
      Paced P arrived (.ask e.request next) (e :: turns) q left

section Paced

variable {P Q : Nat → Event W → Prop} {arrived left : Nat} {turns : List (Event W)}
  {p q : Routine σ α}

theorem Paced.mono (h : Paced P arrived p turns q left)
    (suits : ∀ arrived, ∀ e ∈ turns, P arrived e → Q arrived e) :
    Paced Q arrived p turns q left := by
  induction h with
  | refl => exact .refl _ _
  | turn first _ ih =>
      refine .turn (suits _ _ List.mem_cons_self first) (ih fun arrived e he => ?_)
      exact suits arrived e (List.mem_cons_of_mem _ he)

theorem Paced.concat {e : Event W} {next : e.request.Answer → Routine σ α}
    (h : Paced P arrived p turns (.ask e.request next) left) (last : P left e) :
    Paced P arrived p (turns ++ [e]) (next e.answer) e.before.clock := by
  generalize hq : Routine.ask e.request next = q at h
  induction h with
  | refl =>
      subst hq
      exact .turn last (.refl _ _)
  | turn first _ ih => exact .turn first (ih last hq)

/-- The moment at which a routine has arrived at its last is that of its last turn. -/
theorem Paced.left_eq (h : Paced P arrived p turns q left) :
    left = (turns.getLast?.map fun e => e.before.clock).getD arrived := by
  induction h with
  | refl => rfl
  | @turn _ _ e _ turns _ _ _ ih =>
      cases turns with
      | nil => exact ih
      | cons later rest =>
          rw [ih, List.getLast?_cons_cons]
          rfl

end Paced

/-- The exchanges of its turns are a path of a routine. -/
theorem Paced.path {P : Nat → Event W → Prop} {arrived left : Nat} {turns : List (Event W)}
    {p q : Routine σ α} (h : Paced P arrived p turns q left) :
    p.Path (turns.map Event.exchange) q := by
  induction h with
  | refl => exact .refl _
  | turn _ _ ih => exact .ask _ ih

/-- A routine that takes timely turns leaves no earlier than it arrived. -/
theorem Paced.since {cancelled : Token → Nat → Prop} {arrived left : Nat} {turns : List (Event W)}
    {p q : Routine σ α} (h : Paced (Event.Timely cancelled) arrived p turns q left) :
    arrived ≤ left := by
  induction h with
  | refl => exact Nat.le_refl _
  | turn first _ ih => exact Nat.le_trans first.since ih

section Finished

variable {P : Nat → Event W → Prop} {arrived left : Nat} {turns : List (Event W)} {a : α} {b : β}

theorem Paced.of_pure {a b : α} (h : Paced P arrived (pure a) turns (.done b) left) :
    turns = [] ∧ b = a ∧ left = arrived := by
  cases h
  exact ⟨rfl, rfl, rfl⟩

theorem Paced.of_request_bind {request : Request σ} {f : request.Answer → Routine σ β}
    (h : Paced P arrived (Routine.request request >>= f) turns (.done b) left) :
    ∃ e answer rest, turns = e :: rest ∧ e.exchange = ⟨request, answer⟩ ∧ P arrived e ∧
      Paced P e.before.clock (f answer) rest (.done b) left := by
  generalize hp : Routine.request request >>= f = p at h
  cases h with
  | refl => cases hp
  | @turn _ _ e next rest _ first later =>
      obtain ⟨i, s, asked⟩ := e
      cases hp
      exact ⟨_, _, rest, rfl, rfl, first, later⟩

/-- The turns of a composed routine are cut where its first part is done. -/
theorem Paced.of_bind {p : Routine σ α} {f : α → Routine σ β}
    (h : Paced P arrived (p >>= f) turns (.done b) left) :
    ∃ a own rest middle, turns = own ++ rest ∧ Paced P arrived p own (.done a) middle ∧
      Paced P middle (f a) rest (.done b) left := by
  induction p generalizing arrived turns with
  | done a => exact ⟨a, [], turns, arrived, rfl, .refl _ _, h⟩
  | ask request next ih =>
      obtain ⟨e, answer, rest, rfl, hexchange, first, later⟩ :=
        Paced.of_request_bind (f := fun answer => next answer >>= f) h
      obtain ⟨a, own, rest, middle, rfl, hown, hrest⟩ := ih answer later
      obtain ⟨i, s, asked⟩ := e
      obtain ⟨rfl, hanswer⟩ := Exchange.mk.inj hexchange
      obtain rfl := eq_of_heq hanswer
      exact ⟨a, _, rest, middle, rfl, .turn first hown, hrest⟩

/-- Where an attempt is composed, the first part fails or the second one goes on. -/
theorem Paced.of_run_bind {ε : Type} {x : ExceptT ε (Routine σ) α}
    {f : α → ExceptT ε (Routine σ) β} {result : Except ε β}
    (h : Paced P arrived (x >>= f).run turns (.done result) left) :
    (∃ e, result = .error e ∧ Paced P arrived x.run turns (.done (.error e)) left) ∨
      ∃ a own rest middle, turns = own ++ rest ∧ Paced P arrived x.run own (.done (.ok a)) middle ∧
        Paced P middle (f a).run rest (.done result) left := by
  rw [ExceptT.run_bind] at h
  obtain ⟨outcome, own, rest, middle, rfl, hown, hrest⟩ := Paced.of_bind h
  cases outcome with
  | error e =>
      obtain ⟨rfl, rfl, rfl⟩ := Paced.of_pure hrest
      exact .inl ⟨e, rfl, (List.append_nil own).symm ▸ hown⟩
  | ok a => exact .inr ⟨a, own, rest, middle, rfl, hown, hrest⟩

theorem Paced.of_lift_bind {ε : Type} {p : Routine σ α} {f : α → ExceptT ε (Routine σ) β}
    {result : Except ε β}
    (h : Paced P arrived ((liftM p : ExceptT ε (Routine σ) α) >>= f).run turns (.done result) left) :
    ∃ a own rest middle, turns = own ++ rest ∧ Paced P arrived p own (.done a) middle ∧
      Paced P middle (f a).run rest (.done result) left := by
  have hrun : ((liftM p : ExceptT ε (Routine σ) α) >>= f).run = p >>= fun a => (f a).run := by
    rw [ExceptT.run_bind]
    change ((fun a => Except.ok a) <$> p >>= _) = _
    rw [map_eq_pure_bind, LawfulMonad.bind_assoc]
    rfl
  rw [hrun] at h
  exact Paced.of_bind h

theorem Paced.of_run_lift {ε : Type} {p : Routine σ α} {result : Except ε α}
    (h : Paced P arrived (liftM p : ExceptT ε (Routine σ) α).run turns (.done result) left) :
    ∃ a, Paced P arrived p turns (.done a) left ∧ result = .ok a := by
  have hmap : Paced P arrived (p >>= fun a => pure (.ok a)) turns (.done result) left := h
  obtain ⟨a, own, rest, middle, rfl, hown, hrest⟩ := Paced.of_bind hmap
  obtain ⟨rfl, rfl, rfl⟩ := Paced.of_pure hrest
  exact ⟨a, (List.append_nil own).symm ▸ hown, rfl⟩

end Finished

end Routine

/-- A turn stays timely when a token is cancelled later. -/
theorem Event.Timely.weaken {cancelled others : Token → Nat → Prop} {arrived bound : Nat}
    {e : Event W} (h : e.Timely cancelled arrived)
    (earlier : e.before.clock ≤ bound)
    (late : ∀ token moment, others token moment → cancelled token moment ∨ bound ≤ moment)
    (kept : ∀ token moment, cancelled token moment → others token moment) :
    e.Timely others arrived where
  since := h.since
  prompt later due := by
    rcases due.weaken late with hdue | hbound
    · exact h.prompt later hdue
    · exact Nat.le_trans earlier hbound
  elapsed answered := by
    obtain ⟨past, uncut⟩ := h.elapsed answered
    refine ⟨past, fun moment hcancelled => ?_⟩
    rcases late _ moment hcancelled with hcancelled | hbound
    · exact uncut moment hcancelled
    · exact Nat.le_trans earlier hbound
  cut answered := kept _ _ (h.cut answered)

section History

variable {c d : Config W α} {events : List (Event W)} {i : Nat} {request : Request σ}

/-- What can be answered at a moment by the tokens that are cancelled by then is ready at that
moment. -/
theorem Steps.isReady_of_dueBy (h : Steps c events d) {moment : Nat}
    (due : request.DueBy (CancelledBy c events) moment) :
    (d.shared.moveClock moment).isReady i request = true := by
  cases request with
  | pause token time =>
      rcases due with past | ⟨t, rfl, hcancelled⟩
      · exact Bool.or_eq_true_iff.2 (.inl (decide_eq_true past))
      · refine Bool.or_eq_true_iff.2 (.inr ?_)
        refine List.contains_iff_mem.2 (h.mem_cancelled_iff.2 ?_)
        exact hcancelled.imp_right fun ⟨x, hx, hcancel, _⟩ => ⟨x, hx, hcancel⟩
  | acquire cache => exact due.elim
  | _ => rfl

/-- A turn at which its routine has arrived before, and which is not put off, is timely. -/
theorem Steps.timely_turn (h : Steps c events d) {arrived : Nat}
    (ready : d.shared.isReady i request = true) (since : arrived ≤ d.shared.clock)
    (prompt : ∀ moment, arrived ≤ moment → request.DueBy (CancelledBy c events) moment →
      d.shared.clock ≤ moment) :
    Event.Timely (CancelledBy c events) arrived ⟨i, d.shared, request⟩ where
  since := since
  prompt later due := prompt _ later due
  elapsed {token time} answered := by
    have uncut := Event.not_mem_cancelled_of_elapsed answered
    obtain ⟨rfl, -⟩ := Exchange.mk.inj answered
    have past : time ≤ d.shared.clock := by
      rcases Bool.or_eq_true_iff.1 ready with hover | hcut
      · exact of_decide_eq_true hover
      · exact absurd (List.contains_iff_mem.1 hcut) uncut
    refine ⟨past, fun moment hcancelled => absurd (h.mem_cancelled_iff.2 ?_) uncut⟩
    exact hcancelled.imp_right fun ⟨x, hx, hcancel, _⟩ => ⟨x, hx, hcancel⟩
  cut {token time} answered := by
    refine (h.mem_cancelled_iff.1 (Event.mem_cancelled_of_cut answered)).imp_right ?_
    exact fun ⟨x, hx, hcancel⟩ => ⟨x, hx, hcancel, h.clock_le x hx⟩

/-- In a history a routine has come by timely turns to what it is now, at a moment since which it could
not go on. -/
structure AtPace (c : Config W α) (events : List (Event W)) (d : Config W α) (i : Nat)
    (p q : Routine σ α) (left : Nat) : Prop where
  found : d.routines[i]? = some q
  paced : Routine.Paced (Event.Timely (CancelledBy c events)) c.shared.clock p (turnsOf i events) q
    left
  since : left ≤ d.shared.clock
  prompt {moment : Nat} (later : left ≤ moment) (due : q.DueBy (CancelledBy c events) moment) :
    d.shared.clock ≤ moment

namespace AtPace

variable {p q : Routine σ α} {left j : Nat} {next : request.Answer → Routine σ α}

/-- Earlier turns stay timely when another turn is taken, even if that cancels a token. -/
theorem paced_concat (h : AtPace c events d i p q left) (before : Steps c events d)
    (request : Request σ) :
    Routine.Paced (Event.Timely (CancelledBy c (events ++ [⟨j, d.shared, request⟩])))
      c.shared.clock p (turnsOf i events) q left :=
  h.paced.mono fun _ e he timely =>
    timely.weaken (before.clock_le e (mem_turnsOf.1 he).1) (fun _ _ => CancelledBy.of_concat)
      fun _ _ h => h.append _

/-- A routine that takes its turn takes it in time, and has then just come to what follows. -/
theorem own (h : AtPace c events d i p (.ask request next) left) (before : Steps c events d)
    (ready : d.shared.isReady i request = true) :
    AtPace c (events ++ [⟨i, d.shared, request⟩]) (d.turn i request next) i p
      (next (d.shared.answer i request).1) d.shared.clock where
  found := List.getElem?_set_self (List.getElem?_eq_some_iff.1 h.found).1
  paced := by
    have timely : Event.Timely (CancelledBy c (events ++ [⟨i, d.shared, request⟩])) left
        ⟨i, d.shared, request⟩ :=
      (before.timely_turn ready h.since fun _ => h.prompt).weaken (Nat.le_refl _)
        (fun _ _ => CancelledBy.of_concat) fun _ _ h => h.append _
    rw [turnsOf_concat_self events ⟨i, d.shared, request⟩]
    exact Routine.Paced.concat (e := ⟨i, d.shared, request⟩) (h.paced_concat before request) timely
  since := Nat.le_of_eq (Config.clock_turn d i request next).symm
  prompt later _ := by
    rw [Config.clock_turn]
    exact later

/-- A routine waits as it did while another one takes its turn. -/
theorem other (h : AtPace c events d i p q left) (before : Steps c events d) (hne : j ≠ i) :
    AtPace c (events ++ [⟨j, d.shared, request⟩]) (d.turn j request next) i p q left where
  found := by rw [Config.turn, List.getElem?_set_ne hne, h.found]
  paced := by
    rw [turnsOf_concat_other hne]
    exact h.paced_concat before request
  since := by
    rw [Config.clock_turn]
    exact h.since
  prompt later due := by
    rw [Config.clock_turn]
    rcases due.weaken fun _ _ => CancelledBy.of_concat with hdue | hbound
    · exact h.prompt later hdue
    · exact hbound

/-- The clock does not pass a moment at which a routine could go on. -/
theorem wait {time : Nat} (h : AtPace c events d i p q left) (before : Steps c events d)
    (later : d.shared.clock ≤ time) (idle : d.IsIdleUntil time) :
    AtPace c events (d.wait time) i p q left where
  found := h.found
  paced := h.paced
  since := Nat.le_trans h.since later
  prompt {moment} hmoment due := by
    by_contra hpassed
    cases q with
    | done a => exact due.elim
    | ask request next =>
        have hstep : (d.shared.moveClock moment).canStep d.routines i = true :=
          Shared.canStep_iff.2 ⟨request, next, h.found, before.isReady_of_dueBy due⟩
        rw [idle moment (h.prompt hmoment due) (Nat.lt_of_not_le hpassed) i] at hstep
        cases hstep

end AtPace

/-- In a prompt history every routine takes timely turns. -/
theorem Prompt.paced (h : Prompt c events d) {p : Routine σ α} (hp : c.routines[i]? = some p) :
    ∃ q left, AtPace c events d i p q left := by
  induction h with
  | refl => exact ⟨p, _, hp, .refl _ _, Nat.le_refl _, fun later _ => later⟩
  | @turn d events j request next before found ready ih =>
      obtain ⟨q, left, pace⟩ := ih
      by_cases hj : j = i
      · subst hj
        obtain rfl := Option.some.inj (pace.found.symm.trans found)
        exact ⟨_, _, pace.own before.steps ready⟩
      · exact ⟨q, left, pace.other before.steps hj⟩
  | wait before later idle ih =>
      obtain ⟨q, left, pace⟩ := ih
      exact ⟨q, left, pace.wait before.steps later idle⟩

/-- A routine that asks about no lock is done when all are stuck. -/
theorem Steps.done_of_lockFree (h : Steps c events d) {p : Routine σ α}
    (hp : c.routines[i]? = some p) (lockFree : p.Obeys Request.LockFree fun _ => True)
    (stuck : d.IsStuck) : ∃ a, d.routines[i]? = some (.done a) := by
  obtain ⟨q, hq, hpath⟩ := h.path hp
  cases q with
  | done a => exact ⟨a, hq⟩
  | ask request next =>
      obtain ⟨cache, hacquires, -⟩ := stuck i request next hq
      obtain ⟨-, hfree, -⟩ := lockFree.path hpath
      rw [hfree.1] at hacquires
      cases hacquires

/-- Every prompt history goes on until a routine that asks about no lock is done. -/
theorem Prompt.completes (h : Prompt c events d) {p : Routine σ α} (hp : c.routines[i]? = some p)
    (lockFree : p.Obeys Request.LockFree fun _ => True) :
    ∃ later last a, Prompt d later last ∧ last.routines[i]? = some (.done a) := by
  obtain ⟨later, last, hlater, -, stuck⟩ := d.shared.takeTurns_prompt d.routines _
    fun j hj => List.mem_range.2 hj
  obtain ⟨a, ha⟩ := (h.trans hlater).steps.done_of_lockFree hp lockFree stuck
  exact ⟨later, last, a, hlater, ha⟩

end History

end NodeFleet
