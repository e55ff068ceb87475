import NodeFleet.Proofs.Routine.Interleaving
import NodeFleet.Proofs.Routine.Poll

/-!
# Cancelled tokens

A token that is cancelled stays cancelled, and every pause on it is cut short from then on. A poll
that begins after that checks nothing and ends as cancelled.
-/

namespace NodeFleet

variable {σ : Signature} {W : World σ} {α ε β : Type} {token : Token}

/-- If the exchange is a pause on the token, it was cut short. -/
def Exchange.CutShort (token : Token) (x : Exchange σ) : Prop :=
  ∀ time wake, x = ⟨.pause (some token) time, wake⟩ → wake = .cancelled

section Poll

open Routine

variable {interval deadline : Nat} {errors : PollErrors ε}
  {check : Routine σ (Except ε (Option β))} {trace : List (Exchange σ)} {result : Except ε β}

theorem ends_ticks_of_cutShort {remaining tick : Nat}
    (h : Ends (ticks token interval deadline errors check remaining tick) trace result)
    (cut : ∀ x ∈ trace, x.CutShort token) :
    result = .error errors.cancelled ∧ ∀ x ∈ trace, x.request.AboutTime := by
  -- Whether it makes a tick or gives up, it pauses first.
  cases remaining with
  | zero =>
      obtain ⟨wake, tail, rfl, hwake⟩ := ends_request_bind.1 h
      obtain rfl := cut _ List.mem_cons_self deadline wake rfl
      obtain ⟨rfl, rfl⟩ := ends_pure.1 hwake
      exact ⟨rfl, List.forall_mem_singleton.2 trivial⟩
  | succ remaining =>
      obtain ⟨wake, tail, rfl, hwake⟩ := ends_request_bind.1 h
      obtain rfl := cut _ List.mem_cons_self tick wake rfl
      obtain ⟨rfl, rfl⟩ := ends_pure.1 hwake
      exact ⟨rfl, List.forall_mem_singleton.2 trivial⟩

/-- A poll whose pauses are all cut short does nothing but end as cancelled. -/
theorem ends_poll_of_cutShort {timeout : Nat}
    (h : Ends (poll token interval timeout errors check) trace result)
    (cut : ∀ x ∈ trace, x.CutShort token) :
    result = .error errors.cancelled ∧ ∀ x ∈ trace, x.request.AboutTime := by
  obtain ⟨start, tail, rfl, hstart⟩ := ends_request_bind.1 h
  obtain ⟨_, tail, rfl, halarm⟩ := ends_request_bind.1 hstart
  obtain ⟨result', own, rest, rfl, hown, hrest⟩ := ends_bind.1 halarm
  obtain ⟨_, tail, rfl, hdone⟩ := ends_request_bind.1 hrest
  obtain ⟨rfl, rfl⟩ := ends_pure.1 hdone
  obtain ⟨hresult, htime⟩ := ends_ticks_of_cutShort hown fun x hx => cut x (by simp [hx])
  refine ⟨hresult, List.forall_mem_cons.2 ⟨trivial, List.forall_mem_cons.2 ⟨trivial, ?_⟩⟩⟩
  exact List.forall_mem_append.2 ⟨htime, List.forall_mem_singleton.2 trivial⟩

end Poll

variable [DecidableEq σ.CacheName]

theorem Event.cutShort {e : Event W} (h : token ∈ e.before.cancelled) :
    e.exchange.CutShort token := by
  obtain ⟨i, s, request⟩ := e
  intro time wake hx
  obtain ⟨rfl, hanswer⟩ := Exchange.mk.inj hx
  obtain rfl := eq_of_heq hanswer
  change (if s.isInterrupted (some token) then Wake.cancelled else .elapsed) = .cancelled
  rw [if_pos]
  rw [Shared.isInterrupted, List.contains_eq_mem]
  exact decide_eq_true h

/-- A pause elapses only while its token is not cancelled. -/
theorem Event.not_mem_cancelled_of_elapsed {e : Event W} {time : Nat}
    (h : e.exchange = ⟨.pause (some token) time, .elapsed⟩) : token ∉ e.before.cancelled :=
  fun hcancelled => nomatch Event.cutShort hcancelled time .elapsed h

/-- A pause is cut short only when its token is cancelled. -/
theorem Event.mem_cancelled_of_cut {e : Event W} {time : Nat}
    (h : e.exchange = ⟨.pause (some token) time, .cancelled⟩) : token ∈ e.before.cancelled := by
  obtain ⟨i, s, request⟩ := e
  obtain ⟨rfl, hanswer⟩ := Exchange.mk.inj h
  have hcut : (if s.isInterrupted (some token) then Wake.cancelled else .elapsed) = .cancelled :=
    eq_of_heq hanswer
  split at hcut
  next interrupted => exact List.contains_iff_mem.1 interrupted
  next => cases hcut

namespace Shared

theorem mem_cancelled_answer_iff (s : Shared σ W) (i : Nat) (request : Request σ) :
    token ∈ (s.answer i request).2.cancelled ↔
      request = .cancel token ∨ token ∈ s.cancelled := by
  cases request with
  | cancel other =>
      rw [Request.cancel.injEq, eq_comm]
      exact List.mem_cons
  | _ => exact ⟨.inr, fun h => h.resolve_left fun hcancel => (nomatch hcancel)⟩

theorem cancelled_arrive (s : Shared σ W) (i : Nat) (p : Routine σ α) :
    (s.arrive i p).cancelled = s.cancelled := by
  cases p with
  | done a => rfl
  | ask request next => cases request <;> rfl

end Shared

variable {c d : Config W α} {events first second : List (Event W)} {e : Event W}

theorem Config.mem_cancelled_turn_iff (c : Config W α) (i : Nat) (request : Request σ)
    (next : request.Answer → Routine σ α) :
    token ∈ (c.turn i request next).shared.cancelled ↔
      request = .cancel token ∨ token ∈ c.shared.cancelled := by
  rw [turn, Shared.cancelled_arrive, Shared.mem_cancelled_answer_iff]

theorem Config.mem_cancelled_turn (h : token ∈ c.shared.cancelled) (i : Nat) (request : Request σ)
    (next : request.Answer → Routine σ α) : token ∈ (c.turn i request next).shared.cancelled :=
  (c.mem_cancelled_turn_iff i request next).2 (.inr h)

/-- A token that is cancelled at first is cancelled in every turn and in the end. -/
theorem Steps.mem_cancelled (h : Steps c events d) (start : token ∈ c.shared.cancelled) :
    (∀ e ∈ events, token ∈ e.before.cancelled) ∧ token ∈ d.shared.cancelled := by
  induction h with
  | refl => exact ⟨fun e he => (nomatch he), start⟩
  | turn _ _ _ ih =>
      obtain ⟨hbefore, hnow⟩ := ih
      constructor
      · exact List.forall_mem_append.2 ⟨hbefore, List.forall_mem_singleton.2 hnow⟩
      · exact Config.mem_cancelled_turn hnow _ _ _
  | wait _ _ ih => exact ih

/-- A token that is cancelled in a turn is cancelled in all later ones. -/
theorem Steps.mem_cancelled_after (h : Steps c (first ++ e :: second) d)
    (cancelled : token ∈ e.before.cancelled) : ∀ e' ∈ second, token ∈ e'.before.cancelled := by
  obtain ⟨m, next, -, hshared, -, -, hrest⟩ := h.split rfl
  rw [← hshared] at cancelled
  exact (hrest.mem_cancelled (Config.mem_cancelled_turn cancelled _ _ _)).1

/-- The cancelled tokens are those that were cancelled at first or in a turn. -/
theorem Steps.mem_cancelled_iff (h : Steps c events d) : token ∈ d.shared.cancelled ↔
    token ∈ c.shared.cancelled ∨ ∃ x ∈ events, x.request = .cancel token := by
  induction h with
  | refl => simp
  | @turn d events i request next _ _ _ ih =>
      rw [Config.mem_cancelled_turn_iff, ih]
      simp only [List.mem_append, List.mem_singleton, or_and_right, exists_or, exists_eq_left]
      rw [or_comm, or_assoc]
  | wait _ _ ih => exact ih

end NodeFleet
