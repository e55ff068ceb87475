import NodeFleet.Fleet.Episode
import NodeFleet.Proofs.Fleet.Launch
import NodeFleet.Proofs.Routine.Punctual
import NodeFleet.Proofs.Routine.Script

/-!
# Waits keep their time

Two loops of a fleet wait for something: for a job to end, and for a machine to be in a state. Both
are polls that repeat a call of the cloud and judge its reply. Whatever a world answers and however
long that takes, whoever else takes turns and whenever a token is cancelled, the calls of a wait keep
their distance, begin before the deadline and not after the cancellation, and stop with the first
reply that decides. A wait always ends, and it ends in time unless a call is running then.
-/

namespace NodeFleet

open Routine (Paced PollErrors conclusive)
open Program (CallsPlainly)

/-- A wait: the call that it repeats, what a reply means for it, its errors, how often it calls and
for how long. -/
structure Wait (ε β : Type) where
  call : Cloud.Call
  verdict : Except Cloud.CallError call.Reply → Except ε (Option β)
  errors : PollErrors ε
  interval : Nat
  timeout : Nat

namespace Wait

variable {ε β : Type}

/-- Calls once and judges the reply. -/
def check (w : Wait ε β) : Program (Except ε (Option β)) := do
  let reply ← Program.call w.call
  return w.verdict reply

/-- Goes on until a reply decides. -/
def program (w : Wait ε β) (token : Token) : Program (Except ε β) :=
  Routine.poll token w.interval w.timeout w.errors w.check

/-- What a reply to a job query means, by the status code in it: with 0 the job goes on, with 1 it has
ended with its payload and with 2 it has failed; any other code ends the wait, and so does a query
that fails. -/
def jobVerdict (jobId : String) :
    Except Cloud.CallError Cloud.JobResult → Except Cloud.CallError (Option (Option Json))
  | .ok r =>
      if r.statusCode = 0 then .ok none
      else if r.statusCode = 1 then .ok (some r.result)
      else if r.statusCode = 2 then .error (.jobFailed jobId r.errorText)
      else .error (.unknownJobStatus jobId r.statusCode)
  | .error e => .error e

theorem jobVerdict_ok (jobId : String) (r : Cloud.JobResult) :
    jobVerdict jobId (.ok r) = jobOutcome jobId r := by
  rw [jobVerdict, jobOutcome, Cloud.JobResult.status, Cloud.JobStatus.ofCode]
  split_ifs <;> rfl

/-- The wait for a job. -/
def forJob (jobId : String) (timeout : Nat) : Wait Cloud.CallError (Option Json) where
  call := .queryJob jobId
  verdict := jobVerdict jobId
  errors := ⟨.cancelled, .jobTimeout jobId⟩
  interval := jobPollInterval
  timeout := timeout

theorem program_forJob (jobId : String) (timeout : Nat) (token : Token) :
    (forJob jobId timeout).program token = Program.awaitJob jobId timeout token := by
  refine congrArg (Routine.poll token jobPollInterval timeout (forJob jobId timeout).errors) ?_
  refine congrArg (Program.call (.queryJob jobId) >>= ·) (funext fun reply => ?_)
  cases reply with
  | ok r => exact congrArg pure (jobVerdict_ok jobId r)
  | error e => rfl

/-- What a reply to the look-up of a machine means. -/
def stateVerdict (id target : String) :
    Except Cloud.CallError (Cloud.Page Cloud.VirtualMachine) →
      Except ResourceError (Option Cloud.VirtualMachine)
  | .ok page =>
      match page.items.head? with
      | none => .error (.notFound "instance" id)
      | some vm => .ok (if vm.state = target then some vm else none)
  | .error e => .error (.call s!"get VM {id}" e)

/-- The wait for a state of a machine. -/
def forState (f : Fleet) (id target : String) : Wait ResourceError Cloud.VirtualMachine where
  call := .listMachines { id := some id }
  verdict := stateVerdict id target
  errors := ⟨.cancelled, .timeout s!"VM {id} to reach state {target}"⟩
  interval := f.settings.pollInterval
  timeout := f.settings.readyTimeout

theorem program_forState (f : Fleet) (id target : String) (token : Token) :
    (forState f id target).program token = (f.awaitState id target token).run := by
  refine congrArg (Routine.poll token f.settings.pollInterval f.settings.readyTimeout
    (forState f id target).errors) ?_
  refine Eq.trans (congrArg (Program.call (.listMachines { id := some id }) >>= ·)
    (funext fun reply => ?_)) (bind_assoc _ _ _).symm
  cases reply with
  | error e => rfl
  | ok page =>
      change pure (stateVerdict id target (.ok page)) =
        ExceptT.run (m := Program) (match page.items.head? with
          | none => throw (ResourceError.notFound "instance" id)
          | some vm => return if vm.state = target then some vm else none)
      dsimp only [stateVerdict]
      cases page.items.head? <;> rfl

/-- A wait asks about no lock. -/
theorem lockFree_program (w : Wait ε β) (token : Token) :
    (w.program token).Obeys Request.LockFree fun _ => True := by
  have hcheck : w.check.Obeys (CallsPlainly [w.call.operation]) fun _ => True :=
    (Program.obeys_call List.mem_cons_self).bind fun _ _ => trivial
  have hprogram : (w.program token).Obeys (CallsPlainly [w.call.operation]) fun _ => True :=
    Routine.obeys_poll (fun _ => True) hcheck Program.callsPlainly_of_aboutTime
      (fun _ _ => trivial) trivial trivial
  exact hprogram.mono (fun _ => CallsPlainly.lockFree) fun _ => id

end Wait

variable {W : World fleetSignature} {ε β : Type}

/-- A call of the cloud is begun in a turn. -/
def Event.begins (e : Event W) : Bool :=
  e.exchange.called?.isSome

theorem Event.begins_of_aboutTime {e : Event W} (h : e.request.AboutTime) : e.begins = false := by
  obtain ⟨i, s, request⟩ := e
  cases request with
  | act action => exact h.elim
  | _ => rfl

/-- A check of a wait: its call is begun and answered, and it yields the verdict on the reply. -/
def Wait.Judges (w : Wait ε β) (round : Round W ε β) : Prop :=
  round.begun.request = .act (.beginCall w.call) ∧
    ∃ reply, Answered w.call reply [round.answered.exchange] ∧ round.outcome = w.verdict reply

theorem Event.begins_of_beginCall {e : Event W} {call : Cloud.Call} {opening : Opening call.Reply}
    (h : e.exchange = ⟨.act (.beginCall call), opening⟩) : e.begins = true := by
  rw [begins, h]
  rfl

theorem Event.begins_of_serveCall {e : Event W} {call : Cloud.Call}
    {reply : Except Cloud.CallError call.Reply}
    (h : e.exchange = ⟨.act (.serveCall call), reply⟩) : e.begins = false := by
  rw [begins, h]
  rfl

/-- A call that is made in time is begun on arrival, in the only one of its turns in which a call is
begun, and is answered in its last. -/
theorem paced_call {cancelled : Token → Nat → Prop} {arrived left : Nat} {turns : List (Event W)}
    {call : Cloud.Call} {reply : Except Cloud.CallError call.Reply}
    (h : Paced (Event.Timely (W := W) cancelled) arrived (Program.call call) turns (.done reply)
      left) :
    ∃ begun answered, begun.request = .act (.beginCall call) ∧ begun.before.clock = arrived ∧
      turns.filter Event.begins = [begun] ∧ answered ∈ turns ∧ answered.before.clock = left ∧
      Answered call reply [answered.exchange] := by
  obtain ⟨begun, opening, rest, rfl, hbegin, timely, hopening⟩ := Paced.of_request_bind h
  have hrequest : begun.request = .act (.beginCall call) := congrArg Exchange.request hbegin
  have hclock := clock_of_due timely hbegin trivial
  have hbegins := Event.begins_of_beginCall hbegin
  cases opening with
  | answered reply' =>
      obtain ⟨rfl, rfl, rfl⟩ := Paced.of_pure hopening
      exact ⟨begun, begun, hrequest, hclock, by simp [hbegins], List.mem_cons_self, rfl,
        .inl (List.mem_singleton.2 hbegin.symm)⟩
  | delayed latency =>
      obtain ⟨_, slept, rest, middle, rfl, hsleep, hserve⟩ := Paced.of_bind hopening
      obtain ⟨hour, start, rest, rfl, hnow, -, hstart⟩ := Paced.of_request_bind hsleep
      obtain ⟨pausing, wake, rest, rfl, hpause, -, hwake⟩ := Paced.of_request_bind hstart
      obtain ⟨rfl, -, rfl⟩ := Paced.of_pure hwake
      obtain ⟨serving, answer, rest, rfl, hserved, -, hanswer⟩ :=
        Paced.of_request_bind (f := pure) hserve
      obtain ⟨rfl, rfl, rfl⟩ := Paced.of_pure hanswer
      have hhour := not_begins (fun _ => Event.begins_of_aboutTime) hnow trivial
      have hpausing := not_begins (fun _ => Event.begins_of_aboutTime) hpause trivial
      have hserving := Event.begins_of_serveCall hserved
      exact ⟨begun, serving, hrequest, hclock, by simp [hbegins, hhour, hpausing, hserving],
        by simp, rfl, .inr (List.mem_singleton.2 hserved.symm)⟩

theorem Wait.checks (w : Wait ε β) (cancelled : Token → Nat → Prop) :
    Checks cancelled (Event.begins (W := W)) w.Judges w.check := by
  intro arrived left turns outcome h
  have since := h.since
  obtain ⟨reply, own, rest, middle, rfl, hcall, hverdict⟩ := Paced.of_bind h
  obtain ⟨rfl, rfl, rfl⟩ := Paced.of_pure hverdict
  obtain ⟨begun, answered, hrequest, hbegan, once, hmem, hended, hanswered⟩ := paced_call hcall
  rw [List.append_nil]
  exact ⟨⟨begun, answered, w.verdict reply⟩, hbegan, hended, since, rfl, once, hmem, hrequest, reply,
    hanswered, rfl⟩

/-- How a wait has gone that started at a moment, took some turns, made checks and ended at another
moment with a result. -/
structure WaitRecord (w : Wait ε β) (cancelled : Nat → Prop) (start : Nat) (turns : List (Event W))
    (rounds : List (Round W ε β)) (result : Except ε β) (left : Nat) : Prop where
  /-- The calls that it begins are those of its checks. -/
  calls : turns.filter Event.begins = rounds.map Round.begun
  /-- A check calls, is answered in a turn of the wait and yields the verdict on the reply. -/
  judged : ∀ round ∈ rounds, round.answered ∈ turns ∧ w.Judges round
  /-- A call begins no earlier than as many intervals after the start as there are calls so far. -/
  spaced : ∀ (k : Nat) (hk : k < rounds.length),
    start + (k + 1) * w.interval ≤ rounds[k].began
  /-- A call begins before the deadline and not after a cancellation. -/
  onTime : ∀ round ∈ rounds, round.began < start + w.timeout ∧
    ∀ moment, cancelled moment → round.began ≤ moment
  /-- There are fewer calls than intervals up to the deadline, the last of them perhaps cut off. -/
  few : rounds.length ≤ w.timeout ⌈/⌉ w.interval - 1
  /-- A check whose reply decides is the last one, and the wait ends with it and has its result. -/
  decided : ∀ round ∈ rounds, round.outcome ≠ .ok none →
    rounds.getLast? = some round ∧ round.outcome = conclusive result ∧ left = round.ended
  /-- Without such a reply the wait was cancelled or has come to its deadline. -/
  undecided : (∀ round ∈ rounds, round.outcome = .ok none) →
    (result = .error w.errors.cancelled ∧ cancelled left) ∨
      (result = .error w.errors.timeout ∧ start + w.timeout ≤ left)
  /-- It ends in its last turn. -/
  last : left = (turns.getLast?.map fun e => e.before.clock).getD start
  /-- It ends by the deadline and by a cancellation, or with the call that is running then. -/
  ends : ∀ moment, start ≤ moment → cancelled moment ∨ start + w.timeout ≤ moment →
    left ≤ moment ∨ ∃ round ∈ rounds, round.InFlight moment ∧ left = round.ended

/-- The checks begin when the calls of the wait are begun. -/
theorem WaitRecord.map_began {w : Wait ε β} {cancelled : Nat → Prop} {start left : Nat}
    {turns : List (Event W)} {rounds : List (Round W ε β)} {result : Except ε β}
    (record : WaitRecord w cancelled start turns rounds result left) :
    rounds.map Round.began = (turns.filter Event.begins).map fun e => e.before.clock := by
  rw [record.calls, List.map_map]
  rfl

/-- A wait that was neither cancelled nor timed out has ended with the reply that decides. -/
theorem WaitRecord.exists_decided {w : Wait ε β} {cancelled : Nat → Prop} {start left : Nat}
    {turns : List (Event W)} {rounds : List (Round W ε β)} {result : Except ε β}
    (record : WaitRecord w cancelled start turns rounds result left)
    (proceeds : result ≠ .error w.errors.cancelled) (inTime : result ≠ .error w.errors.timeout) :
    ∃ round, rounds.getLast? = some round ∧ round.outcome = conclusive result ∧
      left = round.ended := by
  have hdecides : ∃ round ∈ rounds, round.outcome ≠ .ok none := by
    by_contra! hnone
    rcases record.undecided hnone with ⟨h, -⟩ | ⟨h, -⟩
    · exact proceeds h
    · exact inTime h
  obtain ⟨round, hmem, hround⟩ := hdecides
  exact ⟨round, record.decided round hmem hround⟩

/-- What becomes of a wait, whoever else takes turns. -/
structure Wait.KeepsTime (w : Wait ε β) (token : Token) (W : World fleetSignature)
    (p : Program (Except ε β)) : Prop where
  /-- A wait that has ended has a record. -/
  record {s : Shared fleetSignature W} {ps : List (Program (Except ε β))} {i : Nat}
    {events : List (Event W)} {d : Config W (Except ε β)} {result : Except ε β}
    (found : ps[i]? = some p) (prompt : Prompt (Config.start s ps) events d)
    (done : d.routines[i]? = some (.done result)) :
    ∃ rounds left, WaitRecord w (CancelledBy (Config.start s ps) events token) s.clock
      (turnsOf i events) rounds result left
  /-- However a history has begun, it goes on until the wait ends. -/
  completes {s : Shared fleetSignature W} {ps : List (Program (Except ε β))} {i : Nat}
    {events : List (Event W)} {d : Config W (Except ε β)}
    (found : ps[i]? = some p) (prompt : Prompt (Config.start s ps) events d) :
    ∃ later last result, Prompt d later last ∧ last.routines[i]? = some (.done result)
  /-- In a run the wait ends. -/
  runs {s : Shared fleetSignature W} {ps : List (Program (Except ε β))} {i : Nat}
    (found : ps[i]? = some p) :
    ∃ events d result, Prompt (Config.start s ps) events d ∧
      s.run ps = (d.shared, d.routines.map Shared.result?) ∧
      d.routines[i]? = some (.done result)

theorem Wait.keepsTime (w : Wait ε β) (token : Token) (W : World fleetSignature)
    (positive : 0 < w.interval) : w.KeepsTime token W (w.program token) where
  record {s ps i events d result} found prompt done := by
    obtain ⟨q, left, hq, paced, -, -⟩ := prompt.paced found
    obtain rfl := Option.some.inj (done.symm.trans hq)
    rw [Config.clock_start s] at paced
    obtain ⟨rounds, course, hrounds⟩ :=
      course_of_poll (w.checks _) (fun _ => Event.begins_of_aboutTime) paced
    refine ⟨rounds, left, hrounds.begun, hrounds.answered, ?_, course.onTime,
      course.length_le positive, course.concludes, course.gives_up, paced.left_eq, ?_⟩
    · intro k hk
      rw [Nat.succ_mul]
      have := course.tick_le k hk
      omega
    · exact fun moment later past => course.ends_by (fun hle h => h.mono hle) later past
  completes found prompt := prompt.completes found (w.lockFree_program token)
  runs {s ps i} found := by
    obtain ⟨events, d, prompt, hrun, stuck⟩ := run_prompt s ps
    obtain ⟨result, done⟩ := prompt.steps.done_of_lockFree found (w.lockFree_program token) stuck
    exact ⟨events, d, result, prompt, hrun, done⟩

/-- The waits of a fleet keep their time, whatever the world answers and however long it takes, and
whenever the token is cancelled: their calls are spaced, begin before the deadline and not after the
cancellation and are few; the first reply that decides ends the wait with its outcome, and else the
wait ends as cancelled or timed out, by the cancellation and the deadline or with the call that is
running then. And every wait ends. -/
theorem waits_keep_time (W : World fleetSignature) (token : Token) :
    (∀ jobId timeout, (Wait.forJob jobId timeout).KeepsTime token W
      (Program.awaitJob jobId timeout token)) ∧
    ∀ (f : Fleet) (id target : String), 0 < f.settings.pollInterval →
      (Wait.forState f id target).KeepsTime token W (f.awaitState id target token).run := by
  constructor
  · intro jobId timeout
    have positive : 0 < jobPollInterval := by decide
    rw [← Wait.program_forJob]
    exact Wait.keepsTime _ token W positive
  · intro f id target positive
    rw [← Wait.program_forState]
    exact Wait.keepsTime _ token W positive

section Slow

/-- A fleet that looks every second whether a machine has stopped, for three and a half seconds. -/
def watchingFleet : Fleet where
  owner := 0
  cacheTtl := 1000
  settings := { clusterName := "c1", pollInterval := 1000, readyTimeout := 3500 }

/-- A cloud with a machine that does not stop, in which every call takes longer than a second. -/
def slowCloud : FleetState :=
  .initial
    { cloud :=
        { machines := [{ id := "vm-1", name := "n1", state := "Running", zoneId := "z1" }]
          latency := 1200 }
      nodeClasses := .empty
      today := .ofSeconds 0
      launches := [] }

/-- The wait for the machine to stop. -/
def slowWait : Config fleetWorld (Except ResourceError Cloud.VirtualMachine) :=
  Config.start slowCloud [(watchingFleet.awaitState "vm-1" "Stopped" 0).run]

/-- A cloud with a job that is pending once more and then fails, in which every call takes longer than
five seconds. -/
def failingJob : FleetState :=
  .initial
    { cloud :=
        { jobs := Table.empty.insert "job-1" 1
          jobFailure := some "no capacity"
          latency := 6000 }
      nodeClasses := .empty
      today := .ofSeconds 0
      launches := [] }

/-- The wait for the job. -/
def failingWait : Config fleetWorld (Except Cloud.CallError (Option Json)) :=
  Config.start failingJob [Program.awaitJob "job-1" 60000 0]

/-- Where every call takes longer than an interval, each call begins as soon as the one before it has
ended. The wait for a state ends with the call that is running at the deadline, and the wait for a
job with the reply that says that the job has failed, long before its deadline. -/
theorem waits_keep_time_of_slow_calls :
    (∃ events d rounds, Prompt slowWait events d ∧
      d.routines[0]? = some (.done (.error (.timeout "VM vm-1 to reach state Stopped"))) ∧
      WaitRecord (Wait.forState watchingFleet "vm-1" "Stopped") (CancelledBy slowWait events 0) 0
        (turnsOf 0 events) rounds (.error (.timeout "VM vm-1 to reach state Stopped")) 4600 ∧
      rounds.map Round.began = [1000, 2200, 3400]) ∧
    ∃ events d rounds, Prompt failingWait events d ∧
      d.routines[0]? = some (.done (.error (.jobFailed "job-1" "no capacity"))) ∧
      WaitRecord (Wait.forJob "job-1" 60000) (CancelledBy failingWait events 0) 0
        (turnsOf 0 events) rounds (.error (.jobFailed "job-1" "no capacity")) 17000 ∧
      rounds.map Round.began = [5000, 11000] ∧
      rounds.getLast?.map Round.outcome = some (.error (.jobFailed "job-1" "no capacity")) := by
  constructor
  · obtain ⟨events, d, prompt, hresult, hbegan, hlast⟩ :
        ∃ events d, Prompt slowWait events d ∧
          d.error? 0 = some (.timeout "VM vm-1 to reach state Stopped") ∧
          (((turnsOf 0 events).filter Event.begins).map fun e => e.before.clock) =
            [1000, 2200, 3400] ∧
          ((turnsOf 0 events).getLast?.map fun e => e.before.clock) = some 4600 :=
      Config.exists_prompt_of_follow [.turns 0 2, .wait 1000, .turns 0 4, .wait 2200, .turns 0 6,
        .wait 3400, .turns 0 6, .wait 4600, .turns 0 4] (by decide +kernel) (by decide +kernel)
    have result := Config.error?_eq_some_iff.1 hresult
    have keeps := (waits_keep_time fleetWorld 0).2 watchingFleet "vm-1" "Stopped" (by decide)
    obtain ⟨rounds, left, record⟩ := keeps.record rfl prompt result
    obtain rfl : left = 4600 := by
      rw [record.last, hlast]
      rfl
    exact ⟨events, d, rounds, prompt, result, record, record.map_began.trans hbegan⟩
  · obtain ⟨events, d, prompt, hresult, hbegan, hlast⟩ :
        ∃ events d, Prompt failingWait events d ∧
          d.error? 0 = some (.jobFailed "job-1" "no capacity") ∧
          (((turnsOf 0 events).filter Event.begins).map fun e => e.before.clock) = [5000, 11000] ∧
          ((turnsOf 0 events).getLast?.map fun e => e.before.clock) = some 17000 :=
      Config.exists_prompt_of_follow [.turns 0 2, .wait 5000, .turns 0 4, .wait 11000, .turns 0 6,
        .wait 17000, .turns 0 3] (by decide +kernel) (by decide +kernel)
    have result := Config.error?_eq_some_iff.1 hresult
    obtain ⟨rounds, left, record⟩ :=
      ((waits_keep_time fleetWorld 0).1 "job-1" 60000).record rfl prompt result
    obtain rfl : left = 17000 := by
      rw [record.last, hlast]
      rfl
    obtain ⟨round, hround, houtcome, -⟩ := record.exists_decided nofun nofun
    refine ⟨events, d, rounds, prompt, result, record, record.map_began.trans hbegan, ?_⟩
    rw [hround]
    exact congrArg some houtcome

end Slow

end NodeFleet
