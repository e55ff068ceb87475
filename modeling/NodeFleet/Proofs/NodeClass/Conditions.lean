import NodeFleet.NodeClass.Basic
import NodeFleet.Proofs.Selection

/-!
# Conditions over time

A node class goes through edits: conditions are set, and its generation changes. The conditions that
it has are told by the log of all that were set, those from the beginning first: one for every type,
in the order in which the types appeared. Each is the latest of its type, with the time from the start
of the run of equal statuses that ends with it.
-/

namespace NodeFleet

theorem firstPerKey_eq_self {α : Type} {key : α → String} {items : List α}
    (distinct : (items.map key).Nodup) : firstPerKey key items = items := by
  induction items with
  | nil => rfl
  | cons a rest ih =>
      obtain ⟨new, hrest⟩ := List.nodup_cons.1 distinct
      rw [firstPerKey, ih hrest, List.filter_eq_self.2]
      exact fun b hb => decide_eq_true fun same => new (same ▸ List.mem_map_of_mem hb)

/-- Where keys are distinct, an item that is found is the only one of its key. -/
theorem filter_eq_singleton {α : Type} {key : α → String} {items : List α}
    (distinct : (items.map key).Nodup) {k : String} {a : α}
    (found : items.find? (fun b => key b = k) = some a) :
    items.filter (fun b => key b = k) = [a] := by
  induction items with
  | nil => cases found
  | cons b rest ih =>
      obtain ⟨new, hrest⟩ := List.nodup_cons.1 distinct
      by_cases hb : key b = k
      · simp only [List.find?_cons, hb, decide_true, Option.some.injEq] at found
        obtain rfl := found
        have hnone : rest.filter (fun c => key c = k) = [] :=
          List.filter_eq_nil_iff.2 fun c hc same =>
            new (hb.trans (of_decide_eq_true same).symm ▸ List.mem_map_of_mem hc)
        rw [List.filter_cons_of_pos (by simpa using hb), hnone]
      · rw [List.find?_cons_of_neg (by simpa using hb)] at found
        rw [List.filter_cons_of_neg (by simpa using hb), ih hrest found]

/-- What happens to the conditions of a node class. -/
inductive ClassEdit where
  | condition (c : Condition)
  | generation (g : Int64)

namespace NodeClass

/-- The node class after an edit. -/
def edit (c : NodeClass) : ClassEdit → NodeClass
  | .condition condition => c.setCondition condition
  | .generation g => { c with generation := g }

/-- The node class after one edit and another. -/
def editAll (c : NodeClass) (edits : List ClassEdit) : NodeClass :=
  edits.foldl edit c

end NodeClass

/-- The conditions that edits set, each as observed at the generation of its time. -/
def observed : Int64 → List ClassEdit → List Condition
  | _, [] => []
  | generation, .condition c :: rest =>
      { c with observedGeneration := generation } :: observed generation rest
  | _, .generation g :: rest => observed g rest

/-- The conditions that a node class had in the beginning, followed by those that were set. -/
def NodeClass.conditionLog (c : NodeClass) (edits : List ClassEdit) : List Condition :=
  c.status.conditions ++ observed c.generation edits

/-- A list ends in a run of equal statuses, from the first condition to the latest, and the run cannot
be extended to the front. -/
inductive LastRun : List Condition → Condition → Condition → Prop
  | intro {earlier run : List Condition} {first latest : Condition}
      (begins : run.head? = some first) (ends : run.getLast? = some latest)
      (same : ∀ c ∈ run, c.status = latest.status)
      (maximal : ∀ c, earlier.getLast? = some c → c.status ≠ latest.status) :
      LastRun (earlier ++ run) first latest

namespace LastRun

variable {log : List Condition} {first latest first' latest' x : Condition}

theorem getLast?_eq (h : LastRun log first latest) : log.getLast? = some latest := by
  obtain ⟨-, ends, -, -⟩ := h
  rw [List.getLast?_append, ends, Option.some_or]

/-- A condition of another status than the one before it starts a run. -/
theorem start (h : ∀ c, log.getLast? = some c → c.status ≠ x.status) : LastRun (log ++ [x]) x x :=
  .intro rfl rfl (List.forall_mem_singleton.2 rfl) h

/-- A condition of the same status as the latest one continues its run. -/
theorem carryOn (h : LastRun log first latest) (same : x.status = latest.status) :
    LastRun (log ++ [x]) first x := by
  obtain ⟨begins, -, runSame, maximal⟩ := h
  rw [List.append_assoc]
  refine .intro ?_ List.getLast?_concat ?_ ?_
  · rw [List.head?_append, begins, Option.some_or]
  · rw [same]
    exact List.forall_mem_append.2 ⟨runSame, List.forall_mem_singleton.2 same⟩
  · rwa [same]

/-- A run that cannot be extended does not begin inside of another run to the same end. -/
theorem middle_eq_nil {earlier middle run : List Condition} {status : ConditionStatus}
    (same : ∀ c ∈ middle ++ run, c.status = status)
    (maximal : ∀ c, (earlier ++ middle).getLast? = some c → c.status ≠ status) : middle = [] := by
  rcases List.eq_nil_or_concat middle with rfl | ⟨before, c, rfl⟩
  · rfl
  · refine absurd (same c (by simp)) (maximal c ?_)
    rw [List.concat_eq_append, ← List.append_assoc]
    exact List.getLast?_concat

theorem unique (h : LastRun log first latest) (h' : LastRun log first' latest') :
    first = first' ∧ latest = latest' := by
  obtain rfl : latest = latest' := Option.some.inj (h.getLast?_eq.symm.trans h'.getLast?_eq)
  refine ⟨?_, rfl⟩
  generalize hlog : log = other at h'
  obtain ⟨begins, -, same, maximal⟩ := h
  obtain ⟨begins', -, same', maximal'⟩ := h'
  apply Option.some.inj
  rw [← begins, ← begins']
  rcases List.append_eq_append_iff.1 hlog with ⟨middle, rfl, rfl⟩ | ⟨middle, rfl, rfl⟩
  · rw [middle_eq_nil same maximal', List.nil_append]
  · rw [middle_eq_nil same' maximal, List.nil_append]

end LastRun

/-- The condition that a log leaves of a type: the latest one, with the time of the first one in its
run. -/
def Stands (log : List Condition) (type : String) (stored : Condition) : Prop :=
  ∃ first latest, LastRun (log.filter fun c => c.type = type) first latest ∧
    stored = { latest with lastTransition := first.lastTransition }

namespace Stands

variable {log : List Condition} {type : String} {stored stored' : Condition}

theorem exists_latest (h : Stands log type stored) :
    ∃ latest ∈ log, latest.type = type ∧ latest.status = stored.status := by
  obtain ⟨first, latest, run, rfl⟩ := h
  obtain ⟨hlog, htype⟩ := List.mem_filter.1 (List.mem_of_getLast? run.getLast?_eq)
  exact ⟨latest, hlog, of_decide_eq_true htype, rfl⟩

/-- A log leaves one condition of a type at most. -/
theorem unique (h : Stands log type stored) (h' : Stands log type stored') : stored = stored' := by
  obtain ⟨first, latest, run, rfl⟩ := h
  obtain ⟨first', latest', run', rfl⟩ := h'
  obtain ⟨rfl, rfl⟩ := run.unique run'
  rfl

end Stands

section PutCondition

variable (x : Condition) (conditions : List Condition)

/-- What a condition becomes that is set where another one of its type may be. -/
def Condition.after (x : Condition) : Option Condition → Condition
  | some old => if old.status = x.status then { x with lastTransition := old.lastTransition } else x
  | none => x

@[simp] theorem Condition.type_after (old : Option Condition) : (x.after old).type = x.type := by
  cases old with
  | none => rfl
  | some old =>
      rw [Condition.after]
      split <;> rfl

theorem putCondition_cons (old : Condition) :
    putCondition x (old :: conditions) =
      if old.type = x.type then x.after (some old) :: conditions
      else old :: putCondition x conditions :=
  rfl

theorem map_type_putCondition :
    (putCondition x conditions).map (·.type) =
      if x.type ∈ conditions.map (·.type) then conditions.map (·.type)
      else conditions.map (·.type) ++ [x.type] := by
  induction conditions with
  | nil => rfl
  | cons old rest ih =>
      rw [putCondition_cons]
      split
      next same => simp [same]
      next other =>
          rw [List.map_cons, ih]
          simp only [List.map_cons, List.mem_cons, Ne.symm other, false_or]
          split <;> rfl

theorem find?_putCondition_self :
    (putCondition x conditions).find? (fun c => c.type = x.type) =
      some (x.after (conditions.find? fun c => c.type = x.type)) := by
  induction conditions with
  | nil => simp [putCondition, Condition.after]
  | cons old rest ih =>
      rw [putCondition_cons]
      split
      next same => simp [same]
      next other => simp [other, ih]

/-- The conditions of other types stay where and what they are. -/
theorem filter_putCondition :
    (putCondition x conditions).filter (fun c => c.type ≠ x.type) =
      conditions.filter fun c => c.type ≠ x.type := by
  induction conditions with
  | nil => simp [putCondition]
  | cons old rest ih =>
      rw [putCondition_cons]
      split
      next same => simp [same]
      next other =>
          rw [List.filter_cons_of_pos (by simpa using other),
            List.filter_cons_of_pos (by simpa using other), ih]

variable {x}

theorem find?_putCondition_of_ne {type : String} (other : type ≠ x.type) :
    (putCondition x conditions).find? (fun c => c.type = type) =
      conditions.find? fun c => c.type = type := by
  have hfind (items : List Condition) : items.find? (fun c => c.type = type) =
      (items.filter fun c => c.type ≠ x.type).find? fun c => c.type = type := by
    rw [List.find?_filter]
    congr 1
    funext c
    grind
  rw [hfind, filter_putCondition, ← hfind]

end PutCondition

/-- Conditions are those that a log tells. -/
structure Tells (log conditions : List Condition) : Prop where
  types : conditions.map (·.type) = (firstPerKey Condition.type log).map (·.type)
  stands {type : String} {stored : Condition} :
    conditions.find? (fun c => c.type = type) = some stored → Stands log type stored

namespace Tells

variable {log conditions : List Condition} {x : Condition} {type : String}

theorem mem_types_iff (h : Tells log conditions) :
    type ∈ conditions.map (·.type) ↔ type ∈ log.map (·.type) := by
  rw [h.types, List.mem_map, List.mem_map]
  constructor
  · rintro ⟨c, hc, rfl⟩
    exact ⟨c, mem_of_mem_firstPerKey hc, rfl⟩
  · rintro ⟨c, hc, rfl⟩
    exact exists_mem_firstPerKey hc

theorem find?_eq_none_iff (h : Tells log conditions) :
    conditions.find? (fun c => c.type = type) = none ↔ type ∉ log.map (·.type) := by
  rw [← h.mem_types_iff]
  simp

/-- What a log leaves of a type is found. -/
theorem find?_eq_some_iff (h : Tells log conditions) {stored : Condition} :
    conditions.find? (fun c => c.type = type) = some stored ↔ Stands log type stored := by
  refine ⟨h.stands, fun stands => ?_⟩
  cases found : conditions.find? (fun c => c.type = type) with
  | none =>
      obtain ⟨latest, hlog, htype, -⟩ := stands.exists_latest
      exact absurd (htype ▸ List.mem_map_of_mem hlog) (h.find?_eq_none_iff.1 found)
  | some other => rw [(h.stands found).unique stands]

/-- Conditions of different types are told by themselves. -/
theorem initial (distinct : (conditions.map (·.type)).Nodup) : Tells conditions conditions where
  types := by rw [firstPerKey_eq_self distinct]
  stands {type stored} found := by
    refine ⟨stored, stored, ?_, rfl⟩
    rw [filter_eq_singleton distinct found]
    have first : LastRun ([] ++ [stored]) stored stored := .start nofun
    exact first

/-- A condition that is set is told by the log to which it is added. -/
theorem set (h : Tells log conditions) (x : Condition) :
    Tells (log ++ [x]) (putCondition x conditions) where
  types := by
    rw [map_type_putCondition, firstPerKey_append, List.map_append, ← h.types]
    split
    next known =>
        have hlog := h.mem_types_iff.1 known
        rw [firstPerKey, List.filter_cons_of_neg (by simpa using hlog)]
        exact (List.append_nil _).symm
    next new =>
        have hlog := fun hx => new (h.mem_types_iff.2 hx)
        rw [firstPerKey, List.filter_cons_of_pos (by simpa using hlog)]
        rfl
  stands {type stored} found := by
    by_cases other : type = x.type
    · subst other
      rw [find?_putCondition_self, Option.some.injEq] at found
      subst found
      have hfilter : (log ++ [x]).filter (fun c => c.type = x.type) =
          log.filter (fun c => c.type = x.type) ++ [x] := by
        simp
      cases hold : conditions.find? (fun c => c.type = x.type) with
      | none =>
          have hnone : log.filter (fun c => c.type = x.type) = [] := by
            simpa using h.find?_eq_none_iff.1 hold
          refine ⟨x, x, ?_, rfl⟩
          rw [hfilter]
          exact .start fun c hc => by simp [hnone] at hc
      | some old =>
          obtain ⟨first, latest, run, rfl⟩ := h.stands hold
          rw [Condition.after]
          split
          next same =>
              refine ⟨first, x, ?_, rfl⟩
              rw [hfilter]
              exact run.carryOn same.symm
          next flips =>
              refine ⟨x, x, ?_, rfl⟩
              rw [hfilter]
              refine .start fun c hc => ?_
              rw [run.getLast?_eq, Option.some.injEq] at hc
              exact hc ▸ flips
    · rw [find?_putCondition_of_ne _ other] at found
      obtain ⟨first, latest, run, rfl⟩ := h.stands found
      refine ⟨first, latest, ?_, rfl⟩
      rwa [List.filter_append, List.filter_singleton, decide_eq_false (Ne.symm other), cond_false,
        List.append_nil]

end Tells

/-- Edits keep the conditions told, by the log to which the conditions are added that they set. -/
theorem NodeClass.tells_editAll {c : NodeClass} {log : List Condition}
    (h : Tells log c.status.conditions) (edits : List ClassEdit) :
    Tells (log ++ observed c.generation edits) (c.editAll edits).status.conditions := by
  induction edits generalizing c log with
  | nil =>
      rw [observed, List.append_nil]
      exact h
  | cons edit rest ih =>
      cases edit with
      | condition x =>
          have stored : Tells (log ++ [{ x with observedGeneration := c.generation }])
              (c.setCondition x).status.conditions := h.set _
          have hset := ih stored
          rw [List.append_assoc] at hset
          exact hset
      | generation g =>
          have same : Tells log { c with generation := g }.status.conditions := h
          exact ih same

/-- Where the conditions of a node class are of distinct types, they stay so through all edits, in the
order in which the types first appeared. The condition of a type is the latest one that was set, as
observed at the generation of that time, with the time from the start of the run of equal statuses
that ends with it; a type of which none was set has none. Whoever sets a condition leaves those of
other types and the rest of the node class as they were. -/
theorem conditions_tell_history (c : NodeClass)
    (distinct : (c.status.conditions.map (·.type)).Nodup) (edits : List ClassEdit) :
    let log := c.conditionLog edits
    let later := c.editAll edits
    (later.status.conditions.map (·.type)).Nodup ∧
    later.status.conditions.map (·.type) = (firstPerKey Condition.type log).map (·.type) ∧
    (∀ type stored, later.condition? type = some stored ↔ Stands log type stored) ∧
    (∀ type, later.condition? type = none ↔ ∀ set ∈ log, set.type ≠ type) ∧
    ∀ x : Condition,
      (∀ type, type ≠ x.type → (later.setCondition x).condition? type = later.condition? type) ∧
      ∃ conditions, later.setCondition x = { later with status.conditions := conditions } ∧
        conditions.filter (fun old => old.type ≠ x.type) =
          later.status.conditions.filter fun old => old.type ≠ x.type := by
  intro log later
  have told : Tells log later.status.conditions := NodeClass.tells_editAll (.initial distinct) edits
  refine ⟨?_, told.types, fun type stored => told.find?_eq_some_iff, fun type => ?_, fun x => ⟨?_, ?_⟩⟩
  · rw [told.types]
    exact nodup_map_firstPerKey log
  · rw [NodeClass.condition?, told.find?_eq_none_iff]
    simp
  · exact fun type other => find?_putCondition_of_ne later.status.conditions other
  · exact ⟨_, rfl, filter_putCondition { x with observedGeneration := later.generation }
      later.status.conditions⟩

section Relapsing

/-- A condition with a status and a time. -/
def conditionAt (type : String) (status : ConditionStatus) (reason : String) (seconds : Int) :
    Condition :=
  ⟨type, status, reason, "", .ofSeconds seconds, 0⟩

/-- A node class that has been ready for ten seconds after the epoch. -/
def relapsingClass : NodeClass :=
  { NodeClass.new "class" { zone := "z1" } with
    status.conditions := [conditionAt Condition.ready .met "Ready" 10] }

/-- It becomes unready, stays so while its generation changes and another condition is set, and no
time that is given for the same status counts. -/
def relapsingEdits : List ClassEdit := [
  .condition (conditionAt Condition.ready .met "StillReady" 20),
  .condition (conditionAt Condition.ready .unmet "NoZone" 30),
  .generation 2,
  .condition (conditionAt "Valid" .unknown "New" 35),
  .condition (conditionAt Condition.ready .unmet "NoNetwork" 40)]

/-- A ready condition as it is stored with a generation. -/
def readyAt (status : ConditionStatus) (reason : String) (seconds : Int) (generation : Int64) :
    Condition :=
  { conditionAt Condition.ready status reason seconds with observedGeneration := generation }

theorem conditions_tell_history_of_relapse :
    (relapsingClass.status.conditions.map (·.type)).Nodup ∧
    (relapsingClass.editAll relapsingEdits).condition? Condition.ready =
      some { conditionAt Condition.ready .unmet "NoNetwork" 30 with observedGeneration := 2 } ∧
    (relapsingClass.editAll relapsingEdits).status.conditions.map (·.type) =
      [Condition.ready, "Valid"] := by
  have distinct : (relapsingClass.status.conditions.map (·.type)).Nodup := by decide
  obtain ⟨-, htypes, hstored, -, -⟩ :=
    conditions_tell_history relapsingClass distinct relapsingEdits
  -- The run consists of the two unmet conditions.
  have run : LastRun ((relapsingClass.conditionLog relapsingEdits).filter
      fun c => c.type = Condition.ready) (readyAt .unmet "NoZone" 30 1)
        (readyAt .unmet "NoNetwork" 40 2) := by
    have hlog : (relapsingClass.conditionLog relapsingEdits).filter
          (fun c => c.type = Condition.ready) =
        [readyAt .met "Ready" 10 0, readyAt .met "StillReady" 20 1] ++
          [readyAt .unmet "NoZone" 30 1, readyAt .unmet "NoNetwork" 40 2] := by
      decide
    rw [hlog]
    exact .intro rfl rfl (by decide) (by decide)
  exact ⟨distinct, (hstored _ _).2 ⟨_, _, run, rfl⟩, htypes.trans (by decide)⟩

end Relapsing

end NodeFleet
