import Mathlib.Data.List.Nodup
import NodeFleet.Selection

/-!
# Resolution by the set of criteria

Among candidates with distinct identifiers a pick is its identifier, so keeping the first pick of
every identifier keeps each pick once. What is resolved then depends only on which criteria occur
among the terms: not on their order, not on how often one occurs, and not on terms that ask for
nothing. Whatever the candidates, terms that are added behind the others add resources behind those
resolved before, and a term that is repeated adds none.
-/

namespace NodeFleet

section FirstPerKey

variable {α : Type} {key : α → String}

theorem mem_of_mem_firstPerKey {x : α} {items : List α} (h : x ∈ firstPerKey key items) :
    x ∈ items := by
  induction items with
  | nil => cases h
  | cons a rest ih =>
      rcases List.mem_cons.1 h with rfl | h
      · exact List.mem_cons_self
      · exact List.mem_cons_of_mem _ (ih (List.mem_of_mem_filter h))

/-- Some item of every key that occurs is kept. -/
theorem exists_mem_firstPerKey {x : α} {items : List α} (h : x ∈ items) :
    ∃ y ∈ firstPerKey key items, key y = key x := by
  induction items with
  | nil => cases h
  | cons a rest ih =>
      rw [firstPerKey]
      by_cases hkey : key a = key x
      · exact ⟨a, List.mem_cons_self, hkey⟩
      · rcases List.mem_cons.1 h with rfl | h
        · exact absurd rfl hkey
        · obtain ⟨y, hy, hyx⟩ := ih h
          refine ⟨y, List.mem_cons_of_mem _ (List.mem_filter.2 ⟨hy, ?_⟩), hyx⟩
          rw [hyx]
          exact decide_eq_true fun he => hkey he.symm

theorem nodup_map_firstPerKey (items : List α) : ((firstPerKey key items).map key).Nodup := by
  induction items with
  | nil => exact List.nodup_nil
  | cons a rest ih =>
      rw [firstPerKey, List.map_cons, List.nodup_cons]
      constructor
      · intro hmem
        obtain ⟨y, hy, hkey⟩ := List.mem_map.1 hmem
        exact of_decide_eq_true (List.mem_filter.1 hy).2 hkey
      · exact ih.sublist (List.filter_sublist.map key)

theorem mem_firstPerKey_of_inj {items : List α}
    (inj : ∀ x ∈ items, ∀ y ∈ items, key x = key y → x = y) {x : α} :
    x ∈ firstPerKey key items ↔ x ∈ items := by
  constructor
  · exact mem_of_mem_firstPerKey
  · intro h
    obtain ⟨y, hy, hkey⟩ : ∃ y ∈ firstPerKey key items, key y = key x :=
      exists_mem_firstPerKey h
    exact inj y (mem_of_mem_firstPerKey hy) x h hkey ▸ hy

/-- Of a second list are kept the items of keys that the first does not have. -/
theorem firstPerKey_append (xs ys : List α) :
    firstPerKey key (xs ++ ys) =
      firstPerKey key xs ++ (firstPerKey key ys).filter fun y => key y ∉ xs.map key := by
  induction xs with
  | nil => simp [firstPerKey]
  | cons a rest ih =>
      rw [List.cons_append, firstPerKey, firstPerKey, ih, List.filter_append, List.filter_filter,
        List.cons_append]
      congr 2
      apply List.filter_congr
      intro y _
      rw [← Bool.decide_and, List.map_cons, decide_eq_decide, List.mem_cons, not_or]

/-- Items of keys that were there before make no difference. -/
theorem firstPerKey_insert {xs ys : List α} (h : ∀ y ∈ ys, key y ∈ xs.map key) (zs : List α) :
    firstPerKey key (xs ++ (ys ++ zs)) = firstPerKey key (xs ++ zs) := by
  have hnone : (firstPerKey key ys).filter (fun y => key y ∉ xs.map key) = [] :=
    List.filter_eq_nil_iff.2 fun y hy => by simpa using h y (mem_of_mem_firstPerKey hy)
  have hkeys (z : α) : key z ∈ (xs ++ ys).map key ↔ key z ∈ xs.map key := by
    rw [List.map_append, List.mem_append, or_iff_left_of_imp]
    intro hz
    obtain ⟨y, hy, hkey⟩ := List.mem_map.1 hz
    exact hkey ▸ h y hy
  rw [← List.append_assoc, firstPerKey_append (xs ++ ys), firstPerKey_append xs ys, hnone,
    List.append_nil, firstPerKey_append xs zs]
  congr 1
  exact List.filter_congr fun z _ => decide_eq_decide.2 (not_congr (hkeys z))

end FirstPerKey

namespace Criteria

/-- Criteria that ask for nothing. -/
def blank : Criteria :=
  ⟨none, none, none, .empty⟩

end Criteria

namespace Selectable

variable {R : Type} [Selectable R] {candidates : List R}

theorem pick_blank (candidates : List R) : pick candidates .blank = [] :=
  rfl

theorem mem_of_mem_matching {r : R} {c : Criteria} (h : r ∈ matching candidates c) :
    r ∈ candidates := by
  rw [matching] at h
  split at h
  · cases h
  · exact List.mem_of_mem_filter h

theorem mem_of_mem_pick {r : R} {c : Criteria} (h : r ∈ pick candidates c) : r ∈ candidates := by
  rw [pick] at h
  split at h
  next found hid =>
      obtain ⟨wanted, _, hfind⟩ := Option.bind_eq_some_iff.1 hid
      obtain rfl := List.mem_singleton.1 h
      exact List.mem_of_find?_eq_some hfind
  next =>
      split at h
      next found hname =>
          obtain ⟨wanted, _, hfind⟩ := Option.bind_eq_some_iff.1 hname
          obtain rfl := List.mem_singleton.1 h
          exact List.mem_of_find?_eq_some hfind
      next => exact mem_of_mem_matching h

/-- Whether two lists of terms ask for the same, terms that ask for nothing aside. -/
def AskAlike (cs ds : List Criteria) : Prop :=
  ∀ c, c ≠ Criteria.blank → (c ∈ cs ↔ c ∈ ds)

theorem mem_pickAll {r : R} {cs : List Criteria} :
    r ∈ pickAll candidates cs ↔ ∃ c ∈ cs, c ≠ Criteria.blank ∧ r ∈ pick candidates c := by
  rw [pickAll, List.mem_flatMap]
  constructor
  · rintro ⟨c, hc, hr⟩
    refine ⟨c, hc, ?_, hr⟩
    rintro rfl
    rw [pick_blank] at hr
    cases hr
  · rintro ⟨c, hc, _, hr⟩
    exact ⟨c, hc, hr⟩

theorem mem_pickAll_congr {cs ds : List Criteria} (h : AskAlike cs ds) (r : R) :
    r ∈ pickAll candidates cs ↔ r ∈ pickAll candidates ds := by
  rw [mem_pickAll, mem_pickAll]
  constructor
  · rintro ⟨c, hc, hblank, hr⟩
    exact ⟨c, (h c hblank).1 hc, hblank, hr⟩
  · rintro ⟨c, hc, hblank, hr⟩
    exact ⟨c, (h c hblank).2 hc, hblank, hr⟩

/-- A term that is repeated later makes no difference to what is resolved, whatever the candidates. -/
theorem resolve_insert {before after : List Criteria} {c : Criteria} (held : c ∈ before)
    (zone : String) :
    resolve candidates (before ++ c :: after) zone = resolve candidates (before ++ after) zone := by
  have hkeys : ∀ r ∈ pick candidates c, id r ∈ (pickAll candidates before).map id :=
    fun r hr => List.mem_map_of_mem (List.mem_flatMap.2 ⟨c, held, hr⟩)
  have hpicks : distinct (pickAll candidates (before ++ c :: after)) =
      distinct (pickAll candidates (before ++ after)) := by
    have hsame := firstPerKey_insert hkeys (pickAll candidates after)
    rwa [pickAll, pickAll, ← List.flatMap_cons, ← List.flatMap_append, ← List.flatMap_append]
      at hsame
  rw [resolve, resolve, hpicks]

/-- What is resolved stays in front when terms are added, whatever the candidates: a resource that
cannot be used keeps hiding those of its identifier behind it. -/
theorem resolve_append {terms more : List Criteria} {zone : String} {resolved : List R}
    (h : resolve candidates terms zone = .ok resolved) :
    ∃ longer, resolve candidates (terms ++ more) zone = .ok longer ∧ resolved <+: longer := by
  have hpicks : (distinct (pickAll candidates terms)).filter (fun r => isUsable r) <+:
      (distinct (pickAll candidates (terms ++ more))).filter fun r => isUsable r := by
    rw [pickAll, pickAll, List.flatMap_append, distinct, firstPerKey_append]
    exact (List.prefix_append _ _).filter _
  rw [resolve] at h ⊢
  split at h
  next => cases h
  next found =>
      obtain rfl := Except.ok.inj h
      split
      next hnone =>
          rw [hnone, List.prefix_nil] at hpicks
          exact absurd hpicks found
      next => exact ⟨_, rfl, hpicks⟩

theorem eq_of_id_eq (unique : (candidates.map id).Nodup) {x y : R} (hx : x ∈ candidates)
    (hy : y ∈ candidates) (h : id x = id y) : x = y :=
  List.inj_on_of_nodup_map unique hx hy h

theorem mem_distinct_pickAll (unique : (candidates.map id).Nodup) {cs : List Criteria} {r : R} :
    r ∈ distinct (pickAll candidates cs) ↔ r ∈ pickAll candidates cs := by
  apply mem_firstPerKey_of_inj
  intro x hx y hy hid
  obtain ⟨c, _, _, hx⟩ := mem_pickAll.1 hx
  obtain ⟨d, _, _, hy⟩ := mem_pickAll.1 hy
  exact eq_of_id_eq unique (mem_of_mem_pick hx) (mem_of_mem_pick hy) hid

theorem nodup_distinct (resources : List R) : (distinct resources).Nodup :=
  List.Nodup.of_map id (nodup_map_firstPerKey resources)

/-- Lists of terms that ask for the same pick the same resources, each once. -/
theorem distinct_pickAll_perm (unique : (candidates.map id).Nodup) {cs ds : List Criteria}
    (h : AskAlike cs ds) :
    (distinct (pickAll candidates cs)).Perm (distinct (pickAll candidates ds)) := by
  rw [List.perm_ext_iff_of_nodup (nodup_distinct _) (nodup_distinct _)]
  intro r
  rw [mem_distinct_pickAll unique, mem_distinct_pickAll unique, mem_pickAll_congr h]

/-- Two outcomes of resolution that no launch can tell apart, up to order: both found no match, or
both found the same resources. -/
def ResolvedAlike (x y : Except ResourceError (List R)) : Prop :=
  (∃ kind zone, x = .error (.noMatch kind zone) ∧ y = .error (.noMatch kind zone)) ∨
    ∃ xs ys, x = .ok xs ∧ y = .ok ys ∧ xs.Perm ys

theorem resolve_alike (unique : (candidates.map id).Nodup) {cs ds : List Criteria}
    (h : AskAlike cs ds) (zone : String) :
    ResolvedAlike (resolve candidates cs zone) (resolve candidates ds zone) := by
  have hperm := (distinct_pickAll_perm unique h).filter fun r => isUsable r
  rw [resolve, resolve]
  split
  next hnone =>
      rw [hnone, List.nil_perm] at hperm
      rw [hperm]
      exact .inl ⟨_, _, rfl, rfl⟩
  next hsome =>
      split
      next hnone =>
          rw [hnone, List.perm_nil] at hperm
          exact absurd hperm hsome
      next => exact .inr ⟨_, _, rfl, rfl, hperm⟩

end Selectable

end NodeFleet
