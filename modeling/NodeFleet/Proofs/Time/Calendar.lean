import NodeFleet.Time.Calendar

/-!
# Days and dates

The year found for a day is the one that the day falls into, for all days before and after 1970.
The date of a day exists, and its day number is the day.
-/

namespace NodeFleet

namespace Calendar

/-- The lengths of months, added up. -/
def span (lengths : List Nat) : Nat :=
  lengths.foldr Nat.add 0

/-- A year lasts as long as its months. -/
theorem yearStart_succ (year : Int) :
    yearStart (year + 1) = yearStart year + span (monthLengths (isLeap year)) := by
  have hspan (leap : Bool) : span (monthLengths leap) = if leap then 366 else 365 := by
    cases leap <;> rfl
  have hleap : isLeap year = true ↔ year % 4 = 0 ∧ (year % 100 ≠ 0 ∨ year % 400 = 0) := by
    simp [isLeap]
  rw [hspan, yearStart, yearStart]
  by_cases h : isLeap year = true
  · rw [if_pos h]
    rw [hleap] at h
    omega
  · rw [if_neg h]
    rw [hleap] at h
    omega

/-- A day is not before its year and not after it. -/
theorem yearOf_bounds (day : Int) :
    yearStart (yearOf day) ≤ day ∧ day < yearStart (yearOf day + 1) := by
  simp only [yearOf]
  generalize hguess : (day + 719528) * 400 / 146097 = guess
  -- The estimate divides by the mean length of a year, from which no year start is off by two days.
  split
  · rename_i hearly
    rw [show guess - 1 + 1 = guess by omega]
    refine ⟨?_, hearly⟩
    rw [yearStart] at hearly ⊢
    omega
  · split
    · rename_i hlate
      refine ⟨hlate, ?_⟩
      rw [yearStart] at hlate ⊢
      omega
    · omega

/-- Within a row of months a day is found in the one it falls into. -/
theorem splitDay_of_lt {lengths : List Nat} {day : Nat} (h : day < span lengths) (month : Nat) :
    ∃ index length rest, lengths[index]? = some length ∧ rest < length ∧
      splitDay month lengths day = (month + index, rest + 1) ∧
      span (lengths.take index) + rest = day := by
  induction lengths generalizing month day with
  | nil => cases h
  | cons length others ih =>
      rw [splitDay]
      split
      · rename_i hhere
        exact ⟨0, length, day, rfl, hhere, rfl, Nat.zero_add day⟩
      · rename_i hlater
        have hspan : span (length :: others) = length + span others := rfl
        have hless : day - length < span others := by omega
        obtain ⟨index, found, rest, hfound, hrest, hsplit, hday⟩ := ih hless (month + 1)
        refine ⟨index + 1, found, rest, hfound, hrest, ?_, ?_⟩
        · rw [hsplit, Nat.add_right_comm, Nat.add_assoc]
        · have htake : span ((length :: others).take (index + 1)) =
              length + span (others.take index) := rfl
          omega

/-- A day of a year is one of a month of the year. -/
theorem dateOf_month (day : Int) :
    ∃ index length rest, (monthLengths (isLeap (yearOf day)))[index]? = some length ∧
      rest < length ∧ dateOf day = ⟨yearOf day, 1 + index, rest + 1⟩ ∧
      yearStart (yearOf day)
        + (span ((monthLengths (isLeap (yearOf day))).take index) + rest : Nat) = day := by
  obtain ⟨hfirst, hnext⟩ := yearOf_bounds day
  rw [yearStart_succ] at hnext
  have hday : (day - yearStart (yearOf day)).toNat < span (monthLengths (isLeap (yearOf day))) := by
    omega
  obtain ⟨index, length, rest, hlength, hrest, hsplit, hday⟩ := splitDay_of_lt hday 1
  refine ⟨index, length, rest, hlength, hrest, ?_, by omega⟩
  simp only [dateOf, hsplit]

theorem dateOf_isValid (day : Int) : (dateOf day).isValid = true := by
  obtain ⟨index, length, rest, hlength, hrest, hdate, -⟩ := dateOf_month day
  rw [hdate, Date.isValid, Nat.add_sub_cancel_left, hlength]
  have : rest + 1 ≤ length := hrest
  simp [this]

theorem dateOf_dayNumber (day : Int) : (dateOf day).dayNumber = day := by
  obtain ⟨index, length, rest, -, -, hdate, hday⟩ := dateOf_month day
  rw [hdate, Date.dayNumber, Nat.add_sub_cancel_left, Nat.add_sub_cancel]
  exact hday

end Calendar

namespace Date

/-- Months and days are numbers of two digits at most. -/
theorem lt_hundred_of_isValid {d : Date} (h : d.isValid = true) : d.month < 100 ∧ d.day < 100 := by
  have hlengths (leap : Bool) :
      ∀ index length, (Calendar.monthLengths leap)[index]? = some length →
        index < 12 ∧ length ≤ 31 := by
    intro index length hlength
    have hindex := (List.getElem?_eq_some_iff.1 hlength).1
    have hlong : ∀ n ∈ Calendar.monthLengths leap, n ≤ 31 := by
      cases leap <;> decide
    exact ⟨hindex, hlong length (List.mem_of_getElem? hlength)⟩
  rw [isValid] at h
  split at h
  · rename_i length hlength
    have := hlengths _ _ _ hlength
    simp only [Bool.and_eq_true, decide_eq_true_eq] at h
    omega
  · simp at h

end Date

end NodeFleet
