import NodeFleet.Proofs.Json.NumberText
import NodeFleet.Proofs.Time.Calendar
import NodeFleet.Time.Reader

/-!
# Reading the text of an instant

A number is read up to its width or to a character that is no digit, so a number padded to its
width gives itself back whatever follows. Field by field the text of an instant gives back its
local time, and the local time the instant: any fraction, leap seconds, and years of any sign and
length.
-/

namespace NodeFleet

open Json (AllDigits allDigits_toDigits allDigits_zeros)

/-- No digit comes first. -/
def NoDigitHead (cs : List Char) : Prop :=
  ∀ c ∈ cs.head?, c.isDigit = false

theorem noDigitHead_cons {c : Char} (h : c.isDigit = false) (rest : List Char) :
    NoDigitHead (c :: rest) := by
  rintro d ⟨⟩
  exact h

theorem takeWhile_isDigit_append {digits rest : List Char} (hd : AllDigits digits)
    (hr : NoDigitHead rest) : (digits ++ rest).takeWhile Char.isDigit = digits := by
  have hstop : rest.takeWhile Char.isDigit = [] := by
    cases rest with
    | nil => rfl
    | cons c others => simp [hr c rfl]
  rw [List.takeWhile_append_of_pos hd, hstop, List.append_nil]

namespace Text

theorem isBlank_of_isDigit {c : Char} (h : c.isDigit = true) : isBlank c = false := by
  have hdigit : 48 ≤ c.toNat ∧ c.toNat ≤ 57 := by
    simpa [Char.isDigit, UInt32.le_iff_toNat_le] using h
  simp only [isBlank, Bool.or_eq_false_iff, Bool.and_eq_false_iff, decide_eq_false_iff_not,
    beq_eq_false_iff_ne]
  omega

theorem trimStart_of_allDigits {digits : List Char} (hd : AllDigits digits) (hne : digits ≠ [])
    (rest : List Char) : trimStart (digits ++ rest) = digits ++ rest := by
  obtain ⟨c, others, rfl⟩ := List.exists_cons_of_ne_nil hne
  have hc : isBlank c = false := isBlank_of_isDigit (hd c List.mem_cons_self)
  simp [trimStart, hc]

end Text

namespace Instant

section Padded

variable {width n : Nat}

theorem allDigits_padded (width n : Nat) : AllDigits (padded width n) :=
  (allDigits_zeros _).append (allDigits_toDigits n)

theorem padded_ne_nil (width n : Nat) : padded width n ≠ [] := by
  simp [padded, Nat.toDigits_ne_nil]

theorem ofDigitChars_padded (width n : Nat) : Nat.ofDigitChars 10 (padded width n) 0 = n := by
  rw [padded, Nat.ofDigitChars_append, Nat.ofDigitChars_replicate_zero, Nat.mul_zero,
    Nat.ofDigitChars_ten_toDigits]

theorem length_padded (hw : 0 < width) (h : n < 10 ^ width) : (padded width n).length = width := by
  have hshort : (Nat.toDigits 10 n).length ≤ width :=
    (Nat.length_toDigits_le_iff (by decide) hw).2 h
  rw [padded, List.length_append, List.length_replicate]
  omega

end Padded

/-- The local time of an instant at an offset of so many seconds east of Greenwich. -/
def civil (t : Instant) (offset : Int) : LocalTime :=
  let date := Calendar.dateOf ((t.seconds + offset) / 86400)
  let clock := ((t.seconds + offset) % 86400).toNat
  ⟨date.year, date.month, date.day, clock / 3600, clock / 60 % 60,
    clock % 60 + if 1000000000 ≤ t.nanos then 1 else 0, t.nanos % 1000000000, offset⟩

end Instant

namespace LocalTime

open Instant (padded allDigits_padded padded_ne_nil ofDigitChars_padded length_padded)

section Numbers

variable {width n : Nat} {digits : List Char}

/-- Digits are read as their number if they fill the width or no digit follows. -/
theorem readNumber?_append (hd : AllDigits digits) (hne : digits ≠ [])
    (hwidth : digits.length ≤ width) {rest : List Char}
    (hend : digits.length = width ∨ NoDigitHead rest) :
    readNumber? width (digits ++ rest) = some (Nat.ofDigitChars 10 digits 0, rest) := by
  have hstop : NoDigitHead (rest.take (width - digits.length)) := by
    rcases hend with hfull | hend
    · rw [hfull, Nat.sub_self, List.take_zero]
      exact fun c hc => nomatch hc
    · intro c hc
      rw [List.head?_take] at hc
      split at hc
      · cases hc
      · exact hend c hc
  have hread : ((digits ++ rest).take width).takeWhile Char.isDigit = digits := by
    rw [List.take_append, List.take_of_length_le hwidth, takeWhile_isDigit_append hd hstop]
  have hnil : digits.isEmpty = false := by simpa using hne
  simp only [readNumber?, hread, hnil, List.drop_left, Nat.ofDigitChars_eq_foldl, Nat.mul_comm]
  rfl

theorem readNumber?_padded (hw : 0 < width) (h : n < 10 ^ width) (rest : List Char) :
    readNumber? width (padded width n ++ rest) = some (n, rest) := by
  have hlength := length_padded hw h
  rw [readNumber?_append (allDigits_padded width n) (padded_ne_nil width n)
    (Nat.le_of_eq hlength) (.inl hlength), ofDigitChars_padded]

theorem readShort?_padded (h : n < 100) (rest : List Char) :
    readShort? (padded 2 n ++ rest) = some (n, rest) := by
  rw [readShort?, Text.trimStart_of_allDigits (allDigits_padded 2 n) (padded_ne_nil 2 n),
    readNumber?_padded (by decide) h]

/-- The digits after a sign are read up to the character that ends them. -/
theorem readNumber?_long {rest : List Char} (hr : NoDigitHead rest) :
    readNumber? (padded width n ++ rest).length (padded width n ++ rest) = some (n, rest) := by
  rw [readNumber?_append (allDigits_padded width n) (padded_ne_nil width n) (by simp) (.inr hr),
    ofDigitChars_padded]

end Numbers

section Years

variable {rest : List Char}

theorem readYear?_padded {n : Nat} (h : n < 10000) (rest : List Char) :
    readYear? (padded 4 n ++ rest) = some ((n : Int), rest) := by
  rw [readYear?, Text.trimStart_of_allDigits (allDigits_padded 4 n) (padded_ne_nil 4 n)]
  -- The first character is a digit, so it is neither sign.
  obtain ⟨c, others, hcs⟩ := List.exists_cons_of_ne_nil (padded_ne_nil 4 n)
  have hc : c.isDigit = true := allDigits_padded 4 n c (hcs ▸ List.mem_cons_self)
  split
  · rename_i hminus
    rw [hcs] at hminus
    cases hminus
    cases hc
  · rename_i hplus
    rw [hcs] at hplus
    cases hplus
    cases hc
  · rw [readNumber?_padded (by decide) h]
    rfl

theorem readYear?_minus (n : Nat) (hr : NoDigitHead rest) :
    readYear? ('-' :: (padded 4 n ++ rest)) = some (-(n : Int), rest) := by
  change (readNumber? (padded 4 n ++ rest).length (padded 4 n ++ rest)).map _ = _
  rw [readNumber?_long hr]
  rfl

theorem readYear?_plus (n : Nat) (hr : NoDigitHead rest) :
    readYear? ('+' :: (padded 4 n ++ rest)) = some ((n : Int), rest) := by
  change (readNumber? (padded 4 n ++ rest).length (padded 4 n ++ rest)).map _ = _
  rw [readNumber?_long hr]
  rfl

theorem readYear?_yearText (year : Int) (hr : NoDigitHead rest) :
    readYear? (Instant.yearText year ++ rest) = some (year, rest) := by
  rw [Instant.yearText]
  split
  · rename_i hfour
    rw [readYear?_padded (by omega), Int.toNat_of_nonneg hfour.1]
  · split
    · rename_i hneg
      rw [List.cons_append, readYear?_minus _ hr, show -(year.natAbs : Int) = year by omega]
    · rename_i hpos
      rw [List.cons_append, readYear?_plus _ hr, show (year.natAbs : Int) = year by omega]

end Years

theorem readChar?_self (c : Char) (rest : List Char) : readChar? c (c :: rest) = some rest :=
  if_pos rfl

theorem readBetween?_self (rest : List Char) : readBetween? ('T' :: rest) = some rest := rfl

section Fraction

theorem readFraction?_digits {digits rest : List Char} (hd : AllDigits digits)
    (hne : digits ≠ []) (hshort : digits.length ≤ 9) (hr : NoDigitHead rest) :
    readFraction? ('.' :: (digits ++ rest)) =
      some (Nat.ofDigitChars 10 digits 0 * Nat.pow 10 (9 - digits.length), rest) := by
  have hnil : digits.isEmpty = false := by simpa using hne
  simp only [readFraction?, takeWhile_isDigit_append hd hr, hnil, List.drop_left,
    List.take_of_length_le hshort, Nat.ofDigitChars_eq_foldl, Nat.mul_comm]
  rfl

theorem readFraction?_padded {width n : Nat} (hw : 0 < width) (hnine : width ≤ 9)
    (h : n < 10 ^ width) {rest : List Char} (hr : NoDigitHead rest) :
    readFraction? ('.' :: (padded width n ++ rest)) =
      some (n * Nat.pow 10 (9 - width), rest) := by
  have hlength := length_padded hw h
  rw [readFraction?_digits (allDigits_padded width n) (padded_ne_nil width n)
    (hlength.symm ▸ hnine) hr, ofDigitChars_padded, hlength]

/-- Three, six or nine digits, as many as are needed, or none, give the nanoseconds back. -/
theorem readFraction?_fractionText {nanos : Nat} (h : nanos < 1000000000) {rest : List Char}
    (hr : NoDigitHead rest) (hpoint : rest.head? ≠ some '.') :
    readFraction? (Instant.fractionText nanos ++ rest) = some (nanos, rest) := by
  rw [Instant.fractionText]
  split
  · rename_i hzero
    rw [hzero, List.nil_append, readFraction?]
    rintro others rfl
    exact hpoint rfl
  · split
    · rename_i hmilli
      rw [List.cons_append, readFraction?_padded (by decide) (by decide) (by omega) hr]
      congr 2
      change nanos / 1000000 * 1000000 = nanos
      omega
    · split
      · rename_i hmicro
        rw [List.cons_append, readFraction?_padded (by decide) (by decide) (by omega) hr]
        congr 2
        change nanos / 1000 * 1000 = nanos
        omega
      · rw [List.cons_append, readFraction?_padded (by decide) (by decide) (by omega) hr]
        congr 2
        exact Nat.mul_one nanos

end Fraction

theorem bind_eq_of_some {α β : Type} {x : Option α} {a : α} {next : α → Option β} {b : Option β}
    (hx : x = some a) (hnext : next a = b) : (x >>= next) = b := by
  rw [hx]
  exact hnext

/-- Every field ends at its width or its mark, and leaves what follows to the next one. -/
theorem readLoose?_fields (year : Int) {month day hour minute second nanos : Nat}
    (hmonth : month < 100) (hday : day < 100) (hhour : hour < 100) (hminute : minute < 100)
    (hsecond : second < 100) (hnanos : nanos < 1000000000) :
    readLoose? (Instant.yearText year ++ '-' :: (padded 2 month ++ '-' :: (padded 2 day ++
      'T' :: (padded 2 hour ++ ':' :: (padded 2 minute ++ ':' :: (padded 2 second ++
        (Instant.fractionText nanos ++ ['Z']))))))) =
      some ⟨year, month, day, hour, minute, second, nanos, 0⟩ := by
  have hmark (mark : Char) (h : Text.isBlank mark = false) (rest : List Char) :
      readChar? mark (Text.trimStart (mark :: rest)) = some rest := by
    rw [Text.trimStart, List.dropWhile_cons_of_neg (by simp [h]), readChar?_self]
  have hfraction : readFraction? (Instant.fractionText nanos ++ ['Z']) = some (nanos, ['Z']) :=
    readFraction?_fractionText hnanos (noDigitHead_cons rfl []) (by decide)
  rw [readLoose?]
  refine bind_eq_of_some (readYear?_yearText year (noDigitHead_cons rfl _)) ?_
  refine bind_eq_of_some (hmark '-' rfl _) (bind_eq_of_some (readShort?_padded hmonth _) ?_)
  refine bind_eq_of_some (hmark '-' rfl _) (bind_eq_of_some (readShort?_padded hday _) ?_)
  refine bind_eq_of_some (readBetween?_self _) (bind_eq_of_some (readShort?_padded hhour _) ?_)
  refine bind_eq_of_some (hmark ':' rfl _) (bind_eq_of_some (readShort?_padded hminute _) ?_)
  refine bind_eq_of_some (hmark ':' rfl _) (bind_eq_of_some (readShort?_padded hsecond _) ?_)
  exact bind_eq_of_some hfraction rfl

/-- The text of an instant is read as its local time at Greenwich. -/
theorem readLoose?_text (t : Instant) : readLoose? t.text.toList = some (t.civil 0) := by
  have hdate := Date.lt_hundred_of_isValid (Calendar.dateOf_isValid (t.seconds / 86400))
  have hhour : (t.seconds % 86400).toNat / 3600 < 100 := by omega
  have hminute : (t.seconds % 86400).toNat / 60 % 60 < 100 := by omega
  have hsecond : (t.seconds % 86400).toNat % 60 +
      (if 1000000000 ≤ t.nanos then 1 else 0) < 100 := by
    split <;> omega
  have hnanos : t.nanos % 1000000000 < 1000000000 := Nat.mod_lt _ (by decide)
  simp only [Instant.text, String.toList_ofList, Instant.localText, Instant.dateText,
    Instant.clockText, Int.add_zero, List.append_assoc, List.cons_append, decide_eq_true_eq]
  rw [readLoose?_fields _ hdate.1 hdate.2 hhour hminute hsecond hnanos]
  simp only [Instant.civil, Int.add_zero]

theorem civil_date (t : Instant) (offset : Int) :
    Date.mk (t.civil offset).year (t.civil offset).month (t.civil offset).day =
      Calendar.dateOf ((t.seconds + offset) / 86400) := rfl

/-- The local time of an instant is the instant, at an offset of whole minutes. -/
theorem toInstant?_civil (t : Instant) {offset : Int} (hoffset : offset.natAbs < 86400)
    (hwhole : offset % 60 = 0)
    (hhere : Instant.inRange (Calendar.yearOf ((t.seconds + offset) / 86400)) = true)
    (hyear : Instant.inRange (Calendar.yearOf (t.seconds / 86400)) = true) :
    (t.civil offset).toInstant? = some t := by
  have hnanos := t.nanos_lt
  have hleap := t.leap
  -- A leap second is second 60 here as at Greenwich, and counts as the second before it.
  have hsecond : (t.civil offset).second ≤ 60 ∧
      ((t.civil offset).second = 60 ↔ 1000000000 ≤ t.nanos) ∧
      min (t.civil offset).second 59 = ((t.seconds + offset) % 86400).toNat % 60 := by
    simp only [Instant.civil]
    split <;> omega
  have hclock : (t.civil offset).hour ≤ 23 ∧ (t.civil offset).minute ≤ 59 := by
    simp only [Instant.civil]
    omega
  have hseconds : (t.civil offset).localSeconds - (t.civil offset).offset = t.seconds := by
    rw [localSeconds, civil_date, Calendar.dateOf_dayNumber, hsecond.2.2]
    simp only [Instant.civil]
    omega
  have hleapNanos : (t.civil offset).leapNanos = t.nanos := by
    simp only [leapNanos, hsecond.2.1]
    simp only [Instant.civil]
    split <;> omega
  simp only [toInstant?, hseconds, hleapNanos, civil_date]
  exact (if_pos ⟨Calendar.dateOf_isValid _, hclock.1, hclock.2, hsecond.1, hoffset, hhere,
    hyear⟩).trans (dif_pos ⟨hnanos, hleap⟩)

end LocalTime

/-- The instants of the years that are read: far more than the years 0 to 9999. -/
def Instant.IsDated (t : Instant) : Prop :=
  inRange (Calendar.yearOf (t.seconds / 86400)) = true

theorem LocalTime.isDated_of_toInstant? {there : LocalTime} {t : Instant}
    (h : there.toInstant? = some t) : t.IsDated := by
  simp only [toInstant?] at h
  split at h
  · rename_i hrange
    split at h
    · cases h
      exact hrange.2.2.2.2.2.2
    · cases h
  · cases h

namespace Instant

theorem ofText?_text {t : Instant} (h : t.IsDated) : ofText? t.text = some t := by
  rw [ofText?, LocalTime.readLoose?_text, Option.bind_some]
  refine LocalTime.toInstant?_civil t (by decide) (by decide) ?_ h
  rw [Int.add_zero]
  exact h

/-- Only instants of those years are read. -/
theorem isDated_of_ofText? {s : String} {t : Instant} (h : ofText? s = some t) : t.IsDated := by
  obtain ⟨there, -, hthere⟩ := Option.bind_eq_some_iff.1 h
  exact LocalTime.isDated_of_toInstant? hthere

end Instant

end NodeFleet
