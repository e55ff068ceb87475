import NodeFleet.Proofs.Time.Reading

/-!
# Local times at an offset

A local time of the years 0 to 9999 may be followed by its offset with or without a colon, or by a Z
at Greenwich. The plain grammar reads both forms of an offset and the strict one the colon and the Z.
A text that is of both grammars has the same fields in both.
-/

namespace NodeFleet

open Instant (padded allDigits_padded padded_ne_nil length_padded)

/-- An offset from Greenwich of whole minutes, less than a day to the east or to the west. -/
structure ClockOffset where
  west : Bool
  minutes : Nat
  minutes_lt : minutes < 1440

namespace ClockOffset

/-- The offset in seconds east of Greenwich. -/
def seconds (o : ClockOffset) : Int :=
  if o.west then -((o.minutes * 60 : Nat) : Int) else (o.minutes * 60 : Nat)

/-- The sign of the offset; at Greenwich there is a choice. -/
def sign (o : ClockOffset) : Char :=
  if o.west then '-' else '+'

/-- The texts of an offset: hours and minutes with or without a colon, or a Z at Greenwich. -/
inductive Written (o : ClockOffset) : List Char → Prop
  | plain : Written o (o.sign :: (padded 2 (o.minutes / 60) ++ padded 2 (o.minutes % 60)))
  | colon : Written o (o.sign :: (padded 2 (o.minutes / 60) ++ ':' :: padded 2 (o.minutes % 60)))
  | zulu (greenwich : o.minutes = 0) : Written o ['Z']

theorem seconds_bounds (o : ClockOffset) : o.seconds.natAbs < 86400 ∧ o.seconds % 60 = 0 := by
  have := o.minutes_lt
  rw [seconds]
  split <;> omega

end ClockOffset

namespace LocalTime

section Fixed

variable {width n : Nat} {cs rest : List Char}

theorem readFixed?_padded (hw : 0 < width) (h : n < 10 ^ width) (rest : List Char) :
    readFixed? width (padded width n ++ rest) = some (n, rest) := by
  have hlength := length_padded hw h
  have hdigits : ((padded width n ++ rest).take width).takeWhile Char.isDigit = padded width n := by
    rw [List.take_append_of_le_length (Nat.le_of_eq hlength.symm),
      List.take_of_length_le (Nat.le_of_eq hlength)]
    have hall : (padded width n ++ []).takeWhile Char.isDigit = padded width n :=
      takeWhile_isDigit_append (allDigits_padded width n) (fun c hc => nomatch hc)
    rwa [List.append_nil] at hall
  rw [readFixed?, hdigits, if_pos hlength, readNumber?_padded hw h]

theorem readNumber?_of_readFixed? {x : Nat × List Char} (h : readFixed? width cs = some x) :
    readNumber? width cs = some x := by
  rw [readFixed?] at h
  split at h
  · exact h
  · cases h

/-- What has a fixed width begins with a digit. -/
theorem exists_digit_of_readFixed? {x : Nat × List Char} (h : readFixed? width cs = some x) :
    ∃ c others, cs = c :: others ∧ c.isDigit = true := by
  have hnumber := readNumber?_of_readFixed? h
  cases cs with
  | nil => simp [readNumber?] at hnumber
  | cons c others =>
      refine ⟨c, others, rfl, ?_⟩
      by_contra hc
      cases width <;> simp [readNumber?, hc] at hnumber

theorem trimStart_of_digit {c : Char} (h : c.isDigit = true) (others : List Char) :
    Text.trimStart (c :: others) = c :: others := by
  rw [Text.trimStart, List.dropWhile_cons_of_neg (by simp [Text.isBlank_of_isDigit h])]

theorem readShort?_of_readFixed? {x : Nat × List Char} (h : readFixed? 2 cs = some x) :
    readShort? cs = some x := by
  obtain ⟨c, others, rfl, hc⟩ := exists_digit_of_readFixed? h
  rw [readShort?, trimStart_of_digit hc, readNumber?_of_readFixed? h]

theorem readYear?_of_readFixed? (h : readFixed? 4 cs = some (n, rest)) :
    readYear? cs = some ((n : Int), rest) := by
  obtain ⟨c, others, rfl, hc⟩ := exists_digit_of_readFixed? h
  rw [readYear?, trimStart_of_digit hc]
  split
  next hminus =>
    cases hminus
    cases hc
  next hplus =>
    cases hplus
    cases hc
  next =>
    rw [readNumber?_of_readFixed? h]
    rfl

theorem skipColons_of_readFixed? {x : Nat × List Char} (h : readFixed? width cs = some x) :
    skipColons cs = some cs ∧ skipColons (':' :: cs) = some cs := by
  obtain ⟨c, others, rfl, hc⟩ := exists_digit_of_readFixed? h
  have hstop : (c == ':' || Text.isBlank c) = false := by
    rw [Text.isBlank_of_isDigit hc, Bool.or_false, beq_eq_false_iff_ne]
    rintro rfl
    cases hc
  have hhere : skipColons (c :: others) = some (c :: others) := by
    rw [skipColons, List.dropWhile_cons_of_neg (by simp [hstop])]
  exact ⟨hhere, by rw [skipColons, List.dropWhile_cons_of_pos rfl]; exact hhere⟩

end Fixed

section Grammars

variable {cs : List Char}

/-- The sign of an offset. -/
def readSign? : List Char → Option (Bool × List Char)
  | '+' :: rest => some (false, rest)
  | '-' :: rest => some (true, rest)
  | '\u2212' :: rest => some (true, rest)
  | _ => none

/-- The hours and minutes of an offset, with its sign. -/
def readClock? (separator : List Char → Option (List Char)) (negative : Bool) (cs : List Char) :
    Option (Int × List Char) :=
  (readFixed? 2 cs).bind fun hours =>
    (separator hours.2).bind fun cs =>
      (readFixed? 2 cs).bind fun minutes =>
        let seconds : Int := (hours.1 * 3600 + minutes.1 * 60 : Nat)
        if 59 < minutes.1 then none
        else some (if negative then -seconds else seconds, minutes.2)

theorem readSign?_eq_none (hplus : ∀ rest, cs = '+' :: rest → False)
    (hminus : ∀ rest, cs = '-' :: rest → False)
    (htypographic : ∀ rest, cs = '\u2212' :: rest → False) : readSign? cs = none := by
  unfold readSign?
  split
  next rest => exact absurd rfl (hplus rest)
  next rest => exact absurd rfl (hminus rest)
  next rest => exact absurd rfl (htypographic rest)
  next => rfl

theorem readOffset?_eq (separator : List Char → Option (List Char)) (cs : List Char) :
    readOffset? separator cs = (readSign? cs).bind fun x => readClock? separator x.1 x.2 := by
  unfold readOffset?
  split
  · rfl
  · rfl
  · rfl
  next hplus hminus htypographic =>
      rw [readSign?_eq_none hplus hminus htypographic]
      rfl

theorem trimStart_of_readSign? {x : Bool × List Char} (h : readSign? cs = some x) :
    Text.trimStart cs = cs := by
  unfold readSign? at h
  split at h
  · rfl
  · rfl
  · rfl
  · cases h

theorem readChar?_eq_some {c : Char} {rest : List Char} (h : readChar? c cs = some rest) :
    cs = c :: rest := by
  cases cs with
  | nil => cases h
  | cons d others =>
      rw [readChar?] at h
      split at h
      next same => rw [same, Option.some.inj h]
      next => cases h

/-- An offset with a colon is read alike where any colons and blanks are skipped. -/
theorem readOffset?_skipColons {x : Int × List Char} (h : readOffset? (readChar? ':') cs = some x) :
    readOffset? skipColons (Text.trimStart cs) = some x := by
  rw [readOffset?_eq] at h ⊢
  obtain ⟨sign, hsign, hclock⟩ := Option.bind_eq_some_iff.1 h
  obtain ⟨hours, hhours, h⟩ := Option.bind_eq_some_iff.1 hclock
  obtain ⟨rest, hcolon, h⟩ := Option.bind_eq_some_iff.1 h
  obtain ⟨minutes, hminutes, hx⟩ := Option.bind_eq_some_iff.1 h
  have hskip : skipColons hours.2 = some rest :=
    readChar?_eq_some hcolon ▸ (skipColons_of_readFixed? hminutes).2
  rw [trimStart_of_readSign? hsign, hsign]
  simp only [readClock?, Option.bind_some, hhours, hskip, hminutes]
  exact hx

theorem isSome_readSign? {separator : List Char → Option (List Char)} {x : Int × List Char}
    (h : readOffset? separator cs = some x) : (readSign? cs).isSome = true := by
  rw [readOffset?_eq] at h
  obtain ⟨sign, hsign, -⟩ := Option.bind_eq_some_iff.1 h
  rw [hsign]
  rfl

/-- A sign after blanks is no fraction. -/
theorem readFraction?_of_sign {nanos : Nat} {rest : List Char}
    (hsign : (readSign? (Text.trimStart cs)).isSome = true)
    (h : readFraction? cs = some (nanos, rest)) : nanos = 0 ∧ rest = cs := by
  unfold readFraction? at h
  split at h
  · cases hsign
  · cases h
    exact ⟨rfl, rfl⟩

/-- A text of the strict and the plain grammar has the same fields in both. -/
theorem eq_of_readStrict?_of_readPlain? {s p : LocalTime} (hs : readStrict? cs = some s)
    (hp : readPlain? cs = some p) : s = p := by
  obtain ⟨⟨year, c₁⟩, hyear, hs⟩ := Option.bind_eq_some_iff.1 hs
  obtain ⟨c₂, hdash, hs⟩ := Option.bind_eq_some_iff.1 hs
  obtain ⟨⟨month, c₃⟩, hmonth, hs⟩ := Option.bind_eq_some_iff.1 hs
  obtain ⟨c₄, hdash', hs⟩ := Option.bind_eq_some_iff.1 hs
  obtain ⟨⟨day, c₅⟩, hday, hs⟩ := Option.bind_eq_some_iff.1 hs
  obtain ⟨c₆, hbetween, hs⟩ := Option.bind_eq_some_iff.1 hs
  obtain ⟨⟨hour, c₇⟩, hhour, hs⟩ := Option.bind_eq_some_iff.1 hs
  obtain ⟨c₈, hcolon, hs⟩ := Option.bind_eq_some_iff.1 hs
  obtain ⟨⟨minute, c₉⟩, hminute, hs⟩ := Option.bind_eq_some_iff.1 hs
  obtain ⟨c₁₀, hcolon', hs⟩ := Option.bind_eq_some_iff.1 hs
  obtain ⟨⟨second, c₁₁⟩, hsecond, hs⟩ := Option.bind_eq_some_iff.1 hs
  obtain ⟨⟨nanos, c₁₂⟩, hfraction, hzone⟩ := Option.bind_eq_some_iff.1 hs
  dsimp only at hzone
  simp only [readPlain?, readYear?_of_readFixed? hyear, hdash, readShort?_of_readFixed? hmonth,
    hdash', readShort?_of_readFixed? hday, Option.bind_eq_bind, Option.bind_some] at hp
  obtain ⟨c₆', hmark, hp⟩ := Option.bind_eq_some_iff.1 hp
  obtain rfl : c₆' = c₆ := by
    obtain rfl := readChar?_eq_some hmark
    exact Option.some.inj hbetween
  simp only [readShort?_of_readFixed? hhour, hcolon, readShort?_of_readFixed? hminute, hcolon',
    readShort?_of_readFixed? hsecond, Option.bind_some] at hp
  obtain ⟨⟨offset, c₁₃⟩, hoffset, hend⟩ := Option.bind_eq_some_iff.1 hp
  have hsome : (readSign? (Text.trimStart c₁₁)).isSome = true := isSome_readSign? hoffset
  -- An offset follows the seconds, so there is no fraction and no Z.
  obtain ⟨rfl, rfl⟩ := readFraction?_of_sign hsome hfraction
  split at hzone
  next => cases hsome
  next => cases hsome
  next =>
      obtain ⟨zone, hzone, hs⟩ := Option.bind_eq_some_iff.1 hzone
      obtain rfl : zone = (offset, c₁₃) :=
        Option.some.inj ((readOffset?_skipColons hzone).symm.trans hoffset)
      exact Option.some.inj (hs.symm.trans hend)

end Grammars

section Written

variable {year month day hour minute second : Nat} {zone : List Char}

/-- The fields of a local time whose year has four digits, up to the seconds. -/
def fieldsText (year month day hour minute second : Nat) : List Char :=
  padded 4 year ++ '-' :: (padded 2 month ++ '-' :: (padded 2 day ++ 'T' :: (padded 2 hour ++
    ':' :: (padded 2 minute ++ ':' :: padded 2 second))))

/-- A written offset is a Z at Greenwich or read as it is, with a colon or without. -/
theorem readOffset?_written {o : ClockOffset} (h : o.Written zone) :
    (zone = ['Z'] ∧ o.seconds = 0) ∨
      readOffset? skipColons (Text.trimStart zone) = some (o.seconds, []) := by
  have hminutes := o.minutes_lt
  have hsign (rest : List Char) : readSign? (o.sign :: rest) = some (o.west, rest) := by
    rw [ClockOffset.sign]
    cases o.west <;> rfl
  have hhours (rest : List Char) :
      readFixed? 2 (padded 2 (o.minutes / 60) ++ rest) = some (o.minutes / 60, rest) :=
    readFixed?_padded (by decide) (by omega) rest
  have hrest : readFixed? 2 (padded 2 (o.minutes % 60)) = some (o.minutes % 60, []) := by
    rw [← List.append_nil (padded 2 (o.minutes % 60))]
    exact readFixed?_padded (by decide) (by omega) []
  obtain ⟨hplain, hcolon⟩ := skipColons_of_readFixed? hrest
  have hwhole : o.minutes / 60 * 3600 + o.minutes % 60 * 60 = o.minutes * 60 := by omega
  have hlow : ¬ 59 < o.minutes % 60 := by omega
  cases h with
  | plain =>
      right
      rw [trimStart_of_readSign? (hsign _), readOffset?_eq, hsign]
      simp only [readClock?, Option.bind_some, hhours, hplain, hrest, if_neg hlow, hwhole]
      rfl
  | colon =>
      right
      rw [trimStart_of_readSign? (hsign _), readOffset?_eq, hsign]
      simp only [readClock?, Option.bind_some, hhours, hcolon, hrest, if_neg hlow, hwhole]
      rfl
  | zulu greenwich =>
      left
      rw [ClockOffset.seconds, greenwich, Nat.zero_mul]
      exact ⟨rfl, ite_self _⟩

/-- The plain grammar reads the fields and whatever offset it reads behind them. -/
theorem readPlain?_fields (hyear : year < 10000) (hmonth : month < 100) (hday : day < 100)
    (hhour : hour < 100) (hminute : minute < 100) (hsecond : second < 100) {offset : Int}
    (hoffset : readOffset? skipColons (Text.trimStart zone) = some (offset, [])) :
    readPlain? (fieldsText year month day hour minute second ++ zone) =
      some ⟨year, month, day, hour, minute, second, 0, offset⟩ := by
  simp only [fieldsText, List.append_assoc, List.cons_append]
  rw [readPlain?]
  refine bind_eq_of_some (readYear?_padded hyear _) ?_
  refine bind_eq_of_some (readChar?_self '-' _) (bind_eq_of_some (readShort?_padded hmonth _) ?_)
  refine bind_eq_of_some (readChar?_self '-' _) (bind_eq_of_some (readShort?_padded hday _) ?_)
  refine bind_eq_of_some (readChar?_self 'T' _) (bind_eq_of_some (readShort?_padded hhour _) ?_)
  refine bind_eq_of_some (readChar?_self ':' _) (bind_eq_of_some (readShort?_padded hminute _) ?_)
  refine bind_eq_of_some (readChar?_self ':' _) (bind_eq_of_some (readShort?_padded hsecond _) ?_)
  exact bind_eq_of_some hoffset rfl

/-- The strict grammar reads the fields with a Z behind them. -/
theorem readStrict?_fields (hyear : year < 10000) (hmonth : month < 100) (hday : day < 100)
    (hhour : hour < 100) (hminute : minute < 100) (hsecond : second < 100) :
    readStrict? (fieldsText year month day hour minute second ++ ['Z']) =
      some ⟨year, month, day, hour, minute, second, 0, 0⟩ := by
  have hfixed {n : Nat} (h : n < 100) (rest : List Char) :
      readFixed? 2 (padded 2 n ++ rest) = some (n, rest) :=
    readFixed?_padded (by decide) h rest
  simp only [fieldsText, List.append_assoc, List.cons_append]
  rw [readStrict?]
  refine bind_eq_of_some (readFixed?_padded (by decide) hyear _) ?_
  refine bind_eq_of_some (readChar?_self '-' _) (bind_eq_of_some (hfixed hmonth _) ?_)
  refine bind_eq_of_some (readChar?_self '-' _) (bind_eq_of_some (hfixed hday _) ?_)
  refine bind_eq_of_some (readBetween?_self _) (bind_eq_of_some (hfixed hhour _) ?_)
  refine bind_eq_of_some (readChar?_self ':' _) (bind_eq_of_some (hfixed hminute _) ?_)
  exact bind_eq_of_some (readChar?_self ':' _) (bind_eq_of_some (hfixed hsecond _) rfl)

end Written

end LocalTime

namespace Calendar

/-- A day next to one of the years 0 to 9999 is in a year that instants cover. -/
theorem inRange_yearOf {day other : Int} (h : 0 ≤ yearOf day) (h' : yearOf day ≤ 9999)
    (near : (other - day).natAbs ≤ 1) : Instant.inRange (yearOf other) = true := by
  have hday := yearOf_bounds day
  have hother := yearOf_bounds other
  simp only [yearStart] at hday hother
  simp only [Instant.inRange, Bool.and_eq_true, decide_eq_true_eq]
  omega

end Calendar

namespace Instant

variable {t : Instant} {text : String}

/-- Where the two grammars overlap, they read the same instant. -/
theorem eq_of_strict_of_plain {s p : Instant}
    (hs : (LocalTime.readStrict? text.toList).bind LocalTime.toInstant? = some s)
    (hp : (LocalTime.readPlain? text.toList).bind LocalTime.toInstant? = some p) : s = p := by
  obtain ⟨there, hthere, hs⟩ := Option.bind_eq_some_iff.1 hs
  obtain ⟨there', hthere', hp⟩ := Option.bind_eq_some_iff.1 hp
  rw [LocalTime.eq_of_readStrict?_of_readPlain? hthere hthere'] at hs
  exact Option.some.inj (hs.symm.trans hp)

theorem ofCreationText?_eq_or (text : String) :
    ofCreationText? text = ((LocalTime.readStrict? text.toList).bind LocalTime.toInstant?).or
      ((LocalTime.readPlain? text.toList).bind LocalTime.toInstant?) := by
  rw [ofCreationText?]
  cases (LocalTime.readStrict? text.toList).bind LocalTime.toInstant? <;> rfl

/-- It does not matter which grammar is tried first. -/
theorem ofCreationText?_eq_plain_or (text : String) :
    ofCreationText? text = ((LocalTime.readPlain? text.toList).bind LocalTime.toInstant?).or
      ((LocalTime.readStrict? text.toList).bind LocalTime.toInstant?) := by
  rw [ofCreationText?_eq_or]
  cases hs : (LocalTime.readStrict? text.toList).bind LocalTime.toInstant? with
  | none => rw [Option.none_or, Option.or_none]
  | some s =>
      cases hp : (LocalTime.readPlain? text.toList).bind LocalTime.toInstant? with
      | none => rfl
      | some p => rw [eq_of_strict_of_plain hs hp]

/-- The local time of a whole second is written with the fields that it has at its offset. -/
theorem localText_eq_fieldsText {offset : Int}
    (year : 0 ≤ Calendar.yearOf ((t.seconds + offset) / 86400))
    (year' : Calendar.yearOf ((t.seconds + offset) / 86400) ≤ 9999) :
    t.localText offset = LocalTime.fieldsText (t.civil offset).year.toNat (t.civil offset).month
      (t.civil offset).day (t.civil offset).hour (t.civil offset).minute (t.civil offset).second := by
  have hyear : (Calendar.dateOf ((t.seconds + offset) / 86400)).year =
      Calendar.yearOf ((t.seconds + offset) / 86400) := rfl
  simp only [localText, dateText, clockText, LocalTime.fieldsText, civil, yearText, hyear,
    if_pos (And.intro year year'), List.append_assoc, List.cons_append, decide_eq_true_eq]

/-- A whole second that is written at an offset, in any of the forms, is read back. -/
theorem ofCreationText?_written (whole : t.nanos % 1000000000 = 0) {o : ClockOffset}
    (year : 0 ≤ Calendar.yearOf ((t.seconds + o.seconds) / 86400))
    (year' : Calendar.yearOf ((t.seconds + o.seconds) / 86400) ≤ 9999) {zone : List Char}
    (written : o.Written zone) :
    ofCreationText? (String.ofList (t.localText o.seconds ++ zone)) = some t := by
  obtain ⟨hoffset, hminutes⟩ := o.seconds_bounds
  have hinstant : (t.civil o.seconds).toInstant? = some t := by
    refine LocalTime.toInstant?_civil t hoffset hminutes ?_ ?_
    · exact Calendar.inRange_yearOf year year' (by omega)
    · exact Calendar.inRange_yearOf year year' (by omega)
  have hyear : (t.civil o.seconds).year =
      Calendar.yearOf ((t.seconds + o.seconds) / 86400) := rfl
  have hlow : (t.civil o.seconds).year.toNat < 10000 := by omega
  obtain ⟨hmonth, hday⟩ : (t.civil o.seconds).month < 100 ∧ (t.civil o.seconds).day < 100 :=
    Date.lt_hundred_of_isValid (Calendar.dateOf_isValid ((t.seconds + o.seconds) / 86400))
  have hclock : (t.civil o.seconds).hour < 100 ∧ (t.civil o.seconds).minute < 100 ∧
      (t.civil o.seconds).second < 100 := by
    simp only [civil]
    split <;> omega
  obtain ⟨hhour, hminute, hsecond⟩ := hclock
  have hcivil : (⟨(t.civil o.seconds).year.toNat, (t.civil o.seconds).month, (t.civil o.seconds).day,
      (t.civil o.seconds).hour, (t.civil o.seconds).minute, (t.civil o.seconds).second, 0,
      o.seconds⟩ : LocalTime) = t.civil o.seconds := by
    rw [Int.toNat_of_nonneg (hyear ▸ year), ← whole]
    rfl
  rw [localText_eq_fieldsText year year']
  rcases LocalTime.readOffset?_written written with ⟨rfl, hzero⟩ | hread
  · rw [ofCreationText?_eq_or, String.toList_ofList,
      LocalTime.readStrict?_fields hlow hmonth hday hhour hminute hsecond, Option.bind_some,
      ← hzero, hcivil, hinstant, Option.some_or]
  · rw [ofCreationText?_eq_plain_or, String.toList_ofList,
      LocalTime.readPlain?_fields hlow hmonth hday hhour hminute hsecond hread, Option.bind_some,
      hcivil, hinstant, Option.some_or]

end Instant

end NodeFleet
