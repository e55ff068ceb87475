import Mathlib.Algebra.Ring.Nat
import NodeFleet.Json.Number
import NodeFleet.Proofs.Rounding

/-!
# The text of a number determines it

The text of a double, read as digits with a point and an exponent, is a decimal that rounds to the
double. It has a point or an exponent, and the text of a whole number has neither. So no two
numbers share a text, and a number ends where its text meets a character that no number is written
with.
-/

namespace NodeFleet.Json

/-- Whether numbers are written with this character. -/
def isNumeral (c : Char) : Bool :=
  c.isDigit || c == '-' || c == '+' || c == '.' || c == 'e'

/-- The characters before the first mark and those after it. -/
def splitAtMark (mark : Char) (cs : List Char) : List Char × List Char :=
  (cs.takeWhile (· != mark), (cs.dropWhile (· != mark)).tail)

/-- The exponent that a sign and digits write; nothing writes zero. -/
def signedExponent : List Char → Int
  | [] => 0
  | sign :: digits =>
      if sign = '-' then -(Nat.ofDigitChars 10 digits 0 : Int) else Nat.ofDigitChars 10 digits 0

/-- The decimal that digits with a point and an exponent write. -/
def readDecimal (cs : List Char) : Decimal :=
  let parts := splitAtMark 'e' cs
  let places := splitAtMark '.' parts.1
  ⟨Nat.ofDigitChars 10 (places.1 ++ places.2) 0, signedExponent parts.2 - places.2.length⟩

theorem splitAtMark_append {mark : Char} {before : List Char} (h : mark ∉ before)
    (after : List Char) : splitAtMark mark (before ++ mark :: after) = (before, after) := by
  have hall : ∀ c ∈ before, (c != mark) = true := by
    intro c hc
    simpa using fun e : c = mark => h (e ▸ hc)
  simp [splitAtMark, List.takeWhile_append_of_pos hall, List.dropWhile_append_of_pos hall]

theorem splitAtMark_of_notMem {mark : Char} {cs : List Char} (h : mark ∉ cs) :
    splitAtMark mark cs = (cs, []) := by
  have hall : ∀ c ∈ cs, (c != mark) = true := by
    intro c hc
    simpa using fun e : c = mark => h (e ▸ hc)
  have htake : (cs ++ []).takeWhile (· != mark) = cs ++ [] := List.takeWhile_append_of_pos hall
  have hdrop : (cs ++ []).dropWhile (· != mark) = [] := List.dropWhile_append_of_pos hall
  rw [List.append_nil] at htake hdrop
  simp [splitAtMark, htake, hdrop]

section Digits

/-- Decimal digits and nothing else. -/
def AllDigits (cs : List Char) : Prop :=
  ∀ c ∈ cs, c.isDigit = true

theorem AllDigits.notMem {cs : List Char} (h : AllDigits cs) (mark : Char)
    (hm : mark.isDigit = false) : mark ∉ cs := by
  intro hc
  rw [h mark hc] at hm
  cases hm

theorem AllDigits.append {xs ys : List Char} (hx : AllDigits xs) (hy : AllDigits ys) :
    AllDigits (xs ++ ys) := by
  intro c hc
  exact (List.mem_append.1 hc).elim (hx c) (hy c)

theorem allDigits_zeros (count : Nat) : AllDigits (List.replicate count '0') := by
  intro c hc
  rw [List.eq_of_mem_replicate hc]
  decide

theorem allDigits_toDigits (n : Nat) : AllDigits (Nat.toDigits 10 n) :=
  fun _ hc => Nat.isDigit_of_mem_toDigits (by decide) (by decide) hc

theorem ofDigitChars_append_zeros (digits : List Char) (count : Nat) :
    Nat.ofDigitChars 10 (digits ++ List.replicate count '0') 0 =
      Nat.ofDigitChars 10 digits 0 * 10 ^ count := by
  rw [Nat.ofDigitChars_append, Nat.ofDigitChars_replicate_zero, Nat.mul_comm]

/-- Trimming takes zeros from the end, and nothing else if there is another digit. -/
theorem exists_trimZeros (digits : List Char) (h : Nat.ofDigitChars 10 digits 0 ≠ 0) :
    ∃ count, digits = trimZeros digits ++ List.replicate count '0' := by
  have hsplit : digits = (digits.reverse.dropWhile (· == '0')).reverse ++
      (digits.reverse.takeWhile (· == '0')).reverse := by
    rw [← List.reverse_append, List.takeWhile_append_dropWhile, List.reverse_reverse]
  have hzeros : (digits.reverse.takeWhile (· == '0')).reverse =
      List.replicate (digits.reverse.takeWhile (· == '0')).length '0' := by
    rw [List.eq_replicate_iff]
    refine ⟨List.length_reverse, fun c hc => ?_⟩
    simpa using List.all_eq_true.1 List.all_takeWhile c (List.mem_reverse.1 hc)
  rw [hzeros] at hsplit
  cases hkept : (digits.reverse.dropWhile (· == '0')).reverse with
  | nil =>
      rw [hkept, List.nil_append] at hsplit
      rw [hsplit, Nat.ofDigitChars_replicate_zero] at h
      exact absurd (Nat.mul_zero _) h
  | cons d rest =>
      have htrim : trimZeros digits = d :: rest := by
        simp [trimZeros, hkept]
      exact ⟨_, by rw [htrim, ← hkept]; exact hsplit⟩

end Digits

section Layout

variable {digits : List Char}

theorem readDecimal_point {whole fraction : List Char} (hw : AllDigits whole)
    (hf : AllDigits fraction) : readDecimal (whole ++ '.' :: fraction) =
      ⟨Nat.ofDigitChars 10 (whole ++ fraction) 0, -(fraction.length : Int)⟩ := by
  have he : 'e' ∉ whole ++ '.' :: fraction := by
    simp [hw.notMem 'e' rfl, hf.notMem 'e' rfl]
  simp [readDecimal, splitAtMark_of_notMem he, signedExponent,
    splitAtMark_append (hw.notMem '.' rfl)]

/-- Digits in place are whole digits, a point and fraction digits, with the value of the digits. -/
theorem placeDigits_form (hd : AllDigits digits) (hne : digits ≠ []) (leading : Int) :
    ∃ whole fraction, placeDigits digits leading = whole ++ '.' :: fraction ∧
      AllDigits whole ∧ whole ≠ [] ∧ AllDigits fraction ∧
      ∀ magnitude,
        Binary64.IsNearest magnitude
            ⟨Nat.ofDigitChars 10 (whole ++ fraction) 0, -(fraction.length : Int)⟩ ↔
          Binary64.IsNearest magnitude
            ⟨Nat.ofDigitChars 10 digits 0, leading + 1 - digits.length⟩ := by
  have hzero : AllDigits ['0'] := allDigits_zeros 1
  by_cases hneg : leading < 0
  · refine ⟨['0'], List.replicate (leading.natAbs - 1) '0' ++ digits, ?_, hzero, by simp,
      (allDigits_zeros _).append hd, fun magnitude => ?_⟩
    · simp [placeDigits, hneg]
    · have hvalue : Nat.ofDigitChars 10
          (['0'] ++ (List.replicate (leading.natAbs - 1) '0' ++ digits)) 0 =
            Nat.ofDigitChars 10 digits 0 := by
        rw [Nat.ofDigitChars_append, Nat.ofDigitChars_append]
        simp [Nat.ofDigitChars_cons]
      have hexp : -((List.replicate (leading.natAbs - 1) '0' ++ digits).length : Int) =
          leading + 1 - digits.length := by
        rw [List.length_append, List.length_replicate]
        omega
      rw [hvalue, hexp]
  · by_cases hlong : leading.natAbs + 1 < digits.length
    · refine ⟨digits.take (leading.natAbs + 1), digits.drop (leading.natAbs + 1), ?_,
        fun c hc => hd c (List.mem_of_mem_take hc), by simpa using hne,
        fun c hc => hd c (List.mem_of_mem_drop hc), fun magnitude => ?_⟩
      · have hpad : leading.natAbs + 1 - digits.length = 0 := by omega
        have hrest : digits.drop (leading.natAbs + 1) ≠ [] := by
          simpa using hlong
        simp only [placeDigits, hneg, if_false, hpad, List.replicate_zero, List.append_nil]
      · have hexp : -((digits.drop (leading.natAbs + 1)).length : Int) =
            leading + 1 - digits.length := by
          rw [List.length_drop]
          omega
        rw [List.take_append_drop, hexp]
    · refine ⟨digits ++ List.replicate (leading.natAbs + 1 - digits.length) '0', ['0'], ?_,
        hd.append (allDigits_zeros _), by simp [hne], hzero, fun magnitude => ?_⟩
      · have htake : digits.take (leading.natAbs + 1) = digits :=
          List.take_of_length_le (by omega)
        have hdrop : digits.drop (leading.natAbs + 1) = [] :=
          List.drop_eq_nil_of_le (by omega)
        simp [placeDigits, hneg, htake, hdrop]
      · have hvalue : Nat.ofDigitChars 10
            (digits ++ List.replicate (leading.natAbs + 1 - digits.length) '0' ++ ['0']) 0 =
              Nat.ofDigitChars 10 digits 0 * 10 ^ (leading.natAbs + 1 - digits.length + 1) := by
          rw [List.append_assoc, ← List.replicate_succ', ofDigitChars_append_zeros]
        have hexp : -(['0'].length : Int) + (leading.natAbs + 1 - digits.length + 1 : Nat) =
            leading + 1 - digits.length := by
          simp only [List.length_singleton]
          omega
        rw [hvalue, Binary64.isNearest_shift, hexp]

theorem signedExponent_toDigits (leading : Int) :
    signedExponent ((if leading < 0 then '-' else '+') :: Nat.toDigits 10 leading.natAbs) =
      leading := by
  by_cases hneg : leading < 0
  · simp only [signedExponent, hneg, if_true, Nat.ofDigitChars_ten_toDigits]
    omega
  · have hplus : ¬ '+' = '-' := by decide
    simp only [signedExponent, hneg, hplus, if_false, Nat.ofDigitChars_ten_toDigits]
    omega

/-- Digits with an exponent are a first digit, a point if more digits follow, and a signed
exponent. -/
theorem exponentDigits_form (hne : digits ≠ []) (leading : Int) :
    ∃ d rest, digits = d :: rest ∧
      exponentDigits digits leading = (if rest = [] then [d] else d :: '.' :: rest) ++
        'e' :: (if leading < 0 then '-' else '+') :: Nat.toDigits 10 leading.natAbs := by
  match digits, hne with
  | [d], _ => exact ⟨d, [], rfl, rfl⟩
  | d :: e :: rest, _ => exact ⟨d, e :: rest, rfl, rfl⟩

/-- Digits with an exponent have the value of the digits. -/
theorem readDecimal_exponentDigits (hd : AllDigits digits) (hne : digits ≠ [])
    (leading : Int) : readDecimal (exponentDigits digits leading) =
      ⟨Nat.ofDigitChars 10 digits 0, leading + 1 - digits.length⟩ := by
  obtain ⟨d, rest, rfl, hform⟩ := exponentDigits_form hne leading
  have hfirst : AllDigits [d] := fun c hc => hd c (List.mem_of_mem_take (i := 1) hc)
  have hmark : 'e' ∉ if rest = [] then [d] else d :: '.' :: rest := by
    have := hd.notMem 'e' rfl
    split <;> simp_all
  have hplaces : splitAtMark '.' (if rest = [] then [d] else d :: '.' :: rest) = ([d], rest) := by
    split
    · rename_i hnil
      rw [hnil]
      exact splitAtMark_of_notMem (hfirst.notMem '.' rfl)
    · exact splitAtMark_append (hfirst.notMem '.' rfl) rest
  simp only [readDecimal, hform, splitAtMark_append hmark, hplaces, signedExponent_toDigits,
    List.singleton_append, List.length_cons]
  congr 1
  omega

/-- The digits and the leading power of ten behind the text of a magnitude that is not zero. -/
theorem magnitudeText_form {magnitude : Nat} (h : magnitude ≠ 0) :
    ∃ digits leading, AllDigits digits ∧ digits ≠ [] ∧
      Binary64.IsNearest magnitude
        ⟨Nat.ofDigitChars 10 digits 0, leading + 1 - digits.length⟩ ∧
      (magnitudeText magnitude = placeDigits digits leading ∨
        magnitudeText magnitude = exponentDigits digits leading) := by
  have hnear := Binary64.isNearest_shortest magnitude
  have hpos := Binary64.shortest_digits_ne_zero h
  cases hn : Binary64.shortest magnitude with
  | mk n exponent =>
      rw [hn] at hnear hpos
      obtain ⟨zeros, hzeros⟩ :=
        exists_trimZeros (Nat.toDigits 10 n) (by rwa [Nat.ofDigitChars_ten_toDigits])
      have hvalue : n = Nat.ofDigitChars 10 (trimZeros (Nat.toDigits 10 n)) 0 * 10 ^ zeros := by
        rw [← ofDigitChars_append_zeros, ← hzeros, Nat.ofDigitChars_ten_toDigits]
      have hlength : (Nat.toDigits 10 n).length =
          (trimZeros (Nat.toDigits 10 n)).length + zeros := by
        have := congrArg List.length hzeros
        rwa [List.length_append, List.length_replicate] at this
      refine ⟨trimZeros (Nat.toDigits 10 n), exponent + (Nat.toDigits 10 n).length - 1,
        ?_, ?_, ?_, ?_⟩
      · intro c hc
        apply allDigits_toDigits n c
        rw [hzeros]
        exact List.mem_append_left _ hc
      · intro hnil
        rw [hnil] at hvalue
        exact hpos (by simpa using hvalue)
      · rw [hvalue, Binary64.isNearest_shift] at hnear
        have hexp : exponent + (Nat.toDigits 10 n).length - 1 + 1 -
            (trimZeros (Nat.toDigits 10 n)).length = exponent + zeros := by
          rw [hlength]
          omega
        rwa [hexp]
      · simp only [magnitudeText, h, if_false, hn]
        split
        · exact .inl rfl
        · exact .inr rfl

/-- The text of a magnitude reads as a decimal that rounds to it. -/
theorem isNearest_magnitudeText (magnitude : Nat) :
    Binary64.IsNearest magnitude (readDecimal (magnitudeText magnitude)) := by
  by_cases h : magnitude = 0
  · subst h
    have hread : readDecimal (magnitudeText 0) = ⟨0, -1⟩ := by
      decide
    rw [hread]
    exact Binary64.nearest_zero (Decimal.toRatio_snd_pos _)
  · obtain ⟨digits, leading, hd, hne, hnear, hform | hform⟩ := magnitudeText_form h
    · obtain ⟨whole, fraction, hplaces, hw, _, hf, hvalue⟩ := placeDigits_form hd hne leading
      rw [hform, hplaces, readDecimal_point hw hf, hvalue]
      exact hnear
    · rw [hform, readDecimal_exponentDigits hd hne]
      exact hnear

theorem magnitudeText_injective {m n : Nat} (h : magnitudeText m = magnitudeText n) : m = n := by
  have hm : Binary64.IsNearest m (readDecimal (magnitudeText n)) :=
    h ▸ isNearest_magnitudeText m
  have hn : Binary64.IsNearest n (readDecimal (magnitudeText n)) := isNearest_magnitudeText n
  exact hm.symm.trans hn

end Layout

section Characters

theorem isNumeral_of_isDigit {c : Char} (h : c.isDigit = true) : isNumeral c = true := by
  simp [isNumeral, h]

theorem AllDigits.numeral {cs : List Char} (h : AllDigits cs) :
    ∀ c ∈ cs, isNumeral c = true :=
  fun c hc => isNumeral_of_isDigit (h c hc)

/-- The characters of a double without its sign: digits, with a point or an exponent. -/
structure IsRealText (cs : List Char) : Prop where
  lead : ∃ c rest, cs = c :: rest ∧ c.isDigit = true
  numeral : ∀ c ∈ cs, isNumeral c = true
  marked : '.' ∈ cs ∨ 'e' ∈ cs

theorem isRealText_point {whole fraction : List Char} (hw : AllDigits whole) (hne : whole ≠ [])
    (hf : AllDigits fraction) : IsRealText (whole ++ '.' :: fraction) := by
  obtain ⟨d, rest, rfl⟩ := List.exists_cons_of_ne_nil hne
  refine ⟨⟨d, _, rfl, hw d List.mem_cons_self⟩, ?_, .inl (by simp)⟩
  intro c hc
  rcases List.mem_append.1 hc with hc | hc
  · exact hw.numeral c hc
  · rcases List.mem_cons.1 hc with rfl | hc
    · rfl
    · exact hf.numeral c hc

theorem isRealText_exponentDigits {digits : List Char} (hd : AllDigits digits)
    (hne : digits ≠ []) (leading : Int) : IsRealText (exponentDigits digits leading) := by
  obtain ⟨d, rest, rfl, hform⟩ := exponentDigits_form hne leading
  have hlead : d.isDigit = true := hd d List.mem_cons_self
  rw [hform]
  refine ⟨?_, ?_, .inr (by simp)⟩
  · by_cases hnil : rest = []
    · exact ⟨d, _, by rw [if_pos hnil, List.singleton_append], hlead⟩
    · exact ⟨d, _, by rw [if_neg hnil, List.cons_append], hlead⟩
  · have hsign : isNumeral (if leading < 0 then '-' else '+') = true := by
      split <;> rfl
    have hmantissa : ∀ c ∈ if rest = [] then [d] else d :: '.' :: rest,
        isNumeral c = true := by
      intro c hc
      have hcases : c ∈ d :: rest ∨ c = '.' := by
        split at hc
        · exact .inl (List.mem_of_mem_take (i := 1) (by simpa using hc))
        · simp only [List.mem_cons] at hc ⊢
          grind
      rcases hcases with hc | rfl
      · exact hd.numeral c hc
      · rfl
    intro c hc
    rcases List.mem_append.1 hc with hc | hc
    · exact hmantissa c hc
    · rcases List.mem_cons.1 hc with rfl | hc
      · rfl
      · rcases List.mem_cons.1 hc with rfl | hc
        · exact hsign
        · exact (allDigits_toDigits _).numeral c hc

theorem isRealText_magnitudeText (magnitude : Nat) : IsRealText (magnitudeText magnitude) := by
  by_cases h : magnitude = 0
  · subst h
    exact isRealText_point (allDigits_zeros 1) (by simp) (allDigits_zeros 1)
  · obtain ⟨digits, leading, hd, hne, _, hform | hform⟩ := magnitudeText_form h
    · obtain ⟨whole, fraction, hplaces, hw, hwhole, hf, _⟩ := placeDigits_form hd hne leading
      rw [hform, hplaces]
      exact isRealText_point hw hwhole hf
    · rw [hform]
      exact isRealText_exponentDigits hd hne leading

theorem IsRealText.not_allDigits {cs : List Char} (h : IsRealText cs) : ¬ AllDigits cs := by
  intro hd
  exact h.marked.elim (hd.notMem '.' rfl) (hd.notMem 'e' rfl)

theorem IsRealText.ne_minus {cs rest : List Char} (h : IsRealText cs) : cs ≠ '-' :: rest := by
  obtain ⟨c, others, hform, hc⟩ := h.lead
  intro he
  rw [hform] at he
  cases he
  cases hc

end Characters

namespace Number

theorem toDigits_injective {m n : Nat} (h : Nat.toDigits 10 m = Nat.toDigits 10 n) : m = n := by
  calc
    m = Nat.ofDigitChars 10 (Nat.toDigits 10 m) 0 := Nat.ofDigitChars_ten_toDigits.symm
    _ = n := by rw [h, Nat.ofDigitChars_ten_toDigits]

theorem toDigits_ne_minus (n : Nat) (rest : List Char) : Nat.toDigits 10 n ≠ '-' :: rest := by
  intro h
  have : '-' ∈ Nat.toDigits 10 n := h ▸ List.mem_cons_self
  exact (allDigits_toDigits n).notMem '-' rfl this

/-- A sign and the characters after it. -/
def signed (negative : Bool) (cs : List Char) : List Char :=
  if negative then '-' :: cs else cs

theorem signed_injective {p q : Bool} {xs ys : List Char} (hx : ∀ rest, xs ≠ '-' :: rest)
    (hy : ∀ rest, ys ≠ '-' :: rest) (h : signed p xs = signed q ys) : p = q ∧ xs = ys := by
  cases p <;> cases q <;> simp only [signed, if_true, Bool.false_eq_true, if_false] at h
  · exact ⟨rfl, h⟩
  · exact absurd h (hx ys)
  · exact absurd h.symm (hy xs)
  · exact ⟨rfl, (List.cons.inj h).2⟩

/-- Whether a number has a minus sign. -/
def isNegative : Number → Bool
  | .whole (.ofNat _) => false
  | .whole (.negSucc _) => true
  | .real x => x.negative

/-- The characters of a number without its sign. -/
def unsigned : Number → List Char
  | .whole n => Nat.toDigits 10 n.natAbs
  | .real x => magnitudeText x.magnitude

theorem chars_eq (n : Number) : n.chars = signed n.isNegative n.unsigned := by
  match n with
  | .whole (.ofNat _) => rfl
  | .whole (.negSucc _) => rfl
  | .real x =>
      by_cases h : x.negative = true <;> simp [chars, signed, isNegative, unsigned, h]

theorem unsigned_ne_minus (n : Number) (rest : List Char) : n.unsigned ≠ '-' :: rest := by
  cases n with
  | whole n => exact toDigits_ne_minus _ rest
  | real x => exact (isRealText_magnitudeText _).ne_minus

theorem chars_injective {m n : Number} (h : m.chars = n.chars) : m = n := by
  rw [chars_eq, chars_eq] at h
  obtain ⟨hsign, htext⟩ := signed_injective m.unsigned_ne_minus n.unsigned_ne_minus h
  cases m with
  | whole a =>
      cases n with
      | whole b =>
          have habs : a.natAbs = b.natAbs := toDigits_injective htext
          have hneg : a < 0 ↔ b < 0 := by
            cases a <;> cases b <;> simp_all [isNegative]
          congr 1
          omega
      | real y =>
          have hshared : Nat.toDigits 10 a.natAbs = magnitudeText y.magnitude := htext
          exact absurd (hshared ▸ allDigits_toDigits _)
            (isRealText_magnitudeText y.magnitude).not_allDigits
  | real x =>
      cases n with
      | whole b =>
          have hshared : magnitudeText x.magnitude = Nat.toDigits 10 b.natAbs := htext
          exact absurd (hshared ▸ allDigits_toDigits _)
            (isRealText_magnitudeText x.magnitude).not_allDigits
      | real y =>
          obtain ⟨p, a, ha⟩ := x
          obtain ⟨q, b, hb⟩ := y
          obtain rfl : a = b := magnitudeText_injective htext
          obtain rfl : p = q := hsign
          rfl

theorem isNumeral_of_mem_chars {n : Number} {c : Char} (h : c ∈ n.chars) :
    isNumeral c = true := by
  have hdigits : ∀ c ∈ n.unsigned, isNumeral c = true := by
    cases n with
    | whole n => exact (allDigits_toDigits _).numeral
    | real x => exact (isRealText_magnitudeText _).numeral
  rw [chars_eq, signed] at h
  split at h
  · rcases List.mem_cons.1 h with rfl | h
    · rfl
    · exact hdigits c h
  · exact hdigits c h

theorem exists_cons_chars (n : Number) :
    ∃ c rest, n.chars = c :: rest ∧ (c.isDigit = true ∨ c = '-') := by
  have hlead : ∃ c rest, n.unsigned = c :: rest ∧ c.isDigit = true := by
    cases n with
    | whole n =>
        obtain ⟨c, rest, hform⟩ :=
          List.exists_cons_of_ne_nil (Nat.toDigits_ne_nil (n := n.natAbs) (b := 10))
        exact ⟨c, rest, hform, allDigits_toDigits _ c (hform ▸ List.mem_cons_self)⟩
    | real x => exact (isRealText_magnitudeText _).lead
  obtain ⟨c, rest, hform, hc⟩ := hlead
  rw [chars_eq, signed]
  split
  · exact ⟨'-', _, rfl, .inr rfl⟩
  · exact ⟨c, rest, hform, .inl hc⟩

/-- A number ends where its text meets a character that no number is written with. -/
theorem chars_append_inj {m n : Number} {r s : List Char}
    (hr : ∀ c ∈ r.head?, isNumeral c = false) (hs : ∀ c ∈ s.head?, isNumeral c = false)
    (h : m.chars ++ r = n.chars ++ s) : m = n ∧ r = s := by
  have hspan (k : Number) (t : List Char) (ht : ∀ c ∈ t.head?, isNumeral c = false) :
      (k.chars ++ t).takeWhile isNumeral = k.chars := by
    have hstop : t.takeWhile isNumeral = [] := by
      cases t with
      | nil => rfl
      | cons c rest => simp [ht c rfl]
    rw [List.takeWhile_append_of_pos fun c hc => isNumeral_of_mem_chars hc, hstop,
      List.append_nil]
  have hchars : m.chars = n.chars := by
    rw [← hspan m r hr, h, hspan n s hs]
  exact ⟨chars_injective hchars, List.append_cancel_left (hchars ▸ h)⟩

end Number

end NodeFleet.Json
