import NodeFleet.Text.Bytes

/-!
# Reading base 64

A strict reader of padded base 64: four digits make three bytes, the last group may be padded, and
what is padded away has to be zero. It reads what was written and nothing else, so a text is the
base 64 of some bytes just when the reader makes these bytes of it.
-/

namespace NodeFleet.Text

/-- The number of a base 64 digit. -/
def base64Value? (c : Char) : Option Nat :=
  let n := c.toNat
  if 65 ≤ n ∧ n ≤ 90 then some (n - 65)
  else if 97 ≤ n ∧ n ≤ 122 then some (n - 71)
  else if 48 ≤ n ∧ n ≤ 57 then some (n + 4)
  else if n = 43 then some 62
  else if n = 47 then some 63
  else none

/-- The bytes of a group of four characters: three if all of them are digits, two or one if the
group is padded. -/
def ofBase64Group? (a b c d : Char) : Option (List UInt8) :=
  match base64Value? a, base64Value? b with
  | some a, some b =>
      match base64Value? c, base64Value? d with
      | some c, some d =>
          some [.ofNat (a * 4 + b / 16), .ofNat (b % 16 * 16 + c / 4), .ofNat (c % 4 * 64 + d)]
      | some c, none =>
          if d = '=' ∧ c % 4 = 0 then
            some [.ofNat (a * 4 + b / 16), .ofNat (b % 16 * 16 + c / 4)]
          else none
      | none, _ =>
          if c = '=' ∧ d = '=' ∧ b % 16 = 0 then some [.ofNat (a * 4 + b / 16)] else none
  | _, _ => none

/-- The bytes of padded base 64; only the last group may be padded. -/
def ofBase64Chars? : List Char → Option (List UInt8)
  | [] => some []
  | a :: b :: c :: d :: rest =>
      (ofBase64Group? a b c d).bind fun bytes =>
        if bytes.length = 3 then (ofBase64Chars? rest).map (bytes ++ ·)
        else if rest = [] then some bytes
        else none
  | _ => none

/-- The bytes of a text in padded base 64. -/
def ofBase64? (text : String) : Option (List UInt8) :=
  ofBase64Chars? text.toList

section Digits

theorem base64Value?_base64Digit : ∀ n < 64, base64Value? (base64Digit n) = some n := by
  decide

theorem toNat_lt_of_value {c : Char} {n : Nat} (h : base64Value? c = some n) : c.toNat < 128 := by
  simp only [base64Value?] at h
  repeat' split at h
  all_goals first | omega | cases h

/-- A digit is told by its number; only ASCII characters have to be looked at. -/
theorem base64Digit_of_value {c : Char} {n : Nat} (h : base64Value? c = some n) :
    n < 64 ∧ base64Digit n = c := by
  have hall : ∀ code < 128, ∀ n ∈ base64Value? (Char.ofNat code),
      n < 64 ∧ base64Digit n = Char.ofNat code := by
    decide
  have hcode := hall c.toNat (toNat_lt_of_value h) n
  rw [Char.ofNat_toNat] at hcode
  exact hcode h

end Digits

section Groups

variable {a b c d : Char} {bytes : List UInt8}

theorem toNat_ofNat_of_lt {n : Nat} (h : n < 256) : (UInt8.ofNat n).toNat = n := by
  rw [UInt8.toNat_ofNat', Nat.mod_eq_of_lt h]

/-- The bytes of a group are its digits put together, one, two or three of them. -/
theorem ofBase64Group?_base64Chars {x : UInt8} {rest : List UInt8}
    (few : rest.length ≤ 2) (group : base64Chars (x :: rest) = [a, b, c, d]) :
    ofBase64Group? a b c d = some (x :: rest) := by
  have hx := x.toNat_lt
  have hpad : base64Value? '=' = none := rfl
  match rest, few with
  | [], _ =>
      obtain ⟨rfl, rfl, rfl, rfl⟩ : _ ∧ _ ∧ _ ∧ _ := by simpa [base64Chars] using group
      have hbyte : x.toNat / 4 * 4 + x.toNat % 4 * 16 / 16 = x.toNat := by omega
      simp only [ofBase64Group?, base64Value?_base64Digit (x.toNat / 4) (by omega),
        base64Value?_base64Digit (x.toNat % 4 * 16) (by omega), hpad, hbyte, UInt8.ofNat_toNat]
      exact if_pos ⟨trivial, trivial, by omega⟩
  | [y], _ =>
      have hy := y.toNat_lt
      obtain ⟨rfl, rfl, rfl, rfl⟩ : _ ∧ _ ∧ _ ∧ _ := by simpa [base64Chars] using group
      have hfirst : x.toNat / 4 * 4 + (x.toNat % 4 * 16 + y.toNat / 16) / 16 = x.toNat := by omega
      have hsecond : (x.toNat % 4 * 16 + y.toNat / 16) % 16 * 16 + y.toNat % 16 * 4 / 4 =
          y.toNat := by omega
      simp only [ofBase64Group?, base64Value?_base64Digit (x.toNat / 4) (by omega),
        base64Value?_base64Digit (x.toNat % 4 * 16 + y.toNat / 16) (by omega),
        base64Value?_base64Digit (y.toNat % 16 * 4) (by omega), hpad, hfirst, hsecond,
        UInt8.ofNat_toNat]
      exact if_pos ⟨trivial, by omega⟩
  | [y, z], _ =>
      have hy := y.toNat_lt
      have hz := z.toNat_lt
      obtain ⟨rfl, rfl, rfl, rfl⟩ : _ ∧ _ ∧ _ ∧ _ := by simpa [base64Chars] using group
      have hfirst : x.toNat / 4 * 4 + (x.toNat % 4 * 16 + y.toNat / 16) / 16 = x.toNat := by omega
      have hsecond : (x.toNat % 4 * 16 + y.toNat / 16) % 16 * 16 +
          (y.toNat % 16 * 4 + z.toNat / 64) / 4 = y.toNat := by omega
      have hthird : (y.toNat % 16 * 4 + z.toNat / 64) % 4 * 64 + z.toNat % 64 = z.toNat := by
        omega
      simp only [ofBase64Group?, base64Value?_base64Digit (x.toNat / 4) (by omega),
        base64Value?_base64Digit (x.toNat % 4 * 16 + y.toNat / 16) (by omega),
        base64Value?_base64Digit (y.toNat % 16 * 4 + z.toNat / 64) (by omega),
        base64Value?_base64Digit (z.toNat % 64) (by omega), hfirst, hsecond, hthird,
        UInt8.ofNat_toNat]

/-- A group that is read is the one that is written for its bytes. -/
theorem base64Chars_of_group (h : ofBase64Group? a b c d = some bytes) :
    base64Chars bytes = [a, b, c, d] := by
  rw [ofBase64Group?] at h
  split at h
  case h_2 => cases h
  case h_1 va vb ha hb =>
    obtain ⟨hva, rfl⟩ := base64Digit_of_value ha
    obtain ⟨hvb, rfl⟩ := base64Digit_of_value hb
    have hfirst : (UInt8.ofNat (va * 4 + vb / 16)).toNat = va * 4 + vb / 16 :=
      toNat_ofNat_of_lt (by omega)
    have hhead : (va * 4 + vb / 16) / 4 = va := by omega
    split at h
    case h_1 vc vd hc hd =>
      obtain ⟨hvc, rfl⟩ := base64Digit_of_value hc
      obtain ⟨hvd, rfl⟩ := base64Digit_of_value hd
      obtain rfl := Option.some.inj h
      have hsecond : (UInt8.ofNat (vb % 16 * 16 + vc / 4)).toNat = vb % 16 * 16 + vc / 4 :=
        toNat_ofNat_of_lt (by omega)
      have hthird : (UInt8.ofNat (vc % 4 * 64 + vd)).toNat = vc % 4 * 64 + vd :=
        toNat_ofNat_of_lt (by omega)
      have hnext : (va * 4 + vb / 16) % 4 * 16 + (vb % 16 * 16 + vc / 4) / 16 = vb := by omega
      have hthen : (vb % 16 * 16 + vc / 4) % 16 * 4 + (vc % 4 * 64 + vd) / 64 = vc := by omega
      have hlast : (vc % 4 * 64 + vd) % 64 = vd := by omega
      simp only [base64Chars, hfirst, hsecond, hthird, hhead, hnext, hthen, hlast]
    case h_2 vc hc hd =>
      split at h
      case isFalse => cases h
      case isTrue hpadded =>
        obtain ⟨rfl, hzero⟩ := hpadded
        obtain ⟨hvc, rfl⟩ := base64Digit_of_value hc
        obtain rfl := Option.some.inj h
        have hsecond : (UInt8.ofNat (vb % 16 * 16 + vc / 4)).toNat = vb % 16 * 16 + vc / 4 :=
          toNat_ofNat_of_lt (by omega)
        have hnext : (va * 4 + vb / 16) % 4 * 16 + (vb % 16 * 16 + vc / 4) / 16 = vb := by omega
        have hlast : (vb % 16 * 16 + vc / 4) % 16 * 4 = vc := by omega
        simp only [base64Chars, hfirst, hsecond, hhead, hnext, hlast]
    case h_3 hc =>
      split at h
      case isFalse => cases h
      case isTrue hpadded =>
        obtain ⟨rfl, rfl, hzero⟩ := hpadded
        obtain rfl := Option.some.inj h
        have hlast : (va * 4 + vb / 16) % 4 * 16 = vb := by omega
        simp only [base64Chars, hfirst, hhead, hlast]

end Groups

theorem ofBase64Chars?_base64Chars (bytes : List UInt8) :
    ofBase64Chars? (base64Chars bytes) = some bytes := by
  fun_induction base64Chars bytes with
  | case1 => rfl
  | case2 x =>
      have hgroup : ofBase64Group? _ _ _ _ = some [x] :=
        ofBase64Group?_base64Chars (Nat.zero_le 2) rfl
      rw [ofBase64Chars?, hgroup]
      rfl
  | case3 x y =>
      have hgroup : ofBase64Group? _ _ _ _ = some [x, y] :=
        ofBase64Group?_base64Chars (Nat.le_succ 1) rfl
      rw [ofBase64Chars?, hgroup]
      rfl
  | case4 x y z rest ih =>
      have hgroup : ofBase64Group? _ _ _ _ = some [x, y, z] :=
        ofBase64Group?_base64Chars (Nat.le_refl 2) rfl
      rw [ofBase64Chars?, hgroup]
      change (ofBase64Chars? (base64Chars rest)).map ([x, y, z] ++ ·) = _
      rw [ih]
      rfl

theorem base64Chars_of_chars {chars : List Char} {bytes : List UInt8}
    (h : ofBase64Chars? chars = some bytes) : base64Chars bytes = chars := by
  fun_induction ofBase64Chars? chars generalizing bytes with
  | case1 =>
      cases h
      rfl
  | case2 a b c d rest ih =>
      obtain ⟨group, hgroup, h⟩ := Option.bind_eq_some_iff.1 h
      have hchars := base64Chars_of_group hgroup
      split at h
      next hthree =>
        obtain ⟨others, hothers, rfl⟩ := Option.map_eq_some_iff.1 h
        obtain ⟨x, y, z, rfl⟩ : ∃ x y z, group = [x, y, z] := by
          match group, hthree with
          | [x, y, z], _ => exact ⟨x, y, z, rfl⟩
        change base64Chars [x, y, z] ++ base64Chars others = _
        rw [hchars, ih hothers]
        rfl
      next =>
        split at h
        next hlast =>
          obtain rfl := Option.some.inj h
          rw [hchars, hlast]
        next => cases h
  | case3 => cases h

/-- The reader makes bytes of a text just when the text is their base 64. -/
theorem ofBase64?_eq_some {text : String} {bytes : List UInt8} :
    ofBase64? text = some bytes ↔ text = base64 bytes := by
  rw [ofBase64?, base64, ← String.toList_inj, String.toList_ofList]
  exact ⟨fun h => (base64Chars_of_chars h).symm, fun h => h ▸ ofBase64Chars?_base64Chars bytes⟩

/-- Text that is not padded, or padded where it should not be, is not read. -/
example : ofBase64? "aGk=" = some [104, 105] ∧ ofBase64? "aGk" = none ∧ ofBase64? "aGl=" = none ∧
    ofBase64? "aA==aGk=" = none := by
  decide

/-- The bytes of a text are those of its UTF-8 form. -/
theorem utf8_eq (text : String) : utf8 text = text.toUTF8.data.toList := by
  rw [String.toUTF8, ← String.utf8Encode_toList, List.utf8Encode, List.data_toByteArray]
  rfl

end NodeFleet.Text
