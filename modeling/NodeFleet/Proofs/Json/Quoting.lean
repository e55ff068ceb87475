import NodeFleet.Json.Reader

/-!
# Reading undoes quoting

The code points read from a quoted string are those of the string, and reading stops behind its
closing quote. So a quoted string is told from whatever follows it.
-/

namespace NodeFleet.Json

/-- One more unit in front of what was read. -/
def consUnit (unit : Nat) (p : List Nat × List Char) : List Nat × List Char :=
  (unit :: p.1, p.2)

theorem hexValue?_hexDigit : ∀ n < 16, hexValue? (Text.hexDigit n) = some n := by
  decide

theorem codeUnit?_of_lt {n : Nat} (h : n < 32) :
    codeUnit? '0' '0' (Text.hexDigit (n / 16)) (Text.hexDigit (n % 16)) = some n := by
  have hzero : hexValue? '0' = some 0 := by decide
  have hhigh := hexValue?_hexDigit (n / 16) (by omega)
  have hlow := hexValue?_hexDigit (n % 16) (by omega)
  have hsum : (0 * 16 + 0) * 256 + (n / 16 * 16 + n % 16) = n := by omega
  simp only [codeUnit?, hzero, hhigh, hlow, Option.bind_eq_bind, Option.bind_some,
    Option.pure_def, hsum]

theorem readUnits?_simple {letter c : Char} (rest : List Char) (hu : letter ≠ 'u')
    (h : simpleEscape? letter = some c) :
    readUnits? ('\\' :: letter :: rest) = (readUnits? rest).map (consUnit c.toNat) := by
  rw [readUnits?]
  · simp only [h, Option.bind_eq_bind, Option.bind_some]
    cases readUnits? rest <;> rfl
  · intro a b c d rest' hl _
    exact hu hl

theorem readUnits?_hex {n : Nat} (rest : List Char) (h : n < 32) :
    readUnits? ('\\' :: 'u' :: '0' :: '0' :: Text.hexDigit (n / 16) :: Text.hexDigit (n % 16) ::
      rest) = (readUnits? rest).map (consUnit n) := by
  rw [readUnits?]
  simp only [codeUnit?_of_lt h, Option.bind_eq_bind, Option.bind_some]
  cases readUnits? rest <;> rfl

theorem readUnits?_plain {c : Char} (rest : List Char) (hquote : c ≠ '"') (hslash : c ≠ '\\')
    (hprint : ¬ c.toNat < 32) :
    readUnits? (c :: rest) = (readUnits? rest).map (consUnit c.toNat) := by
  rw [readUnits?]
  · rw [if_neg hprint]
    rfl
  · exact hquote
  · intro _ _ _ _ _ hc _
    exact hslash hc
  · intro _ _ hc _
    exact hslash hc

/-- A character is escaped by a letter or by its code, or stands for itself. -/
theorem escape_cases (c : Char) :
    (∃ letter, escape c = ['\\', letter] ∧ letter ≠ 'u' ∧ simpleEscape? letter = some c) ∨
      (c.toNat < 32 ∧ escape c =
        ['\\', 'u', '0', '0', Text.hexDigit (c.toNat / 16), Text.hexDigit (c.toNat % 16)]) ∨
      (¬ c.toNat < 32 ∧ c ≠ '"' ∧ c ≠ '\\' ∧ escape c = [c]) := by
  by_cases hshort : c ∈ ['"', '\\', '\n', '\r', '\t', '\x08', '\x0c']
  · left
    simp only [List.mem_cons, List.not_mem_nil, or_false] at hshort
    rcases hshort with rfl | rfl | rfl | rfl | rfl | rfl | rfl <;>
      exact ⟨_, rfl, by decide, rfl⟩
  · right
    simp only [List.mem_cons, List.not_mem_nil, or_false, not_or] at hshort
    obtain ⟨hquote, hslash, hn, hr, ht, hb, hf⟩ := hshort
    by_cases hcode : c.toNat < 32
    · exact .inl ⟨hcode, by simp [escape, hquote, hslash, hn, hr, ht, hb, hf, hcode]⟩
    · exact .inr ⟨hcode, hquote, hslash,
        by simp [escape, hquote, hslash, hn, hr, ht, hb, hf, hcode]⟩

theorem readUnits?_escape (c : Char) (rest : List Char) :
    readUnits? (escape c ++ rest) = (readUnits? rest).map (consUnit c.toNat) := by
  rcases escape_cases c with ⟨letter, he, hu, hc⟩ | ⟨hcode, he⟩ | ⟨hcode, hquote, hslash, he⟩
  · rw [he]
    exact readUnits?_simple rest hu hc
  · rw [he]
    exact readUnits?_hex rest hcode
  · rw [he]
    exact readUnits?_plain rest hquote hslash hcode

theorem readUnits?_flatMap_escape (cs after : List Char) :
    readUnits? (cs.flatMap escape ++ '"' :: after) = some (cs.map Char.toNat, after) := by
  induction cs with
  | nil => simp [readUnits?]
  | cons c rest ih =>
      rw [List.flatMap_cons, List.append_assoc, readUnits?_escape, ih]
      rfl

theorem quote_toList (s : String) :
    (quote s).toList = '"' :: (s.toList.flatMap escape ++ ['"']) := by
  simp [quote]

/-- A string is told by its quoted form from whatever follows it. -/
theorem quote_append_inj {s t : String} {r u : List Char}
    (h : (quote s).toList ++ r = (quote t).toList ++ u) : s = t ∧ r = u := by
  rw [quote_toList, quote_toList] at h
  simp only [List.cons_append, List.append_assoc, List.nil_append, List.cons.injEq,
    true_and] at h
  have hread : some (s.toList.map Char.toNat, r) = some (t.toList.map Char.toNat, u) := by
    rw [← readUnits?_flatMap_escape, ← readUnits?_flatMap_escape, h]
  simp only [Option.some.injEq, Prod.mk.injEq] at hread
  have hchars : s.toList = t.toList :=
    List.map_inj_right (fun _ _ hc => Char.toNat_inj.1 hc) |>.1 hread.1
  exact ⟨String.toList_inj.1 hchars, hread.2⟩

end NodeFleet.Json
