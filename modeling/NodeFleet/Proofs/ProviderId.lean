import Mathlib.Data.List.TakeWhile
import NodeFleet.ProviderId

/-!
# Reading provider identifiers back

The machine of a provider identifier is what follows its last slash, or all of it without one. So it
is read back from what was written exactly if its identifier is not empty and has no slash, whatever
the zone, and a text is refused exactly if nothing follows its last slash.
-/

namespace NodeFleet.ProviderId

theorem lastSegment_append {before last : List Char} (h : '/' ∉ last) :
    lastSegment (before ++ '/' :: last) = last := by
  rw [lastSegment, List.reverse_append, List.reverse_cons, List.append_assoc,
    List.takeWhile_append_of_pos fun c hc => ?_]
  · simp
  · have hne : c ≠ '/' := fun h' => h (h' ▸ List.mem_reverse.1 hc)
    simpa using hne

theorem lastSegment_of_notMem {cs : List Char} (h : '/' ∉ cs) : lastSegment cs = cs := by
  rw [lastSegment, List.takeWhile_eq_self_iff.2, List.reverse_reverse]
  intro c hc
  have hne : c ≠ '/' := fun h' => h (h' ▸ List.mem_reverse.1 hc)
  simpa using hne

theorem slash_notMem_lastSegment (cs : List Char) : '/' ∉ lastSegment cs := by
  intro h
  have hne := List.mem_takeWhile_imp (List.mem_reverse.1 h)
  simp at hne

/-- A text is its last segment or ends in a slash and its last segment. -/
theorem eq_lastSegment_or (cs : List Char) :
    cs = lastSegment cs ∨ ∃ before, cs = before ++ '/' :: lastSegment cs := by
  have hsplit : cs = (cs.reverse.dropWhile (· ≠ '/')).reverse ++ lastSegment cs := by
    rw [lastSegment, ← List.reverse_append, List.takeWhile_append_dropWhile, List.reverse_reverse]
  cases hrest : cs.reverse.dropWhile (· ≠ '/') with
  | nil =>
      left
      rw [hrest] at hsplit
      exact hsplit
  | cons c rest =>
      right
      -- What is dropped from the end stops at a slash.
      have hstop : c = '/' := by
        have hhead := List.head?_dropWhile_not (· ≠ '/') cs.reverse
        rw [hrest] at hhead
        simpa using hhead
      refine ⟨rest.reverse, ?_⟩
      rw [hrest, hstop, List.reverse_cons, List.append_assoc] at hsplit
      exact hsplit

theorem lastSegment_eq_iff {cs last : List Char} :
    lastSegment cs = last ↔ '/' ∉ last ∧ (cs = last ∨ ∃ before, cs = before ++ '/' :: last) := by
  constructor
  · rintro rfl
    exact ⟨slash_notMem_lastSegment cs, eq_lastSegment_or cs⟩
  · rintro ⟨hslash, rfl | ⟨before, rfl⟩⟩
    · exact lastSegment_of_notMem hslash
    · exact lastSegment_append hslash

/-- What the last segment of a text is, as texts. -/
theorem lastSegment_eq_toList_iff (text last : String) : lastSegment text.toList = last.toList ↔
    '/' ∉ last.toList ∧ (text = last ∨ ∃ before, text = before ++ "/" ++ last) := by
  have happend (before : List Char) :
      text.toList = before ++ '/' :: last.toList ↔ text = String.ofList before ++ "/" ++ last := by
    rw [← String.toList_inj]
    simp
  rw [lastSegment_eq_iff, String.toList_inj]
  refine and_congr_right fun _ => or_congr_right ⟨?_, ?_⟩
  · rintro ⟨before, h⟩
    exact ⟨_, (happend before).1 h⟩
  · rintro ⟨before, h⟩
    exact ⟨before.toList, (happend _).2 (by rw [String.ofList_toList, h])⟩

theorem parse_eq_ok_iff {text id : String} :
    parse text = .ok id ↔ id ≠ "" ∧ lastSegment text.toList = id.toList := by
  rw [parse]
  split
  next hnil =>
    rw [hnil]
    exact ⟨fun h => (nomatch h),
      fun ⟨hne, hid⟩ => absurd (String.toList_eq_nil_iff.1 hid.symm) hne⟩
  next hne =>
    rw [Except.ok.injEq, ← String.toList_inj, String.toList_ofList, iff_and_self]
    rintro heq rfl
    exact hne heq

theorem parse_eq_error_iff {text : String} {e : NodeError} :
    parse text = .error e ↔ e = .invalidProviderId text ∧ lastSegment text.toList = [] := by
  rw [parse]
  split
  next hnil => simp [hnil, eq_comm]
  next hne => simp [show lastSegment text.toList ≠ [] from hne]

/-- The machine that a provider identifier was made for. -/
theorem parse_format {id : String} (zone : String) (hne : id ≠ "") (hslash : '/' ∉ id.toList) :
    parse (format zone id) = .ok id :=
  parse_eq_ok_iff.2 ⟨hne, (lastSegment_eq_toList_iff _ _).2 ⟨hslash, .inr ⟨scheme ++ zone, rfl⟩⟩⟩

/-- A provider identifier that was made for a machine gives it back exactly if the identifier of the
machine is not empty and has no slash. Of any text the machine is the end that is not empty, has no
slash and is all of the text or follows a slash; the texts without such an end are the empty one and
those that end in a slash, and these are refused by name. -/
theorem parse_reads_last_segment (zone id text : String) :
    (parse (format zone id) = .ok id ↔ id ≠ "" ∧ '/' ∉ id.toList) ∧
    (parse text = .ok id ↔
      id ≠ "" ∧ '/' ∉ id.toList ∧ (text = id ∨ ∃ before, text = before ++ "/" ++ id)) ∧
    ∀ e, parse text = .error e ↔
      e = .invalidProviderId text ∧ (text = "" ∨ ∃ before, text = before ++ "/") := by
  refine ⟨⟨fun h => ?_, fun ⟨hne, hslash⟩ => parse_format zone hne hslash⟩, ?_, fun e => ?_⟩
  · obtain ⟨hne, hlast⟩ := parse_eq_ok_iff.1 h
    exact ⟨hne, ((lastSegment_eq_toList_iff _ _).1 hlast).1⟩
  · rw [parse_eq_ok_iff, lastSegment_eq_toList_iff]
  · have hempty := lastSegment_eq_toList_iff text ""
    simp only [String.toList_empty, String.append_empty, List.not_mem_nil, not_false_eq_true,
      true_and] at hempty
    rw [parse_eq_error_iff, hempty]

end NodeFleet.ProviderId
