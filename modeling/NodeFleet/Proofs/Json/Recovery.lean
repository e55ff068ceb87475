import NodeFleet.Json.Codec
import NodeFleet.Proofs.Table
import NodeFleet.Proofs.Time.Reading

/-!
# Values that come back from their JSON form

A value comes back where decoding undoes its encoding. A written field is found under its key, so a
required field comes back with its value; a field that is left out comes back where the value left
out is the one for its absence; and an optional field comes back where no value is written as
`null`. A record comes back field by field.
-/

namespace NodeFleet

variable {α : Type} [Encode α] [Decode α]

/-- Decoding undoes the encoding of a value. -/
def Recovers (x : α) : Prop :=
  (decode (encode x) : Except DecodeError α) = .ok x

/-- The JSON form of what a JSON value is decoded to. -/
def reencode (α : Type) [Encode α] [Decode α] (j : Json) : Except DecodeError Json :=
  (decode j : Except DecodeError α).map encode

/-- Decoding undoes encoding in a domain that holds whatever is decoded. So decoding and encoding
once more is settled: it changes neither the value nor its JSON form. -/
structure ReadsBack (α : Type) [Encode α] [Decode α] (domain : α → Prop) : Prop where
  undone : ∀ x, domain x → (decode (encode x) : Except DecodeError α) = .ok x
  settled : ∀ j again, reencode α j = .ok again →
    (decode again : Except DecodeError α) = decode j ∧ reencode α again = .ok again

/-- Whatever is decoded is in the domain. -/
def DecodesInto {α : Type} [Decode α] (domain : α → Prop) : Prop :=
  ∀ j x, decode j = .ok x → domain x

theorem readsBack_of_recovers {domain : α → Prop} (hback : ∀ x, domain x → Recovers x)
    (hlands : DecodesInto domain) : ReadsBack α domain := by
  refine ⟨hback, fun j again h => ?_⟩
  rw [reencode] at h
  cases hdecode : (decode j : Except DecodeError α) with
  | error e =>
      rw [hdecode] at h
      cases h
  | ok x =>
      rw [hdecode] at h
      cases h
      have hx : (decode (encode x) : Except DecodeError α) = .ok x := hback x (hlands j x hdecode)
      exact ⟨hx, by rw [reencode, hx]; rfl⟩

theorem readsBack_of_forall (h : ∀ x : α, Recovers x) : ReadsBack α fun _ => True :=
  readsBack_of_recovers (fun x _ => h x) fun _ _ _ => trivial

namespace Json

section Written

omit [Decode α]

@[simp]
theorem lookup_of_field (key other : String) (x : α) :
    (field other x).lookup key = if key = other then some (encode x) else none :=
  Table.lookup_entry other key (encode x) []

@[simp]
theorem lookup_of_fieldUnless (skip : Bool) (key other : String) (x : α) :
    (fieldUnless skip other x).lookup key =
      if key = other then (if skip then none else some (encode x)) else none := by
  cases skip <;> simp [fieldUnless, Table.lookup_entry]

@[simp]
theorem lookup_of_fieldOf? (key other : String) (x : Option α) :
    (fieldOf? other x).lookup key = if key = other then x.map encode else none := by
  cases x <;> simp [fieldOf?, Table.lookup_entry]

end Written

section Read

omit [Encode α]

/-- A required field by what is found under its key. -/
def required (key : String) : Option Json → Except DecodeError α
  | some value => decode value
  | none => .error (.missing key)

/-- A field with a default by what is found under its key. -/
def orElse (absent : α) : Option Json → Except DecodeError α
  | some value => decode value
  | none => .ok absent

/-- An optional field by what is found under its key. -/
def ifAny : Option Json → Except DecodeError (Option α)
  | some .null => .ok none
  | some value => (decode value).map some
  | none => .ok none

@[simp]
theorem named_obj (keys : List String) (fields : List (String × Json)) :
    named keys (.obj fields) = .obj fields := rfl

@[simp]
theorem requiredField_obj (key : String) (fields : List (String × Json)) :
    (requiredField key (.obj fields) : Except DecodeError α) =
      required key (fields.lookup key) := rfl

@[simp]
theorem fieldOr_obj (key : String) (absent : α) (fields : List (String × Json)) :
    fieldOr key absent (.obj fields) = orElse absent (fields.lookup key) := rfl

@[simp]
theorem optionalField_obj (key : String) (fields : List (String × Json)) :
    (optionalField key (.obj fields) : Except DecodeError (Option α)) =
      ifAny (fields.lookup key) := by
  rw [optionalField]
  cases fields.lookup key with
  | none => rfl
  | some value => cases value <;> rfl

end Read

omit [Encode α] [Decode α] in
@[simp]
theorem ok_bind {β : Type} (x : α) (next : α → Except DecodeError β) :
    (Except.ok x >>= next) = next x := rfl

@[simp]
theorem required_encode (key : String) {x : α} (h : Recovers x) :
    required key (some (encode x)) = .ok x := h

@[simp]
theorem orElse_encode (absent : α) {x : α} (h : Recovers x) :
    orElse absent (some (encode x)) = .ok x := h

/-- A field comes back where the value that is left out is the one for its absence. -/
@[simp]
theorem orElse_skipped (absent : α) {x : α} {skip : Prop} [Decidable skip] (h : Recovers x)
    (hskip : skip → x = absent) :
    orElse absent (if skip then none else some (encode x)) = .ok x := by
  split
  · rename_i hs
    rw [hskip hs]
    rfl
  · exact h

/-- An optional field comes back where its value is not written as `null`. -/
@[simp]
theorem ifAny_encode {o : Option α} (h : ∀ x ∈ o, Recovers x ∧ encode x ≠ .null) :
    ifAny (o.map encode) = .ok o := by
  cases o with
  | none => rfl
  | some x =>
      obtain ⟨hback, hnull⟩ := h x rfl
      have hread : ifAny (some (encode x)) = (decode (encode x) : Except DecodeError α).map some := by
        rw [ifAny]
        exact hnull
      rw [Option.map_some, hread, hback]
      rfl

end Json

section Plain

@[simp]
theorem recovers_string (s : String) : Recovers s := rfl

@[simp]
theorem recovers_bool (b : Bool) : Recovers b := rfl

/-- A whole number within its bounds is read as the value that it stands for. -/
theorem decodeWhole_wholeNumber {β : Type} {least greatest n : Int} {ofInt : Int → β} {x : β}
    (h : least ≤ n ∧ n ≤ greatest) (hx : ofInt n = x) :
    (decodeWhole least greatest (wholeNumber n)).map ofInt = .ok x := by
  have hread : decodeWhole least greatest (wholeNumber n) = .ok n := if_pos h
  rw [hread, ← hx]
  rfl

@[simp]
theorem recovers_uint32 (n : UInt32) : Recovers n := by
  have hn := n.toNat_lt
  exact decodeWhole_wholeNumber (by omega) UInt32.ofNat_toNat

@[simp]
theorem recovers_uint64 (n : UInt64) : Recovers n := by
  have hn := n.toNat_lt
  exact decodeWhole_wholeNumber (by omega) UInt64.ofNat_toNat

@[simp]
theorem recovers_int32 (n : Int32) : Recovers n :=
  decodeWhole_wholeNumber ⟨n.le_toInt, Int.le_of_lt_add_one n.toInt_lt⟩ n.ofInt_toInt

@[simp]
theorem recovers_int64 (n : Int64) : Recovers n :=
  decodeWhole_wholeNumber ⟨n.le_toInt, Int.le_of_lt_add_one n.toInt_lt⟩ n.ofInt_toInt

/-- An instant of the years that are read comes back, leap second and fraction included. -/
theorem recovers_instant {t : Instant} (h : t.IsDated) : Recovers t := by
  simp only [Recovers, encode, decode, Instant.ofText?_text h]

@[simp]
theorem encode_string_ne_null (s : String) : encode s ≠ .null := nofun

@[simp]
theorem encode_int64_ne_null (n : Int64) : encode n ≠ .null := nofun

@[simp]
theorem encode_instant_ne_null (t : Instant) : encode t ≠ .null := nofun

theorem Json.ifAny_dated {o : Option Instant} (h : ∀ t ∈ o, t.IsDated) :
    ifAny (o.map encode) = .ok o :=
  ifAny_encode fun t ht => ⟨recovers_instant (h t ht), encode_instant_ne_null t⟩

end Plain

section Collections

@[simp]
theorem recovers_list {xs : List α} (h : ∀ x ∈ xs, Recovers x) : Recovers xs := by
  change decodeItems (xs.map encode) = .ok xs
  induction xs with
  | nil => rfl
  | cons x rest ih =>
      obtain ⟨hx, hrest⟩ := List.forall_mem_cons.1 h
      rw [List.map_cons, decodeItems, show decode (encode x) = .ok x from hx, ih hrest]
      rfl

theorem decodeEntries_encode {entries : List (String × α)} (h : ∀ e ∈ entries, Recovers e.2) :
    decodeEntries (entries.map fun e => (e.1, encode e.2)) = .ok entries := by
  induction entries with
  | nil => rfl
  | cons e rest ih =>
      obtain ⟨he, hrest⟩ := List.forall_mem_cons.1 h
      rw [List.map_cons, decodeEntries, show decode (encode e.2) = .ok e.2 from he, ih hrest]
      rfl

theorem recovers_table {t : Table α} (h : ∀ e ∈ t.entries, Recovers e.2) : Recovers t := by
  change (decodeEntries (t.entries.map fun e => (e.1, encode e.2))).map Table.ofList = .ok t
  rw [decodeEntries_encode h]
  exact congrArg Except.ok t.ofList_entries

attribute [simp] Table.isEmpty_iff

@[simp]
theorem recovers_labels (t : Table String) : Recovers t :=
  recovers_table fun e _ => recovers_string e.2

end Collections

section Decoded

omit [Encode α]

variable {domain : α → Prop}

omit [Decode α] in
theorem bind_eq_ok {β : Type} {x : Except DecodeError α} {next : α → Except DecodeError β}
    {b : β} : (x >>= next) = .ok b ↔ ∃ a, x = .ok a ∧ next a = .ok b := by
  cases x with
  | error e => exact ⟨nofun, fun ⟨_, h, _⟩ => nomatch h⟩
  | ok a => exact ⟨fun h => ⟨a, rfl, h⟩, fun ⟨_, h, hnext⟩ => Except.ok.inj h ▸ hnext⟩

theorem DecodesInto.required (h : DecodesInto domain) {key : String} {j : Json} {x : α}
    (hx : Json.requiredField key j = .ok x) : domain x := by
  rw [Json.requiredField.eq_def] at hx
  split at hx
  · split at hx
    · exact h _ x hx
    · cases hx
  · cases hx

theorem DecodesInto.fieldOr (h : DecodesInto domain) {absent : α} (habsent : domain absent)
    {key : String} {j : Json} {x : α} (hx : Json.fieldOr key absent j = .ok x) : domain x := by
  rw [Json.fieldOr.eq_def] at hx
  split at hx
  · split at hx
    · exact h _ x hx
    · cases hx
      exact habsent
  · cases hx

/-- The value of an optional field is decoded from something other than `null`. -/
theorem exists_of_optionalField {key : String} {j : Json} {o : Option α}
    (ho : Json.optionalField key j = .ok o) :
    ∀ x ∈ o, ∃ value : Json, value ≠ .null ∧ decode value = .ok x := by
  rintro x rfl
  rw [Json.optionalField.eq_def] at ho
  split at ho
  · split at ho
    · cases ho
    · rename_i value hnull _
      cases hvalue : (decode value : Except DecodeError α) with
      | error e =>
          rw [hvalue] at ho
          cases ho
      | ok y =>
          rw [hvalue] at ho
          cases ho
          exact ⟨value, hnull, hvalue⟩
    · cases ho
  · cases ho

theorem DecodesInto.optional (h : DecodesInto domain) {key : String} {j : Json} {o : Option α}
    (ho : Json.optionalField key j = .ok o) : ∀ x ∈ o, domain x := by
  intro x hx
  obtain ⟨value, -, hvalue⟩ := exists_of_optionalField ho x hx
  exact h value x hvalue

theorem DecodesInto.list (h : DecodesInto domain) :
    DecodesInto fun xs : List α => ∀ x ∈ xs, domain x := by
  intro j xs hxs
  cases j with
  | arr items =>
      change decodeItems items = .ok xs at hxs
      induction items generalizing xs with
      | nil =>
          cases hxs
          exact fun x hx => nomatch hx
      | cons item rest ih =>
          rw [decodeItems] at hxs
          simp only [bind_eq_ok] at hxs
          obtain ⟨first, hfirst, others, hothers, ⟨⟩⟩ := hxs
          exact List.forall_mem_cons.2 ⟨h item first hfirst, ih others hothers⟩
  | _ => cases hxs

theorem decodesInto_isDated : DecodesInto Instant.IsDated := by
  intro j t ht
  cases j with
  | str s =>
      simp only [decode] at ht
      split at ht
      · rename_i found hfound
        cases ht
        exact Instant.isDated_of_ofText? hfound
      · cases ht
  | _ => cases ht

end Decoded

end NodeFleet
