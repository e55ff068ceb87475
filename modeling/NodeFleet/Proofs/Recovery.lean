import NodeFleet.Cloud.Record
import NodeFleet.NodeClaim
import NodeFleet.NodeClass.Codec
import NodeFleet.Proofs.Json.Recovery

/-!
# Records that come back from their JSON form

Node classes, node claims and the records of the cloud come back from their JSON form, part by
part. Two values do not: an instant outside the years that are read, and a result of a job that is
`null`, which reads as none. Neither is ever decoded, so whatever is decoded comes back.
-/

namespace NodeFleet

section NodeClasses

@[simp]
theorem recovers_selectorTerm (t : SelectorTerm) : Recovers t := by
  simp only [Recovers, encode, decode]
  simp [List.lookup_append]

@[simp]
theorem recovers_templateTerm (t : TemplateTerm) : Recovers t := by
  simp only [Recovers, encode, decode]
  simp [List.lookup_append]

@[simp]
theorem recovers_spec (s : NodeClassSpec) : Recovers s := by
  simp only [Recovers, encode, decode]
  simp [List.lookup_append]

@[simp]
theorem recovers_networkStatus (n : NetworkStatus) : Recovers n := by
  simp only [Recovers, encode, decode]
  simp [List.lookup_append]

@[simp]
theorem recovers_offeringStatus (o : OfferingStatus) : Recovers o := by
  simp only [Recovers, encode, decode]
  simp [List.lookup_append]

@[simp]
theorem recovers_templateStatus (t : TemplateStatus) : Recovers t := by
  simp only [Recovers, encode, decode]
  simp [List.lookup_append]

@[simp]
theorem recovers_conditionStatus (s : ConditionStatus) : Recovers s := by
  cases s <;> rfl

/-- The transition is dated in the years that are read. -/
def Condition.IsDated (c : Condition) : Prop :=
  c.lastTransition.IsDated

@[simp]
theorem recovers_condition {c : Condition} (h : c.IsDated) : Recovers c := by
  have htransition : Recovers c.lastTransition := recovers_instant h
  simp only [Recovers, encode, decode]
  simp [List.lookup_append, htransition]

/-- All transitions are dated in the years that are read. -/
def NodeClassStatus.IsDated (s : NodeClassStatus) : Prop :=
  ∀ c ∈ s.conditions, c.IsDated

theorem recovers_status {s : NodeClassStatus} (h : s.IsDated) : Recovers s := by
  have hconditions : Recovers s.conditions := recovers_list fun c hc => recovers_condition (h c hc)
  simp only [Recovers, encode, decode]
  simp [List.lookup_append, hconditions]

/-- The deletion and all transitions are dated in the years that are read. -/
def NodeClass.IsDated (c : NodeClass) : Prop :=
  (∀ t ∈ c.deletion, t.IsDated) ∧ c.status.IsDated

theorem recovers_nodeClass {c : NodeClass} (h : c.IsDated) : Recovers c := by
  have hstatus : Recovers c.status := recovers_status h.2
  simp only [Recovers, encode, decode]
  simp [List.lookup_append, Json.ifAny_dated h.1, hstatus]

theorem decodesInto_condition : DecodesInto Condition.IsDated := by
  intro j c hc
  simp only [decode, bind_eq_ok] at hc
  obtain ⟨_, -, _, -, _, -, _, -, t, ht, _, -, ⟨⟩⟩ := hc
  exact decodesInto_isDated.required ht

theorem decodesInto_status : DecodesInto NodeClassStatus.IsDated := by
  intro j s hs
  simp only [decode, bind_eq_ok] at hs
  obtain ⟨_, -, _, -, _, -, conditions, hconditions, ⟨⟩⟩ := hs
  exact decodesInto_condition.list.fieldOr (List.forall_mem_nil _) hconditions

theorem decodesInto_nodeClass : DecodesInto NodeClass.IsDated := by
  intro j c hc
  simp only [decode, bind_eq_ok] at hc
  obtain ⟨_, -, _, -, deletion, hdeletion, _, -, status, hstatus, ⟨⟩⟩ := hc
  have hnone : NodeClassStatus.IsDated {} := List.forall_mem_nil _
  exact ⟨decodesInto_isDated.optional hdeletion, decodesInto_status.fieldOr hnone hstatus⟩

end NodeClasses

section NodeClaims

@[simp]
theorem recovers_claimStatus (s : NodeClaimStatus) : Recovers s := by
  simp only [Recovers, encode, decode]
  simp [List.lookup_append]

/-- The creation and the deletion are dated in the years that are read. -/
def NodeClaim.IsDated (c : NodeClaim) : Prop :=
  (∀ t ∈ c.creation, t.IsDated) ∧ ∀ t ∈ c.deletion, t.IsDated

theorem recovers_nodeClaim {c : NodeClaim} (h : c.IsDated) : Recovers c := by
  simp only [Recovers, encode, decode]
  simp [List.lookup_append, Json.ifAny_dated h.1, Json.ifAny_dated h.2]

theorem decodesInto_nodeClaim : DecodesInto NodeClaim.IsDated := by
  intro j c hc
  simp only [decode, bind_eq_ok] at hc
  obtain ⟨_, -, _, -, _, -, _, -, creation, hcreation, deletion, hdeletion, _, -, ⟨⟩⟩ := hc
  exact ⟨decodesInto_isDated.optional hcreation, decodesInto_isDated.optional hdeletion⟩

end NodeClaims

namespace Cloud

@[simp]
theorem recovers_tag (t : ResourceTag) : Recovers t := by
  simp only [Recovers, encode, decode]
  simp [List.lookup_append]

@[simp]
theorem recovers_nic (n : Nic) : Recovers n := by
  simp only [Recovers, encode, decode]
  simp [List.lookup_append]

theorem recovers_machine (vm : VirtualMachine) : Recovers vm := by
  simp only [Recovers, encode, decode]
  simp [List.lookup_append]

theorem recovers_zone (z : ZoneRecord) : Recovers z := by
  simp only [Recovers, encode, decode]
  simp [List.lookup_append]

theorem recovers_network (n : NetworkRecord) : Recovers n := by
  simp only [Recovers, encode, decode]
  simp [List.lookup_append]

theorem recovers_template (t : TemplateRecord) : Recovers t := by
  simp only [Recovers, encode, decode]
  simp [List.lookup_append]

theorem recovers_offering (o : OfferingRecord) : Recovers o := by
  simp only [Recovers, encode, decode]
  simp [List.lookup_append]

/-- A page of items that come back comes back. -/
theorem recovers_page {α : Type} [Encode α] [Decode α] {p : Page α}
    (h : ∀ x ∈ p.items, Recovers x) : Recovers p := by
  have hitems : Recovers p.items := recovers_list h
  simp only [Recovers, encode, decode]
  simp [List.lookup_append, hitems]

theorem recovers_deployReply (r : DeployReply) : Recovers r := by
  simp only [Recovers, encode, decode]
  simp [List.lookup_append]

theorem recovers_jobTicket (t : JobTicket) : Recovers t := by
  simp only [Recovers, encode, decode]
  simp

/-- A result that is there is not `null`. -/
def JobResult.IsTold (r : JobResult) : Prop :=
  r.result ≠ some .null

theorem recovers_jobResult {r : JobResult} (h : r.IsTold) : Recovers r := by
  have hresult : Json.ifAny (r.result.map encode) = .ok r.result :=
    Json.ifAny_encode fun j hj => ⟨rfl, fun e => h (hj.trans (congrArg some e))⟩
  simp only [Recovers, encode, decode]
  simp [List.lookup_append, hresult]

theorem decodesInto_jobResult : DecodesInto JobResult.IsTold := by
  intro j r hr
  simp only [decode, bind_eq_ok] at hr
  obtain ⟨_, -, _, -, _, -, result, hresult, ⟨⟩⟩ := hr
  intro hnull
  obtain ⟨value, hvalue, hdecode⟩ := exists_of_optionalField hresult .null hnull
  exact hvalue (Except.ok.inj hdecode)

end Cloud

section Main

open Cloud

/-- Decoding undoes encoding for node classes, node claims and the records of the cloud, with every
part of them. The values are all there are, up to dates outside the years that are read and a
result of a job that is `null`; and whatever JSON is decoded, its value encoded once more is
decoded to the same value and has the same JSON form. -/
theorem decoding_undoes_encoding :
    ReadsBack NodeClass NodeClass.IsDated
      ∧ ReadsBack NodeClassSpec (fun _ => True)
      ∧ ReadsBack NodeClassStatus NodeClassStatus.IsDated
      ∧ ReadsBack Condition Condition.IsDated
      ∧ ReadsBack SelectorTerm (fun _ => True)
      ∧ ReadsBack TemplateTerm (fun _ => True)
      ∧ ReadsBack NodeClaim NodeClaim.IsDated
      ∧ ReadsBack VirtualMachine (fun _ => True)
      ∧ ReadsBack ZoneRecord (fun _ => True)
      ∧ ReadsBack NetworkRecord (fun _ => True)
      ∧ ReadsBack TemplateRecord (fun _ => True)
      ∧ ReadsBack OfferingRecord (fun _ => True)
      ∧ ReadsBack ResourceTag (fun _ => True)
      ∧ ReadsBack DeployReply (fun _ => True)
      ∧ ReadsBack JobTicket (fun _ => True)
      ∧ ReadsBack JobResult JobResult.IsTold
      ∧ ReadsBack (Page Nic) (fun _ => True) := by
  refine ⟨?nodeClass, ?spec, ?status, ?condition, ?selectorTerm, ?templateTerm, ?nodeClaim,
    ?machine, ?zone, ?network, ?template, ?offering, ?tag, ?deployReply, ?jobTicket, ?jobResult,
    ?interfaces⟩
  case nodeClass => exact readsBack_of_recovers (fun _ => recovers_nodeClass) decodesInto_nodeClass
  case spec => exact readsBack_of_forall recovers_spec
  case status => exact readsBack_of_recovers (fun _ => recovers_status) decodesInto_status
  case condition => exact readsBack_of_recovers (fun _ => recovers_condition) decodesInto_condition
  case selectorTerm => exact readsBack_of_forall recovers_selectorTerm
  case templateTerm => exact readsBack_of_forall recovers_templateTerm
  case nodeClaim => exact readsBack_of_recovers (fun _ => recovers_nodeClaim) decodesInto_nodeClaim
  case machine => exact readsBack_of_forall recovers_machine
  case zone => exact readsBack_of_forall recovers_zone
  case network => exact readsBack_of_forall recovers_network
  case template => exact readsBack_of_forall recovers_template
  case offering => exact readsBack_of_forall recovers_offering
  case tag => exact readsBack_of_forall recovers_tag
  case deployReply => exact readsBack_of_forall recovers_deployReply
  case jobTicket => exact readsBack_of_forall recovers_jobTicket
  case jobResult => exact readsBack_of_recovers (fun _ => recovers_jobResult) decodesInto_jobResult
  case interfaces => exact readsBack_of_forall fun p => recovers_page fun n _ => recovers_nic n

/-- A node class that turned ready within the leap second at the end of 2016, and is marked as
deleted at the start of the year 0. -/
def leapClass : NodeClass where
  name := "default"
  deletion := some (Instant.ofSeconds (-62167219200))
  spec := { zone := "zone-1" }
  status := {
    conditions := [{
      type := Condition.ready
      status := .met
      reason := "Resolved"
      message := ""
      lastTransition := ⟨1483228799, 1123456789, by decide, by decide⟩ }] }

/-- The answer to a job query with an explicit `null` for its result. -/
def nullResult : Json :=
  .obj [("jobid", .str "job-1"), ("jobstatus", wholeNumber 0), ("jobresult", .null)]

/-- Its JSON form once it is decoded: the result is left out, and the default is written. -/
def noResult : Json :=
  .obj [("jobid", .str "job-1"), ("jobstatus", wholeNumber 0), ("jobresultcode", wholeNumber 0)]

/-- The node class of the leap second comes back, and the JSON form of the job without its result
is settled. -/
theorem decoding_undoes_encoding_of_leap_second :
    leapClass.IsDated ∧ (decode (encode leapClass) : Except DecodeError NodeClass) = .ok leapClass
      ∧ reencode JobResult nullResult = .ok noResult
      ∧ (decode noResult : Except DecodeError JobResult) = decode nullResult
      ∧ reencode JobResult noResult = .ok noResult := by
  obtain ⟨hclass, -, -, -, -, -, -, -, -, -, -, -, -, -, -, hjob, -⟩ := decoding_undoes_encoding
  have hdated : leapClass.IsDated := by
    refine ⟨?_, ?_⟩
    · rintro t ⟨⟩
      rfl
    · intro c hc
      cases List.mem_singleton.1 hc
      rfl
  have hread : reencode JobResult nullResult = .ok noResult := rfl
  exact ⟨hdated, hclass.undone leapClass hdated, hread, hjob.settled nullResult noResult hread⟩

end Main

end NodeFleet
