import NodeFleet.Proofs.Cloud.Records

/-!
# The tag of managed machines

A machine counts as managed by one tag, whatever its other tags say. Setting tags on machines never
takes it away, so it stays until tags are removed or the machine is destroyed.
-/

namespace NodeFleet

theorem contains_tagTable {tags : List Cloud.ResourceTag} {key : String} :
    (tagTable tags).contains key = true ↔ ∃ t ∈ tags, t.key = key := by
  simp only [tagTable, Table.contains_ofList, List.mem_map, exists_exists_and_eq_and]

namespace Cloud

/-- The tag by which a machine counts as managed. -/
def ResourceTag.IsMark (id : String) (t : ResourceTag) : Prop :=
  t.resourceId = id ∧ t.resourceType = ResourceKind.machine.name ∧ t.key = Tag.managedBy

namespace Inventory

variable {id : String} {inv : Inventory} {tags : List ResourceTag}

/-- The machine of an identifier carries the tag of managed machines. -/
def Marks (id : String) (inv : Inventory) : Prop :=
  ∃ t ∈ inv.tags, t.IsMark id

/-- What a listing of the tags of a machine shows. -/
theorem contains_listTags (h : inv.listTags ⟨id, .machine⟩ = .ok tags) :
    (tagTable tags).contains Tag.managedBy = true ↔ Marks id inv := by
  rw [listTags] at h
  split at h
  next => cases h
  next =>
    obtain rfl := Except.ok.inj h
    rw [contains_tagTable]
    constructor
    · rintro ⟨t, ht, hkey⟩
      obtain ⟨hmem, hof⟩ := List.mem_filter.1 ht
      obtain ⟨hid, htype⟩ := Bool.and_eq_true_iff.1 hof
      exact ⟨t, hmem, of_decide_eq_true hid, of_decide_eq_true htype, hkey⟩
    · rintro ⟨t, hmem, hid, htype, hkey⟩
      exact ⟨t, List.mem_filter.2 ⟨hmem, by simp [hid, htype]⟩, hkey⟩

section Tagging

/-- Setting a tag on a machine leaves a mark or sets it anew. -/
theorem exists_mark_putTag (other : String) (entry : String × String)
    (h : ∃ t ∈ tags, t.IsMark id) : ∃ t ∈ putTag .machine other tags entry, t.IsMark id := by
  obtain ⟨t, ht, mark⟩ := h
  by_cases replaced : t.resourceId = other ∧ t.key = entry.1
  · obtain ⟨rfl, hkey⟩ := replaced
    refine ⟨⟨entry.1, entry.2, t.resourceId, ResourceKind.machine.name⟩, ?_, mark.1, rfl,
      hkey.symm.trans mark.2.2⟩
    exact List.mem_append_right _ (List.mem_singleton_self _)
  · refine ⟨t, List.mem_append_left _ (List.mem_filter.2 ⟨ht, ?_⟩), mark⟩
    simpa [imp_iff_not_or] using replaced

theorem exists_mark_putTags (other : String) (entries : List (String × String))
    (h : ∃ t ∈ tags, t.IsMark id) :
    ∃ t ∈ entries.foldl (putTag .machine other) tags, t.IsMark id := by
  induction entries generalizing tags with
  | nil => exact h
  | cons entry rest ih => exact ih (exists_mark_putTag other entry h)

/-- Tags among which is the mark set it. -/
theorem exists_mark_of_putTags {entries : List (String × String)}
    (h : ∃ entry ∈ entries, entry.1 = Tag.managedBy) (tags : List ResourceTag) :
    ∃ t ∈ entries.foldl (putTag .machine id) tags, t.IsMark id := by
  obtain ⟨entry, hentry, hkey⟩ := h
  obtain ⟨before, after, rfl⟩ := List.append_of_mem hentry
  rw [List.foldl_append, List.foldl_cons]
  refine exists_mark_putTags id after ⟨⟨entry.1, entry.2, id, ResourceKind.machine.name⟩, ?_, rfl,
    rfl, hkey⟩
  exact List.mem_append_right _ (List.mem_singleton_self _)

/-- Setting tags on machines takes no mark away. -/
theorem Marks.createTags (h : Marks id inv) {w : TagWrite} (machines : w.kind = .machine) :
    Marks id (inv.createTags w) := by
  obtain ⟨ids, kind, written⟩ := w
  subst machines
  change ∃ t ∈ ids.foldl (fun tags id => written.entries.foldl (putTag .machine id) tags) inv.tags,
    t.IsMark id
  rw [Marks] at h
  generalize inv.tags = tags at h
  induction ids generalizing tags with
  | nil => exact h
  | cons first rest ih => exact ih _ (exists_mark_putTags first written.entries h)

theorem marks_createTags {written : Table String} (managed : written.contains Tag.managedBy = true) :
    Marks id (inv.createTags ⟨[id], .machine, written⟩) := by
  rw [← Table.ofList_entries written, Table.contains_ofList] at managed
  exact exists_mark_of_putTags managed inv.tags

end Tagging

/-- A call that leaves the tags as they are, sets tags on machines or destroys a machine. -/
def SparesTags : Call → Prop
  | .createTags w => w.kind = .machine
  | .deleteTags _ => False
  | _ => True

theorem tags_queryJob (inv : Inventory) (jobId : String) :
    (inv.queryJob jobId).2.tags = inv.tags := by
  rw [queryJob]
  split
  · rfl
  · rfl
  · split <;> rfl

/-- The destruction of another machine takes no mark away. -/
theorem Marks.destroy (h : Marks id inv) {r : DestroyRequest} (hid : r.id ≠ id) :
    Marks id (inv.destroy r).2 := by
  rw [Inventory.destroy]
  split
  next => exact h
  next =>
    rw [Marks, tags_startJob]
    split
    · obtain ⟨t, ht, mark⟩ := h
      refine ⟨t, List.mem_filter.2 ⟨ht, ?_⟩, mark⟩
      simpa [mark.1] using hid.symm
    · exact h

/-- A call takes no mark away, unless it removes tags or destroys the machine. -/
theorem Marks.serve (h : Marks id inv) (today : Instant) {call : Call} (spares : SparesTags call)
    (kept : ∀ r, call = .destroyMachine r → r.id = id → ∃ e, (inv.serve today call).1 = .error e) :
    Marks id (inv.serve today call).2 := by
  rw [Inventory.serve] at kept ⊢
  split
  next => exact h
  next works =>
    rw [works] at kept
    cases call with
    | deployMachine r =>
        change Marks id (inv.deploy today r).2
        rw [Marks, tags_deploy]
        exact h
    | destroyMachine r =>
        by_cases hid : r.id = id
        · obtain ⟨e, he⟩ := kept r rfl hid
          change Marks id (inv.destroy r).2
          rw [destroy_of_error he]
          exact h
        · exact h.destroy hid
    | createTags w => exact h.createTags spares
    | deleteTags r => exact spares.elim
    | queryJob jobId =>
        change Marks id (inv.queryJob jobId).2
        rw [Marks, tags_queryJob]
        exact h
    | _ => exact h

end Inventory

end Cloud

end NodeFleet
