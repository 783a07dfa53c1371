import SynoraErp.Memory.Contracts

/-!
# Recall

`filter_recallable`: the records one exact scope may see at a time, in the order of their
creation.
-/

namespace Memory

open Python

variable {Z : TimeZones}

structure MemoryRecallQuery (Z : TimeZones) where
  scope : MemoryScope
  now : AwareDatetime Z

/-- `_validate_recall_query`. -/
def validateRecallQuery (query : MemoryRecallQuery Z) : Result Unit :=
  raiseIf (query.scope.fieldsValid = false) (.recallError "INVALID_QUERY" "recall query is invalid")

/-- The key `(created_at, memory_id or "")` of a record comes before that of another. -/
def recallBefore (r s : MemoryRecord (AwareDatetime Z)) : Bool :=
  if r.createdAt.Equals s.createdAt then decide (r.memoryId.getD [] < s.memoryId.getD [])
  else decide (r.createdAt.lt s.createdAt)

/-- `filter_recallable`. -/
def filterRecallable (records : List (MemoryRecord (AwareDatetime Z)))
    (query : MemoryRecallQuery Z) : Result (List (MemoryRecord (AwareDatetime Z))) := do
  validateRecallQuery query
  let visible := records.filter fun record => isRecallable record query.scope query.now
  .ok (visible.mergeSort fun r s => !recallBefore s r)

/-- A recalled record is approved and of the scope asked for. -/
theorem mem_filterRecallable {records recalled : List (MemoryRecord (AwareDatetime Z))}
    {query : MemoryRecallQuery Z} (h : filterRecallable records query = .ok recalled)
    {r : MemoryRecord (AwareDatetime Z)} (hr : r ∈ recalled) :
    r ∈ records ∧ r.state = .approved ∧ r.scope = query.scope := by
  rw [filterRecallable, check_bind_eq_ok] at h
  obtain rfl := Except.ok.inj h.2
  rw [List.mem_mergeSort, List.mem_filter] at hr
  exact ⟨hr.1, isRecallable_eq_true hr.2⟩

end Memory
