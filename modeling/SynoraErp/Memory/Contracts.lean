import SynoraErp.Governance.Fields
import SynoraErp.Python.Except
import SynoraErp.Python.Sha256
import SynoraErp.Python.Zoned

/-!
# Memory contracts

The records of the memory store. A record is generic in what stands for a time: it
carries aware datetimes in the process and texts in a payload, and nothing at all where
only its other fields matter.
-/

namespace Memory

open Python
open Governance (Uuid isLowerHex)

/-- What a call of the memory package raises: `MemoryStateError`,
`MemoryPersistenceError` and `MemoryRecallError` with a code and a message, and the
`UnicodeEncodeError` of a text the database cannot bind. -/
inductive Exn where
  | stateError (code message : String)
  | persistenceError (code message : String)
  | recallError (code message : String)
  | unicodeEncodeError
  deriving DecidableEq

abbrev Result := Except Exn

/-- `if condition: raise`. -/
def raiseIf {ε : Type} (condition : Prop) [Decidable condition] (e : ε) : Except ε Unit :=
  if condition then .error e else .ok ()

@[simp] theorem raiseIf_eq_ok {ε : Type} {condition : Prop} [Decidable condition] {e : ε}
    {u : Unit} : raiseIf condition e = .ok u ↔ ¬condition := by
  by_cases h : condition
  · simp [raiseIf, h]
  · simp [raiseIf, h]

/-- A check is passed before what follows it runs. -/
theorem check_bind_eq_ok {ε β : Type} {x : Except ε Unit} {f : Unit → Except ε β} {b : β} :
    (x >>= f) = .ok b ↔ x = .ok () ∧ f () = .ok b := by
  rw [Except.bind_eq_ok]
  exact ⟨fun ⟨(), h⟩ => h, fun h => ⟨(), h⟩⟩

theorem map_eq_ok {ε α β : Type} {x : Except ε α} {f : α → β} {b : β} :
    f <$> x = .ok b ↔ ∃ a, x = .ok a ∧ f a = b := by
  cases x with
  | error e => simp
  | ok a => simp

instance decidableOptionRel {α β : Type} {r : α → β → Prop} [∀ a b, Decidable (r a b)] (a : Option α)
    (b : Option β) : Decidable (Option.Rel r a b) :=
  match a, b with
  | none, none => isTrue .none
  | some a, some b => decidable_of_iff (r a b) ⟨.some, fun h => by cases h; assumption⟩
  | none, some _ => isFalse nofun
  | some _, none => isFalse nofun

theorem optionRel_refl {α : Type} {r : α → α → Prop} (h : ∀ a, r a a) :
    ∀ a : Option α, Option.Rel r a a := by
  intro a
  cases a with
  | none => exact .none
  | some a => exact .some (h a)

inductive MemoryKind where
  | working | episodic | semantic | procedural
  deriving DecidableEq

inductive MemoryState where
  | candidate | approved | rejected | superseded | expired | deleted
  deriving DecidableEq

inductive ContentClassification where
  | untrusted
  deriving DecidableEq

structure MemoryScope where
  initiator : Text
  company : Text
  warehouse : Option Text
  runId : Option Uuid
  deriving DecidableEq

structure MemoryRecord (τ : Type) where
  memoryId : Option Text
  kind : MemoryKind
  state : MemoryState
  scope : MemoryScope
  sourceRunId : Option Uuid
  sourceClaimId : Option Text
  sourceRevision : Text
  content : Text
  contentClassification : ContentClassification
  digest : Text
  version : ℕ
  stateVersion : ℕ
  supersedesMemoryId : Option Text
  createdAt : τ
  expiresAt : Option τ
  reviewedAt : Option τ
  reviewer : Option Text
  reviewReason : Option Text
  deriving DecidableEq

namespace MemoryRecord

variable {τ σ ρ : Type}

/-- The record with another rendering of its times. -/
def map (f : τ → σ) (r : MemoryRecord τ) : MemoryRecord σ :=
  { r with
    createdAt := f r.createdAt
    expiresAt := r.expiresAt.map f
    reviewedAt := r.reviewedAt.map f }

/-- The fields that are no time. -/
def untimed (r : MemoryRecord τ) : MemoryRecord Unit := r.map fun _ => ()

@[simp] theorem untimed_map (f : τ → σ) (r : MemoryRecord τ) : (r.map f).untimed = r.untimed := by
  simp [untimed, map, Function.comp_def]

end MemoryRecord

/-- `hashlib.sha256(content.encode("utf-8")).hexdigest()`; a lone surrogate raises. -/
def contentDigest (content : Text) : Option Text :=
  (Text.encodeUtf8 content).map Sha256.hexdigest

/-- `_ID`. -/
def isId (t : Text) : Bool := decide (1 ≤ t.length ∧ t.length ≤ 140)

/-- `_ID` of a field that `_required_text` checks as well. -/
def isRequiredId (t : Text) : Bool := isId t && !Text.isBlank t

namespace MemoryScope

/-- The constraints of the fields. -/
def fieldsValid (s : MemoryScope) : Bool :=
  isRequiredId s.initiator && isRequiredId s.company && s.warehouse.all isRequiredId

/-- `matches`. -/
def matchesScope (s requested : MemoryScope) : Bool := decide (s = requested)

end MemoryScope

namespace MemoryRecord

variable {Z : TimeZones} {τ : Type}

/-- The constraints of the fields that are no time. -/
def fieldsValid (r : MemoryRecord τ) : Bool :=
  r.memoryId.all isId && r.scope.fieldsValid && r.sourceClaimId.all isId &&
    isRequiredId r.sourceRevision &&
    decide (1 ≤ r.content.length ∧ r.content.length ≤ 32000) && !Text.isBlank r.content &&
    decide (r.digest.length = 64) && r.digest.all isLowerHex &&
    decide (1 ≤ r.version ∧ r.version ≤ 1000000) &&
    decide (1 ≤ r.stateVersion ∧ r.stateVersion ≤ 1000000) &&
    r.supersedesMemoryId.all isId && r.reviewer.all isId &&
    r.reviewReason.all fun t => decide (t.length ≤ 2000) && !Text.isBlank t

/-- `validate_invariants`: the message of the first check that fails. -/
def validateInvariants (r : MemoryRecord (AwareDatetime Z)) : Except String Unit := do
  raiseIf (contentDigest r.content ≠ some r.digest) "memory digest does not match content"
  raiseIf (∃ expires ∈ r.expiresAt, expires.le r.createdAt)
    "expires_at must be later than created_at"
  raiseIf (∃ reviewed ∈ r.reviewedAt, reviewed.lt r.createdAt)
    "reviewed_at must not precede created_at"
  raiseIf (r.reviewer.isNone ≠ r.reviewedAt.isNone)
    "reviewer and reviewed_at must be provided together"
  raiseIf (r.state = .approved ∧ (r.reviewer.isNone ∨ r.reviewedAt.isNone))
    "approved memory requires review metadata"
  raiseIf (r.state = .rejected ∧ (r.reviewer.isNone ∨ r.reviewedAt.isNone))
    "rejected memory requires review metadata"
  raiseIf (∃ expires ∈ r.expiresAt, ∃ reviewed ∈ r.reviewedAt, expires.le reviewed)
    "reviewed_at must be before expires_at"
  raiseIf (r.kind = .episodic ∧ r.state = .approved ∧ r.expiresAt.isNone)
    "approved episodic memory requires an explicit expiry"
  raiseIf (r.supersedesMemoryId ≠ none ∧ r.memoryId = none)
    "a correction must receive a new memory_id"
  raiseIf (r.supersedesMemoryId ≠ none ∧ r.memoryId = r.supersedesMemoryId)
    "a correction cannot overwrite its superseded memory"
  raiseIf (r.supersedesMemoryId ≠ none ∧ r.version < 2)
    "a correction must increment the memory version"
  raiseIf (r.kind ≠ .working ∧ r.sourceRunId = none ∧ r.sourceClaimId = none)
    "non-working memory requires a source run or claim"

/-- The constructor accepts the record. -/
def Valid (r : MemoryRecord (AwareDatetime Z)) : Prop :=
  r.fieldsValid = true ∧ r.validateInvariants = .ok ()

instance (r : MemoryRecord (AwareDatetime Z)) : Decidable r.Valid := by
  unfold Valid
  infer_instance

theorem Valid.stateVersion_pos {r : MemoryRecord (AwareDatetime Z)} (h : r.Valid) :
    1 ≤ r.stateVersion := by
  have hfields := h.1
  simp only [fieldsValid, Bool.and_eq_true, decide_eq_true_eq] at hfields
  omega

theorem Valid.length_memoryId {r : MemoryRecord (AwareDatetime Z)} (h : r.Valid) {memoryId : Text}
    (hid : r.memoryId = some memoryId) : memoryId.length ≤ 140 := by
  have hfields := h.1
  simp only [fieldsValid, hid, Option.all_some, isId, Bool.and_eq_true, decide_eq_true_eq] at hfields
  omega

/-- A correction has an id of its own. -/
theorem Valid.supersedes {r : MemoryRecord (AwareDatetime Z)} (h : r.Valid) {prior : Text}
    (hprior : r.supersedesMemoryId = some prior) : r.memoryId ≠ some prior := by
  have hchecks := h.2
  simp only [validateInvariants, check_bind_eq_ok, raiseIf_eq_ok] at hchecks
  obtain ⟨-, -, -, -, -, -, -, -, -, hown, -⟩ := hchecks
  rw [hprior] at hown
  simpa using hown

/-! ## Equality -/

/-- The same fields, and times that are related. -/
def Agree {σ : Type} (rel : τ → σ → Prop) (r : MemoryRecord τ) (s : MemoryRecord σ) : Prop :=
  r.untimed = s.untimed ∧ rel r.createdAt s.createdAt ∧
    Option.Rel rel r.expiresAt s.expiresAt ∧ Option.Rel rel r.reviewedAt s.reviewedAt

/-- `r == s`. -/
def Equals (r s : MemoryRecord (AwareDatetime Z)) : Prop := Agree AwareDatetime.Equals r s

instance (r s : MemoryRecord (AwareDatetime Z)) : Decidable (r.Equals s) := by
  unfold Equals Agree
  infer_instance

theorem equals_refl (r : MemoryRecord (AwareDatetime Z)) : r.Equals r :=
  ⟨rfl, AwareDatetime.equals_refl _, optionRel_refl AwareDatetime.equals_refl _,
    optionRel_refl AwareDatetime.equals_refl _⟩

end MemoryRecord

/-! ## Recall -/

/-- `is_recallable` at an aware time. -/
def isRecallable {Z : TimeZones} (memory : MemoryRecord (AwareDatetime Z)) (requested : MemoryScope)
    (now : AwareDatetime Z) : Bool :=
  if memory.kind = .working ∨ memory.state ≠ .approved ∨ memory.reviewer = none then false
  else
    match memory.reviewedAt with
    | none => false
    | some reviewed =>
        if now.lt reviewed then false
        else if ∃ expires ∈ memory.expiresAt, expires.le now then false
        else memory.scope.matchesScope requested

theorem isRecallable_eq_true {Z : TimeZones} {memory : MemoryRecord (AwareDatetime Z)}
    {requested : MemoryScope} {now : AwareDatetime Z} (h : isRecallable memory requested now = true) :
    memory.state = .approved ∧ memory.scope = requested := by
  by_cases hgate : memory.kind = .working ∨ memory.state ≠ .approved ∨ memory.reviewer = none
  · rw [isRecallable, if_pos hgate] at h
    cases h
  · rw [isRecallable, if_neg hgate] at h
    rw [not_or, not_or, not_not] at hgate
    cases hreviewed : memory.reviewedAt with
    | none => simp [hreviewed] at h
    | some reviewed =>
        simp only [hreviewed] at h
        split_ifs at h
        exact ⟨hgate.2.1, by simpa [MemoryScope.matchesScope] using h⟩

end Memory
