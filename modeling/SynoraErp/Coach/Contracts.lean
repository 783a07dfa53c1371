import SynoraErp.Governance.Fields
import SynoraErp.Order.SortedByKey
import SynoraErp.Python.Encodes

/-!
# The contracts of the Coach

The data of one Coach request: the question, the current document with its facts, the
claims and citations of an answer, and the checks a contract makes of each of them. An
update of a frozen model is not checked, so the checks are functions of their own;
`model_validate` of what a model dumps reads every field back and makes them again.
-/

namespace Coach

open Python Governance

/-! ## Fields -/

/-- A string of a bounded length, which has a UTF-8 form. -/
def isString (low high : ℕ) (t : Text) : Bool :=
  (Text.encodeUtf8 t).isSome && decide (low ≤ t.length ∧ t.length ≤ high)

theorem isString_of_ascii {low high : ℕ} {t : Text} (hascii : t.all (fun c => c.val < 0x80) = true)
    (hlength : low ≤ t.length ∧ t.length ≤ high) : isString low high t = true := by
  rw [isString, Bool.and_eq_true]
  exact ⟨isSome_encodeUtf8_of_ascii hascii, decide_eq_true hlength⟩

/-- A string of `_IDENTIFIER` that is not blank. -/
def isName (t : Text) : Bool := isString 1 140 t && !Text.isBlank t

/-- An optional string of at most 140 characters that is not blank. -/
def isOptionalName (t : Option Text) : Bool :=
  t.elim true fun t => isString 0 140 t && !Text.isBlank t

/-- `^[A-Za-z0-9][A-Za-z0-9_.:-]{0,119}$`. -/
def isId : Text → Bool
  | [] => false
  | c :: t => isAlphanumeric c && decide (t.length ≤ 119) &&
      t.all fun c => isAlphanumeric c || [0x5F, 0x2E, 0x3A, 0x2D].contains c.val

/-! ## The current document -/

inductive DocumentType where
  | materialRequest
  | purchaseOrder
deriving DecidableEq

def DocumentType.text : DocumentType → Text
  | .materialRequest => "Material Request"
  | .purchaseOrder => "Purchase Order"

structure DocumentRef where
  doctype : DocumentType
  name : Text
deriving DecidableEq

/-- `CoachQuestionRequest`; an id is the text of its UUID. -/
structure QuestionRequest where
  runId : Text
  correlationId : Text
  question : Text
  currentDocument : DocumentRef

/-- `CoachLiveFactField`. -/
inductive LiveFactField where
  | company
  | docstatus
  | status
  | transactionDate
  | itemCode
  | warehouse
  | stockUom
  | scheduleDate
  | materialRequest
  | materialRequestType
  | requestedStockQty
  | orderedStockQty
  | openOrderStockQty
  | purchaseOrder
  | supplier
  | currency
  | receivedStockQty
  | openReceiptStockQty
deriving DecidableEq

namespace LiveFactField

def text : LiveFactField → Text
  | company => "company"
  | docstatus => "docstatus"
  | status => "status"
  | transactionDate => "transaction_date"
  | itemCode => "item_code"
  | warehouse => "warehouse"
  | stockUom => "stock_uom"
  | scheduleDate => "schedule_date"
  | materialRequest => "material_request"
  | materialRequestType => "material_request_type"
  | requestedStockQty => "requested_stock_qty"
  | orderedStockQty => "ordered_stock_qty"
  | openOrderStockQty => "open_order_stock_qty"
  | purchaseOrder => "purchase_order"
  | supplier => "supplier"
  | currency => "currency"
  | receivedStockQty => "received_stock_qty"
  | openReceiptStockQty => "open_receipt_stock_qty"

def all : List LiveFactField :=
  [company, docstatus, status, transactionDate, itemCode, warehouse, stockUom, scheduleDate,
    materialRequest, materialRequestType, requestedStockQty, orderedStockQty, openOrderStockQty,
    purchaseOrder, supplier, currency, receivedStockQty, openReceiptStockQty]

def ofText? (t : Text) : Option LiveFactField := all.find? (·.text = t)

end LiveFactField

/-- `_CurrentFact`. -/
structure CommonFact where
  company : Text
  docstatus : ℕ
  status : Text
  transactionDate : Text
  itemCode : Option Text
  warehouse : Option Text
  stockUom : Option Text
  scheduleDate : Option Text

/-- `MaterialRequestCurrentFact` and `PurchaseOrderCurrentFact`. -/
inductive CurrentFact where
  | materialRequest (common : CommonFact) (materialRequest materialRequestType : Text)
      (requestedStockQty orderedStockQty openOrderStockQty : Option Text)
  | purchaseOrder (common : CommonFact) (purchaseOrder supplier currency : Text)
      (orderedStockQty receivedStockQty openReceiptStockQty : Option Text)

/-- `None` or a string. -/
def optionalText (t : Option Text) : Value := t.elim .none .str

def CommonFact.dump (fact : CommonFact) : List (LiveFactField × Value) :=
  [(.company, .str fact.company), (.docstatus, .int fact.docstatus), (.status, .str fact.status),
    (.transactionDate, .str fact.transactionDate), (.itemCode, optionalText fact.itemCode),
    (.warehouse, optionalText fact.warehouse), (.stockUom, optionalText fact.stockUom),
    (.scheduleDate, optionalText fact.scheduleDate)]

/-- `fact.model_dump(mode="json")`. -/
def CurrentFact.dump : CurrentFact → List (LiveFactField × Value)
  | .materialRequest common name type requested ordered open_ => common.dump ++
      [(.materialRequest, .str name), (.materialRequestType, .str type),
        (.requestedStockQty, optionalText requested), (.orderedStockQty, optionalText ordered),
        (.openOrderStockQty, optionalText open_)]
  | .purchaseOrder common name supplier currency ordered received open_ => common.dump ++
      [(.purchaseOrder, .str name), (.supplier, .str supplier), (.currency, .str currency),
        (.orderedStockQty, optionalText ordered), (.receivedStockQty, optionalText received),
        (.openReceiptStockQty, optionalText open_)]

/-- The value of a field that is there and not `None`. -/
def CurrentFact.value? (fact : CurrentFact) (field : LiveFactField) : Option Value :=
  (fact.dump.lookup field).filter (· ≠ .none)

/-- The fact as a JSON object. -/
def CurrentFact.object (fact : CurrentFact) : Value :=
  .dict (fact.dump.map fun entry => (entry.1.text, entry.2))

/-- `hashlib.sha256(text.encode("utf-8")).hexdigest()`; `none` when the text has no UTF-8
form. -/
def sha256Text (t : Text) : Option Text := (Text.encodeUtf8 t).map Sha256.hexdigest

/-- `current_fact_digest`. -/
def currentFactDigest (I : Interpreter) (fact : CurrentFact) : Option Text :=
  (Json.dumps I fact.object).bind sha256Text

/-- `CoachCurrentDocumentContext`. -/
structure CurrentDocumentContext where
  runId : Text
  stateVersion : ℕ
  currentDocument : DocumentRef
  authorizedCompany : Text
  authorizedWarehouse : Option Text
  coverage : Text
  capturedAt : Text
  sourceModifiedAt : Option Text
  frappeRevision : Option Text
  erpnextRevision : Option Text
  facts : List CurrentFact

/-! ## Citations -/

/-- `CoachLiveCitation`. -/
structure LiveCitation where
  citationId : Text
  runId : Text
  documentDoctype : DocumentType
  documentName : Text
  stateVersion : ℤ
  capturedAt : Text
  sourceModifiedAt : Option Text
  frappeRevision : Option Text
  erpnextRevision : Option Text
  factFields : List LiveFactField
  factDigest : Text
deriving DecidableEq

/-- `CoachRetrievalCitation`. -/
structure RetrievalCitation where
  citationId : Text
  chunkId : Text
  contentDigest : Text
  ordinal : ℤ
  sourceType : Text
  revision : Text
  erpVersion : Text
  permissionScope : Text
deriving DecidableEq

/-- `CoachMemoryCitation`. -/
structure MemoryCitation where
  citationId : Text
  memoryId : Text
  memoryVersion : ℤ
  contentDigest : Text
  reviewedAt : Text
  reviewer : Text
deriving DecidableEq

/-- `CoachProviderCitation`; `selector` is a `CoachProviderLiveCitation`. -/
inductive Citation where
  | live (citation : LiveCitation)
  | selector (citationId : Text) (factFields : List LiveFactField)
  | retrieval (citation : RetrievalCitation)
  | memory (citation : MemoryCitation)
deriving DecidableEq

namespace Citation

def citationId : Citation → Text
  | live c => c.citationId
  | selector id _ => id
  | retrieval c => c.citationId
  | memory c => c.citationId

/-- `citation_type`. -/
def citationType : Citation → Text
  | live _ => "LIVE_ERP"
  | selector _ _ => "LIVE_ERP"
  | retrieval _ => "RETRIEVAL"
  | memory _ => "MEMORY"

def isFactFields (fields : List LiveFactField) : Bool :=
  decide (1 ≤ fields.length ∧ fields.length ≤ 16 ∧ fields.Nodup)

/-- The checks of the model of a citation. -/
def valid : Citation → Bool
  | live c => isId c.citationId && isCanonicalUuid c.runId && isName c.documentName &&
      decide (1 ≤ c.stateVersion ∧ c.stateVersion ≤ 1000000) && isName c.capturedAt &&
      isOptionalName c.sourceModifiedAt && isOptionalName c.frappeRevision &&
      isOptionalName c.erpnextRevision && isFactFields c.factFields && isDigest c.factDigest
  | selector id fields => isId id && isFactFields fields
  | retrieval c => isId c.citationId && isDigest c.chunkId && isDigest c.contentDigest &&
      decide (1 ≤ c.ordinal ∧ c.ordinal ≤ 1000000) && isString 1 140 c.sourceType &&
      isString 1 140 c.revision && isString 1 140 c.erpVersion && isString 1 140 c.permissionScope
  | memory c => isId c.citationId && isCanonicalUuid c.memoryId &&
      decide (1 ≤ c.memoryVersion ∧ c.memoryVersion ≤ 1000000) && isDigest c.contentDigest &&
      isString 1 140 c.reviewedAt && isString 1 140 c.reviewer

end Citation

/-! ## Claims -/

inductive ClaimType where
  | erpFact
  | retrievedKnowledge
  | memory
  | recommendation
  | unknown
deriving DecidableEq

def ClaimType.text : ClaimType → Text
  | .erpFact => "ERP_FACT"
  | .retrievedKnowledge => "RETRIEVED_KNOWLEDGE"
  | .memory => "MEMORY"
  | .recommendation => "RECOMMENDATION"
  | .unknown => "UNKNOWN"

def ClaimType.all : List ClaimType :=
  [.erpFact, .retrievedKnowledge, .memory, .recommendation, .unknown]

/-- `COACH_SIGNABLE_CLAIM_TYPES`. -/
def ClaimType.signable : ClaimType → Bool
  | .erpFact => true
  | .retrievedKnowledge => true
  | .recommendation => true
  | .memory => false
  | .unknown => false

/-- `CoachClaim`. -/
structure Claim where
  claimId : Text
  ordinal : ℤ
  claimType : ClaimType
  text : Text
  citationRefs : List Text
deriving DecidableEq

/-- The checks of the model of a claim but those of the number of its citations, which a
claim that leaves them out is not put to. -/
def Claim.validFields (claim : Claim) : Bool :=
  isId claim.claimId && decide (1 ≤ claim.ordinal ∧ claim.ordinal ≤ 32) &&
    isString 1 4000 claim.text && !Text.isBlank claim.text && decide claim.citationRefs.Nodup

def Claim.valid (claim : Claim) : Bool :=
  claim.validFields && decide (1 ≤ claim.citationRefs.length ∧ claim.citationRefs.length ≤ 8)

/-! ## Outputs -/

inductive AnswerStatus where
  | answered
  | unknown
  | conflict
  | refused
deriving DecidableEq

def AnswerStatus.text : AnswerStatus → Text
  | .answered => "ANSWERED"
  | .unknown => "UNKNOWN"
  | .conflict => "CONFLICT"
  | .refused => "REFUSED"

def AnswerStatus.all : List AnswerStatus := [.answered, .unknown, .conflict, .refused]

/-- `CoachProviderOutput`. -/
structure ProviderOutput where
  answerStatus : AnswerStatus
  answer : Text
  claims : List Claim
  citations : List Citation
  refusalReason : Option Text
deriving DecidableEq

namespace ProviderOutput

/-- The citation of an id. -/
def citation? (o : ProviderOutput) (id : Text) : Option Citation :=
  o.citations.find? (·.citationId = id)

/-- What `validate_claim_graph` asks of a citation a claim refers to. -/
def citesProperly (o : ProviderOutput) (claim : Claim) (id : Text) : Bool :=
  (o.citation? id).elim false fun citation =>
    (claim.claimType != .erpFact || citation.citationType == Text.ofString "LIVE_ERP") &&
      (claim.claimType != .retrievedKnowledge || citation.citationType == Text.ofString "RETRIEVAL")

/-- What `validate_claim_graph` asks of the status. -/
def statusFits (o : ProviderOutput) : Bool :=
  match o.answerStatus with
  | .answered => !Text.isBlank o.answer && !o.claims.isEmpty && o.refusalReason.isNone &&
      o.claims.all fun claim => claim.claimType != .unknown
  | .conflict => !Text.isBlank o.answer && !o.claims.isEmpty && !o.citations.isEmpty &&
      o.refusalReason.isNone && o.claims.all fun claim => claim.claimType != .unknown
  | _ => Text.isBlank o.answer && o.claims.isEmpty && o.citations.isEmpty &&
      o.refusalReason.any fun reason => reason ≠ []

/-- `validate_claim_graph`. -/
def graphValid (o : ProviderOutput) : Bool :=
  decide (o.citations.map (·.citationId)).Nodup && decide (o.claims.map (·.claimId)).Nodup &&
    decide (o.claims.map (·.ordinal) = (List.range o.claims.length).map fun i => (i : ℤ) + 1) &&
    (o.claims.all fun claim => claim.citationRefs.all (o.citesProperly claim)) &&
    (o.citations.all fun citation => o.claims.any fun claim =>
      claim.citationRefs.contains citation.citationId) &&
    o.statusFits

/-- The fields of an output whose claims and citations are checked, and its graph; a blank
answer is made empty once its length is checked. -/
def finish (o : ProviderOutput) : Option ProviderOutput :=
  if isString 0 8000 o.answer && decide (o.claims.length ≤ 32) && decide (o.citations.length ≤ 64) &&
      o.refusalReason.all (fun reason => isString 0 500 reason && !Text.isBlank reason) then
    let o := { o with answer := if Text.isBlank o.answer then [] else o.answer }
    if o.graphValid then some o else none
  else none

/-- `CoachProviderOutput.model_validate` of what an output dumps. -/
def validate (o : ProviderOutput) : Option ProviderOutput :=
  if o.claims.all Claim.valid && o.citations.all Citation.valid then o.finish else none

/-! ### What an output is -/

/-- The only thing that changes is a blank answer. -/
theorem finish_eq_some {o p : ProviderOutput} (h : o.finish = some p) :
    p = { o with answer := if Text.isBlank o.answer then [] else o.answer } ∧
      p.graphValid = true := by
  rw [finish, Option.ite_none_right_eq_some] at h
  have hfinished := (Option.ite_none_right_eq_some.mp h.2)
  rw [← Option.some.inj hfinished.2]
  exact ⟨rfl, hfinished.1⟩

theorem validate_eq_some {o p : ProviderOutput} (h : o.validate = some p) :
    o.claims.all Claim.valid = true ∧ o.citations.all Citation.valid = true ∧
      o.finish = some p := by
  rw [validate] at h
  split_ifs at h with hparts
  rw [Bool.and_eq_true] at hparts
  exact ⟨hparts.1, hparts.2, h⟩

/-- The answer that is displayed is the one that was given. -/
theorem validate_displayable {o p : ProviderOutput} (h : o.validate = some p)
    (hstatus : p.answerStatus = .answered ∨ p.answerStatus = .conflict) : p = o := by
  obtain ⟨hp, hgraph⟩ := finish_eq_some (validate_eq_some h).2.2
  have hblank : Text.isBlank p.answer = false := by
    rw [graphValid, Bool.and_eq_true] at hgraph
    have hfits := hgraph.2
    cases hstatus with
    | inl hstatus => simp_all [statusFits]
    | inr hstatus => simp_all [statusFits]
  rw [hp] at hblank ⊢
  by_cases hanswer : Text.isBlank o.answer
  · simp only [if_pos hanswer] at hblank
    exact absurd hblank (by decide)
  · simp only [if_neg hanswer]

theorem nodup_citationIds {o : ProviderOutput} (h : o.graphValid = true) :
    (o.citations.map Citation.citationId).Nodup := by
  simp only [graphValid, Bool.and_eq_true, decide_eq_true_eq] at h
  exact h.1.1.1.1.1

/-- No citation is an orphan. -/
theorem exists_claim_of_mem_citations {o : ProviderOutput} (h : o.graphValid = true)
    {citation : Citation} (hmem : citation ∈ o.citations) :
    ∃ claim ∈ o.claims, citation.citationId ∈ claim.citationRefs := by
  simp only [graphValid, Bool.and_eq_true, List.all_eq_true, List.any_eq_true,
    List.contains_iff_mem] at h
  exact h.1.2 citation hmem

/-- A claim refers to citations that are there. -/
theorem exists_citation_of_mem_refs {o : ProviderOutput} (h : o.graphValid = true) {claim : Claim}
    (hclaim : claim ∈ o.claims) {id : Text} (hid : id ∈ claim.citationRefs) :
    ∃ citation, o.citation? id = some citation := by
  simp only [graphValid, Bool.and_eq_true, List.all_eq_true] at h
  have hcites := h.1.1.2 claim hclaim id hid
  rw [citesProperly] at hcites
  cases hcitation : o.citation? id with
  | none => simp [hcitation] at hcites
  | some citation => exact ⟨citation, rfl⟩

theorem citation?_of_mem {o : ProviderOutput} (h : o.graphValid = true) {citation : Citation}
    (hmem : citation ∈ o.citations) : o.citation? citation.citationId = some citation :=
  SortedByKey.find?_key Citation.citationId (nodup_citationIds h) hmem

theorem citationId_of_citation? {o : ProviderOutput} {id : Text} {citation : Citation}
    (h : o.citation? id = some citation) : citation.citationId = id := by
  simpa using List.find?_some h

theorem mem_of_citation? {o : ProviderOutput} {id : Text} {citation : Citation}
    (h : o.citation? id = some citation) : citation ∈ o.citations :=
  List.mem_of_find?_eq_some h

end ProviderOutput

end Coach
