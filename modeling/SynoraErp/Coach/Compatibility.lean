import SynoraErp.Coach.ProviderOutput
import SynoraErp.Python.Model

/-!
# Wire compatibility

What the rewriting of a provider's output keeps: an object that is an output already is read as
it is, and the selectors of live citations that come without one are those the claims name. When
a citation is given without its fields it takes those of the first claim that refers to it,
whatever other claims name; a citation that is made up is one no claims disagree on.
-/

namespace Python

namespace Dict

theorem get?_set (d : Dict) (k : Text) (v : Value) (key : Text) :
    get? (set d k v) key = if k = key then some v else get? d key := by
  induction d with
  | nil => rfl
  | cons entry d ih =>
      obtain ⟨k', w⟩ := entry
      rw [set]
      by_cases hk : k' = k
      · rw [if_pos hk, get?_cons, get?_cons, hk]
        split_ifs <;> rfl
      · rw [if_neg hk, get?_cons, get?_cons, ih]
        by_cases hkey : k' = key
        · have hne : ¬k = key := fun h => hk (hkey.trans h.symm)
          rw [if_pos hkey, if_neg hne, if_pos hkey]
        · rw [if_neg hkey, if_neg hkey]

theorem mem_keys_set {d : Dict} {k : Text} {v : Value} {key : Text} :
    key ∈ keys (set d k v) ↔ k = key ∨ key ∈ keys d := by
  have h := not_congr (@get?_eq_none_iff (set d k v) key)
  rw [not_not] at h
  rw [← h, get?_set]
  split_ifs with hk
  · simp [hk]
  · rw [← not_iff_not, not_not, get?_eq_none_iff]
    simp [hk]

end Dict

end Python

namespace Coach

open Python Governance

/-! ## The object of a text -/

/-- The JSON object of a provider's text. -/
def decodeOutput (I : Interpreter) (raw : Text) : Option Dict := do
  let bytes ← Text.encodeUtf8 raw
  if bytes.size > 256000 then none
  else
    match Json.loads I jsonHooks raw with
    | some (.dict value) => some value
    | _ => none

/-- The reading of an output, with the version that is taken for the current one. -/
def readCurrent (d : Dict) : Option ProviderOutput :=
  readOutput (if item d "schema_version" = .ofString "1.0"
    then Dict.set d "schema_version" (.ofString "1") else d)

theorem parse_eq (I : Interpreter) (raw : Text) :
    parseCoachProviderOutput I raw = (decodeOutput I raw).bind fun value =>
      (normalizeProviderCompatibility value).bind readCurrent := by
  rw [parseCoachProviderOutput, decodeOutput]
  cases Text.encodeUtf8 raw with
  | none => rfl
  | some bytes =>
      simp only [Option.bind_eq_bind, Option.bind_some]
      split_ifs
      · rfl
      · cases Json.loads I jsonHooks raw with
        | none => rfl
        | some v => cases v <;> rfl

/-! ## Fields -/

theorem requiredField_eq_some {α : Type} {d : Dict} {key : String} {read : Value → Option α}
    {a : α} : requiredField d key read = some a ↔
      ∃ v, Dict.get? d (Text.ofString key) = some v ∧ read v = some a :=
  Option.bind_eq_some_iff

theorem defaultField_eq_some {α : Type} {d : Dict} {key : String} {value a : α}
    {read : Value → Option α} (h : defaultField d key value read = some a) :
    (Dict.get? d (Text.ofString key) = none ∧ a = value) ∨
      ∃ v, Dict.get? d (Text.ofString key) = some v ∧ read v = some a := by
  rw [defaultField] at h
  cases hget : Dict.get? d (Text.ofString key) with
  | none =>
      rw [hget] at h
      exact .inl ⟨rfl, (Option.some.inj h).symm⟩
  | some v =>
      rw [hget] at h
      exact .inr ⟨v, rfl, h⟩

theorem item_of_get? {d : Dict} {key : String} {v : Value}
    (h : Dict.get? d (Text.ofString key) = some v) : item d key = v := by
  rw [item, h, Option.getD_some]

theorem item_set (d : Dict) (k key : String) (v : Value) :
    item (Dict.set d (Text.ofString k) v) key = if k = key then v else item d key := by
  rw [item, Dict.get?_set]
  by_cases hk : k = key
  · rw [if_pos (by rw [hk]), if_pos hk, Option.getD_some]
  · rw [if_neg (by rwa [Text.ofString_inj]), if_neg hk, item]

theorem readMember_eq_some {α : Type} {text : α → Text} {all : List α} {v : Value} {a : α}
    (h : readMember text all v = some a) : v = .str (text a) := by
  obtain ⟨t, ht, hfind⟩ := Option.bind_eq_some_iff.mp h
  have htext : text a = t := by simpa using List.find?_some hfind
  cases v with
  | str s =>
      rw [htext, ← Option.some.inj ht]
  | _ => cases ht

theorem readFactFields_eq_some {v : Value} {fields : List LiveFactField}
    (h : readFactFields v = some fields) :
    v = .list (fields.map fun field => .str field.text) := by
  obtain ⟨xs, hxs, hfields⟩ := Option.bind_eq_some_iff.mp h
  have hv : v = .list xs := by
    cases v with
    | list ys => rw [← Option.some.inj hxs]
    | _ => cases hxs
  rw [hv]
  congr 1
  clear h hxs hv
  induction xs generalizing fields with
  | nil =>
      rw [List.mapM_nil] at hfields
      rw [← Option.some.inj hfields]
      rfl
  | cons x xs ih =>
      rw [List.mapM_cons] at hfields
      obtain ⟨field, hfield, hrest⟩ := Option.bind_eq_some_iff.mp hfields
      obtain ⟨rest, hmore, heq⟩ := Option.bind_eq_some_iff.mp hrest
      rw [← Option.some.inj heq, List.map_cons, readMember_eq_some hfield,
        ih hmore]

theorem eq_strs_of_mapM {xs : List Value} {keep : Text → Bool} {texts : List Text}
    (h : (xs.mapM fun x => (readText x).filter keep) = some texts) : xs = texts.map .str := by
  induction xs generalizing texts with
  | nil =>
      rw [List.mapM_nil] at h
      rw [← Option.some.inj h]
      rfl
  | cons x xs ih =>
      rw [List.mapM_cons] at h
      obtain ⟨t, ht, hrest⟩ := Option.bind_eq_some_iff.mp h
      obtain ⟨rest, hmore, heq⟩ := Option.bind_eq_some_iff.mp hrest
      have hx : x = .str t := by
        obtain ⟨hread, -⟩ := Option.filter_eq_some_iff.mp ht
        cases x with
        | str s => rw [← Option.some.inj hread]
        | _ => cases hread
      rw [← Option.some.inj heq, List.map_cons, hx, ih hmore]

/-! ## Claims -/

/-- The fields an `ERP_FACT` claim keeps. -/
def claimKeys : List String := ["claim_id", "ordinal", "claim_type", "text", "citation_refs"]

def keptFields (raw : Dict) : Dict :=
  claimKeys.flatMap fun key => Dict.optional (Text.ofString key) (Dict.get? raw key)

theorem get?_flatMap_optional (keys : List String) (raw : Dict) (key : String) :
    Dict.get? (keys.flatMap fun key => Dict.optional (Text.ofString key) (Dict.get? raw key))
      (Text.ofString key) = if key ∈ keys then Dict.get? raw (Text.ofString key) else none := by
  induction keys with
  | nil => rfl
  | cons k keys ih =>
      rw [List.flatMap_cons, Dict.get?_append, ih]
      by_cases hk : k = key
      · rw [hk, Dict.get?_optional_self, if_pos List.mem_cons_self]
        cases Dict.get? raw (Text.ofString key) with
        | none => simp
        | some v => rfl
      · rw [Dict.get?_optional_of_ne _ (by rwa [ne_eq, Text.ofString_inj]), Option.none_or]
        simp [Ne.symm hk]

theorem get?_keptFields (raw : Dict) {key : String} (hkey : key ∈ claimKeys) :
    Dict.get? (keptFields raw) (Text.ofString key) = Dict.get? raw (Text.ofString key) := by
  rw [keptFields, get?_flatMap_optional, if_pos hkey]

theorem mem_keys_optional {key k : Text} {v : Option Value} (h : k ∈ Dict.keys (Dict.optional key v)) :
    k = key := by
  cases v with
  | none => simp at h
  | some v => simpa using h

theorem onlyFields_keptFields (raw : Dict) : onlyFields (keptFields raw) claimKeys = true := by
  rw [onlyFields, List.all_eq_true]
  intro k hk
  rw [Dict.keys, List.mem_map] at hk
  obtain ⟨entry, hentry, rfl⟩ := hk
  obtain ⟨key, hkey, hmem⟩ := List.mem_flatMap.mp hentry
  have hk := mem_keys_optional (List.mem_map_of_mem (f := Prod.fst) hmem)
  rw [hk, List.contains_iff_mem]
  exact List.mem_map_of_mem hkey

theorem setDefault_of_get? {d : Dict} {key : String} {v w : Value}
    (h : Dict.get? d (Text.ofString key) = some v) : setDefault d key w = d := by
  rw [setDefault, if_pos]
  by_contra hmem
  rw [Dict.get?_eq_none_iff.mpr hmem] at h
  cases h

theorem get?_setDefault_of_ne (d : Dict) {k key : String} (v : Value) (h : k ≠ key) :
    Dict.get? (setDefault d k v) (Text.ofString key) = Dict.get? d (Text.ofString key) := by
  rw [setDefault]
  split_ifs
  · rfl
  · have hne : Text.ofString k ≠ Text.ofString key := by rwa [ne_eq, Text.ofString_inj]
    rw [Dict.get?_append, Dict.get?_cons, if_neg hne]
    simp

/-- The citations a claim refers to are kept. -/
theorem item_rewriteClaim_citationRefs (ordinal : ℕ) (raw : Dict) :
    item (rewriteClaim ordinal raw) "citation_refs" = item raw "citation_refs" := by
  have hkept := @get?_keptFields raw "citation_refs" (by decide)
  rw [keptFields, claimKeys] at hkept
  rw [item, rewriteClaim, get?_setDefault_of_ne _ _ (by decide),
    get?_setDefault_of_ne _ _ (by decide), get?_setDefault_of_ne _ _ (by decide), hkept, item]

/-- A claim that has the fields it needs only loses those it may not have. -/
theorem rewriteClaim_of_fields {ordinal : ℕ} {raw : Dict} {claimId number text : Value}
    (hid : Dict.get? raw (Text.ofString "claim_id") = some claimId)
    (hnumber : Dict.get? raw (Text.ofString "ordinal") = some number)
    (htext : Dict.get? raw (Text.ofString "text") = some text) :
    rewriteClaim ordinal raw = keptFields raw := by
  rw [← get?_keptFields raw (by decide)] at hid hnumber htext
  have heq : rewriteClaim ordinal raw = setDefault (setDefault (setDefault (keptFields raw)
    "claim_id" (.str (Text.ofString "claim-" ++ Json.intText ordinal))) "ordinal" (.int ordinal))
      "text" (.ofString "server-bound ERP fact") := rfl
  rw [heq, setDefault_of_get? hid, setDefault_of_get? hnumber, setDefault_of_get? htext]

theorem readClaim_eq_some {v : Value} {claim : Claim} (h : readClaim v = some claim) :
    ∃ raw, v = .dict raw ∧ (∃ claimId number text,
      Dict.get? raw (Text.ofString "claim_id") = some claimId ∧
      Dict.get? raw (Text.ofString "ordinal") = some number ∧
      Dict.get? raw (Text.ofString "text") = some text) ∧
      ((Dict.get? raw (Text.ofString "citation_refs") = none ∧ claim.citationRefs = []) ∨
        Dict.get? raw (Text.ofString "citation_refs") =
          some (.list (claim.citationRefs.map .str))) := by
  cases v with
  | dict raw =>
      refine ⟨raw, rfl, ?_⟩
      rw [readClaim] at h
      obtain ⟨-, -, h⟩ := Option.bind_eq_some_iff.mp h
      obtain ⟨claimId, hid, h⟩ := Option.bind_eq_some_iff.mp h
      obtain ⟨number, hnumber, h⟩ := Option.bind_eq_some_iff.mp h
      obtain ⟨claimType, -, h⟩ := Option.bind_eq_some_iff.mp h
      obtain ⟨text, htext, h⟩ := Option.bind_eq_some_iff.mp h
      obtain ⟨refs, hrefs, h⟩ := Option.bind_eq_some_iff.mp h
      rw [Option.ite_none_right_eq_some] at h
      obtain ⟨-, hclaim⟩ := h
      obtain ⟨v, hv, -⟩ := requiredField_eq_some.mp hid
      obtain ⟨w, hw, -⟩ := requiredField_eq_some.mp hnumber
      obtain ⟨x, hx, -⟩ := requiredField_eq_some.mp htext
      refine ⟨⟨v, w, x, hv, hw, hx⟩, ?_⟩
      rw [← Option.some.inj hclaim]
      rcases defaultField_eq_some hrefs with hnone | ⟨value, hvalue, hread⟩
      · exact .inl hnone
      · refine .inr (hvalue.trans ?_)
        obtain ⟨xs, hxs, hread⟩ := Option.bind_eq_some_iff.mp hread
        have hlist : value = .list xs := by
          cases value with
          | list ys => rw [← Option.some.inj hxs]
          | _ => cases hxs
        rw [Option.ite_none_right_eq_some] at hread
        rw [hlist]
        exact congrArg (fun ys => some (Value.list ys)) (eq_strs_of_mapM hread.2)
  | _ => cases h

/-- What a claim reads as is what its fields read as. -/
theorem readClaim_keptFields {raw : Dict} {claim : Claim}
    (h : readClaim (.dict raw) = some claim) : readClaim (.dict (keptFields raw)) = some claim := by
  have hget : ∀ key ∈ claimKeys, Dict.get? (keptFields raw) (Text.ofString key) =
      Dict.get? raw (Text.ofString key) := fun key hkey => get?_keptFields raw hkey
  have hid := hget "claim_id" (by decide)
  have hnumber := hget "ordinal" (by decide)
  have htype := hget "claim_type" (by decide)
  have htext := hget "text" (by decide)
  have hrefs := hget "citation_refs" (by decide)
  rw [readClaim] at h ⊢
  obtain ⟨-, -, hrest⟩ := Option.bind_eq_some_iff.mp h
  have honly := onlyFields_keptFields raw
  rw [claimKeys] at honly
  simp only [honly, requiredField, defaultField, hid, hnumber, htype, htext, hrefs] at hrest ⊢
  exact hrest

theorem rewriteClaims_erpFact {d : Dict} (h : isErpFact (.dict d) = true) (ordinal : ℕ)
    (raws : List Value) (s : Selectors) :
    rewriteClaims ordinal (.dict d :: raws) s =
      (.dict (rewriteClaim ordinal d) :: (rewriteClaims (ordinal + 1) raws
        (selectFields d (rewriteClaim ordinal d) s)).1,
        (rewriteClaims (ordinal + 1) raws (selectFields d (rewriteClaim ordinal d) s)).2) := by
  rw [rewriteClaims]
  exact h

theorem rewriteClaims_other {v : Value} (h : isErpFact v = false) (ordinal : ℕ)
    (raws : List Value) (s : Selectors) :
    rewriteClaims ordinal (v :: raws) s =
      (v :: (rewriteClaims (ordinal + 1) raws s).1, (rewriteClaims (ordinal + 1) raws s).2) := by
  rw [rewriteClaims]
  intro d hv hfact
  rw [h] at hfact
  cases hfact

/-- Claims that read are read the same when they are rewritten, and refer to what they did. -/
theorem rewriteClaims_of_read {raws : List Value} {claims : List Claim} (ordinal : ℕ)
    (s : Selectors) (h : raws.mapM readClaim = some claims) :
    (rewriteClaims ordinal raws s).1.mapM readClaim = some claims ∧
      claimReferences (rewriteClaims ordinal raws s).1 = some (claims.flatMap Claim.citationRefs) := by
  have hreferences : ∀ {d : Dict} {claim : Claim} {more : List Value} {texts : List Text},
      ((Dict.get? d (Text.ofString "citation_refs") = none ∧ claim.citationRefs = []) ∨
        Dict.get? d (Text.ofString "citation_refs") =
          some (.list (claim.citationRefs.map .str))) →
      claimReferences more = some texts →
      claimReferences (.dict d :: more) = some (claim.citationRefs ++ texts) := by
    intro d claim more texts hrefs hmore
    have hstrings : ∀ texts : List Text, strings (texts.map .str) = texts := by
      intro texts
      induction texts with
      | nil => rfl
      | cons t texts ih => exact congrArg (t :: ·) ih
    rcases hrefs with ⟨hnone, hnil⟩ | hlist
    · simp [claimReferences, hnone, hnil, iterate, hmore, strings]
    · simp [claimReferences, hlist, iterate, hmore, hstrings]
  induction raws generalizing ordinal s claims with
  | nil =>
      rw [List.mapM_nil] at h
      rw [← Option.some.inj h]
      exact ⟨rfl, rfl⟩
  | cons raw raws ih =>
      rw [List.mapM_cons] at h
      obtain ⟨claim, hclaim, hrest⟩ := Option.bind_eq_some_iff.mp h
      obtain ⟨more, hmore, heq⟩ := Option.bind_eq_some_iff.mp hrest
      obtain rfl := Option.some.inj heq
      obtain ⟨d, rfl, ⟨claimId, number, text, hid, hnumber, htext⟩, hrefs⟩ :=
        readClaim_eq_some hclaim
      by_cases hfact : isErpFact (.dict d) = true
      · rw [rewriteClaims_erpFact hfact, rewriteClaim_of_fields hid hnumber htext]
        obtain ⟨hread, hreferred⟩ := ih (ordinal + 1) (selectFields d (keptFields d) s) hmore
        constructor
        · rw [List.mapM_cons, readClaim_keptFields hclaim, hread]
          rfl
        · refine hreferences ?_ hreferred
          rwa [← @get?_keptFields d "citation_refs" (by decide)] at hrefs
      · rw [rewriteClaims_other (by simpa using hfact)]
        obtain ⟨hread, hreferred⟩ := ih (ordinal + 1) s hmore
        constructor
        · rw [List.mapM_cons, hclaim, hread]
          rfl
        · exact hreferences hrefs hreferred

/-! ## Citations -/

/-- Whether a live citation or its selector was read, and the fields it selects. -/
def Citation.selection : Citation → Option (List LiveFactField)
  | .live c => some c.factFields
  | .selector _ fields => some fields
  | _ => none

theorem readLive_eq_some {d : Dict} {citation : Citation} (h : readLive d = some citation) :
    ∃ fields, citation.selection = some fields ∧
      Dict.get? d (Text.ofString "citation_id") = some (.str citation.citationId) ∧
      Dict.get? d (Text.ofString "fact_fields") =
        some (.list (fields.map fun field => .str field.text)) := by
  simp only [readLive, Option.bind_eq_bind, Option.bind_eq_some_iff] at h
  obtain ⟨_, -, id, hid, _, -, _, -, _, -, _, -, _, -, _, -, _, -, _, -, fields, hfields, _, -, h⟩ :=
    h
  obtain rfl := Option.some.inj h
  obtain ⟨v, hv, hread⟩ := requiredField_eq_some.mp hid
  obtain ⟨w, hw, hread'⟩ := requiredField_eq_some.mp hfields
  refine ⟨fields, rfl, ?_, hw.trans (congrArg some (readFactFields_eq_some hread'))⟩
  rw [hv]
  cases v with
  | str t => rw [← Option.some.inj hread]; rfl
  | _ => cases hread

theorem readSelector_eq_some {d : Dict} {citation : Citation} (h : readSelector d = some citation) :
    ∃ fields, citation.selection = some fields ∧
      Dict.get? d (Text.ofString "citation_id") = some (.str citation.citationId) ∧
      Dict.get? d (Text.ofString "fact_fields") =
        some (.list (fields.map fun field => .str field.text)) := by
  simp only [readSelector, Option.bind_eq_bind, Option.bind_eq_some_iff] at h
  obtain ⟨_, -, id, hid, fields, hfields, h⟩ := h
  obtain rfl := Option.some.inj h
  obtain ⟨v, hv, hread⟩ := requiredField_eq_some.mp hid
  obtain ⟨w, hw, hread'⟩ := requiredField_eq_some.mp hfields
  refine ⟨fields, rfl, ?_, hw.trans (congrArg some (readFactFields_eq_some hread'))⟩
  rw [hv]
  cases v with
  | str t => rw [← Option.some.inj hread]; rfl
  | _ => cases hread

theorem isLiteral_of_item {d : Dict} {key literal other : String} (h : isLiteral d key literal = true)
    (hitem : item d key = .ofString other) : literal = other := by
  rw [item] at hitem
  rw [isLiteral] at h
  cases hget : Dict.get? d (Text.ofString key) with
  | none =>
      rw [hget] at hitem
      cases hitem
  | some v =>
      rw [hget, Option.getD_some] at hitem
      rw [hget, Option.elim_some, decide_eq_true_eq, hitem] at h
      exact ((Text.ofString_inj _ _).mp (Value.str.inj h)).symm

/-- What reads as a citation and says it is a live one has an id and selects fields. -/
theorem readCitation_eq_some {d : Dict} {citation : Citation}
    (h : readCitation (.dict d) = some citation) :
    (∃ fields, citation.selection = some fields ∧
      Dict.get? d (Text.ofString "citation_id") = some (.str citation.citationId) ∧
      Dict.get? d (Text.ofString "fact_fields") =
        some (.list (fields.map fun field => .str field.text))) ∨
      (citation.selection = none ∧ item d "citation_type" ≠ .ofString "LIVE_ERP") := by
  rw [readCitation] at h
  obtain ⟨read, hmem, hfilter⟩ := List.exists_of_findSome?_eq_some h
  obtain ⟨hread, -⟩ := Option.filter_eq_some_iff.mp hfilter
  clear hfilter
  simp only [List.mem_cons, List.not_mem_nil, or_false] at hmem
  rcases hmem with rfl | rfl | rfl | rfl
  · exact .inl (readLive_eq_some hread)
  · exact .inl (readSelector_eq_some hread)
  · right
    simp only [readRetrieval, Option.bind_eq_bind, Option.bind_eq_some_iff] at hread
    obtain ⟨_, hguard, _, -, _, -, _, -, _, -, _, -, _, -, _, -, _, -, hread⟩ := hread
    obtain rfl := Option.some.inj hread
    rw [Option.guard_eq_some', Bool.and_eq_true] at hguard
    exact ⟨rfl, fun hitem => absurd (isLiteral_of_item hguard.2 hitem) (by decide)⟩
  · right
    simp only [readMemory, Option.bind_eq_bind, Option.bind_eq_some_iff] at hread
    obtain ⟨_, hguard, _, -, _, -, _, -, _, -, _, -, _, -, hread⟩ := hread
    obtain rfl := Option.some.inj hread
    rw [Option.guard_eq_some', Bool.and_eq_true] at hguard
    exact ⟨rfl, fun hitem => absurd (isLiteral_of_item hguard.2 hitem) (by decide)⟩

/-- A citation that reads is not rewritten. -/
theorem rewriteCitation_of_read {v : Value} {citation : Citation}
    (h : readCitation v = some citation) (s : Selectors) : rewriteCitation s v = v := by
  cases v with
  | dict d =>
      rw [rewriteCitation]
      rcases readCitation_eq_some h with ⟨fields, -, hid, hfields⟩ | ⟨-, htype⟩
      · have hmem : Text.ofString "fact_fields" ∈ Dict.keys d := by
          by_contra hnot
          rw [Dict.get?_eq_none_iff.mpr hnot] at hfields
          cases hfields
        simp only [item_of_get? hid, hmem, if_true, item_of_get? hfields]
        split_ifs <;> rfl
      · rw [if_neg htype]
  | _ => rfl

/-! ## An output is kept -/

def readClaims (v : Value) : Option (List Claim) := (readList v).bind fun xs => xs.mapM readClaim

def readCitations (v : Value) : Option (List Citation) :=
  (readList v).bind fun xs => xs.mapM readCitation

/-- The fields of an output that is read. -/
theorem readOutput_eq_some {d : Dict} {o : ProviderOutput} :
    readOutput d = some o ↔ ∃ answerStatus answer claims citations refusalReason,
      (onlyFields d ["schema_version", "answer_status", "answer", "claims", "citations",
        "refusal_reason"] = true ∧ isLiteral d "schema_version" "1" = true) ∧
      requiredField d "answer_status" (readMember AnswerStatus.text AnswerStatus.all) =
        some answerStatus ∧
      defaultField d "answer" [] readText = some answer ∧
      defaultField d "claims" [] readClaims = some claims ∧
      defaultField d "citations" [] readCitations = some citations ∧
      defaultField d "refusal_reason" none readOptionalText = some refusalReason ∧
      ProviderOutput.finish ⟨answerStatus, answer, claims, citations, refusalReason⟩ = some o := by
  rw [readOutput]
  simp only [Option.bind_eq_bind, Option.bind_eq_some_iff, Option.guard_eq_some', Bool.and_eq_true]
  constructor
  · rintro ⟨_, hguard, status, hstatus, answer, hanswer, claims, hclaims, citations, hcitations,
      reason, hreason, hfinish⟩
    exact ⟨status, answer, claims, citations, reason, hguard, hstatus, hanswer, hclaims,
      hcitations, hreason, hfinish⟩
  · rintro ⟨status, answer, claims, citations, reason, hguard, hstatus, hanswer, hclaims,
      hcitations, hreason, hfinish⟩
    exact ⟨(), hguard, status, hstatus, answer, hanswer, claims, hclaims, citations, hcitations,
      reason, hreason, hfinish⟩

theorem onlyFields_set {d : Dict} {fields : List String} (h : onlyFields d fields = true)
    {key : String} (hkey : key ∈ fields) (v : Value) :
    onlyFields (Dict.set d (Text.ofString key) v) fields = true := by
  rw [onlyFields, List.all_eq_true] at h ⊢
  intro k hk
  rcases Dict.mem_keys_set.mp hk with rfl | hk
  · exact List.contains_iff_mem.mpr (List.mem_map_of_mem hkey)
  · exact h k hk

theorem get?_set_of_ne (d : Dict) {k key : String} (v : Value) (h : k ≠ key) :
    Dict.get? (Dict.set d (Text.ofString k) v) (Text.ofString key) =
      Dict.get? d (Text.ofString key) := by
  rw [Dict.get?_set, if_neg (by rwa [Text.ofString_inj])]

theorem get?_set_self (d : Dict) (key : String) (v : Value) :
    Dict.get? (Dict.set d (Text.ofString key) v) (Text.ofString key) = some v := by
  rw [Dict.get?_set, if_pos rfl]

/-- The status and the reason of an output are not rewritten. -/
theorem rewriteStatus_of_read {d : Dict} {o : ProviderOutput} (h : readOutput d = some o) :
    rewriteStatus d = some d := by
  obtain ⟨status, answer, claims, citations, reason, -, hstatus, -, -, -, hreason, hfinish⟩ :=
    readOutput_eq_some.mp h
  have hsuccess : item d "answer_status" ≠ .ofString "SUCCESS" := by
    obtain ⟨v, hv, hread⟩ := requiredField_eq_some.mp hstatus
    rw [item_of_get? hv, readMember_eq_some hread]
    cases status <;> decide
  have hempty : item d "refusal_reason" ≠ .ofString "" := by
    intro hitem
    rcases defaultField_eq_some hreason with ⟨hnone, -⟩ | ⟨v, hv, hread⟩
    · rw [item, hnone] at hitem
      cases hitem
    · rw [item_of_get? hv] at hitem
      rw [hitem] at hread
      obtain rfl := Option.some.inj hread
      rw [ProviderOutput.finish, Option.ite_none_right_eq_some] at hfinish
      simp [Text.isBlank, Text.ofString_eq] at hfinish
  rw [rewriteStatus]
  simp only [if_neg hsuccess, if_neg hempty]

/-- The claims rewritten, and what they select. -/
def claimStage (d : Dict) : Dict × Selectors :=
  match item d "claims" with
  | .list raws => (Dict.set d "claims" (.list (rewriteClaims 1 raws {}).1), (rewriteClaims 1 raws {}).2)
  | _ => (d, {})

/-- The citations rewritten. -/
def citationStage (d : Dict) (s : Selectors) : Value → Option Dict
  | .list raws =>
      (rewriteCitations (item d "claims") s raws).map fun citations =>
        Dict.set d "citations" (.list citations)
  | _ => some d

theorem normalize_eq (value : Dict) :
    normalizeProviderCompatibility value = (rewriteStatus value).bind fun d =>
      (citationList ((Dict.get? (claimStage d).1 "citations").getD (.list []))).bind
        (citationStage (claimStage d).1 (claimStage d).2) := by
  rw [normalizeProviderCompatibility]
  cases rewriteStatus value with
  | none => rfl
  | some d =>
      simp only [Option.bind_eq_bind, Option.bind_some, claimStage]
      have hlist : ∀ (e : Dict) (s : Selectors) (v : Option Value), (v.bind fun v =>
          match v with
          | .list raws => (rewriteCitations (item e "claims") s raws).bind fun citations =>
              some (Dict.set e "citations" (.list citations))
          | _ => some e) = v.bind (citationStage e s) := by
        intro e s v
        cases v with
        | none => rfl
        | some v =>
            cases v with
            | list raws => exact (Option.map_eq_bind (x := rewriteCitations _ s raws)).symm
            | _ => rfl
      cases item d "claims" with
      | list raws => exact hlist _ _ _
      | _ => exact hlist d {} _

theorem claimStage_list {d : Dict} {raws : List Value} (h : item d "claims" = .list raws) :
    claimStage d = (Dict.set d "claims" (.list (rewriteClaims 1 raws {}).1),
      (rewriteClaims 1 raws {}).2) := by
  rw [claimStage, h]

theorem claimStage_none {d : Dict} (h : item d "claims" = .none) : claimStage d = (d, {}) := by
  rw [claimStage, h]

/-- The claims of an output read the same when they are rewritten, and nothing else changes. -/
theorem claimStage_of_read {d : Dict} {claims : List Claim}
    (h : defaultField d "claims" [] readClaims = some claims) :
    defaultField (claimStage d).1 "claims" [] readClaims = some claims ∧
      (∃ list, claimReferences list = some (claims.flatMap Claim.citationRefs) ∧
        (item (claimStage d).1 "claims" = .list list ∨
          item (claimStage d).1 "claims" = .none ∧ list = [])) ∧
      (∀ key, "claims" ≠ key → Dict.get? (claimStage d).1 (Text.ofString key) =
        Dict.get? d (Text.ofString key)) ∧
      ∀ fields, "claims" ∈ fields → onlyFields d fields = true →
        onlyFields (claimStage d).1 fields = true := by
  rcases defaultField_eq_some h with ⟨hnone, rfl⟩ | ⟨v, hv, hread⟩
  · have hitem : item d "claims" = .none := by rw [item, hnone]; rfl
    rw [claimStage_none hitem]
    exact ⟨h, ⟨[], rfl, .inr ⟨hitem, rfl⟩⟩, fun _ _ => rfl, fun _ _ honly => honly⟩
  · obtain ⟨xs, hxs, hmap⟩ := Option.bind_eq_some_iff.mp hread
    have hlist : v = .list xs := by
      cases v with
      | list ys => rw [← Option.some.inj hxs]
      | _ => cases hxs
    rw [hlist] at hv
    obtain ⟨hrewritten, hreferences⟩ := rewriteClaims_of_read 1 {} hmap
    rw [claimStage_list (item_of_get? hv)]
    refine ⟨?_, ⟨_, hreferences, .inl ?_⟩, fun key hkey => get?_set_of_ne d _ hkey,
      fun fields hmem honly => onlyFields_set honly hmem _⟩
    · rw [defaultField, get?_set_self]
      exact hrewritten
    · rw [item, get?_set_self, Option.getD_some]

/-- An output without citations refers to none. -/
theorem flatMap_citationRefs_eq_nil {o : ProviderOutput} (h : o.graphValid = true)
    (hnone : o.citations = []) : o.claims.flatMap Claim.citationRefs = [] := by
  simp only [ProviderOutput.graphValid, Bool.and_eq_true, List.all_eq_true] at h
  obtain ⟨⟨⟨-, hcites⟩, -⟩, -⟩ := h
  rw [List.flatMap_eq_nil_iff]
  intro claim hclaim
  refine List.eq_nil_iff_forall_not_mem.mpr ?_
  intro reference href
  have hproper := hcites claim hclaim reference href
  simp [ProviderOutput.citesProperly, ProviderOutput.citation?, hnone] at hproper

theorem map_rewriteCitation_of_read {raws : List Value} {citations : List Citation}
    (h : raws.mapM readCitation = some citations) (s : Selectors) :
    raws.map (rewriteCitation s) = raws := by
  have hall := forall₂_of_mapM_eq_some h
  clear h
  induction hall with
  | nil => rfl
  | cons hread _ ih => rw [List.map_cons, rewriteCitation_of_read hread, ih]

def claimList : Value → List Value
  | .list claims => claims
  | _ => []

/-- Whether the citations are made up from what the claims select. -/
def Shelled (s : Selectors) (claims : List Value) (references : List Text) (raws : List Value) :
    Prop :=
  raws = [] ∧ claims ≠ [] ∧ claims.all isErpFact = true ∧ references ≠ [] ∧
    sortedSet references = sortedSet (s.byCitation.map Prod.fst) ∧
      ∀ reference ∈ references, reference ∉ s.conflicts

theorem rewriteCitations_eq_some {claims : Value} {s : Selectors} {raws citations : List Value} :
    rewriteCitations claims s raws = some citations ↔
      ∃ references, claimReferences (claimList claims) = some references ∧
        ((Shelled s (claimList claims) references raws ∧
          citations = (sortedSet references).map (selectorShell s)) ∨
        (¬Shelled s (claimList claims) references raws ∧
          citations = raws.map (rewriteCitation s))) := by
  have hcondition : ∀ references, ((raws.map (rewriteCitation s)).isEmpty &&
      !(claimList claims).isEmpty && (claimList claims).all isErpFact && !references.isEmpty &&
      decide (sortedSet references = sortedSet (s.byCitation.map Prod.fst)) &&
      references.all (fun reference => !s.conflicts.contains reference)) = true ↔
        Shelled s (claimList claims) references raws := by
    intro references
    simp [Shelled, and_assoc]
  have heq : rewriteCitations claims s raws =
      (claimReferences (claimList claims)).bind fun references =>
        if ((raws.map (rewriteCitation s)).isEmpty &&
            !(claimList claims).isEmpty && (claimList claims).all isErpFact &&
            !references.isEmpty &&
            decide (sortedSet references = sortedSet (s.byCitation.map Prod.fst)) &&
            references.all (fun reference => !s.conflicts.contains reference)) = true
        then some ((sortedSet references).map (selectorShell s))
        else some (raws.map (rewriteCitation s)) := by
    cases claims <;> rfl
  rw [heq, Option.bind_eq_some_iff]
  refine exists_congr fun references => and_congr_right fun _ => ?_
  by_cases hshelled : Shelled s (claimList claims) references raws
  · rw [if_pos ((hcondition references).mpr hshelled)]
    simp [hshelled, eq_comm]
  · rw [if_neg (mt (hcondition references).mp hshelled)]
    simp [hshelled, eq_comm]

/-- Citations that read stay as they are; none are made up when no claim refers to one. -/
theorem rewriteCitations_of_read {claims : Value} {list raws : List Value} {references : List Text}
    {citations : List Citation} (s : Selectors) (hreferences : claimReferences list = some references)
    (hclaims : claims = .list list ∨ claims = .none ∧ list = [])
    (hread : raws.mapM readCitation = some citations) (hnone : citations = [] → references = []) :
    rewriteCitations claims s raws = some raws := by
  have hlist : claimList claims = list := by
    rcases hclaims with rfl | ⟨rfl, rfl⟩
    · rfl
    · rfl
  rw [rewriteCitations_eq_some, hlist]
  refine ⟨references, hreferences, .inr ⟨?_, (map_rewriteCitation_of_read hread s).symm⟩⟩
  rintro ⟨hempty, -, -, hreferred, -⟩
  rw [hempty, List.mapM_nil] at hread
  exact hreferred (hnone (Option.some.inj hread).symm)

/-- An object that reads as an output reads as the same output when it is rewritten. -/
theorem normalize_of_read {d : Dict} {o : ProviderOutput} (h : readOutput d = some o) :
    ∃ e, normalizeProviderCompatibility d = some e ∧ readCurrent e = some o := by
  obtain ⟨status, answer, claims, citations, reason, ⟨honly, hversion⟩, hstatus, hanswer, hclaims,
    hcitations, hreason, hfinish⟩ := readOutput_eq_some.mp h
  obtain ⟨hclaims', ⟨list, hreferences, hlist⟩, hget, honly'⟩ := claimStage_of_read hclaims
  obtain ⟨ho, hgraph⟩ := ProviderOutput.finish_eq_some hfinish
  have hnone : citations = [] → claims.flatMap Claim.citationRefs = [] := by
    intro hnil
    have hrefs := flatMap_citationRefs_eq_nil hgraph (by rw [ho]; exact hnil)
    rw [ho] at hrefs
    exact hrefs
  -- what is taken for the citations reads as they do
  have hraws : ∃ raws, (Dict.get? d (Text.ofString "citations")).getD (.list []) = .list raws ∧
      raws.mapM readCitation = some citations := by
    rcases defaultField_eq_some hcitations with ⟨hget, rfl⟩ | ⟨v, hv, hread⟩
    · exact ⟨[], by rw [hget]; rfl, rfl⟩
    · obtain ⟨xs, hxs, hmap⟩ := Option.bind_eq_some_iff.mp hread
      have hv' : v = .list xs := by
        cases v with
        | list ys => rw [← Option.some.inj hxs]
        | _ => cases hxs
      exact ⟨xs, by rw [hv, hv']; rfl, hmap⟩
  obtain ⟨raws, hraws, hread⟩ := hraws
  have hstage := rewriteCitations_of_read (claimStage d).2 hreferences hlist hread hnone
  refine ⟨Dict.set (claimStage d).1 "citations" (.list raws), ?_, ?_⟩
  · rw [normalize_eq, rewriteStatus_of_read h, Option.bind_some, hget "citations" (by decide),
      hraws]
    have hlist : citationList (.list raws) = some (.list raws) := rfl
    rw [hlist, Option.bind_some, citationStage, hstage]
    rfl
  · have hsame : ∀ key, "claims" ≠ key → "citations" ≠ key →
        Dict.get? (Dict.set (claimStage d).1 "citations" (.list raws)) (Text.ofString key) =
          Dict.get? d (Text.ofString key) := by
      intro key hkey hkey'
      rw [get?_set_of_ne _ _ hkey', hget key hkey]
    have hversionSame := hsame "schema_version" (by decide) (by decide)
    have hstatusSame := hsame "answer_status" (by decide) (by decide)
    have hanswerSame := hsame "answer" (by decide) (by decide)
    have hreasonSame := hsame "refusal_reason" (by decide) (by decide)
    have hclaimsSame := get?_set_of_ne (claimStage d).1 (k := "citations") (.list raws)
      (show "citations" ≠ "claims" by decide)
    have hself := get?_set_self (claimStage d).1 "citations" (.list raws)
    have honlySet := onlyFields_set (honly' _ (by decide) honly)
      (show "citations" ∈ _ by decide) (.list raws)
    generalize Dict.set (claimStage d).1 (Text.ofString "citations") (.list raws) = e at *
    have hcurrent : item e "schema_version" ≠ .ofString "1.0" := by
      rw [item, hversionSame]
      exact fun hitem => absurd (isLiteral_of_item hversion hitem) (by decide)
    rw [readCurrent, if_neg hcurrent]
    refine readOutput_eq_some.mpr ⟨status, answer, claims, citations, reason, ⟨honlySet, ?_⟩, ?_,
      ?_, ?_, ?_, ?_, hfinish⟩
    · rw [isLiteral, hversionSame]
      exact hversion
    · rw [requiredField, hstatusSame]
      exact hstatus
    · rw [defaultField, hanswerSame]
      exact hanswer
    · rw [defaultField, hclaimsSame]
      exact hclaims'
    · rw [defaultField, hself]
      exact hread
    · rw [defaultField, hreasonSame]
      exact hreason

end Coach
