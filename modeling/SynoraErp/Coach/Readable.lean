import SynoraErp.Coach.Evidence
import SynoraErp.Python.Except
import SynoraErp.Python.KeyOrder
import SynoraErp.Python.Model

/-!
# A stored answer is read back

Every reader takes a value apart into what it holds and depends on the fields alone, not on
their order. So what was read once is stored in key order and read again as the same, and the
row of an answer that was checked gives back the answer.
-/

namespace Coach.Authority

open Python
open Governance (Uuid item strictHooks strictHooks_keepDistinct)

/-! ## Values -/

section

variable {maximum : ℕ} {value : Value} {t : Text}

theorem text_eq_some :
    text maximum value = some t ↔
      value = .str t ∧ Text.isBlank t = false ∧ t.length ≤ maximum := by
  cases value with
  | str s =>
      rw [text, Option.ite_none_left_eq_some, not_or, Option.some.injEq, Value.str.injEq,
        Bool.not_eq_true, Nat.not_lt]
      constructor
      · intro h
        exact ⟨h.2, h.2 ▸ h.1⟩
      · intro h
        exact ⟨h.1 ▸ h.2, h.1⟩
  | _ => simp [text]

theorem eq_of_text (h : text maximum value = some t) : value = .str t :=
  (text_eq_some.mp h).1

theorem eq_of_digest (h : digest value = some t) : value = .str t :=
  eq_of_text (Option.filter_eq_some_iff.mp h).1

theorem eq_of_identifier (h : identifier value = some t) : value = .str t :=
  eq_of_text (Option.filter_eq_some_iff.mp h).1

theorem eq_of_uuidText (h : uuidText value = some t) : value = .str t := by
  cases value with
  | str s =>
      rw [uuidText, Option.map_eq_some_iff] at h
      obtain ⟨-, -, rfl⟩ := h
      rfl
  | _ => cases h

theorem eq_of_optionalMetadata {r : Option Text} (h : optionalMetadata value = some r) :
    value = optionalText r := by
  cases value with
  | none =>
      rw [optionalMetadata, Option.some.injEq] at h
      rw [← h]
      rfl
  | str s =>
      obtain ⟨t, ht, rfl⟩ := Option.map_eq_some_iff.mp h
      exact eq_of_text ht
  | _ => simp [optionalMetadata, text] at h

theorem boundedInt_eq_some {low high n : ℤ} :
    boundedInt low high value = some n ↔ value = .int n ∧ low ≤ n ∧ n ≤ high := by
  cases value with
  | int m =>
      rw [boundedInt, Option.ite_none_right_eq_some, Option.some.injEq, Value.int.injEq]
      constructor
      · intro h
        exact ⟨h.2, h.2 ▸ h.1⟩
      · intro h
        exact ⟨h.1 ▸ h.2, h.1⟩
  | _ => simp [boundedInt]

theorem eq_of_listOf {α : Type} {read : Value → Option α} {write : α → Value} {items : List α}
    (hread : ∀ v a, read v = some a → v = write a) (h : listOf read maximum value = some items) :
    value = .list (items.map write) := by
  cases value with
  | list values =>
      rw [listOf, Option.ite_none_left_eq_some] at h
      have hall := forall₂_of_mapM_eq_some h.2
      have hvalues : values = items.map write := by
        clear h
        induction hall with
        | nil => rfl
        | cons hhead _ ih => rw [List.map_cons, hread _ _ hhead, ih]
      rw [hvalues]
  | _ => cases h

theorem eq_of_documentType {doctype : DocumentType} (h : documentType value = some doctype) :
    value = .str doctype.text := by
  cases value with
  | str s =>
      have hs := List.find?_some h
      rw [of_decide_eq_true hs]
  | _ => cases h

theorem eq_of_factFields {doctype : DocumentType} {fields : List LiveFactField}
    (h : factFields doctype value = some fields) :
    value = .list (fields.map fun field => .str field.text) := by
  have hread : ∀ v field, factField doctype v = some field → v = .str field.text := by
    intro v field hfield
    cases v with
    | str s =>
        have hs := List.find?_some hfield
        rw [of_decide_eq_true hs]
    | _ => cases hfield
  exact eq_of_listOf hread (Option.filter_eq_some_iff.mp h).1

theorem eq_of_claimType {type : ClaimType} (h : claimType value = some type) :
    value = .str type.text := by
  cases value with
  | str s =>
      have hs := List.find?_some h
      rw [of_decide_eq_true hs]
  | _ => cases h

end

theorem guard_bind_eq_some {α : Type} {p : Prop} [Decidable p] {f : Unit → Option α} {a : α} :
    ((guard p : Option Unit) >>= f) = some a ↔ p ∧ f () = some a := by
  by_cases h : p
  · simp [guard, h]
  · simp [guard, h]

/-! ## Mappings -/

/-- A mapping of just these fields. -/
def Covers (fields : List String) (d : Dict) : Prop :=
  (∀ key ∈ Dict.keys d, key ∈ fields.map Text.ofString) ∧
    ∀ key ∈ fields, Text.ofString key ∈ Dict.keys d

theorem strictMapping_eq_some {fields : List String} {value : Value} {d : Dict} :
    strictMapping fields value = some d ↔ value = .dict d ∧ Covers fields d := by
  cases value with
  | dict e =>
      rw [strictMapping, Option.ite_none_right_eq_some, Option.some.injEq, Value.dict.injEq]
      constructor
      · intro h
        exact ⟨h.2, h.2 ▸ h.1⟩
      · intro h
        exact ⟨h.1 ▸ h.2, h.1⟩
  | _ => simp [strictMapping]

theorem nodup_map_ofString {fields : List String} (h : fields.Nodup) :
    (fields.map Text.ofString).Nodup := by
  apply h.map
  intro s t hst
  exact (Text.ofString_inj s t).mp hst

/-- The second mapping has the fields of the first, each with the same value, and nothing to sort
inside. -/
structure Restates (fields : List String) (d e : Dict) : Prop where
  covers : Covers fields d
  keys : Dict.keys e = fields.map Text.ofString
  distinct : fields.Nodup
  items : ∀ entry ∈ e, (Dict.get? d entry.1).getD .none = entry.2
  flat : ∀ entry ∈ e, Json.Flat entry.2
  plain : ∀ entry ∈ e, Json.Plain entry.2

namespace Restates

variable {fields : List String} {d e : Dict}

theorem nodup_keys (h : Restates fields d e) : (Dict.keys e).Nodup := by
  rw [h.keys]
  exact nodup_map_ofString h.distinct

theorem strictMapping (h : Restates fields d e) :
    strictMapping fields (Json.sortKeys (.dict e)) = some (Json.inOrder e) := by
  apply strictMapping_eq_some.mpr
  refine ⟨Json.sortKeys_dict_of_flat h.flat, ?_, ?_⟩
  · intro key hkey
    rw [Json.mem_keys_inOrder, h.keys] at hkey
    exact hkey
  · intro key hkey
    rw [Json.mem_keys_inOrder, h.keys]
    exact List.mem_map_of_mem hkey

/-- Looked up in key order, it is the first mapping. -/
theorem item_inOrder (h : Restates fields d e) : item (Json.inOrder e) = item d := by
  funext key
  rw [item, item, Json.get?_inOrder h.nodup_keys]
  cases hget : Dict.get? e (Text.ofString key) with
  | some v => exact (h.items _ (Dict.mem_of_get? hget)).symm
  | none =>
      rw [Dict.get?_eq_none_iff, h.keys] at hget
      rw [Dict.get?_eq_none_iff.mpr fun hkey => hget (h.covers.1 _ hkey)]

theorem plain_sortKeys (h : Restates fields d e) : Json.Plain (Json.sortKeys (.dict e)) :=
  Json.plain_sortKeys_dict h.nodup_keys h.flat h.plain

end Restates

/-! ## Claims, traces and usages -/

/-- A value that is stored as `stored` and read again as `a`. -/
structure ReadsBack {α : Type} (read : Value → Option α) (stored : Value) (a : α) : Prop where
  read : read (Json.sortKeys stored) = some a
  plain : Json.Plain (Json.sortKeys stored)

theorem restates_claim {d : Dict} {claim : Claim} (hcovers : Covers claimFields d)
    (h : outputClaim d = some claim) : ∃ e, claimValue claim = .dict e ∧ Restates claimFields d e := by
  simp only [outputClaim, Option.bind_eq_bind, Option.bind_eq_some_iff] at h
  obtain ⟨type, htype, refs, hrefs, -, -, id, hid, ordinal, hordinal, text, htext, hclaim⟩ := h
  obtain rfl := Option.some.inj hclaim
  have hordinal := boundedInt_eq_some.mp hordinal
  refine ⟨_, rfl, hcovers, rfl, by decide, ?_, ?_, ?_⟩
  · simp only [List.forall_mem_cons]
    exact ⟨eq_of_identifier hid, hordinal.1, eq_of_claimType htype, eq_of_text htext,
      eq_of_listOf (fun _ _ => eq_of_identifier) hrefs, by simp⟩
  · simp only [List.forall_mem_cons]
    exact ⟨rfl, rfl, rfl, rfl, Json.flat_texts _, by simp⟩
  · simp only [List.forall_mem_cons]
    exact ⟨Json.plain_str _, Json.plain_int (by omega) (by omega), Json.plain_str _,
      Json.plain_str _, Json.plain_texts _, by simp⟩

theorem readsBack_claim {value : Value} {claim : Claim} (h : coachOutputClaim value = some claim) :
    ReadsBack coachOutputClaim (claimValue claim) claim := by
  obtain ⟨d, hd, hread⟩ := Option.bind_eq_some_iff.mp h
  obtain ⟨e, he, hrestates⟩ := restates_claim (strictMapping_eq_some.mp hd).2 hread
  rw [he]
  refine ⟨?_, hrestates.plain_sortKeys⟩
  rw [coachOutputClaim, hrestates.strictMapping, Option.bind_some, ← hread]
  simp only [outputClaim, hrestates.item_inOrder]

theorem restates_trace {d : Dict} {trace : RetrievalTrace} (hcovers : Covers traceFields d)
    (h : outputTrace d = some trace) : ∃ e, traceValue trace = .dict e ∧ Restates traceFields d e := by
  simp only [outputTrace, Option.bind_eq_bind, Option.bind_eq_some_iff] at h
  obtain ⟨chunks, hchunks, contents, hcontents, revisions, hrevisions, facts, hfacts, tools, htools,
    fragments, hfragments, htrace⟩ := h
  obtain rfl := Option.some.inj htrace
  have htools : item d "provider_tools" = .list [] := by
    cases hvalue : item d "provider_tools" with
    | list values =>
        rw [hvalue, listOf, Option.ite_none_left_eq_some, Nat.not_lt, Nat.le_zero,
          List.length_eq_zero_iff] at htools
        rw [htools.1]
    | _ =>
        rw [hvalue] at htools
        cases htools
  refine ⟨_, rfl, hcovers, rfl, by decide, ?_, ?_, ?_⟩
  · simp only [List.forall_mem_cons]
    exact ⟨eq_of_listOf (fun _ _ => eq_of_digest) hchunks,
      eq_of_listOf (fun _ _ => eq_of_digest) hcontents,
      eq_of_listOf (fun _ _ => eq_of_text) hrevisions,
      eq_of_listOf (fun _ _ => eq_of_digest) hfacts, htools,
      eq_of_listOf (fun _ _ => eq_of_text) hfragments, by simp⟩
  · simp only [List.forall_mem_cons]
    exact ⟨Json.flat_texts _, Json.flat_texts _, Json.flat_texts _, Json.flat_texts _,
      Json.flat_texts [], Json.flat_texts _, by simp⟩
  · simp only [List.forall_mem_cons]
    exact ⟨Json.plain_texts _, Json.plain_texts _, Json.plain_texts _, Json.plain_texts _,
      Json.plain_texts [], Json.plain_texts _, by simp⟩

theorem readsBack_trace {value : Value} {trace : RetrievalTrace}
    (h : coachOutputTrace value = some trace) :
    ReadsBack coachOutputTrace (traceValue trace) trace := by
  obtain ⟨d, hd, hread⟩ := Option.bind_eq_some_iff.mp h
  obtain ⟨e, he, hrestates⟩ := restates_trace (strictMapping_eq_some.mp hd).2 hread
  rw [he]
  refine ⟨?_, hrestates.plain_sortKeys⟩
  rw [coachOutputTrace, hrestates.strictMapping, Option.bind_some, ← hread]
  simp only [outputTrace, hrestates.item_inOrder]

theorem restates_usage {d : Dict} {usage : TokenUsage} (hcovers : Covers usageFields d)
    (h : outputUsage d = some usage) : ∃ e, usageValue usage = .dict e ∧ Restates usageFields d e := by
  simp only [outputUsage, Option.bind_eq_bind, Option.bind_eq_some_iff] at h
  obtain ⟨prompt, hprompt, completion, hcompletion, reasoning, hreasoning, husage⟩ := h
  obtain rfl := Option.some.inj husage
  have hprompt := boundedInt_eq_some.mp hprompt
  have hcompletion := boundedInt_eq_some.mp hcompletion
  have hreasoning := boundedInt_eq_some.mp hreasoning
  refine ⟨_, rfl, hcovers, rfl, by decide, ?_, ?_, ?_⟩
  · simp only [List.forall_mem_cons]
    exact ⟨hprompt.1, hcompletion.1, hreasoning.1, by simp⟩
  · simp only [List.forall_mem_cons]
    exact ⟨rfl, rfl, rfl, by simp⟩
  · simp only [List.forall_mem_cons]
    exact ⟨Json.plain_int (by omega) (by omega), Json.plain_int (by omega) (by omega),
      Json.plain_int (by omega) (by omega), by simp⟩

theorem readsBack_usage {value : Value} {usage : TokenUsage}
    (h : coachOutputUsage value = some usage) :
    ReadsBack coachOutputUsage (usageValue usage) usage := by
  obtain ⟨d, hd, hread⟩ := Option.bind_eq_some_iff.mp h
  obtain ⟨e, he, hrestates⟩ := restates_usage (strictMapping_eq_some.mp hd).2 hread
  rw [he]
  refine ⟨?_, hrestates.plain_sortKeys⟩
  rw [coachOutputUsage, hrestates.strictMapping, Option.bind_some, ← hread]
  simp only [outputUsage, hrestates.item_inOrder]

/-! ## Citations -/

theorem flat_optionalText (t : Option Text) : Json.Flat (optionalText t) := by
  cases t with
  | none => rfl
  | some t => rfl

theorem plain_optionalText (t : Option Text) : Json.Plain (optionalText t) := by
  cases t with
  | none => exact Json.plain_none
  | some t => exact Json.plain_str t

theorem map_str_text (fields : List LiveFactField) :
    (fields.map fun field => Value.str field.text) = (fields.map LiveFactField.text).map .str := by
  rw [List.map_map]
  rfl

theorem restates_liveCitation {d : Dict} {citation : LiveCitation}
    (hcovers : Covers liveCitationFields d) (htype : item d "citation_type" = .ofString "LIVE_ERP")
    (h : liveCitation d = some citation) :
    ∃ e, (Citation.live citation).object = .dict e ∧ Restates liveCitationFields d e ∧
      item (Json.inOrder e) "citation_type" = .ofString "LIVE_ERP" := by
  simp only [liveCitation, Option.bind_eq_bind, Option.bind_eq_some_iff] at h
  obtain ⟨id, hid, run, hrun, doctype, hdoctype, name, hname, version, hversion, captured, hcaptured,
    modified, hmodified, frappe, hfrappe, erpnext, herpnext, fields, hfields, fact, hfact,
    hcitation⟩ := h
  obtain rfl := Option.some.inj hcitation
  have hversion := boundedInt_eq_some.mp hversion
  refine ⟨_, rfl, ?_⟩
  have hrestates : Restates liveCitationFields d
      [("citation_type", .ofString "LIVE_ERP"), ("citation_id", .str id), ("run_id", .str run),
        ("document_doctype", .str doctype.text), ("document_name", .str name),
        ("state_version", .int version), ("captured_at", .str captured),
        ("source_modified_at", optionalText modified), ("frappe_revision", optionalText frappe),
        ("erpnext_revision", optionalText erpnext),
        ("fact_fields", .list (fields.map fun field => .str field.text)),
        ("fact_digest", .str fact)] := by
    refine ⟨hcovers, rfl, by decide, ?_, ?_, ?_⟩
    · simp only [List.forall_mem_cons]
      exact ⟨htype, eq_of_identifier hid, eq_of_uuidText hrun, eq_of_documentType hdoctype,
        eq_of_text hname, hversion.1, eq_of_text hcaptured, eq_of_optionalMetadata hmodified,
        eq_of_optionalMetadata hfrappe, eq_of_optionalMetadata herpnext, eq_of_factFields hfields,
        eq_of_digest hfact, by simp⟩
    · simp only [List.forall_mem_cons, map_str_text]
      exact ⟨rfl, rfl, rfl, rfl, rfl, rfl, rfl, flat_optionalText _, flat_optionalText _,
        flat_optionalText _, Json.flat_texts _, rfl, by simp⟩
    · simp only [List.forall_mem_cons, map_str_text]
      exact ⟨Json.plain_str _, Json.plain_str _, Json.plain_str _, Json.plain_str _,
        Json.plain_str _, Json.plain_int (by omega) (by omega), Json.plain_str _,
        plain_optionalText _, plain_optionalText _, plain_optionalText _, Json.plain_texts _,
        Json.plain_str _, by simp⟩
  exact ⟨hrestates, by rw [hrestates.item_inOrder, htype]⟩

theorem restates_retrievalCitation {d : Dict} {citation : RetrievalCitation}
    (hcovers : Covers retrievalCitationFields d)
    (htype : item d "citation_type" = .ofString "RETRIEVAL")
    (h : retrievalCitation d = some citation) :
    ∃ e, (Citation.retrieval citation).object = .dict e ∧ Restates retrievalCitationFields d e ∧
      item (Json.inOrder e) "citation_type" = .ofString "RETRIEVAL" := by
  simp only [retrievalCitation, Option.bind_eq_bind, Option.bind_eq_some_iff] at h
  obtain ⟨id, hid, chunk, hchunk, content, hcontent, ordinal, hordinal, source, hsource, revision,
    hrevision, version, hversion, scope, hscope, hcitation⟩ := h
  obtain rfl := Option.some.inj hcitation
  have hordinal := boundedInt_eq_some.mp hordinal
  refine ⟨_, rfl, ?_⟩
  have hrestates : Restates retrievalCitationFields d
      [("citation_type", .ofString "RETRIEVAL"), ("citation_id", .str id), ("chunk_id", .str chunk),
        ("content_digest", .str content), ("ordinal", .int ordinal), ("source_type", .str source),
        ("revision", .str revision), ("erp_version", .str version),
        ("permission_scope", .str scope)] := by
    refine ⟨hcovers, rfl, by decide, ?_, ?_, ?_⟩
    · simp only [List.forall_mem_cons]
      exact ⟨htype, eq_of_identifier hid, eq_of_digest hchunk, eq_of_digest hcontent, hordinal.1,
        eq_of_text hsource, eq_of_text hrevision, eq_of_text hversion, eq_of_text hscope, by simp⟩
    · simp only [List.forall_mem_cons]
      exact ⟨rfl, rfl, rfl, rfl, rfl, rfl, rfl, rfl, rfl, by simp⟩
    · simp only [List.forall_mem_cons]
      exact ⟨Json.plain_str _, Json.plain_str _, Json.plain_str _, Json.plain_str _,
        Json.plain_int (by omega) (by omega), Json.plain_str _, Json.plain_str _, Json.plain_str _,
        Json.plain_str _, by simp⟩
  exact ⟨hrestates, by rw [hrestates.item_inOrder, htype]⟩

/-- A citation is read from a mapping of its type. -/
theorem validateCitation_eq_some {value : Value} {citation : Citation} :
    validateCitation value = some citation ↔
      (∃ d c, strictMapping liveCitationFields value = some d ∧
        item d "citation_type" = .ofString "LIVE_ERP" ∧ liveCitation d = some c ∧
        citation = .live c) ∨
      ∃ d c, strictMapping retrievalCitationFields value = some d ∧
        item d "citation_type" = .ofString "RETRIEVAL" ∧ retrievalCitation d = some c ∧
        citation = .retrieval c := by
  have hne : Value.ofString "LIVE_ERP" ≠ Value.ofString "RETRIEVAL" := by decide
  cases value with
  | dict d =>
      have hself : ∀ fields e, strictMapping fields (.dict d) = some e → e = d := by
        intro fields e he
        exact (Value.dict.inj (strictMapping_eq_some.mp he).1).symm
      rw [validateCitation]
      by_cases hlive : item d "citation_type" = .ofString "LIVE_ERP"
      · rw [if_pos hlive, Option.map_eq_some_iff]
        constructor
        · intro h
          obtain ⟨c, hc, rfl⟩ := h
          obtain ⟨e, he, hread⟩ := Option.bind_eq_some_iff.mp hc
          exact Or.inl ⟨e, c, he, hself _ _ he ▸ hlive, hread, rfl⟩
        · intro h
          rcases h with ⟨e, c, he, -, hread, rfl⟩ | ⟨e, c, he, htype, -⟩
          · exact ⟨c, Option.bind_eq_some_iff.mpr ⟨e, he, hread⟩, rfl⟩
          · rw [hself _ _ he, hlive] at htype
            exact absurd htype hne
      · rw [if_neg hlive]
        by_cases hretrieval : item d "citation_type" = .ofString "RETRIEVAL"
        · rw [if_pos hretrieval, Option.map_eq_some_iff]
          constructor
          · intro h
            obtain ⟨c, hc, rfl⟩ := h
            obtain ⟨e, he, hread⟩ := Option.bind_eq_some_iff.mp hc
            exact Or.inr ⟨e, c, he, hself _ _ he ▸ hretrieval, hread, rfl⟩
          · intro h
            rcases h with ⟨e, c, he, htype, -⟩ | ⟨e, c, he, -, hread, rfl⟩
            · exact absurd (hself _ _ he ▸ htype) hlive
            · exact ⟨c, Option.bind_eq_some_iff.mpr ⟨e, he, hread⟩, rfl⟩
        · rw [if_neg hretrieval]
          constructor
          · intro h
            cases h
          · intro h
            rcases h with ⟨e, c, he, htype, -⟩ | ⟨e, c, he, htype, -⟩
            · exact absurd (hself _ _ he ▸ htype) hlive
            · exact absurd (hself _ _ he ▸ htype) hretrieval
  | _ => simp [validateCitation, strictMapping]

theorem readsBack_citation {value : Value} {citation : Citation}
    (h : validateCitation value = some citation) :
    ReadsBack validateCitation citation.object citation := by
  rcases validateCitation_eq_some.mp h with ⟨d, c, hd, htype, hread, rfl⟩ | ⟨d, c, hd, htype, hread, rfl⟩
  · obtain ⟨e, he, hrestates, htype'⟩ :=
      restates_liveCitation (strictMapping_eq_some.mp hd).2 htype hread
    rw [he]
    refine ⟨?_, hrestates.plain_sortKeys⟩
    apply validateCitation_eq_some.mpr
    refine Or.inl ⟨_, c, hrestates.strictMapping, htype', ?_, rfl⟩
    rw [← hread]
    simp only [liveCitation, hrestates.item_inOrder]
  · obtain ⟨e, he, hrestates, htype'⟩ :=
      restates_retrievalCitation (strictMapping_eq_some.mp hd).2 htype hread
    rw [he]
    refine ⟨?_, hrestates.plain_sortKeys⟩
    apply validateCitation_eq_some.mpr
    refine Or.inr ⟨_, c, hrestates.strictMapping, htype', ?_, rfl⟩
    rw [← hread]
    simp only [retrievalCitation, hrestates.item_inOrder]

/-! ## Stored texts -/

section

variable {I : Interpreter} {hooks : Json.Hooks} {raw : Text}

theorem dumps_of_resultJson {value : Value} (h : resultJson I value = .ok raw) :
    Json.dumps I value = some raw ∧ raw.length ≤ maxJsonLength := by
  rw [resultJson] at h
  cases hdumps : Json.dumps I value with
  | none =>
      rw [hdumps] at h
      cases h
  | some encoded =>
      rw [hdumps] at h
      by_cases hlength : maxJsonLength < encoded.length
      · simp [hlength] at h
      · simp only [if_neg hlength, Except.ok.injEq] at h
        rw [← h]
        exact ⟨rfl, Nat.le_of_not_lt hlength⟩

/-- What is stored of a value is the canonical text of the value in key order. -/
theorem canonicalJson_of_resultJson (hhooks : hooks.KeepDistinct) {value : Value}
    (hplain : Json.Plain (Json.sortKeys value)) (h : resultJson I value = .ok raw) :
    canonicalJson I hooks raw = some (Json.sortKeys value) := by
  obtain ⟨hdumps, hlength⟩ := dumps_of_resultJson h
  apply guard_bind_eq_some.mpr
  refine ⟨⟨Json.ne_nil_of_dumps hplain hdumps, hlength⟩, ?_⟩
  rw [Json.loads_of_dumps hhooks hplain hdumps]
  apply guard_bind_eq_some.mpr
  exact ⟨Json.dumps_sortKeys_of_dumps hplain hdumps, rfl⟩

variable {α : Type} {read : Value → Option α} {write : α → Value}

theorem mapM_sortKeys {items : List α} (h : ∀ a ∈ items, ReadsBack read (write a) a) :
    ((items.map write).map Json.sortKeys).mapM read = some items := by
  induction items with
  | nil => rfl
  | cons a items ih =>
      obtain ⟨hhead, htail⟩ := List.forall_mem_cons.mp h
      rw [List.map_cons, List.map_cons, List.mapM_cons, hhead.read, ih htail]
      rfl

/-- A list of values that are read back. -/
theorem readsBack_list {items : List α} (h : ∀ a ∈ items, ReadsBack read (write a) a)
    (hjson : resultJson I (.list (items.map write)) = .ok raw) :
    ((canonicalJson I strictHooks raw).bind asList).bind (List.mapM read) = some items := by
  have hplain : Json.Plain (Json.sortKeys (.list (items.map write))) := by
    apply Json.plain_sortKeys_list
    intro v hv
    obtain ⟨a, ha, rfl⟩ := List.mem_map.mp hv
    exact (h a ha).plain
  rw [canonicalJson_of_resultJson strictHooks_keepDistinct hplain hjson, Json.sortKeys,
    Json.sortKeysItems_eq_map]
  exact mapM_sortKeys h

theorem readsBack_value {stored : Value} {a : α} (h : ReadsBack read stored a)
    (hjson : resultJson I stored = .ok raw) :
    (canonicalJson I strictHooks raw).bind read = some a := by
  rw [canonicalJson_of_resultJson strictHooks_keepDistinct h.plain hjson]
  exact h.read

theorem readsBack_identifier {id : Text} (h : identifier (.str id) = some id) :
    ReadsBack identifier (.str id) id := ⟨h, Json.plain_str id⟩

end

theorem canonicalUuid_value (u : Uuid) : canonicalUuid (.str u.text) = some u := by
  have h : Gateway.canonicalUuid (.str u.text) "" = .ok u := Gateway.canonicalUuid_value u ""
  rw [canonicalUuid, h]
  rfl

/-- A row is named by a UUID, which is an identifier. -/
theorem identifier_uuid (u : Uuid) : identifier (.str u.text) = some u.text := by
  have hlength := u.length_text
  have hmem : ∀ c ∈ u.text, Governance.isLowerHex c = true ∨ c = 0x2D := fun c hc =>
    Governance.isLowerHex_or_hyphen u.canonical hc
  have hcanonical := u.canonical
  obtain ⟨text, canonical⟩ := u
  simp only at hlength hmem hcanonical ⊢
  cases text with
  | nil => cases hlength
  | cons c t =>
      have hfirst : Governance.isLowerHex c = true := by
        simp only [Governance.isCanonicalUuid, Bool.and_eq_true, List.zipIdx_cons,
          List.all_cons] at hcanonical
        exact hcanonical.2.1
      have halpha : ∀ d : CodePoint, Governance.isLowerHex d = true →
          Governance.isAlphanumeric d = true := by
        intro d hd
        simp only [Governance.isLowerHex, Governance.isAlphanumeric, Bool.or_eq_true,
          Bool.and_eq_true, decide_eq_true_eq] at hd ⊢
        omega
      have hid : isId (c :: t) = true := by
        rw [List.length_cons] at hlength
        rw [isId, halpha c hfirst, decide_eq_true (by omega), Bool.true_and, Bool.true_and,
          List.all_eq_true]
        intro d hd
        rw [Bool.or_eq_true]
        rcases hmem d (List.mem_cons_of_mem c hd) with h | rfl
        · exact Or.inl (halpha d h)
        · exact Or.inr (by decide)
      have hblank : Text.isBlank (c :: t) = false := by
        rw [Text.isBlank, List.all_cons,
          (Governance.asciiLower_of_isLowerHex (Or.inl hfirst)).2, Bool.false_and]
      rw [identifier, Option.filter_eq_some_iff]
      exact ⟨text_eq_some.mpr ⟨rfl, hblank, by omega⟩, hid⟩

/-! ## Rows -/

/-- What the check of an answer establishes of what is stored. -/
structure ValidatedAnswer.Sound (a : ValidatedAnswer) : Prop where
  claims : ∀ claim ∈ a.claims, ∃ value, coachOutputClaim value = some claim
  citations : ∀ citation ∈ a.citations, ∃ value, validateCitation value = some citation
  ordinals : a.claims.map Claim.ordinal = ordinals a.claims.length
  graph : graphFits a.claims a.citations = true
  trace : ∃ value, coachOutputTrace value = some a.retrievalTrace
  usage : ∃ value, coachOutputUsage value = some a.tokenUsage
  latency : 0 ≤ a.latencyMs ∧ a.latencyMs ≤ 86400000
  joined : declines a.answerStatus = false → a.answer = joinTexts a.claims

theorem demand_eq_ok {p : Prop} [Decidable p] {e : Raised} {u : Unit} : demand p e = .ok u ↔ p := by
  by_cases h : p
  · simp [demand, h]
  · simp [demand, h]

/-- The ids of the rows are identifiers. -/
theorem claimRecordIds_eq_ok {rows : List Provenance} {ids : List Text}
    (h : claimRecordIds rows = .ok ids) :
    ids = rows.map Provenance.persistedClaimId ∧ ∀ id ∈ ids, identifier (.str id) = some id := by
  induction rows generalizing ids with
  | nil =>
      obtain rfl := Except.ok.inj h
      exact ⟨rfl, by simp⟩
  | cons row rows ih =>
      rw [claimRecordIds] at h
      cases hid : identifier (.str row.persistedClaimId) with
      | none =>
          rw [hid] at h
          cases h
      | some id =>
          rw [hid] at h
          cases hrest : claimRecordIds rows with
          | error e =>
              rw [hrest] at h
              cases h
          | ok rest =>
              rw [hrest] at h
              obtain rfl := Except.ok.inj h
              obtain ⟨hids, hall⟩ := ih hrest
              have hname : row.persistedClaimId = id := Value.str.inj (eq_of_identifier hid)
              rw [hname] at hid
              constructor
              · rw [List.map_cons, hname, ← hids]
              · exact List.forall_mem_cons.mpr ⟨hid, hall⟩

/-- The values of an answer, one by one. -/
structure Filled (I : Interpreter) (runId : Uuid) (correlationId : Text)
    (document : Option DocumentRef) (a : ValidatedAnswer) (ids : List Text)
    (values : ResultValues) : Prop where
  run : values.run = runId.text
  correlation : values.correlationId = correlationId
  purpose : values.purpose = Text.ofString "ERP_COACH"
  status : values.answerStatus = a.answerStatus.text
  answer : values.answer = a.answer
  reason : values.refusalReason = a.refusalReason
  doctype : values.currentDoctype = document.map fun ref => ref.doctype.text
  name : values.currentName = document.map DocumentRef.name
  records : resultJson I (.list (ids.map .str)) = .ok values.claimRecordsJson
  claims : resultJson I (.list (a.claims.map claimValue)) = .ok values.claimsJson
  citations : resultJson I (.list (a.citations.map Citation.object)) = .ok values.citationsJson
  trace : resultJson I (traceValue a.retrievalTrace) = .ok values.traceJson
  usage : resultJson I (usageValue a.tokenUsage) = .ok values.usageJson
  latency : values.latencyMs = a.latencyMs

/-- What the values of an answer have passed. -/
structure Fits (document : Option DocumentRef) (a : ValidatedAnswer) (persisted : List Provenance)
    (ids : List Text) : Prop where
  length : a.answer.length ≤ 8000
  reason : (a.refusalReason.all fun reason =>
    refusalReasons.any fun safe => reason = Text.ofString safe) = true
  rows : persisted.length = a.claims.length
  document : ∀ ref ∈ document, text 140 (.str ref.name) = some ref.name
  records : claimRecordIds persisted = .ok ids
  values : valuesFit a ids = true

theorem resultDocumentValues_eq_ok {I : Interpreter} {runId : Uuid} {correlationId : Text}
    {document : Option DocumentRef} {a : ValidatedAnswer} {persisted : List Provenance}
    {values : ResultValues}
    (h : resultDocumentValues I runId correlationId document a persisted = .ok values) :
    ∃ ids, Fits document a persisted ids ∧ Filled I runId correlationId document a ids values := by
  simp only [resultDocumentValues, Python.Except.bind_eq_ok, demand_eq_ok] at h
  obtain ⟨-, hlength, -, hreason, -, hpersisted, -, hdocument, ids, hids, -, hstatus, records,
    hrecords, claims, hclaims, citations, hcitations, trace, htrace, usage, husage, hvalues⟩ := h
  obtain rfl := Except.ok.inj hvalues
  refine ⟨ids, ⟨hlength, hreason, hpersisted, ?_, hids, hstatus⟩,
    ⟨rfl, rfl, rfl, rfl, rfl, rfl, rfl, rfl, hrecords, hclaims, hcitations, htrace, husage, rfl⟩⟩
  intro ref href
  rw [Option.mem_def] at href
  rw [href, Option.all_some, Option.isSome_iff_exists] at hdocument
  obtain ⟨name, hname⟩ := hdocument
  rw [hname, Value.str.inj (eq_of_text hname)]

theorem answerStatus_text (status : AnswerStatus) : answerStatus (.str status.text) = some status := by
  cases status with
  | answered => decide
  | unknown => decide
  | conflict => decide
  | refused => decide

theorem documentType_text (doctype : DocumentType) :
    documentType (.str doctype.text) = some doctype := by
  cases doctype with
  | materialRequest => decide
  | purchaseOrder => decide

theorem currentDocument_columns {document : Option DocumentRef}
    (h : ∀ ref ∈ document, text 140 (.str ref.name) = some ref.name) :
    currentDocument (document.map fun ref => ref.doctype.text) (document.map DocumentRef.name) =
      some document := by
  cases document with
  | none => rfl
  | some ref =>
      obtain ⟨-, hblank, hlength⟩ := text_eq_some.mp (h ref rfl)
      have hname : ref.name ≠ [] := by
        intro hnil
        rw [hnil] at hblank
        exact absurd hblank (by decide)
      have hdoctype : ref.doctype.text ≠ [] := by
        cases ref.doctype with
        | materialRequest => decide
        | purchaseOrder => decide
      have hsome : ∀ t : Text, t ≠ [] → orNone (some t) = some t := by
        intro t ht
        simp [orNone, ht]
      simp only [Option.map_some, currentDocument, hsome _ hname, hsome _ hdoctype, if_pos hlength,
        documentType_text]

/-- The row of an answer that was checked gives back the answer. -/
theorem serialize_of_filled {I : Interpreter} {runId correlationId : Uuid} {correlation : Text}
    {document : Option DocumentRef} {a : ValidatedAnswer} {persisted : List Provenance}
    {ids : List Text} {row : ResultRow} (hsound : a.Sound) (hfits : Fits document a persisted ids)
    (hfilled : Filled I runId correlation document a ids row.toResultValues)
    (hcorrelation : canonicalUuid (.str correlation) = some correlationId) {name : Uuid}
    (hname : row.name = name.text) :
    serializeCoachResult I row = some
      { resultId := row.name
        runId
        correlationId
        answerStatus := a.answerStatus
        answer := a.answer
        refusalReason := a.refusalReason
        currentDocument := document
        claims := a.claims
        citations := a.citations
        trace := a.retrievalTrace
        usage := a.tokenUsage
        latencyMs := a.latencyMs
        claimRecordIds := ids } := by
  have hclaims : ∀ claim ∈ a.claims, ReadsBack coachOutputClaim (claimValue claim) claim := by
    intro claim hclaim
    obtain ⟨value, hvalue⟩ := hsound.claims claim hclaim
    exact readsBack_claim hvalue
  have hcitations : ∀ citation ∈ a.citations,
      ReadsBack validateCitation citation.object citation := by
    intro citation hcitation
    obtain ⟨value, hvalue⟩ := hsound.citations citation hcitation
    exact readsBack_citation hvalue
  have hids : ∀ id ∈ ids, ReadsBack identifier (.str id) id := fun id hid =>
    readsBack_identifier ((claimRecordIds_eq_ok hfits.records).2 id hid)
  obtain ⟨traceSource, htrace⟩ := hsound.trace
  obtain ⟨usageSource, husage⟩ := hsound.usage
  have hrecords : ids.length = a.claims.length := by
    rw [(claimRecordIds_eq_ok hfits.records).1, List.length_map, hfits.rows]
  have hrow : rowFits a.answerStatus a.answer a.claims a.citations ids a.refusalReason = true := by
    have hvalues := hfits.values
    by_cases hdeclines : declines a.answerStatus = true
    · rw [valuesFit, if_pos hdeclines] at hvalues
      rw [rowFits, if_pos hdeclines, hvalues]
    · rw [valuesFit, if_neg hdeclines] at hvalues
      rw [rowFits, if_neg hdeclines, hvalues,
        decide_eq_true (hsound.joined (Bool.not_eq_true _ ▸ hdeclines))]
      rfl
  simp only [serializeCoachResult, hname, identifier_uuid, hfilled.run, canonicalUuid_value,
    hfilled.correlation, hcorrelation, hfilled.purpose, hfilled.status, answerStatus_text,
    hfilled.answer, hfilled.reason, hfilled.doctype, hfilled.name, hfilled.latency,
    readsBack_list hclaims hfilled.claims, readsBack_list hcitations hfilled.citations,
    readsBack_list hids hfilled.records, readsBack_value (readsBack_trace htrace) hfilled.trace,
    readsBack_value (readsBack_usage husage) hfilled.usage,
    boundedInt_eq_some.mpr ⟨rfl, hsound.latency⟩, currentDocument_columns hfits.document,
    Option.bind_eq_bind, Option.bind_some, guard, hfits.length, hfits.reason, hsound.ordinals,
    hrecords, hsound.graph, hrow, if_true, Option.pure_def]

end Coach.Authority
