import SynoraErp.Coach.Compatibility

/-!
# Citations that are patched

A live citation that comes without its fields takes those of the first claim that names some, and
an answer that leaves its citations out gets one for each citation its claims refer to. What the
claims named is kept in one table, with the citations they disagree on; only the citations that
are made up are checked against it.
-/

namespace Coach

open Python Governance

/-! ## What claims name -/

/-- The claim refers to the citation and names fields of its own. -/
def Names (claim : Dict) (reference : Text) (fields : List Value) : Prop :=
  rawFields claim = some fields ∧
    ∃ references, item claim "citation_refs" = .list references ∧ .str reference ∈ references

/-- The table holds what the claims name: of each citation the fields of some claim, and whoever
names other fields makes it a conflict. -/
structure Tracks (claims : List Dict) (s : Selectors) : Prop where
  named : ∀ reference fields, s.byCitation.lookup reference = some fields →
    ∃ claim ∈ claims, Names claim reference fields
  tracked : ∀ claim ∈ claims, ∀ reference fields, Names claim reference fields →
    ∃ first, s.byCitation.lookup reference = some first ∧
      ((Value.list first).normal = (Value.list fields).normal ∨ reference ∈ s.conflicts)

theorem tracks_nil : Tracks [] {} := ⟨by simp, by simp⟩

/-- Selecting fields keeps what was selected. -/
theorem lookup_select (s : Selectors) (fields : List Value) (reference other : Text) :
    (s.select fields reference).byCitation.lookup other =
      if reference = other ∧ s.byCitation.lookup other = none then some fields
      else s.byCitation.lookup other := by
  rw [Selectors.select]
  cases hlookup : s.byCitation.lookup reference with
  | none =>
      simp only [List.lookup_append, List.lookup_cons, List.lookup_nil]
      by_cases hsame : reference = other
      · subst hsame
        simp [hlookup]
      · have hne : (other == reference) = false := by simpa using Ne.symm hsame
        simp [hsame, hne]
  | some previous =>
      have hsame : ¬(reference = other ∧ s.byCitation.lookup other = none) := by
        rintro ⟨rfl, hnone⟩
        rw [hlookup] at hnone
        cases hnone
      rw [if_neg hsame]
      simp only
      split_ifs <;> rfl

theorem conflicts_select (s : Selectors) (fields : List Value) (reference : Text) :
    s.conflicts ⊆ (s.select fields reference).conflicts := by
  rw [Selectors.select]
  cases s.byCitation.lookup reference with
  | none => exact List.Subset.refl _
  | some previous =>
      simp only
      split_ifs
      · exact List.Subset.refl _
      · exact List.subset_append_left _ _

/-- What is selected is in the table, or in conflict with it. -/
theorem tracked_select (s : Selectors) (fields : List Value) (reference : Text) :
    ∃ first, (s.select fields reference).byCitation.lookup reference = some first ∧
      ((Value.list first).normal = (Value.list fields).normal ∨
        reference ∈ (s.select fields reference).conflicts) := by
  cases hlookup : s.byCitation.lookup reference with
  | none =>
      refine ⟨fields, ?_, .inl rfl⟩
      rw [lookup_select, if_pos ⟨rfl, hlookup⟩]
  | some previous =>
      refine ⟨previous, ?_, ?_⟩
      · rw [lookup_select, hlookup, if_neg (by simp)]
      · by_cases hsame : (Value.list previous).normal = (Value.list fields).normal
        · exact .inl hsame
        · refine .inr ?_
          rw [Selectors.select, hlookup]
          simp [hsame]

/-- A table that grows keeps what it says of the claims. -/
structure Extends (s t : Selectors) : Prop where
  lookup : ∀ reference fields, s.byCitation.lookup reference = some fields →
    t.byCitation.lookup reference = some fields
  conflicts : s.conflicts ⊆ t.conflicts

theorem extends_select (s : Selectors) (fields : List Value) (reference : Text) :
    Extends s (s.select fields reference) := by
  refine ⟨fun other previous hlookup => ?_, conflicts_select s fields reference⟩
  rw [lookup_select, hlookup, if_neg (by simp)]

theorem Extends.trans {s t u : Selectors} (h : Extends s t) (h' : Extends t u) : Extends s u :=
  ⟨fun reference fields hlookup => h'.lookup _ _ (h.lookup reference fields hlookup),
    fun _ hmem => h'.conflicts (h.conflicts hmem)⟩

theorem extends_foldl (fields : List Value) (references : List Text) (s : Selectors) :
    Extends s (references.foldl (fun s reference => s.select fields reference) s) := by
  induction references generalizing s with
  | nil => exact ⟨fun _ _ h => h, List.Subset.refl _⟩
  | cons reference references ih =>
      exact (extends_select s fields reference).trans (ih _)

theorem tracked_foldl (fields : List Value) {references : List Text} (s : Selectors)
    {reference : Text} (h : reference ∈ references) :
    ∃ first, (references.foldl (fun s reference => s.select fields reference) s).byCitation.lookup
        reference = some first ∧
      ((Value.list first).normal = (Value.list fields).normal ∨ reference ∈
        (references.foldl (fun s reference => s.select fields reference) s).conflicts) := by
  induction references generalizing s with
  | nil => simp at h
  | cons next references ih =>
      rcases List.mem_cons.mp h with rfl | hmem
      · obtain ⟨first, hlookup, htracked⟩ := tracked_select s fields reference
        have hextends := extends_foldl fields references (s.select fields reference)
        exact ⟨first, hextends.lookup _ _ hlookup,
          htracked.imp_right fun hconflict => hextends.conflicts hconflict⟩
      · exact ih _ hmem

theorem named_foldl {fields : List Value} {references : List Text} {s : Selectors}
    {reference : Text} {found : List Value}
    (h : (references.foldl (fun s reference => s.select fields reference) s).byCitation.lookup
      reference = some found) :
    s.byCitation.lookup reference = some found ∨ (reference ∈ references ∧ found = fields) := by
  induction references generalizing s with
  | nil => exact .inl h
  | cons next references ih =>
      rcases ih h with hlookup | ⟨hmem, hfound⟩
      · rw [lookup_select] at hlookup
        split_ifs at hlookup with hnew
        · obtain ⟨rfl, -⟩ := hnew
          exact .inr ⟨List.mem_cons_self, (Option.some.inj hlookup).symm⟩
        · exact .inl hlookup
      · exact .inr ⟨List.mem_cons_of_mem _ hmem, hfound⟩

theorem mem_strings {values : List Value} {t : Text} : t ∈ strings values ↔ .str t ∈ values := by
  rw [strings, List.mem_filterMap]
  constructor
  · rintro ⟨v, hv, hstr⟩
    cases v with
    | str s =>
        rw [← Option.some.inj hstr]
        exact hv
    | _ => cases hstr
  · intro h
    exact ⟨.str t, h, rfl⟩

/-- One more claim is tracked. -/
theorem tracks_selectFields {claims : List Dict} {s : Selectors} (h : Tracks claims s)
    (ordinal : ℕ) (claim : Dict) :
    Tracks (claims ++ [claim]) (selectFields claim (rewriteClaim ordinal claim) s) := by
  rw [selectFields, item_rewriteClaim_citationRefs]
  have hkept : ∀ {t : Selectors}, Extends s t → (∀ fields, ∀ reference,
      Names claim reference fields → ∃ first, t.byCitation.lookup reference = some first ∧
        ((Value.list first).normal = (Value.list fields).normal ∨ reference ∈ t.conflicts)) →
      (∀ reference fields, t.byCitation.lookup reference = some fields →
        s.byCitation.lookup reference = some fields ∨ Names claim reference fields) →
      Tracks (claims ++ [claim]) t := by
    intro t hextends htracked hnamed
    refine ⟨fun reference fields hlookup => ?_, fun other hother reference fields hnames => ?_⟩
    · rcases hnamed reference fields hlookup with hold | hnew
      · obtain ⟨other, hother, hnames⟩ := h.named reference fields hold
        exact ⟨other, List.mem_append_left _ hother, hnames⟩
      · exact ⟨claim, List.mem_append_right _ List.mem_cons_self, hnew⟩
    · rcases List.mem_append.mp hother with hold | hnew
      · obtain ⟨first, hlookup, hfirst⟩ := h.tracked other hold reference fields hnames
        exact ⟨first, hextends.lookup _ _ hlookup,
          hfirst.imp_right fun hconflict => hextends.conflicts hconflict⟩
      · rw [List.mem_singleton] at hnew
        rw [hnew] at hnames
        exact htracked fields reference hnames
  cases hfields : rawFields claim with
  | none =>
      refine hkept ⟨fun _ _ hlookup => hlookup, List.Subset.refl _⟩ ?_
        fun _ _ hlookup => .inl hlookup
      intro fields reference hnames
      rw [Names, hfields] at hnames
      cases hnames.1
  | some fields =>
      cases hrefs : item claim "citation_refs" with
      | list references =>
          refine hkept (extends_foldl fields (strings references) s) ?_ ?_
          · intro named reference hnames
            obtain ⟨hnamed, others, hothers, hmem⟩ := hnames
            rw [hfields] at hnamed
            rw [hrefs] at hothers
            rw [← Option.some.inj hnamed]
            rw [← Value.list.inj hothers] at hmem
            exact tracked_foldl fields s (mem_strings.mpr hmem)
          · intro reference found hlookup
            rcases named_foldl hlookup with hold | ⟨hmem, rfl⟩
            · exact .inl hold
            · exact .inr ⟨hfields, references, hrefs, mem_strings.mp hmem⟩
      | _ =>
          refine hkept ⟨fun _ _ hlookup => hlookup, List.Subset.refl _⟩ ?_
            fun _ _ hlookup => .inl hlookup
          intro named reference hnames
          obtain ⟨-, others, hothers, -⟩ := hnames
          rw [hrefs] at hothers
          cases hothers

/-- The `ERP_FACT` claims of a list. -/
def erpClaims : List Value → List Dict
  | [] => []
  | .dict claim :: claims =>
      if isErpFact (.dict claim) then claim :: erpClaims claims else erpClaims claims
  | _ :: claims => erpClaims claims

/-- The table tracks every `ERP_FACT` claim. -/
theorem tracks_rewriteClaims {claims : List Dict} {s : Selectors} (h : Tracks claims s)
    (ordinal : ℕ) (raws : List Value) :
    Tracks (claims ++ erpClaims raws) (rewriteClaims ordinal raws s).2 := by
  induction raws generalizing claims s ordinal with
  | nil =>
      rw [erpClaims, List.append_nil]
      exact h
  | cons raw raws ih =>
      by_cases hfact : isErpFact raw = true
      · cases raw with
        | dict claim =>
            rw [rewriteClaims_erpFact hfact, erpClaims, if_pos hfact, List.append_cons]
            exact ih (tracks_selectFields h ordinal claim) (ordinal + 1)
        | _ => cases hfact
      · rw [rewriteClaims_other (by simpa using hfact)]
        have hsame : erpClaims (raw :: raws) = erpClaims raws := by
          cases raw with
          | dict claim => rw [erpClaims, if_neg hfact]
          | _ => rfl
        rw [hsame]
        exact ih h (ordinal + 1)

/-! ## Where the citations of an output come from -/

/-- The `ERP_FACT` claims a provider gave. -/
def givenClaims (value : Dict) : List Dict := erpClaims (claimList (item value "claims"))

/-- The citations a provider gave, as a list or as a map. -/
def givenCitations (value : Dict) : List Value :=
  match citationList ((Dict.get? value "citations").getD (.list [])) with
  | some (.list raws) => raws
  | _ => []

theorem get?_rewriteStatus {value d : Dict} (h : rewriteStatus value = some d) {key : String}
    (hstatus : "answer_status" ≠ key) (hreason : "refusal_reason" ≠ key) :
    Dict.get? d (Text.ofString key) = Dict.get? value (Text.ofString key) := by
  rw [rewriteStatus] at h
  have hfirst : ∀ e : Dict, (if item value "answer_status" = .ofString "SUCCESS"
      then Dict.set value "answer_status" (.ofString "ANSWERED") else value) = e →
      Dict.get? e (Text.ofString key) = Dict.get? value (Text.ofString key) := by
    rintro e rfl
    split_ifs
    · exact get?_set_of_ne value _ hstatus
    · rfl
  generalize (if item value "answer_status" = .ofString "SUCCESS"
      then Dict.set value "answer_status" (.ofString "ANSWERED") else value) = e at h hfirst
  have he := hfirst e rfl
  split at h
  · split at h
    · cases h
    · cases h
    · split at h
      · rw [← Option.some.inj h, get?_set_of_ne e _ hreason, he]
      · rw [← Option.some.inj h, he]
  · rw [← Option.some.inj h, he]

theorem get?_claimStage (d : Dict) {key : String} (h : "claims" ≠ key) :
    Dict.get? (claimStage d).1 (Text.ofString key) = Dict.get? d (Text.ofString key) := by
  rw [claimStage]
  split
  · exact get?_set_of_ne d _ h
  · rfl

theorem tracks_claimStage (d : Dict) : Tracks (erpClaims (claimList (item d "claims"))) (claimStage d).2 := by
  have htracks := tracks_rewriteClaims tracks_nil 1 (claimList (item d "claims"))
  rw [List.nil_append] at htracks
  rw [claimStage]
  split
  · next raws hraws =>
      rw [hraws] at htracks ⊢
      exact htracks
  · next hother =>
      have hnil : claimList (item d "claims") = [] := by
        cases hitem : item d "claims" with
        | list raws => exact absurd hitem (hother raws)
        | _ => rfl
      rw [hnil]
      exact tracks_nil

theorem mapM_of_defaultField {d : Dict} {raws : List Value} {citations : List Citation}
    (h : defaultField d "citations" [] readCitations = some citations)
    (hget : Dict.get? d (Text.ofString "citations") = some (.list raws)) :
    raws.mapM readCitation = some citations := by
  rw [defaultField, hget] at h
  exact h

theorem citationStage_of_not_list {d : Dict} {s : Selectors} {v : Value}
    (h : ∀ raws, v ≠ .list raws) : citationStage d s v = some d := by
  cases v with
  | list raws => exact absurd rfl (h raws)
  | _ => rfl

/-- The citations of an output are those given, rewritten, or the shells of references that are in
no conflict. -/
theorem citations_of_normalize {value e : Dict} {o : ProviderOutput}
    (hnormalize : normalizeProviderCompatibility value = some e) (hread : readCurrent e = some o) :
    ∃ s, Tracks (givenClaims value) s ∧
      (List.Forall₂ (fun raw citation => readCitation (rewriteCitation s raw) = some citation)
          (givenCitations value) o.citations ∨
        (givenCitations value = [] ∧ ∃ references : List Text,
          (∀ reference ∈ references, reference ∉ s.conflicts) ∧
          List.Forall₂ (fun reference citation => readCitation (selectorShell s reference) =
            some citation) references o.citations)) := by
  rw [normalize_eq] at hnormalize
  obtain ⟨d, hd, hnormalize⟩ := Option.bind_eq_some_iff.mp hnormalize
  obtain ⟨v, hv, hstage⟩ := Option.bind_eq_some_iff.mp hnormalize
  have hclaims : item d "claims" = item value "claims" := by
    rw [item, get?_rewriteStatus hd (by decide) (by decide), item]
  have hcitations : Dict.get? (claimStage d).1 "citations" = Dict.get? value "citations" := by
    rw [get?_claimStage d (by decide), get?_rewriteStatus hd (by decide) (by decide)]
  have htracks : Tracks (givenClaims value) (claimStage d).2 := by
    rw [givenClaims, ← hclaims]
    exact tracks_claimStage d
  rw [hcitations] at hv
  -- the output is read from the citations that are set
  have hset : defaultField e "citations" [] readCitations = some o.citations := by
    obtain ⟨status, answer, claims, citations, reason, -, -, -, -, hread, -, hfinish⟩ :=
      readOutput_eq_some.mp hread
    obtain ⟨ho, -⟩ := ProviderOutput.finish_eq_some hfinish
    rw [ho]
    rw [defaultField] at hread ⊢
    split_ifs at hread
    · rwa [get?_set_of_ne e _ (by decide)] at hread
    · exact hread
  refine ⟨(claimStage d).2, htracks, ?_⟩
  by_cases hlist : ∃ raws, v = .list raws
  · obtain ⟨raws, rfl⟩ := hlist
    have hgiven : givenCitations value = raws := by rw [givenCitations, hv]
    obtain ⟨citations, hrewritten, rfl⟩ := Option.map_eq_some_iff.mp hstage
    have hmap := mapM_of_defaultField hset (get?_set_self _ _ _)
    obtain ⟨references, -, ⟨hshelled, rfl⟩ | ⟨-, rfl⟩⟩ := rewriteCitations_eq_some.mp hrewritten
    · refine .inr ⟨hgiven.trans hshelled.1, sortedSet references, ?_, ?_⟩
      · intro reference hmem
        exact hshelled.2.2.2.2.2 reference (mem_sortedSet.mp hmem)
      · have hall := forall₂_of_mapM_eq_some hmap
        rwa [List.forall₂_map_left_iff] at hall
    · have hall := forall₂_of_mapM_eq_some hmap
      rw [List.forall₂_map_left_iff] at hall
      exact .inl (hgiven.symm ▸ hall)
  · -- what is no list of citations is not read
    exfalso
    apply hlist
    rw [citationStage_of_not_list (fun raws heq => hlist ⟨raws, heq⟩)] at hstage
    rw [← Option.some.inj hstage] at hset
    rcases defaultField_eq_some hset with ⟨hnone, -⟩ | ⟨w, hw, hreads⟩
    · rw [← hcitations, hnone] at hv
      exact ⟨[], (Option.some.inj hv).symm⟩
    · obtain ⟨xs, hxs, -⟩ := Option.bind_eq_some_iff.mp hreads
      rw [← hcitations, hw, Option.getD_some] at hv
      cases w with
      | list ys => exact ⟨ys, (Option.some.inj hv).symm⟩
      | _ => cases hxs

/-! ## Filled in and made up -/

/-- A live citation that comes without its fields. -/
def LacksFields (raw : Dict) : Prop :=
  item raw "citation_type" = .ofString "LIVE_ERP" ∧ Text.ofString "fact_fields" ∉ Dict.keys raw

theorem list_of_elim {found : Option (List Value)} {fields : List Value}
    (h : found.elim Value.none Value.list = Value.list fields) : found = some fields := by
  cases found with
  | none => cases h
  | some first => rw [← Value.list.inj h]

/-- A citation that was filled in has the fields of the table. -/
theorem lookup_of_lacksFields {s : Selectors} {raw : Dict} {citation : Citation}
    (hlacks : LacksFields raw)
    (h : readCitation (rewriteCitation s (.dict raw)) = some citation) :
    item raw "citation_id" = .str citation.citationId ∧ ∃ fields,
      citation.selection = some fields ∧ s.byCitation.lookup citation.citationId =
        some (fields.map fun field => .str field.text) := by
  obtain ⟨htype, hfields⟩ := hlacks
  rw [rewriteCitation, if_pos htype] at h
  cases hid : item raw "citation_id" with
  | str id =>
      have hset : item (Dict.set raw "fact_fields" ((s.byCitation.lookup id).elim .none .list))
          "fact_fields" = (s.byCitation.lookup id).elim .none .list := by
        rw [item_set, if_pos rfl]
      simp only [hid, if_neg hfields, hset] at h
      have hdict : readCitation (.dict (Dict.set raw "fact_fields"
          ((s.byCitation.lookup id).elim .none .list))) = some citation := by
        cases hlookup : s.byCitation.lookup id with
        | none =>
            rw [hlookup] at h
            exact h
        | some first =>
            rw [hlookup] at h
            exact h
      rcases readCitation_eq_some hdict with ⟨fields, hselection, hget, hgot⟩ | ⟨-, hother⟩
      · rw [get?_set_of_ne raw _ (by decide)] at hget
        rw [get?_set_self, Option.some.injEq] at hgot
        have hsame : id = citation.citationId := by
          rw [item_of_get? hget] at hid
          exact (Value.str.inj hid).symm
        rw [← hsame]
        exact ⟨rfl, fields, hselection, list_of_elim hgot⟩
      · rw [item_set, if_neg (by decide)] at hother
        exact absurd htype hother
  | _ =>
      exfalso
      have hnone : item raw "fact_fields" = .none := by
        rw [item, Dict.get?_eq_none_iff.mpr hfields]
        rfl
      simp only [hid, hnone] at h
      rcases readCitation_eq_some h with ⟨fields, -, -, hget⟩ | ⟨-, hother⟩
      · rw [Dict.get?_eq_none_iff.mpr hfields] at hget
        cases hget
      · exact hother htype

/-- A citation that was made up has the fields of the table. -/
theorem lookup_of_shell {s : Selectors} {reference : Text} {citation : Citation}
    (h : readCitation (selectorShell s reference) = some citation) :
    reference = citation.citationId ∧ ∃ fields, citation.selection = some fields ∧
      s.byCitation.lookup reference = some (fields.map fun field => .str field.text) := by
  rw [selectorShell] at h
  have htype : ∀ v, item [(Text.ofString "citation_type", .ofString "LIVE_ERP"),
      (Text.ofString "citation_id", .str reference), (Text.ofString "fact_fields", v)]
        "citation_type" = .ofString "LIVE_ERP" := by
    intro v
    rw [item, Dict.get?_cons, if_pos rfl, Option.getD_some]
  rcases readCitation_eq_some h with ⟨fields, hselection, hget, hgot⟩ | ⟨-, hother⟩
  · rw [Dict.get?_cons, if_neg (by simp), Dict.get?_cons, if_pos rfl, Option.some.injEq] at hget
    rw [Dict.get?_cons, if_neg (by simp), Dict.get?_cons, if_neg (by simp), Dict.get?_cons,
      if_pos rfl, Option.some.injEq] at hgot
    exact ⟨Value.str.inj hget, fields, hselection, list_of_elim hgot⟩
  · exact absurd (htype _) hother

/-- Fields that are texts equal nothing but themselves. -/
theorem eq_of_normal_eq {texts : List Text} {values : List Value}
    (h : (Value.list (texts.map .str)).normal = (Value.list values).normal) :
    values = texts.map .str := by
  rw [Value.normal, Value.normal, Value.list.injEq] at h
  induction texts generalizing values with
  | nil =>
      cases values with
      | nil => rfl
      | cons v values => cases h
  | cons t texts ih =>
      cases values with
      | nil => cases h
      | cons v values =>
          rw [List.map_cons, Value.normalItems, Value.normalItems, List.cons.injEq] at h
          have hv : v = .str t := by
            have hnormal := h.1
            cases v with
            | str u => exact hnormal.symm
            | float x => cases x with
              | finite q =>
                  simp only [Value.normal] at hnormal
                  split_ifs at hnormal
              | _ => cases hnormal
            | _ => cases hnormal
          rw [hv, ih h.2, List.map_cons]

/-- The citation's fields are not those the provider gave with it. -/
def Patched (value : Dict) (o : ProviderOutput) (citation : Citation) : Prop :=
  (givenCitations value = [] ∧ citation ∈ o.citations) ∨
    ∃ raw, (Value.dict raw, citation) ∈ (givenCitations value).zip o.citations ∧ LacksFields raw

/-- Whatever claim refers to a patched citation and names fields named exactly its fields. -/
def PatchedAsNamed (value : Dict) (o : ProviderOutput) : Prop :=
  ∀ citation fields, Patched value o citation → citation.selection = some fields →
    ∀ claim ∈ givenClaims value, ∀ named, Names claim citation.citationId named →
      named = fields.map fun field => .str field.text

/-- No two claims name different fields of a live citation that comes without its fields. -/
def SelectorsAgree (value : Dict) : Prop :=
  ∀ raw, .dict raw ∈ givenCitations value → LacksFields raw →
    ∀ id, item raw "citation_id" = .str id →
      ∀ claim ∈ givenClaims value, ∀ other ∈ givenClaims value, ∀ named others,
        Names claim id named → Names other id others → named = others

theorem patchedAsNamed_iff {value e : Dict} {o : ProviderOutput}
    (hnormalize : normalizeProviderCompatibility value = some e) (hread : readCurrent e = some o) :
    PatchedAsNamed value o ↔ SelectorsAgree value := by
  obtain ⟨s, htracks, horigin⟩ := citations_of_normalize hnormalize hread
  constructor
  · intro hpatched raw hraw hlacks id hid claim hclaim other hother named others hnames hnames'
    rcases horigin with hall | ⟨hnil, -⟩
    · obtain ⟨i, hi, hget⟩ := List.mem_iff_getElem.mp hraw
      have hi' : i < o.citations.length := hall.length_eq ▸ hi
      have hreads := List.Forall₂.get hall hi hi'
      simp only [List.get_eq_getElem, hget] at hreads
      obtain ⟨hsame, fields, hselection, -⟩ := lookup_of_lacksFields hlacks hreads
      rw [hid, Value.str.injEq] at hsame
      rw [hsame] at hnames hnames'
      have hzip : (Value.dict raw, o.citations[i]) ∈ (givenCitations value).zip o.citations := by
        rw [List.mem_iff_getElem]
        exact ⟨i, by rw [List.length_zip]; omega, by rw [List.getElem_zip, hget]⟩
      have hnamed := hpatched _ fields (.inr ⟨raw, hzip, hlacks⟩) hselection
      rw [hnamed claim hclaim named hnames, hnamed other hother others hnames']
    · rw [hnil] at hraw
      simp at hraw
  · intro hagree citation fields hpatched hselection claim hclaim named hnames
    rcases horigin with hall | ⟨hnil, references, hconflicts, hall⟩
    · rcases hpatched with ⟨hnil, hmem⟩ | ⟨raw, hzip, hlacks⟩
      · rw [hnil, List.forall₂_nil_left_iff] at hall
        rw [hall] at hmem
        simp at hmem
      · -- the table holds what some claim names, and the claims agree
        have hreads := (List.forall₂_iff_zip.mp hall).2 hzip
        obtain ⟨hid, fields', hselection', hlookup⟩ := lookup_of_lacksFields hlacks hreads
        rw [hselection, Option.some.injEq] at hselection'
        obtain ⟨other, hother, hnames'⟩ := htracks.named _ _ hlookup
        rw [hselection']
        exact hagree raw (List.of_mem_zip hzip).1 hlacks _ hid claim hclaim other hother _ _ hnames
          hnames'
    · have hmem : citation ∈ o.citations := by
        rcases hpatched with ⟨-, hmem⟩ | ⟨raw, hzip, -⟩
        · exact hmem
        · exact (List.of_mem_zip hzip).2
      obtain ⟨i, hi, rfl⟩ := List.mem_iff_getElem.mp hmem
      have hi' : i < references.length := hall.length_eq.symm ▸ hi
      have hreads := List.Forall₂.get hall hi' hi
      simp only [List.get_eq_getElem] at hreads
      obtain ⟨hid, fields', hselection', hlookup⟩ := lookup_of_shell hreads
      rw [hselection, Option.some.injEq] at hselection'
      rw [← hid] at hnames
      obtain ⟨first, hfirst, htracked⟩ := htracks.tracked claim hclaim _ _ hnames
      rw [hlookup, Option.some.injEq] at hfirst
      rcases htracked with hnormal | hconflict
      · have htexts : (fields'.map fun field => Value.str field.text) =
            (fields'.map LiveFactField.text).map Value.str := by
          rw [List.map_map]
          rfl
        rw [← hfirst, htexts] at hnormal
        rw [hselection', eq_of_normal_eq hnormal, htexts]
      · exact absurd hconflict (hconflicts _ (List.getElem_mem hi'))

/-- Wire compatibility is conservative exactly where the claims agree: an output is taken as it
is, and the citations that are patched are as the claims name them when no two claims name
different fields of a live citation that comes without its fields. -/
theorem compatibility_conservative_iff (I : Interpreter) (raw : Text) (value : Dict)
    (hdecode : decodeOutput I raw = some value) :
    (∀ o, readOutput value = some o → parseCoachProviderOutput I raw = some o) ∧
      ∀ o, parseCoachProviderOutput I raw = some o →
        (PatchedAsNamed value o ↔ SelectorsAgree value) := by
  rw [parse_eq, hdecode, Option.bind_some]
  constructor
  · intro o hread
    obtain ⟨e, hnormalize, hcurrent⟩ := normalize_of_read hread
    rw [hnormalize]
    exact hcurrent
  · intro o hparse
    obtain ⟨e, hnormalize, hcurrent⟩ := Option.bind_eq_some_iff.mp hparse
    exact patchedAsNamed_iff hnormalize hcurrent

/-! ### Two claims on one citation -/

/-- A claim on the citation `x` that names one field. -/
def namingClaim (claimId : Text) (ordinal : ℤ) (field : LiveFactField) : Dict :=
  [("claim_id", .str claimId), ("ordinal", .int ordinal), ("claim_type", .ofString "ERP_FACT"),
    ("text", .ofString "t"), ("citation_refs", .list [.ofString "x"]),
    ("fact_fields", .list [.str field.text])]

/-- The citation without its fields. -/
def bareCitation : Dict :=
  [("citation_type", .ofString "LIVE_ERP"), ("citation_id", .ofString "x")]

/-- Two claims that name different fields of it. -/
def clash : Dict :=
  [("answer_status", .ofString "ANSWERED"), ("answer", .ofString "a"),
    ("claims", .list [.dict (namingClaim "c" 1 .docstatus), .dict (namingClaim "d" 2 .status)]),
    ("citations", .list [.dict bareCitation])]

def clashText : Text := Json.render Interpreter.ascii (.dict clash)

/-- The output takes the fields of the first. -/
def clashOutput : ProviderOutput where
  answerStatus := .answered
  answer := "a"
  claims := [⟨"c", 1, .erpFact, "t", ["x"]⟩, ⟨"d", 2, .erpFact, "t", ["x"]⟩]
  citations := [.selector "x" [.docstatus]]
  refusalReason := none

structure ClashEvaluation : Prop where
  ascii : (clashText.all fun c => c.val < 0x80) = true
  length : clashText.length ≤ 64000
  loads : Json.loads Interpreter.ascii jsonHooks clashText = some (.dict clash)
  parse : (normalizeProviderCompatibility clash).bind readCurrent = some clashOutput

theorem clashEvaluation : ClashEvaluation where
  ascii := by decide +kernel
  length := by decide +kernel
  loads := by decide +kernel
  parse := by decide +kernel

theorem decodeOutput_clashText : decodeOutput Interpreter.ascii clashText = some clash := by
  obtain ⟨bytes, hbytes⟩ := Option.isSome_iff_exists.mp
    (isSome_encodeUtf8_of_ascii clashEvaluation.ascii)
  have hsize : ¬bytes.size > 256000 := by
    have hle := size_encodeUtf8_le hbytes
    have hlength := clashEvaluation.length
    omega
  simp only [decodeOutput, hbytes, clashEvaluation.loads, Option.bind_eq_bind, Option.bind_some]
  rw [if_neg hsize]

theorem compatibility_conservative_clash :
    (∀ o, readOutput clash = some o →
      parseCoachProviderOutput Interpreter.ascii clashText = some o) ∧
      ∀ o, parseCoachProviderOutput Interpreter.ascii clashText = some o →
        (PatchedAsNamed clash o ↔ SelectorsAgree clash) :=
  compatibility_conservative_iff Interpreter.ascii clashText clash decodeOutput_clashText

theorem not_selectorsAgree_clash : ¬SelectorsAgree clash := by
  intro h
  have hnames : ∀ claimId ordinal field,
      Names (namingClaim claimId ordinal field) "x" [.str field.text] :=
    fun _ _ _ => ⟨rfl, _, rfl, List.mem_singleton_self _⟩
  have hsame := h bareCitation (List.mem_singleton_self _) ⟨rfl, by decide⟩ "x" rfl
    (namingClaim "c" 1 .docstatus) List.mem_cons_self (namingClaim "d" 2 .status)
    (List.mem_cons_of_mem _ List.mem_cons_self) _ _ (hnames _ _ _) (hnames _ _ _)
  exact absurd hsame (by decide)

/-- The second claim named another field than the citation it refers to is given. -/
theorem not_patchedAsNamed_clash :
    decodeOutput Interpreter.ascii clashText = some clash ∧
      parseCoachProviderOutput Interpreter.ascii clashText = some clashOutput ∧
      ¬PatchedAsNamed clash clashOutput := by
  obtain ⟨e, hnormalize, hread⟩ := Option.bind_eq_some_iff.mp clashEvaluation.parse
  refine ⟨decodeOutput_clashText, ?_, ?_⟩
  · rw [parse_eq, decodeOutput_clashText, Option.bind_some]
    exact clashEvaluation.parse
  · rw [patchedAsNamed_iff hnormalize hread]
    exact not_selectorsAgree_clash

end Coach
