import SynoraErp.Agent.Secrets
import SynoraErp.Python.Masked
import SynoraErp.Python.Value

/-!
# Redaction

`_redact` and `TraceRecorder`. The secrets are replaced one after another in the order of
the set, which is any order; the keys of an object are kept as they are.
-/

namespace Agent

open Python

def maxTraceDepth : ℕ := 4

def maxTraceItems : ℕ := 64

def maxTraceString : ℕ := 4000

/-- `_SAFE_TRACE_USAGE_KEYS`. -/
def safeTraceUsageKeys : List Text :=
  [("prompt_tokens" : Text), "completion_tokens", "reasoning_tokens", "actual_prompt_tokens"]

/-- The words of `_SENSITIVE_KEY`. -/
def sensitiveKeyWords : List String :=
  ["secret", "password", "passwd", "token", "capability", "apikey", "api_key", "api-key",
    "authorization", "cookie", "prompt"]

def redactionMarker : Text := "[REDACTED]"

def truncationMarker : Text := "[TRUNCATED]"

section

variable (W : WordClass)

/-- What `_SENSITIVE_TEXT` takes at a place. -/
def sensitiveAt (left : Option CodePoint) (t : Text) : Option Text :=
  (secretAt W left t).map fun rest => t.take (t.length - rest.length)

/-- `_SENSITIVE_TEXT.sub("[REDACTED]", text)`. -/
def substituteSensitive (t : Text) : Text :=
  substitute redactionMarker (sensitiveAt W) none 0 t

/-- The replacement of the secrets, one after another. -/
def replaceSecrets (secretValues : List Text) (t : Text) : Text :=
  secretValues.foldl (fun redacted secret =>
    if secret = [] then redacted else replaceAll redactionMarker secret redacted) t

/-- `_redact` of a text. -/
def redactText (secretValues : List Text) (t : Text) : Text :=
  substituteSensitive W ((replaceSecrets secretValues t).take maxTraceString)

/-- A count of tokens under one of its keys. -/
def isSafeUsage (key : Text) : Value → Bool
  | .int n => safeTraceUsageKeys.contains key && decide (0 ≤ n)
  | _ => false

mutual

/-- `_redact`. -/
def redact (secretValues : List Text) (depth : ℕ) : Value → Value
  | .str t =>
      if maxTraceDepth < depth then .str truncationMarker else .str (redactText W secretValues t)
  | .list xs =>
      if maxTraceDepth < depth then .str truncationMarker
      else .list (redactItems secretValues (depth + 1) maxTraceItems xs)
  | .dict d =>
      if maxTraceDepth < depth then .str truncationMarker
      else .dict (redactEntries secretValues (depth + 1) maxTraceItems d)
  | v => if maxTraceDepth < depth then .str truncationMarker else v

/-- `[_redact(child, …) for child in value[:count]]`. -/
def redactItems (secretValues : List Text) (depth : ℕ) : ℕ → List Value → List Value
  | 0, _ => []
  | _ + 1, [] => []
  | count + 1, x :: xs => redact secretValues depth x :: redactItems secretValues depth count xs

/-- The loop over `list(value.items())[:count]`. -/
def redactEntries (secretValues : List Text) (depth : ℕ) : ℕ → Dict → Dict
  | 0, _ => []
  | _ + 1, [] => []
  | count + 1, (key, child) :: d =>
      (key,
        if isSafeUsage key child then child
        else if hasWord sensitiveKeyWords key then .str redactionMarker
        else redact secretValues depth child) :: redactEntries secretValues depth count d

end

/-! ## The recorder -/

mutual

/-- `_validate_json_value`: every number is finite. -/
def isFinite : Value → Bool
  | .float (.finite _) => true
  | .float _ => false
  | .list xs => areFinite xs
  | .dict d => areFiniteEntries d
  | _ => true

def areFinite : List Value → Bool
  | [] => true
  | x :: xs => isFinite x && areFinite xs

def areFiniteEntries : Dict → Bool
  | [] => true
  | (_, v) :: d => isFinite v && areFiniteEntries d

end

structure TraceEvent where
  sequence : ℕ
  eventType : Text
  timestamp : Text
  payload : Dict

structure TraceRecorder where
  secretValues : List Text
  events : List TraceEvent := []

/-- `TraceRecorder.add`; `none` is the refusal of a number that is not finite. -/
def TraceRecorder.add (r : TraceRecorder) (now eventType : Text) (payload : Dict) :
    Option (TraceEvent × TraceRecorder) :=
  match redact W r.secretValues 0 (.dict payload) with
  | .dict safePayload =>
      if areFiniteEntries safePayload then
        let event : TraceEvent := ⟨r.events.length + 1, eventType, now, safePayload⟩
        some (event, { r with events := r.events ++ [event] })
      else none
  | _ => none

/-! ## What reaches an event -/

mutual

/-- The texts anywhere in a value: its strings and its keys. -/
def textsOf : Value → List Text
  | .str t => [t]
  | .list xs => textsOfItems xs
  | .dict d => textsOfEntries d
  | _ => []

def textsOfItems : List Value → List Text
  | [] => []
  | x :: xs => textsOf x ++ textsOfItems xs

def textsOfEntries : Dict → List Text
  | [] => []
  | (key, v) :: d => key :: textsOf v ++ textsOfEntries d

end

mutual

/-- The texts that reach an event without being redacted: the keys that are kept, and the
marker of what is cut off. -/
def verbatim (depth : ℕ) : Value → List Text
  | .list xs =>
      if maxTraceDepth < depth then [truncationMarker]
      else verbatimItems (depth + 1) maxTraceItems xs
  | .dict d =>
      if maxTraceDepth < depth then [truncationMarker]
      else verbatimEntries (depth + 1) maxTraceItems d
  | _ => if maxTraceDepth < depth then [truncationMarker] else []

def verbatimItems (depth : ℕ) : ℕ → List Value → List Text
  | 0, _ => []
  | _ + 1, [] => []
  | count + 1, x :: xs => verbatim depth x ++ verbatimItems depth count xs

def verbatimEntries (depth : ℕ) : ℕ → Dict → List Text
  | 0, _ => []
  | _ + 1, [] => []
  | count + 1, (key, child) :: d =>
      (key ::
        if isSafeUsage key child || hasWord sensitiveKeyWords key then []
        else verbatim depth child) ++ verbatimEntries depth count d

end

mutual

/-- The texts that are redacted and then reach an event. -/
def rewritten (depth : ℕ) : Value → List Text
  | .str t => if maxTraceDepth < depth then [] else [t]
  | .list xs =>
      if maxTraceDepth < depth then [] else rewrittenItems (depth + 1) maxTraceItems xs
  | .dict d =>
      if maxTraceDepth < depth then [] else rewrittenEntries (depth + 1) maxTraceItems d
  | _ => []

def rewrittenItems (depth : ℕ) : ℕ → List Value → List Text
  | 0, _ => []
  | _ + 1, [] => []
  | count + 1, x :: xs => rewritten depth x ++ rewrittenItems depth count xs

def rewrittenEntries (depth : ℕ) : ℕ → Dict → List Text
  | 0, _ => []
  | _ + 1, [] => []
  | count + 1, (key, child) :: d =>
      (if isSafeUsage key child || hasWord sensitiveKeyWords key then []
        else rewritten depth child) ++ rewrittenEntries depth count d

end

/-- The secrets that are not part of the marker itself. -/
def IsProper (secretValues : List Text) (secret : Text) : Prop :=
  secret ∈ secretValues ∧ ¬secret <:+: redactionMarker

/-- A text with no secret in it. -/
def Hides (secretValues : List Text) (t : Text) : Prop :=
  ∀ secret, IsProper secretValues secret → ¬secret <:+: t

/-! ## What markers spell out -/

/-- Something of a text is replaced: a secret, or what the pattern takes. -/
def Replaced (W : WordClass) (secretValues : List Text) (t : Text) : Prop :=
  (∃ secret ∈ secretValues, secret ≠ [] ∧ secret <:+: t) ∨
    hasSecret W none (t.take maxTraceString) = true

/-- `replaceSecrets`, with a stamp on what comes from a marker. -/
def stampedSecrets (secretValues : List Text) (z : List (CodePoint × Bool)) :
    List (CodePoint × Bool) :=
  secretValues.foldl (fun redacted secret =>
    if secret = [] then redacted else stampedReplaceAll redactionMarker secret redacted) z

/-- `redactText`, with a stamp on what comes from a marker. -/
def stampedText (W : WordClass) (secretValues : List Text) (t : Text) :
    List (CodePoint × Bool) :=
  stampedSubstitute redactionMarker (sensitiveAt W) none
    ((stampedSecrets secretValues (unstamped t)).take maxTraceString)

/-- A marker that is put into a text is a part of the secret: with what stands next to it, it
spells the secret out. -/
def Completed (W : WordClass) (secretValues : List Text) (t secret : Text) : Prop :=
  ∃ z, z <:+: stampedText W secretValues t ∧ z.map Prod.fst = secret ∧ ∃ c ∈ z, c.2 = true

end

section

variable {W : WordClass} {secretValues : List Text}

theorem hides_redactionMarker : Hides secretValues redactionMarker :=
  fun _ hsecret => hsecret.2

theorem replaceSecrets_append (earlier : List Text) (secret t : Text) :
    replaceSecrets (earlier ++ [secret]) t =
      if secret = [] then replaceSecrets earlier t
      else replaceAll redactionMarker secret (replaceSecrets earlier t) := by
  rw [replaceSecrets, List.foldl_append]
  rfl

theorem stampedSecrets_append (earlier : List Text) (secret : Text)
    (z : List (CodePoint × Bool)) :
    stampedSecrets (earlier ++ [secret]) z =
      if secret = [] then stampedSecrets earlier z
      else stampedReplaceAll redactionMarker secret (stampedSecrets earlier z) := by
  rw [stampedSecrets, List.foldl_append]
  rfl

theorem map_fst_stampedSecrets (z : List (CodePoint × Bool)) :
    (stampedSecrets secretValues z).map Prod.fst = replaceSecrets secretValues (z.map Prod.fst) := by
  induction secretValues using List.reverseRecOn with
  | nil => rfl
  | append_singleton earlier last ih =>
      rw [stampedSecrets_append, replaceSecrets_append]
      split_ifs
      · exact ih
      · rw [map_fst_stampedReplaceAll, ih]

/-- Without the stamps it is the redacted text. -/
theorem map_fst_stampedText (t : Text) :
    (stampedText W secretValues t).map Prod.fst = redactText W secretValues t := by
  rw [stampedText, stampedSubstitute, map_fst_substitute, List.map_take, map_fst_stampedSecrets,
    map_fst_unstamped]
  rfl

/-- Of a secret nothing is left, in any order of the secrets, but where a marker has a part in
it. -/
theorem not_infix_stampedSecrets {z : List (CodePoint × Bool)} (hne : z ≠ [])
    (hz : ∀ c ∈ z, c.2 = false) (hmem : z.map Prod.fst ∈ secretValues)
    (y : List (CodePoint × Bool)) : ¬z <:+: stampedSecrets secretValues y := by
  have hmarker : redactionMarker ≠ [] := by decide
  have hsecret : z.map Prod.fst ≠ [] := by simpa using hne
  induction secretValues using List.reverseRecOn with
  | nil => cases hmem
  | append_singleton earlier last ih =>
      rw [stampedSecrets_append]
      intro hoccurs
      rw [List.mem_append, List.mem_singleton] at hmem
      by_cases hnil : last = []
      · rw [if_pos hnil] at hoccurs
        exact ih (hmem.resolve_right fun heq => hsecret (heq.trans hnil)) hoccurs
      · rw [if_neg hnil] at hoccurs
        obtain hmem | rfl := hmem
        · exact ih hmem (infix_of_stampedSubstitute hmarker hne hz hoccurs)
        · exact not_infix_stampedReplaceAll hmarker hne hz _ hoccurs

theorem Completed.infix {t secret : Text} (h : Completed W secretValues t secret) :
    secret <:+: redactText W secretValues t := by
  obtain ⟨z, hoccurs, rfl, -⟩ := h
  rw [← map_fst_stampedText]
  exact hoccurs.map Prod.fst

/-- A redacted text hides the secrets exactly where no marker completes one. -/
theorem hides_redactText_iff (t : Text) :
    Hides secretValues (redactText W secretValues t) ↔
      ∀ secret, IsProper secretValues secret → ¬Completed W secretValues t secret := by
  constructor
  · exact fun h secret hsecret hcompleted => h secret hsecret hcompleted.infix
  · intro h secret hsecret hoccurs
    rw [← map_fst_stampedText] at hoccurs
    obtain ⟨z, hz, rfl⟩ := List.infix_map_iff.mp hoccurs
    by_cases hmarked : ∃ c ∈ z, c.2 = true
    · exact h _ hsecret ⟨z, hz, rfl, hmarked⟩
    · -- Without a part of a marker in it, the secret was there before the first replacement.
      have hkept : ∀ c ∈ z, c.2 = false := fun c hc =>
        Bool.eq_false_iff.mpr fun htrue => hmarked ⟨c, hc, htrue⟩
      have hne : z ≠ [] := by
        rintro rfl
        exact hsecret.2 List.nil_infix
      have htaken := infix_of_stampedSubstitute (by decide) hne hkept hz
      exact not_infix_stampedSecrets hne hkept hsecret.1 _
        (htaken.trans (List.take_prefix _ _).isInfix)

/-- A secret that does not straddle the marker is gone once it is replaced. -/
theorem not_infix_replaceSecrets {secret : Text} (hsecret : IsProper secretValues secret)
    (hstraddle : ¬Straddles redactionMarker secret) (t : Text) :
    ¬secret <:+: replaceSecrets secretValues t := by
  obtain ⟨hmem, hmarker⟩ := hsecret
  induction secretValues using List.reverseRecOn with
  | nil => cases hmem
  | append_singleton earlier last ih =>
      rw [replaceSecrets_append]
      rw [List.mem_append, List.mem_singleton] at hmem
      by_cases hnil : last = []
      · rw [if_pos hnil]
        obtain hmem | rfl := hmem
        · exact ih hmem
        · exact absurd (by rw [hnil]; exact List.nil_infix) hmarker
      · rw [if_neg hnil]
        obtain hmem | rfl := hmem
        · exact not_infix_of_masked (masked_replaceAll last _) hstraddle hmarker (ih hmem)
        · exact not_infix_replaceAll hstraddle hmarker _

/-- A marker completes only what straddles it. -/
theorem Completed.straddles {t secret : Text} (h : Completed W secretValues t secret)
    (hsecret : IsProper secretValues secret) : Straddles redactionMarker secret := by
  by_contra hstraddle
  refine not_infix_of_masked (masked_substitute _ _ none _) hstraddle hsecret.2 ?_ h.infix
  intro hoccurs
  exact not_infix_replaceSecrets hsecret hstraddle t
    (hoccurs.trans (List.take_prefix _ _).isInfix)

/-- Where no secret is in a text, nothing is replaced. -/
theorem stampedSecrets_unstamped {t : Text}
    (h : ∀ secret ∈ secretValues, secret ≠ [] → ¬secret <:+: t) :
    stampedSecrets secretValues (unstamped t) = unstamped t := by
  induction secretValues using List.reverseRecOn with
  | nil => rfl
  | append_singleton earlier last ih =>
      rw [stampedSecrets_append, ih fun secret hmem => h secret (List.mem_append_left _ hmem)]
      split_ifs with hnil
      · rfl
      · apply substitute_eq_self
        intro left u hsuffix
        have hnot : ¬last <+: u.map Prod.fst := by
          intro hstarts
          have hoccurs := hstarts.isInfix.trans (hsuffix.map Prod.fst).isInfix
          rw [map_fst_unstamped] at hoccurs
          exact h last (List.mem_append_right _ List.mem_cons_self) hnil hoccurs
        simp [stampedFind, hnot]

/-- Where the pattern takes nothing, nothing is replaced. -/
theorem stampedSensitive_eq_self {left : Option (CodePoint × Bool)}
    {z : List (CodePoint × Bool)}
    (h : hasSecret W (left.map Prod.fst) (z.map Prod.fst) = false) :
    stampedSubstitute redactionMarker (sensitiveAt W) left z = z := by
  induction z generalizing left with
  | nil => rfl
  | cons c z ih =>
      rw [List.map_cons, hasSecret, Bool.or_eq_false_iff] at h
      have hnone : stampedFind (sensitiveAt W) left (c :: z) = none := by
        simpa [stampedFind, sensitiveAt] using h.1
      rw [stampedSubstitute, substitute, hnone]
      exact congrArg (List.cons c) (ih h.2)

/-- A marker completes something only in a text in which something is replaced. -/
theorem Completed.replaced {t secret : Text} (h : Completed W secretValues t secret) :
    Replaced W secretValues t := by
  by_contra hreplaced
  rw [Replaced, not_or, Bool.not_eq_true] at hreplaced
  obtain ⟨hsecrets, hpattern⟩ := hreplaced
  obtain ⟨z, hz, -, c, hc, hmarked⟩ := h
  rw [stampedText, stampedSecrets_unstamped fun secret hmem hne hoccurs =>
    hsecrets ⟨secret, hmem, hne, hoccurs⟩, stampedSensitive_eq_self] at hz
  · obtain ⟨d, -, rfl⟩ := List.mem_map.mp (List.mem_of_mem_take (hz.subset hc))
    cases hmarked
  · rw [List.map_take, map_fst_unstamped]
    exact hpattern

/-! ## Events -/

/-- The texts of a value hide the secrets: those that reach an event unredacted do, and no
marker completes a secret in the others. -/
def HidesIn (W : WordClass) (secretValues : List Text) (kept rewritten : List Text) : Prop :=
  (∀ t ∈ kept, Hides secretValues t) ∧
    ∀ t ∈ rewritten, ∀ secret, IsProper secretValues secret → ¬Completed W secretValues t secret

theorem hidesIn_append {kept rewritten kept' rewritten' : List Text} :
    HidesIn W secretValues (kept ++ kept') (rewritten ++ rewritten') ↔
      HidesIn W secretValues kept rewritten ∧ HidesIn W secretValues kept' rewritten' := by
  simp only [HidesIn, List.forall_mem_append]
  exact and_and_and_comm

theorem hidesIn_nil {kept : List Text} :
    HidesIn W secretValues kept [] ↔ ∀ t ∈ kept, Hides secretValues t := by
  simp [HidesIn]

mutual

/-- A redacted value hides the secrets exactly where what reaches it unredacted does and no
marker completes one. -/
theorem hides_textsOf_redact (depth : ℕ) : ∀ v : Value,
    (∀ t ∈ textsOf (redact W secretValues depth v), Hides secretValues t) ↔
      HidesIn W secretValues (verbatim depth v) (rewritten depth v)
  | .str t => by
      by_cases hdepth : maxTraceDepth < depth
      · simp [redact, verbatim, rewritten, hdepth, textsOf, hidesIn_nil]
      · simp [redact, verbatim, rewritten, hdepth, textsOf, HidesIn, hides_redactText_iff]
  | .list xs => by
      rw [redact, verbatim, rewritten]
      by_cases hdepth : maxTraceDepth < depth
      · rw [if_pos hdepth, if_pos hdepth, if_pos hdepth, textsOf, hidesIn_nil]
      · rw [if_neg hdepth, if_neg hdepth, if_neg hdepth, textsOf]
        exact hides_textsOf_redactItems (depth + 1) maxTraceItems xs
  | .dict d => by
      rw [redact, verbatim, rewritten]
      by_cases hdepth : maxTraceDepth < depth
      · rw [if_pos hdepth, if_pos hdepth, if_pos hdepth, textsOf, hidesIn_nil]
      · rw [if_neg hdepth, if_neg hdepth, if_neg hdepth, textsOf]
        exact hides_textsOf_redactEntries (depth + 1) maxTraceItems d
  | .none | .bool _ | .int _ | .float _ => by
      by_cases hdepth : maxTraceDepth < depth
      · simp [redact, verbatim, rewritten, hdepth, textsOf, hidesIn_nil]
      · simp [redact, verbatim, rewritten, hdepth, textsOf, hidesIn_nil]

theorem hides_textsOf_redactItems (depth : ℕ) :
    ∀ (count : ℕ) (xs : List Value),
      (∀ t ∈ textsOfItems (redactItems W secretValues depth count xs), Hides secretValues t) ↔
        HidesIn W secretValues (verbatimItems depth count xs) (rewrittenItems depth count xs)
  | 0, xs => by rw [redactItems, verbatimItems, rewrittenItems, textsOfItems, hidesIn_nil]
  | _ + 1, [] => by rw [redactItems, verbatimItems, rewrittenItems, textsOfItems, hidesIn_nil]
  | count + 1, x :: xs => by
      rw [redactItems, verbatimItems, rewrittenItems, textsOfItems, List.forall_mem_append,
        hidesIn_append, hides_textsOf_redact depth x, hides_textsOf_redactItems depth count xs]

theorem hides_textsOf_redactEntries (depth : ℕ) :
    ∀ (count : ℕ) (d : Dict),
      (∀ t ∈ textsOfEntries (redactEntries W secretValues depth count d), Hides secretValues t) ↔
        HidesIn W secretValues (verbatimEntries depth count d) (rewrittenEntries depth count d)
  | 0, d => by
      rw [redactEntries, verbatimEntries, rewrittenEntries, textsOfEntries, hidesIn_nil]
  | _ + 1, [] => by
      rw [redactEntries, verbatimEntries, rewrittenEntries, textsOfEntries, hidesIn_nil]
  | count + 1, (key, child) :: d => by
      rw [redactEntries, verbatimEntries, rewrittenEntries, textsOfEntries,
        List.forall_mem_append, hidesIn_append, hides_textsOf_redactEntries depth count d,
        List.forall_mem_cons]
      refine and_congr_left fun _ => ?_
      have hkey : ∀ kept rewritten : List Text,
          HidesIn W secretValues (key :: kept) rewritten ↔
            Hides secretValues key ∧ HidesIn W secretValues kept rewritten := by
        intro kept rewritten
        rw [HidesIn, HidesIn, List.forall_mem_cons, and_assoc]
      rw [hkey]
      refine and_congr_right fun _ => ?_
      by_cases hsafe : isSafeUsage key child = true
      · cases child with
        | int n => simp [hsafe, textsOf, hidesIn_nil]
        | none | bool _ | float _ | str _ | list _ | dict _ => cases hsafe
      · by_cases hsensitive : hasWord sensitiveKeyWords key = true
        · simp [hsafe, hsensitive, textsOf, hides_redactionMarker, hidesIn_nil]
        · simpa [hsafe, hsensitive] using hides_textsOf_redact depth child

end

theorem add_eq_some {r r' : TraceRecorder} {now eventType : Text} {payload : Dict}
    {event : TraceEvent} (h : r.add W now eventType payload = some (event, r')) :
    redact W r.secretValues 0 (.dict payload) = .dict event.payload ∧
      r' = { r with events := r.events ++ [event] } := by
  unfold TraceRecorder.add at h
  split at h
  · rename_i safePayload hsafe
    split_ifs at h with hfinite
    obtain ⟨rfl, rfl⟩ := Prod.mk.inj (Option.some.inj h)
    exact ⟨hsafe, rfl⟩
  · cases h

/-- An event hides all secrets exactly when the keys that are kept do, and the marker of what
is cut off, if anything is, and no marker completes a secret in a text. It completes only what
straddles it, in a text in which something is replaced. -/
theorem add_hides_iff {r r' : TraceRecorder} {now eventType : Text} {payload : Dict}
    {event : TraceEvent} (h : r.add W now eventType payload = some (event, r')) :
    ((∀ t ∈ textsOf (.dict event.payload), Hides r.secretValues t) ↔
      (∀ t ∈ verbatim 0 (.dict payload), Hides r.secretValues t) ∧
        ∀ t ∈ rewritten 0 (.dict payload), ∀ secret, IsProper r.secretValues secret →
          ¬Completed W r.secretValues t secret) ∧
      ∀ t secret, IsProper r.secretValues secret → Completed W r.secretValues t secret →
        Straddles redactionMarker secret ∧ Replaced W r.secretValues t := by
  constructor
  · rw [← (add_eq_some h).1]
    exact hides_textsOf_redact 0 (.dict payload)
  · exact fun t secret hsecret hcompleted => ⟨hcompleted.straddles hsecret, hcompleted.replaced⟩

end

/-- A recorder with a secret that straddles the marker, and one that does not. -/
def pinRecorder : TraceRecorder where
  secretValues := ["pin[", "4711"]

/-- The theorem at a payload in which a secret is replaced next to no part of the other. -/
theorem add_hides_iff_note :
    ∃ event r', pinRecorder.add WordClass.ascii "" "tool.observed"
        [("step", .int 1), ("note", .str "card 4711")] = some (event, r') ∧
      event.payload = [(Text.ofString "step", Value.int 1),
        (Text.ofString "note", Value.str "card [REDACTED]")] ∧
      ∀ t ∈ textsOf (.dict event.payload), Hides pinRecorder.secretValues t := by
  have hadd : pinRecorder.add WordClass.ascii "" "tool.observed"
      [("step", .int 1), ("note", .str "card 4711")] =
        some (⟨1, "tool.observed", "", [("step", .int 1), ("note", .str "card [REDACTED]")]⟩,
          _) := rfl
  have hverbatim : verbatim 0 (.dict [("step", .int 1), ("note", .str "card 4711")]) =
      [Text.ofString "step", Text.ofString "note"] := rfl
  have hrewritten : rewritten 0 (.dict [("step", .int 1), ("note", .str "card 4711")]) =
      [Text.ofString "card 4711"] := rfl
  refine ⟨_, _, hadd, rfl, (add_hides_iff hadd).1.mpr ⟨?_, ?_⟩⟩
  · have hkeys : ∀ t ∈ [Text.ofString "step", Text.ofString "note"],
        ∀ secret ∈ pinRecorder.secretValues, ¬secret <:+: t := by decide
    rw [hverbatim]
    exact fun t ht secret hsecret => hkeys t ht secret hsecret.1
  · rw [hrewritten, List.forall_mem_singleton]
    rintro secret ⟨hmem, -⟩ hcompleted
    rcases List.mem_pair.mp hmem with rfl | rfl
    · exact absurd hcompleted.infix (by decide)
    · exact absurd hcompleted.infix (by decide)

/-- A recorder with one secret. -/
def keyRecorder : TraceRecorder where
  secretValues := ["sk-live-1"]

/-- A secret that is a key reaches the event, and a marker can complete a secret with what
stands next to it. -/
theorem secrets_reach_events :
    (∃ event r', keyRecorder.add WordClass.ascii "" "tool.observed"
        [("sk-live-1", .int 1)] = some (event, r') ∧
      ¬∀ t ∈ textsOf (.dict event.payload), Hides keyRecorder.secretValues t) ∧
    ∃ event r', (TraceRecorder.mk ["pin[", "4711"] []).add WordClass.ascii "" "tool.observed"
        [("note", .str "pin4711")] = some (event, r') ∧
      ¬∀ t ∈ textsOf (.dict event.payload), Hides [("pin[" : Text), "4711"] t := by
  constructor
  · refine ⟨⟨1, "tool.observed", "", [("sk-live-1", .int 1)]⟩, _, rfl, fun hhides => ?_⟩
    exact hhides "sk-live-1" List.mem_cons_self "sk-live-1" ⟨List.mem_cons_self, by decide⟩
      (List.infix_refl _)
  · refine ⟨⟨1, "tool.observed", "", [("note", .str "pin[REDACTED]")]⟩, _, rfl, fun hhides => ?_⟩
    exact hhides "pin[REDACTED]" (by simp [textsOf, textsOfEntries]) "pin["
      ⟨List.mem_cons_self, by decide⟩ (by decide)

end Agent
