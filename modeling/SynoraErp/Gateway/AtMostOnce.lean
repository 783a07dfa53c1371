import SynoraErp.Gateway.Promises
import SynoraErp.Gateway.Serving

/-!
# At most one run of a handler

Over every interleaving of requests, each of which may stop at any call: a handler runs
once at most for an invocation, whoever is answered for it is answered alike, and requests
that share a row have one identity.
-/

namespace Gateway

open Python
open Governance (Exn Result Uuid Digest sha256)
open Transition (Path Config Event System Step)

variable {ι : Type} {I : Interpreter}

/-- The request gets past the checks of a reservation: it has this identity and uses the row
under this id. -/
def Uses (I : Interpreter) (request : ReceivedRequest) (x : Identity) (id : Digest) : Prop :=
  ∃ metadata spec, validateWorkflowMetadata I request = .ok metadata ∧
    getToolSpec request.tool.name request.tool.version = .ok spec ∧
      x = request.identity metadata ∧ id = metadata.invocationId

theorem Uses.hashes {request : ReceivedRequest} {x : Identity} {id : Digest}
    (h : Uses I request x id) : x.Hashes id := by
  obtain ⟨metadata, spec, hmetadata, hspec, rfl, rfl⟩ := h
  exact hashes_of_validate hmetadata hspec

/-- What holds of the invocations in a database and its history. -/
structure AtMostOnce (I : Interpreter) (s : Database ι) : Prop where
  /-- A handler runs after the commit of its row, and once at most for an identity. -/
  reserved : ∀ h ∈ s.handled, s.committed h.invocationId ≠ none
  handled : ∀ x : Identity, (s.handled.filter fun h => h.identity = x).length ≤ 1
  /-- The digest of a response is the one that is stored. -/
  answered : ∀ a ∈ s.answers, ∃ row, s.committed a.invocationId = some row ∧
    row.status = .succeeded ∧ ∃ text bytes, Json.dumpsLimited I (.dict a.response) = some text ∧
      Text.encodeUtf8 text = some bytes ∧ row.observationDigest = some (sha256 bytes)
  /-- One identity has one response. -/
  agree : ∀ a ∈ s.answers, ∀ b ∈ s.answers, a.identity = b.identity → a.response = b.response
  /-- A row has the identity of the requests that use it. -/
  shared : ∀ id row, s.committed id = some row → ∀ request x, Uses I request x id →
    (x = row.identity ∨ x.Collide row.identity) ∧
      ∀ request' x', Uses I request' x' id → x = x' ∨ x.Collide x'

theorem length_filter_handled {s : Database ι} (h : s.Consistent I) (x : Identity) :
    (s.handled.filter fun h => h.identity = x).length ≤ 1 := by
  by_contra hlength
  obtain ⟨a, b, rest, heq⟩ : ∃ a b rest,
      (s.handled.filter fun h => h.identity = x) = a :: b :: rest := by
    rcases hlist : s.handled.filter fun h => h.identity = x with _ | ⟨a, _ | ⟨b, rest⟩⟩
    · simp [hlist] at hlength
    · simp [hlist] at hlength
    · exact ⟨a, b, rest, hlist⟩
  have hmem : ∀ c ∈ a :: b :: rest, c ∈ s.handled ∧ c.identity = x := by
    intro c hc
    rw [← heq, List.mem_filter] at hc
    exact ⟨hc.1, of_decide_eq_true hc.2⟩
  obtain ⟨ha, hax⟩ := hmem a (by simp)
  obtain ⟨hb, hbx⟩ := hmem b (by simp)
  -- One identity has one id, and no id is handled twice.
  have hid : a.invocationId = b.invocationId := by
    apply Identity.Hashes.unique (x := x)
    · rw [← hax]
      exact (h.handled a ha).2
    · rw [← hbx]
      exact (h.handled b hb).2
  have hsublist : [a.invocationId, b.invocationId].Sublist s.handledIds := by
    have hfilter := (List.filter_sublist (p := fun h : Handling => h.identity = x)
      (l := s.handled)).map Handling.invocationId
    rw [heq] at hfilter
    exact .trans (.cons_cons _ (.cons_cons _ (List.nil_sublist _))) hfilter
  have hnodup := h.handledOnce.sublist hsublist
  simp [hid] at hnodup

theorem Database.Consistent.atMostOnce {s : Database ι} (h : s.Consistent I) :
    AtMostOnce I s where
  reserved x hx := (h.handled x hx).1
  handled x := length_filter_handled h x
  answered a ha := by
    obtain ⟨-, row, hrow, hsucceeded, text, bytes, hpublishes, -, hdigest⟩ := h.answered a ha
    exact ⟨row, hrow, hsucceeded, text, bytes, hpublishes.writes, hpublishes.encodes, hdigest⟩
  agree a ha b hb heq := by
    obtain ⟨hhashes, row, hrow, hanswers⟩ := h.answered a ha
    obtain ⟨hhashes', row', hrow', hanswers'⟩ := h.answered b hb
    rw [heq] at hhashes
    rw [hhashes.unique hhashes'] at hrow
    obtain rfl := Option.some.inj (hrow.symm.trans hrow')
    exact hanswers.unique hanswers'
  shared id row hrow request x huses :=
    ⟨huses.hashes.eq_or_collide (h.stored id row hrow).hashes,
      fun _ _ huses' => huses.hashes.eq_or_collide huses'.hashes⟩

variable [DecidableEq ι]

/-- Whatever requests are made and however their calls interleave. -/
theorem atMostOnce_of_path (hI : Json.ReadsDoubles I)
    {trace : List (Step (Config ι (Database ι) Call Call.Reply Exn Unit) (Event ι))}
    {w : Config ι (Database ι) Call Call.Reply Exn Unit}
    (hpath : Path (RequestStep I) ⟨.empty, fun _ => none⟩ trace w) :
    AtMostOnce I w.environment := by
  have hstart : (requests I).Keeps (fun _ _ _ => True)
      (⟨.empty, fun _ => none⟩ : Config ι (Database ι) Call Call.Reply Exn Unit) :=
    ⟨Database.consistent_empty, fun i p hp => by cases hp⟩
  have hconsistent : w.environment.Consistent I :=
    System.invariant_of_meets (S := requests I) (Q := fun _ _ _ => True)
      (fun i p s hp hs => meets_entry hI hp hs) (fun _ _ _ _ hp => by cases hp) hpath hstart
  exact hconsistent.atMostOnce

/-- A look-up that is handled, and answered again to a second request for it. -/
theorem atMostOnce_of_replayed :
    ∃ (trace : List (Step (Config ℕ (Database ℕ) Call Call.Reply Exn Unit) (Event ℕ)))
      (w : Config ℕ (Database ℕ) Call Call.Reply Exn Unit) (x : Identity) (id : Digest)
      (response : Dict),
      Path (RequestStep Interpreter.fractional) ⟨.empty, fun _ => none⟩ trace w ∧
        w.environment.handled = [⟨x, id⟩] ∧
        w.environment.answers = [⟨x, id, response⟩, ⟨x, id, response⟩] ∧
        AtMostOnce Interpreter.fractional w.environment := by
  obtain ⟨trace, w, x, id, response, hpath, hhandled, hanswers⟩ := served_lookup
  exact ⟨trace, w, x, id, response, hpath, hhandled, hanswers,
    atMostOnce_of_path Json.readsDoubles_fractional hpath⟩

end Gateway
