import SynoraErp.Python.JsonRoundTrip

/-!
# Canonical texts

What `json.dumps` with sorted keys writes of any value is read back as that value in key
order, and written again as the same text. A value is taken as the interpreter holds it:
its finite floats are doubles, the keys of its objects differ.
-/

namespace Python

namespace Json

mutual

/-- The values an interpreter can hold. -/
def Held : Value → Prop
  | .float (.finite q) => isDouble q = true
  | .list xs => HeldItems xs
  | .dict entries => (Dict.keys entries).Nodup ∧ HeldEntries entries
  | _ => True

def HeldItems : List Value → Prop
  | [] => True
  | x :: xs => Held x ∧ HeldItems xs

def HeldEntries : List (Text × Value) → Prop
  | [] => True
  | (_, v) :: entries => Held v ∧ HeldEntries entries

end

mutual

/-- No integer of the value is past the digit limit. -/
def printable : Value → Bool
  | .int n => (natDigits n.natAbs).length ≤ maxStrDigits
  | .list xs => printableItems xs
  | .dict entries => printableEntries entries
  | _ => true

def printableItems : List Value → Bool
  | [] => true
  | x :: xs => printable x && printableItems xs

def printableEntries : List (Text × Value) → Bool
  | [] => true
  | (_, v) :: entries => printable v && printableEntries entries

end

/-- `json.dumps`, with the `ValueError` of an integer past the digit limit. -/
def dumpsLimited (I : Interpreter) (v : Value) : Option Text :=
  if printable v = true then dumps I v else none

theorem dumpsLimited_eq_some {I : Interpreter} {v : Value} {t : Text} :
    dumpsLimited I v = some t ↔
      printable v = true ∧ allFinite v = true ∧ render I (sortKeys v) = t := by
  rw [dumpsLimited, dumps]
  by_cases hprintable : printable v = true
  · by_cases hfinite : allFinite v = true
    · simp [hprintable, hfinite]
    · simp [hprintable, hfinite]
  · simp [hprintable]

theorem heldItems_iff {xs : List Value} : HeldItems xs ↔ ∀ x ∈ xs, Held x := by
  induction xs with
  | nil => simp [HeldItems]
  | cons x xs ih => rw [HeldItems, ih, List.forall_mem_cons]

theorem readableEntries_iff {I : Interpreter} {entries : List (Text × Value)} :
    ReadableEntries I entries ↔ ∀ entry ∈ entries, Readable I entry.2 := by
  induction entries with
  | nil => simp [ReadableEntries]
  | cons entry entries ih => rw [ReadableEntries, ih, List.forall_mem_cons]

theorem keys_sortKeysEntries (entries : List (Text × Value)) :
    Dict.keys (sortKeysEntries entries) = Dict.keys entries := by
  induction entries with
  | nil => rfl
  | cons entry entries ih =>
      rw [sortKeysEntries, Dict.keys_cons, ih]
      rfl

/-- Different keys, once sorted, are in strict order. -/
theorem pairwise_keys_insertionSort {entries : List (Text × Value)}
    (h : (Dict.keys entries).Nodup) :
    (Dict.keys (entries.insertionSort fun a b => a.1 ≤ b.1)).Pairwise (· < ·) := by
  have hsorted : (entries.insertionSort fun a b => a.1 ≤ b.1).Pairwise fun a b => a.1 ≤ b.1 :=
    List.pairwise_insertionSort _ entries
  have hperm := List.perm_insertionSort (fun a b : Text × Value => a.1 ≤ b.1) entries
  have hnodup : (Dict.keys (entries.insertionSort fun a b => a.1 ≤ b.1)).Nodup :=
    (hperm.map Prod.fst).nodup_iff.mpr h
  have hle : (Dict.keys (entries.insertionSort fun a b => a.1 ≤ b.1)).Pairwise (· ≤ ·) :=
    List.pairwise_map.mpr hsorted
  exact (hle.and hnodup).imp fun h => lt_of_le_of_ne h.1 h.2

mutual

/-- A value that is written is, in key order, one that is read back. -/
theorem readable_sortKeys {I : Interpreter} (hI : ReadsDoubles I) : ∀ v : Value, Held v →
    printable v = true → allFinite v = true → Readable I (sortKeys v)
  | .none, _, _, _ | .bool _, _, _, _ | .str _, _, _, _ => by simp [sortKeys, Readable]
  | .int n, _, hprintable, _ => by
      rw [sortKeys, Readable]
      exact of_decide_eq_true hprintable
      all_goals simp
  | .float (.finite q), hheld, _, _ => by
      rw [sortKeys, Readable]
      exact hI q hheld
      all_goals simp
  | .float (.infinity _), _, _, hfinite | .float .nan, _, _, hfinite => by cases hfinite
  | .list xs, hheld, hprintable, hfinite => by
      rw [sortKeys, Readable]
      exact readableItems_sortKeys hI xs (by simpa only [Held] using hheld)
        (by simpa only [printable] using hprintable) (by simpa only [allFinite] using hfinite)
  | .dict entries, hheld, hprintable, hfinite => by
      rw [Held] at hheld
      have hentries := readableEntries_sortKeys hI entries hheld.2
        (by simpa only [printable] using hprintable) (by simpa only [allFinite] using hfinite)
      rw [sortKeys, Readable]
      constructor
      · apply pairwise_keys_insertionSort
        rw [keys_sortKeysEntries]
        exact hheld.1
      · rw [readableEntries_iff] at hentries ⊢
        exact fun entry hentry => hentries entry ((List.mem_insertionSort _).mp hentry)

theorem readableItems_sortKeys {I : Interpreter} (hI : ReadsDoubles I) : ∀ xs : List Value,
    HeldItems xs → printableItems xs = true → allFiniteItems xs = true →
      ReadableItems I (sortKeysItems xs)
  | [], _, _, _ => trivial
  | x :: xs, hheld, hprintable, hfinite => by
      rw [HeldItems] at hheld
      rw [printableItems, Bool.and_eq_true] at hprintable
      rw [allFiniteItems, Bool.and_eq_true] at hfinite
      exact ⟨readable_sortKeys hI x hheld.1 hprintable.1 hfinite.1,
        readableItems_sortKeys hI xs hheld.2 hprintable.2 hfinite.2⟩

theorem readableEntries_sortKeys {I : Interpreter} (hI : ReadsDoubles I) :
    ∀ entries : List (Text × Value), HeldEntries entries → printableEntries entries = true →
      allFiniteEntries entries = true → ReadableEntries I (sortKeysEntries entries)
  | [], _, _, _ => trivial
  | (k, v) :: entries, hheld, hprintable, hfinite => by
      rw [HeldEntries] at hheld
      rw [printableEntries, Bool.and_eq_true] at hprintable
      rw [allFiniteEntries, Bool.and_eq_true] at hfinite
      exact ⟨readable_sortKeys hI v hheld.1 hprintable.1 hfinite.1,
        readableEntries_sortKeys hI entries hheld.2 hprintable.2 hfinite.2⟩

end

mutual

theorem printable_of_readable {I : Interpreter} : ∀ v : Value, Readable I v → printable v = true
  | .none, _ | .bool _, _ | .str _, _ | .float _, _ => by simp [printable]
  | .int n, h => by
      rw [Readable] at h
      rw [printable]
      exact decide_eq_true h
  | .list xs, h => by
      rw [Readable] at h
      rw [printable]
      exact printableItems_of_readable xs h
  | .dict entries, h => by
      rw [Readable] at h
      rw [printable]
      exact printableEntries_of_readable entries h.2

theorem printableItems_of_readable {I : Interpreter} :
    ∀ xs : List Value, ReadableItems I xs → printableItems xs = true
  | [], _ => rfl
  | x :: xs, h => by
      rw [ReadableItems] at h
      rw [printableItems, printable_of_readable x h.1, printableItems_of_readable xs h.2]
      rfl

theorem printableEntries_of_readable {I : Interpreter} :
    ∀ entries : List (Text × Value), ReadableEntries I entries → printableEntries entries = true
  | [], _ => rfl
  | (_, v) :: entries, h => by
      rw [ReadableEntries] at h
      rw [printableEntries, printable_of_readable v h.1, printableEntries_of_readable entries h.2]
      rfl

end

theorem dumpsLimited_of_readable {I : Interpreter} {v : Value} (h : Readable I v) :
    dumpsLimited I v = some (render I v) := by
  rw [dumpsLimited, if_pos (printable_of_readable v h), dumps_of_readable I h]

theorem dumpsLimited_of_plain (I : Interpreter) {v : Value} (h : Plain v) :
    dumpsLimited I v = some (render I v) :=
  dumpsLimited_of_readable (readable_of_plain I v h)

/-- What is written is read back in key order. -/
theorem loads_dumpsLimited {I : Interpreter} (hI : ReadsDoubles I) {v : Value} (hv : Held v)
    {t : Text} (h : dumpsLimited I v = some t) : loads I .default t = some (sortKeys v) := by
  obtain ⟨hprintable, hfinite, rfl⟩ := dumpsLimited_eq_some.mp h
  exact loads_of_readable I Hooks.keepDistinct_default
    (readable_sortKeys hI v hv hprintable hfinite)

/-- In key order it is written as the same text. -/
theorem dumpsLimited_sortKeys {I : Interpreter} (hI : ReadsDoubles I) {v : Value} (hv : Held v)
    {t : Text} (h : dumpsLimited I v = some t) : dumpsLimited I (sortKeys v) = some t := by
  obtain ⟨hprintable, hfinite, rfl⟩ := dumpsLimited_eq_some.mp h
  exact dumpsLimited_of_readable (readable_sortKeys hI v hv hprintable hfinite)

end Json

end Python
