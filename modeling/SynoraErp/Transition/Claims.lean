import SynoraErp.Transition.Documents
import SynoraErp.Transition.Ensures

/-!
# What a connection may count on

Conditions on a connection that the calls of the others keep, and that its own reads, or its
own reads and writes, keep as well. A row that is locked stays as it is; what the table shows
is kept when the rows evolve; and a row that a connection has created is its own to make a
call to the outside for.
-/

namespace Transition.Documents.Discipline

variable {ι κ δ χ : Type} {D : Discipline κ δ χ}

/-! ## Conditions that are kept -/

section

variable [DecidableEq ι] [DecidableEq κ]

variable (D) in
/-- A condition that the others keep, and the connection while it reads and locks rows and
makes calls to the outside that are about no row. -/
structure Kept (A : ι → Store ι κ δ χ → Prop) : Prop where
  relies : ∀ {i s t}, D.Consistent s → D.Relies i s t → A i s → A i t
  keep : ∀ {i s base}, A i s → A i (s.set i ((s.connections i).keep base))
  acquire : ∀ {i s k}, A i s → A i (s.set i ((s.connections i).acquire k))
  record : ∀ {i s x}, D.subject x = none → A i s → A i (s.record x)

variable (D) in
/-- A condition that is also kept while the connection writes rows and commits. -/
structure Lasting (A : ι → Store ι κ δ χ → Prop) : Prop extends D.Kept A where
  write : ∀ {i s k d}, D.Writes k (s.view i k) (some d) → A i s →
    A i (s.set i ((s.connections i).write k d))
  commit : ∀ {i s}, A i s → A i (s.commit i)

variable {A B : ι → Store ι κ δ χ → Prop}

theorem Kept.and (hA : D.Kept A) (hB : D.Kept B) : D.Kept fun i s => A i s ∧ B i s where
  relies hs h hAB := ⟨hA.relies hs h hAB.1, hB.relies hs h hAB.2⟩
  keep hs := ⟨hA.keep hs.1, hB.keep hs.2⟩
  acquire hs := ⟨hA.acquire hs.1, hB.acquire hs.2⟩
  record h hs := ⟨hA.record h hs.1, hB.record h hs.2⟩

theorem Lasting.and (hA : D.Lasting A) (hB : D.Lasting B) :
    D.Lasting fun i s => A i s ∧ B i s where
  toKept := hA.toKept.and hB.toKept
  write h hs := ⟨hA.write h hs.1, hB.write h hs.2⟩
  commit hs := ⟨hA.commit hs.1, hB.commit hs.2⟩

theorem lasting_true : D.Lasting fun (_ : ι) (_ : Store ι κ δ χ) => True where
  relies _ _ _ := trivial
  keep _ := trivial
  acquire _ := trivial
  record _ _ := trivial
  write _ _ := trivial
  commit _ := trivial

theorem lasting_const (P : Prop) : D.Lasting fun (_ : ι) (_ : Store ι κ δ χ) => P where
  relies _ _ h := h
  keep h := h
  acquire h := h
  record _ h := h
  write _ h := h
  commit h := h

theorem lasting_imp (P : Prop) (hA : D.Lasting A) : D.Lasting fun i s => P → A i s where
  relies hs ht h hP := hA.relies hs ht (h hP)
  keep h hP := hA.keep (h hP)
  acquire h hP := hA.acquire (h hP)
  record hx h hP := hA.record hx (h hP)
  write hw h hP := hA.write hw (h hP)
  commit h hP := hA.commit (h hP)

/-! ## What the table shows -/

/-- What a connection sees of the table. -/
def Shows (M : Table κ δ → Prop) (i : ι) (s : Store ι κ δ χ) : Prop := M (s.view i)

variable (D) in
/-- A fact about the table that is kept when its rows evolve. -/
def Persists (M : Table κ δ → Prop) : Prop :=
  ∀ T T' : Table κ δ, (∀ k, D.Evolves k (T k) (T' k)) → M T → M T'

omit [DecidableEq ι] [DecidableEq κ] in
theorem Persists.and {M N : Table κ δ → Prop} (hM : D.Persists M) (hN : D.Persists N) :
    D.Persists fun T => M T ∧ N T :=
  fun T T' h hT => ⟨hM T T' h hT.1, hN T T' h hT.2⟩

theorem view_set_write {i : ι} {s : Store ι κ δ χ} {k : κ} {d : δ} :
    (s.set i ((s.connections i).write k d)).view i =
      Function.update (s.view i) k (some d) := by
  unfold Store.view
  rw [Store.connections_set, Store.committed_set]
  exact view_write ..

omit [DecidableEq κ] in
theorem view_commit {i : ι} {s : Store ι κ δ χ} : (s.commit i).view i = s.view i := by
  unfold Store.view
  have hconnection : (s.commit i).connections i = {} := Store.connections_set
  rw [hconnection]
  rfl

theorem lasting_shows {M : Table κ δ → Prop} (hM : D.Persists M) :
    D.Lasting (Shows M : ι → Store ι κ δ χ → Prop) where
  relies _ h hs := hM _ _ h.evolves_view hs
  keep {i s base} hs := by
    unfold Shows Store.view
    rw [Store.connections_set]
    exact hs
  acquire {i s k} hs := by
    unfold Shows Store.view
    rw [Store.connections_set]
    exact hs
  record _ hs := hs
  write {i s k d} h hs := by
    unfold Shows
    rw [view_set_write]
    refine hM _ _ (fun l => ?_) hs
    by_cases hl : l = k
    · subst hl
      rw [Function.update_self]
      exact .single h
    · rw [Function.update_of_ne hl]
  commit {i s} hs := by
    unfold Shows
    rw [view_commit]
    exact hs

/-! ## Rows that are locked -/

/-- A connection has locked a row that is so. -/
def Locks (k : κ) (P : δ → Prop) (i : ι) (s : Store ι κ δ χ) : Prop :=
  ∃ d, s.held i k = some d ∧ P d

theorem kept_locks (k : κ) (P : δ → Prop) : D.Kept (Locks k P : ι → Store ι κ δ χ → Prop) where
  relies _ h := by
    rintro ⟨d, hd, hP⟩
    exact ⟨d, h.held_eq ▸ hd, hP⟩
  keep {i s base} := by
    rintro ⟨d, hd, hP⟩
    refine ⟨d, ?_, hP⟩
    unfold Store.held
    rw [Store.connections_set]
    exact hd
  acquire {i s l} := by
    rintro ⟨d, hd, hP⟩
    refine ⟨d, ?_, hP⟩
    unfold Store.held Connection.held at hd ⊢
    rw [Store.connections_set]
    have hlocked : (s.connections i).locked k = true := by
      by_contra h
      rw [if_neg h] at hd
      cases hd
    rw [if_pos hlocked] at hd
    have hacquired : ((s.connections i).acquire l).locked k = true := by
      by_cases hk : k = l
      · subst hk
        exact Function.update_self ..
      · exact (Function.update_of_ne hk ..).trans hlocked
    rw [if_pos hacquired]
    exact hd
  record _ h := h

omit [DecidableEq ι] [DecidableEq κ] in
/-- A row that is locked is what its connection sees. -/
theorem Locks.view {k : κ} {P : δ → Prop} {i : ι} {s : Store ι κ δ χ} (h : Locks k P i s) :
    ∃ d, s.view i k = some d ∧ P d := by
  obtain ⟨d, hd, hP⟩ := h
  refine ⟨d, ?_, hP⟩
  unfold Store.held Connection.held at hd
  split_ifs at hd
  exact hd

/-! ## Rows that a connection has written -/

/-- A connection has written a row. -/
def Wrote (k : κ) (d : δ) (i : ι) (s : Store ι κ δ χ) : Prop :=
  (s.connections i).writes k = some d

theorem kept_wrote (k : κ) (d : δ) : D.Kept (Wrote k d : ι → Store ι κ δ χ → Prop) where
  relies _ h hs := by
    unfold Wrote
    rw [h.connection]
    exact hs
  keep hs := by
    unfold Wrote
    rw [Store.connections_set]
    exact hs
  acquire hs := by
    unfold Wrote
    rw [Store.connections_set]
    exact hs
  record _ hs := hs

omit [DecidableEq ι] [DecidableEq κ] in
theorem Wrote.view {k : κ} {d : δ} {i : ι} {s : Store ι κ δ χ} (h : Wrote k d i s) :
    s.view i k = some d :=
  overlay_of_some _ h

theorem wrote_write {k : κ} {d : δ} {i : ι} {s : Store ι κ δ χ} :
    Wrote k d i (s.set i ((s.connections i).write k d)) := by
  unfold Wrote
  rw [Store.connections_set]
  exact Function.update_self ..

/-- A connection has written a row that is not in the table. -/
def Creates (k : κ) (d : δ) (i : ι) (s : Store ι κ δ χ) : Prop :=
  s.committed k = none ∧ Wrote k d i s

variable (D) in
/-- A connection has created a row, and no call to the outside was made for it. -/
def Owns (k : κ) (i : ι) (s : Store ι κ δ χ) : Prop :=
  s.owner k = some i ∧ ∀ x ∈ s.log, D.subject x ≠ some k

theorem lasting_owns (k : κ) : D.Lasting (D.Owns k : ι → Store ι κ δ χ → Prop) where
  relies _ h hs := ⟨h.owner k hs.1, fun x hx hk => hs.2 x (h.log k hs.1 x hx hk) hk⟩
  keep hs := hs
  acquire hs := hs
  record {i s x} hx hs := by
    refine ⟨hs.1, fun y hy hk => ?_⟩
    rcases List.mem_append.mp hy with hy | hy
    · exact hs.2 y hy hk
    · obtain rfl := List.mem_singleton.mp hy
      rw [hx] at hk
      cases hk
  write _ hs := hs
  commit {i s} hs := by
    refine ⟨?_, hs.2⟩
    change (if _ then some i else s.owner k) = some i
    rw [hs.1, ite_self]

omit [DecidableEq κ] in
/-- What has been created and is committed is owned. -/
theorem owns_commit {k : κ} {d : δ} {i : ι} {s : Store ι κ δ χ} (hs : D.Consistent s)
    (h : Creates k d i s) : D.Owns k i (s.commit i) := by
  obtain ⟨hnone, hd⟩ := h
  refine ⟨?_, fun x hx hk => ?_⟩
  · change (if s.committed k = none ∧ (s.connections i).writes k ≠ none then some i
      else s.owner k) = some i
    rw [if_pos ⟨hnone, hd ▸ Option.some_ne_none d⟩]
  · obtain ⟨j, hj⟩ := Option.ne_none_iff_exists'.mp (hs.logged x hx k hk)
    exact hs.owned k j hj hnone

/-- A row that a connection has written is locked by it, so that no other can create it. -/
theorem kept_creates (k : κ) (d : δ) : D.Kept (Creates k d : ι → Store ι κ δ χ → Prop) where
  relies {i s t} hs ht := by
    rintro ⟨hnone, hwrote⟩
    have hlocked := ((hs.fits i).layers _ List.mem_cons_self k d hwrote).1
    exact ⟨(ht.held k hlocked).trans hnone, (kept_wrote k d).relies hs ht hwrote⟩
  keep h := ⟨h.1, (kept_wrote (D := D) k d).keep h.2⟩
  acquire h := ⟨h.1, (kept_wrote (D := D) k d).acquire h.2⟩
  record _ h := h

omit [DecidableEq ι] [DecidableEq κ] in
theorem Creates.view {k : κ} {d : δ} {i : ι} {s : Store ι κ δ χ} (h : Creates k d i s) :
    s.view i k = some d :=
  h.2.view

/-! ## What a call ensures -/

variable {ρ : χ → Type} {ε α : Type} {C : α → ι → Store ι κ δ χ → Prop}

theorem Kept.steady (hA : D.Kept A) : (system ι ρ ε D).Steady A :=
  fun _ _ _ hs ht hAs => hA.relies hs ht.relies hAs

/-- What a call establishes when it gives a value back. -/
theorem ensures_call {c : Call κ δ χ} {C : c.Value ρ → ι → Store ι κ δ χ → Prop}
    (hA : D.Kept A) (hallows : ∀ i s, D.Consistent s → A i s → D.Allows i s c)
    (h : ∀ i s v t u, D.Consistent s → A i s → s.Does i c v t → D.Consistent t →
      D.Relies i t u → C v i u) :
    (system ι ρ ε D).Ensures A (.call c fun reply => .ofExcept reply) C := by
  intro i s hs hAs
  refine System.meets_call (fun t ht => hallows i t ht.invariant (hA.relies hs ht.relies hAs)) ?_
  rintro t reply u v value ht hperform hv hreply
  subst hreply
  have hAt := hA.relies hs ht.relies hAs
  have hsound := ht.invariant.sound_does (hallows i t ht.invariant hAt) hperform
  exact h i t value u v ht.invariant hAt hperform hsound.consistent hv.relies

/-- What is read becomes what is seen. -/
theorem ensures_get (hA : D.Kept A) (k : κ) :
    (system ι ρ ε D).Ensures A (.call (.get k) fun reply => .ofExcept reply)
      fun row i t => D.Evolves k row (t.view i k) ∧ A i t := by
  refine ensures_call hA (fun _ _ _ _ => trivial) ?_
  rintro i s row t u hs hAs ⟨base, hreads, rfl, rfl⟩ ht hu
  refine ⟨?_, hA.relies ht hu (hA.keep hAs)⟩
  have hview : (s.set i ((s.connections i).keep base)).view i = s.view i := by
    unfold Store.view
    rw [Store.connections_set]
    rfl
  exact ((hs.fits i).evolves_read hreads k).trans (hview ▸ hu.evolves_view k)

/-- A row that has been locked is as it was read. -/
theorem ensures_lock (hA : D.Kept A) (k : κ) :
    (system ι ρ ε D).Ensures A (.call (.lock k) fun reply => .ofExcept reply)
      fun row i t => (∀ d, row = some d → Locks k (· = d) i t) ∧ A i t := by
  refine ensures_call hA (fun _ _ _ _ => trivial) ?_
  rintro i s row t u - hAs hdoes ht hu
  cases row with
  | none =>
      obtain ⟨-, rfl⟩ := hdoes
      exact ⟨fun d hd => (by cases hd), hA.relies ht hu hAs⟩
  | some d =>
      obtain ⟨-, hview, rfl⟩ := hdoes
      refine ⟨?_, hA.relies ht hu (hA.acquire hAs)⟩
      rintro _ ⟨rfl⟩
      refine ⟨d, ?_, rfl⟩
      rw [hu.held_eq]
      have hlocked : ((s.connections i).acquire k).locked k = true := Function.update_self ..
      unfold Store.held Connection.held
      rw [Store.connections_set, if_pos hlocked]
      exact hview

/-- A call to the outside that is about no row. -/
theorem keeping_external (hA : D.Kept A) (x : χ) (hsubject : D.subject x = none)
    (hrequires : ∀ i s, A i s → D.requires (s.held i) x) :
    (system ι ρ ε D).Keeping A (.call (.external x) fun reply => .ofExcept reply) := by
  refine ensures_call hA (fun i s _ hs => ⟨hrequires i s hs, ?_, ?_⟩) ?_
  · rw [hsubject]
    exact fun _ hk => by cases hk
  · rw [hsubject]
    exact fun _ hk => by cases hk
  · rintro i s v t u - hAs rfl ht hu
    exact hA.relies ht hu (hA.record hsubject hAs)

/-- A call to the outside for a row that the connection owns keeps what does not say so. -/
theorem ensures_external (hA : D.Kept A) {k : κ} (x : χ) (hsubject : D.subject x = some k)
    (howns : ∀ i s, A i s → D.Owns k i s) (hrequires : ∀ i s, A i s → D.requires (s.held i) x)
    {M : Table κ δ → Prop} (hM : D.Persists M) (hshows : ∀ i s, A i s → Shows M i s) :
    (system ι ρ ε D).Ensures A (.call (.external x) fun reply => .ofExcept reply)
      fun _ => Shows M := by
  refine ensures_call hA (fun i s _ hs => ⟨hrequires i s hs, ?_, ?_⟩) ?_
  · rw [hsubject]
    rintro _ ⟨rfl⟩
    exact (howns i s hs).1
  · rw [hsubject]
    rintro _ ⟨rfl⟩
    exact (howns i s hs).2
  · rintro i s v t u - hAs rfl - hu
    exact hM _ _ hu.evolves_view (hshows i s hAs)

/-- A row is inserted. What is asked of it may rest on a condition that a write ends. -/
theorem ensures_insert (hA : D.Kept A) (hB : D.Lasting B) {k : κ} {d : δ}
    (hallows : ∀ i s, D.Consistent s → A i s → D.new k d ∧ D.Admits (s.view i) k d) :
    (system ι ρ ε D).Ensures (fun i s => A i s ∧ B i s)
      (.call (.insert k d) fun reply => .ofExcept reply)
      fun created i t => (created = true → Creates k d i t) ∧ B i t := by
  refine ensures_call (hA.and hB.toKept) (fun i s hs h => hallows i s hs h.1) ?_
  rintro i s created t u hs ⟨hAs, hBs⟩ hdoes ht hu
  cases created with
  | false =>
      obtain ⟨-, rfl⟩ := hdoes
      exact ⟨fun h => (by cases h), hB.relies ht hu hBs⟩
  | true =>
      obtain ⟨-, hview, rfl⟩ := hdoes
      have hnone : s.committed k = none := (Option.or_eq_none_iff.mp hview).2
      have hcreates : Creates k d i (s.set i ((s.connections i).write k d)) :=
        ⟨hnone, wrote_write⟩
      have hwrites : D.Writes k (s.view i k) (some d) := hview ▸ .insert (hallows i s hs hAs).1
      exact ⟨fun _ => (kept_creates k d).relies ht hu hcreates, hB.relies ht hu (hB.write hwrites hBs)⟩

/-- A row is saved. -/
theorem ensures_save (hA : D.Kept A) (hB : D.Lasting B) {k : κ} {before after : δ}
    (hallows : ∀ i s, D.Consistent s → A i s → s.view i k = some before →
      D.change k before after ∧ D.Admits (s.view i) k after) :
    (system ι ρ ε D).Ensures (fun i s => A i s ∧ B i s)
      (.call (.save k before after) fun reply => .ofExcept reply)
      fun _ i t => Wrote k after i t ∧ B i t := by
  refine ensures_call (hA.and hB.toKept) (fun i s hs h => hallows i s hs h.1) ?_
  rintro i s _ t u hs ⟨hAs, hBs⟩ ⟨-, hview, rfl⟩ ht hu
  have hwrites : D.Writes k (s.view i k) (some after) :=
    hview ▸ .save (hallows i s hs hAs hview).1
  exact ⟨(kept_wrote k after).relies ht hu wrote_write, hB.relies ht hu (hB.write hwrites hBs)⟩

/-- A fact about what is committed. -/
def Commits (M : Table κ δ → Prop) (_ : ι) (s : Store ι κ δ χ) : Prop := M s.committed

/-- A row that has been created is owned once it is committed, with all that is seen. -/
theorem ensures_commit {M : Table κ δ → Prop} (hM : D.Persists M) (k : κ) (d : δ) :
    (system ι ρ ε D).Ensures (fun i s => Creates k d i s ∧ Shows M i s)
      (.call .commit fun reply => .ofExcept reply)
      fun _ i t => D.Owns k i t ∧ Commits M i t := by
  refine ensures_call ((kept_creates k d).and (lasting_shows hM).toKept)
    (fun _ _ _ _ => trivial) ?_
  rintro i s _ t u hs ⟨hcreates, hshows⟩ rfl ht hu
  exact ⟨(lasting_owns k).relies ht hu (owns_commit hs hcreates), hM _ _ hu.evolves hshows⟩

/-- What is committed stays. -/
theorem firm_commits {M : Table κ δ → Prop} (hM : D.Persists M) :
    (system ι ρ ε D).Firm (Commits M : ι → Store ι κ δ χ → Prop) where
  steady _ _ _ _ ht hs := hM _ _ ht.relies.evolves hs
  perform hs hallowed hperform hMs := hM _ _ (hs.sound_perform hallowed hperform).evolves hMs

theorem kept_commits {M : Table κ δ → Prop} (hM : D.Persists M) :
    D.Kept (Commits M : ι → Store ι κ δ χ → Prop) where
  relies _ h hs := hM _ _ h.evolves hs
  keep hs := hs
  acquire hs := hs
  record _ hs := hs

omit [DecidableEq ι] [DecidableEq κ] in
/-- What is committed is seen. -/
theorem Commits.shows {M : Table κ δ → Prop} (hM : D.Persists M) {i : ι} {s : Store ι κ δ χ}
    (hs : D.Consistent s) (h : Commits M i s) : Shows M i s :=
  hM _ _ (hs.fits i).evolves_view h

end

end Transition.Documents.Discipline
