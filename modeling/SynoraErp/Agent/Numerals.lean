import SynoraErp.Agent.Secrets
import SynoraErp.Python.Regex

/-!
# The numerals of a text

`_NUMBER_TOKEN` against the numerals of a text. The pattern takes a numeral only where
neither neighbour is a word character or a full stop, and then all of it.
-/

namespace Agent

open Python

/-- The classes `\w` and `\d`, tables of the interpreter. A decimal digit is alphanumeric. -/
structure NumberClass extends WordClass where
  isDigit : CodePoint → Bool
  isDigit_ascii : ∀ c : CodePoint, c.val < 0x80 → isDigit c = (asciiDigit? c).isSome
  isWord_of_isDigit : ∀ c : CodePoint, isDigit c = true → isWord c = true

section

variable (N : NumberClass)

/-- The class `[\w.]`. -/
def attaches (c : CodePoint) : Bool := N.isWord c || c == codePoint '.'

/-- `-?\d+(?:\.\d+)?(?![\w.])` without its sign. -/
def unsignedToken : Regex CodePoint :=
  .seq (.many N.isDigit)
    (.seq (.optional (.seq (.one fun c => c == codePoint '.') (.many N.isDigit)))
      (.notAhead (attaches N)))

/-- `_NUMBER_TOKEN`. -/
def numberToken : Regex CodePoint :=
  .seq (.notBehind (attaches N))
    (.seq (.optional (.one fun c => c == codePoint '-')) (unsignedToken N))

/-- The numeral a text begins with: all its leading digits, with the full stop and the
digits past it where there are some. -/
def numeralAt (t : Text) : Option Text :=
  if t.takeWhile N.isDigit = [] then none
  else
    match t.dropWhile N.isDigit with
    | [] => some (t.takeWhile N.isDigit)
    | c :: u =>
        if c = codePoint '.' ∧ u.takeWhile N.isDigit ≠ [] then
          some (t.takeWhile N.isDigit ++ c :: u.takeWhile N.isDigit)
        else some (t.takeWhile N.isDigit)

/-- The numerals of a text past `left`, with their neighbours. -/
def numeralsFrom (left : Option CodePoint) (t : Text) : List (Occurrence CodePoint) :=
  scan (fun _ t => numeralAt N t) left 0 t

/-- The numerals written in a text. -/
def numerals (t : Text) : List (Occurrence CodePoint) := numeralsFrom N none t

end

/-- A numeral with a word character or a full stop next to it. -/
def attached (N : NumberClass) (o : Occurrence CodePoint) : Bool :=
  o.before.any (attaches N) || o.after.any (attaches N)

section

variable {N : NumberClass}

theorem isDigit_full_stop : N.isDigit (codePoint '.') = false := N.isDigit_ascii _ (by decide)

theorem isDigit_minus : N.isDigit (codePoint '-') = false := N.isDigit_ascii _ (by decide)

theorem isDigit_newline : N.isDigit (codePoint '\n') = false := N.isDigit_ascii _ (by decide)

theorem attaches_of_isDigit {c : CodePoint} (h : N.isDigit c = true) : attaches N c = true := by
  rw [attaches, N.isWord_of_isDigit c h, Bool.true_or]

theorem attaches_full_stop : attaches N (codePoint '.') = true := by
  rw [attaches, beq_self_eq_true, Bool.or_true]

theorem attaches_minus : attaches N (codePoint '-') = false := by
  rw [attaches, N.isWord_ascii _ (by decide)]
  decide

/-- The numeral at the head of a text where nothing is attached to its end. -/
def freeNumeral (N : NumberClass) (t : Text) : Option Text :=
  (numeralAt N t).filter fun n => !(t.drop n.length).head?.any (attaches N)

theorem freeNumeral_append {n rest : Text} (h : numeralAt N (n ++ rest) = some n) :
    freeNumeral N (n ++ rest) = if rest.head?.any (attaches N) then none else some n := by
  rw [freeNumeral, h, Option.filter_some, List.drop_left]
  by_cases hrest : rest.head?.any (attaches N) = true
  · rw [hrest]
    rfl
  · rw [if_neg hrest, Bool.eq_false_of_not_eq_true hrest]
    rfl

theorem takes_notAhead (left : Option CodePoint) (rest : Text) :
    (Regex.notAhead (attaches N)).takes left rest =
      if rest.head?.any (attaches N) then [] else [[]] := rfl

/-- What follows the digits of a token does not begin with a digit. -/
theorem takes_notAhead_digit (left : Option CodePoint) (c : CodePoint) (t : Text)
    (hc : N.isDigit c = true) : (Regex.notAhead (attaches N)).takes left (c :: t) = [] := by
  rw [takes_notAhead, List.head?_cons, Option.any_some, if_pos (attaches_of_isDigit hc)]

theorem takes_fraction_digit (left : Option CodePoint) (c : CodePoint) (t : Text)
    (hc : N.isDigit c = true) :
    (Regex.seq (.optional (.seq (.one fun c => c == codePoint '.') (.many N.isDigit)))
      (.notAhead (attaches N))).takes left (c :: t) = [] := by
  have hne : (c == codePoint '.') = false := by
    rw [beq_eq_false_iff_ne]
    rintro rfl
    rw [isDigit_full_stop] at hc
    cases hc
  rw [Regex.takes_seq_optional, Regex.takes_seq_assoc, Regex.takes_seq_one_cons, hne,
    takes_notAhead_digit left c t hc]
  rfl

/-- The pattern takes the numeral a text begins with, all of it, or nothing. -/
theorem takes_unsignedToken (left : Option CodePoint) (t : Text) :
    (unsignedToken N).takes left t = (freeNumeral N t).toList := by
  rw [unsignedToken, Regex.takes_seq_many _ _ _ _ takes_fraction_digit]
  by_cases hwhole : t.takeWhile N.isDigit = []
  · rw [if_pos hwhole, freeNumeral, numeralAt, if_pos hwhole]
    rfl
  have htext : t.takeWhile N.isDigit ++ t.dropWhile N.isDigit = t :=
    List.takeWhile_append_dropWhile
  have hnumeral : numeralAt N t = _ := if_neg hwhole
  rw [if_neg hwhole, Regex.takes_seq_optional, Regex.takes_seq_assoc]
  generalize t.takeWhile N.isDigit = whole at *
  generalize t.dropWhile N.isDigit = rest at *
  subst htext
  cases rest with
  | nil =>
      rw [freeNumeral_append hnumeral, Regex.takes_seq_one_nil]
      simp [takes_notAhead]
  | cons c u =>
      rw [Regex.takes_seq_one_cons]
      by_cases hstop : c = codePoint '.'
      · subst hstop
        rw [Regex.takes_seq_many _ _ _ _ takes_notAhead_digit]
        by_cases hdigits : u.takeWhile N.isDigit = []
        · simp only [hdigits, ne_eq, not_true_eq_false, and_false, if_false] at hnumeral
          rw [freeNumeral_append hnumeral]
          simp [hdigits, takes_notAhead, attaches_full_stop]
        · have hfraction : u.takeWhile N.isDigit ++ u.dropWhile N.isDigit = u :=
            List.takeWhile_append_dropWhile
          simp only [true_and, ne_eq, hdigits, not_false_eq_true, if_true] at hnumeral
          generalize u.takeWhile N.isDigit = fraction at *
          generalize u.dropWhile N.isDigit = rest at *
          subst hfraction
          have hassoc : whole ++ codePoint '.' :: (fraction ++ rest) =
              (whole ++ codePoint '.' :: fraction) ++ rest := by simp
          rw [hassoc] at hnumeral ⊢
          rw [freeNumeral_append hnumeral]
          by_cases hrest : rest.head?.any (attaches N) = true
          · simp [hdigits, takes_notAhead, attaches_full_stop, hrest]
          · simp [hdigits, takes_notAhead, attaches_full_stop, hrest]
      · have hne : (c == codePoint '.') = false := by simpa using hstop
        simp only [hstop, false_and, if_false] at hnumeral
        rw [freeNumeral_append hnumeral, hne]
        by_cases hc : attaches N c = true
        · simp [takes_notAhead, hc]
        · simp [takes_notAhead, hc]

/-- What `_NUMBER_TOKEN` takes at a place. -/
def tokenAt (N : NumberClass) (left : Option CodePoint) : Text → Option Text
  | [] => none
  | c :: t =>
      if left.any (attaches N) then none
      else if c = codePoint '-' then (freeNumeral N t).map fun n => c :: n
      else freeNumeral N (c :: t)

theorem freeNumeral_nil : freeNumeral N [] = none := rfl

theorem freeNumeral_minus (t : Text) : freeNumeral N (codePoint '-' :: t) = none := by
  rw [freeNumeral, numeralAt, if_pos (List.takeWhile_cons_of_neg (by simp [isDigit_minus]))]
  rfl

theorem head?_takes_numberToken (left : Option CodePoint) (t : Text) :
    ((numberToken N).takes left t).head? = tokenAt N left t := by
  rw [numberToken, Regex.takes_seq_notBehind]
  cases t with
  | nil =>
      rw [Regex.takes_seq_optional, Regex.takes_seq_one_nil, takes_unsignedToken]
      simp [tokenAt, freeNumeral_nil]
  | cons c t =>
      rw [Regex.takes_seq_optional, Regex.takes_seq_one_cons, takes_unsignedToken,
        takes_unsignedToken, tokenAt]
      by_cases hleft : left.any (attaches N) = true
      · simp [hleft]
      by_cases hminus : c = codePoint '-'
      · subst hminus
        rw [freeNumeral_minus]
        cases freeNumeral N t with
        | none => simp [hleft]
        | some n => simp [hleft]
      · have hne : (c == codePoint '-') = false := by simpa using hminus
        rw [if_neg hleft, if_neg hleft, if_neg hminus, hne]
        cases freeNumeral N (c :: t) with
        | none => rfl
        | some n => rfl

/-- The tokens of a text past `left`. -/
def tokensFrom (N : NumberClass) (left : Option CodePoint) (t : Text) :
    List (Occurrence CodePoint) := scan (tokenAt N) left 0 t

theorem findall_numberToken (t : Text) :
    (numberToken N).findall t = (tokensFrom N none t).map Occurrence.text := by
  have hfind : (fun left t => ((numberToken N).takes left t).head?) = tokenAt N := by
    funext left t
    exact head?_takes_numberToken left t
  rw [Regex.findall, hfind, tokensFrom]

/-- A numeral is a nonempty part of its text, made of digits and a full stop. -/
theorem numeralAt_eq_some {t n : Text} (h : numeralAt N t = some n) :
    (∃ c m, n = c :: m ∧ N.isDigit c = true) ∧ (∀ c ∈ n, attaches N c = true) ∧
      ∃ rest, t = n ++ rest := by
  rw [numeralAt] at h
  split_ifs at h with hwhole
  have htext : t.takeWhile N.isDigit ++ t.dropWhile N.isDigit = t :=
    List.takeWhile_append_dropWhile
  have hall : ∀ c ∈ t.takeWhile N.isDigit, N.isDigit c = true :=
    List.all_eq_true.mp List.all_takeWhile
  have hattaches : ∀ c ∈ t.takeWhile N.isDigit, attaches N c = true :=
    fun c hc => attaches_of_isDigit (hall c hc)
  obtain ⟨d, whole, hcons⟩ := List.exists_cons_of_ne_nil hwhole
  have hd : N.isDigit d = true := hall d (by rw [hcons]; exact List.mem_cons_self)
  cases hrest : t.dropWhile N.isDigit with
  | nil =>
      rw [hrest] at h
      obtain rfl := Option.some.inj h
      exact ⟨⟨d, whole, hcons, hd⟩, hattaches, [], by rw [← hrest, htext]⟩
  | cons c u =>
      rw [hrest] at h htext
      simp only at h
      split_ifs at h with hfraction
      · obtain rfl := Option.some.inj h
        refine ⟨⟨d, whole ++ c :: u.takeWhile N.isDigit, by rw [hcons]; rfl, hd⟩, ?_,
          u.dropWhile N.isDigit, ?_⟩
        · intro e he
          rw [List.mem_append, List.mem_cons] at he
          obtain hwhole | rfl | hu := he
          · exact hattaches e hwhole
          · rw [hfraction.1]
            exact attaches_full_stop
          · exact attaches_of_isDigit (List.all_eq_true.mp List.all_takeWhile e hu)
        · rw [List.append_assoc, List.cons_append, List.takeWhile_append_dropWhile, htext]
      · obtain rfl := Option.some.inj h
        exact ⟨⟨d, whole, hcons, hd⟩, hattaches, c :: u, htext.symm⟩

/-- A token is a numeral that nothing is attached to, after an optional sign. -/
def IsSigned (token n : Text) : Prop := token = n ∨ token = codePoint '-' :: n

theorem freeNumeral_eq_some {t n : Text} (h : freeNumeral N t = some n) :
    numeralAt N t = some n ∧ (t.drop n.length).head?.any (attaches N) = false := by
  rw [freeNumeral, Option.filter_eq_some_iff] at h
  exact ⟨h.1, by simpa using h.2⟩

theorem numeralsFrom_found {left : Option CodePoint} {n rest : Text}
    (h : numeralAt N (n ++ rest) = some n) :
    numeralsFrom N left (n ++ rest) =
      ⟨left, n, rest.head?⟩ :: numeralsFrom N n.getLast? rest := by
  obtain ⟨⟨c, m, rfl, -⟩, -, -⟩ := numeralAt_eq_some h
  exact scan_found (List.cons_ne_nil c m) h

theorem tokenAt_of_attaches (left : Option CodePoint) (t : Text)
    (hleft : left.any (attaches N) = true) : tokenAt N left t = none := by
  cases t with
  | nil => rfl
  | cons c t => rw [tokenAt, if_pos hleft]

/-- The search passes over a numeral that something is attached to. -/
theorem tokensFrom_numeral {left : Option CodePoint} {n rest : Text}
    (h : numeralAt N (n ++ rest) = some n) :
    tokensFrom N left (n ++ rest) =
      if attached N ⟨left, n, rest.head?⟩ then tokensFrom N n.getLast? rest
      else ⟨left, n, rest.head?⟩ :: tokensFrom N n.getLast? rest := by
  obtain ⟨⟨c, m, rfl, hc⟩, hattaches, -⟩ := numeralAt_eq_some h
  have hminus : c ≠ codePoint '-' := by
    rintro rfl
    rw [isDigit_minus] at hc
    cases hc
  have htoken : tokenAt N left ((c :: m) ++ rest) =
      if attached N ⟨left, c :: m, rest.head?⟩ then none else some (c :: m) := by
    have hfree := freeNumeral_append h
    rw [List.cons_append] at hfree ⊢
    rw [tokenAt, if_neg hminus, hfree, attached]
    by_cases hleft : left.any (attaches N) = true
    · simp [hleft]
    · simp [hleft]
  by_cases hatt : attached N ⟨left, c :: m, rest.head?⟩ = true
  · rw [if_pos hatt] at htoken ⊢
    rw [List.forall_mem_cons] at hattaches
    have hc : (some c).any (attaches N) = true := hattaches.1
    have hscan : tokensFrom N left ((c :: m) ++ rest) = scan (tokenAt N) (some c) 0 (m ++ rest) :=
      scan_none htoken
    rw [hscan, scan_quiet tokenAt_of_attaches hc hattaches.2, List.getLast?_cons]
    cases m.getLast? with
    | none => rfl
    | some d => rfl
  · rw [if_neg hatt] at htoken ⊢
    exact scan_found (List.cons_ne_nil c m) htoken

theorem tokensFrom_signed {left : Option CodePoint} {n rest : Text}
    (h : numeralAt N (n ++ rest) = some n) (hleft : ¬left.any (attaches N) = true)
    (hafter : rest.head?.any (attaches N) = false) :
    tokensFrom N left (codePoint '-' :: (n ++ rest)) =
      ⟨left, codePoint '-' :: n, rest.head?⟩ :: tokensFrom N n.getLast? rest := by
  obtain ⟨⟨c, m, rfl, -⟩, -, -⟩ := numeralAt_eq_some h
  have htoken : tokenAt N left ((codePoint '-' :: c :: m) ++ rest) =
      some (codePoint '-' :: c :: m) := by
    rw [List.cons_append, tokenAt, if_neg hleft, if_pos rfl, freeNumeral_append h, hafter]
    rfl
  have hscan := scan_found (List.cons_ne_nil _ _) htoken
  rw [List.getLast?_cons_cons] at hscan
  exact hscan

/-- The tokens of a text are its numerals that nothing is attached to, in their order. -/
theorem forall₂_tokensFrom (left : Option CodePoint) (t : Text) :
    List.Forall₂ (fun token o => IsSigned token.text o.text) (tokensFrom N left t)
      ((numeralsFrom N left t).filter fun o => !attached N o) := by
  induction hlength : t.length using Nat.strong_induction_on generalizing left t with
  | _ length ih =>
      subst hlength
      cases t with
      | nil => exact .nil
      | cons c u =>
          cases hnumeral : numeralAt N (c :: u) with
          | some n =>
              obtain ⟨⟨d, m, rfl, -⟩, -, rest, htext⟩ := numeralAt_eq_some hnumeral
              have hrest := ih rest.length (by rw [htext]; simp) (d :: m).getLast? rest rfl
              rw [htext] at hnumeral ⊢
              rw [tokensFrom_numeral hnumeral, numeralsFrom_found hnumeral, List.filter_cons]
              by_cases hatt : attached N ⟨left, d :: m, rest.head?⟩ = true
              · simpa [hatt] using hrest
              · rw [if_neg hatt, if_pos (by simpa using hatt)]
                exact .cons (.inl rfl) hrest
          | none =>
              have hnext : numeralsFrom N left (c :: u) = numeralsFrom N (some c) u :=
                scan_none hnumeral
              rw [hnext]
              cases htoken : tokenAt N left (c :: u) with
              | none =>
                  rw [tokensFrom, scan_none htoken]
                  exact ih u.length (by simp) (some c) u rfl
              | some token =>
                  rw [tokenAt] at htoken
                  split_ifs at htoken with hleft hminus
                  · obtain ⟨n, hn, -⟩ := Option.map_eq_some_iff.mp htoken
                    obtain ⟨hn, hafter⟩ := freeNumeral_eq_some hn
                    obtain ⟨-, -, rest, rfl⟩ := numeralAt_eq_some hn
                    rw [List.drop_left] at hafter
                    have hrest := ih rest.length (by simp) n.getLast? rest rfl
                    have hatt : attached N ⟨some c, n, rest.head?⟩ = false := by
                      rw [attached, hafter, hminus, Option.any_some, attaches_minus]
                      rfl
                    rw [hminus, tokensFrom_signed hn hleft hafter, ← hminus, numeralsFrom_found hn,
                      List.filter_cons, hatt, Bool.not_false, if_pos rfl]
                    exact .cons (.inr (by rw [hminus])) hrest
                  · rw [freeNumeral, hnumeral] at htoken
                    cases htoken

theorem map_text_numeralsFrom (left : Option CodePoint) (t : Text) :
    (numeralsFrom N left t).map Occurrence.text = (numerals N t).map Occurrence.text := by
  cases t with
  | nil => rfl
  | cons c t =>
      cases hnumeral : numeralAt N (c :: t) with
      | none =>
          rw [numerals, numeralsFrom, numeralsFrom, scan_none hnumeral, scan_none hnumeral]
      | some n =>
          obtain ⟨-, -, rest, htext⟩ := numeralAt_eq_some hnumeral
          rw [htext] at hnumeral ⊢
          rw [numerals, numeralsFrom_found hnumeral, numeralsFrom_found hnumeral]
          rfl

/-- No numeral crosses a line break. -/
theorem numeralAt_lines (t u : Text) :
    numeralAt N (t ++ codePoint '\n' :: u) = numeralAt N t := by
  have htake : ∀ v : Text, (v ++ codePoint '\n' :: u).takeWhile N.isDigit = v.takeWhile N.isDigit := by
    intro v
    induction v with
    | nil => simp [isDigit_newline]
    | cons c v ih => simp [List.takeWhile_cons, ih]
  have hdrop : ∀ v : Text, (v ++ codePoint '\n' :: u).dropWhile N.isDigit =
      v.dropWhile N.isDigit ++ codePoint '\n' :: u := by
    intro v
    induction v with
    | nil => simp [isDigit_newline]
    | cons c v ih =>
        by_cases hc : N.isDigit c = true
        · simp [hc, ih]
        · simp [hc]
  rw [numeralAt, numeralAt, htake, hdrop]
  cases t.dropWhile N.isDigit with
  | nil =>
      have hne : codePoint '\n' ≠ codePoint '.' := by decide
      simp [hne]
  | cons c v =>
      rw [List.cons_append]
      simp only [htake]

/-- The numerals of two texts with a line break between them. -/
theorem map_text_numerals_lines (t u : Text) :
    (numerals N (t ++ codePoint '\n' :: u)).map Occurrence.text =
      (numerals N t).map Occurrence.text ++ (numerals N u).map Occurrence.text := by
  have hgeneral : ∀ left, (numeralsFrom N left (t ++ codePoint '\n' :: u)).map Occurrence.text =
      (numeralsFrom N left t).map Occurrence.text ++ (numerals N u).map Occurrence.text := by
    induction hlength : t.length using Nat.strong_induction_on generalizing t with
    | _ length ih =>
        subst hlength
        intro left
        have hlines := numeralAt_lines (N := N) t u
        cases t with
        | nil =>
            have hnone : numeralAt N (codePoint '\n' :: u) = none := by
              rw [← List.nil_append (codePoint '\n' :: u), hlines]
              rfl
            rw [List.nil_append, numeralsFrom, scan_none hnone]
            exact map_text_numeralsFrom _ u
        | cons c t =>
            cases hnumeral : numeralAt N (c :: t) with
            | none =>
                rw [hnumeral, List.cons_append] at hlines
                rw [List.cons_append, numeralsFrom, numeralsFrom, scan_none hlines,
                  scan_none hnumeral]
                exact ih t.length (by simp) t rfl (some c)
            | some n =>
                obtain ⟨⟨d, m, rfl, -⟩, -, rest, htext⟩ := numeralAt_eq_some hnumeral
                rw [hnumeral] at hlines
                rw [htext] at hnumeral hlines ⊢
                rw [List.append_assoc] at hlines ⊢
                rw [numeralsFrom_found hnumeral, numeralsFrom_found hlines, List.map_cons,
                  List.map_cons, ih rest.length (by rw [htext]; simp) rest rfl]
                rfl
  exact hgeneral none

/-- `"\n".join(texts)`. -/
def joinedLines : List Text → Text
  | [] => []
  | [t] => t
  | t :: ts => t ++ codePoint '\n' :: joinedLines ts

theorem mem_numerals_joinedLines {ts : List Text} {n : Text} :
    n ∈ (numerals N (joinedLines ts)).map Occurrence.text ↔
      ∃ t ∈ ts, n ∈ (numerals N t).map Occurrence.text := by
  induction ts with
  | nil => simp [joinedLines, numerals, numeralsFrom, scan]
  | cons t ts ih =>
      cases ts with
      | nil => simp [joinedLines]
      | cons u ts =>
          rw [joinedLines, map_text_numerals_lines, List.mem_append, ih]
          · simp
          · simp

theorem isDigit_of_mem_numeralsFrom {left : Option CodePoint} {t : Text}
    {o : Occurrence CodePoint} (h : o ∈ numeralsFrom N left t) :
    ∃ c m, o.text = c :: m ∧ N.isDigit c = true := by
  obtain ⟨-, u, hu⟩ := exists_of_mem_scan h
  exact (numeralAt_eq_some hu).1

theorem IsSigned.unique {token n m : Text} (hn : ∃ c u, n = c :: u ∧ N.isDigit c = true)
    (hm : ∃ c u, m = c :: u ∧ N.isDigit c = true) (h : IsSigned token n) (h' : IsSigned token m) :
    n = m := by
  have hminus : ∀ {n m : Text}, (∃ c u, n = c :: u ∧ N.isDigit c = true) → n ≠ codePoint '-' :: m := by
    rintro n m ⟨c, u, rfl, hc⟩ heq
    rw [(List.cons.inj heq).1, isDigit_minus] at hc
    cases hc
  cases h with
  | inl h =>
      cases h' with
      | inl h' => rw [← h, h']
      | inr h' => exact absurd (h.symm.trans h') (hminus hn)
  | inr h =>
      cases h' with
      | inl h' => exact absurd (h'.symm.trans h) (hminus hm)
      | inr h' => exact (List.cons.inj (h.symm.trans h')).2

/-- Where every token of a text is a token of another, every numeral that nothing is attached
to is a numeral of the other. -/
theorem mem_numerals_of_tokens {t u : Text}
    (h : ∀ token ∈ (numberToken N).findall t, token ∈ (numberToken N).findall u)
    {o : Occurrence CodePoint} (ho : o ∈ numerals N t) (hfree : attached N o = false) :
    o.text ∈ (numerals N u).map Occurrence.text := by
  have hmem : o ∈ (numerals N t).filter fun o => !attached N o :=
    List.mem_filter.mpr ⟨ho, by rw [hfree]; rfl⟩
  obtain ⟨token, htoken, hsigned⟩ := Governance.exists_left_of_mem (forall₂_tokensFrom none t) hmem
  have hfound := h token.text (by rw [findall_numberToken]; exact List.mem_map_of_mem htoken)
  rw [findall_numberToken, List.mem_map] at hfound
  obtain ⟨token', htoken', htext⟩ := hfound
  obtain ⟨o', ho', hsigned'⟩ := Governance.exists_right_of_mem (forall₂_tokensFrom none u) htoken'
  have ho'' := List.mem_of_mem_filter ho'
  rw [htext] at hsigned'
  rw [hsigned.unique (isDigit_of_mem_numeralsFrom ho) (isDigit_of_mem_numeralsFrom ho'') hsigned']
  exact List.mem_map_of_mem ho''

end

end Agent
