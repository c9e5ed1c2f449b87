import CppLinq.SqlLexer

/-!
# The tokens of a definition

`defTokens` splits a text into words, delimited names, string literals and marks : characters
that stand for themselves, such as parentheses and commas. Blanks separate tokens. A delimiter
inside a name or a literal is doubled. What stands between parentheses is split at its commas
by `elements`, a comma inside nested parentheses left where it is.

A text `Spells` its tokens if it does not end inside a name or a literal. Before a delimiter
such texts are put together by `Spells.append`. A text that leaves no token open `Closes` its
tokens, and any text may follow it.
-/

namespace CppLinq

/-- What stands between delimiters. -/
inductive Delimited
  | name | literal
  deriving DecidableEq

/-- The tokens of the definition of a table. -/
inductive DefToken
  | word (w : List Char)
  | quoted (k : Delimited) (s : String)
  | mark (c : Char)
  deriving DecidableEq

/-- The token that is being read, with its characters so far. -/
inductive DefMode
  | idle
  | word (w : List Char)
  | inside (k : Delimited) (s : List Char)
  /-- After a closing delimiter, which may be the first of two. -/
  | after (k : Delimited) (s : List Char)
  deriving DecidableEq

/-- The quotes of string literals. -/
def literalQuotes : Quotes :=
  ⟨'\'', '\'', rfl, rfl, by decide⟩

/-- The delimiters, where names stand between `q`. -/
def Delimited.quotes (q : Quotes) : Delimited → Quotes
  | .name => q
  | .literal => literalQuotes

namespace DefMode

/-- The token that is being read is not inside delimiters. -/
def IsOutside : DefMode → Prop
  | .inside _ _ => False
  | _ => True

instance : DecidablePred IsOutside := fun m => by
  cases m <;> unfold IsOutside <;> infer_instance

/-- The token that is being read, ended here. -/
def finish : DefMode → List DefToken
  | .idle | .inside _ _ => []
  | .word w => [.word w]
  | .after k s => [.quoted k (String.ofList s)]

/-- The token goes on with the character, if it does. -/
def next (q : Quotes) : DefMode → Char → Option DefMode
  | .idle, _ => none
  | .word w, c => if isWordChar c then some (.word (w ++ [c])) else none
  | .inside k s, c =>
    if c = (k.quotes q).closing then some (.after k s) else some (.inside k (s ++ [c]))
  | .after k s, c => if c = (k.quotes q).closing then some (.inside k (s ++ [c])) else none

/-- The first character of a token, a mark or a blank. -/
def start (q : Quotes) (c : Char) : DefMode × List DefToken :=
  if c = q.opening then (.inside .name [], [])
  else if c = '\'' then (.inside .literal [], [])
  else if isWordChar c then (.word [c], [])
  else if c = ' ' then (.idle, [])
  else (.idle, [.mark c])

/-- The mode after a character, and the tokens that it ends. -/
def step (q : Quotes) (m : DefMode) (c : Char) : DefMode × List DefToken :=
  match m.next q c with
  | some m' => (m', [])
  | none => ((start q c).1, m.finish ++ (start q c).2)

/-- The lexer over a text. -/
def run (q : Quotes) : DefMode → List Char → DefMode × List DefToken
  | m, [] => (m, [])
  | m, c :: cs => ((run q (m.step q c).1 cs).1, (m.step q c).2 ++ (run q (m.step q c).1 cs).2)

end DefMode

/-- The tokens of a text. -/
def defTokens (q : Quotes) (cs : List Char) : List DefToken :=
  (DefMode.run q .idle cs).2 ++ (DefMode.run q .idle cs).1.finish

/-! ## Texts and their tokens -/

/-- The text has the tokens, and does not end inside delimiters. -/
def Spells (q : Quotes) (cs : List Char) (ts : List DefToken) : Prop :=
  (DefMode.run q .idle cs).1.IsOutside ∧ defTokens q cs = ts

/-- The text has the tokens and leaves none open. -/
def Closes (q : Quotes) (cs : List Char) (ts : List DefToken) : Prop :=
  DefMode.run q .idle cs = (.idle, ts)

instance (q : Quotes) (cs : List Char) (ts : List DefToken) : Decidable (Spells q cs ts) :=
  inferInstanceAs (Decidable (_ ∧ _))

instance (q : Quotes) (cs : List Char) (ts : List DefToken) : Decidable (Closes q cs ts) :=
  inferInstanceAs (Decidable (_ = _))

section Pieces

open DefMode

variable {q : Quotes} {m : DefMode} {cs ds : List Char} {ts us : List DefToken}

theorem DefMode.run_append (m : DefMode) (cs ds : List Char) :
    run q m (cs ++ ds) =
      ((run q (run q m cs).1 ds).1, (run q m cs).2 ++ (run q (run q m cs).1 ds).2) := by
  induction cs generalizing m with
  | nil => rfl
  | cons c cs ih => simp only [List.cons_append, run, ih, List.append_assoc]

/-- Outside of delimiters a token ends before a delimiter. -/
theorem DefMode.next_of_isDelimiter (hm : m.IsOutside) {c : Char} (hc : isDelimiter c) :
    m.next q c = none := by
  have hword : isWordChar c = false := by
    simp only [isDelimiter, Bool.or_eq_true, beq_iff_eq] at hc
    obtain (rfl | rfl) | rfl := hc <;> rfl
  cases m with
  | idle => rfl
  | word w => simp [next, hword]
  | inside k s => exact hm.elim
  | after k s =>
    have hclosing : c ≠ (k.quotes q).closing := by
      rintro rfl
      rw [(k.quotes q).closing_not_delimiter] at hc
      cases hc
    simp [next, hclosing]

/-- A token that does not go on with the next character may as well have been ended. -/
theorem DefMode.run_of_next {c : Char} (h : m.next q c = none) (cs : List Char) :
    run q m (c :: cs) = ((run q .idle (c :: cs)).1, m.finish ++ (run q .idle (c :: cs)).2) := by
  have hidle : DefMode.idle.next q c = none := rfl
  simp [run, step, h, hidle, finish]

theorem Spells.nil : Spells q [] [] :=
  ⟨trivial, rfl⟩

theorem Closes.append (h : Closes q cs ts) (h' : Spells q ds us) :
    Spells q (cs ++ ds) (ts ++ us) := by
  rw [Closes] at h
  obtain ⟨houtside, rfl⟩ := h'
  simpa [Spells, defTokens, run_append, h] using houtside

/-- Texts are put together where the second begins with a delimiter, or is empty. -/
theorem Spells.append (h : Spells q cs ts) (h' : Spells q ds us)
    (hds : ∀ c ∈ ds.head?, isDelimiter c) : Spells q (cs ++ ds) (ts ++ us) := by
  obtain ⟨houtside, rfl⟩ := h
  obtain ⟨houtside', rfl⟩ := h'
  cases ds with
  | nil => simpa [Spells, defTokens, run, finish] using houtside
  | cons c ds =>
    have hrun := run_of_next (next_of_isDelimiter (q := q) houtside (hds c rfl)) ds
    simpa [Spells, defTokens, run_append, hrun] using houtside'

/-- A dot is a mark of its own after any token. -/
theorem Spells.append_dot (h : Spells q cs ts) (hdot : start q '.' = (.idle, [.mark '.']))
    (h' : Spells q ds us) (hcs : ∀ k s, (run q .idle cs).1 = .after k s →
      (k.quotes q).closing ≠ '.') : Spells q (cs ++ '.' :: ds) (ts ++ .mark '.' :: us) := by
  obtain ⟨houtside, rfl⟩ := h
  obtain ⟨houtside', rfl⟩ := h'
  have hnext : (run q .idle cs).1.next q '.' = none := by
    cases hmode : (run q .idle cs).1 with
    | idle => rfl
    | word w => rfl
    | inside k s => exact absurd houtside (by rw [hmode]; exact id)
    | after k s => exact if_neg (hcs k s hmode).symm
  have hrun := run_of_next hnext ds
  have hstep : DefMode.idle.step q '.' = (.idle, [.mark '.']) := by
    rw [step, next, hdot]
    rfl
  have hidle : run q .idle ('.' :: ds) =
      ((run q .idle ds).1, [.mark '.'] ++ (run q .idle ds).2) := by
    rw [run, hstep]
  simpa [Spells, defTokens, run_append, hrun, hidle] using houtside'

/-- The characters of a name or a literal are read up to its closing delimiter. -/
theorem DefMode.run_inside (k : Delimited) (acc s : List Char) :
    run q (.inside k acc) ((s.flatMap fun c =>
      if c = (k.quotes q).closing then [c, c] else [c]) ++ [(k.quotes q).closing]) =
      (.after k (acc ++ s), []) := by
  induction s generalizing acc with
  | nil => simp [run, step, next]
  | cons a s ih =>
    have hrun := ih (acc ++ [a])
    rw [List.append_assoc] at hrun
    rw [List.flatMap_cons, List.append_assoc]
    by_cases ha : a = (k.quotes q).closing
    · rw [if_pos ha]
      rw [ha] at hrun ⊢
      simp [run, step, next, hrun]
    · rw [if_neg ha]
      simp [run, step, next, ha, hrun]

theorem DefMode.run_quoteChars {k : Delimited} (hnext : m.next q (k.quotes q).opening = none)
    (hstart : start q (k.quotes q).opening = (.inside k [], [])) (s : List Char) :
    run q m (quoteChars (k.quotes q) s) = (.after k s, m.finish) := by
  have hstep : m.step q (k.quotes q).opening = (.inside k [], m.finish) := by
    simp [step, hnext, hstart]
  rw [quoteChars, List.cons_append, run, hstep, run_inside]
  simp

theorem spells_name (id : String) :
    Spells q (quoteChars q id.toList) [.quoted .name id] := by
  have hstart : start q q.opening = (.inside .name [], []) := if_pos rfl
  have hrun := run_quoteChars (q := q) (m := .idle) (k := .name) rfl hstart id.toList
  rw [Delimited.quotes] at hrun
  simp [Spells, defTokens, hrun, IsOutside, finish]

end Pieces

/-! ## Elements -/

/-- The nesting after a token, unless the token ends an element that is not nested. -/
def DefToken.depth (n : ℕ) (t : DefToken) : Option ℕ :=
  if t = .mark '(' then some (n + 1)
  else if t = .mark ')' then (if n = 0 then none else some (n - 1))
  else if t = .mark ',' then (if n = 0 then none else some n)
  else some n

/-- The tokens between a parenthesis and the one that closes it, split at the commas that are
not nested. -/
def elements : ℕ → List DefToken → List DefToken → List (List DefToken)
  | _, es, [] => [es]
  | n, es, t :: ts =>
    match t.depth n with
    | some m => elements m (es ++ [t]) ts
    | none => if t = .mark ',' then es :: elements 0 [] ts else [es]

/-- Every parenthesis is closed, and every comma is nested. -/
def Balanced (es : List DefToken) : Prop :=
  es.foldlM DefToken.depth 0 = some 0

instance : DecidablePred Balanced := fun es =>
  inferInstanceAs (Decidable (es.foldlM DefToken.depth 0 = some 0))

section Elements

variable {es ts : List DefToken}

theorem Balanced.append (h : Balanced es) (h' : Balanced ts) : Balanced (es ++ ts) := by
  rw [Balanced] at h h' ⊢
  rw [List.foldlM_append, h]
  exact h'

theorem elements_append {n m : ℕ} (h : es.foldlM DefToken.depth n = some m)
    (acc ts : List DefToken) : elements n acc (es ++ ts) = elements m (acc ++ es) ts := by
  induction es generalizing n acc with
  | nil =>
    cases h
    simp
  | cons t es ih =>
    rw [List.foldlM_cons] at h
    obtain ⟨k, hk, h⟩ := Option.bind_eq_some_iff.mp h
    rw [List.cons_append, elements, hk]
    simpa using ih h (acc ++ [t])

/-- Balanced elements are read back, up to the end or a parenthesis that is not theirs. -/
theorem elements_intercalate {ess : List (List DefToken)} (hne : ess ≠ [])
    (h : ∀ es ∈ ess, Balanced es) {rest : List DefToken}
    (hrest : ∀ acc, elements 0 acc rest = [acc]) :
    elements 0 [] (List.intercalate [.mark ','] ess ++ rest) = ess := by
  induction ess with
  | nil => contradiction
  | cons es ess ih =>
    have hes : Balanced es := h es List.mem_cons_self
    cases ess with
    | nil =>
      rw [List.intercalate_singleton, elements_append hes, List.nil_append, hrest]
    | cons fs ess =>
      have hcomma : (DefToken.mark ',').depth 0 = none := rfl
      have htail := ih (List.cons_ne_nil fs ess) fun gs hgs => h gs (List.mem_cons_of_mem _ hgs)
      rw [List.intercalate_cons_cons, List.append_assoc, List.append_assoc, elements_append hes,
        List.nil_append, List.cons_append, List.nil_append, elements, hcomma]
      exact congrArg (es :: ·) htail

end Elements

end CppLinq
