import CppLinq.SqlGrammar

/-!
# The tokens of a text

`lex` splits a text into the tokens of `SqlGrammar`. Identifiers stand between the quotes of
a dialect, a closing quote inside doubled; the parameters, all written `?`, are numbered from
left to right; a word directly before a parenthesis calls a function unless it is reserved.

A piece of text that leaves the lexer between two tokens `Reads` its tokens. A piece that
may end inside a token still `Lexes` its tokens, if a delimiter or the end follows.
-/

namespace CppLinq

/-- A character of a word. -/
def isWordChar (c : Char) : Bool :=
  c.isAlphanum || c == '_'

/-- A character of an operator. -/
def isOpChar (c : Char) : Bool :=
  c == '<' || c == '>' || c == '='

/-- The characters that end a token and begin none that is longer. -/
def isDelimiter (c : Char) : Bool :=
  c == ' ' || c == ')' || c == ','

/-- The quotes of identifiers. They are no characters of other tokens. -/
structure Quotes where
  opening : Char
  closing : Char
  opening_not_word : isWordChar opening = false
  closing_not_delimiter : isDelimiter closing = false
  closing_ne_dot : closing ≠ '.'

/-- The words that are no names. -/
def keyword? (w : List Char) : Option Token :=
  if w = "AND".toList then some .and
  else if w = "OR".toList then some .or
  else if w = "NOT".toList then some .not
  else if w = "IS".toList then some .is
  else if w = "NULL".toList then some .null
  else if w = "BETWEEN".toList then some .between
  else if w = "LIKE".toList then some .like
  else if w = "IN".toList then some .in_
  else none

/-- The comparison that a run of operator characters is. -/
def comparison? (w : List Char) : Option Comparison :=
  if w = "=".toList then some .eq
  else if w = "<>".toList then some .ne
  else if w = "<".toList then some .lt
  else if w = "<=".toList then some .le
  else if w = ">".toList then some .gt
  else if w = ">=".toList then some .ge
  else none

/-- The token that is being read, with its characters so far. -/
inductive LexMode
  | idle
  | word (w : List Char)
  | op (w : List Char)
  /-- Inside quotes, after the given qualifier if there is one. -/
  | quoted (table : Option (List Char)) (name : List Char)
  /-- After a closing quote, which may be the first of two. -/
  | quoteEnd (table : Option (List Char)) (name : List Char)
  /-- After the dot behind a qualifier. -/
  | qualified (table : List Char)

/-- A lexer that has numbered `count` parameters, with the tokens so far, the last first. -/
structure LexState where
  mode : LexMode
  count : ℕ
  out : List Token

namespace LexState

/-- End the token that is being read. -/
def flush (st : LexState) : Option LexState :=
  match st.mode with
  | .idle => some ⟨.idle, st.count, st.out⟩
  | .word w => (keyword? w).map fun t => ⟨.idle, st.count, t :: st.out⟩
  | .op w => (comparison? w).map fun o => ⟨.idle, st.count, .op o :: st.out⟩
  | .quoteEnd table name =>
    some ⟨.idle, st.count,
      .column (String.ofList (table.getD [])) (String.ofList name) :: st.out⟩
  | .quoted _ _ | .qualified _ => none

/-- The first character of a token, or a separator. -/
def start (q : Quotes) (st : LexState) (c : Char) : Option LexState :=
  if c = q.opening then some { st with mode := .quoted none [] }
  else if isWordChar c then some { st with mode := .word [c] }
  else if isOpChar c then some { st with mode := .op [c] }
  else if c = ' ' then some st
  else if c = '(' then some { st with out := .lparen :: st.out }
  else if c = ')' then some { st with out := .rparen :: st.out }
  else if c = ',' then some { st with out := .comma :: st.out }
  else if c = '?' then
    some { st with count := st.count + 1, out := .param st.count :: st.out }
  else none

/-- The lexer takes a character. -/
def step (q : Quotes) (st : LexState) (c : Char) : Option LexState :=
  match st.mode with
  | .idle => st.start q c
  | .word w =>
    if isWordChar c then some { st with mode := .word (w ++ [c]) }
    else if c = '(' ∧ keyword? w = none then
      some ⟨.idle, st.count, .call (String.ofList w) :: st.out⟩
    else st.flush.bind fun st => st.start q c
  | .op w =>
    if isOpChar c then some { st with mode := .op (w ++ [c]) }
    else st.flush.bind fun st => st.start q c
  | .quoted table name =>
    if c = q.closing then some { st with mode := .quoteEnd table name }
    else some { st with mode := .quoted table (name ++ [c]) }
  | .quoteEnd table name =>
    if c = q.closing then some { st with mode := .quoted table (name ++ [c]) }
    else if c = '.' ∧ table = none then some { st with mode := .qualified name }
    else st.flush.bind fun st => st.start q c
  | .qualified table =>
    if c = q.opening then some { st with mode := .quoted (some table) [] } else none

/-- The lexer over a text. -/
def run (q : Quotes) : LexState → List Char → Option LexState
  | st, [] => some st
  | st, c :: cs => (st.step q c).bind fun st => run q st cs

end LexState

/-- The tokens of a text. -/
def lex (q : Quotes) (cs : List Char) : Option (List Token) := do
  let st ← LexState.run q ⟨.idle, 0, []⟩ cs
  let st ← st.flush
  return st.out.reverse

/-! ## Reading pieces of text -/

section Pieces

open LexState

variable {q : Quotes}

theorem LexState.run_append (st : LexState) (cs ds : List Char) :
    run q st (cs ++ ds) = (run q st cs).bind fun st => run q st ds := by
  induction cs generalizing st with
  | nil => rfl
  | cons c cs ih =>
    rw [List.cons_append, run, run, Option.bind_assoc]
    exact congrArg _ (funext ih)

/-- A delimiter does the same whether or not the token before it has been ended. -/
theorem LexState.step_of_flush {st st' : LexState} (h : st.flush = some st') {c : Char}
    (hc : isDelimiter c) : st.step q c = st'.step q c := by
  have hword : isWordChar c = false := by
    simp only [isDelimiter, Bool.or_eq_true, beq_iff_eq] at hc
    rcases hc with (rfl | rfl) | rfl <;> rfl
  have hop : isOpChar c = false := by
    simp only [isDelimiter, Bool.or_eq_true, beq_iff_eq] at hc
    rcases hc with (rfl | rfl) | rfl <;> rfl
  have hparen : c ≠ '(' := by
    rintro rfl
    contradiction
  have hdot : c ≠ '.' := by
    rintro rfl
    contradiction
  have hclosing : c ≠ q.closing := by
    rintro rfl
    rw [q.closing_not_delimiter] at hc
    contradiction
  obtain ⟨mode, count, out⟩ := st
  cases mode with
  | idle =>
    injection h with h
    rw [← h]
  | word w =>
    cases hw : keyword? w with
    | none => simp [flush, hw] at h
    | some t =>
      simp only [flush, hw, Option.map_some, Option.some.injEq] at h
      subst h
      simp [step, hword, hparen, flush, hw]
  | op w =>
    cases hw : comparison? w with
    | none => simp [flush, hw] at h
    | some o =>
      simp only [flush, hw, Option.map_some, Option.some.injEq] at h
      subst h
      simp [step, hop, flush, hw]
  | quoteEnd table name =>
    simp only [flush, Option.some.injEq] at h
    subst h
    simp [step, hclosing, hdot, flush]
  | quoted | qualified => simp [flush] at h

/-- From between two tokens the text leads to between two tokens, and is the tokens `ts`. -/
def Reads (q : Quotes) (k : ℕ) (cs : List Char) (k' : ℕ) (ts : List Token) : Prop :=
  ∀ out, run q ⟨.idle, k, out⟩ cs = some ⟨.idle, k', ts.reverse ++ out⟩

/-- From between two tokens the text is the tokens `ts`, once the last has been ended. -/
def Lexes (q : Quotes) (k : ℕ) (cs : List Char) (k' : ℕ) (ts : List Token) : Prop :=
  ∀ out, ∃ st, run q ⟨.idle, k, out⟩ cs = some st ∧ st.flush = some ⟨.idle, k', ts.reverse ++ out⟩

variable {k k₁ k₂ : ℕ} {cs ds : List Char} {ts us : List Token}

theorem Reads.lexes (h : Reads q k cs k₁ ts) : Lexes q k cs k₁ ts :=
  fun out => ⟨_, h out, rfl⟩

theorem Reads.append (h : Reads q k cs k₁ ts) (h' : Reads q k₁ ds k₂ us) :
    Reads q k (cs ++ ds) k₂ (ts ++ us) := by
  intro out
  rw [run_append, h out, Option.bind_some, h', List.reverse_append, List.append_assoc]

theorem Reads.append_lexes (h : Reads q k cs k₁ ts) (h' : Lexes q k₁ ds k₂ us) :
    Lexes q k (cs ++ ds) k₂ (ts ++ us) := by
  intro out
  obtain ⟨st, hrun, hflush⟩ := h' (ts.reverse ++ out)
  refine ⟨st, ?_, by rw [hflush, List.reverse_append, List.append_assoc]⟩
  rw [run_append, h out, Option.bind_some, hrun]

theorem Lexes.append_lexes (h : Lexes q k cs k₁ ts) (h' : Lexes q k₁ ds k₂ us)
    (hds : ds.head?.any isDelimiter) : Lexes q k (cs ++ ds) k₂ (ts ++ us) := by
  intro out
  cases ds with
  | nil => simp at hds
  | cons c ds =>
    obtain ⟨st, hrun, hflush⟩ := h out
    obtain ⟨st', hrun', hflush'⟩ := h' (ts.reverse ++ out)
    refine ⟨st', ?_, by rw [hflush', List.reverse_append, List.append_assoc]⟩
    rw [run_append, hrun, Option.bind_some, run, step_of_flush hflush hds]
    exact hrun'

theorem Lexes.append_reads (h : Lexes q k cs k₁ ts) (h' : Reads q k₁ ds k₂ us)
    (hds : ds.head?.any isDelimiter) : Reads q k (cs ++ ds) k₂ (ts ++ us) := by
  intro out
  cases ds with
  | nil => simp at hds
  | cons c ds =>
    obtain ⟨st, hrun, hflush⟩ := h out
    rw [run_append, hrun, Option.bind_some, run, step_of_flush hflush hds]
    exact (h' (ts.reverse ++ out)).trans (by rw [List.reverse_append, List.append_assoc])

theorem lex_eq_of_lexes (h : Lexes q 0 cs k ts) : lex q cs = some ts := by
  obtain ⟨st, hrun, hflush⟩ := h []
  simp [lex, hrun, hflush]

/-- An identifier between quotes, with every closing quote in it doubled. -/
def quoteChars (q : Quotes) (name : List Char) : List Char :=
  q.opening :: (name.flatMap fun c => if c = q.closing then [c, c] else [c]) ++ [q.closing]

theorem run_quoted (table : Option (List Char)) (acc name : List Char) (out : List Token) :
    run q ⟨.quoted table acc, k, out⟩
        ((name.flatMap fun c => if c = q.closing then [c, c] else [c]) ++ [q.closing]) =
      some ⟨.quoteEnd table (acc ++ name), k, out⟩ := by
  induction name generalizing acc with
  | nil => simp [run, step]
  | cons a name ih =>
    rw [List.flatMap_cons, List.append_assoc]
    by_cases ha : a = q.closing
    · rw [if_pos ha]
      have hrun := ih (acc ++ [a])
      rw [List.append_assoc] at hrun
      simpa [run, step, ha] using hrun
    · rw [if_neg ha]
      have hrun := ih (acc ++ [a])
      rw [List.append_assoc] at hrun
      simpa [run, step, ha] using hrun

/-- An identifier is a column without table. -/
theorem lexes_name (name : List Char) :
    Lexes q k (quoteChars q name) k [.column "" (String.ofList name)] := by
  intro out
  refine ⟨⟨.quoteEnd none name, k, out⟩, ?_, rfl⟩
  have hstart : step q ⟨.idle, k, out⟩ q.opening = some ⟨.quoted none [], k, out⟩ := by
    simp [step, start]
  rw [quoteChars, List.cons_append, run, hstart, Option.bind_some, run_quoted]
  rfl

/-- Two identifiers with a dot between them are a column of a table. -/
theorem lexes_qualified_name (table name : List Char) :
    Lexes q k (quoteChars q table ++ '.' :: quoteChars q name) k
      [.column (String.ofList table) (String.ofList name)] := by
  intro out
  refine ⟨⟨.quoteEnd (some table) name, k, out⟩, ?_, rfl⟩
  have hstart : step q ⟨.idle, k, out⟩ q.opening = some ⟨.quoted none [], k, out⟩ := by
    simp [step, start]
  have hdot : step q ⟨.quoteEnd none table, k, out⟩ '.' = some ⟨.qualified table, k, out⟩ := by
    simp [step, q.closing_ne_dot.symm]
  have hopening : step q ⟨.qualified table, k, out⟩ q.opening =
      some ⟨.quoted (some table) [], k, out⟩ := by
    simp [step]
  have htable : run q ⟨.idle, k, out⟩ (quoteChars q table) =
      some ⟨.quoteEnd none table, k, out⟩ := by
    rw [quoteChars, List.cons_append, run, hstart, Option.bind_some, run_quoted]
    rfl
  rw [run_append, htable, Option.bind_some, run, hdot, Option.bind_some, quoteChars,
    List.cons_append, run, hopening, Option.bind_some, run_quoted]
  rfl

/-- The word may name a function. -/
def IsFunctionName (w : List Char) : Prop :=
  w ≠ [] ∧ (∀ c ∈ w, isWordChar c) ∧ keyword? w = none

theorem run_word (acc w : List Char) (hw : ∀ c ∈ w, isWordChar c) (out : List Token) :
    run q ⟨.word acc, k, out⟩ w = some ⟨.word (acc ++ w), k, out⟩ := by
  induction w generalizing acc with
  | nil => simp [run]
  | cons c w ih =>
    have hc : step q ⟨.word acc, k, out⟩ c = some ⟨.word (acc ++ [c]), k, out⟩ := by
      simp [step, hw c (by simp)]
    rw [run, hc, Option.bind_some, ih _ fun d hd => hw d (by simp [hd]), List.append_assoc]
    rfl

/-- A function name and its parenthesis. -/
theorem reads_call {w : List Char} (hw : IsFunctionName w) :
    Reads q k (w ++ ['(']) k [.call (String.ofList w)] := by
  obtain ⟨hne, hchars, hkeyword⟩ := hw
  intro out
  cases w with
  | nil => contradiction
  | cons c w =>
    have hc : isWordChar c = true := hchars c (by simp)
    have hopening : c ≠ q.opening := by
      rintro rfl
      rw [q.opening_not_word] at hc
      contradiction
    have hstart : step q ⟨.idle, k, out⟩ c = some ⟨.word [c], k, out⟩ := by
      simp [step, start, hopening, hc]
    have hparen : isWordChar '(' = false := rfl
    have hcall : step q ⟨.word (c :: w), k, out⟩ '(' =
        some ⟨.idle, k, .call (String.ofList (c :: w)) :: out⟩ := by
      simp [step, hparen, hkeyword]
    rw [run_append, run, hstart, Option.bind_some, run_word _ _ fun d hd => hchars d (by simp [hd]),
      Option.bind_some, List.singleton_append, run, hcall]
    rfl

end Pieces

end CppLinq
