import CppLinq.PredicateRoundTrip
import CppLinq.Readers

/-!
# Predicates in a statement

A predicate in a statement ends where a clause begins : at a blank and a word of the clauses
(`clauseWords`), outside quotes. None of these words is reserved in predicates, so the lexer
never finds one inside a text that it takes for a predicate (`not_beginsClause`), and
`readTree` gives the tree of a predicate back whatever clause follows it (`takes_tree`).
-/

namespace CppLinq

/-! ## Where a clause begins -/

/-- A blank, one of the words, and the end of the word. -/
def beginsClause (words : List (List Char)) : List Char → Bool
  | [] => false
  | c :: cs => c == ' ' && words.any fun w =>
    (cs.dropPrefix? w).any fun rest => rest.head?.all isDelimiter

/-- The lexer is inside a quoted name. -/
def LexMode.isQuoted : LexMode → Bool
  | .quoted _ _ | .qualified _ => true
  | _ => false

/-- The lexer up to the first of the words that stands outside quotes. -/
def lexClause (q : Quotes) (words : List (List Char)) :
    LexState → List Char → Option (LexState × List Char)
  | st, [] => some (st, [])
  | st, c :: cs =>
    if !st.mode.isQuoted && beginsClause words (c :: cs) then some (st, c :: cs)
    else (st.step q c).bind fun st => lexClause q words st cs

section Clauses

open LexState

variable {q : Quotes} {words : List (List Char)} {k : ℕ} {out : List Token} {st st' st'' : LexState}
  {rest : List Char}

theorem run_idle_word {w : List Char} (hw : IsFunctionName w) :
    run q ⟨.idle, k, out⟩ w = some ⟨.word w, k, out⟩ := by
  obtain ⟨hne, hchars, -⟩ := hw
  obtain ⟨c, w, rfl⟩ := List.exists_cons_of_ne_nil hne
  have hc : isWordChar c = true := hchars c List.mem_cons_self
  have hq : c ≠ q.opening := by
    rintro rfl
    rw [q.opening_not_word] at hc
    contradiction
  have hstart : step q ⟨.idle, k, out⟩ c = some ⟨.word [c], k, out⟩ := by
    simp [step, start, hq, hc]
  rw [run, hstart, Option.bind_some, run_word _ _ fun x hx => hchars x (List.mem_cons_of_mem c hx)]
  rfl

/-- Outside quotes, a blank ends the token before it. -/
theorem step_blank (hopening : q.opening ≠ ' ') (hst : st.mode.isQuoted = false)
    (h : st.step q ' ' = some st') : st'.mode = .idle := by
  have hclosing : ' ' ≠ q.closing := by
    intro hclosing
    have hnot := q.closing_not_delimiter
    rw [← hclosing] at hnot
    contradiction
  have hstart : ∀ s : LexState, s.start q ' ' = some s := by
    intro s
    have hword : isWordChar ' ' = false := rfl
    have hop : isOpChar ' ' = false := rfl
    simp [start, hopening.symm, hword, hop]
  have hword : isWordChar ' ' = false := rfl
  have hop : isOpChar ' ' = false := rfl
  obtain ⟨mode, count, toks⟩ := st
  cases mode with
  | idle =>
    rw [step, hstart, Option.some.injEq] at h
    rw [← h]
  | word w =>
    cases hw : keyword? w with
    | none => simp [step, flush, hword, hw] at h
    | some t =>
      simp [step, flush, hword, hw, hstart] at h
      rw [← h]
  | op w =>
    cases hw : comparison? w with
    | none => simp [step, flush, hop, hw] at h
    | some o =>
      simp [step, flush, hop, hw, hstart] at h
      rw [← h]
  | quoteEnd table name =>
    simp [step, flush, hclosing, hstart] at h
    rw [← h]
  | quoted | qualified => contradiction

theorem beginsClause_cases {cs : List Char} (h : beginsClause words cs = true) :
    ∃ w ∈ words, ∃ tail, cs = ' ' :: (w ++ tail) ∧ tail.head?.all isDelimiter = true := by
  cases cs with
  | nil => contradiction
  | cons c cs =>
    rw [beginsClause, Bool.and_eq_true, beq_iff_eq, List.any_eq_true] at h
    obtain ⟨rfl, w, hw, hdrop⟩ := h
    obtain ⟨tail, htail, hdelimiter⟩ := (Option.any_eq_true _ _).mp hdrop
    rw [List.dropPrefix?_eq_some_iff] at htail
    obtain ⟨w', rfl, hw'⟩ := htail
    rw [eq_of_beq hw'] at *
    exact ⟨w, hw, tail, rfl, hdelimiter⟩

/-- What the lexer takes for a predicate goes on for no clause. -/
theorem not_beginsClause (hopening : q.opening ≠ ' ') (hwords : ∀ w ∈ words, IsFunctionName w)
    {c : Char} {cs : List Char} (hst : st.mode.isQuoted = false)
    (hrun : run q st (c :: cs) = some st') (hflush : st'.flush = some st'')
    (hrest : rest.head?.all (!isWordChar ·) = true) :
    beginsClause words (c :: (cs ++ rest)) = false := by
  refine Bool.eq_false_iff.mpr fun hbegins => ?_
  obtain ⟨w, hw, tail, hcons, htail⟩ := beginsClause_cases hbegins
  obtain ⟨rfl, htext⟩ := List.cons.inj hcons
  have hname := hwords w hw
  rw [run, Option.bind_eq_some_iff] at hrun
  obtain ⟨⟨mode, k, out⟩, hblank, hrun⟩ := hrun
  obtain rfl := step_blank hopening hst hblank
  -- the word ends with the text or before it
  have hinside : ∀ more, cs = w ++ more → (more ++ rest).head?.all isDelimiter = true → False := by
    rintro more rfl hmore
    rw [run_append, run_idle_word hname, Option.bind_some] at hrun
    cases more with
    | nil =>
      rw [run, Option.some.injEq] at hrun
      subst hrun
      simp [flush, hname.2.2] at hflush
    | cons x more =>
      have hx : isDelimiter x = true := hmore
      have hword : isWordChar x = false := by
        simp only [isDelimiter, Bool.or_eq_true, beq_iff_eq] at hx
        rcases hx with (rfl | rfl) | rfl <;> rfl
      have hparen : x ≠ '(' := by
        rintro rfl
        contradiction
      simp [run, step, flush, hword, hparen, hname.2.2] at hrun
  rcases List.append_eq_append_iff.mp htext with ⟨more, rfl, rfl⟩ | ⟨more, rfl, rfl⟩
  · cases more with
    | nil => exact hinside [] (by simp) htail
    | cons x more =>
      have hx : isWordChar x = true := hname.2.1 x (by simp)
      have hnot : isWordChar x = false := by simpa using hrest
      rw [hx] at hnot
      contradiction
  · exact hinside more rfl htail

theorem head?_of_beginsClause (h : beginsClause words rest = true) :
    rest.head?.all (!isWordChar ·) = true := by
  obtain ⟨w, -, tail, rfl, -⟩ := beginsClause_cases h
  rfl

theorem isQuoted_of_flush (h : st.flush = some st') : st.mode.isQuoted = false := by
  obtain ⟨mode, count, toks⟩ := st
  cases mode with
  | quoted | qualified => contradiction
  | _ => rfl

/-- The lexer goes to the end of a text, and no further than to the next clause. -/
theorem lexClause_append (hopening : q.opening ≠ ' ') (hwords : ∀ w ∈ words, IsFunctionName w)
    {cs : List Char} (hrun : run q st cs = some st') (hflush : st'.flush = some st'')
    (hrest : rest = [] ∨ beginsClause words rest = true) :
    lexClause q words st (cs ++ rest) = some (st', rest) := by
  induction cs generalizing st with
  | nil =>
    rw [run, Option.some.injEq] at hrun
    subst hrun
    rcases hrest with rfl | hrest
    · rfl
    · cases rest with
      | nil => contradiction
      | cons c rest =>
        rw [List.nil_append, lexClause, hrest, isQuoted_of_flush hflush]
        rfl
  | cons c cs ih =>
    have hhead : rest.head?.all (!isWordChar ·) = true := by
      rcases hrest with rfl | hrest
      · rfl
      · exact head?_of_beginsClause hrest
    have hnot : (!st.mode.isQuoted && beginsClause words (c :: (cs ++ rest))) = false := by
      cases hst : st.mode.isQuoted with
      | true => rfl
      | false =>
        rw [not_beginsClause hopening hwords hst hrun hflush hhead]
        rfl
    rw [run, Option.bind_eq_some_iff] at hrun
    obtain ⟨st₁, hstep, hrun⟩ := hrun
    rw [List.cons_append, lexClause, hnot, if_neg Bool.false_ne_true, hstep, Option.bind_some]
    exact ih hrun

end Clauses

/-! ## Reading predicates in front of a clause -/

/-- The words of clauses, and those that end an ordering term or an operand. -/
def clauseWords : List (List Char) :=
  ["INNER", "LEFT", "WHERE", "UNION", "INTERSECT", "EXCEPT", "GROUP", "HAVING", "ORDER", "LIMIT",
    "OFFSET", "ASC", "DESC"].map String.toList

/-- A text ends here, or a clause begins. -/
def AtClause (rest : List Char) : Prop :=
  rest = [] ∨ beginsClause clauseWords rest = true

section Readers

open Reader

variable (d : Dialect) (slots : List ParameterSlot)

/-- The tokens up to the next clause, the parameters numbered from `k` on, and the number of
the next parameter. -/
def readTokens (k : ℕ) : Reader Char (List Token × ℕ) := fun cs => do
  let (st, rest) ← lexClause d.quotes clauseWords ⟨.idle, k, []⟩ cs
  let st ← st.flush
  return ((st.out.reverse, st.count), rest)

/-- A predicate, whose parameters are the values of `slots`. -/
def readTree (k : ℕ) : Reader Char (ExprNode × ℕ) := do
  let (ts, k) ← readTokens d k
  match parse (predicateNodes slots) ts with
  | some e => return (e, k)
  | none => failure

/-- Predicates with commas between them, read as the arguments of a call. -/
def readTrees (k : ℕ) : Reader Char (List ExprNode × ℕ) := do
  let (ts, k) ← readTokens d k
  match parse (predicateNodes slots) (.call "" :: (ts ++ [.rparen])) with
  | some (.function _ es) => return (es, k)
  | _ => failure

end Readers

/-- The text of the tree gives it back. -/
def ExprNode.Readable (d : Dialect) (n : ExprNode) : Prop :=
  ∀ m ∈ n.visited, m.IsPredicateNode d ∧ m.OperandsFit

section Trees

variable {d : Dialect} {slots : List ParameterSlot} {rest : List Char} {n : ExprNode}

theorem isFunctionName_clauseWords : ∀ w ∈ clauseWords, IsFunctionName w := by
  intro w hw
  simp only [clauseWords, List.map_cons, List.map_nil, List.mem_cons, List.not_mem_nil,
    or_false] at hw
  rcases hw with rfl | rfl | rfl | rfl | rfl | rfl | rfl | rfl | rfl | rfl | rfl | rfl | rfl <;>
    exact ⟨by decide, List.all_eq_true.mp (by decide), by decide⟩

theorem opening_ne_blank (d : Dialect) : d.quotes.opening ≠ ' ' := by
  cases d <;> decide

/-- Tokens are read up to the next clause. -/
theorem takes_tokens {k k' : ℕ} {cs : List Char} {ts : List Token}
    (h : Lexes d.quotes k cs k' ts) (hrest : AtClause rest) :
    Takes (readTokens d k) cs (ts, k') rest := by
  obtain ⟨st, hrun, hflush⟩ := h []
  have hlex := lexClause_append (opening_ne_blank d) isFunctionName_clauseWords hrun hflush hrest
  unfold Takes readTokens
  rw [StateT.run, hlex]
  simp [hflush]

theorem ExprNode.Readable.spelled (h : n.Readable d) : Spelled d n :=
  spelled_of_predicate fun m hm => (h m hm).1

theorem ExprNode.Readable.derived (h : n.Readable d) : Derived d slots n :=
  derived_of_operandsFit (fun m hm => (h m hm).1) fun m hm => (h m hm).2

/-- A tree is read back from its text, up to the next clause. -/
theorem takes_tree (h : n.Readable d) (c : Context)
    (hslots : n.leaves <+: slots.drop c.paramCounter) (hrest : AtClause rest) :
    Takes (readTree d slots c.paramCounter) (d.write (visit d n c).1)
      (n.inDialect d, c.paramCounter + n.leaves.length) rest := by
  have hparse := parse_of_derives (h.derived.disj hslots)
  refine Takes.bind_nil (takes_tokens (h.spelled c) hrest) ?_
  simp only [hparse]
  exact takes_pure _ rest

theorem takes_trees {ns : List ExprNode} (hne : ns ≠ []) (h : ∀ n ∈ ns, n.Readable d)
    (c : Context) (hslots : ns.flatMap ExprNode.leaves <+: slots.drop c.paramCounter)
    (hrest : AtClause rest) :
    Takes (readTrees d slots c.paramCounter) (d.write (visitList d ns c).1)
      (ExprNode.inDialectList d ns, c.paramCounter + (ns.flatMap ExprNode.leaves).length)
      rest := by
  have hitems := derives_tokensList hne (fun n hn => (h n hn).derived) hslots
  have hparse := parse_of_derives
    (.disj (.conj (.neg (.pred (.call "" hitems)))))
  refine Takes.bind_nil (takes_tokens (spelled_list hne (fun n hn => (h n hn).spelled) c)
    hrest) ?_
  simp only [hparse]
  exact takes_pure _ rest

end Trees

end CppLinq
