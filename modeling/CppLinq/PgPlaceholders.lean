import CppLinq.StatementNames
import CppLinq.SlotCorrespondence

/-!
# Placeholders of PostgreSQL

`convert_placeholders_to_pg` (`src/driver/postgres_connection.cpp`) writes `$1`, `$2`, … for
the marks `?` of a text that stand outside quotes. It keeps two flags, one for each kind of
quote. On a statement of the generator it is outside both between two pieces, and so the marks
it replaces are the placeholders (`convertPlaceholdersToPg_generate`).
-/

namespace CppLinq

/-- The loop, inside single or double quotes or neither, with the next number. -/
def convertLoop : Bool → Bool → ℕ → List Char → List Char
  | _, _, _, [] => []
  | inSingleQuote, inDoubleQuote, paramIdx, c :: cs =>
    if c = '\'' ∧ !inDoubleQuote then c :: convertLoop (!inSingleQuote) inDoubleQuote paramIdx cs
    else if c = '"' ∧ !inSingleQuote then
      c :: convertLoop inSingleQuote (!inDoubleQuote) paramIdx cs
    else if c = '?' ∧ !inSingleQuote ∧ !inDoubleQuote then
      '$' :: (decimal paramIdx ++ convertLoop inSingleQuote inDoubleQuote (paramIdx + 1) cs)
    else c :: convertLoop inSingleQuote inDoubleQuote paramIdx cs

/-- `convert_placeholders_to_pg`. -/
def convertPlaceholdersToPg (sql : List Char) : List Char :=
  convertLoop false false 1 sql

/-- The parameter `$k` of PostgreSQL. -/
def pgParameter (k : ℕ) : List Char :=
  '$' :: decimal k

/-- The text with its placeholders numbered from `k` in the order they stand in. -/
def numbered : ℕ → Text → List Char
  | _, [] => []
  | k, .chr c :: t => c :: numbered k t
  | k, .hole _ :: t => pgParameter k ++ numbered (k + 1) t

/-- A text without placeholders is copied. -/
theorem numbered_append {t : Text} (ht : holes t = []) (k : ℕ) (u : Text) :
    numbered k (t ++ u) = Dialect.write .postgres t ++ numbered k u := by
  induction t with
  | nil => rfl
  | cons s t ih =>
    cases s with
    | chr c =>
      rw [List.cons_append, numbered, ih ht]
      rfl
    | hole i => contradiction

/-- Placeholders in order are numbered by their indices. -/
theorem numbered_eq_render {i n : ℕ} {t : Text} (h : holes t = List.range' i n) :
    numbered (i + 1) t = render (fun j => pgParameter (j + 1)) t := by
  induction t generalizing i n with
  | nil => rfl
  | cons s t ih =>
    cases s with
    | chr c =>
      rw [numbered, ih h]
      rfl
    | hole j =>
      rw [holes_cons_hole] at h
      cases n with
      | zero => contradiction
      | succ n =>
        rw [List.range'_succ, List.cons.injEq] at h
        rw [numbered, ih h.2, h.1]
        rfl

/-! ## One piece -/

/-- A character that the loop only copies, outside quotes. -/
def Copied (c : Char) : Prop :=
  c ≠ '\'' ∧ c ≠ '"' ∧ c ≠ '?'

theorem copied_of_isClean {c : Char} (hc : isClean c = true) : Copied c := by
  simp only [isClean, Bool.not_eq_true', Bool.or_eq_false_iff, beq_eq_false_iff_ne] at hc
  exact ⟨hc.1.1.1.1, hc.1.1.1.2, hc.2⟩

theorem convertLoop_copied {c : Char} (hc : Copied c) (k : ℕ) (cs : List Char) :
    convertLoop false false k (c :: cs) = c :: convertLoop false false k cs := by
  simp [convertLoop, hc.1, hc.2.1, hc.2.2]

theorem convertLoop_mark (k : ℕ) (cs : List Char) :
    convertLoop false false k ('?' :: cs) =
      pgParameter k ++ convertLoop false false (k + 1) cs := by
  simp [convertLoop, pgParameter]

/-- A string constant is copied, whatever double quotes and marks it has. -/
theorem convertLoop_constant {cs : List Char} (hcs : '\'' ∉ cs) (k : ℕ) (rest : List Char) :
    convertLoop false false k ('\'' :: (cs ++ '\'' :: rest)) =
      '\'' :: (cs ++ '\'' :: convertLoop false false k rest) := by
  have hinside : ∀ cs : List Char, '\'' ∉ cs → convertLoop true false k (cs ++ '\'' :: rest) =
      cs ++ '\'' :: convertLoop false false k rest := by
    intro cs hcs
    induction cs with
    | nil => simp [convertLoop]
    | cons c cs ih =>
      rw [List.mem_cons, not_or] at hcs
      have hstep : convertLoop true false k (c :: (cs ++ '\'' :: rest)) =
          c :: convertLoop true false k (cs ++ '\'' :: rest) := by
        simp [convertLoop, Ne.symm hcs.1]
      rw [List.cons_append, hstep, ih hcs.2]
      rfl
  have hopen : convertLoop false false k ('\'' :: (cs ++ '\'' :: rest)) =
      '\'' :: convertLoop true false k (cs ++ '\'' :: rest) := by
    simp [convertLoop]
  rw [hopen, hinside cs hcs]

/-- A quoted name is copied : the doubled quotes in it close the quotes and open them again,
and apostrophes and marks are inside. -/
theorem convertLoop_quoteChars (name : List Char) (k : ℕ) (rest : List Char) :
    convertLoop false false k (quoteChars (Dialect.quotes .postgres) name ++ rest) =
      quoteChars (Dialect.quotes .postgres) name ++ convertLoop false false k rest := by
  have hdouble : ∀ cs, convertLoop false true k ('"' :: cs) = '"' :: convertLoop false false k cs :=
    fun cs => by simp [convertLoop]
  have hopen : ∀ cs, convertLoop false false k ('"' :: cs) = '"' :: convertLoop false true k cs :=
    fun cs => by simp [convertLoop]
  have hinside : ∀ name : List Char,
      convertLoop false true k ((name.flatMap fun c => if c = '"' then [c, c] else [c]) ++
        '"' :: rest) = (name.flatMap fun c => if c = '"' then [c, c] else [c]) ++
        '"' :: convertLoop false false k rest := by
    intro name
    induction name with
    | nil => exact hdouble rest
    | cons c name ih =>
      rw [List.flatMap_cons, List.append_assoc, List.append_assoc]
      by_cases hc : c = '"'
      · rw [if_pos hc, hc, List.cons_append, List.singleton_append, hdouble, hopen, ih]
        rfl
      · have hstep : ∀ cs, convertLoop false true k (c :: cs) = c :: convertLoop false true k cs :=
          fun cs => by simp [convertLoop, hc]
        rw [if_neg hc, List.singleton_append, hstep, ih]
        rfl
  have hquotes : quoteChars (Dialect.quotes .postgres) name =
      '"' :: ((name.flatMap fun c => if c = '"' then [c, c] else [c]) ++ ['"']) := rfl
  rw [hquotes, List.cons_append, List.append_assoc, List.singleton_append, hopen, hinside,
    List.cons_append, List.append_assoc, List.singleton_append]

/-! ## A whole text -/

/-- The loop numbers the placeholders of a composed text, and copies the rest. -/
theorem Composed.convertLoop_write {t : Text} {names : List String}
    (h : Composed .postgres Copied t names) (k : ℕ) :
    convertLoop false false k (Dialect.write .postgres t) = numbered k t := by
  induction h generalizing k with
  | nil => rfl
  | chr hc _ ih =>
    rw [write_chr_cons, convertLoop_copied (hc.elim copied_of_isClean id), ih, numbered]
  | hole _ ih => rw [write_hole_cons, convertLoop_mark, ih, numbered]
  | @constant cs t _ hcs _ ih =>
    rw [write_chr_cons, write_append, write_map_chr, write_chr_cons, convertLoop_constant hcs, ih,
      numbered, numbered_append (holes_map_chr cs), write_map_chr, numbered]
  | @name n t _ _ _ ih =>
    rw [write_append, numbered_append (holes_quoteId .postgres n), write_quoteId,
      convertLoop_quoteChars, ih]

/-! ## Statements -/

/-- PostgreSQL never swaps the operands of a date addition. -/
theorem swapsNothing_postgres (n : ExprNode) : n.SwapsNothing .postgres := by
  cases n with
  | dateAdd => exact fun h => nomatch h
  | _ => trivial

/-- The conversion replaces the placeholders of a statement and nothing else. The one that
belongs to slot `i` becomes `$(i + 1)`, every other character stays, and the placeholders from
left to right are those of the slots in order. -/
theorem convertPlaceholdersToPg_generate {call : GenerateCall} {r : GeneratedSql}
    (h : generate .postgres call = .ok r)
    (hIn : ∀ n ∈ call.trees, ∀ m ∈ n.visited, m.NonemptyIn)
    (hclean : ∀ s ∈ call.functionNames ++ call.joinTypes, ∀ c ∈ s.toList, Copied c) :
    convertPlaceholdersToPg (Dialect.write .postgres r.sql) =
      render (fun i => pgParameter (i + 1)) r.sql ∧
    holes r.sql = List.range (holes r.sql).length ∧
    r.slots = call.slots ∧
    (call.ValuesMatch .postgres → (holes r.sql).length = r.slots.length) := by
  have horder := (holes_inOrder_iff h hIn).mpr fun _ _ m _ => swapsNothing_postgres m
  have hcomposed : Composed .postgres Copied r.sql (call.names .postgres) :=
    generate_composed h (fun f hf c hc => Or.inr (hclean f (List.mem_append_left _ hf) c hc))
      fun j hj c hc => Or.inr (hclean j (List.mem_append_right _ hj) c hc)
  refine ⟨?_, horder, (slots_generate h).1, length_holes_of_nonemptyIn h hIn⟩
  rw [convertPlaceholdersToPg, hcomposed.convertLoop_write]
  exact numbered_eq_render (i := 0) (by rwa [← List.range_eq_range'])

/-- Names with quotes, apostrophes and marks before and between two values. -/
def markedNames : ExprNode :=
  .binary (.dateAdd (.columnRef ⟨"", "a\"'?"⟩) (.literal (.int64 7))) .lt
    (.function "COALESCE" [.columnRef ⟨"t?", "b'\""⟩, .paramPlaceholder 0])

theorem convertPlaceholdersToPg_markedNames : ∃ r,
    generate .postgres (.expression markedNames) = .ok r ∧
    convertPlaceholdersToPg (Dialect.write .postgres r.sql) =
      render (fun i => pgParameter (i + 1)) r.sql ∧ holes r.sql = List.range 2 ∧
    r.slots = [.static (.int64 7), .dynamic 0] := by
  have hIn : ∀ n ∈ (GenerateCall.expression markedNames).trees, ∀ m ∈ n.visited,
      m.NonemptyIn := by
    simp only [GenerateCall.trees, List.forall_mem_singleton]
    simp [markedNames, ExprNode.visited_eq, ExprNode.children, ExprNode.NonemptyIn]
  refine ⟨_, rfl, ?_⟩
  obtain ⟨htext, horder, hslots, hlength⟩ := convertPlaceholdersToPg_generate rfl hIn (by
    simp [markedNames, GenerateCall.functionNames, GenerateCall.joinTypes, GenerateCall.trees,
      ExprNode.visited_eq, ExprNode.children, ExprNode.functionName?, Copied])
  have htwo : (GenerateCall.expression markedNames).slots = [.static (.int64 7), .dynamic 0] := by
    simp [GenerateCall.slots, GenerateCall.trees, markedNames, ExprNode.leaves_eq,
      ExprNode.children, ExprNode.slot?]
  rw [hlength trivial, hslots, htwo] at horder
  exact ⟨htext, horder, hslots.trans htwo⟩

end CppLinq
