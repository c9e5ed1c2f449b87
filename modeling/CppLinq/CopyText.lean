import CppLinq.ValueText
import CppLinq.Database

/-!
# COPY text

`insert_many_batch` of the PostgreSQL driver (`src/driver/postgres_connection.cpp`) writes
rows in the text format of COPY, and `bind` writes the text of a parameter. The server reads
the same rows from the first as it gets from the second (`copy_round_trip`), however the text
is cut into buffers. A double is written by `snprintf`, whose text is a parameter.
-/

namespace CppLinq

variable (doubleText : Double → List Char)

/-! ## Encoding -/

/-- `append_copy_escaped`. -/
def appendCopyEscaped (s : List Char) : List Char :=
  s.flatMap fun c =>
    if c = '\t' then ['\\', 't']
    else if c = '\n' then ['\\', 'n']
    else if c = '\r' then ['\\', 'r']
    else if c = '\\' then ['\\', '\\']
    else [c]

/-- What a row of COPY has for a value. -/
def copyField : BoundValue → List Char
  | .null => ['\\', 'N']
  | .int64 v => signedDecimal v.toInt
  | .uint64 v => decimal v.toNat
  | .double v => doubleText v
  | .string v => appendCopyEscaped v.toList
  | .wstring v => appendCopyEscaped (wstringToUtf8 v)
  | .bool v => if v then ['t'] else ['f']
  | .blob v => ['\\', '\\', 'x'] ++ v.flatMap hexByte
  | .numeric v => appendCopyEscaped v.text
  | .date v => appendCopyEscaped v.text
  | .time v => appendCopyEscaped v.text
  | .timestamp v => appendCopyEscaped v.text
  | .interval v => appendCopyEscaped v.text
  | .guid v => appendCopyEscaped v.text

/-- The text that `PgPreparedStatement::bind` stores for a value. -/
def bindText : BoundValue → Option (List Char)
  | .null => none
  | .int64 v => some (signedDecimal v.toInt)
  | .uint64 v => some (decimal v.toNat)
  | .double v => some (doubleText v)
  | .string v => some v.toList
  | .wstring v => some (wstringToUtf8 v)
  | .bool v => some (if v then ['t'] else ['f'])
  | .blob v => some (['\\', 'x'] ++ v.flatMap hexByte)
  | .numeric v => some v.text
  | .date v => some v.text
  | .time v => some v.text
  | .timestamp v => some v.text
  | .interval v => some v.text
  | .guid v => some v.text

/-- The fields of a row, with tabs between them. -/
def copyFields : List BoundValue → List Char
  | [] => []
  | [v] => copyField doubleText v
  | v :: w :: vs => copyField doubleText v ++ '\t' :: copyFields (w :: vs)

/-- The loop over rows : the buffers that were sent, and the one that is being filled. After
each row `flush` says whether the buffer is sent. -/
def copyLoop (flush : List Char → Bool) :
    List (List BoundValue) → List (List Char) × List Char → List (List Char) × List Char
  | [], state => state
  | row :: rows, (sent, buffer) =>
    let buffer := buffer ++ copyFields doubleText row ++ ['\n']
    copyLoop flush rows (if flush buffer then (sent ++ [buffer], []) else (sent, buffer))

/-- The buffers that are sent for the rows of a batch. -/
def copyBuffers (flush : List Char → Bool) (flatParams : List BoundValue)
    (colCount rowCount : ℕ) : List (List Char) :=
  let (sent, buffer) :=
    copyLoop doubleText flush (batchRows flatParams colCount rowCount) ([], [])
  if buffer.isEmpty then sent else sent ++ [buffer]

/-- When the driver sends a buffer. -/
def flushes (buffer : List Char) : Bool :=
  buffer.length ≥ 32768

/-- What `PQputCopyData` sends of a buffer, whose size is an `int` : nothing, if it is negative. -/
def putCopyData (buffer : List Char) : List Char :=
  buffer.take (intSize buffer.length).toNat

/-! ## Decoding -/

/-- The escapes of COPY, undone. -/
def unescapeCopy : List Char → List Char
  | '\\' :: 't' :: cs => '\t' :: unescapeCopy cs
  | '\\' :: 'n' :: cs => '\n' :: unescapeCopy cs
  | '\\' :: 'r' :: cs => '\r' :: unescapeCopy cs
  | '\\' :: '\\' :: cs => '\\' :: unescapeCopy cs
  | c :: cs => c :: unescapeCopy cs
  | [] => []

/-- A field : NULL, or its text. -/
def readCopyField (cs : List Char) : Option (List Char) :=
  if cs = ['\\', 'N'] then none else some (unescapeCopy cs)

/-- The rows of a text in which every row ends with a newline. -/
def readCopy (cs : List Char) : Option (List (List (Option (List Char)))) :=
  let lines := cs.splitOn '\n'
  if lines.getLast? = some [] then
    some (lines.dropLast.map fun line => (line.splitOn '\t').map readCopyField)
  else none

/-! ## Fields -/

section Fields

variable {doubleText : Double → List Char}

/-- A text without the characters that COPY escapes. -/
structure Plain (cs : List Char) : Prop where
  no_backslash : '\\' ∉ cs
  no_tab : '\t' ∉ cs
  no_newline : '\n' ∉ cs

theorem unescapeCopy_cons {c : Char} (hc : c ≠ '\\') (cs : List Char) :
    unescapeCopy (c :: cs) = c :: unescapeCopy cs := by
  rw [unescapeCopy]
  all_goals simp_all

theorem Plain.unescapeCopy_eq {cs : List Char} (h : Plain cs) : unescapeCopy cs = cs := by
  obtain ⟨h, -, -⟩ := h
  induction cs with
  | nil => rfl
  | cons c cs ih =>
    rw [List.mem_cons, not_or] at h
    rw [unescapeCopy_cons (Ne.symm h.1), ih h.2]

/-- A plain text is read as it stands. -/
theorem Plain.readCopyField_eq {cs : List Char} (h : Plain cs) : readCopyField cs = some cs := by
  have hne : cs ≠ ['\\', 'N'] := by
    rintro rfl
    exact h.no_backslash List.mem_cons_self
  rw [readCopyField, if_neg hne, h.unescapeCopy_eq]

theorem plain_of_isDigit {cs : List Char} (h : ∀ c ∈ cs, c = '-' ∨ c.isDigit = true) :
    Plain cs := by
  constructor
  all_goals
    intro hmem
    rcases h _ hmem with heq | hdigit
    · contradiction
    · contradiction

theorem plain_decimal (n : ℕ) : Plain (decimal n) :=
  plain_of_isDigit fun _ hc => Or.inr (isDigit_of_mem_decimal hc)

theorem plain_signedDecimal (z : ℤ) : Plain (signedDecimal z) := by
  refine plain_of_isDigit fun c hc => ?_
  unfold signedDecimal at hc
  split at hc
  · rcases List.mem_cons.mp hc with rfl | hc
    · exact Or.inl rfl
    · exact Or.inr (isDigit_of_mem_decimal hc)
  · exact Or.inr (isDigit_of_mem_decimal hc)

/-- Escapes are undone. -/
theorem unescapeCopy_escaped (s : List Char) : unescapeCopy (appendCopyEscaped s) = s := by
  induction s with
  | nil => rfl
  | cons c s ih =>
    rw [appendCopyEscaped, List.flatMap_cons]
    rw [appendCopyEscaped] at ih
    split
    · rename_i hc
      rw [hc, List.cons_append, List.cons_append, List.nil_append, unescapeCopy, ih]
    split
    · rename_i hc
      rw [hc, List.cons_append, List.cons_append, List.nil_append, unescapeCopy, ih]
    split
    · rename_i hc
      rw [hc, List.cons_append, List.cons_append, List.nil_append, unescapeCopy, ih]
    split
    · rename_i hc
      rw [hc, List.cons_append, List.cons_append, List.nil_append, unescapeCopy, ih]
    · rename_i hc
      rw [List.singleton_append, unescapeCopy_cons hc, ih]

/-- No escaped text is the mark of NULL. -/
theorem escaped_ne_null (s : List Char) : appendCopyEscaped s ≠ ['\\', 'N'] := by
  intro h
  have hs := congrArg unescapeCopy h
  rw [unescapeCopy_escaped] at hs
  have hnull : unescapeCopy ['\\', 'N'] = ['\\', 'N'] := rfl
  rw [hs, hnull] at h
  exact absurd h (by decide)

/-- An escaped text is no NULL marker. -/
theorem readCopyField_escaped (s : List Char) :
    readCopyField (appendCopyEscaped s) = some s := by
  rw [readCopyField, if_neg (escaped_ne_null s), unescapeCopy_escaped]

/-- Escaped texts hold no tab and no newline. -/
theorem not_mem_escaped {c : Char} (hc : c = '\t' ∨ c = '\n') (s : List Char) :
    c ∉ appendCopyEscaped s := by
  intro h
  obtain ⟨a, -, ha⟩ := List.mem_flatMap.mp h
  have hne : a ≠ c → a ≠ '\t' → a ≠ '\n' → a ≠ '\r' → a ≠ '\\' → False := by
    intro hac h₁ h₂ h₃ h₄
    rw [if_neg h₁, if_neg h₂, if_neg h₃, if_neg h₄, List.mem_singleton] at ha
    exact hac ha.symm
  have hescape : ∀ b : Char, b = 't' ∨ b = 'n' ∨ b = 'r' ∨ b = '\\' → c ∉ ['\\', b] := by
    rintro b (rfl | rfl | rfl | rfl) <;> rcases hc with rfl | rfl <;> decide
  split at ha
  · exact hescape 't' (by simp) ha
  split at ha
  · exact hescape 'n' (by simp) ha
  split at ha
  · exact hescape 'r' (by simp) ha
  split at ha
  · exact hescape '\\' (by simp) ha
  · refine hne ?_ ‹_› ‹_› ‹_› ‹_›
    rintro rfl
    rcases hc with rfl | rfl <;> contradiction

theorem mem_hexBytes {v : List UInt8} {c : Char} (h : c ∈ v.flatMap hexByte) :
    ∃ n, n < 16 ∧ c = Nat.digitChar n := by
  obtain ⟨b, -, hb⟩ := List.mem_flatMap.mp h
  have hlt := b.toNat_lt
  rcases List.mem_cons.mp hb with rfl | hb
  · exact ⟨_, by omega, rfl⟩
  · exact ⟨_, Nat.mod_lt _ (by omega), List.mem_singleton.mp hb⟩

theorem plain_hexBytes (v : List UInt8) : Plain (v.flatMap hexByte) := by
  constructor
  all_goals
    intro h
    obtain ⟨n, hn, hc⟩ := mem_hexBytes h
    exact absurd hc.symm (Nat.digitChar_ne _ (by decide))

/-- A field is read as the text of the parameter. -/
theorem readCopyField_copyField (hdouble : ∀ v, Plain (doubleText v)) (v : BoundValue) :
    readCopyField (copyField doubleText v) = bindText doubleText v := by
  cases v with
  | null => rfl
  | int64 v => exact (plain_signedDecimal _).readCopyField_eq
  | uint64 v => exact (plain_decimal _).readCopyField_eq
  | double v => exact (hdouble v).readCopyField_eq
  | bool v => cases v <;> rfl
  | blob v =>
    have hne : copyField doubleText (.blob v) ≠ ['\\', 'N'] := by simp [copyField]
    rw [readCopyField, if_neg hne, copyField, bindText, List.cons_append, List.cons_append,
      List.cons_append, List.nil_append, unescapeCopy, unescapeCopy_cons (by decide),
      (plain_hexBytes v).unescapeCopy_eq]
  | string v => exact readCopyField_escaped _
  | wstring v => exact readCopyField_escaped _
  | numeric v => exact readCopyField_escaped _
  | date v => exact readCopyField_escaped _
  | time v => exact readCopyField_escaped _
  | timestamp v => exact readCopyField_escaped _
  | interval v => exact readCopyField_escaped _
  | guid v => exact readCopyField_escaped _

/-- A field has no separator. -/
theorem not_mem_copyField (hdouble : ∀ v, Plain (doubleText v)) (v : BoundValue) :
    '\t' ∉ copyField doubleText v ∧ '\n' ∉ copyField doubleText v := by
  have hescaped : ∀ s, '\t' ∉ appendCopyEscaped s ∧ '\n' ∉ appendCopyEscaped s := fun s =>
    ⟨not_mem_escaped (Or.inl rfl) s, not_mem_escaped (Or.inr rfl) s⟩
  cases v with
  | null => simp [copyField]
  | int64 v => exact ⟨(plain_signedDecimal _).no_tab, (plain_signedDecimal _).no_newline⟩
  | uint64 v => exact ⟨(plain_decimal _).no_tab, (plain_decimal _).no_newline⟩
  | double v => exact ⟨(hdouble v).no_tab, (hdouble v).no_newline⟩
  | bool v => cases v <;> simp [copyField]
  | blob v =>
    have h := plain_hexBytes v
    constructor
    · simpa [copyField] using h.no_tab
    · simpa [copyField] using h.no_newline
  | string v => exact hescaped _
  | wstring v => exact hescaped _
  | numeric v => exact hescaped _
  | date v => exact hescaped _
  | time v => exact hescaped _
  | timestamp v => exact hescaped _
  | interval v => exact hescaped _
  | guid v => exact hescaped _

end Fields

/-! ## Rows -/

section Rows

variable {doubleText : Double → List Char} {flush : List Char → Bool}

/-- The tabs separate the fields of a row. -/
theorem splitOn_copyFields (hdouble : ∀ v, Plain (doubleText v)) :
    ∀ {row : List BoundValue}, row ≠ [] →
      (copyFields doubleText row).splitOn '\t' = row.map (copyField doubleText)
  | [v], _ => List.splitOn_eq_singleton (not_mem_copyField hdouble v).1
  | v :: w :: vs, _ => by
    rw [copyFields, List.splitOn_append_cons_self_of_not_mem (not_mem_copyField hdouble v).1,
      splitOn_copyFields hdouble (List.cons_ne_nil w vs), ← List.map_cons]

theorem newline_notMem_copyFields (hdouble : ∀ v, Plain (doubleText v)) :
    ∀ row : List BoundValue, '\n' ∉ copyFields doubleText row
  | [] => List.not_mem_nil
  | [v] => (not_mem_copyField hdouble v).2
  | v :: w :: vs => by
    rw [copyFields, List.mem_append, List.mem_cons]
    rintro (h | h | h)
    · exact (not_mem_copyField hdouble v).2 h
    · contradiction
    · exact newline_notMem_copyFields hdouble (w :: vs) h

/-- The text of rows. -/
def copyText (doubleText : Double → List Char) (rows : List (List BoundValue)) : List Char :=
  rows.flatMap fun row => copyFields doubleText row ++ ['\n']

/-- The loop sends or keeps the text of the rows. -/
theorem flatten_copyLoop (rows : List (List BoundValue)) (sent : List (List Char))
    (buffer : List Char) :
    (copyLoop doubleText flush rows (sent, buffer)).1.flatten ++
      (copyLoop doubleText flush rows (sent, buffer)).2 =
      sent.flatten ++ buffer ++ copyText doubleText rows := by
  induction rows generalizing sent buffer with
  | nil => exact (List.append_nil _).symm
  | cons row rows ih =>
    rw [copyLoop, copyText, List.flatMap_cons]
    rw [copyText] at ih
    split
    · rw [ih]
      simp
    · rw [ih]
      simp

/-- The buffers are the text of the rows, wherever they are cut. -/
theorem flatten_copyBuffers (flatParams : List BoundValue) (colCount rowCount : ℕ) :
    (copyBuffers doubleText flush flatParams colCount rowCount).flatten =
      copyText doubleText (batchRows flatParams colCount rowCount) := by
  have hloop : (copyLoop doubleText flush (batchRows flatParams colCount rowCount)
      ([], [])).1.flatten ++ (copyLoop doubleText flush (batchRows flatParams colCount rowCount)
      ([], [])).2 = _ := flatten_copyLoop _ [] []
  rw [List.flatten_nil, List.nil_append, List.nil_append] at hloop
  rw [copyBuffers]
  rcases hresult : copyLoop doubleText flush (batchRows flatParams colCount rowCount) ([], [])
    with ⟨sent, buffer⟩
  rw [hresult] at hloop
  by_cases hempty : buffer = []
  · subst hempty
    simpa using hloop
  · simpa [hempty] using hloop

/-- The newlines end the rows. -/
theorem splitOn_copyText (hdouble : ∀ v, Plain (doubleText v)) (rows : List (List BoundValue)) :
    (copyText doubleText rows).splitOn '\n' = rows.map (copyFields doubleText) ++ [[]] := by
  induction rows with
  | nil => rfl
  | cons row rows ih =>
    rw [copyText] at ih ⊢
    rw [List.flatMap_cons, List.append_assoc, List.singleton_append,
      List.splitOn_append_cons_self_of_not_mem (newline_notMem_copyFields hdouble row), ih]
    rfl

/-- The text of a `COPY` is read back as the texts of its values. -/
theorem readCopy_copyText (hdouble : ∀ v, Plain (doubleText v)) {rows : List (List BoundValue)}
    (hrows : ∀ row ∈ rows, row ≠ []) :
    readCopy (copyText doubleText rows) =
      some (rows.map fun row => row.map (bindText doubleText)) := by
  rw [readCopy, splitOn_copyText hdouble]
  simp only [List.getLast?_concat, if_true, List.dropLast_concat, List.map_map]
  refine congrArg some (List.map_congr_left fun row hrow => ?_)
  rw [Function.comp_apply, splitOn_copyFields hdouble (hrows row hrow), List.map_map]
  exact List.map_congr_left fun v _ => readCopyField_copyField hdouble v

theorem length_batchRows (flatParams : List BoundValue) (colCount rowCount : ℕ) :
    (batchRows flatParams colCount rowCount).length = rowCount := by
  simp [batchRows, parts]

/-- The rows of a full matrix are as long as they should be. -/
theorem length_of_mem_batchRows {flatParams : List BoundValue} {colCount rowCount : ℕ}
    (hlength : flatParams.length = rowCount * colCount) {row : List BoundValue}
    (h : row ∈ batchRows flatParams colCount rowCount) : row.length = colCount := by
  obtain ⟨i, hi, rfl⟩ := List.mem_map.mp h
  have hle : (i + 1) * colCount ≤ rowCount * colCount :=
    Nat.mul_le_mul_right colCount (List.mem_range.mp hi)
  rw [Nat.succ_mul] at hle
  rw [List.length_take, List.length_drop]
  omega

/-- So are the buffers that it is sent in, wherever they are flushed. -/
theorem readCopy_copyBuffers (hdouble : ∀ v, Plain (doubleText v)) (flush : List Char → Bool)
    {flatParams : List BoundValue} {colCount rowCount : ℕ}
    (hlength : flatParams.length = rowCount * colCount) (hcol : 0 < colCount) :
    readCopy (copyBuffers doubleText flush flatParams colCount rowCount).flatten =
      some ((batchRows flatParams colCount rowCount).map fun row =>
        row.map (bindText doubleText)) := by
  rw [flatten_copyBuffers, readCopy_copyText hdouble]
  rintro row h rfl
  have hzero := length_of_mem_batchRows hlength h
  rw [List.length_nil] at hzero
  omega

/-- COPY text round-trips. Whatever the values of a full matrix and wherever the text is cut,
the rows read from the buffers together are the rows of the texts that `bind` stores. -/
theorem copy_round_trip (hdouble : ∀ v, Plain (doubleText v)) (flush : List Char → Bool)
    {flatParams : List BoundValue} {colCount rowCount : ℕ}
    (hlength : flatParams.length = rowCount * colCount) (hcol : 0 < colCount) :
    readCopy (copyBuffers doubleText flush flatParams colCount rowCount).flatten =
      some ((batchRows flatParams colCount rowCount).map fun row =>
        row.map (bindText doubleText)) ∧
    (batchRows flatParams colCount rowCount).length = rowCount ∧
    ∀ row ∈ batchRows flatParams colCount rowCount, row.length = colCount :=
  ⟨readCopy_copyBuffers hdouble flush hlength hcol, length_batchRows _ _ _,
    fun _ => length_of_mem_batchRows hlength⟩

/-- Two rows of a text with an end mark and a NULL. -/
theorem copy_round_trip_marks : readCopy (copyBuffers (fun _ => ['0']) flushes
    [.string "\\.", .null, .string "\\N", .bool true] 2 2).flatten =
      some [[some ['\\', '.'], none], [some ['\\', 'N'], some ['t']]] :=
  (copy_round_trip (fun _ => ⟨by decide, by decide, by decide⟩) flushes rfl (by decide)).1

/-! ## What is sent -/

theorem length_splitOn {α : Type} [BEq α] (a : α) (xs : List α) :
    (xs.splitOn a).length = xs.count a + 1 := by
  induction xs with
  | nil => rfl
  | cons x xs ih =>
    rw [List.splitOn_cons_eq_if_modifyHead, List.count_cons]
    split
    · rw [List.length_cons, ih]
    · rw [List.length_modifyHead, ih, Nat.add_zero]

/-- Every newline ends a row. -/
theorem length_of_readCopy {cs : List Char} {rows : List (List (Option (List Char)))}
    (h : readCopy cs = some rows) : rows.length = cs.count '\n' := by
  rw [readCopy] at h
  split at h
  · rw [← Option.some.inj h, List.length_map, List.length_dropLast, length_splitOn,
      Nat.add_sub_cancel]
  · contradiction

/-- A text of lines. -/
def EndsLine (cs : List Char) : Prop :=
  ∃ line, cs = line ++ ['\n']

/-- Less of a text of lines has fewer of them. -/
theorem EndsLine.count_take_lt {cs : List Char} (h : EndsLine cs) {n : ℕ} (hn : n < cs.length) :
    (cs.take n).count '\n' < cs.count '\n' := by
  obtain ⟨line, rfl⟩ := h
  rw [List.length_append, List.length_singleton] at hn
  have hle : ((line ++ ['\n']).take n).count '\n' ≤ line.count '\n' := by
    rw [List.take_append_of_le_length (Nat.le_of_lt_succ hn)]
    exact (List.take_sublist n line).count_le '\n'
  rw [List.count_append, List.count_singleton_self]
  exact Nat.lt_succ_of_le hle

/-- Every buffer ends with a row. -/
theorem endsLine_copyLoop (rows : List (List BoundValue)) {sent : List (List Char)}
    {buffer : List Char} (hsent : ∀ b ∈ sent, EndsLine b)
    (hbuffer : buffer = [] ∨ EndsLine buffer) :
    (∀ b ∈ (copyLoop doubleText flush rows (sent, buffer)).1, EndsLine b) ∧
      ((copyLoop doubleText flush rows (sent, buffer)).2 = [] ∨
        EndsLine (copyLoop doubleText flush rows (sent, buffer)).2) := by
  induction rows generalizing sent buffer with
  | nil => exact ⟨hsent, hbuffer⟩
  | cons row rows ih =>
    rw [copyLoop]
    split
    · refine ih (fun b hb => ?_) (.inl rfl)
      rcases List.mem_append.mp hb with hb | hb
      · exact hsent b hb
      · exact ⟨_, List.mem_singleton.mp hb⟩
    · exact ih hsent (.inr ⟨_, rfl⟩)

/-- A buffer ends with a row. -/
theorem endsLine_of_mem_copyBuffers {flatParams : List BoundValue} {colCount rowCount : ℕ}
    {buffer : List Char}
    (h : buffer ∈ copyBuffers doubleText flush flatParams colCount rowCount) : EndsLine buffer := by
  obtain ⟨hsent, hlast⟩ := @endsLine_copyLoop doubleText flush
    (batchRows flatParams colCount rowCount) [] [] nofun (.inl rfl)
  rw [copyBuffers] at h
  rcases hresult : copyLoop doubleText flush (batchRows flatParams colCount rowCount) ([], [])
    with ⟨sent, last⟩
  rw [hresult] at h hsent hlast
  by_cases hempty : last = []
  · exact hsent buffer (by simpa [hempty] using h)
  · rcases List.mem_append.mp (by simpa [hempty] using h : buffer ∈ sent ++ [last]) with h | h
    · exact hsent buffer h
    · rw [List.mem_singleton.mp h]
      exact hlast.resolve_left hempty

/-- A buffer below 2 GiB is sent whole. -/
theorem putCopyData_of_lt {buffer : List Char} (h : buffer.length < 2 ^ 31) :
    putCopyData buffer = buffer := by
  have hmod : buffer.length % 2 ^ 32 = buffer.length := Nat.mod_eq_of_lt (by omega)
  rw [putCopyData, intSize_of_low (by omega), hmod, Int.toNat_natCast, List.take_length]

/-- Buffers that are not too long are sent as they are. -/
theorem map_putCopyData {buffers : List (List Char)} (h : ∀ b ∈ buffers, b.length < 2 ^ 31) :
    buffers.map putCopyData = buffers :=
  (List.map_congr_left fun b hb => putCopyData_of_lt (h b hb)).trans (List.map_id' buffers)

/-- A larger one is not. -/
theorem length_putCopyData_lt {buffer : List Char} (h : 2 ^ 31 ≤ buffer.length) :
    (intSize buffer.length).toNat < buffer.length := by
  by_cases hlow : buffer.length % 2 ^ 32 < 2 ^ 31
  · rw [intSize_of_low hlow, Int.toNat_natCast]
    omega
  · have hneg := intSize_of_high (Nat.not_lt.mp hlow)
    omega

/-- Where a buffer is too long, fewer rows are sent. -/
theorem count_putCopyData_lt {buffers : List (List Char)} (hends : ∀ b ∈ buffers, EndsLine b)
    (hlong : ∃ b ∈ buffers, 2 ^ 31 ≤ b.length) :
    (buffers.map putCopyData).flatten.count '\n' < buffers.flatten.count '\n' := by
  have hle : ∀ bs : List (List Char),
      (bs.map putCopyData).flatten.count '\n' ≤ bs.flatten.count '\n' := by
    intro bs
    induction bs with
    | nil => exact Nat.le_refl 0
    | cons b bs ih =>
      rw [List.map_cons, List.flatten_cons, List.flatten_cons, List.count_append, List.count_append]
      exact Nat.add_le_add ((List.take_sublist _ b).count_le '\n') ih
  induction buffers with
  | nil =>
    obtain ⟨b, hb, -⟩ := hlong
    contradiction
  | cons b bs ih =>
    obtain ⟨hb, hbs⟩ := List.forall_mem_cons.mp hends
    rw [List.map_cons, List.flatten_cons, List.flatten_cons, List.count_append, List.count_append]
    by_cases hfirst : 2 ^ 31 ≤ b.length
    · exact Nat.add_lt_add_of_lt_of_le (hb.count_take_lt (length_putCopyData_lt hfirst)) (hle bs)
    · refine Nat.add_lt_add_of_le_of_lt ((List.take_sublist _ b).count_le '\n') (ih hbs ?_)
      obtain ⟨b', hmem, hlen⟩ := hlong
      rcases List.mem_cons.mp hmem with rfl | hmem
      · exact absurd hlen hfirst
      · exact ⟨b', hmem, hlen⟩

/-- A row of COPY has a zero where a text that `bind` stores has one. -/
theorem nul_mem_copyField (v : BoundValue) :
    Char.ofNat 0 ∈ copyField doubleText v ↔
      ∃ text ∈ bindText doubleText v, Char.ofNat 0 ∈ text := by
  have hescaped : ∀ s, Char.ofNat 0 ∈ appendCopyEscaped s ↔ Char.ofNat 0 ∈ s := by
    intro s
    rw [appendCopyEscaped, List.mem_flatMap]
    constructor
    · rintro ⟨a, ha, hmem⟩
      split_ifs at hmem
      all_goals simp only [List.mem_cons, List.not_mem_nil, or_false] at hmem
      · exact absurd hmem (by decide)
      · exact absurd hmem (by decide)
      · exact absurd hmem (by decide)
      · exact absurd hmem (by decide)
      · exact hmem ▸ ha
    · exact fun h => ⟨_, h, by decide⟩
  cases v with
  | null => simp [copyField, bindText]
  | blob v => simp [copyField, bindText]
  | string v => simpa [copyField, bindText] using hescaped _
  | wstring v => simpa [copyField, bindText] using hescaped _
  | numeric v => simpa [copyField, bindText] using hescaped _
  | date v => simpa [copyField, bindText] using hescaped _
  | time v => simpa [copyField, bindText] using hescaped _
  | timestamp v => simpa [copyField, bindText] using hescaped _
  | interval v => simpa [copyField, bindText] using hescaped _
  | guid v => simpa [copyField, bindText] using hescaped _
  | int64 v => simp [copyField, bindText]
  | uint64 v => simp [copyField, bindText]
  | double v => simp [copyField, bindText]
  | bool v => cases v <;> simp [copyField, bindText]

theorem nul_mem_copyFields : ∀ row : List BoundValue,
    Char.ofNat 0 ∈ copyFields doubleText row ↔ ∃ v ∈ row, Char.ofNat 0 ∈ copyField doubleText v
  | [] => by simp [copyFields]
  | [v] => by simp [copyFields]
  | v :: w :: vs => by
    rw [copyFields, List.mem_append, List.mem_cons, nul_mem_copyFields (w :: vs),
      List.exists_mem_cons_iff _ v]
    exact or_congr_right (or_iff_right (by decide))

/-- The text of rows has a zero where a text that `bind` stores has one. -/
theorem nul_mem_copyText (rows : List (List BoundValue)) :
    Char.ofNat 0 ∈ copyText doubleText rows ↔
      ∃ row ∈ rows, ∃ v ∈ row, ∃ text ∈ bindText doubleText v, Char.ofNat 0 ∈ text := by
  rw [copyText, List.mem_flatMap]
  refine exists_congr fun row => and_congr_right fun _ => ?_
  rw [List.mem_append, nul_mem_copyFields, or_iff_left (by decide)]
  simp only [nul_mem_copyField]

end Rows

end CppLinq
