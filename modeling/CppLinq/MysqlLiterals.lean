import CppLinq.CopyText
import CppLinq.ValueParsing

/-!
# Literals of MySQL

`insert_many_batch` of the MySQL driver (`driver/mysql_connection.cpp`) writes its values into the
text of a statement, and `bind` of its prepared statements passes them beside it. The server reads
in a literal the value that is bound, but for a double, whose literal may be an exact number or no
number at all, and a blob, whose literal may be a number (`readTuples_literalTuples`). A server in
its default mode is meant, where a backslash escapes. A double is written by `snprintf`, whose text
is a parameter.
-/

namespace CppLinq

/-- A value as the server gets it. -/
inductive MysqlValue
  | null
  | integer (z : ℤ)
  /-- A literal with a point and without an exponent, which is an exact number. -/
  | decimal (text : List Char)
  | double (v : Double)
  | text (bytes : List Char)
  | blob (bytes : List UInt8)
  /-- A hexadecimal literal, which is a blob, or a number where a number is asked for. -/
  | hexadecimal (bytes : List UInt8)
  deriving DecidableEq

/-- `MysqlPreparedStatement::bind`. -/
def mysqlBind : BoundValue → MysqlValue
  | .null => .null
  | .int64 v => .integer v.toInt
  | .uint64 v => .integer v.toNat
  | .double v => .double v
  | .string v => .text v.toList
  | .wstring v => .text (wstringToUtf8 v)
  | .bool v => .integer (if v then 1 else 0)
  | .blob v => .blob v
  | .numeric v => .text v.text
  | .date v => .text v.text
  | .time v => .text v.text
  | .timestamp v => .text v.text
  | .interval v => .text v.text
  | .guid v => .text v.text

/-! ## Writing -/

/-- A character, with a backslash before it if it is special. -/
def mysqlEscapeChar (c : Char) : List Char :=
  if c = Char.ofNat 0 then ['\\', '0']
  else if c = '\n' then ['\\', 'n']
  else if c = '\r' then ['\\', 'r']
  else if c = '\\' then ['\\', '\\']
  else if c = '\'' then ['\\', '\'']
  else if c = '"' then ['\\', '"']
  else if c = Char.ofNat 26 then ['\\', 'Z']
  else [c]

/-- `mysql_real_escape_string`. -/
def mysqlEscape (s : List Char) : List Char :=
  s.flatMap mysqlEscapeChar

/-- `append_escaped_string`. -/
def escapedString (s : List Char) : List Char :=
  '\'' :: mysqlEscape s ++ ['\'']

section

variable (doubleText : Double → List Char)

/-- The literal of a value. -/
def mysqlLiteral : BoundValue → List Char
  | .null => "NULL".toList
  | .int64 v => signedDecimal v.toInt
  | .uint64 v => decimal v.toNat
  | .double v => doubleText v
  | .string v => escapedString v.toList
  | .wstring v => escapedString (wstringToUtf8 v)
  | .bool v => if v then ['1'] else ['0']
  | .blob v => 'X' :: '\'' :: v.flatMap hexByte ++ ['\'']
  | .numeric v => escapedString v.text
  | .date v => escapedString v.text
  | .time v => escapedString v.text
  | .timestamp v => escapedString v.text
  | .interval v => escapedString v.text
  | .guid v => escapedString v.text

/-- The literals of a row, with commas between them. -/
def literalList : List BoundValue → List Char
  | [] => []
  | [v] => mysqlLiteral doubleText v
  | v :: w :: vs => mysqlLiteral doubleText v ++ ',' :: literalList (w :: vs)

/-- The rows of a statement. -/
def literalTuples : List (List BoundValue) → List Char
  | [] => []
  | [row] => '(' :: literalList doubleText row ++ [')']
  | row :: row' :: rows =>
    '(' :: literalList doubleText row ++ ')' :: ',' :: literalTuples (row' :: rows)

end

/-! ## Reading -/

/-- What a backslash makes of the character behind it. -/
def unescapeMysql : Char → List Char
  | '0' => [Char.ofNat 0]
  | 'b' => [Char.ofNat 8]
  | 'n' => ['\n']
  | 'r' => ['\r']
  | 't' => ['\t']
  | 'Z' => [Char.ofNat 26]
  | '%' => ['\\', '%']
  | '_' => ['\\', '_']
  | c => [c]

/-- A text up to its closing quote, and what follows it. -/
def readQuoted : List Char → Option (List Char × List Char)
  | [] => none
  | [c] => if c = '\'' then some ([], []) else none
  | c :: d :: cs =>
    if c = '\\' then (readQuoted cs).map fun (s, rest) => (unescapeMysql d ++ s, rest)
    else if c = '\'' then
      if d = '\'' then (readQuoted cs).map fun (s, rest) => ('\'' :: s, rest)
      else some ([], d :: cs)
    else (readQuoted (d :: cs)).map fun (s, rest) => (c :: s, rest)

/-- The bytes of hexadecimal digits. -/
def readHexBytes : List Char → Option (List UInt8)
  | [] => some []
  | [_] => none
  | c :: d :: cs =>
    if isXDigit c && isXDigit d then
      (readHexBytes cs).map (.ofNat (hexVal c * 16 + hexVal d) :: ·)
    else none

/-- Digits, with a sign before them or not. -/
def isExponent (cs : List Char) : Bool :=
  let digits := if cs.head? = some '+' ∨ cs.head? = some '-' then cs.tail else cs
  digits ≠ [] && digits.all Char.isDigit

section

variable (readDouble : List Char → Double)

/-- A number : an integer, an exact one, or a double if it has an exponent. -/
def readMysqlNumber (cs : List Char) : Option MysqlValue :=
  let unsigned := if cs.head? = some '-' then cs.tail else cs
  let whole := unsigned.takeWhile Char.isDigit
  match unsigned.dropWhile Char.isDigit with
  | [] =>
    if whole = [] then none
    else some (.integer (if cs.head? = some '-' then -digitsValue whole else digitsValue whole))
  | 'e' :: exponent =>
    if whole ≠ [] ∧ isExponent exponent then some (.double (readDouble cs)) else none
  | '.' :: rest =>
    if whole = [] ∧ rest.takeWhile Char.isDigit = [] then none
    else
      match rest.dropWhile Char.isDigit with
      | [] => some (.decimal cs)
      | 'e' :: exponent => if isExponent exponent then some (.double (readDouble cs)) else none
      | _ => none
  | _ => none

/-- A literal, and what follows it. -/
def readLiteral : List Char → Option (MysqlValue × List Char)
  | '\'' :: cs => (readQuoted cs).map fun (s, rest) => (.text s, rest)
  | 'X' :: '\'' :: cs =>
    match cs.dropWhile (· ≠ '\'') with
    | [] => none
    | _ :: rest =>
      (readHexBytes (cs.takeWhile (· ≠ '\''))).map fun bytes => (.hexadecimal bytes, rest)
  | cs =>
    let word := cs.takeWhile fun c => c ≠ ',' && c ≠ ')'
    let rest := cs.dropWhile fun c => c ≠ ',' && c ≠ ')'
    if word = "NULL".toList then some (.null, rest)
    else (readMysqlNumber readDouble word).map fun x => (x, rest)

/-- The literals of a row, and what follows its parenthesis. Each turn reads one of them. -/
def readValues : ℕ → List Char → Option (List MysqlValue × List Char)
  | 0, _ => none
  | turns + 1, cs =>
    match readLiteral readDouble cs with
    | some (x, ')' :: rest) => some ([x], rest)
    | some (x, ',' :: rest) => (readValues turns rest).map fun (xs, rest) => (x :: xs, rest)
    | _ => none

/-- Rows in parentheses. Each turn reads one of them. -/
def readMysqlRows : ℕ → List Char → Option (List (List MysqlValue))
  | turns + 1, '(' :: cs =>
    match readValues readDouble cs.length cs with
    | some (xs, []) => some [xs]
    | some (xs, ',' :: rest) => (readMysqlRows turns rest).map (xs :: ·)
    | _ => none
  | _, _ => none

/-- The rows of a statement, if they are rows of literals. -/
def readTuples (cs : List Char) : Option (List (List MysqlValue)) :=
  readMysqlRows readDouble cs.length cs

/-- What is read in the literal of a value. -/
def literalValue (doubleText : Double → List Char) : BoundValue → Option MysqlValue
  | .double v => readMysqlNumber readDouble (doubleText v)
  | .blob v => some (.hexadecimal v)
  | v => some (mysqlBind v)

end

/-! ## Texts -/

theorem mysqlEscapeChar_cases (c : Char) :
    (∃ d, mysqlEscapeChar c = ['\\', d] ∧ unescapeMysql d = [c]) ∨
      (mysqlEscapeChar c = [c] ∧ c ≠ '\\' ∧ c ≠ '\'') := by
  unfold mysqlEscapeChar
  split
  · rename_i h
    exact .inl ⟨'0', rfl, by rw [h]; rfl⟩
  split
  · rename_i h
    exact .inl ⟨'n', rfl, by rw [h]; rfl⟩
  split
  · rename_i h
    exact .inl ⟨'r', rfl, by rw [h]; rfl⟩
  split
  · rename_i h
    exact .inl ⟨'\\', rfl, by rw [h]; rfl⟩
  split
  · rename_i h
    exact .inl ⟨'\'', rfl, by rw [h]; rfl⟩
  split
  · rename_i h
    exact .inl ⟨'"', rfl, by rw [h]; rfl⟩
  split
  · rename_i h
    exact .inl ⟨'Z', rfl, by rw [h]; rfl⟩
  · exact .inr ⟨rfl, ‹_›, ‹_›⟩

/-- A character is read as it was. -/
theorem readQuoted_escapeChar (c : Char) {cs : List Char} (h : cs ≠ []) :
    readQuoted (mysqlEscapeChar c ++ cs) =
      (readQuoted cs).map fun (s, rest) => (c :: s, rest) := by
  rcases mysqlEscapeChar_cases c with ⟨d, hd, hunescape⟩ | ⟨hc, hback, hquote⟩
  · rw [hd, List.cons_append, List.cons_append, List.nil_append, readQuoted, if_pos rfl, hunescape]
    rfl
  · obtain ⟨d, ds, rfl⟩ := List.exists_cons_of_ne_nil h
    rw [hc, List.singleton_append, readQuoted, if_neg hback, if_neg hquote]

/-- An escaped text is read as it was, up to the quote behind it. -/
theorem readQuoted_mysqlEscape (s : List Char) {c : Char} (hc : c ≠ '\'') (rest : List Char) :
    readQuoted (mysqlEscape s ++ '\'' :: c :: rest) = some (s, c :: rest) := by
  induction s with
  | nil =>
    rw [mysqlEscape, List.flatMap_nil, List.nil_append, readQuoted, if_neg (by decide), if_pos rfl,
      if_neg hc]
  | cons a s ih =>
    have hcons : mysqlEscape (a :: s) = mysqlEscapeChar a ++ mysqlEscape s := List.flatMap_cons
    rw [hcons, List.append_assoc, readQuoted_escapeChar a (by simp), ih]
    rfl

/-- Hexadecimal bytes are read back. -/
theorem readHexBytes_hexBytes (bytes : List UInt8) :
    readHexBytes (bytes.flatMap hexByte) = some bytes := by
  induction bytes with
  | nil => rfl
  | cons b bytes ih =>
    have hb := b.toNat_lt
    obtain ⟨hhigh, hhigh'⟩ := hexVal_hexDigit (b.toNat / 16) (by omega)
    obtain ⟨hlow, hlow'⟩ := hexVal_hexDigit (b.toNat % 16) (by omega)
    have hcons : (b :: bytes).flatMap hexByte =
        hexDigit (b.toNat / 16) :: hexDigit (b.toNat % 16) :: bytes.flatMap hexByte := rfl
    rw [hcons, readHexBytes, hhigh', hlow', Bool.and_self, if_pos rfl, ih, hhigh, hlow,
      Nat.div_add_mod', UInt8.ofNat_toNat]
    rfl

/-! ## Numbers -/

section Numbers

variable {readDouble : List Char → Double}

theorem decimal_spec (n : ℕ) :
    (decimal n).takeWhile Char.isDigit = decimal n ∧ (decimal n).dropWhile Char.isDigit = [] ∧
      decimal n ≠ [] ∧ digitsValue (decimal n) = n := by
  have h := @takeWhile_digits (decimal n) [] (fun _ => isDigit_of_mem_decimal) nofun
  rw [List.append_nil] at h
  exact ⟨h.1, h.2, Nat.toDigits_ne_nil, Nat.ofDigitChars_ten_toDigits⟩

theorem readMysqlNumber_decimal (n : ℕ) :
    readMysqlNumber readDouble (decimal n) = some (.integer n) := by
  obtain ⟨htake, hdrop, hne, hvalue⟩ := decimal_spec n
  have hsign : ¬ (decimal n).head? = some '-' := fun h =>
    absurd (isDigit_of_mem_decimal (List.mem_of_mem_head? h)) (by decide)
  rw [readMysqlNumber]
  simp only [hsign, if_false, htake, hdrop, hne, hvalue]

theorem readMysqlNumber_signedDecimal (z : ℤ) :
    readMysqlNumber readDouble (signedDecimal z) = some (.integer z) := by
  rw [signedDecimal]
  split
  · rename_i hz
    obtain ⟨htake, hdrop, hne, hvalue⟩ := decimal_spec z.natAbs
    have habs : -(z.natAbs : ℤ) = z := by omega
    rw [readMysqlNumber]
    simp only [List.head?_cons, List.tail_cons, if_true, htake, hdrop, hne, if_false, hvalue, habs]
  · rename_i hz
    have habs : (z.natAbs : ℤ) = z := by omega
    rw [readMysqlNumber_decimal, habs]

/-- What a number may be. -/
theorem readMysqlNumber_cases {cs : List Char} {x : MysqlValue}
    (h : readMysqlNumber readDouble cs = some x) :
    (∃ z, x = .integer z) ∨ x = .decimal cs ∨ x = .double (readDouble cs) := by
  unfold readMysqlNumber at h
  simp only at h
  generalize (if cs.head? = some '-' then cs.tail else cs) = unsigned at h
  split at h
  · split at h
    · contradiction
    · exact .inl ⟨_, (Option.some.inj h).symm⟩
  · split at h
    · exact .inr (.inr (Option.some.inj h).symm)
    · contradiction
  · split at h
    · contradiction
    · split at h
      · exact .inr (.inl (Option.some.inj h).symm)
      · split at h
        · exact .inr (.inr (Option.some.inj h).symm)
        · contradiction
      · contradiction
  · contradiction

end Numbers

/-! ## Literals -/

/-- A text of digits, signs, a point and the letters of `inf`, `nan` and an exponent. -/
def NumberText (cs : List Char) : Prop :=
  ∀ c ∈ cs, c.isDigit = true ∨ c ∈ ['+', '-', '.', 'e', 'i', 'n', 'f', 'a']

/-- A character that no number has. -/
theorem NumberText.notMem {cs : List Char} (h : NumberText cs) {a : Char} (ha : a.isDigit = false)
    (ha' : a ∉ ['+', '-', '.', 'e', 'i', 'n', 'f', 'a']) : a ∉ cs := fun hmem =>
  (h a hmem).elim (fun hdigit => Bool.false_ne_true (ha.symm.trans hdigit)) ha'

theorem NumberText.plain {cs : List Char} (h : NumberText cs) : Plain cs :=
  ⟨h.notMem (by decide) (by decide), h.notMem (by decide) (by decide),
    h.notMem (by decide) (by decide)⟩

section Literals

variable {readDouble : List Char → Double} {doubleText : Double → List Char}

/-- A word that is no text and no blob is read up to the comma or the parenthesis behind it. -/
theorem readLiteral_word {word : List Char} (hword : ∀ c ∈ word, c ≠ ',' ∧ c ≠ ')')
    (hquote : word.head? ≠ some '\'') (hhex : word.head? ≠ some 'X') {c : Char}
    (hc : c = ',' ∨ c = ')') (rest : List Char) :
    readLiteral readDouble (word ++ c :: rest) =
      if word = "NULL".toList then some (.null, c :: rest)
      else (readMysqlNumber readDouble word).map fun x => (x, c :: rest) := by
  have hstop : ((c ≠ ',' && c ≠ ')') : Bool) = false := by
    rcases hc with rfl | rfl <;> rfl
  have hgo : ∀ a ∈ word, ((a ≠ ',' && a ≠ ')') : Bool) = true := fun a ha => by
    obtain ⟨h, h'⟩ := hword a ha
    simp [h, h']
  have htake : (word ++ c :: rest).takeWhile (fun a => a ≠ ',' && a ≠ ')') = word := by
    rw [List.takeWhile_append_of_pos hgo, List.takeWhile_cons_of_neg (by rw [hstop]; nofun),
      List.append_nil]
  have hdrop : (word ++ c :: rest).dropWhile (fun a => a ≠ ',' && a ≠ ')') = c :: rest := by
    rw [List.dropWhile_append_of_pos hgo, List.dropWhile_cons_of_neg (by rw [hstop]; nofun)]
  have hhead : (word ++ c :: rest).head? ≠ some '\'' ∧ (word ++ c :: rest).head? ≠ some 'X' := by
    cases word with
    | nil => rcases hc with rfl | rfl <;> simp
    | cons a word => exact ⟨hquote, hhex⟩
  rw [readLiteral]
  · simp only [htake, hdrop]
  · rintro cs heq
    exact hhead.1 (by rw [heq]; rfl)
  · rintro cs heq
    exact hhead.2 (by rw [heq]; rfl)

/-- A number is read as one. -/
theorem readLiteral_number {word : List Char} (hword : NumberText word) {c : Char}
    (hc : c = ',' ∨ c = ')') (rest : List Char) :
    readLiteral readDouble (word ++ c :: rest) =
      (readMysqlNumber readDouble word).map fun x => (x, c :: rest) := by
  have hnull : word ≠ "NULL".toList := by
    rintro rfl
    exact hword.notMem (a := 'N') (by decide) (by decide) List.mem_cons_self
  have hstop : ∀ a ∈ word, a ≠ ',' ∧ a ≠ ')' := by
    refine fun a ha => ⟨?_, ?_⟩
    · rintro rfl
      exact hword.notMem (by decide) (by decide) ha
    · rintro rfl
      exact hword.notMem (by decide) (by decide) ha
  rw [readLiteral_word hstop
    (fun h => hword.notMem (by decide) (by decide) (List.mem_of_mem_head? h))
    (fun h => hword.notMem (by decide) (by decide) (List.mem_of_mem_head? h)) hc, if_neg hnull]

theorem numberText_decimal (n : ℕ) : NumberText (decimal n) :=
  fun _ hc => .inl (isDigit_of_mem_decimal hc)

theorem numberText_signedDecimal (z : ℤ) : NumberText (signedDecimal z) := by
  unfold signedDecimal
  split
  · exact List.forall_mem_cons.mpr ⟨.inr (by decide), numberText_decimal _⟩
  · exact numberText_decimal _

/-- An escaped text is read back up to its quote. -/
theorem readLiteral_escapedString (s : List Char) {c : Char} (hc : c = ',' ∨ c = ')')
    (rest : List Char) :
    readLiteral readDouble (escapedString s ++ c :: rest) = some (.text s, c :: rest) := by
  have hquote : c ≠ '\'' := by
    rcases hc with rfl | rfl <;> decide
  have happend : escapedString s ++ c :: rest = '\'' :: (mysqlEscape s ++ '\'' :: c :: rest) := by
    simp [escapedString]
  rw [happend, readLiteral, readQuoted_mysqlEscape s hquote]
  rfl

theorem readLiteral_hexBytes (bytes : List UInt8) (rest : List Char) :
    readLiteral readDouble ('X' :: '\'' :: bytes.flatMap hexByte ++ ['\''] ++ rest) =
      some (.hexadecimal bytes, rest) := by
  have hno : ∀ c ∈ bytes.flatMap hexByte, (c ≠ '\'' : Bool) = true := by
    intro c hc
    obtain ⟨n, -, rfl⟩ := mem_hexBytes hc
    exact decide_eq_true (Nat.digitChar_ne _ (by decide))
  have htake : (bytes.flatMap hexByte ++ '\'' :: rest).takeWhile (· ≠ '\'') =
      bytes.flatMap hexByte := by
    rw [List.takeWhile_append_of_pos hno, List.takeWhile_cons_of_neg (by simp), List.append_nil]
  have hdrop : (bytes.flatMap hexByte ++ '\'' :: rest).dropWhile (· ≠ '\'') = '\'' :: rest := by
    rw [List.dropWhile_append_of_pos hno, List.dropWhile_cons_of_neg (by simp)]
  have happend : 'X' :: '\'' :: bytes.flatMap hexByte ++ ['\''] ++ rest =
      'X' :: '\'' :: (bytes.flatMap hexByte ++ '\'' :: rest) := by simp
  rw [happend, readLiteral, hdrop]
  simp only [htake, readHexBytes_hexBytes]
  rfl

/-- What is read in the literal of a value. -/
theorem readLiteral_mysqlLiteral (hdouble : ∀ v, NumberText (doubleText v)) (v : BoundValue)
    {c : Char} (hc : c = ',' ∨ c = ')') (rest : List Char) :
    readLiteral readDouble (mysqlLiteral doubleText v ++ c :: rest) =
      (literalValue readDouble doubleText v).map fun x => (x, c :: rest) := by
  cases v with
  | null =>
    have hword : ∀ c ∈ "NULL".toList, c ≠ ',' ∧ c ≠ ')' := by simp
    have hnull := @readLiteral_word readDouble _ hword (by decide) (by decide) c hc rest
    rw [if_pos rfl] at hnull
    exact hnull
  | int64 v =>
    refine (readLiteral_number (numberText_signedDecimal _) hc rest).trans ?_
    rw [readMysqlNumber_signedDecimal]
    rfl
  | uint64 v =>
    refine (readLiteral_number (numberText_decimal _) hc rest).trans ?_
    rw [readMysqlNumber_decimal]
    rfl
  | double v => exact readLiteral_number (hdouble v) hc rest
  | bool v =>
    cases v
    · refine (readLiteral_number (numberText_decimal 0) hc rest).trans ?_
      rw [readMysqlNumber_decimal]
      rfl
    · refine (readLiteral_number (numberText_decimal 1) hc rest).trans ?_
      rw [readMysqlNumber_decimal]
      rfl
  | blob v => exact readLiteral_hexBytes v (c :: rest)
  | string v => exact readLiteral_escapedString _ hc rest
  | wstring v => exact readLiteral_escapedString _ hc rest
  | numeric v => exact readLiteral_escapedString _ hc rest
  | date v => exact readLiteral_escapedString _ hc rest
  | time v => exact readLiteral_escapedString _ hc rest
  | timestamp v => exact readLiteral_escapedString _ hc rest
  | interval v => exact readLiteral_escapedString _ hc rest
  | guid v => exact readLiteral_escapedString _ hc rest

/-! ## Rows -/

theorem length_le_literalList : ∀ row : List BoundValue,
    row.length ≤ (literalList doubleText row).length + 1
  | [] => Nat.zero_le _
  | [_] => Nat.le_add_left 1 _
  | v :: w :: vs => by
    have ih := length_le_literalList (w :: vs)
    simp only [literalList, List.length_append, List.length_cons] at ih ⊢
    omega

/-- The literals of a row are read, or none of them. -/
theorem readValues_literalList (hdouble : ∀ v, NumberText (doubleText v)) (rest : List Char) :
    ∀ {row : List BoundValue} {turns : ℕ}, row ≠ [] → row.length ≤ turns →
      readValues readDouble turns (literalList doubleText row ++ ')' :: rest) =
        (row.mapM (literalValue readDouble doubleText)).map fun xs => (xs, rest)
  | [v], turns + 1, _, _ => by
    rw [literalList, readValues, readLiteral_mysqlLiteral hdouble v (.inr rfl), List.mapM_cons,
      List.mapM_nil]
    cases literalValue readDouble doubleText v <;> rfl
  | v :: w :: vs, turns + 1, _, hturns => by
    have ih := readValues_literalList hdouble rest (List.cons_ne_nil w vs)
      (Nat.le_of_succ_le_succ hturns)
    rw [literalList, List.append_assoc, List.cons_append, readValues,
      readLiteral_mysqlLiteral hdouble v (.inl rfl), List.mapM_cons]
    cases literalValue readDouble doubleText v with
    | none => rfl
    | some x =>
      simp only [Option.map_some, ih]
      cases (w :: vs).mapM (literalValue readDouble doubleText) <;> rfl

theorem length_le_literalTuples : ∀ rows : List (List BoundValue),
    rows.length ≤ (literalTuples doubleText rows).length
  | [] => Nat.zero_le _
  | [_] => by simp [literalTuples]
  | row :: row' :: rows => by
    have ih := length_le_literalTuples (row' :: rows)
    simp only [literalTuples, List.length_append, List.length_cons] at ih ⊢
    omega

/-- The rows of literals are read back. -/
theorem readMysqlRows_literalTuples (hdouble : ∀ v, NumberText (doubleText v)) :
    ∀ {rows : List (List BoundValue)} {turns : ℕ}, rows ≠ [] → (∀ row ∈ rows, row ≠ []) →
      rows.length ≤ turns →
      readMysqlRows readDouble turns (literalTuples doubleText rows) =
        rows.mapM fun row => row.mapM (literalValue readDouble doubleText)
  | [row], turns + 1, _, hne, _ => by
    have hlength : row.length ≤ (literalList doubleText row ++ [')']).length := by
      rw [List.length_append]
      exact length_le_literalList row
    have hrow := @readValues_literalList readDouble doubleText hdouble [] row _
      (hne row List.mem_cons_self) hlength
    rw [literalTuples, List.cons_append, readMysqlRows, hrow, List.mapM_cons, List.mapM_nil]
    cases row.mapM (literalValue readDouble doubleText) <;> rfl
  | row :: row' :: rows, turns + 1, _, hne, hturns => by
    have ih := readMysqlRows_literalTuples hdouble (List.cons_ne_nil row' rows)
      (fun r hr => hne r (List.mem_cons_of_mem row hr)) (Nat.le_of_succ_le_succ hturns)
    have hlength : row.length ≤ (literalList doubleText row ++ ')' :: ',' ::
        literalTuples doubleText (row' :: rows)).length := by
      have hle := @length_le_literalList doubleText row
      simp only [List.length_append, List.length_cons]
      omega
    have hrow := @readValues_literalList readDouble doubleText hdouble
      (',' :: literalTuples doubleText (row' :: rows)) row _ (hne row List.mem_cons_self) hlength
    rw [literalTuples, List.cons_append, readMysqlRows, hrow, List.mapM_cons]
    cases row.mapM (literalValue readDouble doubleText) with
    | none => rfl
    | some xs =>
      simp only [Option.map_some, ih]
      cases (row' :: rows).mapM fun row => row.mapM (literalValue readDouble doubleText) <;> rfl

/-- The rows of a statement are read literal by literal, or not at all. -/
theorem readTuples_literalTuples (hdouble : ∀ v, NumberText (doubleText v))
    {rows : List (List BoundValue)} (hrows : rows ≠ []) (hne : ∀ row ∈ rows, row ≠ []) :
    readTuples readDouble (literalTuples doubleText rows) =
      rows.mapM fun row => row.mapM (literalValue readDouble doubleText) :=
  readMysqlRows_literalTuples hdouble hrows hne (length_le_literalTuples rows)

/-- Two rows with quotes and a NULL. -/
example : readTuples (fun _ => ⟨0⟩) (literalTuples (fun _ => ['0'])
    [[.string "it's", .null], [.string "),(\\", .bool true]]) =
      some [[.text "it's".toList, .null], [.text "),(\\".toList, .integer 1]] := by
  decide +kernel

end Literals

end CppLinq
