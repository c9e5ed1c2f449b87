import CppLinq.CreateTable
import CppLinq.SqlPieces

/-!
# Names of objects in SQL Server

`create_table_prefix` of SQL Server looks a table up by a string before it creates it. The string
is the name of the table with its quotes doubled, but SQL Server reads it as a name of up to four
parts, each of which may stand in brackets or in double quotes. How it reads a part without
delimiters is a parameter, `plain`, of which only regular identifiers are known.
-/

namespace CppLinq

/-! ## Multi-part names -/

/-- The part of a name at the head of a text, and what follows it. -/
def readPart (plain : List Char → Option String) (cs : List Char) :
    Option (String × List Char) :=
  if cs.head? = some '[' then
    (readDelimited (Dialect.quotes .mssql) cs).map fun p => (String.ofList p.1, p.2)
  else if cs.head? = some '"' then
    (readDelimited (Dialect.quotes .sqlite) cs).map fun p => (String.ofList p.1, p.2)
  else (plain (cs.takeWhile (· ≠ '.'))).map fun part => (part, cs.dropWhile (· ≠ '.'))

/-- The parts of a name that has `n` parts at most. -/
def nameParts (plain : List Char → Option String) : ℕ → List Char → Option (List String)
  | 0, _ => none
  | n + 1, cs =>
    match readPart plain cs with
    | none => none
    | some (part, []) => some [part]
    | some (part, c :: rest) =>
      if c = '.' then (nameParts plain n rest).map (part :: ·) else none

/-- The name of an object : server, database, schema and object. -/
def objectName (plain : List Char → Option String) (name : String) : Option (List String) :=
  nameParts plain 4 name.toList

/-- A character that an identifier may begin with. -/
def isIdentifierStart (c : Char) : Bool :=
  c.isAlpha || c == '_' || c == '@'

/-- A character of an identifier. -/
def isIdentifierPart (c : Char) : Bool :=
  isIdentifierStart c || c.isDigit || c == '$' || c == '#'

/-- An identifier that needs no delimiters. It does not begin with `#` : the table would be a
temporary one, for which `OBJECT_ID` does not look in `tempdb`. -/
def IsRegularIdentifier (w : List Char) : Prop :=
  w.head?.any isIdentifierStart ∧ ∀ c ∈ w, isIdentifierPart c

instance : DecidablePred IsRegularIdentifier := fun w =>
  have : Decidable (∀ c ∈ w, isIdentifierPart c) :=
    List.decidableBAll _ w
  inferInstanceAs (Decidable (_ ∧ _))

section Parts

variable {plain : List Char → Option String}

/-- A delimiter at least is read beside a name. -/
theorem length_readClosing {closing : Char} {cs name rest : List Char}
    (h : readClosing closing cs = some (name, rest)) : name.length + rest.length < cs.length := by
  induction cs using readClosing.induct closing generalizing name rest with
  | case1 => cases h
  | case2 =>
    rw [readClosing, if_pos rfl] at h
    cases h
    exact Nat.zero_lt_one
  | case3 c hc =>
    rw [readClosing, if_neg hc] at h
    cases h
  | case4 cs ih =>
    rw [readClosing, if_pos rfl, if_pos rfl] at h
    obtain ⟨⟨name', rest'⟩, hread, heq⟩ := Option.map_eq_some_iff.mp h
    cases heq
    have hlength := ih hread
    simp only [List.length_cons]
    omega
  | case5 c' cs hc' =>
    rw [readClosing, if_pos rfl, if_neg hc'] at h
    cases h
    simp
  | case6 c c' cs hc ih =>
    rw [readClosing, if_neg hc] at h
    obtain ⟨⟨name', rest'⟩, hread, heq⟩ := Option.map_eq_some_iff.mp h
    cases heq
    have hlength := ih hread
    simp only [List.length_cons] at hlength ⊢
    omega

/-- A delimited name is no longer the text that it is written with. -/
theorem readDelimited_ne {q : Quotes} (cs rest : List Char) :
    readDelimited q cs ≠ some (cs, rest) := by
  intro h
  cases cs with
  | nil => cases h
  | cons c cs =>
    rw [readDelimited] at h
    split_ifs at h with hc
    have hlength := length_readClosing h
    rw [List.length_cons] at hlength
    omega

/-- A name without a dot, that begins with no delimiter, is one part. -/
def IsPlainName (cs : List Char) : Prop :=
  '.' ∉ cs ∧ cs.head? ≠ some '[' ∧ cs.head? ≠ some '"'

instance : DecidablePred IsPlainName := fun _ =>
  inferInstanceAs (Decidable (_ ∧ _ ∧ _))

theorem objectName_of_isPlainName {name : String} (h : IsPlainName name.toList) :
    objectName plain name = (plain name.toList).map fun part => [part] := by
  obtain ⟨hdot, hbracket, hquote⟩ := h
  have hall : ∀ c ∈ name.toList, c ≠ '.' := fun c hc heq => hdot (heq ▸ hc)
  have htake : name.toList.takeWhile (· ≠ '.') = name.toList :=
    List.takeWhile_eq_self_iff.mpr fun c hc => decide_eq_true (hall c hc)
  have hdrop : name.toList.dropWhile (· ≠ '.') = [] :=
    List.dropWhile_eq_nil_iff.mpr fun c hc => decide_eq_true (hall c hc)
  rw [objectName, nameParts, readPart, if_neg hbracket, if_neg hquote, htake, hdrop]
  cases plain name.toList <;> rfl

theorem isPlainName_of_isRegularIdentifier {w : List Char} (h : IsRegularIdentifier w) :
    IsPlainName w := by
  obtain ⟨hstart, hall⟩ := h
  have hhead (c : Char) (hc : isIdentifierStart c = false) : w.head? ≠ some c := by
    intro heq
    rw [heq, Option.any_some, hc] at hstart
    cases hstart
  exact ⟨fun hdot => absurd (hall '.' hdot) (by decide), hhead '[' (by decide),
    hhead '"' (by decide)⟩

theorem nameParts_ne_nil {n : ℕ} {cs : List Char} : nameParts plain n cs ≠ some [] := by
  intro h
  cases n with
  | zero => cases h
  | succ n =>
    rw [nameParts] at h
    split at h
    · cases h
    · cases h
    · split_ifs at h
      obtain ⟨parts, -, heq⟩ := Option.map_eq_some_iff.mp h
      cases heq

/-- A name read as itself is plain. -/
theorem isPlainName_of_objectName {name : String} (h : objectName plain name = some [name]) :
    IsPlainName name.toList ∧ plain name.toList = some name := by
  have hpart : readPart plain name.toList = some (name, []) := by
    rw [objectName, nameParts] at h
    split at h
    · cases h
    · next part hread =>
      cases h
      exact hread
    · next part c rest hread =>
      split_ifs at h
      obtain ⟨parts, hparts, heq⟩ := Option.map_eq_some_iff.mp h
      cases heq
      exact absurd hparts nameParts_ne_nil
  have hdelimited (q : Quotes) : (readDelimited q name.toList).map
      (fun p => (String.ofList p.1, p.2)) ≠ some (name, []) := by
    intro heq
    obtain ⟨⟨cs, rest⟩, hread, heq⟩ := Option.map_eq_some_iff.mp heq
    cases heq
    rw [String.toList_ofList] at hread
    exact readDelimited_ne cs [] hread
  rw [readPart] at hpart
  split_ifs at hpart with hbracket hquote
  · exact absurd hpart (hdelimited _)
  · exact absurd hpart (hdelimited _)
  · obtain ⟨part, hplain, heq⟩ := Option.map_eq_some_iff.mp hpart
    obtain ⟨rfl, hdrop⟩ := Prod.mk.inj heq
    have hall := List.dropWhile_eq_nil_iff.mp hdrop
    rw [List.takeWhile_eq_self_iff.mpr hall] at hplain
    exact ⟨⟨fun hdot => of_decide_eq_true (hall '.' hdot) rfl, hbracket, hquote⟩, hplain⟩

end Parts

/-! ## The guard of a table -/

/-- The name that the guard of a `CREATE TABLE` looks up : the literal in `OBJECT_ID`. -/
def guardedName : List DefToken → Option String
  | .word _ :: .word w :: .mark '(' :: .word _ :: .quoted .literal s :: _ =>
    if w = "OBJECT_ID".toList then some s else none
  | _ => none

/-- The name of the table that is created : the first that is no literal. -/
def createdName (ts : List DefToken) : Option String :=
  ts.findSome? DefToken.name?

/-- What `create_table_prefix` of SQL Server writes for a table. -/
def prefixTokens (tableName : String) : List DefToken :=
  defTokens (Dialect.quotes .mssql)
    (Dialect.write .mssql (Dialect.createTablePrefix .mssql tableName))

/-- `OBJECT_ID` is null : the name is none, or none of an object of the catalog. -/
def ObjectIdNull (plain : List Char → Option String) (catalog : Set (List String))
    (name : String) : Prop :=
  ∀ parts, objectName plain name = some parts → parts ∉ catalog

/-- The guard looks up the one name of the table that is created. -/
def ChecksCreated (plain : List Char → Option String) (tableName : String) : Prop :=
  ∃ guarded created, guardedName (prefixTokens tableName) = some guarded ∧
    createdName (prefixTokens tableName) = some created ∧
    objectName plain guarded = some [created]

theorem prefixTokens_eq (tableName : String) :
    guardedName (prefixTokens tableName) = some tableName ∧
      createdName (prefixTokens tableName) = some tableName := by
  have hname : Spells (Dialect.quotes .mssql)
      (Dialect.write .mssql (Dialect.quoteId .mssql tableName)) [.quoted .name tableName] := by
    rw [write_quoteId]
    exact spells_name tableName
  have htokens := ((closes_objectId tableName).append hname).2
  rw [← write_append] at htokens
  have htable : prefixTokens tableName = _ := htokens
  rw [htable]
  exact ⟨rfl, rfl⟩

/-- The guard looks up the table that is created exactly when the name is plain and is read as
it stands, and then, whatever is in the catalog, it holds exactly when the table is not there.
The names that are regular identifiers are so. -/
theorem checksCreated_iff {plain : List Char → Option String}
    (hplain : ∀ w, IsRegularIdentifier w → plain w = some (String.ofList w)) (tableName : String) :
    (ChecksCreated plain tableName ↔
      IsPlainName tableName.toList ∧ plain tableName.toList = some tableName) ∧
    (ChecksCreated plain tableName ↔ ∀ catalog : Set (List String),
      ∃ guarded created, guardedName (prefixTokens tableName) = some guarded ∧
        createdName (prefixTokens tableName) = some created ∧
        (ObjectIdNull plain catalog guarded ↔ [created] ∉ catalog)) ∧
    (IsRegularIdentifier tableName.toList → ChecksCreated plain tableName) := by
  obtain ⟨hguarded, hcreated⟩ := prefixTokens_eq tableName
  have hchecks : ChecksCreated plain tableName ↔ objectName plain tableName = some [tableName] := by
    constructor
    · rintro ⟨guarded, created, hg, hc, h⟩
      rw [hguarded] at hg
      rw [hcreated] at hc
      cases hg
      cases hc
      exact h
    · exact fun h => ⟨tableName, tableName, hguarded, hcreated, h⟩
  have hiff : objectName plain tableName = some [tableName] ↔
      IsPlainName tableName.toList ∧ plain tableName.toList = some tableName := by
    refine ⟨isPlainName_of_objectName, fun h => ?_⟩
    rw [objectName_of_isPlainName h.1, h.2]
    rfl
  refine ⟨hchecks.trans hiff, hchecks.trans ⟨fun h catalog => ?_, fun h => ?_⟩, fun h => ?_⟩
  · refine ⟨tableName, tableName, hguarded, hcreated, fun hnull => hnull _ h, fun hnot => ?_⟩
    intro parts hparts
    rw [h] at hparts
    cases hparts
    exact hnot
  · -- the catalog that has the table alone
    obtain ⟨guarded, created, hg, hc, hnull⟩ := h {[tableName]}
    rw [hguarded] at hg
    rw [hcreated] at hc
    cases hg
    cases hc
    by_contra hne
    refine hnull.mp (fun parts hparts hmem => hne ?_) rfl
    rw [hparts, Set.mem_singleton_iff.mp hmem]
  · exact hchecks.mpr (hiff.mpr ⟨isPlainName_of_isRegularIdentifier h,
      (hplain _ h).trans (congrArg some String.ofList_toList)⟩)

/-- A name that is read without delimiters if it is a regular identifier. -/
def plainRegular (w : List Char) : Option String :=
  if IsRegularIdentifier w then some (String.ofList w) else none

theorem checksCreated_iff_users : ChecksCreated plainRegular "users" :=
  (checksCreated_iff (fun _ h => if_pos h) "users").2.2 (by decide)

/-- The dot of `dbo.users` separates a schema in the guard, and is a character of the name of the
table that is created. -/
theorem not_checksCreated_schema : ¬ ChecksCreated plainRegular "dbo.users" := by
  rintro ⟨guarded, created, hg, hc, h⟩
  rw [(prefixTokens_eq "dbo.users").1] at hg
  rw [(prefixTokens_eq "dbo.users").2] at hc
  cases hg
  cases hc
  exact absurd h (by decide)

end CppLinq
