import CppLinq.Conninfo
import CppLinq.NumericText
import Mathlib.Data.List.Infix

/-!
# Connection strings of PostgreSQL

`PgConnection::resolve_connection_string`, which makes a string for `PQconnectdb` of a connection
string in the style of ODBC. The values are written without quotes.
-/

namespace CppLinq

/-! ## Separators -/

/-- The text before the first separator. -/
def beforeSep (sep : Char) (s : List Char) : List Char :=
  s.takeWhile (· ≠ sep)

/-- The text after the first separator. -/
def afterSep (sep : Char) (s : List Char) : List Char :=
  (s.dropWhile (· ≠ sep)).tail

section Cuts

variable {sep : Char} {a : List Char}

/-- The part before the first separator, and that after it. -/
theorem beforeSep_append (h : sep ∉ a) (b : List Char) : beforeSep sep (a ++ sep :: b) = a := by
  have hne : ∀ c ∈ a, decide (c ≠ sep) = true := fun c hc =>
    decide_eq_true (ne_of_mem_of_not_mem hc h)
  rw [beforeSep, List.takeWhile_append_of_pos hne, List.takeWhile_cons_of_neg (by simp),
    List.append_nil]

theorem afterSep_append (h : sep ∉ a) (b : List Char) : afterSep sep (a ++ sep :: b) = b := by
  have hne : ∀ c ∈ a, decide (c ≠ sep) = true := fun c hc =>
    decide_eq_true (ne_of_mem_of_not_mem hc h)
  rw [afterSep, List.dropWhile_append_of_pos hne, List.dropWhile_cons_of_neg (by simp),
    List.tail_cons]

theorem beforeSep_of_not_mem (h : sep ∉ a) : beforeSep sep a = a :=
  List.takeWhile_eq_self_iff.mpr fun _ hc => decide_eq_true (ne_of_mem_of_not_mem hc h)

theorem afterSep_of_not_mem (h : sep ∉ a) : afterSep sep a = [] := by
  have hnil : a.dropWhile (· ≠ sep) = [] :=
    List.dropWhile_eq_nil_iff.mpr fun _ hc => decide_eq_true (ne_of_mem_of_not_mem hc h)
  rw [afterSep, hnil, List.tail_nil]

end Cuts

/-! ## Resolving a connection string -/

/-- `trim_str`. -/
def trimStr (s : List Char) : List Char :=
  trim s

/-- A value without the braces around it. -/
def unbraced (val : List Char) : List Char :=
  if 2 ≤ val.length ∧ val.head? = some '{' ∧ val.getLast? = some '}' then
    (val.drop 1).take (val.length - 2)
  else val

/-- The settings of `resolve_connection_string`, with their defaults. -/
structure PgSettings where
  host : List Char := "localhost".toList
  port : List Char := "5432".toList
  dbname : List Char := "cppdb".toList
  user : List Char := "cppdb".toList
  password : List Char := "cppdb_password".toList
  sslmode : List Char := []

namespace PgSettings

/-- The branch of a key, or of none. -/
def assign (s : PgSettings) (lowerKey val : List Char) : PgSettings :=
  if lowerKey = "server".toList ∨ lowerKey = "host".toList then { s with host := val }
  else if lowerKey = "port".toList then { s with port := val }
  else if lowerKey = "database".toList ∨ lowerKey = "db".toList ∨ lowerKey = "dbname".toList then
    { s with dbname := val }
  else if lowerKey = "uid".toList ∨ lowerKey = "user".toList ∨ lowerKey = "username".toList then
    { s with user := val }
  else if lowerKey = "pwd".toList ∨ lowerKey = "password".toList then { s with password := val }
  else if lowerKey = "sslmode".toList then { s with sslmode := val }
  else s

/-- The settings after a part between semicolons. -/
def readToken (s : PgSettings) (token : List Char) : PgSettings :=
  if '=' ∈ token then
    let key := trimStr (token.takeWhile (· ≠ '='))
    let val := trimStr (token.dropWhile (· ≠ '=')).tail
    s.assign (key.map Char.toLower) (unbraced val)
  else s

/-- The string that is made of the settings. -/
def result (s : PgSettings) : List Char :=
  "host=".toList ++ s.host ++ " port=".toList ++ s.port ++ " dbname=".toList ++ s.dbname ++
    " user=".toList ++ s.user ++ " password=".toList ++ s.password ++
    if s.sslmode = [] then [] else " sslmode=".toList ++ s.sslmode

end PgSettings

/-- A string of libpq itself. -/
def IsNative (connectionString : List Char) : Prop :=
  "postgresql://".toList <+: connectionString ∨ "postgres://".toList <+: connectionString ∨
    "host=".toList <:+: connectionString ∨ "dbname=".toList <:+: connectionString

instance (connectionString : List Char) : Decidable (IsNative connectionString) :=
  inferInstanceAs (Decidable (_ ∨ _ ∨ _ ∨ _))

/-- The string of the environment, or the defaults. -/
def environmentString (env : Option (List Char)) : List Char :=
  match env with
  | some e =>
    if e = [] then
      "host=localhost port=5432 dbname=cppdb user=cppdb password=cppdb_password".toList
    else e
  | none => "host=localhost port=5432 dbname=cppdb user=cppdb password=cppdb_password".toList

/-- `resolve_connection_string`. -/
def resolveConnectionString (env : Option (List Char)) (connectionString : List Char) :
    List Char :=
  if connectionString = [] then environmentString env
  else if IsNative connectionString then connectionString
  else if '=' ∉ connectionString then environmentString env
  else ((connectionString.splitOn ';').foldl PgSettings.readToken {}).result

/-- The connection strings in the style of ODBC. -/
def IsOdbcStyle (connectionString : List Char) : Prop :=
  ¬ IsNative connectionString ∧ '=' ∈ connectionString

instance (connectionString : List Char) : Decidable (IsOdbcStyle connectionString) :=
  inferInstanceAs (Decidable (_ ∧ _))

/-! ## What a connection string gives -/

/-- The parameters of libpq that a key can give. -/
inductive PgParam
  | host | port | dbname | user | password | sslmode
  deriving DecidableEq

namespace PgParam

/-- The keyword of a parameter. -/
def keyword : PgParam → List Char
  | host => "host".toList
  | port => "port".toList
  | dbname => "dbname".toList
  | user => "user".toList
  | password => "password".toList
  | sslmode => "sslmode".toList

/-- The keys of a parameter, in lower case. -/
def keys : PgParam → List (List Char)
  | host => ["server".toList, "host".toList]
  | port => ["port".toList]
  | dbname => ["database".toList, "db".toList, "dbname".toList]
  | user => ["uid".toList, "user".toList, "username".toList]
  | password => ["pwd".toList, "password".toList]
  | sslmode => ["sslmode".toList]

/-- The value of a parameter that is not given. -/
def default : PgParam → Option (List Char)
  | host => some "localhost".toList
  | port => some "5432".toList
  | dbname => some "cppdb".toList
  | user => some "cppdb".toList
  | password => some "cppdb_password".toList
  | sslmode => none

/-- A key, in any case, is one of a parameter. -/
def Names (param : PgParam) (key : List Char) : Prop :=
  key.map Char.toLower ∈ param.keys

instance (param : PgParam) (key : List Char) : Decidable (param.Names key) :=
  inferInstanceAs (Decidable (_ ∈ _))

/-- The last value that is given for a parameter, without the blanks and the braces around it. -/
def given (pairs : List (List Char × List Char)) (param : PgParam) : Option (List Char) :=
  (pairs.reverse.find? fun p => param.Names p.1).map fun p => unbraced (trimStr p.2)

/-- The value that a parameter should have. -/
def expected (pairs : List (List Char × List Char)) (param : PgParam) : Option (List Char) :=
  (param.given pairs).or param.default

end PgParam

/-- The connection string of keys and values, with a semicolon at its end or not. -/
def odbcString (pairs : List (List Char × List Char)) (terminated : Bool) : List Char :=
  [';'].intercalate
    ((pairs.map fun p => p.1 ++ '=' :: p.2) ++ if terminated then [[]] else [])

/-- A string is read by libpq, as the values that the parameters should have and nothing else. -/
def ReadsAs (pairs : List (List Char × List Char)) (text : List Char) : Prop :=
  ∃ assignments, Conninfo.parse text = some assignments ∧
    (∀ param : PgParam, Conninfo.lookup assignments param.keyword = param.expected pairs) ∧
    ∀ a ∈ assignments, ∃ param : PgParam, a.1 = param.keyword ∧ param.expected pairs ≠ none

/-- The values that can be written without quotes. Only the last one may be empty. -/
def AreWritable (pairs : List (List Char × List Char)) : Prop :=
  ∀ (param : PgParam) (v : List Char), param.expected pairs = some v →
    Conninfo.IsPlain v ∧ '\x00' ∉ v ∧
      (v = [] → param = .password ∧ PgParam.sslmode.expected pairs = none)

/-! ## The settings of keys and values -/

namespace PgSettings

/-- The value of a parameter. -/
def get (s : PgSettings) : PgParam → List Char
  | .host => s.host
  | .port => s.port
  | .dbname => s.dbname
  | .user => s.user
  | .password => s.password
  | .sslmode => s.sslmode

/-- The branch of a parameter's key sets that parameter. -/
theorem get_assign (s : PgSettings) {param : PgParam} {lowerKey : List Char}
    (h : lowerKey ∈ param.keys) (val : List Char) (q : PgParam) :
    (s.assign lowerKey val).get q = if q = param then val else s.get q := by
  cases param <;> simp only [PgParam.keys, List.mem_cons, List.not_mem_nil, or_false] at h <;>
    rcases h with rfl | rfl | rfl <;> cases q <;> rfl

end PgSettings

/-- A key is one of one parameter. -/
theorem PgParam.keys_disjoint (p q : PgParam) : ∀ k ∈ p.keys, k ∈ q.keys → q = p := by
  cases p <;> cases q <;> decide

/-- Keys are words. -/
theorem PgParam.plain_of_mem_keys (p : PgParam) : ∀ k ∈ p.keys, ∀ c ∈ k,
    isSpace c = false ∧ c ≠ '=' ∧ c ≠ ';' := by
  cases p <;> simp [keys, isSpace]

namespace PgParam

variable {param : PgParam} {key : List Char}

theorem Names.plain (h : param.Names key) : ∀ c ∈ key, isSpace c = false ∧ c ≠ '=' ∧ c ≠ ';' := by
  intro c hc
  have hlower := param.plain_of_mem_keys _ h c.toLower (List.mem_map_of_mem hc)
  refine ⟨?_, ?_, ?_⟩
  · by_contra hspace
    have hsame : c.toLower = c := by
      simp only [isSpace, Bool.not_eq_false, Bool.or_eq_true, decide_eq_true_eq] at hspace
      rcases hspace with ((((rfl | rfl) | rfl) | rfl) | rfl) | rfl <;> decide
    rw [hsame] at hlower
    exact hspace hlower.1
  · rintro rfl
    exact absurd hlower.2.1 (by decide)
  · rintro rfl
    exact absurd hlower.2.2 (by decide)

/-- No key names two parameters. -/
theorem Names.eq {q : PgParam} (h : param.Names key) (hq : q.Names key) : q = param :=
  keys_disjoint param q _ h hq

end PgParam

theorem trimStr_eq_self {s : List Char} (h : ∀ c ∈ s, isSpace c = false) : trimStr s = s := by
  have hdrop : s.dropWhile isSpace = s := by
    cases s with
    | nil => rfl
    | cons c s => rw [List.dropWhile_cons, h c List.mem_cons_self]; rfl
  rw [trimStr, trim, hdrop, List.rdropWhile_eq_self_iff]
  intro hne
  rw [h _ (List.getLast_mem hne)]
  exact Bool.false_ne_true

/-- The parts of a key and a value. -/
theorem PgSettings.readToken_pair (s : PgSettings) {param : PgParam} {key : List Char}
    (h : param.Names key) (value : List Char) (q : PgParam) :
    (s.readToken (key ++ '=' :: value)).get q =
      if q.Names key then unbraced (trimStr value) else s.get q := by
  have hplain := h.plain
  have hsep : '=' ∉ key := fun hmem => (hplain '=' hmem).2.1 rfl
  have hkey : (key ++ '=' :: value).takeWhile (· ≠ '=') = key := beforeSep_append hsep value
  have hvalue : ((key ++ '=' :: value).dropWhile (· ≠ '=')).tail = value :=
    afterSep_append hsep value
  have hmem : '=' ∈ key ++ '=' :: value := List.mem_append_right _ List.mem_cons_self
  have hnames : q.Names key ↔ q = param := ⟨h.eq, fun heq => heq ▸ h⟩
  rw [readToken, if_pos hmem]
  simp only [hkey, hvalue, trimStr_eq_self fun c hc => (hplain c hc).1, hnames]
  exact s.get_assign h _ q

/-- The settings after some keys and values. -/
theorem PgSettings.get_foldl {pairs : List (List Char × List Char)}
    (h : ∀ p ∈ pairs, ∃ param : PgParam, param.Names p.1) (s : PgSettings) (q : PgParam) :
    ((pairs.map fun p => p.1 ++ '=' :: p.2).foldl readToken s).get q =
      (q.given pairs).getD (s.get q) := by
  induction pairs generalizing s with
  | nil => rfl
  | cons p pairs ih =>
    obtain ⟨⟨param, hp⟩, hpairs⟩ := List.forall_mem_cons.mp h
    rw [List.map_cons, List.foldl_cons, ih hpairs, s.readToken_pair hp, PgParam.given,
      PgParam.given, List.reverse_cons, List.find?_append]
    cases pairs.reverse.find? fun p => q.Names p.1 with
    | some _ => rfl
    | none =>
      rw [Option.none_or, List.find?_cons]
      by_cases hq : q.Names p.1
      · rw [if_pos hq, decide_eq_true hq]
        rfl
      · rw [if_neg hq, decide_eq_false hq]
        rfl

/-- The parts between the semicolons. -/
theorem splitOn_odbcString {pairs : List (List Char × List Char)} (hne : pairs ≠ [])
    (h : ∀ p ∈ pairs, ';' ∉ p.1 ∧ ';' ∉ p.2) (terminated : Bool) :
    (odbcString pairs terminated).splitOn ';' =
      (pairs.map fun p => p.1 ++ '=' :: p.2) ++ if terminated then [[]] else [] := by
  refine List.splitOn_intercalate ';' (fun l hl => ?_) fun hnil => hne ?_
  · rcases List.mem_append.mp hl with hl | hl
    · obtain ⟨p, hp, rfl⟩ := List.mem_map.mp hl
      obtain ⟨hkey, hvalue⟩ := h p hp
      intro hmem
      rcases List.mem_append.mp hmem with hmem | hmem
      · exact hkey hmem
      · rcases List.mem_cons.mp hmem with heq | hmem
        · contradiction
        · exact hvalue hmem
    · cases terminated with
      | false => contradiction
      | true =>
        rw [if_pos rfl, List.mem_singleton] at hl
        rw [hl]
        exact List.not_mem_nil
  · exact List.map_eq_nil_iff.mp (List.append_eq_nil_iff.mp hnil).1

/-- The settings of keys and values. -/
def PgSettings.ofPairs (pairs : List (List Char × List Char)) : PgSettings :=
  (pairs.map fun p => p.1 ++ '=' :: p.2).foldl readToken {}

/-- A parameter has the value of its last key. -/
theorem PgSettings.get_ofPairs {pairs : List (List Char × List Char)}
    (h : ∀ p ∈ pairs, ∃ param : PgParam, param.Names p.1) (q : PgParam) :
    (ofPairs pairs).get q = (q.expected pairs).getD [] := by
  rw [ofPairs, get_foldl h, PgParam.expected]
  cases q.given pairs with
  | some _ => rfl
  | none => cases q <;> rfl

/-- An ODBC string resolves to the parameters of its pairs. -/
theorem resolveConnectionString_odbcString {pairs : List (List Char × List Char)}
    (h : ∀ p ∈ pairs, (∃ param : PgParam, param.Names p.1) ∧ ';' ∉ p.2) {terminated : Bool}
    (hodbc : IsOdbcStyle (odbcString pairs terminated)) (env : Option (List Char)) :
    resolveConnectionString env (odbcString pairs terminated) =
      (PgSettings.ofPairs pairs).result := by
  have hne : odbcString pairs terminated ≠ [] := List.ne_nil_of_mem hodbc.2
  have hpairs : pairs ≠ [] := by
    rintro rfl
    cases terminated with
    | false => exact hne rfl
    | true => exact hne rfl
  have hparts : ∀ p ∈ pairs, ';' ∉ p.1 ∧ ';' ∉ p.2 := by
    intro p hp
    obtain ⟨⟨param, hnames⟩, hvalue⟩ := h p hp
    exact ⟨fun hmem => (hnames.plain _ hmem).2.2 rfl, hvalue⟩
  rw [resolveConnectionString, if_neg hne, if_neg hodbc.1, if_neg (not_not.mpr hodbc.2),
    splitOn_odbcString hpairs hparts, List.foldl_append, ← PgSettings.ofPairs]
  cases terminated with
  | false => rfl
  | true => rfl

/-! ## The string for libpq -/

/-- The assignments that the settings are written as. -/
def PgSettings.assignments (s : PgSettings) : List Conninfo.Assignment :=
  [("host".toList, s.host), ("port".toList, s.port), ("dbname".toList, s.dbname),
    ("user".toList, s.user), ("password".toList, s.password)] ++
    if s.sslmode = [] then [] else [("sslmode".toList, s.sslmode)]

/-- The result is a text of assignments. -/
theorem PgSettings.result_eq (s : PgSettings) :
    s.result = Conninfo.assignmentText s.assignments := by
  unfold result assignments
  by_cases hssl : s.sslmode = []
  · simp [hssl, Conninfo.assignmentText]
  · simp [hssl, Conninfo.assignmentText]

/-- The parameters that are written. -/
def PgSettings.Writes (s : PgSettings) (param : PgParam) : Prop :=
  param = .sslmode → s.sslmode ≠ []

theorem PgSettings.mem_assignments_iff (s : PgSettings) {a : Conninfo.Assignment} :
    a ∈ s.assignments ↔ ∃ param, s.Writes param ∧ a = (param.keyword, s.get param) := by
  rw [assignments]
  constructor
  · intro h
    rcases List.mem_append.mp h with h | h
    · simp only [List.mem_cons, List.not_mem_nil, or_false] at h
      rcases h with h | h | h | h | h
      · exact ⟨.host, nofun, h⟩
      · exact ⟨.port, nofun, h⟩
      · exact ⟨.dbname, nofun, h⟩
      · exact ⟨.user, nofun, h⟩
      · exact ⟨.password, nofun, h⟩
    · split at h
      · contradiction
      · rename_i hssl
        exact ⟨.sslmode, fun _ => hssl, List.mem_singleton.mp h⟩
  · rintro ⟨param, hwrites, rfl⟩
    cases param with
    | sslmode =>
      rw [if_neg (hwrites rfl)]
      exact List.mem_append_right _ List.mem_cons_self
    | host => exact List.mem_append_left _ (.head _)
    | port => exact List.mem_append_left _ (.tail _ (.head _))
    | dbname => exact List.mem_append_left _ (.tail _ (.tail _ (.head _)))
    | user => exact List.mem_append_left _ (.tail _ (.tail _ (.tail _ (.head _))))
    | password => exact List.mem_append_left _ (.tail _ (.tail _ (.tail _ (.tail _ (.head _)))))

/-- Only a password that is the last value may be empty. -/
theorem PgSettings.plainValues_iff (s : PgSettings) : Conninfo.PlainValues s.assignments ↔
    ∀ param, s.Writes param → Conninfo.IsPlain (s.get param) ∧
      (s.get param = [] → param = .password ∧ s.sslmode = []) := by
  rw [assignments]
  by_cases hssl : s.sslmode = []
  · rw [if_pos hssl]
    constructor
    · rintro ⟨hhost, hhost', hport, hport', hdbname, hdbname', huser, huser', hpassword⟩ param hw
      cases param with
      | host => exact ⟨hhost, fun h => absurd h hhost'⟩
      | port => exact ⟨hport, fun h => absurd h hport'⟩
      | dbname => exact ⟨hdbname, fun h => absurd h hdbname'⟩
      | user => exact ⟨huser, fun h => absurd h huser'⟩
      | password => exact ⟨hpassword, fun _ => ⟨rfl, hssl⟩⟩
      | sslmode => exact absurd hssl (hw rfl)
    · intro h
      have hne : ∀ param, s.Writes param → param ≠ .password → s.get param ≠ [] :=
        fun param hw hparam hempty => hparam ((h param hw).2 hempty).1
      exact ⟨(h .host nofun).1, hne .host nofun nofun, (h .port nofun).1, hne .port nofun nofun,
        (h .dbname nofun).1, hne .dbname nofun nofun, (h .user nofun).1, hne .user nofun nofun,
        (h .password nofun).1⟩
  · rw [if_neg hssl]
    constructor
    · rintro ⟨hhost, hhost', hport, hport', hdbname, hdbname', huser, huser', hpassword,
        hpassword', hsslmode⟩ param -
      cases param with
      | host => exact ⟨hhost, fun h => absurd h hhost'⟩
      | port => exact ⟨hport, fun h => absurd h hport'⟩
      | dbname => exact ⟨hdbname, fun h => absurd h hdbname'⟩
      | user => exact ⟨huser, fun h => absurd h huser'⟩
      | password => exact ⟨hpassword, fun h => absurd h hpassword'⟩
      | sslmode => exact ⟨hsslmode, fun h => absurd h hssl⟩
    · intro h
      have hne : ∀ param, s.Writes param → s.get param ≠ [] :=
        fun param hw hempty => hssl ((h param hw).2 hempty).2
      exact ⟨(h .host nofun).1, hne .host nofun, (h .port nofun).1, hne .port nofun,
        (h .dbname nofun).1, hne .dbname nofun, (h .user nofun).1, hne .user nofun,
        (h .password nofun).1, hne .password nofun, (h .sslmode fun _ => hssl).1⟩

theorem PgParam.isKeyword (param : PgParam) : Conninfo.IsKeyword param.keyword := by
  cases param <;> decide

theorem PgParam.keyword_injective : ∀ {p q : PgParam}, p.keyword = q.keyword → p = q := by
  intro p q h
  cases p <;> cases q <;> first | rfl | exact absurd h (by decide)

theorem PgSettings.isKeyword_of_mem (s : PgSettings) :
    ∀ a ∈ s.assignments, Conninfo.IsKeyword a.1 := by
  intro a ha
  obtain ⟨param, -, rfl⟩ := s.mem_assignments_iff.mp ha
  exact param.isKeyword

/-- No keyword is written twice. -/
theorem PgSettings.nodup_keywords (s : PgSettings) : (s.assignments.map Prod.fst).Nodup := by
  rw [assignments]
  split
  · change ["host".toList, "port".toList, "dbname".toList, "user".toList,
      "password".toList].Nodup
    decide
  · change ["host".toList, "port".toList, "dbname".toList, "user".toList, "password".toList,
      "sslmode".toList].Nodup
    decide

/-- The result holds a NUL where a written value does. -/
theorem PgSettings.null_mem_iff (s : PgSettings) :
    '\x00' ∈ Conninfo.assignmentText s.assignments ↔
      ∃ param, s.Writes param ∧ '\x00' ∈ s.get param := by
  rw [Conninfo.null_mem_assignmentText_iff s.isKeyword_of_mem]
  constructor
  · rintro ⟨a, ha, hnull⟩
    obtain ⟨param, hwrites, rfl⟩ := s.mem_assignments_iff.mp ha
    exact ⟨param, hwrites, hnull⟩
  · rintro ⟨param, hwrites, hnull⟩
    exact ⟨_, s.mem_assignments_iff.mpr ⟨param, hwrites, rfl⟩, hnull⟩

/-! ## What libpq reads -/

/-- A written parameter is found with its value. -/
theorem PgSettings.lookup_assignments (s : PgSettings) {param : PgParam} (h : s.Writes param) :
    Conninfo.lookup s.assignments param.keyword = some (s.get param) :=
  Conninfo.lookup_of_mem s.nodup_keywords (s.mem_assignments_iff.mpr ⟨param, h, rfl⟩)

theorem PgSettings.lookup_assignments_none (s : PgSettings) {param : PgParam}
    (h : ¬ s.Writes param) : Conninfo.lookup s.assignments param.keyword = none := by
  refine Conninfo.lookup_eq_none fun v hv => ?_
  obtain ⟨q, hwrites, heq⟩ := s.mem_assignments_iff.mp hv
  rw [PgParam.keyword_injective (congrArg Prod.fst heq)] at h
  exact h hwrites

section

variable {pairs : List (List Char × List Char)}

/-- A parameter without a value is not written. -/
theorem PgSettings.writes_ofPairs (h : ∀ p ∈ pairs, ∃ param : PgParam, param.Names p.1)
    {param : PgParam} (hwrites : (ofPairs pairs).Writes param) :
    param.expected pairs = some ((ofPairs pairs).get param) := by
  have hget := get_ofPairs h param
  cases hexpected : param.expected pairs with
  | some v => rw [hget, hexpected]; rfl
  | none =>
    cases param with
    | sslmode =>
      rw [hexpected] at hget
      exact absurd hget (hwrites rfl)
    | host | port | dbname | user | password =>
      rw [PgParam.expected, Option.or_eq_none_iff] at hexpected
      exact absurd hexpected.2 nofun

/-- A parameter that is not written has no value, or the empty one. -/
theorem PgSettings.not_writes_ofPairs (h : ∀ p ∈ pairs, ∃ param : PgParam, param.Names p.1)
    {param : PgParam} (hwrites : ¬ (ofPairs pairs).Writes param) :
    param = .sslmode ∧ (param.expected pairs).getD [] = [] := by
  rw [Writes, Classical.not_imp, not_not] at hwrites
  obtain ⟨rfl, hssl⟩ := hwrites
  exact ⟨rfl, (get_ofPairs h .sslmode).symm.trans hssl⟩

/-- The values that can be written are plain. -/
theorem areWritable_iff (h : ∀ p ∈ pairs, ∃ param : PgParam, param.Names p.1) :
    AreWritable pairs ↔ Conninfo.PlainValues (PgSettings.ofPairs pairs).assignments ∧
      '\x00' ∉ Conninfo.assignmentText (PgSettings.ofPairs pairs).assignments ∧
      PgParam.sslmode.expected pairs ≠ some [] := by
  have hssl := PgSettings.get_ofPairs h .sslmode
  rw [PgSettings.plainValues_iff, PgSettings.null_mem_iff]
  constructor
  · intro hwritable
    refine ⟨fun param hwrites => ?_, ?_, fun hempty => ?_⟩
    · obtain ⟨hplain, -, hlast⟩ := hwritable param _ (PgSettings.writes_ofPairs h hwrites)
      refine ⟨hplain, fun hempty => ?_⟩
      obtain ⟨hparam, hnone⟩ := hlast hempty
      rw [hnone] at hssl
      exact ⟨hparam, hssl⟩
    · rintro ⟨param, hwrites, hnull⟩
      exact (hwritable param _ (PgSettings.writes_ofPairs h hwrites)).2.1 hnull
    · exact absurd ((hwritable .sslmode [] hempty).2.2 rfl).1 nofun
  · rintro ⟨hplain, hnull, hempty⟩ param v hv
    by_cases hwrites : (PgSettings.ofPairs pairs).Writes param
    · obtain rfl : (PgSettings.ofPairs pairs).get param = v :=
        Option.some.inj ((PgSettings.writes_ofPairs h hwrites).symm.trans hv)
      refine ⟨(hplain param hwrites).1, fun hmem => hnull ⟨param, hwrites, hmem⟩, fun hlast => ?_⟩
      obtain ⟨hparam, hnone⟩ := (hplain param hwrites).2 hlast
      refine ⟨hparam, ?_⟩
      cases hexpected : PgParam.sslmode.expected pairs with
      | none => rfl
      | some w =>
        rw [hexpected] at hssl hempty
        exact absurd (congrArg some (hssl.symm.trans hnone)) hempty
    · obtain ⟨rfl, hgetD⟩ := PgSettings.not_writes_ofPairs h hwrites
      rw [hv] at hgetD hempty
      exact absurd (congrArg some hgetD) hempty

/-- The result is read as the pairs exactly if all values can be written bare. -/
theorem readsAs_result_iff (h : ∀ p ∈ pairs, ∃ param : PgParam, param.Names p.1) :
    ReadsAs pairs (PgSettings.ofPairs pairs).result ↔ AreWritable pairs := by
  let s := PgSettings.ofPairs pairs
  have hne : s.assignments ≠ [] := List.ne_nil_of_mem
    (s.mem_assignments_iff.mpr ⟨.host, nofun, rfl⟩)
  rw [areWritable_iff h, PgSettings.result_eq]
  constructor
  · rintro ⟨as, hparse, hlookup, -⟩
    have hsub : s.assignments ⊆ as := by
      intro a ha
      obtain ⟨param, hwrites, rfl⟩ := s.mem_assignments_iff.mp ha
      refine Conninfo.mem_of_lookup ?_
      rw [hlookup param, PgSettings.writes_ofPairs h hwrites]
    obtain ⟨hplain, hnull⟩ := (Conninfo.parse_assignmentText hne s.isKeyword_of_mem
      s.nodup_keywords).mp ⟨as, hparse, hsub⟩
    refine ⟨hplain, hnull, fun hempty => ?_⟩
    rw [Conninfo.parse_of_plainValues s.isKeyword_of_mem hplain hnull] at hparse
    -- an empty `sslmode` is left out, but was given
    have hssl : s.sslmode = [] := (PgSettings.get_ofPairs h .sslmode).trans (by rw [hempty]; rfl)
    have hnone : Conninfo.lookup s.assignments PgParam.sslmode.keyword = none :=
      s.lookup_assignments_none fun hwrites => hwrites rfl hssl
    rw [Option.some.inj hparse, hlookup, hempty] at hnone
    contradiction
  · rintro ⟨hplain, hnull, hempty⟩
    refine ⟨s.assignments, Conninfo.parse_of_plainValues s.isKeyword_of_mem hplain hnull, ?_, ?_⟩
    · intro param
      by_cases hwrites : s.Writes param
      · rw [s.lookup_assignments hwrites, PgSettings.writes_ofPairs h hwrites]
      · obtain ⟨rfl, hgetD⟩ := PgSettings.not_writes_ofPairs h hwrites
        rw [s.lookup_assignments_none hwrites]
        cases hexpected : PgParam.sslmode.expected pairs with
        | none => rfl
        | some v =>
          rw [hexpected] at hgetD hempty
          exact absurd (congrArg some hgetD) hempty
    · intro a ha
      obtain ⟨param, hwrites, rfl⟩ := s.mem_assignments_iff.mp ha
      refine ⟨param, rfl, ?_⟩
      rw [PgSettings.writes_ofPairs h hwrites]
      exact Option.some_ne_none _

end

/-- A connection string in the style of ODBC is read by libpq as what it gives if and only if its
values can be written without quotes. -/
theorem resolveConnectionString_readsAs_iff (env : Option (List Char))
    (pairs : List (List Char × List Char)) (terminated : Bool)
    (h : ∀ p ∈ pairs, (∃ param : PgParam, param.Names p.1) ∧ ';' ∉ p.2)
    (hodbc : IsOdbcStyle (odbcString pairs terminated)) :
    ReadsAs pairs (resolveConnectionString env (odbcString pairs terminated)) ↔
      AreWritable pairs := by
  rw [resolveConnectionString_odbcString h hodbc]
  exact readsAs_result_iff fun p hp => (h p hp).1

/-- A server in braces. -/
def serverPair : List Char × List Char :=
  (['S', 'e', 'r', 'v', 'e', 'r'], [' ', '{', 'd', 'b', '}'])

theorem names_serverPair :
    ∀ p ∈ [serverPair], (∃ param : PgParam, param.Names p.1) ∧ ';' ∉ p.2 := by
  rw [List.forall_mem_singleton]
  exact ⟨⟨.host, by decide⟩, by decide⟩

theorem resolveConnectionString_readsAs_server :
    ReadsAs [serverPair] (resolveConnectionString none (odbcString [serverPair] true)) := by
  refine (resolveConnectionString_readsAs_iff none [serverPair] true names_serverPair
    (by decide)).mpr fun param v hv => ?_
  cases param with
  | host =>
    obtain rfl : ['d', 'b'] = v := Option.some.inj hv
    decide
  | port =>
    obtain rfl : "5432".toList = v := Option.some.inj hv
    decide
  | dbname | user =>
    obtain rfl : "cppdb".toList = v := Option.some.inj hv
    decide
  | password =>
    obtain rfl : "cppdb_password".toList = v := Option.some.inj hv
    decide
  | sslmode => contradiction

/-- A password with a blank. -/
def passwordPair : List Char × List Char :=
  (['P', 'w', 'd'], ['a', ' ', 's', 's', 'l', 'm', 'o', 'd', 'e', '=', 'b'])

theorem names_passwordPair :
    ∀ p ∈ [passwordPair], (∃ param : PgParam, param.Names p.1) ∧ ';' ∉ p.2 := by
  rw [List.forall_mem_singleton]
  exact ⟨⟨.password, by decide⟩, by decide⟩

/-- What follows the blank is another parameter. -/
theorem not_readsAs_password :
    (∀ p ∈ [passwordPair], (∃ param : PgParam, param.Names p.1) ∧ ';' ∉ p.2) ∧
      IsOdbcStyle (odbcString [passwordPair] false) ∧
      ¬ ReadsAs [passwordPair]
        (resolveConnectionString none (odbcString [passwordPair] false)) := by
  have hodbc : IsOdbcStyle (odbcString [passwordPair] false) := by decide
  refine ⟨names_passwordPair, hodbc, ?_⟩
  rw [resolveConnectionString_odbcString names_passwordPair hodbc,
    readsAs_result_iff fun p hp => (names_passwordPair p hp).1]
  intro hwritable
  have hplain := (hwritable .password passwordPair.2 (by decide)).1
  exact absurd (hplain.1 ' ' (by decide)).1 (by decide)

end CppLinq
