import CppLinq.ConnectionStrings
import CppLinq.NumericConversion

/-!
# Connection strings of MySQL

`MysqlConnection::parse_connection_params`, which takes the parameters of `mysql_real_connect`
from a URI or from keys and values. Both give the same parameters wherever no part holds one of
the separators that end it (`parseConnectionParams_parts`) : nothing in a URI is decoded.
-/

namespace CppLinq

/-! ## Parsing the parameters -/

/-- `std::atoi`, whose result is undefined for a number that is no `int`. -/
def atoi (s : List Char) : ℤ :=
  match s.dropWhile isSpace with
  | '-' :: s => -digitsValue (s.takeWhile Char.isDigit)
  | '+' :: s => digitsValue (s.takeWhile Char.isDigit)
  | s => digitsValue (s.takeWhile Char.isDigit)

/-- The parameters of a connection, with their defaults. -/
structure ParsedParams where
  host : List Char := "127.0.0.1".toList
  port : UInt32 := 3306
  user : List Char := "cppdb".toList
  password : List Char := "cppdb_password".toList
  db : List Char := "cppdb".toList
  unixSocket : List Char := []
  timeoutSec : UInt32 := 10
  charset : List Char := "utf8mb4".toList
  deriving DecidableEq

namespace ParsedParams

/-- The part before the `@` : a user, and a password behind a colon. -/
def readUser (p : ParsedParams) (userPass : List Char) : ParsedParams :=
  if ':' ∈ userPass then
    { p with user := beforeSep ':' userPass, password := afterSep ':' userPass }
  else { p with user := userPass }

/-- The part up to the slash : a host, and a port behind a colon. -/
def readServer (p : ParsedParams) (hostPort : List Char) : ParsedParams :=
  if ':' ∈ hostPort then
    { p with host := beforeSep ':' hostPort, port := UInt32.ofInt (atoi (afterSep ':' hostPort)) }
  else if hostPort ≠ [] then { p with host := hostPort }
  else p

/-- The part behind the slash, up to the query. -/
def readDb (p : ParsedParams) (name : List Char) : ParsedParams :=
  if name ≠ [] then { p with db := beforeSep '?' name } else p

/-- The parameters of a URI, from what follows `://`. -/
def readUri (text : List Char) : ParsedParams :=
  let p : ParsedParams := if '@' ∈ text then readUser {} (beforeSep '@' text) else {}
  let server := if '@' ∈ text then afterSep '@' text else text
  (p.readServer (beforeSep '/' server)).readDb (afterSep '/' server)

/-- The branch of a key, or of none. -/
def assign (p : ParsedParams) (lk val : List Char) : ParsedParams :=
  if lk = "host".toList ∨ lk = "server".toList ∨ lk = "servername".toList then
    { p with host := val }
  else if lk = "port".toList then { p with port := UInt32.ofInt (atoi val) }
  else if lk = "user".toList ∨ lk = "uid".toList ∨ lk = "username".toList then
    { p with user := val }
  else if lk = "pwd".toList ∨ lk = "password".toList then { p with password := val }
  else if lk = "db".toList ∨ lk = "database".toList ∨ lk = "dbname".toList then
    { p with db := val }
  else if lk = "socket".toList ∨ lk = "unix_socket".toList then { p with unixSocket := val }
  else if lk = "charset".toList then { p with charset := val }
  else p

/-- The parameters after a part between semicolons. -/
def readToken (p : ParsedParams) (token : List Char) : ParsedParams :=
  if '=' ∈ token then
    let key := trimStr (beforeSep '=' token)
    p.assign (key.map Char.toLower) (unbraced (trimStr (afterSep '=' token)))
  else p

/-- The parameters of a connection string that is not the name of a data source. -/
def read (raw : List Char) : ParsedParams :=
  if "mysql://".toList <+: raw then readUri (raw.drop 8)
  else if "mariadb://".toList <+: raw then readUri (raw.drop 10)
  else (raw.splitOn ';').foldl readToken {}

end ParsedParams

/-- The parameters of a connection, where `envClient` and `envOdbc` are the values of
`CPPLINQ_MYSQL_CLIENT` and `CPPLINQ_MYSQL_ODBC`. -/
def parseConnectionParams (envClient envOdbc : Option (List Char))
    (connectionString : List Char) : ParsedParams :=
  let raw := if connectionString = [] then (envClient.or envOdbc).getD [] else connectionString
  if raw = [] then {}
  else if '=' ∉ raw ∧ '/' ∉ raw then
    if envClient.getD [] ≠ [] then ParsedParams.read (envClient.getD []) else {}
  else ParsedParams.read raw

/-! ## What a connection string says -/

/-- The parts of a connection string. -/
structure ConnectionParts where
  host : List Char
  port : Option ℕ
  /-- The user, with a password or without. -/
  account : Option (List Char × Option (List Char))
  db : Option (List Char)

namespace ConnectionParts

/-- The parameters that the parts stand for. -/
def params (u : ConnectionParts) : ParsedParams where
  host := u.host
  port := (u.port.map UInt32.ofNat).getD 3306
  user := (u.account.map Prod.fst).getD "cppdb".toList
  password := (u.account.bind Prod.snd).getD "cppdb_password".toList
  db := u.db.getD "cppdb".toList

/-- A user and a password as they are written in a URI. -/
def accountText (u : ConnectionParts) : List Char :=
  u.account.elim [] fun a => a.1 ++ a.2.elim [] (':' :: ·)

/-- The host, and the port after a colon. -/
def hostPort (u : ConnectionParts) : List Char :=
  u.host ++ u.port.elim [] fun n => ':' :: decimal n

/-- A server, a database and a query as they are written in a URI. -/
def serverText (u : ConnectionParts) (query : List Char) : List Char :=
  u.hostPort ++ u.db.elim [] fun name => '/' :: (name ++ query)

/-- The URI of the parts, where a query may follow the database. -/
def uri (u : ConnectionParts) (mariadb : Bool) (query : List Char) : List Char :=
  (if mariadb then "mariadb://".toList else "mysql://".toList) ++
    if u.account.isSome then u.accountText ++ '@' :: u.serverText query else u.serverText query

/-- No part holds the separator that ends it in a URI. -/
structure FitsUri (u : ConnectionParts) (query : List Char) : Prop where
  host : u.host ≠ [] ∧ ':' ∉ u.host ∧ '/' ∉ u.host
  user : ∀ a ∈ u.account, ':' ∉ a.1 ∧ '@' ∉ a.1
  password : ∀ a ∈ u.account, ∀ w ∈ a.2, '@' ∉ w
  db : ∀ name ∈ u.db, name ≠ [] ∧ '?' ∉ name
  /-- Without a user nothing looks like one. -/
  server : u.account = none → '@' ∉ u.serverText query
  query : query.head?.all (· = '?')

/-- The parts as keys and values. -/
def pairs (u : ConnectionParts) : List (List Char × List Char) :=
  ("host".toList, u.host) :: ((u.port.map fun n => ("port".toList, decimal n)).toList ++
    (u.account.map fun a => ("user".toList, a.1)).toList ++
    ((u.account.bind Prod.snd).map fun w => ("password".toList, w)).toList ++
    (u.db.map fun name => ("database".toList, name)).toList)

/-- The values are read as they are written. -/
def FitsPairs (u : ConnectionParts) : Prop :=
  ∀ p ∈ u.pairs, ';' ∉ p.2 ∧ unbraced (trimStr p.2) = p.2

instance (u : ConnectionParts) : Decidable u.FitsPairs :=
  inferInstanceAs (Decidable (∀ p ∈ u.pairs, _))

end ConnectionParts

/-- The text of a number is read back. -/
theorem atoi_decimal (n : ℕ) : atoi (decimal n) = n := by
  have hdigits : ∀ c ∈ decimal n, c.isDigit = true := fun _ => isDigit_of_mem_decimal
  have hne : decimal n ≠ [] := Nat.toDigits_ne_nil
  obtain ⟨c, cs, hcs⟩ := List.exists_cons_of_ne_nil hne
  have hc : c.isDigit = true := hdigits c (by rw [hcs]; exact List.mem_cons_self)
  have hskip : (decimal n).dropWhile isSpace = decimal n := by
    rw [hcs, List.dropWhile_cons_of_neg (by rw [(of_isDigit hc).1]; exact Bool.false_ne_true)]
  have htake : (decimal n).takeWhile Char.isDigit = decimal n :=
    List.takeWhile_eq_self_iff.mpr hdigits
  have hminus : ∀ l, decimal n ≠ '-' :: l := by
    intro l hl
    exact absurd (hdigits '-' (by rw [hl]; exact List.mem_cons_self)) (by decide)
  have hplus : ∀ l, decimal n ≠ '+' :: l := by
    intro l hl
    exact absurd (hdigits '+' (by rw [hl]; exact List.mem_cons_self)) (by decide)
  unfold atoi
  rw [hskip]
  split
  · rename_i l hl
    exact absurd hl (hminus l)
  · rename_i l hl
    exact absurd hl (hplus l)
  · rw [htake, SqlNumeric.digitsValue_decimal]

theorem ofInt_atoi_decimal {n : ℕ} (hn : n < 2 ^ 31) :
    UInt32.ofInt (atoi (decimal n)) = UInt32.ofNat n := by
  have hmod : ((n : ℤ) % 2 ^ 32).toNat = n := by omega
  rw [atoi_decimal, UInt32.ofInt, hmod]

namespace ConnectionParts

variable {u : ConnectionParts} {query : List Char}

/-! ## URIs -/

/-- The user and the password are read back. -/
theorem readUser_accountText (p : ParsedParams) (h : u.FitsUri query)
    {a : List Char × Option (List Char)} (ha : u.account = some a) :
    p.readUser u.accountText = { p with user := a.1, password := a.2.getD p.password } := by
  have huser := (h.user a ha).1
  obtain ⟨user, password⟩ := a
  cases password with
  | none =>
    have htext : u.accountText = user := by
      rw [accountText, ha]
      exact List.append_nil user
    rw [htext, ParsedParams.readUser, if_neg huser]
    rfl
  | some w =>
    have htext : u.accountText = user ++ ':' :: w := by
      rw [accountText, ha]
      rfl
    rw [htext, ParsedParams.readUser, if_pos (List.mem_append_right _ List.mem_cons_self),
      beforeSep_append huser, afterSep_append huser]
    rfl

/-- The host and the port are read back. -/
theorem readServer_hostPort (p : ParsedParams) (h : u.FitsUri query)
    (hport : ∀ n ∈ u.port, n < 2 ^ 31) :
    p.readServer u.hostPort =
      { p with host := u.host, port := (u.port.map UInt32.ofNat).getD p.port } := by
  obtain ⟨hne, hcolon, -⟩ := h.host
  cases hn : u.port with
  | none =>
    have htext : u.hostPort = u.host := by
      rw [hostPort, hn]
      exact List.append_nil u.host
    rw [htext, ParsedParams.readServer, if_neg hcolon, if_pos hne]
    rfl
  | some n =>
    have htext : u.hostPort = u.host ++ ':' :: decimal n := by
      rw [hostPort, hn]
      rfl
    rw [htext, ParsedParams.readServer, if_pos (List.mem_append_right _ List.mem_cons_self),
      beforeSep_append hcolon, afterSep_append hcolon, ofInt_atoi_decimal (hport n hn)]
    rfl

theorem slash_not_mem_hostPort (h : u.FitsUri query) : '/' ∉ u.hostPort := by
  rw [hostPort, List.mem_append, not_or]
  refine ⟨h.host.2.2, ?_⟩
  cases u.port with
  | none => exact List.not_mem_nil
  | some n =>
    simp only [Option.elim_some, List.mem_cons, not_or]
    exact ⟨by decide, fun hmem => absurd (isDigit_of_mem_decimal hmem) (by decide)⟩

/-- The server and the database. -/
theorem read_serverText (p : ParsedParams) (h : u.FitsUri query)
    (hport : ∀ n ∈ u.port, n < 2 ^ 31) :
    (p.readServer (beforeSep '/' (u.serverText query))).readDb
        (afterSep '/' (u.serverText query)) =
      { p with
        host := u.host
        port := (u.port.map UInt32.ofNat).getD p.port
        db := u.db.getD p.db } := by
  have hslash := slash_not_mem_hostPort h
  rw [serverText]
  cases hdb : u.db with
  | none =>
    simp only [Option.elim_none, List.append_nil]
    rw [beforeSep_of_not_mem hslash, afterSep_of_not_mem hslash, readServer_hostPort p h hport]
    rfl
  | some name =>
    obtain ⟨hne, hmark⟩ := h.db name hdb
    have hname : beforeSep '?' (name ++ query) = name := by
      cases hq : query with
      | nil => rw [List.append_nil, beforeSep_of_not_mem hmark]
      | cons c cs =>
        have hc : c = '?' := by simpa [hq] using h.query
        rw [hc, beforeSep_append hmark]
    simp only [Option.elim_some]
    rw [beforeSep_append hslash, afterSep_append hslash, readServer_hostPort p h hport,
      ParsedParams.readDb, if_pos (List.append_ne_nil_of_left_ne_nil hne query), hname]
    rfl

/-- A URI is read back behind its scheme. -/
theorem readUri_text (h : u.FitsUri query) (hport : ∀ n ∈ u.port, n < 2 ^ 31) :
    ParsedParams.readUri (if u.account.isSome then u.accountText ++ '@' :: u.serverText query
      else u.serverText query) = u.params := by
  rw [ParsedParams.readUri]
  cases ha : u.account with
  | none =>
    have hat := h.server ha
    simp only [Option.isSome_none, Bool.false_eq_true, if_false, if_neg hat]
    rw [read_serverText _ h hport, params, ha]
    rfl
  | some a =>
    have hat : '@' ∉ u.accountText := by
      rw [accountText, ha]
      simp only [Option.elim_some, List.mem_append, not_or]
      refine ⟨(h.user a ha).2, ?_⟩
      cases hw : a.2 with
      | none => exact List.not_mem_nil
      | some w =>
        simp only [Option.elim_some, List.mem_cons, not_or]
        exact ⟨by decide, h.password a ha w hw⟩
    have hmem : '@' ∈ u.accountText ++ '@' :: u.serverText query :=
      List.mem_append_right _ List.mem_cons_self
    simp only [Option.isSome_some, if_true, if_pos hmem]
    rw [beforeSep_append hat, afterSep_append hat, read_serverText _ h hport,
      readUser_accountText _ h ha, params, ha]
    rfl

theorem read_uri (mariadb : Bool) (h : u.FitsUri query) (hport : ∀ n ∈ u.port, n < 2 ^ 31) :
    ParsedParams.read (u.uri mariadb query) = u.params := by
  cases mariadb with
  | false =>
    have hdrop : ∀ l, ("mysql://".toList ++ l).drop 8 = l := fun _ => rfl
    rw [uri, if_neg Bool.false_ne_true, ParsedParams.read, if_pos (List.prefix_append _ _), hdrop,
      readUri_text h hport]
  | true =>
    have hdrop : ∀ l, ("mariadb://".toList ++ l).drop 10 = l := fun _ => rfl
    have hmysql : ∀ l, ¬ "mysql://".toList <+: "mariadb://".toList ++ l := by
      intro l hprefix
      have hsecond := (List.cons_prefix_cons.mp (List.cons_prefix_cons.mp hprefix).2).1
      exact absurd hsecond (by decide)
    rw [uri, if_pos rfl, ParsedParams.read, if_neg (hmysql _), if_pos (List.prefix_append _ _),
      hdrop, readUri_text h hport]

/-! ## Keys and values -/

/-- The keys are words in lower case. -/
theorem key_of_mem_pairs {p : List Char × List Char} (hp : p ∈ u.pairs) :
    (∀ c ∈ p.1, isSpace c = false ∧ c ≠ '=' ∧ c ≠ ';') ∧ p.1.map Char.toLower = p.1 := by
  have hkey : p.1 = "host".toList ∨ p.1 = "port".toList ∨ p.1 = "user".toList ∨
      p.1 = "password".toList ∨ p.1 = "database".toList := by
    simp only [pairs, List.mem_cons, List.mem_append, Option.mem_toList,
      Option.map_eq_some_iff] at hp
    rcases hp with rfl | ((⟨n, -, rfl⟩ | ⟨a, -, rfl⟩) | ⟨w, -, rfl⟩) | ⟨name, -, rfl⟩
    · exact Or.inl rfl
    · exact Or.inr (Or.inl rfl)
    · exact Or.inr (Or.inr (Or.inl rfl))
    · exact Or.inr (Or.inr (Or.inr (Or.inl rfl)))
    · exact Or.inr (Or.inr (Or.inr (Or.inr rfl)))
  rcases hkey with h | h | h | h | h <;> rw [h] <;> exact ⟨by simp [isSpace], by decide⟩

theorem readToken_pair (q : ParsedParams) {p : List Char × List Char} (hp : p ∈ u.pairs)
    (h : u.FitsPairs) : q.readToken (p.1 ++ '=' :: p.2) = q.assign p.1 p.2 := by
  obtain ⟨hplain, hlower⟩ := key_of_mem_pairs hp
  have hmem : '=' ∈ p.1 ++ '=' :: p.2 := List.mem_append_right _ List.mem_cons_self
  have hsep : '=' ∉ p.1 := fun hsep => (hplain '=' hsep).2.1 rfl
  rw [ParsedParams.readToken, if_pos hmem]
  simp only [beforeSep_append hsep, afterSep_append hsep,
    trimStr_eq_self fun c hc => (hplain c hc).1, hlower, (h p hp).2]

theorem assign_pairs (hport : ∀ n ∈ u.port, n < 2 ^ 31) :
    u.pairs.foldl (fun q p => q.assign p.1 p.2) ({} : ParsedParams) = u.params := by
  have hnumber : ∀ (q : ParsedParams), ∀ n ∈ u.port,
      q.assign "port".toList (decimal n) = { q with port := UInt32.ofNat n } := by
    intro q n hn
    rw [← ofInt_atoi_decimal (hport n hn)]
    rfl
  obtain ⟨host, port, account, db⟩ := u
  rw [pairs]
  simp only [List.foldl_cons, List.foldl_append]
  cases port with
  | none => rcases account with _ | ⟨user, _ | password⟩ <;> cases db <;> rfl
  | some n =>
    simp only [Option.map_some, Option.toList_some, List.foldl_cons, List.foldl_nil,
      hnumber _ n rfl]
    rcases account with _ | ⟨user, _ | password⟩ <;> cases db <;> rfl

theorem odbcString_pairs (terminated : Bool) :
    ∃ tail, odbcString u.pairs terminated = "host=".toList ++ tail := by
  have hfirst : ∀ (x : List Char) (xs : List (List Char)),
      ∃ tail, [';'].intercalate (x :: xs) = x ++ tail := by
    intro x xs
    cases xs with
    | nil => exact ⟨[], by simp [List.intercalate]⟩
    | cons y ys => exact ⟨_, by simp [List.intercalate]; rfl⟩
  obtain ⟨tail, htail⟩ := hfirst ("host".toList ++ '=' :: u.host) _
  exact ⟨_, htail.trans (List.append_assoc "host=".toList u.host tail)⟩

/-- The pairs of an ODBC string are read back. -/
theorem read_pairs (h : u.FitsPairs) (hport : ∀ n ∈ u.port, n < 2 ^ 31) (terminated : Bool) :
    ParsedParams.read (odbcString u.pairs terminated) = u.params := by
  obtain ⟨tail, htail⟩ := odbcString_pairs (u := u) terminated
  have huri : ∀ w l : List Char, ¬ 'm' :: w <+: "host=".toList ++ l := by
    intro w l hprefix
    exact absurd (List.cons_prefix_cons.mp hprefix).1 (by decide)
  have hne : u.pairs ≠ [] := List.cons_ne_nil _ _
  have hparts : ∀ p ∈ u.pairs, ';' ∉ p.1 ∧ ';' ∉ p.2 := fun p hp =>
    ⟨fun hsep => ((key_of_mem_pairs hp).1 ';' hsep).2.2 rfl, (h p hp).1⟩
  have hmysql : ¬ "mysql://".toList <+: odbcString u.pairs terminated := by
    rw [htail]
    exact huri _ _
  have hmariadb : ¬ "mariadb://".toList <+: odbcString u.pairs terminated := by
    rw [htail]
    exact huri _ _
  have htokens : (u.pairs.map fun p => p.1 ++ '=' :: p.2).foldl ParsedParams.readToken {} =
      u.params := by
    rw [List.foldl_map, ← assign_pairs hport]
    exact List.foldl_ext _ _ _ fun q p hp => readToken_pair q hp h
  rw [ParsedParams.read, if_neg hmysql, if_neg hmariadb,
    splitOn_odbcString hne hparts, List.foldl_append, htokens]
  cases terminated with
  | false => rfl
  | true => rfl

end ConnectionParts

/-- A URI and keys and values with the same parts give the same parameters, whatever the
environment has. -/
theorem parseConnectionParams_parts (u : ConnectionParts) (hport : ∀ n ∈ u.port, n < 2 ^ 31)
    (envClient envOdbc : Option (List Char)) (mariadb terminated : Bool) (query : List Char) :
    (u.FitsUri query →
      parseConnectionParams envClient envOdbc (u.uri mariadb query) = u.params) ∧
    (u.FitsPairs →
      parseConnectionParams envClient envOdbc (odbcString u.pairs terminated) = u.params) := by
  have hread : ∀ s : List Char, ('=' ∈ s ∨ '/' ∈ s) →
      parseConnectionParams envClient envOdbc s = ParsedParams.read s := by
    intro s hs
    have hne : s ≠ [] := by
      rintro rfl
      simp at hs
    have hsource : ¬('=' ∉ s ∧ '/' ∉ s) := by
      rintro ⟨heq, hslash⟩
      exact hs.elim heq hslash
    rw [parseConnectionParams]
    simp only [if_neg hne, if_neg hsource]
  refine ⟨fun h => ?_, fun h => ?_⟩
  · rw [hread, ConnectionParts.read_uri mariadb h hport]
    refine Or.inr (List.mem_append_left _ ?_)
    cases mariadb <;> decide
  · rw [hread, ConnectionParts.read_pairs h hport terminated]
    obtain ⟨tail, htail⟩ := ConnectionParts.odbcString_pairs (u := u) terminated
    rw [htail]
    exact Or.inl (List.mem_append_left tail (by decide))

/-- A shop, in a URI with a query and in keys and values. -/
theorem parseConnectionParams_shop :
    parseConnectionParams none none "mariadb://app:p:w@db:3307/shop?ssl".toList =
        { host := "db".toList, port := 3307, user := "app".toList, password := "p:w".toList,
          db := "shop".toList } ∧
      parseConnectionParams none none
          "host=db;port=3307;user=app;password=p:w;database=shop;".toList =
        { host := "db".toList, port := 3307, user := "app".toList, password := "p:w".toList,
          db := "shop".toList } := by
  let shop : ConnectionParts :=
    ⟨"db".toList, some 3307, some ("app".toList, some "p:w".toList), some "shop".toList⟩
  have hport : ∀ n ∈ shop.port, n < 2 ^ 31 := by
    rintro n ⟨⟩
    decide
  have hparts := parseConnectionParams_parts shop hport none none true true "?ssl".toList
  refine ⟨hparts.1 ?_, hparts.2 ?_⟩
  · refine ⟨⟨by decide, by decide, by decide⟩, ?_, ?_, ?_, nofun, by decide⟩
    · rintro a ⟨⟩
      decide
    · rintro a ⟨⟩ w ⟨⟩
      decide
    · rintro name ⟨⟩
      decide
  · decide

end CppLinq
