import CppLinq.NumericText
import CppLinq.WideStrings
import Mathlib.Data.List.TakeDrop

/-!
# The reader of the ODBC driver

`OdbcDataReader` of `driver/odbc_connection.cpp` binds every column to a buffer of a fixed
size, and takes a row whose values were cut for a success (`SQL_SUCCESS_WITH_INFO`). A value
that does not fit is then read as the part that did (`readsWhole_iff`).
-/

namespace CppLinq

/-! ## Columns -/

/-- The SQL types of columns. -/
inductive OdbcDataType
  | bigint | integer | smallint | tinyint
  | float | real | double | bit
  | date | time | timestamp | guid | interval
  | decimal | numeric
  | wchar | wvarchar | wlongvarchar
  | binary | varbinary | longvarbinary
  | char | varchar | longvarchar | other
  deriving DecidableEq

/-- The C types that columns are bound to : values of a fixed size, `SQL_C_CHAR`,
`SQL_C_WCHAR` and `SQL_C_BINARY`. -/
inductive OdbcCType
  | fixed
  | char
  | wchar
  | binary

/-- What a buffer of a C type holds. -/
def OdbcCType.Data : OdbcCType → Type
  | .fixed => BoundValue
  | .char => List Char
  | .wchar => List UInt16
  | .binary => List UInt8

/-- What `SQLDescribeCol` tells of a column. -/
structure OdbcColumn where
  dataType : OdbcDataType
  colSize : ℕ

namespace OdbcColumn

/-- The C type that a column is bound as. -/
def cType (col : OdbcColumn) : OdbcCType :=
  match col.dataType with
  | .decimal | .numeric => .char
  | .wchar | .wvarchar | .wlongvarchar => .wchar
  | .binary | .varbinary | .longvarbinary => .binary
  | .char | .varchar | .longvarchar | .other => .char
  | _ => .fixed

/-- The length of the buffer of a column, in bytes, or in units of a wide buffer. -/
def bufferLength (col : OdbcColumn) : ℕ :=
  match col.dataType with
  | .decimal | .numeric => 64
  | .wchar | .wvarchar | .wlongvarchar =>
    if 0 < col.colSize ∧ col.colSize ≤ 2048 then col.colSize + 1 else 2048
  | .binary | .varbinary | .longvarbinary =>
    if 0 < col.colSize ∧ col.colSize ≤ 4096 then col.colSize else 4096
  | .char | .varchar | .longvarchar | .other =>
    if 0 < col.colSize ∧ col.colSize ≤ 4096 then col.colSize + 1 else 4096
  | _ => 0

/-- The column holds decimals. -/
def isDecimal (col : OdbcColumn) : Bool :=
  col.dataType == .decimal || col.dataType == .numeric

end OdbcColumn

/-! ## Buffers -/

/-- The zero that ends a text. -/
def nul : Char :=
  Char.ofNat 0

/-- What is in a buffer after a write to its beginning. -/
def overwrite {α : Type} (buffer data : List α) : List α :=
  data ++ buffer.drop data.length

/-- What `SQLFetch` stores of a value in a buffer : texts are cut to leave room for a zero. -/
def storeCell : (t : OdbcCType) → t.Data → t.Data → t.Data
  | .fixed, _, v => v
  | .char, buffer, v => overwrite (α := Char) buffer (v.take (buffer.length - 1) ++ [nul])
  | .wchar, buffer, v => overwrite (α := UInt16) buffer (v.take (buffer.length - 1) ++ [0])
  | .binary, buffer, v => overwrite (α := UInt8) buffer (v.take buffer.length)

/-- The length of a value in bytes. -/
def cellLength : (t : OdbcCType) → t.Data → ℕ
  | .fixed, _ => 8
  | .char, v => List.length (α := Char) v
  | .wchar, v => 2 * List.length (α := UInt16) v
  | .binary, v => List.length (α := UInt8) v

/-! ## Wide texts -/

/-- Two units are a surrogate pair. -/
def isSurrogatePair (c1 c2 : UInt16) : Bool :=
  0xD800 ≤ c1 && c1 ≤ 0xDBFF && 0xDC00 ≤ c2 && c2 ≤ 0xDFFF

/-- The code point of a surrogate pair. -/
def surrogatePair (c1 c2 : UInt16) : UInt32 :=
  (0x10000 : UInt32) + ((c1.toUInt32 &&& 0x3FF) <<< 10 ||| (c2.toUInt32 &&& 0x3FF))

/-- The code points of a text in UTF-16. -/
def utf16Decode : List UInt16 → List UInt32
  | [] => []
  | [c1] => [c1.toUInt32]
  | c1 :: c2 :: rest =>
    if isSurrogatePair c1 c2 then surrogatePair c1 c2 :: utf16Decode rest
    else c1.toUInt32 :: utf16Decode (c2 :: rest)

/-- `sqlwchar_to_wstring`, which ends at a zero. -/
def sqlwcharToWstring : List UInt16 → List UInt32
  | [] => []
  | [c1] => if c1 = 0 then [] else [c1.toUInt32]
  | c1 :: c2 :: rest =>
    if c1 = 0 then []
    else if isSurrogatePair c1 c2 then surrogatePair c1 c2 :: sqlwcharToWstring rest
    else c1.toUInt32 :: sqlwcharToWstring (c2 :: rest)

/-! ## Getters -/

/-- A bound column, with the caches of its texts. -/
structure BoundCol (t : OdbcCType) where
  data : t.Data
  ind : ℤ
  strCache : List Char
  wstrCache : List UInt32

/-- `SQL_NULL_DATA`. -/
def sqlNullData : ℤ := -1

/-- `SQL_NO_TOTAL`. -/
def sqlNoTotal : ℤ := -4

/-- The text in a buffer of characters. -/
def charView (buffer : List Char) (ind : ℤ) : List Char :=
  if buffer.isEmpty then []
  else if 0 ≤ ind then buffer.take (min ind.toNat (buffer.length - 1))
  else buffer.takeWhile (· ≠ nul)

/-- The text in a wide buffer, each unit of two bytes. -/
def wideView (buffer : List UInt16) (ind : ℤ) : List UInt32 :=
  let lenBytes := if 0 ≤ ind then min ind.toNat (2 * buffer.length) else 2 * buffer.length
  sqlwcharToWstring (buffer.take (lenBytes / 2))

/-- The bytes in a binary buffer. -/
def binaryView (buffer : List UInt8) (ind : ℤ) : List UInt8 :=
  buffer.take (if 0 ≤ ind then min ind.toNat buffer.length else buffer.length)

/-- The getters that return texts, bytes and values. -/
inductive OdbcGetter
  | string
  | wstring
  | blob
  | value

/-- What a getter returns. -/
inductive Shown
  | text (v : List Char)
  | wide (v : List UInt32)
  | bytes (v : List UInt8)
  | value (v : BoundValue)
  deriving DecidableEq

/-- The `BoundValue` of a text. -/
def textValue (isDecimal : Bool) (text : List Char) : BoundValue :=
  if isDecimal then .numeric (.assignString text) else .string (String.ofList text)

namespace BoundCol

-- the texts of values of a fixed size
variable (fixedText : BoundValue → List Char)

/-- `is_null`. -/
def isNull {t : OdbcCType} (c : BoundCol t) : Bool :=
  c.ind = sqlNullData

/-- `get_string_view`, which keeps the texts it makes. -/
def getStringView : {t : OdbcCType} → BoundCol t → List Char × BoundCol t
  | .char, c =>
    if c.isNull then ([], c)
    else if c.strCache ≠ [] then (c.strCache, c)
    else (charView c.data c.ind, c)
  | .wchar, c =>
    if c.isNull then ([], c)
    else if c.strCache ≠ [] then (c.strCache, c)
    else
      let text := wstringToUtf8 (wideView c.data c.ind)
      (text, { c with strCache := text })
  | .fixed, c =>
    if c.isNull then ([], c)
    else if c.strCache ≠ [] then (c.strCache, c)
    else (fixedText c.data, { c with strCache := fixedText c.data })
  | .binary, c => if c.isNull then ([], c) else (c.strCache, c)

/-- `get_wstring`, which keeps the texts it makes of wide columns. -/
def getWstring : {t : OdbcCType} → BoundCol t → List UInt32 × BoundCol t
  | .wchar, c =>
    if c.isNull then ([], c)
    else if c.wstrCache ≠ [] then (c.wstrCache, c)
    else
      let text := wideView c.data c.ind
      (text, { c with wstrCache := text })
  | _, c =>
    if c.isNull then ([], c)
    else
      let (text, c) := c.getStringView fixedText
      (utf8ToWstring text, c)

/-- `get_blob`. -/
def getBlob : {t : OdbcCType} → BoundCol t → List UInt8
  | .binary, c => if c.isNull then [] else binaryView c.data c.ind
  | _, _ => []

/-- `get_value`. -/
def getValue (isDecimal : Bool) : {t : OdbcCType} → BoundCol t → BoundValue × BoundCol t
  | .fixed, c => if c.isNull then (.null, c) else (c.data, c)
  | .binary, c => if c.isNull then (.null, c) else (.blob c.getBlob, c)
  | .wchar, c =>
    if c.isNull then (.null, c)
    else
      let (text, c) := c.getWstring fixedText
      (.wstring text, c)
  | .char, c =>
    if c.isNull then (.null, c)
    else
      let (text, c) := c.getStringView fixedText
      (textValue isDecimal text, c)

/-- Call a getter. -/
def get (isDecimal : Bool) {t : OdbcCType} (c : BoundCol t) : OdbcGetter → Shown × BoundCol t
  | .string => let (v, c) := c.getStringView fixedText; (.text v, c)
  | .wstring => let (v, c) := c.getWstring fixedText; (.wide v, c)
  | .blob => (.bytes c.getBlob, c)
  | .value => let (v, c) := c.getValue fixedText isDecimal; (.value v, c)

/-- The column after some getters were called. -/
def afterGetters (isDecimal : Bool) {t : OdbcCType} (c : BoundCol t) (gs : List OdbcGetter) :
    BoundCol t :=
  gs.foldl (fun c g => (c.get fixedText isDecimal g).2) c

end BoundCol

/-- A value in a column, and whether its length is told when it is fetched. -/
abbrev OdbcCell (t : OdbcCType) := Option (t.Data × Bool)

/-- Store a value in a column. -/
def BoundCol.fetch {t : OdbcCType} (c : BoundCol t) : OdbcCell t → BoundCol t
  | none => { c with ind := sqlNullData }
  | some (v, told) =>
    { c with data := storeCell t c.data v, ind := if told then cellLength t v else sqlNoTotal }

/-- What `SQLFetch` comes upon. -/
inductive OdbcFetch {n : ℕ} (columns : Fin n → OdbcColumn)
  | row (cells : (i : Fin n) → OdbcCell (columns i).cType)
  | noData
  | failed (error : String)

/-- `OdbcDataReader`. -/
structure OdbcDataReader {n : ℕ} (columns : Fin n → OdbcColumn) where
  boundCols : (i : Fin n) → BoundCol (columns i).cType

/-- The contents of a buffer at first. -/
def initialData : (t : OdbcCType) → ℕ → t.Data
  | .fixed, _ => BoundValue.int64 0
  | .char, size => List.replicate size nul
  | .wchar, size => List.replicate (α := UInt16) size 0
  | .binary, size => List.replicate (α := UInt8) size 0

namespace OdbcDataReader

variable {n : ℕ} {columns : Fin n → OdbcColumn}

/-- `init_bound_columns`. -/
def initial (columns : Fin n → OdbcColumn) : OdbcDataReader columns where
  boundCols i := {
    data := initialData (columns i).cType (columns i).bufferLength
    ind := sqlNullData
    strCache := []
    wstrCache := [] }

/-- `next`, for which a row whose values were cut is as good as any other. -/
def next (r : OdbcDataReader columns) : OdbcFetch columns → Except Exn Bool × OdbcDataReader columns
  | .row cells => (.ok true, ⟨fun i =>
      BoundCol.fetch { r.boundCols i with strCache := [], wstrCache := [] } (cells i)⟩)
  | .noData => (.ok false, ⟨fun i => { r.boundCols i with strCache := [], wstrCache := [] }⟩)
  | .failed err => (.error (.dbException ("SQLFetch: " ++ err)),
      ⟨fun i => { r.boundCols i with strCache := [], wstrCache := [] }⟩)

end OdbcDataReader

/-! ## Getters and caches -/

namespace BoundCol

variable (fixedText : BoundValue → List Char)

/-- The text of a column. -/
def stringOf : {t : OdbcCType} → BoundCol t → List Char
  | .char, c => charView c.data c.ind
  | .wchar, c => wstringToUtf8 (wideView c.data c.ind)
  | .fixed, c => fixedText c.data
  | .binary, _ => []

/-- What `get_wstring` returns. -/
def wideOf : {t : OdbcCType} → BoundCol t → List UInt32
  | .wchar, c => wideView c.data c.ind
  | _, c => utf8ToWstring (c.stringOf fixedText)

/-- What `get_value` returns. -/
def valueOf (isDecimal : Bool) : {t : OdbcCType} → BoundCol t → BoundValue
  | .fixed, c => c.data
  | .binary, c => .blob (binaryView c.data c.ind)
  | .wchar, c => .wstring (wideView c.data c.ind)
  | .char, c => textValue isDecimal (charView c.data c.ind)

/-- What `get_blob` returns. -/
def blobOf : {t : OdbcCType} → BoundCol t → List UInt8
  | .binary, c => binaryView c.data c.ind
  | _, _ => []

/-- What a getter returns, of what is in the buffer. -/
def view (isDecimal : Bool) {t : OdbcCType} (c : BoundCol t) : OdbcGetter → Shown
  | .string => .text (if c.isNull then [] else c.stringOf fixedText)
  | .wstring => .wide (if c.isNull then [] else c.wideOf fixedText)
  | .blob => .bytes (if c.isNull then [] else c.blobOf)
  | .value => .value (if c.isNull then .null else c.valueOf isDecimal)

/-- The caches of a column are empty or have its texts. -/
structure Cached {t : OdbcCType} (c : BoundCol t) : Prop where
  str : c.strCache = [] ∨ c.strCache = c.stringOf fixedText
  wstr : c.wstrCache = [] ∨ c.wstrCache = c.wideOf fixedText

variable {fixedText} {t : OdbcCType} {c : BoundCol t}

/-- The columns of one buffer. -/
def SameData {t : OdbcCType} (c c' : BoundCol t) : Prop :=
  c'.data = c.data ∧ c'.ind = c.ind

/-- Getters see the data alone. -/
theorem SameData.view {c c' : BoundCol t} (h : SameData c c') (isDecimal : Bool) (g : OdbcGetter) :
    c'.view fixedText isDecimal g = c.view fixedText isDecimal g := by
  obtain ⟨data, ind, strCache, wstrCache⟩ := c
  obtain ⟨data', ind', strCache', wstrCache'⟩ := c'
  obtain ⟨rfl, rfl⟩ : data' = data ∧ ind' = ind := h
  cases t <;> cases g <;> rfl

/-- A getter keeps the caches right, and returns what the data says. -/
theorem Cached.getStringView (h : c.Cached fixedText) :
    (c.getStringView fixedText).1 = (if c.isNull then [] else c.stringOf fixedText) ∧
      (c.getStringView fixedText).2.Cached fixedText ∧
      SameData c (c.getStringView fixedText).2 := by
  cases t with
  | char =>
    simp only [BoundCol.getStringView]
    split_ifs with hnull hcache
    · exact ⟨rfl, h, rfl, rfl⟩
    · exact ⟨h.str.resolve_left hcache, h, rfl, rfl⟩
    · exact ⟨rfl, h, rfl, rfl⟩
  | wchar =>
    simp only [BoundCol.getStringView]
    split_ifs with hnull hcache
    · exact ⟨rfl, h, rfl, rfl⟩
    · exact ⟨h.str.resolve_left hcache, h, rfl, rfl⟩
    · exact ⟨rfl, ⟨Or.inr rfl, h.wstr⟩, rfl, rfl⟩
  | fixed =>
    simp only [BoundCol.getStringView]
    split_ifs with hnull hcache
    · exact ⟨rfl, h, rfl, rfl⟩
    · exact ⟨h.str.resolve_left hcache, h, rfl, rfl⟩
    · exact ⟨rfl, ⟨Or.inr rfl, h.wstr⟩, rfl, rfl⟩
  | binary =>
    simp only [BoundCol.getStringView]
    split_ifs with hnull
    · exact ⟨rfl, h, rfl, rfl⟩
    · exact ⟨h.str.elim id id, h, rfl, rfl⟩

theorem Cached.getWstring (h : c.Cached fixedText) :
    (c.getWstring fixedText).1 = (if c.isNull then [] else c.wideOf fixedText) ∧
      (c.getWstring fixedText).2.Cached fixedText ∧
      SameData c (c.getWstring fixedText).2 := by
  cases t with
  | wchar =>
    simp only [BoundCol.getWstring]
    split_ifs with hnull hcache
    · exact ⟨rfl, h, rfl, rfl⟩
    · exact ⟨h.wstr.resolve_left hcache, h, rfl, rfl⟩
    · exact ⟨rfl, ⟨h.str, Or.inr rfl⟩, rfl, rfl⟩
  | _ =>
    obtain ⟨htext, hcached, hsame⟩ := h.getStringView
    simp only [BoundCol.getWstring]
    split_ifs with hnull
    · exact ⟨rfl, h, rfl, rfl⟩
    · rw [htext, if_neg hnull]
      exact ⟨rfl, hcached, hsame⟩

theorem Cached.getValue (h : c.Cached fixedText) (isDecimal : Bool) :
    (c.getValue fixedText isDecimal).1 = (if c.isNull then .null else c.valueOf isDecimal) ∧
      (c.getValue fixedText isDecimal).2.Cached fixedText ∧
      SameData c (c.getValue fixedText isDecimal).2 := by
  cases t with
  | fixed =>
    simp only [BoundCol.getValue]
    split_ifs with hnull <;> exact ⟨rfl, h, rfl, rfl⟩
  | binary =>
    simp only [BoundCol.getValue, BoundCol.getBlob]
    split_ifs with hnull <;> exact ⟨rfl, h, rfl, rfl⟩
  | wchar =>
    obtain ⟨htext, hcached, hsame⟩ := h.getWstring
    simp only [BoundCol.getValue]
    split_ifs with hnull
    · exact ⟨rfl, h, rfl, rfl⟩
    · rw [htext, if_neg hnull]
      exact ⟨rfl, hcached, hsame⟩
  | char =>
    obtain ⟨htext, hcached, hsame⟩ := h.getStringView
    simp only [BoundCol.getValue]
    split_ifs with hnull
    · exact ⟨rfl, h, rfl, rfl⟩
    · rw [htext, if_neg hnull]
      exact ⟨rfl, hcached, hsame⟩

/-- A getter returns what is in the buffer, and changes the caches at most. -/
theorem Cached.get (h : c.Cached fixedText) (isDecimal : Bool) (g : OdbcGetter) :
    (c.get fixedText isDecimal g).1 = c.view fixedText isDecimal g ∧
      (c.get fixedText isDecimal g).2.Cached fixedText ∧
      SameData c (c.get fixedText isDecimal g).2 := by
  cases g with
  | string =>
    obtain ⟨htext, hrest⟩ := h.getStringView
    exact ⟨congrArg Shown.text htext, hrest⟩
  | wstring =>
    obtain ⟨htext, hrest⟩ := h.getWstring
    exact ⟨congrArg Shown.wide htext, hrest⟩
  | blob =>
    refine ⟨congrArg Shown.bytes ?_, h, rfl, rfl⟩
    cases t <;> simp only [BoundCol.getBlob, blobOf, ite_self]
  | value =>
    obtain ⟨hvalue, hrest⟩ := h.getValue isDecimal
    exact ⟨congrArg Shown.value hvalue, hrest⟩

/-- Any getters in any order keep the caches right. -/
theorem Cached.afterGetters (isDecimal : Bool) (gs : List OdbcGetter) :
    ∀ {c : BoundCol t}, c.Cached fixedText →
      (c.afterGetters fixedText isDecimal gs).Cached fixedText ∧
        SameData c (c.afterGetters fixedText isDecimal gs) := by
  induction gs with
  | nil => intro c h; exact ⟨h, rfl, rfl⟩
  | cons g gs ih =>
    intro c h
    obtain ⟨-, hcached, hsame⟩ := h.get isDecimal g
    obtain ⟨hcached', hsame'⟩ := ih hcached
    exact ⟨hcached', hsame'.1.trans hsame.1, hsame'.2.trans hsame.2⟩

/-- Whatever getters were called before, a getter returns what is in the buffer. -/
theorem get_afterGetters {isDecimal : Bool} (h : c.Cached fixedText) (gs : List OdbcGetter)
    (g : OdbcGetter) :
    ((c.afterGetters fixedText isDecimal gs).get fixedText isDecimal g).1 =
      c.view fixedText isDecimal g := by
  obtain ⟨hcached, hsame⟩ := h.afterGetters isDecimal gs
  rw [(hcached.get isDecimal g).1, hsame.view]

end BoundCol

/-! ## Whole values -/

/-- What a getter returns for a value, when it is one for the type of the column. The other
getters return nothing by design : a text has no blob, and a blob no text. -/
def expected (fixedText : BoundValue → List Char) (isDecimal : Bool) :
    (t : OdbcCType) → t.Data → OdbcGetter → Option Shown
  | .fixed, v, .string => some (.text (fixedText v))
  | .fixed, v, .wstring => some (.wide (utf8ToWstring (fixedText v)))
  | .fixed, v, .value => some (.value v)
  | .char, v, .string => some (.text v)
  | .char, v, .wstring => some (.wide (utf8ToWstring v))
  | .char, v, .value => some (.value (textValue isDecimal v))
  | .wchar, v, .string => some (.text (wstringToUtf8 (utf16Decode v)))
  | .wchar, v, .wstring => some (.wide (utf16Decode v))
  | .wchar, v, .value => some (.value (.wstring (utf16Decode v)))
  | .binary, v, .blob => some (.bytes v)
  | .binary, v, .value => some (.value (.blob v))
  | _, _, _ => none

/-- What a getter returns for `NULL`. -/
def expectedNull : OdbcGetter → Shown
  | .string => .text []
  | .wstring => .wide []
  | .blob => .bytes []
  | .value => .value .null

/-- The getters of a column return the whole value. -/
def BoundCol.ShowsWhole (fixedText : BoundValue → List Char) (isDecimal : Bool) {t : OdbcCType}
    (c : BoundCol t) (cell : OdbcCell t) : Prop :=
  ∀ gs g shown,
    cell.elim (some (expectedNull g)) (fun v => expected fixedText isDecimal t v.1 g) =
      some shown →
    ((c.afterGetters fixedText isDecimal gs).get fixedText isDecimal g).1 = shown

/-- A text fits a buffer that has room for its zero, which ends it when its length is not
told. -/
def CharFits (length : ℕ) (v : List Char) (told : Bool) : Prop :=
  v.length ≤ length - 1 ∧ (told = false → nul ∉ v)

/-- A wide text ends at a zero in any case. -/
def WideFits (length : ℕ) (v : List UInt16) : Prop :=
  v.length ≤ length - 1 ∧ 0 ∉ v

/-- A blob whose length is not told is taken to fill its buffer. -/
def BinaryFits (length : ℕ) (v : List UInt8) (told : Bool) : Prop :=
  v.length ≤ length ∧ (told = false → v.length = length)

/-- A value fits the buffer of a column. -/
def CellFits (length : ℕ) : (t : OdbcCType) → OdbcCell t → Prop
  | _, none => True
  | .fixed, some _ => True
  | .char, some (v, told) => CharFits length v told
  | .wchar, some (v, _) => WideFits length v
  | .binary, some (v, told) => BinaryFits length v told

/-- Values of a fixed size always fit. -/
theorem cellFits_fixed {t : OdbcCType} (h : t = .fixed) (length : ℕ) (cell : OdbcCell t) :
    CellFits length t cell := by
  subst h
  cases cell <;> trivial

theorem length_overwrite {α : Type} {buffer data : List α} (h : data.length ≤ buffer.length) :
    (overwrite buffer data).length = buffer.length := by
  rw [overwrite, List.length_append, List.length_drop]
  omega

/-- The text before the end of a part of a value is the value when the part is all of it, and
has no end in it. -/
theorem takeWhile_take_eq_iff {α : Type} [DecidableEq α] (v : List α) (k : ℕ) (z : α) :
    (v.take k).takeWhile (· ≠ z) = v ↔ v.length ≤ k ∧ z ∉ v := by
  constructor
  · intro h
    have hlength : v.length ≤ (v.take k).length := by
      conv_lhs => rw [← h]
      exact (List.takeWhile_sublist _).length_le
    have hle : v.length ≤ k := hlength.trans (List.length_take_le k v)
    rw [List.take_of_length_le hle] at h
    exact ⟨hle, fun hz => by simpa using List.takeWhile_eq_self_iff.mp h z hz⟩
  · rintro ⟨hle, hz⟩
    rw [List.take_of_length_le hle, List.takeWhile_eq_self_iff]
    intro c hc
    exact decide_eq_true fun heq => hz (heq ▸ hc)

theorem takeWhile_append_end {α : Type} [DecidableEq α] (w rest : List α) (z : α) :
    (w ++ z :: rest).takeWhile (· ≠ z) = w.takeWhile (· ≠ z) := by
  induction w with
  | nil => simp
  | cons c w ih => by_cases hc : c = z <;> simp [hc] at ih ⊢; exact ih

theorem length_take_end {α : Type} {n : ℕ} (v : List α) (z : α) (h : 0 < n) :
    (v.take (n - 1) ++ [z]).length ≤ n := by
  rw [List.length_append, List.length_take, List.length_singleton]
  omega

/-- A text cut to its buffer is read as what was stored up to a NUL. -/
theorem charView_store {buffer : List Char} (hbuffer : 0 < buffer.length) (v : List Char)
    (told : Bool) :
    charView (overwrite buffer (v.take (buffer.length - 1) ++ [nul]))
      (if told then (v.length : ℤ) else sqlNoTotal) = v ↔ CharFits buffer.length v told := by
  have hlength : (overwrite buffer (v.take (buffer.length - 1) ++ [nul])).length =
      buffer.length := length_overwrite (length_take_end v _ hbuffer)
  have hempty : (overwrite buffer (v.take (buffer.length - 1) ++ [nul])).isEmpty = false := by
    rw [List.isEmpty_eq_false_iff, ← List.length_pos_iff, hlength]
    exact hbuffer
  rw [charView, hempty, if_neg Bool.false_ne_true, hlength, CharFits]
  cases told with
  | true =>
    have htake : (overwrite buffer (v.take (buffer.length - 1) ++ [nul])).take
        (min v.length (buffer.length - 1)) = v.take (buffer.length - 1) := by
      rw [overwrite, List.append_assoc]
      exact List.take_left' (by rw [List.length_take, Nat.min_comm])
    rw [if_pos rfl, if_pos (Int.natCast_nonneg _), Int.toNat_natCast, htake, List.take_eq_self_iff]
    exact (and_iff_left nofun).symm
  | false =>
    rw [if_neg Bool.false_ne_true, if_neg (by decide), overwrite, List.append_assoc]
    simp only [List.singleton_append]
    rw [takeWhile_append_end, takeWhile_take_eq_iff]
    exact and_congr_right fun _ => ⟨fun h _ => h, fun h => h trivial⟩

/-- Bytes are read whole exactly if they fit the buffer. -/
theorem binaryView_store (buffer v : List UInt8) (told : Bool) :
    binaryView (overwrite buffer (v.take buffer.length))
      (if told then (v.length : ℤ) else sqlNoTotal) = v ↔ BinaryFits buffer.length v told := by
  have hlength : (overwrite buffer (v.take buffer.length)).length = buffer.length :=
    length_overwrite (List.length_take_le _ _)
  rw [binaryView, hlength, BinaryFits]
  cases told with
  | true =>
    rw [if_pos rfl, if_pos (Int.natCast_nonneg _), Int.toNat_natCast, overwrite,
      List.take_left' (by rw [List.length_take, Nat.min_comm]), List.take_eq_self_iff]
    exact (and_iff_left nofun).symm
  | false =>
    rw [if_neg Bool.false_ne_true, if_neg (by decide),
      List.take_of_length_le hlength.le]
    constructor
    · intro h
      have hv : v.length = buffer.length := by rw [← h, hlength]
      exact ⟨hv.le, fun _ => hv⟩
    · rintro ⟨-, hv⟩
      have hlen := hv rfl
      rw [overwrite, List.take_of_length_le hlen.le, List.drop_of_length_le hlen.ge,
        List.append_nil]

/-! ## Wide texts in a buffer -/

/-- A conversion ends at the first zero, and decodes what is before. -/
theorem sqlwcharToWstring_eq (l : List UInt16) :
    sqlwcharToWstring l = utf16Decode (l.takeWhile (· ≠ 0)) := by
  induction l using sqlwcharToWstring.induct with
  | case1 => rfl
  | case2 => simp [sqlwcharToWstring, utf16Decode]
  | case3 c1 h => simp [sqlwcharToWstring, utf16Decode, h]
  | case4 => simp [sqlwcharToWstring, utf16Decode]
  | case5 c1 c2 rest h hpair ih =>
    have hc2 : c2 ≠ 0 := by
      rintro rfl
      simp [isSurrogatePair] at hpair
    simp [sqlwcharToWstring, utf16Decode, h, hpair, hc2, ih]
  | case6 c1 c2 rest h hpair ih =>
    have hfirst : (c1 :: c2 :: rest).takeWhile (· ≠ 0) = c1 :: (c2 :: rest).takeWhile (· ≠ 0) :=
      List.takeWhile_cons_of_pos (by simpa using h)
    rw [sqlwcharToWstring, if_neg h, if_neg hpair, ih, hfirst]
    by_cases hc2 : c2 = 0
    · have hnone : (c2 :: rest).takeWhile (· ≠ 0) = [] :=
        List.takeWhile_cons_of_neg (by simpa using hc2)
      rw [hnone]
      rfl
    · have hsecond : (c2 :: rest).takeWhile (· ≠ 0) = c2 :: rest.takeWhile (· ≠ 0) :=
        List.takeWhile_cons_of_pos (by simpa using hc2)
      rw [hsecond, utf16Decode.eq_3, if_neg hpair]

/-- The units of a code point. -/
def unitCount (cp : UInt32) : ℕ :=
  if cp < 0x10000 then 1 else 2

theorem unitCount_toUInt32 (c : UInt16) : unitCount c.toUInt32 = 1 := by
  have hlt : c.toUInt32 < 0x10000 := by
    rw [UInt32.lt_iff_toNat_lt, UInt16.toNat_toUInt32]
    exact c.toNat_lt
  rw [unitCount, if_pos hlt]

theorem toNat_and_1023 (c : UInt16) : (c.toUInt32 &&& 0x3FF).toNat < 2 ^ 10 := by
  rw [UInt32.toNat_and]
  exact Nat.and_lt_two_pow _ (by decide)

/-- A pair is read as one character. -/
theorem unitCount_surrogatePair (c1 c2 : UInt16) : unitCount (surrogatePair c1 c2) = 2 := by
  have hhigh : ((c1.toUInt32 &&& 0x3FF) <<< 10).toNat < 2 ^ 20 := by
    have h1 := toNat_and_1023 c1
    rw [UInt32.toNat_shiftLeft, show (10 : UInt32).toNat % 32 = 10 from rfl, Nat.shiftLeft_eq]
    refine lt_of_le_of_lt (Nat.mod_le _ _) ?_
    omega
  have hbits : ((c1.toUInt32 &&& 0x3FF) <<< 10 ||| (c2.toUInt32 &&& 0x3FF)).toNat < 2 ^ 20 := by
    rw [UInt32.toNat_or]
    exact Nat.or_lt_two_pow hhigh ((toNat_and_1023 c2).trans (by decide))
  have hge : ¬ surrogatePair c1 c2 < 0x10000 := by
    rw [UInt32.lt_iff_toNat_lt, surrogatePair, UInt32.toNat_add,
      show (0x10000 : UInt32).toNat = 2 ^ 16 from rfl]
    omega
  rw [unitCount, if_neg hge]

/-- The code points of a text have as many units as the text. -/
theorem sum_unitCount (l : List UInt16) : ((utf16Decode l).map unitCount).sum = l.length := by
  induction l using utf16Decode.induct with
  | case1 => rfl
  | case2 c1 => simp [utf16Decode, unitCount_toUInt32]
  | case3 c1 c2 rest hpair ih =>
    rw [utf16Decode, if_pos hpair, List.map_cons, List.sum_cons, ih, unitCount_surrogatePair]
    simp only [List.length_cons]
    omega
  | case4 c1 c2 rest hpair ih =>
    rw [utf16Decode, if_neg hpair, List.map_cons, List.sum_cons, ih, unitCount_toUInt32]
    simp only [List.length_cons]
    omega

/-- A part of a text is decoded to the text only when it is the text. -/
theorem utf16Decode_prefix_eq_iff {p v : List UInt16} (h : p <+: v) :
    utf16Decode p = utf16Decode v ↔ p = v := by
  constructor
  · intro heq
    have hlength : p.length = v.length := by rw [← sum_unitCount p, heq, sum_unitCount v]
    exact h.eq_of_length hlength
  · rintro rfl
    rfl

/-- A wide text cut to its buffer is read as what was stored up to a NUL. -/
theorem wideView_store {buffer : List UInt16} (hbuffer : 0 < buffer.length) (v : List UInt16)
    (told : Bool) :
    wideView (overwrite buffer (v.take (buffer.length - 1) ++ [0]))
        (if told then ((2 * v.length : ℕ) : ℤ) else sqlNoTotal) =
      utf16Decode ((v.take (buffer.length - 1)).takeWhile (· ≠ 0)) := by
  have hlength : (overwrite buffer (v.take (buffer.length - 1) ++ [0])).length =
      buffer.length := length_overwrite (length_take_end v _ hbuffer)
  have hall : (overwrite buffer (v.take (buffer.length - 1) ++ [0])).takeWhile (· ≠ 0) =
      (v.take (buffer.length - 1)).takeWhile (· ≠ 0) := by
    rw [overwrite, List.append_assoc]
    exact takeWhile_append_end _ _ 0
  simp only [wideView, hlength]
  rw [sqlwcharToWstring_eq]
  congr 1
  cases told with
  | false =>
    rw [if_neg Bool.false_ne_true, if_neg (by decide),
      Nat.mul_div_cancel_left _ (by decide), List.take_of_length_le hlength.le, hall]
  | true =>
    rw [if_pos rfl, if_pos (Int.natCast_nonneg _), Int.toNat_natCast, Nat.mul_min_mul_left,
      Nat.mul_div_cancel_left _ (by decide)]
    by_cases hle : v.length ≤ buffer.length - 1
    · -- the units of the value alone
      rw [overwrite, List.append_assoc, List.take_of_length_le hle]
      rw [Nat.min_eq_left (by omega)]
      exact congrArg _ (List.take_left' rfl)
    · -- all units of the buffer, of which the last is the zero
      rw [Nat.min_eq_right (by omega), List.take_of_length_le hlength.le, hall]

theorem wideView_store_eq_iff {buffer : List UInt16} (hbuffer : 0 < buffer.length)
    (v : List UInt16) (told : Bool) :
    wideView (overwrite buffer (v.take (buffer.length - 1) ++ [0]))
        (if told then ((2 * v.length : ℕ) : ℤ) else sqlNoTotal) = utf16Decode v ↔
      WideFits buffer.length v := by
  rw [wideView_store hbuffer, utf16Decode_prefix_eq_iff, takeWhile_take_eq_iff, WideFits]
  exact (List.takeWhile_prefix _).trans (List.take_prefix _ _)

/-! ## Columns and rows -/

/-- The length of a buffer. -/
def dataLength : (t : OdbcCType) → t.Data → ℕ
  | .fixed, _ => 0
  | .char, buffer => List.length (α := Char) buffer
  | .wchar, buffer => List.length (α := UInt16) buffer
  | .binary, buffer => List.length (α := UInt8) buffer

theorem dataLength_storeCell {t : OdbcCType} {buffer : t.Data} (v : t.Data)
    (h : 0 < dataLength t buffer) : dataLength t (storeCell t buffer v) = dataLength t buffer := by
  cases t with
  | fixed => rfl
  | binary => exact length_overwrite (List.length_take_le _ _)
  | char => exact @length_overwrite Char buffer _ (length_take_end v nul h)
  | wchar => exact @length_overwrite UInt16 buffer _ (length_take_end v 0 h)

namespace BoundCol

variable {fixedText : BoundValue → List Char} {isDecimal : Bool} {t : OdbcCType}

/-- A column without cached texts, as `next` leaves it to `SQLFetch`. -/
def cleared (c : BoundCol t) : BoundCol t :=
  { c with strCache := [], wstrCache := [] }

/-- After a fetch the caches are empty. -/
theorem cached_fetch_cleared (c : BoundCol t) (cell : OdbcCell t) :
    (c.cleared.fetch cell).Cached fixedText := by
  cases cell with
  | none => exact ⟨Or.inl rfl, Or.inl rfl⟩
  | some v => exact ⟨Or.inl rfl, Or.inl rfl⟩

/-- What the getters show is what is in the buffer, whatever was called before. -/
theorem showsWhole_iff_view (c : BoundCol t) (cell : OdbcCell t) :
    (c.cleared.fetch cell).ShowsWhole fixedText isDecimal cell ↔ ∀ g shown,
      cell.elim (some (expectedNull g)) (fun v => expected fixedText isDecimal t v.1 g) =
        some shown →
      (c.cleared.fetch cell).view fixedText isDecimal g = shown := by
  constructor
  · intro h g shown hshown
    rw [← get_afterGetters (c.cached_fetch_cleared cell) [] g]
    exact h [] g shown hshown
  · intro h gs g shown hshown
    rw [get_afterGetters (c.cached_fetch_cleared cell) gs g]
    exact h g shown hshown

theorem isNull_fetch_some (c : BoundCol t) (v : t.Data) (told : Bool) :
    (c.fetch (some (v, told))).isNull = false := by
  cases told with
  | false => rfl
  | true =>
    refine decide_eq_false fun h => ?_
    have hnonneg : (0 : ℤ) ≤ sqlNullData := h ▸ Int.natCast_nonneg (cellLength t v)
    exact absurd hnonneg (by decide)

/-- A column shows a whole value just when it fits. -/
theorem showsWhole_fetch_iff (c : BoundCol t) (h : t ≠ .fixed → 0 < dataLength t c.data)
    (cell : OdbcCell t) :
    (c.cleared.fetch cell).ShowsWhole fixedText isDecimal cell ↔
      CellFits (dataLength t c.data) t cell := by
  rw [showsWhole_iff_view]
  cases cell with
  | none =>
    refine iff_of_true (fun g shown hshown => ?_) (by cases t <;> trivial)
    obtain rfl := Option.some.inj hshown
    cases g <;> rfl
  | some v =>
    obtain ⟨v, told⟩ := v
    have hnull := c.cleared.isNull_fetch_some v told
    simp only [view, hnull]
    cases t with
    | fixed =>
      refine iff_of_true (fun g shown hshown => ?_) trivial
      cases g <;> cases hshown <;> rfl
    | char =>
      refine Iff.trans ?_ (@charView_store c.data (h nofun) v told)
      constructor
      · intro hall
        exact Shown.text.inj (hall .string _ rfl)
      · intro htext g shown hshown
        cases g <;> cases hshown
        · exact congrArg Shown.text htext
        · exact congrArg (fun text => Shown.wide (utf8ToWstring text)) htext
        · exact congrArg (fun text => Shown.value (textValue isDecimal text)) htext
    | wchar =>
      refine Iff.trans ?_ (@wideView_store_eq_iff c.data (h nofun) v told)
      constructor
      · intro hall
        exact Shown.wide.inj (hall .wstring _ rfl)
      · intro htext g shown hshown
        cases g <;> cases hshown
        · exact congrArg (fun text => Shown.text (wstringToUtf8 text)) htext
        · exact congrArg Shown.wide htext
        · exact congrArg (fun text => Shown.value (.wstring text)) htext
    | binary =>
      refine Iff.trans ?_ (binaryView_store c.data v told)
      constructor
      · intro hall
        exact Shown.bytes.inj (hall .blob _ rfl)
      · intro hbytes g shown hshown
        cases g <;> cases hshown
        · exact congrArg Shown.bytes hbytes
        · exact congrArg (fun bytes => Shown.value (.blob bytes)) hbytes

end BoundCol

namespace OdbcColumn

/-- A buffer has room for a unit and, if it is for a text, for a zero. -/
theorem dataLength_initialData (col : OdbcColumn) (h : col.cType ≠ .fixed) :
    dataLength col.cType (initialData col.cType col.bufferLength) = col.bufferLength := by
  cases hkind : col.cType with
  | fixed => exact absurd hkind h
  | _ => exact List.length_replicate

theorem bufferLength_pos (col : OdbcColumn) (h : col.cType ≠ .fixed) : 0 < col.bufferLength := by
  obtain ⟨dataType, colSize⟩ := col
  cases dataType <;> simp only [cType, bufferLength, ne_eq, reduceCtorEq, not_true_eq_false,
    not_false_eq_true] at h ⊢ <;> first | decide | (split <;> omega)

end OdbcColumn

namespace OdbcDataReader

variable {n : ℕ} {columns : Fin n → OdbcColumn} (fixedText : BoundValue → List Char)

/-- The reader after some getters of each column were called. -/
def afterGetters (r : OdbcDataReader columns) (gs : Fin n → List OdbcGetter) :
    OdbcDataReader columns :=
  ⟨fun i => (r.boundCols i).afterGetters fixedText (columns i).isDecimal (gs i)⟩

/-- Whatever is fetched, and whatever getters are called in between, after `next` returned
`true` the getters return whole values. -/
def ReadsWhole (r : OdbcDataReader columns) : List (OdbcFetch columns) → Prop
  | [] => True
  | f :: fs =>
    (∀ cells, f = .row cells →
      ∀ i, ((r.next f).2.boundCols i).ShowsWhole fixedText (columns i).isDecimal (cells i)) ∧
    ∀ gs, ((r.next f).2.afterGetters fixedText gs).ReadsWhole fs

/-- The buffers have their lengths. -/
def Inv (r : OdbcDataReader columns) : Prop :=
  ∀ i, (columns i).cType ≠ .fixed →
    dataLength _ (r.boundCols i).data = (columns i).bufferLength

variable {fixedText} {r : OdbcDataReader columns}

/-- A new reader keeps the invariant. -/
theorem inv_initial (columns : Fin n → OdbcColumn) : (initial columns).Inv :=
  fun i h => (columns i).dataLength_initialData h

/-- So does every row. -/
theorem Inv.next (h : r.Inv) (f : OdbcFetch columns) : (r.next f).2.Inv := by
  intro i hi
  cases f with
  | noData => exact h i hi
  | failed err => exact h i hi
  | row cells =>
    change dataLength _ ((r.boundCols i).cleared.fetch (cells i)).data = _
    cases hcell : cells i with
    | none => exact h i hi
    | some v =>
      refine (dataLength_storeCell v.1 ?_).trans (h i hi)
      rw [show (r.boundCols i).cleared.data = (r.boundCols i).data from rfl, h i hi]
      exact (columns i).bufferLength_pos hi

theorem cached_next (r : OdbcDataReader columns) (f : OdbcFetch columns) (i : Fin n) :
    ((r.next f).2.boundCols i).Cached fixedText := by
  cases f with
  | row cells => exact (r.boundCols i).cached_fetch_cleared (cells i)
  | noData => exact ⟨Or.inl rfl, Or.inl rfl⟩
  | failed err => exact ⟨Or.inl rfl, Or.inl rfl⟩

/-- The getters do not touch the buffers. -/
theorem Inv.afterGetters (h : r.Inv) (f : OdbcFetch columns) (gs : Fin n → List OdbcGetter) :
    ((r.next f).2.afterGetters fixedText gs).Inv := by
  intro i hi
  obtain ⟨-, hdata, -⟩ := (cached_next r f i).afterGetters (columns i).isDecimal (gs i)
  change dataLength _ (((r.next f).2.boundCols i).afterGetters fixedText _ (gs i)).data = _
  rw [hdata]
  exact h.next f i hi

/-- The rows that are read whole, from a reader whose buffers have their lengths. -/
theorem Inv.reads_iff (fs : List (OdbcFetch columns)) :
    ∀ {r : OdbcDataReader columns}, r.Inv → (r.ReadsWhole fixedText fs ↔
      ∀ f ∈ fs, ∀ cells, f = .row cells →
        ∀ i, CellFits (columns i).bufferLength (columns i).cType (cells i)) := by
  induction fs with
  | nil => intro r _; exact iff_of_true trivial nofun
  | cons f fs ih =>
    intro r h
    have hrow : ∀ cells, f = .row cells → ∀ i,
        (((r.next f).2.boundCols i).ShowsWhole fixedText (columns i).isDecimal (cells i) ↔
          CellFits (columns i).bufferLength (columns i).cType (cells i)) := by
      rintro cells rfl i
      by_cases hi : (columns i).cType = .fixed
      · refine ((r.boundCols i).showsWhole_fetch_iff (absurd hi) (cells i)).trans ?_
        exact iff_of_true (cellFits_fixed hi _ _) (cellFits_fixed hi _ _)
      · rw [← h i hi]
        refine (r.boundCols i).showsWhole_fetch_iff (fun _ => ?_) (cells i)
        rw [h i hi]
        exact (columns i).bufferLength_pos hi
    rw [ReadsWhole, List.forall_mem_cons]
    constructor
    · rintro ⟨hshows, hrest⟩
      exact ⟨fun cells hf i => (hrow cells hf i).mp (hshows cells hf i),
        (ih (h.afterGetters f fun _ => [])).mp (hrest fun _ => [])⟩
    · rintro ⟨hfits, hrest⟩
      exact ⟨fun cells hf i => (hrow cells hf i).mpr (hfits cells hf i),
        fun gs => (ih (h.afterGetters f gs)).mpr hrest⟩

/-- The reader returns whole values just when every value fits the buffer of its column. -/
theorem readsWhole_iff (columns : Fin n → OdbcColumn) (fixedText : BoundValue → List Char)
    (fs : List (OdbcFetch columns)) :
    (initial columns).ReadsWhole fixedText fs ↔
      ∀ f ∈ fs, ∀ cells, f = .row cells →
        ∀ i, CellFits (columns i).bufferLength (columns i).cType (cells i) :=
  (inv_initial columns).reads_iff fs

/-- A result with one text column, of which the size is not known. -/
def unsizedText : Fin 1 → OdbcColumn :=
  fun _ => ⟨.longvarchar, 0⟩

/-- A text of 5000 bytes is read as its first 4095. -/
theorem unsizedText_cut : ¬ (initial unsizedText).ReadsWhole (fun _ => [])
    [.row fun _ => some ((List.replicate 5000 'a' : List Char), true)] := by
  intro h
  have hfits := ((inv_initial unsizedText).reads_iff _).mp h _ List.mem_cons_self _ rfl 0
  have hle : (List.replicate 5000 'a').length ≤ 4096 - 1 := hfits.1
  rw [List.length_replicate] at hle
  omega

end OdbcDataReader

end CppLinq
