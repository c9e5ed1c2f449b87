import CppLinq.NumericInvariant
import CppLinq.OdbcBatchSlots

/-!
# Bindings one by one

`apply_bindings` of `odbc_connection.cpp` binds a parameter with a buffer of its own and chooses
the C type by the value alone, whereas a batch chooses one for a column. A batch of ODBC sends
what the bindings of its rows would send when every column holds values of one class and no time
has a fraction of a second.
-/

namespace CppLinq

/-! ## Parameters -/

/-- `ParamStorage`. -/
structure ParamStorage where
  cType : BatchCType
  sqlType : BatchSqlType
  colSize : ℕ
  decDigits : ℤ
  buffer : CellCopy

/-- A parameter that is sent as a text. -/
def ParamStorage.text (sqlType : BatchSqlType) (colSize : ℕ) (decDigits : ℤ) (cs : List Char) :
    ParamStorage :=
  ⟨.char, sqlType, colSize, decDigits, .text cs⟩

/-- `apply_bindings` for a value. -/
def applyBinding (isOracle : Bool) : BoundValue → ParamStorage
  | .null => ⟨.char, .varchar, 1, 0, ⟨.strData, [], sqlNullData⟩⟩
  | .int64 v =>
    if isOracle then .text .numeric 19 0 (signedDecimal v.toInt)
    else ⟨.sbigint, .bigint, 19, 0, ⟨.intData, [v], 8⟩⟩
  | .uint64 v => .text .numeric 20 0 (decimal v.toNat)
  | .double v => ⟨.double, .double, 53, 0, ⟨.dblData, [v], 8⟩⟩
  | .string v => .text .varchar (if v.toList.isEmpty then 1 else v.toList.length) 0 v.toList
  | .wstring v =>
    let sqlwchars := wstringToSqlwchar v
    ⟨.wchar, .wvarchar, if sqlwchars.length > 1 then sqlwchars.length - 1 else 1, 0,
      ⟨.wstrData, sqlwchars, ((sqlwchars.length - 1) * 2 : ℕ)⟩⟩
  | .bool v => ⟨.bit, .bit, 1, 0, ⟨.bitData, [bitOf v], 1⟩⟩
  | .blob v =>
    ⟨.binary, .varbinary, if v.isEmpty then 1 else v.length, 0,
      ⟨.blobData, if v.isEmpty then [0] else v, v.length⟩⟩
  | .numeric v => .text .numeric v.columnSize v.decimalDigits v.text
  | .date v => ⟨.date, .date, 10, 0, ⟨.dateData, [v.struct], 6⟩⟩
  | .time v => .text .varchar 20 0 v.text
  | .timestamp v => ⟨.timestamp, .timestamp, 27, 6, ⟨.tsData, [v.struct], 16⟩⟩
  | .interval v => .text .varchar (if v.text.length > 0 then v.text.length else 1) 0 v.text
  | .guid v => .text .varchar 36 0 v.text

/-- A parameter as arrays of one row. -/
def ParamStorage.arrays (p : ParamStorage) : ColArrays where
  data := Function.update (fun _ => []) p.buffer.kind p.buffer.elems
  indicators := [p.buffer.indicator]
  cType := p.cType
  sqlType := p.sqlType
  decDigits := p.decDigits.toNat
  colSize := p.colSize
  bufStride := p.buffer.elems.length

/-- What the driver gets for a parameter. -/
def paramData (isOracle : Bool) : BoundValue → SqlData
  | .int64 v => if isOracle then .text (signedDecimal v.toInt) else .int64 v
  | .uint64 v => .text (decimal v.toNat)
  | .time v => .text v.text
  | v => cellData .char v

theorem offset_zero (ca : ColArrays) (kind : ArrayKind) : ca.offset 0 kind = 0 := by
  cases kind <;> simp [ColArrays.offset, sizeT]

theorem holdsCopy_arrays (p : ParamStorage) : p.arrays.HoldsCopy 0 p.buffer := by
  refine ⟨rfl, ?_⟩
  rw [offset_zero]
  simp only [ParamStorage.arrays, Function.update_self, slice, List.drop_zero, List.take_length]

/-- The driver reads a parameter. -/
theorem read_applyBinding (isOracle : Bool) (v : BoundValue) :
    (applyBinding isOracle v).arrays.read 0 = some (paramData isOracle v) := by
  have hholds := holdsCopy_arrays (applyBinding isOracle v)
  cases v with
  | int64 v =>
    cases isOracle with
    | false => rfl
    | true => exact ColArrays.read_of_text rfl hholds
  | uint64 v | string v | numeric v | time v | interval v | guid v =>
    exact ColArrays.read_of_text rfl hholds
  | wstring v => exact ColArrays.read_of_wide rfl hholds
  | blob v =>
    cases v with
    | nil => rfl
    | cons b bs => exact ColArrays.read_of_bytes rfl hholds
  | _ => rfl

/-! ## The value of a cell -/

/-- The value that the data describes : a number is its decimal numeral, a time its text. -/
def SqlData.sqlValue : SqlData → SqlData
  | .int64 v => .text (signedDecimal v.toInt)
  | .uint64 v => .text (decimal v.toNat)
  | .time v => .text (clockText v.hour.toNat v.minute.toNat v.second.toNat)
  | d => d

/-- A row of a batch describes the value that its binding describes. -/
def AgreesAt (isOracle : Bool) (ca : ColArrays) (row : ℕ) (v : BoundValue) : Prop :=
  ∃ d d', ca.read row = some d ∧ (applyBinding isOracle v).arrays.read 0 = some d' ∧
    d.sqlValue = d'.sqlValue

/-- A column is bound within its arrays, and its rows agree with their bindings. -/
def ColumnAgrees (isOracle : Bool) (rows : List BoundValue) : Prop :=
  ∃ ca, bindColumn rows = some ca ∧ ∀ r v, rows[r]? = some v → AgreesAt isOracle ca r v

/-- No time has a fraction of a second. -/
def WholeSeconds (rows : List BoundValue) : Prop :=
  ∀ v, .time v ∈ rows → v.fraction = 0

theorem SqlTime.sqlValue_struct (v : SqlTime) :
    (SqlData.time v.struct).sqlValue =
      .text (clockText v.hour.toNat v.minute.toNat v.second.toNat) := by
  simp only [SqlData.sqlValue, struct, UInt8.toNat_toUInt16]

/-- The binding of a time sends its fraction, which a batch does not. -/
theorem SqlTime.sqlValue_eq_iff (v : SqlTime) :
    (SqlData.time v.struct).sqlValue = (SqlData.text v.text).sqlValue ↔ v.fraction = 0 := by
  rw [sqlValue_struct]
  simp only [SqlData.sqlValue, SqlData.text.injEq, text, List.self_eq_append_right, fractionText]
  refine ⟨fun h => ?_, fun h => by rw [h]; rfl⟩
  by_contra hne
  have hpos : v.fraction > 0 := by
    rw [gt_iff_lt, UInt32.lt_iff_toNat_lt]
    exact Nat.pos_of_ne_zero fun h0 => hne (UInt32.toNat_inj.mp h0)
  rw [if_pos hpos] at h
  cases h

/-- Other values are described alike, whichever C type the column has. -/
theorem sqlValue_cellData (isOracle : Bool) (cType : BatchCType) {v : BoundValue}
    (hv : ∀ t, v = .time t → t.fraction = 0) :
    (cellData cType v).sqlValue = (paramData isOracle v).sqlValue := by
  cases v with
  | int64 v => cases isOracle <;> rfl
  | uint64 v =>
    simp only [cellData, paramData]
    split_ifs <;> rfl
  | time v => exact v.sqlValue_eq_iff.mpr (hv v rfl)
  | _ => rfl

/-- A column of one class agrees. -/
theorem columnAgrees_of_class {isOracle : Bool} {cls : BatchCType} {rows : List BoundValue}
    (hclass : OfClass cls rows) (hwhole : WholeSeconds rows) (hroom : UintRoom rows)
    (hsizes : TypeChoice.Sizes rows) : ColumnAgrees isOracle rows := by
  obtain ⟨ca, hca, -, hread⟩ := bindColumn_of_class hclass hroom hsizes
  refine ⟨ca, hca, fun r v hv => ⟨_, _, (hread r v hv).2, read_applyBinding isOracle v, ?_⟩⟩
  refine sqlValue_cellData isOracle _ fun t ht => hwhole t ?_
  rw [← ht]
  exact List.mem_of_getElem? hv

/-! ## The class of a column that agrees -/

/-- Whether data is a text, a number or a time, which texts can describe. -/
def SqlData.kind : SqlData → BatchCType
  | .null => .default
  | .int64 _ | .uint64 _ | .text _ | .time _ => .char
  | .double _ => .double
  | .bit _ => .bit
  | .wide _ => .wchar
  | .bytes _ => .binary
  | .date _ => .date
  | .timestamp _ => .timestamp

theorem SqlData.kind_sqlValue (d : SqlData) : d.sqlValue.kind = d.kind := by
  cases d <;> rfl

/-- A C type, up to those whose values texts can describe. -/
def BatchCType.asText : BatchCType → BatchCType
  | .default | .sbigint | .ubigint | .time => .char
  | c => c

/-- A C type, up to those of the class of texts. -/
def BatchCType.toClass : BatchCType → BatchCType
  | .default | .ubigint => .char
  | c => c

theorem kind_of_read {ca : ColArrays} {row : ℕ} {d : SqlData} (h : ca.read row = some d) :
    d = .null ∨ d.kind = ca.cType.asText := by
  rw [ColArrays.read] at h
  split_ifs at h
  · exact .inl (Option.some.inj h).symm
  · refine .inr ?_
    cases hc : ca.cType <;> rw [hc] at h <;>
      simp only [Option.map_eq_some_iff, Option.some.injEq] at h
    case char | default | wchar | binary => rw [← h]; rfl
    all_goals
      obtain ⟨x, -, rfl⟩ := h
      rfl

theorem kind_paramData (isOracle : Bool) {v : BoundValue} (hv : v ≠ .null) :
    (paramData isOracle v).kind = v.bindClass.asText := by
  cases v with
  | null => exact absurd rfl hv
  | int64 v => cases isOracle <;> rfl
  | _ => rfl

/-- A row that agrees has the C type of its column, up to those that texts can describe. -/
theorem asText_of_agreesAt {isOracle : Bool} {ca : ColArrays} {row : ℕ} {v : BoundValue}
    (hv : v ≠ .null) (h : AgreesAt isOracle ca row v) :
    ca.cType.asText = v.bindClass.asText := by
  obtain ⟨d, d', hd, hd', heq⟩ := h
  rw [read_applyBinding, Option.some.injEq] at hd'
  subst hd'
  have hkind := congrArg SqlData.kind heq
  rw [SqlData.kind_sqlValue, SqlData.kind_sqlValue, kind_paramData isOracle hv] at hkind
  obtain rfl | hclass := kind_of_read hd
  · cases v <;> first | exact absurd rfl hv | cases hkind
  · rw [← hclass, hkind]

theorem BatchCType.toClass_eq_of_kind {c c' : BatchCType} (h : c'.kind = c.kind) :
    c.toClass = c'.toClass := by
  cases c <;> cases c' <;> first | rfl | cases h

/-- Only the vector of its C type has elements. -/
theorem kind_of_length_data {rows : List BoundValue} {kind : ArrayKind}
    (h : 0 < ((makeColumn rows).data kind).length) : kind = (makeColumn rows).cType.kind := by
  by_contra hne
  have hempty : (makeColumn rows).data kind = [] := if_neg hne
  rw [hempty] at h
  exact Nat.lt_irrefl 0 h

/-- A number, text or time that was copied to a vector of its column has its class. -/
theorem toClass_of_bound {rows : List BoundValue} {v : BoundValue} (hv : v ≠ .null)
    (htext : v.bindClass.asText = .char)
    (hbound : ∀ copy, cellCopy (makeColumn rows).cType (makeColumn rows).bufStride v = some copy →
      copy.elems.length ≤ ((makeColumn rows).data copy.kind).length) :
    (makeColumn rows).cType.toClass = v.bindClass := by
  have htexts (cs : List Char) (hle : (CellCopy.text cs).elems.length ≤
      ((makeColumn rows).data .strData).length) : (makeColumn rows).cType.toClass = .char := by
    have hpos : 0 < (CellCopy.text cs).elems.length := by
      simp [CellCopy.text]
    exact @BatchCType.toClass_eq_of_kind _ .char (kind_of_length_data (hpos.trans_le hle))
  cases v with
  | null => exact absurd rfl hv
  | int64 v =>
    exact @BatchCType.toClass_eq_of_kind _ .sbigint (kind_of_length_data (hbound _ rfl))
  | time v => exact @BatchCType.toClass_eq_of_kind _ .time (kind_of_length_data (hbound _ rfl))
  | uint64 n =>
    by_cases hc : (makeColumn rows).cType = .char
    · rw [hc]
      rfl
    · have hle := hbound ⟨.uintData, [n], 8⟩ (by rw [cellCopy, if_neg hc])
      exact @BatchCType.toClass_eq_of_kind _ .ubigint (kind_of_length_data hle)
  | string _ | numeric _ | interval _ | guid _ => exact htexts _ (hbound _ rfl)
  | _ => cases htext

theorem BatchCType.toClass_of_asText {c c' : BatchCType} (h : c.asText = c'.asText)
    (hc' : c'.asText ≠ .char) : c.toClass = c' := by
  cases c <;> cases c' <;> first | rfl | exact absurd rfl hc' | cases h

/-- A column that agrees holds values of one class. -/
theorem ColumnAgrees.exists_class {isOracle : Bool} {rows : List BoundValue}
    (h : ColumnAgrees isOracle rows) : ∃ cls, OfClass cls rows := by
  obtain ⟨ca, hca, hagrees⟩ := h
  obtain ⟨hshape, hbound⟩ := ColArrays.fillRows_bound hca
  refine ⟨(makeColumn rows).cType.toClass, fun v hmem hv => ?_⟩
  obtain ⟨r, hr⟩ := List.mem_iff_getElem?.mp hmem
  by_cases htext : v.bindClass.asText = .char
  · refine (toClass_of_bound hv htext fun copy hcopy => ?_).symm
    exact (Nat.le_add_left _ _).trans (hbound r v hr copy hcopy)
  · have hasText := asText_of_agreesAt hv (hagrees r v hr)
    rw [hshape.cType] at hasText
    exact (BatchCType.toClass_of_asText hasText htext).symm

/-- Slots of one element each have no sizes to lose. -/
theorem TypeChoice.sizes_of_time {rows : List BoundValue} (hclass : OfClass .time rows)
    {v : BoundValue} (hmem : v ∈ rows) (hv : v ≠ .null) (hcount : rows.length < 2 ^ 64) :
    Sizes rows := by
  have hc : (ofRows rows).cType = .time :=
    cType_ofRows (@cType_foldl .time (by decide) {} rows hclass (.inr ⟨v, hmem, hv⟩)) (by decide)
  refine ⟨?_, fun hwide => ?_⟩
  · rw [hc]
    exact (Nat.mul_one rows.length).symm ▸ hcount
  · rw [hc] at hwide
    cases hwide

/-- A column that agrees has no time with a fraction of a second. -/
theorem ColumnAgrees.wholeSeconds {isOracle : Bool} {rows : List BoundValue}
    (h : ColumnAgrees isOracle rows) (hcount : rows.length < 2 ^ 64) : WholeSeconds rows := by
  intro v hmem
  have hne : BoundValue.time v ≠ .null := fun h => nomatch h
  obtain ⟨cls, hclass⟩ := h.exists_class
  obtain rfl : BatchCType.time = cls := hclass _ hmem hne
  have hroom : UintRoom rows := fun n hn => nomatch hclass _ hn (fun h => nomatch h)
  obtain ⟨ca, hca, -, hread⟩ :=
    bindColumn_of_class hclass hroom (TypeChoice.sizes_of_time hclass hmem hne hcount)
  obtain ⟨ca', hca', hagrees⟩ := h
  obtain rfl : ca = ca' := Option.some.inj (hca.symm.trans hca')
  obtain ⟨r, hr⟩ := List.mem_iff_getElem?.mp hmem
  obtain ⟨d, d', hd, hd', heq⟩ := hagrees r _ hr
  rw [(hread r _ hr).2, Option.some.injEq] at hd
  rw [read_applyBinding, Option.some.injEq] at hd'
  rw [← hd, ← hd'] at heq
  exact v.sqlValue_eq_iff.mp heq

/-! ## Matrices -/

/-- Every column of a matrix is bound within its arrays, and every cell agrees with its binding. -/
def MatrixAgrees (isOracle : Bool) (flatParams : List BoundValue) (colCount rowCount : ℕ) : Prop :=
  ∀ c < colCount, ∃ ca, bindMatrixColumn flatParams colCount rowCount c = some ca ∧
    ∀ r < rowCount, ∃ v, flatParams[r * colCount + c]? = some v ∧ AgreesAt isOracle ca r v

/-- The rows of a column can be bound together : its values are of one class, and no time has a
fraction of a second. -/
def BindTogether (rows : List BoundValue) : Prop :=
  (∃ cls, OfClass cls rows) ∧ WholeSeconds rows

theorem matrixAgrees_iff_columns {isOracle : Bool} {flatParams : List BoundValue}
    {colCount rowCount : ℕ} (hlength : rowCount * colCount ≤ flatParams.length) :
    MatrixAgrees isOracle flatParams colCount rowCount ↔
      ∀ c < colCount, ∀ rows, columnOf flatParams colCount rowCount c = some rows →
        rows.length = rowCount ∧ ColumnAgrees isOracle rows := by
  refine forall₂_congr fun c hc => ?_
  obtain ⟨rows, hrows, hcount, hcells⟩ := exists_columnOf hlength hc
  simp only [bindMatrixColumn, hrows, Option.bind_some, Option.some.injEq, forall_eq', hcount,
    true_and]
  refine exists_congr fun ca => and_congr_right fun _ => ⟨fun h r v hv => ?_, fun h r hr => ?_⟩
  · have hr : r < rowCount := hcount ▸ (List.getElem?_eq_some_iff.mp hv).1
    obtain ⟨w, hw, hagrees⟩ := h r hr
    rw [← hcells r hr, hv, Option.some.injEq] at hw
    exact hw ▸ hagrees
  · obtain ⟨v, hv⟩ : ∃ v, rows[r]? = some v := ⟨_, List.getElem?_eq_getElem (hcount.symm ▸ hr)⟩
    exact ⟨v, hcells r hr ▸ hv, h r v hv⟩

/-- A batch agrees with the bindings of its cells only if the rows of its columns can be bound
together, and does when also its numbers have room among texts and its slots fit in memory. -/
theorem matrixAgrees_conditions {isOracle : Bool} {flatParams : List BoundValue}
    {colCount rowCount : ℕ} (hlength : rowCount * colCount ≤ flatParams.length)
    (hcount : rowCount < 2 ^ 64) :
    (MatrixAgrees isOracle flatParams colCount rowCount →
      ∀ c < colCount, ∀ rows, columnOf flatParams colCount rowCount c = some rows →
        BindTogether rows) ∧
    ((∀ c < colCount, ∀ rows, columnOf flatParams colCount rowCount c = some rows →
        BindTogether rows ∧ UintRoom rows ∧ FitsMemory rows) →
      MatrixAgrees isOracle flatParams colCount rowCount) := by
  rw [matrixAgrees_iff_columns hlength]
  constructor
  · intro h c hc rows hrows
    obtain ⟨hrowCount, hagrees⟩ := h c hc rows hrows
    exact ⟨hagrees.exists_class, hagrees.wholeSeconds (hrowCount ▸ hcount)⟩
  · intro h c hc rows hrows
    obtain ⟨⟨⟨cls, hclass⟩, hwhole⟩, hroom, hmemory⟩ := h c hc rows hrows
    obtain ⟨rows', hrows', hrowCount, -⟩ := exists_columnOf hlength hc
    obtain rfl : rows = rows' := Option.some.inj (hrows.symm.trans hrows')
    exact ⟨hrowCount, columnAgrees_of_class hclass hwhole hroom
      (TypeChoice.sizes_of_fitsMemory hmemory)⟩

/-- Columns with a NULL and with a number after a text agree. -/
theorem matrixAgrees_mixed :
    MatrixAgrees false [.int64 1, .string "abc", .null, .uint64 12345] 2 2 := by
  refine (@matrixAgrees_conditions false [.int64 1, .string "abc", .null, .uint64 12345] 2 2
    le_rfl (by decide)).2 fun c hc rows hrows => ?_
  match c, hc with
  | 0, _ =>
    cases hrows
    exact ⟨⟨⟨.sbigint, by decide⟩, by simp [WholeSeconds]⟩, by simp [UintRoom], by decide,
      by decide⟩
  | 1, _ =>
    cases hrows
    refine ⟨⟨⟨.char, by decide⟩, by simp [WholeSeconds]⟩, fun n _ => ?_, by decide, by decide⟩
    exact .inr (.inr (.inl ⟨[.string "abc"], 12345, [], rfl, _, List.mem_singleton_self _, rfl⟩))

/-- A fraction of a second is not sent, a number is written to an empty vector, and a number is
written past its slot. -/
theorem matrix_disagrees :
    ¬ MatrixAgrees false [.time ⟨1, 2, 3, 500000000⟩] 1 1 ∧
    ¬ MatrixAgrees false [.int64 1, .double ⟨0⟩] 1 2 ∧
    ¬ MatrixAgrees false [.uint64 12345, .string "a"] 1 2 := by
  refine ⟨fun h => ?_, fun h => ?_, fun h => ?_⟩
  · have hcolumns := (matrixAgrees_iff_columns le_rfl).mp h 0 (by decide) _ rfl
    have hwhole := hcolumns.2.wholeSeconds (by decide) _ (List.mem_singleton_self _)
    exact absurd hwhole (by decide)
  · obtain ⟨ca, hca, -⟩ := h 0 (by decide)
    have hnone : bindMatrixColumn [.int64 1, .double ⟨0⟩] 1 2 0 = none := rfl
    rw [hnone] at hca
    cases hca
  · obtain ⟨ca, hca, -⟩ := h 0 (by decide)
    have hnone : bindMatrixColumn [.uint64 12345, .string "a"] 1 2 0 = none := rfl
    rw [hnone] at hca
    cases hca

end CppLinq
