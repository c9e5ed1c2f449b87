import CppLinq.OdbcBatch
import CppLinq.ValueParsing

/-!
# Slots of a batch

Pass 2 of `execute_insert_many_batch` fills the arrays of pass 1. When a column holds values of
one class, every cell is within its slot, no cell overwrites another, and the driver reads every
value. What it cannot read is what `to_string` leaves out.
-/

namespace CppLinq

/-! ## Cells -/

namespace ColArrays

/-- A row has an indicator, and elements at the start of its slot. -/
def HoldsCopy (ca : ColArrays) (row : ℕ) (copy : CellCopy) : Prop :=
  ca.indicators[row]? = some copy.indicator ∧
    slice (ca.data copy.kind) (ca.offset row copy.kind) copy.elems.length = copy.elems

/-- A row has its copy. -/
def Holds (ca : ColArrays) (row : ℕ) (v : BoundValue) : Prop :=
  match cellCopy ca.cType ca.bufStride v with
  | none => ca.indicators[row]? = some sqlNullData
  | some copy => ca.HoldsCopy row copy

/-- Arrays of a column with the same types and sizes. -/
structure SameShape (ca ca' : ColArrays) : Prop where
  cType : ca'.cType = ca.cType
  bufStride : ca'.bufStride = ca.bufStride
  lengths : ∀ kind, (ca'.data kind).length = (ca.data kind).length
  indicators : ca'.indicators.length = ca.indicators.length

theorem SameShape.refl (ca : ColArrays) : SameShape ca ca :=
  ⟨rfl, rfl, fun _ => rfl, rfl⟩

theorem SameShape.trans {ca ca' ca'' : ColArrays} (h : SameShape ca ca')
    (h' : SameShape ca' ca'') : SameShape ca ca'' :=
  ⟨h'.cType.trans h.cType, h'.bufStride.trans h.bufStride,
    fun kind => (h'.lengths kind).trans (h.lengths kind), h'.indicators.trans h.indicators⟩

theorem SameShape.offset {ca ca' : ColArrays} (h : SameShape ca ca') (row : ℕ)
    (kind : ArrayKind) : ca'.offset row kind = ca.offset row kind := by
  cases kind <;> simp only [ColArrays.offset, h.bufStride]

/-- What filling a cell does. -/
theorem fillCell_cases {ca ca' : ColArrays} {row : ℕ} {v : BoundValue}
    (h : ca.fillCell row v = some ca') :
    (cellCopy ca.cType ca.bufStride v = none ∧
      ca' = { ca with indicators := ca.indicators.set row sqlNullData }) ∨
    ∃ copy, cellCopy ca.cType ca.bufStride v = some copy ∧
      ca.offset row copy.kind + copy.elems.length ≤ (ca.data copy.kind).length ∧
      ca' = { ca with
        data := Function.update ca.data copy.kind
          (copyAt (ca.data copy.kind) (ca.offset row copy.kind) copy.elems)
        indicators := ca.indicators.set row copy.indicator } := by
  rw [fillCell] at h
  split at h
  · rename_i hcopy
    exact .inl ⟨hcopy, (Option.some.inj h).symm⟩
  · rename_i copy hcopy
    simp only at h
    split_ifs at h with hbound
    exact .inr ⟨copy, hcopy, hbound, (Option.some.inj h).symm⟩

/-- A cell that is filled leaves the shape of the arrays. -/
theorem fillCell_sameShape {ca ca' : ColArrays} {row : ℕ} {v : BoundValue}
    (h : ca.fillCell row v = some ca') : SameShape ca ca' := by
  obtain ⟨-, rfl⟩ | ⟨copy, -, hbound, rfl⟩ := fillCell_cases h
  · exact ⟨rfl, rfl, fun _ => rfl, List.length_set ..⟩
  · refine ⟨rfl, rfl, fun kind => ?_, List.length_set ..⟩
    by_cases hkind : kind = copy.kind
    · subst hkind
      simp only [Function.update_self]
      exact length_copyAt hbound
    · simp only [Function.update_of_ne hkind]

/-- A filled cell holds its value. -/
theorem fillCell_holds {ca ca' : ColArrays} {row : ℕ} {v : BoundValue}
    (h : ca.fillCell row v = some ca') (hrow : row < ca.indicators.length) :
    ca'.Holds row v := by
  obtain ⟨hcopy, rfl⟩ | ⟨copy, hcopy, hbound, rfl⟩ := fillCell_cases h
  · rw [Holds]
    simp only [hcopy]
    exact List.getElem?_set_self hrow
  · rw [Holds]
    simp only [hcopy, HoldsCopy, Function.update_self]
    exact ⟨List.getElem?_set_self hrow, slice_copyAt hbound⟩

/-- The slots of two rows have nothing in common. -/
def Apart (ca : ColArrays) (row row' : ℕ) (v w : BoundValue) : Prop :=
  ∀ copy copy', cellCopy ca.cType ca.bufStride v = some copy →
    cellCopy ca.cType ca.bufStride w = some copy' → copy.kind = copy'.kind →
    ca.offset row' copy'.kind + copy'.elems.length ≤ ca.offset row copy.kind ∨
      ca.offset row copy.kind + copy.elems.length ≤ ca.offset row' copy'.kind

/-- Filling a cell keeps the others. -/
theorem fillCell_frame {ca ca' : ColArrays} {row row' : ℕ} {v w : BoundValue}
    (h : ca.fillCell row v = some ca') (hne : row ≠ row') (hapart : ca.Apart row row' v w)
    (hw : ca.Holds row' w) : ca'.Holds row' w := by
  obtain ⟨-, rfl⟩ | ⟨copy, hcopy, hbound, rfl⟩ := fillCell_cases h
  · rw [Holds] at hw ⊢
    simp only [HoldsCopy, List.getElem?_set_ne hne] at hw ⊢
    exact hw
  · rw [Holds] at hw ⊢
    simp only [HoldsCopy, List.getElem?_set_ne hne] at hw ⊢
    cases hcopy' : cellCopy ca.cType ca.bufStride w with
    | none =>
      simp only [hcopy'] at hw
      exact hw
    | some copy' =>
      simp only [hcopy'] at hw
      refine ⟨hw.1, ?_⟩
      have hdisjoint := hapart copy copy' hcopy hcopy'
      obtain ⟨kind, elems, indicator⟩ := copy
      obtain ⟨kind', elems', indicator'⟩ := copy'
      by_cases hkind : kind' = kind
      · subst hkind
        simp only [Function.update_self]
        exact (slice_copyAt_of_disjoint hbound (hdisjoint rfl)).trans hw.2
      · simp only [Function.update_of_ne hkind]
        exact hw.2

/-- A cell within bounds is filled. -/
theorem exists_fillCell {ca : ColArrays} {row : ℕ} {v : BoundValue}
    (h : ∀ copy, cellCopy ca.cType ca.bufStride v = some copy →
      ca.offset row copy.kind + copy.elems.length ≤ (ca.data copy.kind).length) :
    ∃ ca', ca.fillCell row v = some ca' := by
  rw [fillCell]
  cases hcopy : cellCopy ca.cType ca.bufStride v with
  | none => exact ⟨_, rfl⟩
  | some copy => exact ⟨_, if_pos (h copy hcopy)⟩

/-- Cells that lie apart stay apart. -/
theorem SameShape.apart {ca ca' : ColArrays} (h : SameShape ca ca') {row row' : ℕ}
    {v w : BoundValue} (hapart : ca.Apart row row' v w) : ca'.Apart row row' v w := by
  intro copy copy' hcopy hcopy' hkind
  rw [h.cType, h.bufStride] at hcopy hcopy'
  rw [h.offset, h.offset]
  exact hapart copy copy' hcopy hcopy' hkind

/-- Rows from a row on, each within bounds and apart from the others, are filled, and those
before them are kept. -/
theorem exists_fillRows {ca : ColArrays} {start : ℕ} {rows all : List BoundValue}
    (hall : ∀ i, (rows[i]? : Option BoundValue) = all[start + i]?)
    (hlength : all.length = start + rows.length) (hind : all.length ≤ ca.indicators.length)
    (hbound : ∀ r v, all[r]? = some v → ∀ copy, cellCopy ca.cType ca.bufStride v = some copy →
      ca.offset r copy.kind + copy.elems.length ≤ (ca.data copy.kind).length)
    (hapart : ∀ r r' v w, r ≠ r' → all[r]? = some v → all[r']? = some w → ca.Apart r r' v w)
    (hbefore : ∀ r v, r < start → all[r]? = some v → ca.Holds r v) :
    ∃ ca', ca.fillRows start rows = some ca' ∧ SameShape ca ca' ∧
      ∀ r v, all[r]? = some v → ca'.Holds r v := by
  induction rows generalizing ca start with
  | nil =>
    refine ⟨ca, rfl, .refl ca, fun r v hr => hbefore r v ?_ hr⟩
    obtain ⟨hlt, -⟩ := List.getElem?_eq_some_iff.mp hr
    simpa only [hlength, List.length_nil, Nat.add_zero] using hlt
  | cons v rows ih =>
    rw [List.length_cons] at hlength
    have hv : all[start]? = some v := (hall 0).symm
    obtain ⟨next, hnext⟩ := exists_fillCell (hbound start v hv)
    have hshape := fillCell_sameShape hnext
    have hkept (r : ℕ) (w : BoundValue) (hr : r < start + 1) (hw : all[r]? = some w) :
        next.Holds r w := by
      rcases Nat.lt_succ_iff_lt_or_eq.mp hr with hr | rfl
      · exact fillCell_frame hnext (Nat.ne_of_gt hr)
          (hapart start r v w (Nat.ne_of_gt hr) hv hw) (hbefore r w hr hw)
      · rw [hv] at hw
        cases hw
        exact fillCell_holds hnext (by omega)
    obtain ⟨ca', hca', hshape', hholds⟩ := @ih next (start + 1)
      (fun i => by rw [Nat.add_assoc, Nat.add_comm 1 i, ← hall (i + 1)]; rfl) (by omega)
      (hshape.indicators.symm ▸ hind)
      (fun r w hw copy hcopy => by
        rw [hshape.cType, hshape.bufStride] at hcopy
        rw [hshape.offset, hshape.lengths]
        exact hbound r w hw copy hcopy)
      (fun r r' w w' hne hw hw' => hshape.apart (hapart r r' w w' hne hw hw')) hkept
    exact ⟨ca', by rw [fillRows, hnext]; exact hca', hshape.trans hshape', hholds⟩

/-- Rows that were filled were within bounds. -/
theorem fillRows_bound {ca ca' : ColArrays} {start : ℕ} {rows : List BoundValue}
    (h : ca.fillRows start rows = some ca') :
    SameShape ca ca' ∧ ∀ i v, rows[i]? = some v → ∀ copy,
      cellCopy ca.cType ca.bufStride v = some copy →
      ca.offset (start + i) copy.kind + copy.elems.length ≤ (ca.data copy.kind).length := by
  induction rows generalizing ca start with
  | nil =>
    cases h
    exact ⟨.refl _, fun i v hv => nomatch hv⟩
  | cons v rows ih =>
    rw [fillRows, Option.bind_eq_some_iff] at h
    obtain ⟨next, hnext, h⟩ := h
    have hshape := fillCell_sameShape hnext
    obtain ⟨hshape', hbound⟩ := ih h
    refine ⟨hshape.trans hshape', fun i w hw copy hcopy => ?_⟩
    cases i with
    | zero =>
      cases hw
      obtain ⟨hnone, -⟩ | ⟨copy', hcopy', hle, -⟩ := fillCell_cases hnext
      · rw [hnone] at hcopy
        cases hcopy
      · rw [hcopy'] at hcopy
        cases hcopy
        exact hle
    | succ i =>
      have hle := hbound i w hw copy (by rw [hshape.cType, hshape.bufStride]; exact hcopy)
      rw [hshape.offset, hshape.lengths] at hle
      rw [show start + (i + 1) = start + 1 + i by omega]
      exact hle

end ColArrays

/-! ## Columns -/

/-- The slots of a column fit in memory, and its rows can be counted. -/
structure FitsMemory (rows : List BoundValue) : Prop where
  rowCount : rows.length < 2 ^ 64
  slots : ∀ v ∈ rows, 2 * (rows.length * v.slotNeed) < 2 ^ 64

namespace TypeChoice

/-- The sizes of a column, as numbers of type `size_t`. -/
structure Sizes (rows : List BoundValue) : Prop where
  slots : rows.length * (ofRows rows).cType.slotWidth (ofRows rows).maxLen < 2 ^ 64
  wide : (ofRows rows).cType = .wchar → rows ≠ [] → (ofRows rows).maxLen * 2 < 2 ^ 64

/-- What fits the memory fits `size_t`. -/
theorem sizes_of_fitsMemory {rows : List BoundValue} (h : FitsMemory rows) : Sizes rows := by
  by_cases hempty : rows = []
  · subst hempty
    exact ⟨by simp, fun _ h => absurd rfl h⟩
  have hpos : 0 < rows.length := List.length_pos_of_ne_nil hempty
  have hneed (v : BoundValue) (hv : v ∈ rows) : v.slotNeed ≤ (2 ^ 63 - 1) / rows.length := by
    rw [Nat.le_div_iff_mul_le hpos, Nat.mul_comm]
    have := h.slots v hv
    omega
  have hone : 1 ≤ (2 ^ 63 - 1) / rows.length := by
    obtain ⟨v, hv⟩ := List.exists_mem_of_ne_nil rows hempty
    refine le_trans ?_ (hneed v hv)
    cases v <;> simp [BoundValue.slotNeed, wstringToSqlwchar]
  have hmax : (ofRows rows).maxLen * rows.length ≤ 2 ^ 63 - 1 := by
    rw [maxLen_ofRows, ← Nat.le_div_iff_mul_le hpos]
    exact maxLen_foldl_le hone hneed
  have hle : (ofRows rows).maxLen ≤ (ofRows rows).maxLen * rows.length :=
    Nat.le_mul_of_pos_right _ hpos
  refine ⟨?_, fun _ _ => by omega⟩
  have hwidth : (ofRows rows).cType.slotWidth (ofRows rows).maxLen ≤ (ofRows rows).maxLen := by
    have := one_le_maxLen rows
    cases (ofRows rows).cType <;> simp [BatchCType.slotWidth, this]
  calc rows.length * (ofRows rows).cType.slotWidth (ofRows rows).maxLen
      ≤ rows.length * (ofRows rows).maxLen := Nat.mul_le_mul_left _ hwidth
    _ < 2 ^ 64 := by
      rw [Nat.mul_comm]
      omega

end TypeChoice

/-- A value that fits is copied to the vector of its column, within a slot. -/
theorem cellCopy_of_fitsSlot {cType : BatchCType} {maxLen bufStride : ℕ} {v : BoundValue}
    (h : FitsSlot cType maxLen v) {copy : CellCopy}
    (hcopy : cellCopy cType bufStride v = some copy) :
    copy.kind = cType.kind ∧ copy.elems.length ≤ cType.slotWidth maxLen := by
  cases v with
  | null => cases hcopy
  | uint64 n =>
    obtain rfl | ⟨rfl, hle⟩ := h
    · cases hcopy
      exact ⟨rfl, le_refl _⟩
    · cases hcopy
      exact ⟨rfl, by simpa [CellCopy.text, BatchCType.slotWidth] using hle⟩
  | wstring v =>
    obtain ⟨rfl, hle⟩ := h
    cases hcopy
    exact ⟨rfl, (List.length_take_le' _ _).trans hle⟩
  | blob v =>
    obtain ⟨rfl, hle⟩ := h
    cases hcopy
    exact ⟨rfl, hle⟩
  | string v | numeric v | interval v | guid v =>
    obtain ⟨rfl, hle⟩ := h
    cases hcopy
    exact ⟨rfl, by simpa [CellCopy.text, BatchCType.slotWidth] using hle⟩
  | _ =>
    cases hcopy
    cases h
    exact ⟨rfl, le_refl _⟩

theorem sizeT_of_lt {n : ℕ} (h : n < 2 ^ 64) : sizeT n = n :=
  Nat.mod_eq_of_lt h

/-- A slot ends before the slots of later rows. -/
theorem slot_le {row row' width length : ℕ} (hlength : length ≤ width) (hrow : row < row') :
    row * width + length ≤ row' * width :=
  calc row * width + length ≤ row * width + width := Nat.add_le_add_left hlength _
    _ = (row + 1) * width := (Nat.succ_mul row width).symm
    _ ≤ row' * width := Nat.mul_le_mul_right _ hrow

section Column

variable {rows : List BoundValue} (hsizes : TypeChoice.Sizes rows)

include hsizes

/-- Where the slots begin. -/
theorem offset_makeColumn {row : ℕ} (hrow : row < rows.length) :
    (makeColumn rows).offset row (TypeChoice.ofRows rows).cType.kind =
      row * (TypeChoice.ofRows rows).cType.slotWidth (TypeChoice.ofRows rows).maxLen := by
  have hlt : row * (TypeChoice.ofRows rows).cType.slotWidth (TypeChoice.ofRows rows).maxLen <
      2 ^ 64 := lt_of_le_of_lt (Nat.mul_le_mul_right _ hrow.le) hsizes.slots
  have hwide := fun h => hsizes.wide h (List.ne_nil_of_length_pos (Nat.zero_lt_of_lt hrow))
  simp only [makeColumn]
  cases hc : (TypeChoice.ofRows rows).cType with
  | char | default | binary =>
    rw [hc] at hlt
    exact sizeT_of_lt hlt
  | wchar =>
    rw [hc] at hlt
    simp only [BatchCType.kind, ColArrays.offset, BatchCType.stride, BatchCType.slotWidth,
      sizeT_of_lt (hwide hc), Nat.mul_div_cancel _ Nat.two_pos]
    exact sizeT_of_lt hlt
  | _ => exact (Nat.mul_one row).symm

/-- The array of a column has a slot for each row. -/
theorem length_data_makeColumn :
    ((makeColumn rows).data (TypeChoice.ofRows rows).cType.kind).length =
      rows.length * (TypeChoice.ofRows rows).cType.slotWidth (TypeChoice.ofRows rows).maxLen := by
  simp only [makeColumn, if_true, List.length_replicate]
  exact sizeT_of_lt hsizes.slots

variable (hfits : ∀ v ∈ rows,
  FitsSlot (TypeChoice.ofRows rows).cType (TypeChoice.ofRows rows).maxLen v)

include hfits

/-- What is copied for a row, and where. -/
theorem slot_makeColumn {row : ℕ} {v : BoundValue} (hv : rows[row]? = some v) {copy : CellCopy}
    (hcopy : cellCopy (makeColumn rows).cType (makeColumn rows).bufStride v = some copy) :
    row < rows.length ∧ copy.kind = (TypeChoice.ofRows rows).cType.kind ∧
      (makeColumn rows).offset row copy.kind =
        row * (TypeChoice.ofRows rows).cType.slotWidth (TypeChoice.ofRows rows).maxLen ∧
      copy.elems.length ≤
        (TypeChoice.ofRows rows).cType.slotWidth (TypeChoice.ofRows rows).maxLen := by
  obtain ⟨hrow, hget⟩ := List.getElem?_eq_some_iff.mp hv
  obtain ⟨hkind, hle⟩ := cellCopy_of_fitsSlot (hfits v (hget ▸ List.getElem_mem hrow)) hcopy
  refine ⟨hrow, hkind, ?_, hle⟩
  rw [hkind]
  exact offset_makeColumn hsizes hrow

/-- A column whose values fit is filled, and every row holds its value. -/
theorem exists_bindColumn :
    ∃ ca, bindColumn rows = some ca ∧ (makeColumn rows).SameShape ca ∧
      ∀ r v, rows[r]? = some v → ca.Holds r v := by
  refine ColArrays.exists_fillRows (fun i => by rw [Nat.zero_add]) (Nat.zero_add _).symm
    (le_of_eq (List.length_replicate ..).symm) (fun r v hv copy hcopy => ?_)
    (fun r r' v w hne hv hw copy copy' hcopy hcopy' _ => ?_)
    (fun r v hr _ => absurd hr (Nat.not_lt_zero r))
  · obtain ⟨hrow, hkind, hoffset, hle⟩ := slot_makeColumn hsizes hfits hv hcopy
    have hlength := length_data_makeColumn hsizes
    rw [← hkind] at hlength
    rw [hoffset, hlength]
    exact slot_le hle hrow
  · obtain ⟨-, -, hoffset, hle⟩ := slot_makeColumn hsizes hfits hv hcopy
    obtain ⟨-, -, hoffset', hle'⟩ := slot_makeColumn hsizes hfits hw hcopy'
    rw [hoffset, hoffset']
    rcases Nat.lt_or_gt_of_ne hne with hlt | hlt
    · exact .inr (slot_le hle hlt)
    · exact .inl (slot_le hle' hlt)

end Column

/-! ## Wide characters -/

/-- A unit of a surrogate pair has the bits of its lead before ten others. -/
theorem toNat_surrogate {lead : UInt32} {high : ℕ} (hlead : lead.toNat = high * 1024)
    (hhigh : high < 64) (bits : UInt32) :
    (lead ||| (bits &&& 0x3FF)).toUInt16.toNat = high * 1024 + bits.toNat % 1024 := by
  have hbits : (bits &&& 0x3FF).toNat = bits.toNat % 1024 := by
    rw [UInt32.toNat_and]
    exact Nat.and_two_pow_sub_one_eq_mod bits.toNat 10
  have hor : (lead ||| (bits &&& 0x3FF)).toNat = high * 1024 + bits.toNat % 1024 := by
    have hshift : high * 1024 = high <<< 10 := (Nat.shiftLeft_eq high 10).symm
    rw [UInt32.toNat_or, hbits, hlead, hshift,
      ← Nat.shiftLeft_add_eq_or_of_lt (Nat.mod_lt _ (by decide))]
  rw [UInt32.toNat_toUInt16, hor]
  exact Nat.mod_eq_of_lt (by omega)

/-- A Unicode character that is no half of a surrogate pair. -/
def IsScalar (wc : UInt32) : Prop :=
  wc < 0xD800 ∨ 0xE000 ≤ wc ∧ wc < 0x110000

/-- The units of a character above `0xFFFF` are read as the character. -/
theorem utf16Decode_pair {wc : UInt32} (hlow : ¬ wc < 0x10000) (hhigh : wc < 0x110000)
    (rest : List UInt16) :
    utf16Decode (wideUnits wc ++ rest) = wc :: utf16Decode rest := by
  have hcp : (wc - 0x10000).toNat = wc.toNat - 65536 :=
    UInt32.toNat_sub_of_le _ _ (UInt32.not_lt.mp hlow)
  have hlow' : 65536 ≤ wc.toNat := UInt32.le_iff_toNat_le.mp (UInt32.not_lt.mp hlow)
  have hhigh' : wc.toNat < 1114112 := UInt32.lt_iff_toNat_lt.mp hhigh
  have hfirst := toNat_surrogate (show (0xD800 : UInt32).toNat = 54 * 1024 from rfl) (by decide)
    ((wc - 0x10000) >>> 10)
  have hsecond := toNat_surrogate (show (0xDC00 : UInt32).toNat = 55 * 1024 from rfl) (by decide)
    (wc - 0x10000)
  have hshift : ((wc - 0x10000) >>> 10).toNat = (wc - 0x10000).toNat / 1024 := by
    rw [UInt32.toNat_shiftRight]
    exact Nat.shiftRight_eq_div_pow _ 10
  rw [hshift, hcp] at hfirst
  rw [hcp] at hsecond
  rw [wideUnits, if_neg hlow]
  simp only [List.cons_append, List.nil_append, utf16Decode]
  generalize ((0xD800 : UInt32) ||| (((wc - 0x10000) >>> 10) &&& 0x3FF)).toUInt16 = c1 at *
  generalize ((0xDC00 : UInt32) ||| ((wc - 0x10000) &&& 0x3FF)).toUInt16 = c2 at *
  have hpair : isSurrogatePair c1 c2 = true := by
    simp only [isSurrogatePair, Bool.and_eq_true, decide_eq_true_eq, UInt16.le_iff_toNat_le, hfirst,
      hsecond, UInt16.reduceToNat]
    omega
  have hten (c : UInt16) : (c.toUInt32 &&& 0x3FF).toNat = c.toNat % 1024 := by
    rw [UInt32.toNat_and, UInt16.toNat_toUInt32]
    exact Nat.and_two_pow_sub_one_eq_mod c.toNat 10
  have hleft : ((c1.toUInt32 &&& 0x3FF) <<< 10).toNat = (c1.toNat % 1024) <<< 10 := by
    rw [UInt32.toNat_shiftLeft, hten, show (10 : UInt32).toNat % 32 = 10 from rfl]
    refine Nat.mod_eq_of_lt ?_
    rw [Nat.shiftLeft_eq]
    omega
  rw [if_pos hpair]
  congr 1
  rw [← UInt32.toNat_inj, surrogatePair, UInt32.toNat_add, UInt32.toNat_or, hleft, hten,
    ← Nat.shiftLeft_add_eq_or_of_lt (Nat.mod_lt _ (by decide)), Nat.shiftLeft_eq, hfirst, hsecond,
    show (0x10000 : UInt32).toNat = 65536 from rfl]
  omega

/-- So is a character of one unit. -/
theorem utf16Decode_unit {wc : UInt32} (hlow : wc < 0x10000) (hscalar : IsScalar wc)
    (rest : List UInt16) :
    utf16Decode (wideUnits wc ++ rest) = wc :: utf16Decode rest := by
  have hlt : wc.toNat < 65536 := UInt32.lt_iff_toNat_lt.mp hlow
  have hunit : wc.toUInt16.toNat = wc.toNat := by
    rw [UInt32.toNat_toUInt16]
    exact Nat.mod_eq_of_lt hlt
  have hback : wc.toUInt16.toUInt32 = wc := by
    rw [← UInt32.toNat_inj, UInt16.toNat_toUInt32, hunit]
  have hsingle (c2 : UInt16) : ¬ isSurrogatePair wc.toUInt16 c2 = true := by
    simp only [isSurrogatePair, Bool.and_eq_true, decide_eq_true_eq, UInt16.le_iff_toNat_le, hunit,
      UInt16.reduceToNat]
    simp only [IsScalar, UInt32.lt_iff_toNat_lt, UInt32.le_iff_toNat_le,
      UInt32.reduceToNat] at hscalar
    omega
  rw [wideUnits, if_pos hlow]
  cases rest with
  | nil => simp only [List.append_nil, utf16Decode, hback]
  | cons c2 rest =>
    simp only [List.cons_append, List.nil_append, utf16Decode]
    rw [if_neg (hsingle c2), hback]

/-- Units of characters are read as the characters. -/
theorem utf16Decode_wideUnits {wstr : List UInt32} (h : ∀ wc ∈ wstr, IsScalar wc) :
    utf16Decode (wstr.flatMap wideUnits) = wstr := by
  induction wstr with
  | nil => rfl
  | cons wc wstr ih =>
    rw [List.forall_mem_cons] at h
    rw [List.flatMap_cons]
    by_cases hlow : wc < 0x10000
    · rw [utf16Decode_unit hlow h.1, ih h.2]
    · have hhigh : wc < 0x110000 := by
        obtain hlt | ⟨-, hlt⟩ := h.1
        · exact absurd (UInt32.lt_trans hlt (by decide : (0xD800 : UInt32) < 0x10000)) hlow
        · exact hlt
      rw [utf16Decode_pair hlow hhigh, ih h.2]

/-! ## Reading back -/

theorem ColArrays.getD_indicators {ca : ColArrays} {row : ℕ} {ind : ℤ}
    (h : ca.indicators[row]? = some ind) : ca.indicators.getD row 0 = ind := by
  rw [List.getD_eq_getElem?_getD, h]
  rfl

theorem ne_sqlNullData (n : ℕ) : (n : ℤ) ≠ sqlNullData := by
  rw [sqlNullData]
  omega

/-- A text, a wide text and bytes are read as they were copied. -/
theorem ColArrays.read_of_text {ca : ColArrays} {row : ℕ} {cs : List Char}
    (hc : ca.cType = .char) (h : ca.HoldsCopy row (.text cs)) :
    ca.read row = some (.text cs) := by
  rw [read, getD_indicators h.1]
  simp only [CellCopy.text, if_neg (ne_sqlNullData _), hc, Int.toNat_natCast]
  exact congrArg (some ∘ SqlData.text) (slice_of_append h.2)

theorem ColArrays.read_of_wide {ca : ColArrays} {row : ℕ} {v : List UInt32}
    (hc : ca.cType = .wchar)
    (h : ca.HoldsCopy row
      ⟨.wstrData, wstringToSqlwchar v, (((wstringToSqlwchar v).length - 1) * 2 : ℕ)⟩) :
    ca.read row = some (.wide (v.flatMap wideUnits)) := by
  have hlength : (wstringToSqlwchar v).length - 1 = (v.flatMap wideUnits).length := by
    rw [wstringToSqlwchar, List.length_append]
    exact Nat.add_sub_cancel _ _
  rw [hlength] at h
  rw [read, getD_indicators h.1]
  simp only [if_neg (ne_sqlNullData _), hc, Int.toNat_natCast, Nat.mul_div_cancel _ Nat.two_pos]
  exact congrArg (some ∘ SqlData.wide) (slice_of_append h.2)

theorem ColArrays.read_of_bytes {ca : ColArrays} {row : ℕ} {v : List UInt8}
    (hc : ca.cType = .binary) (h : ca.HoldsCopy row ⟨.blobData, v, v.length⟩) :
    ca.read row = some (.bytes v) := by
  rw [read, getD_indicators h.1]
  simp only [if_neg (ne_sqlNullData _), hc, Int.toNat_natCast]
  exact congrArg (some ∘ SqlData.bytes) h.2

/-- The driver reads the value of a row. -/
theorem ColArrays.read_of_holds {ca : ColArrays} {row maxLen : ℕ} {v : BoundValue}
    (hfits : FitsSlot ca.cType maxLen v)
    (hwide : ca.cType = .wchar → ca.bufStride / 2 = maxLen) (h : ca.Holds row v) :
    ca.read row = some (cellData ca.cType v) := by
  rw [Holds] at h
  cases v with
  | null =>
    simp only [cellCopy] at h
    rw [read, getD_indicators h]
    rfl
  | uint64 n =>
    obtain hc | ⟨hc, -⟩ := hfits
    · simp only [cellCopy, hc, reduceCtorEq, if_false] at h
      have hne : (8 : ℤ) ≠ sqlNullData := ne_sqlNullData 8
      rw [read, getD_indicators h.1]
      simp only [hc, if_neg hne]
      exact congrArg (Option.map SqlData.uint64) (getElem?_of_slice_one h.2)
    · simp only [cellCopy, hc, if_true] at h
      rw [read_of_text hc h, hc]
      rfl
  | string v | numeric v | interval v | guid v => exact read_of_text hfits.1 h
  | wstring v =>
    obtain ⟨hc, hle⟩ := hfits
    simp only [cellCopy, hwide hc, List.take_of_length_le hle] at h
    exact read_of_wide hc h
  | blob v => exact read_of_bytes hfits.1 h
  | _ =>
    have hc := hfits
    simp only [FitsSlot] at hc
    rw [read, getD_indicators h.1, if_neg (by simp [sqlNullData])]
    simp only [hc]
    exact congrArg (Option.map _) (getElem?_of_slice_one h.2)

/-- A column of a class is bound within bounds, and every row is read. -/
theorem bindColumn_of_class {cls : BatchCType} {rows : List BoundValue} (hclass : OfClass cls rows)
    (hroom : UintRoom rows) (hsizes : TypeChoice.Sizes rows) :
    ∃ ca, bindColumn rows = some ca ∧ ca.cType = (TypeChoice.ofRows rows).cType ∧
      ∀ r v, rows[r]? = some v → ca.Holds r v ∧ ca.read r = some (cellData ca.cType v) := by
  have hfits (v : BoundValue) (hv : v ∈ rows) := fitsSlot_of_class hclass hroom hv
  obtain ⟨ca, hca, hshape, hholds⟩ := exists_bindColumn hsizes hfits
  refine ⟨ca, hca, hshape.cType, fun r v hv => ⟨hholds r v hv, ?_⟩⟩
  have hmem := List.mem_of_getElem? hv
  have hcType : ca.cType = (TypeChoice.ofRows rows).cType := hshape.cType
  refine ColArrays.read_of_holds (hcType.symm ▸ hfits v hmem) (fun hc => ?_) (hholds r v hv)
  rw [hcType] at hc
  rw [hshape.bufStride]
  simp only [makeColumn, hc, BatchCType.stride,
    sizeT_of_lt (hsizes.wide hc (List.ne_nil_of_mem hmem))]
  exact Nat.mul_div_cancel _ Nat.two_pos

/-! ## What is recovered -/

/-- The alternative of a value. -/
def BoundValue.index : BoundValue → ℕ
  | .null => 0
  | .int64 _ => 1
  | .uint64 _ => 2
  | .double _ => 3
  | .string _ => 4
  | .wstring _ => 5
  | .bool _ => 6
  | .blob _ => 7
  | .numeric _ => 8
  | .date _ => 9
  | .time _ => 10
  | .timestamp _ => 11
  | .interval _ => 12
  | .guid _ => 13

/-- The values of a column that are not NULL are of one alternative. -/
def Homogeneous (rows : List BoundValue) : Prop :=
  ∀ v ∈ rows, ∀ w ∈ rows, v ≠ .null → w ≠ .null → v.index = w.index

instance (rows : List BoundValue) : Decidable (Homogeneous rows) :=
  inferInstanceAs (Decidable (∀ v ∈ rows, ∀ w ∈ rows, v ≠ .null → w ≠ .null → v.index = w.index))

theorem BoundValue.bindClass_of_index {v w : BoundValue} (h : v.index = w.index) :
    v.bindClass = w.bindClass := by
  cases v <;> cases w <;> first | rfl | cases h

/-- The values of a homogeneous column are of one class. -/
theorem Homogeneous.exists_class {rows : List BoundValue} (h : Homogeneous rows) :
    ∃ cls, OfClass cls rows := by
  by_cases hall : ∃ v ∈ rows, v ≠ .null
  · obtain ⟨v, hv, hne⟩ := hall
    exact ⟨v.bindClass, fun w hw hw' => BoundValue.bindClass_of_index (h w hw v hv hw' hne)⟩
  · exact ⟨.default, fun w hw hw' => absurd ⟨w, hw, hw'⟩ hall⟩

theorem Homogeneous.uintRoom {rows : List BoundValue} (h : Homogeneous rows) : UintRoom rows := by
  refine fun n hn => .inl fun w hw => ?_
  by_cases hnull : w = .null
  · rw [hnull]
    rfl
  · have hindex := h _ hn w hw (fun h => nomatch h) hnull
    cases w <;> first | rfl | cases hindex

/-- What is read tells a value. A decimal and an interval are told by their texts, a time up to
its fraction and a timestamp up to its offset. -/
def Recovered : BoundValue → SqlData → Prop
  | .null, d => d = .null
  | .int64 v, d => d = .int64 v
  | .uint64 v, d => d = .uint64 v ∨ ∃ cs, d = .text cs ∧ digitsValue cs = v.toNat
  | .double v, d => d = .double v
  | .string v, d => ∃ cs, d = .text cs ∧ String.ofList cs = v
  | .wstring v, d =>
    ∃ units, d = .wide units ∧ units = v.flatMap wideUnits ∧
      ((∀ wc ∈ v, IsScalar wc) → utf16Decode units = v)
  | .bool v, d => ∃ b, d = .bit b ∧ decide (b ≠ 0) = v
  | .blob v, d => d = .bytes v
  | .numeric v, d => d = .text v.text
  | .date v, d => ∃ s, d = .date s ∧ ⟨s.year, s.month.toUInt8, s.day.toUInt8⟩ = v
  | .time v, d =>
    ∃ s, d = .time s ∧ ⟨s.hour.toUInt8, s.minute.toUInt8, s.second.toUInt8, v.fraction⟩ = v
  | .timestamp v, d =>
    ∃ s, d = .timestamp s ∧
      ⟨s.year, s.month.toUInt8, s.day.toUInt8, s.hour.toUInt8, s.minute.toUInt8, s.second.toUInt8,
        s.fraction, v.tzOffsetMinutes⟩ = v
  | .interval v, d => d = .text v.text
  | .guid v, d => ∃ cs, d = .text cs ∧ SqlGuid.fromString cs = v

/-- What is sent for a C type tells the value. -/
theorem recovered_cellData (cType : BatchCType) (v : BoundValue) :
    Recovered v (cellData cType v) := by
  cases v with
  | uint64 v =>
    simp only [Recovered, cellData]
    split_ifs
    · exact .inr ⟨_, rfl, Nat.ofDigitChars_ten_toDigits⟩
    · exact .inl rfl
  | string v => exact ⟨_, rfl, String.ofList_toList⟩
  | wstring v => exact ⟨_, rfl, rfl, utf16Decode_wideUnits⟩
  | bool v => exact ⟨_, rfl, by cases v <;> rfl⟩
  | date v => exact ⟨_, rfl, by simp [SqlDate.struct]⟩
  | time v => exact ⟨_, rfl, by simp [SqlTime.struct]⟩
  | timestamp v => exact ⟨_, rfl, by simp [SqlTimestamp.struct]⟩
  | guid v => exact ⟨_, rfl, SqlGuid.fromString_text v⟩
  | _ => rfl

/-- Cells that are all read give the list of what is read. -/
theorem mapM_range_eq {α : Type} {f : ℕ → Option α} {g : ℕ → α} {l : List ℕ}
    (h : ∀ i ∈ l, f i = some (g i)) : l.mapM f = some (l.map g) := by
  induction l with
  | nil => rfl
  | cons i l ih =>
    rw [List.forall_mem_cons] at h
    rw [List.mapM_cons, h.1, ih h.2]
    rfl

/-- The columns of a matrix have its cells. -/
theorem exists_columnOf {flatParams : List BoundValue} {colCount rowCount c : ℕ}
    (hlength : rowCount * colCount ≤ flatParams.length) (hc : c < colCount) :
    ∃ rows, columnOf flatParams colCount rowCount c = some rows ∧ rows.length = rowCount ∧
      ∀ r < rowCount, rows[r]? = flatParams[r * colCount + c]? := by
  have hcell (r : ℕ) (hr : r < rowCount) :
      flatParams[r * colCount + c]? = some (flatParams.getD (r * colCount + c) .null) := by
    have hlt : r * colCount + c < flatParams.length := by
      calc r * colCount + c < r * colCount + colCount := Nat.add_lt_add_left hc _
        _ = (r + 1) * colCount := (Nat.succ_mul r colCount).symm
        _ ≤ rowCount * colCount := Nat.mul_le_mul_right _ hr
        _ ≤ flatParams.length := hlength
    rw [List.getD_eq_getElem?_getD, List.getElem?_eq_getElem hlt]
    rfl
  refine ⟨_, mapM_range_eq fun r hr => hcell r (List.mem_range.mp hr), ?_, fun r hr => ?_⟩
  · rw [List.length_map, List.length_range]
  · rw [hcell r hr, List.getElem?_map, List.getElem?_range hr]
    rfl

/-- A batch of columns of one alternative each : every cell is written within its arrays, NULLs
are told by their indicators, and the driver recovers the other values. -/
theorem matrix_recovered {flatParams : List BoundValue} {colCount rowCount : ℕ}
    (hlength : rowCount * colCount ≤ flatParams.length)
    (hcolumns : ∀ c < colCount, ∀ rows, columnOf flatParams colCount rowCount c = some rows →
      Homogeneous rows ∧ FitsMemory rows) {c : ℕ} (hc : c < colCount) :
    ∃ ca, bindMatrixColumn flatParams colCount rowCount c = some ca ∧
      ∀ r < rowCount, ∃ v d, flatParams[r * colCount + c]? = some v ∧
        (v = .null → ca.indicators[r]? = some sqlNullData) ∧
        ca.read r = some d ∧ Recovered v d := by
  obtain ⟨rows, hrows, hcount, hcells⟩ := exists_columnOf hlength hc
  obtain ⟨hsame, hmemory⟩ := hcolumns c hc rows hrows
  obtain ⟨cls, hclass⟩ := hsame.exists_class
  obtain ⟨ca, hca, -, hread⟩ := bindColumn_of_class hclass hsame.uintRoom
    (TypeChoice.sizes_of_fitsMemory hmemory)
  refine ⟨ca, by rw [bindMatrixColumn, hrows]; exact hca, fun r hr => ?_⟩
  obtain ⟨v, hv⟩ : ∃ v, rows[r]? = some v := ⟨_, List.getElem?_eq_getElem (hcount ▸ hr)⟩
  obtain ⟨hholds, hd⟩ := hread r v hv
  refine ⟨v, _, hcells r hr ▸ hv, ?_, hd, recovered_cellData _ v⟩
  rintro rfl
  exact hholds

/-- Two rows : a decimal and a NULL, and numbers on both sides of `2 ^ 63`. -/
theorem matrix_recovered_two :
    let flatParams : List BoundValue :=
      [.numeric ⟨"12.50", 4, 2, false⟩, .uint64 7, .null, .uint64 0xFFFFFFFFFFFFFFFF]
    ∃ ca, bindMatrixColumn flatParams 2 2 1 = some ca ∧
      ∀ r < 2, ∃ v d, flatParams[r * 2 + 1]? = some v ∧
        (v = .null → ca.indicators[r]? = some sqlNullData) ∧
        ca.read r = some d ∧ Recovered v d := by
  refine matrix_recovered le_rfl (fun c hc rows hrows => ?_) (by decide)
  match c, hc with
  | 0, _ =>
    cases hrows
    exact ⟨by decide, by decide, by decide⟩
  | 1, _ =>
    cases hrows
    exact ⟨by decide, by decide, by decide⟩

/-- The arrays do not tell the precision and the scale of a decimal. -/
theorem numeric_not_recovered :
    ¬ ∃ recover : ColArrays → ℕ → BoundValue, ∀ v ca,
      bindColumn [.numeric v] = some ca → recover ca 0 = .numeric v := by
  rintro ⟨recover, h⟩
  have hsame : bindColumn [.numeric ⟨"1", 1, 0, false⟩] =
      bindColumn [.numeric ⟨"1", 5, 2, false⟩] := rfl
  obtain ⟨ca, hca⟩ : ∃ ca, bindColumn [.numeric ⟨"1", 1, 0, false⟩] = some ca := ⟨_, rfl⟩
  have h1 := h _ _ hca
  have h2 := h _ _ (hsame ▸ hca)
  rw [h1] at h2
  cases h2

end CppLinq
