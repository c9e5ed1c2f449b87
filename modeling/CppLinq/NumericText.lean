import CppLinq.ValueParsing
import Mathlib.Data.List.DropRight

/-!
# Decimal numerals

`SqlNumeric::assign_string` of `mapping/data_types.h`. It keeps the text it is given, without
blanks around it, a plus sign and the minus sign of zero, and reads its own text back.
-/

namespace CppLinq

/-- A text without the blanks around it. -/
def trim (cs : List Char) : List Char :=
  cs.dropWhile isSpace |>.rdropWhile isSpace

/-- The numeral of a text that holds no digit. -/
def SqlNumeric.zero : SqlNumeric where
  value := "0"
  precision := 1

/-- The number of the digits of a numeral with a point at `dot`, and of those after it. -/
def numeralSizes (isNegative : Bool) (s : List Char) : UInt8 × Int8 :=
  let sign := if isNegative then 1 else 0
  match s.idxOf? '.' with
  | some dot => (.ofNat (s.length - 1 - sign), .ofInt (s.length - dot - 1 : ℕ))
  | none => (.ofNat (s.length - sign), 0)

/-- No digit other than zero. -/
def allZero (s : List Char) : Bool :=
  s.all fun c => !c.isDigit || c = '0'

/-- `SqlNumeric::assign_string`. -/
def SqlNumeric.assignString (str : List Char) : SqlNumeric :=
  let s := trim str
  let isNegative : Bool := s.head? = some '-'
  let s := if s.head? = some '+' then s.tail else s
  if s.any Char.isDigit then
    { value := .ofList (if allZero s ∧ s.head? = some '-' then s.tail else s)
      precision := (numeralSizes isNegative s).1
      scale := (numeralSizes isNegative s).2
      isNegative := isNegative && !allZero s }
  else zero

/-- Digits, with a point before some of them or not. -/
inductive IsUnsigned : List Char → Prop
  | whole {digits : List Char} (hne : digits ≠ []) (h : ∀ c ∈ digits, c.isDigit = true) :
    IsUnsigned digits
  | point {whole fraction : List Char} (hne : whole ++ fraction ≠ [])
    (hwhole : ∀ c ∈ whole, c.isDigit = true) (hfraction : ∀ c ∈ fraction, c.isDigit = true) :
    IsUnsigned (whole ++ '.' :: fraction)

/-- A decimal numeral, with a sign or not. -/
inductive IsDecimal : List Char → Prop
  | unsigned {cs : List Char} (h : IsUnsigned cs) : IsDecimal cs
  | plus {cs : List Char} (h : IsUnsigned cs) : IsDecimal ('+' :: cs)
  | minus {cs : List Char} (h : IsUnsigned cs) : IsDecimal ('-' :: cs)

theorem IsUnsigned.digit_or_point {cs : List Char} (h : IsUnsigned cs) :
    ∀ c ∈ cs, c.isDigit = true ∨ c = '.' := by
  cases h with
  | whole hne h => exact fun c hc => .inl (h c hc)
  | point hne hwhole hfraction =>
    intro c hc
    rcases List.mem_append.mp hc with hc | hc
    · exact .inl (hwhole c hc)
    · rcases List.mem_cons.mp hc with rfl | hc
      · exact .inr rfl
      · exact .inl (hfraction c hc)

theorem IsUnsigned.any_isDigit {cs : List Char} (h : IsUnsigned cs) :
    cs.any Char.isDigit = true := by
  rw [List.any_eq_true]
  cases h with
  | whole hne h =>
    obtain ⟨c, hc⟩ := List.exists_mem_of_ne_nil _ hne
    exact ⟨c, hc, h c hc⟩
  | @point whole fraction hne hwhole hfraction =>
    obtain ⟨c, hc⟩ := List.exists_mem_of_ne_nil _ hne
    rcases List.mem_append.mp hc with hc | hc
    · exact ⟨c, List.mem_append_left _ hc, hwhole c hc⟩
    · exact ⟨c, List.mem_append_right _ (List.mem_cons_of_mem _ hc), hfraction c hc⟩

/-- A character of a numeral is no blank and no sign. -/
theorem IsUnsigned.of_mem {cs : List Char} (h : IsUnsigned cs) {c : Char} (hc : c ∈ cs) :
    isSpace c = false ∧ c ≠ '-' ∧ c ≠ '+' := by
  rcases h.digit_or_point c hc with hdigit | rfl
  · exact of_isDigit hdigit
  · decide

theorem IsUnsigned.head?_ne {cs : List Char} (h : IsUnsigned cs) :
    cs.head? ≠ some '-' ∧ cs.head? ≠ some '+' :=
  ⟨fun hhead => (h.of_mem (List.mem_of_head? hhead)).2.1 rfl,
    fun hhead => (h.of_mem (List.mem_of_head? hhead)).2.2 rfl⟩

theorem trim_eq_self {cs : List Char} (h : ∀ c ∈ cs, isSpace c = false) : trim cs = cs := by
  have hdrop : cs.dropWhile isSpace = cs := by
    cases cs with
    | nil => rfl
    | cons c cs => exact List.dropWhile_cons_of_neg (by simp [h])
  rw [trim, hdrop, List.rdropWhile_eq_self_iff]
  intro hne
  rw [h _ (List.getLast_mem hne)]
  exact Bool.false_ne_true

namespace SqlNumeric

/-- The numeral of digits. -/
theorem assignString_unsigned {cs : List Char} (h : IsUnsigned cs) :
    assignString cs =
      { value := .ofList cs
        precision := (numeralSizes false cs).1
        scale := (numeralSizes false cs).2 } := by
  obtain ⟨hminus, hplus⟩ := h.head?_ne
  simp only [assignString, trim_eq_self fun c hc => (h.of_mem hc).1, if_neg hplus, h.any_isDigit,
    if_true, hminus, and_false, if_false, decide_false, Bool.false_and]

theorem assignString_plus {cs : List Char} (h : IsUnsigned cs) :
    assignString ('+' :: cs) = assignString cs := by
  obtain ⟨hminus, hplus⟩ := h.head?_ne
  have htrim : trim ('+' :: cs) = '+' :: cs :=
    trim_eq_self (List.forall_mem_cons.mpr ⟨by decide, fun c hc => (h.of_mem hc).1⟩)
  rw [assignString_unsigned h]
  simp only [assignString, htrim, List.head?_cons, if_true, List.tail_cons, h.any_isDigit, hminus,
    and_false, if_false]
  rfl

theorem numeralSizes_minus (cs : List Char) :
    numeralSizes true ('-' :: cs) = numeralSizes false cs := by
  have hidx : ('-' :: cs).idxOf? '.' = (cs.idxOf? '.').map (· + 1) := by
    rw [List.idxOf?_cons]
    rfl
  rw [numeralSizes, numeralSizes, hidx]
  cases cs.idxOf? '.' with
  | none => simp
  | some dot =>
    simp only [Option.map_some, List.length_cons, if_true, Bool.false_eq_true, if_false]
    have hprecision : cs.length + 1 - 1 - 1 = cs.length - 1 - 0 := by omega
    have hscale : cs.length + 1 - (dot + 1) - 1 = cs.length - dot - 1 := by omega
    rw [hprecision, hscale]

theorem allZero_minus (cs : List Char) : allZero ('-' :: cs) = allZero cs :=
  rfl

theorem assignString_minus {cs : List Char} (h : IsUnsigned cs) :
    assignString ('-' :: cs) =
      if allZero cs then assignString cs
      else { assignString cs with value := .ofList ('-' :: cs), isNegative := true } := by
  have htrim : trim ('-' :: cs) = '-' :: cs :=
    trim_eq_self (List.forall_mem_cons.mpr ⟨by decide, fun c hc => (h.of_mem hc).1⟩)
  have hany : ('-' :: cs).any Char.isDigit = true := by
    rw [List.any_cons, h.any_isDigit, Bool.or_true]
  have hplus : ¬ some '-' = some '+' := by decide
  rw [assignString_unsigned h]
  simp only [assignString, htrim, List.head?_cons, if_neg hplus, hany, if_true, numeralSizes_minus,
    allZero_minus, decide_true, Bool.true_and, and_true, List.tail_cons]
  cases allZero cs <;> rfl

/-- A numeral reads its own text. -/
theorem assignString_text {cs : List Char} (h : IsDecimal cs) :
    assignString (assignString cs).text = assignString cs := by
  have htext : ∀ {v : SqlNumeric} {ds : List Char}, v.value = .ofList ds → ds ≠ [] →
      v.text = ds := by
    intro v ds hv hds
    rw [text, hv, String.toList_ofList, if_neg (by simpa using hds)]
  have hne : ∀ {ds}, IsUnsigned ds → ds ≠ [] := by
    rintro _ hds rfl
    exact absurd hds.any_isDigit (by decide)
  have hunsigned : ∀ {ds}, IsUnsigned ds → (assignString ds).text = ds :=
    fun hds => htext (congrArg value (assignString_unsigned hds)) (hne hds)
  cases h with
  | unsigned h => rw [hunsigned h]
  | plus h => rw [assignString_plus h, hunsigned h]
  | @minus ds h =>
    rw [assignString_minus h]
    split
    · rw [hunsigned h]
    · rename_i hzero
      have hminus : ({ assignString ds with
          value := .ofList ('-' :: ds), isNegative := true } : SqlNumeric).text = '-' :: ds :=
        htext rfl (List.cons_ne_nil _ _)
      rw [hminus, assignString_minus h, if_neg hzero]

/-- The text that is kept is no longer than the text that is given. -/
theorem length_value_assignString (str : List Char) :
    (assignString str).value.toList.length ≤ max 1 str.length := by
  have htrim : (trim str).length ≤ str.length :=
    Nat.le_trans ( List.rdropWhile_prefix _ _).length_le (List.dropWhile_suffix _).length_le
  have htail : ∀ (s : List Char) (p : Prop) [Decidable p],
      (if p then s.tail else s).length ≤ s.length := by
    intro s p _
    split
    · rw [List.length_tail]
      omega
    · exact Nat.le_refl _
  have hsign := htail (trim str) ((trim str).head? = some '+')
  simp only [assignString]
  generalize (if (trim str).head? = some '+' then (trim str).tail else trim str) = s at hsign ⊢
  split
  · rw [String.toList_ofList]
    exact Nat.le_trans (Nat.le_trans (htail s _) (Nat.le_trans hsign htrim)) (Nat.le_max_right _ _)
  · exact Nat.le_max_left _ _

end SqlNumeric

end CppLinq
