import CppLinq.ValueParsing
import Mathlib.Algebra.Order.Field.Rat
import Mathlib.Tactic.FieldSimp
import Mathlib.Tactic.Linarith
import Mathlib.Tactic.Positivity
import Mathlib.Tactic.Ring

/-!
# Strings of digits

The number that digits denote before a point and after it, and that comparing digits from the
left compares the numbers.
-/

namespace CppLinq

/-- The number of a digit. -/
def digitVal (c : Char) : ℕ :=
  c.toNat - '0'.toNat

/-- The number of digits after a point. -/
def fractionValue : List Char → ℚ
  | [] => 0
  | c :: cs => (digitVal c + fractionValue cs) / 10

/-- Digits and nothing else. -/
abbrev AllDigits (cs : List Char) : Prop :=
  ∀ c ∈ cs, c.isDigit = true

theorem toNat_of_isDigit {c : Char} (h : c.isDigit = true) :
    48 ≤ c.toNat ∧ c.toNat ≤ 57 := by
  simp only [Char.isDigit, Bool.and_eq_true, decide_eq_true_eq] at h
  exact ⟨UInt32.le_iff_toNat_le.mp h.1, UInt32.le_iff_toNat_le.mp h.2⟩

theorem digitVal_lt {c : Char} (h : c.isDigit = true) : digitVal c < 10 := by
  have hc := toNat_of_isDigit h
  have hzero : '0'.toNat = 48 := rfl
  rw [digitVal, hzero]
  omega

/-- Digits are told apart by their numbers. -/
theorem digitVal_lt_iff {c d : Char} (hc : c.isDigit = true) (hd : d.isDigit = true) :
    digitVal c < digitVal d ↔ c.toNat < d.toNat := by
  have hc := toNat_of_isDigit hc
  have hd := toNat_of_isDigit hd
  have hzero : '0'.toNat = 48 := rfl
  rw [digitVal, digitVal, hzero]
  omega

theorem digitVal_eq_zero {c : Char} (h : c.isDigit = true) : digitVal c = 0 ↔ c = '0' := by
  have hc := toNat_of_isDigit h
  have hzero : '0'.toNat = 48 := rfl
  rw [digitVal, hzero]
  constructor
  · intro heq
    apply Char.ext
    apply UInt32.toNat_inj.mp
    change c.toNat = 48
    omega
  · rintro rfl
    rfl

/-! ## Values -/

theorem digitsValue_nil : digitsValue [] = 0 := by
  rw [digitsValue, Nat.ofDigitChars_nil]

theorem digitsValue_cons (c : Char) (cs : List Char) :
    digitsValue (c :: cs) = digitVal c * 10 ^ cs.length + digitsValue cs := by
  rw [digitsValue, Nat.ofDigitChars_cons, Nat.ofDigitChars_eq_ofDigitChars_zero, digitsValue,
    digitVal]
  ring

/-- Digits behind others count as in the decimal system. -/
theorem digitsValue_append (cs ds : List Char) :
    digitsValue (cs ++ ds) = digitsValue cs * 10 ^ ds.length + digitsValue ds := by
  rw [digitsValue, Nat.ofDigitChars_append, Nat.ofDigitChars_eq_ofDigitChars_zero, digitsValue,
    digitsValue]
  ring

theorem fractionValue_eq (cs : List Char) :
    fractionValue cs = digitsValue cs / 10 ^ cs.length := by
  induction cs with
  | nil => simp [fractionValue, digitsValue_nil]
  | cons c cs ih =>
    rw [fractionValue, ih, digitsValue_cons, List.length_cons, pow_succ]
    push_cast
    field_simp

theorem fractionValue_nonneg (cs : List Char) : 0 ≤ fractionValue cs := by
  rw [fractionValue_eq]
  positivity

theorem fractionValue_lt_one {cs : List Char} (h : AllDigits cs) : fractionValue cs < 1 := by
  induction cs with
  | nil => norm_num [fractionValue]
  | cons c cs ih =>
    have hc := digitVal_lt (h c List.mem_cons_self)
    have hcs := ih fun d hd => h d (List.mem_cons_of_mem _ hd)
    have hle : (digitVal c : ℚ) ≤ 9 := by exact_mod_cast Nat.le_of_lt_succ hc
    rw [fractionValue]
    linarith

theorem digitsValue_lt_pow {cs : List Char} (h : AllDigits cs) :
    digitsValue cs < 10 ^ cs.length := by
  have hlt := fractionValue_lt_one h
  rw [fractionValue_eq, div_lt_one (by positivity)] at hlt
  exact_mod_cast hlt

/-- Zeros at the end of a fraction do not count. -/
theorem fractionValue_append_zeros (cs : List Char) (n : ℕ) :
    fractionValue (cs ++ List.replicate n '0') = fractionValue cs := by
  have hzeros : digitsValue (List.replicate n '0') = 0 := by
    rw [digitsValue, Nat.ofDigitChars_replicate_zero, Nat.mul_zero]
  rw [fractionValue_eq, fractionValue_eq, digitsValue_append, hzeros, List.length_append,
    List.length_replicate, pow_add]
  push_cast
  rw [add_zero, mul_div_mul_right _ _ (by positivity)]

/-- Without zeros at the end, a fraction is zero only where it is empty. -/
theorem fractionValue_pos {cs : List Char} (h : AllDigits cs) (hne : cs ≠ [])
    (hlast : cs.getLast? ≠ some '0') : 0 < fractionValue cs := by
  induction cs with
  | nil => exact absurd rfl hne
  | cons c cs ih =>
    rw [fractionValue]
    by_cases hcs : cs = []
    · subst hcs
      have hc : digitVal c ≠ 0 := by
        rw [Ne, digitVal_eq_zero (h c List.mem_cons_self)]
        rintro rfl
        exact hlast rfl
      have hpos : (0 : ℚ) < digitVal c := by exact_mod_cast Nat.pos_of_ne_zero hc
      simp only [fractionValue]
      linarith
    · have htail := ih (fun d hd => h d (List.mem_cons_of_mem _ hd)) hcs
        (by rwa [List.getLast?_cons_of_ne_nil hcs] at hlast)
      have hnonneg : (0 : ℚ) ≤ digitVal c := Nat.cast_nonneg _
      linarith

/-! ## From the left -/

/-- Pairs that are in the same order compare alike. -/
theorem compare_of_lt_iff {α β : Type} [LinearOrder α] [LinearOrder β] {x y : α} {a b : β}
    (hlt : x < y ↔ a < b) (hgt : y < x ↔ b < a) : compare x y = compare a b := by
  rcases lt_trichotomy x y with h | h | h
  · rw [compare_lt_iff_lt.mpr h, compare_lt_iff_lt.mpr (hlt.mp h)]
  · have hab : a = b := le_antisymm (not_lt.mp fun h' => (hgt.mpr h').ne h.symm)
      (not_lt.mp fun h' => (hlt.mpr h').ne h)
    rw [compare_eq_iff_eq.mpr h, compare_eq_iff_eq.mpr hab]
  · rw [compare_gt_iff_gt.mpr h, compare_gt_iff_gt.mpr (hgt.mp h)]

/-- Character by character, where a text comes before its continuations. -/
def compareText (key : Char → ℤ) : List Char → List Char → Ordering
  | [], [] => .eq
  | [], _ :: _ => .lt
  | _ :: _, [] => .gt
  | a :: as, b :: bs => (compare (key a) (key b)).then (compareText key as bs)

/-- A key that orders digits as their codes. -/
abbrev OrdersDigits (key : Char → ℤ) : Prop :=
  ∀ c, c.isDigit = true → key c = c.toNat

/-- Fractions of one length, or without zeros at the end, compare as numbers. -/
theorem compareText_eq_compare {key : Char → ℤ} (hkey : OrdersDigits key) {as bs : List Char}
    (has : AllDigits as) (hbs : AllDigits bs)
    (h : as.length = bs.length ∨ as.getLast? ≠ some '0' ∧ bs.getLast? ≠ some '0') :
    compareText key as bs = compare (fractionValue as) (fractionValue bs) := by
  induction as generalizing bs with
  | nil =>
    cases bs with
    | nil => exact (compare_eq_iff_eq.mpr rfl).symm
    | cons b bs =>
      rcases h with h | ⟨-, h⟩
      · cases h
      · exact (compare_lt_iff_lt.mpr (fractionValue_pos hbs (List.cons_ne_nil _ _) h)).symm
  | cons a as ih =>
    cases bs with
    | nil =>
      rcases h with h | ⟨h, -⟩
      · cases h
      · exact (compare_gt_iff_gt.mpr (fractionValue_pos has (List.cons_ne_nil _ _) h)).symm
    | cons b bs =>
      have ha := has a List.mem_cons_self
      have hb := hbs b List.mem_cons_self
      have has' : AllDigits as := fun c hc => has c (List.mem_cons_of_mem _ hc)
      have hbs' : AllDigits bs := fun c hc => hbs c (List.mem_cons_of_mem _ hc)
      have hone := fractionValue_lt_one has'
      have hone' := fractionValue_lt_one hbs'
      have hnonneg := fractionValue_nonneg as
      have hnonneg' := fractionValue_nonneg bs
      rw [compareText, hkey a ha, hkey b hb, fractionValue, fractionValue]
      -- the first digits decide unless they are equal
      rcases Nat.lt_trichotomy a.toNat b.toNat with hlt | heq | hgt
      · have hdigit : (digitVal a : ℚ) + 1 ≤ digitVal b := by
          exact_mod_cast (digitVal_lt_iff ha hb).mpr hlt
        have hfirst : compare (a.toNat : ℤ) b.toNat = .lt :=
          compare_lt_iff_lt.mpr (by exact_mod_cast hlt)
        rw [hfirst, Ordering.lt_then, eq_comm, compare_lt_iff_lt]
        linarith
      · have hab : a = b := Char.ext (UInt32.toNat_inj.mp heq)
        subst hab
        have htail : as.length = bs.length ∨
            as.getLast? ≠ some '0' ∧ bs.getLast? ≠ some '0' := by
          rcases h with h | ⟨h, h'⟩
          · exact .inl (Nat.succ.inj h)
          · refine .inr ⟨fun hlast => h ?_, fun hlast => h' ?_⟩
            · rw [List.getLast?_cons_of_ne_nil (by rintro rfl; cases hlast), hlast]
            · rw [List.getLast?_cons_of_ne_nil (by rintro rfl; cases hlast), hlast]
        have hfirst : compare (a.toNat : ℤ) a.toNat = .eq := compare_eq_iff_eq.mpr rfl
        rw [hfirst, Ordering.eq_then, ih has' hbs' htail]
        exact compare_of_lt_iff ⟨fun h => by linarith, fun h => by linarith⟩
          ⟨fun h => by linarith, fun h => by linarith⟩
      · have hdigit : (digitVal b : ℚ) + 1 ≤ digitVal a := by
          exact_mod_cast (digitVal_lt_iff hb ha).mpr hgt
        have hfirst : compare (a.toNat : ℤ) b.toNat = .gt :=
          compare_gt_iff_gt.mpr (by exact_mod_cast hgt)
        rw [hfirst, Ordering.gt_then, eq_comm, compare_gt_iff_gt]
        linarith

/-- Digits of one length compare as numbers. -/
theorem compareText_of_length_eq {key : Char → ℤ} (hkey : OrdersDigits key) {as bs : List Char}
    (has : AllDigits as) (hbs : AllDigits bs) (h : as.length = bs.length) :
    compareText key as bs = compare (digitsValue as) (digitsValue bs) := by
  have hpow : (0 : ℚ) < 10 ^ bs.length := by positivity
  rw [compareText_eq_compare hkey has hbs (.inl h), fractionValue_eq, fractionValue_eq, h]
  exact compare_of_lt_iff ((div_lt_div_iff_of_pos_right hpow).trans Nat.cast_lt)
    ((div_lt_div_iff_of_pos_right hpow).trans Nat.cast_lt)

/-! ## Zeros at the beginning -/

/-- Drop zeros at the beginning, but keep a last digit. -/
def stripZeros : List Char → List Char
  | '0' :: c :: cs => stripZeros (c :: cs)
  | cs => cs

theorem allDigits_stripZeros {cs : List Char} (h : AllDigits cs) : AllDigits (stripZeros cs) := by
  induction cs using stripZeros.induct with
  | case1 c cs ih =>
    rw [stripZeros]
    exact ih fun d hd => h d (List.mem_cons_of_mem _ hd)
  | case2 cs hcs =>
    rw [stripZeros]
    · exact h
    · exact hcs

theorem digitsValue_stripZeros (cs : List Char) :
    digitsValue (stripZeros cs) = digitsValue cs := by
  induction cs using stripZeros.induct with
  | case1 c cs ih =>
    rw [stripZeros, ih, digitsValue_cons '0', digitVal, Nat.sub_self, Nat.zero_mul, Nat.zero_add]
  | case2 cs hcs =>
    rw [stripZeros]
    exact hcs

/-- A number without a zero at the beginning that is not needed. -/
def IsCanonical (cs : List Char) : Prop :=
  1 < cs.length → 10 ^ (cs.length - 1) ≤ digitsValue cs

/-- Without the zeros in front a number has one text. -/
theorem isCanonical_stripZeros {cs : List Char} (h : AllDigits cs) :
    IsCanonical (stripZeros cs) := by
  induction cs using stripZeros.induct with
  | case1 c cs ih =>
    rw [stripZeros]
    exact ih fun d hd => h d (List.mem_cons_of_mem _ hd)
  | case2 cs hcs =>
    rw [stripZeros]
    · intro hlength
      match cs, hlength with
      | c :: d :: cs, _ =>
        have hc : c ≠ '0' := fun hc => hcs d cs (by rw [hc])
        have hdigit : digitVal c ≠ 0 := mt (digitVal_eq_zero (h c List.mem_cons_self)).mp hc
        have hone : 1 ≤ digitVal c := Nat.pos_of_ne_zero hdigit
        rw [digitsValue_cons, List.length_cons, Nat.add_sub_cancel]
        exact Nat.le_trans (Nat.le_mul_of_pos_left _ hone) (Nat.le_add_right _ _)
    · exact hcs

/-- The longer of two such numbers is the larger. -/
theorem digitsValue_lt_of_length_lt {as bs : List Char} (has : AllDigits as)
    (hbs : IsCanonical bs) (hne : as ≠ []) (h : as.length < bs.length) :
    digitsValue as < digitsValue bs := by
  have hpos := List.length_pos_iff.mpr hne
  calc digitsValue as < 10 ^ as.length := digitsValue_lt_pow has
    _ ≤ 10 ^ (bs.length - 1) := Nat.pow_le_pow_right (by decide) (by omega)
    _ ≤ digitsValue bs := hbs (by omega)

end CppLinq
