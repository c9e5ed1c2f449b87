import Mathlib.Data.List.Basic

/-!
# Readers

A reader takes a value off the front of a list of symbols, or fails. `Takes p xs a rest` says
that `p` reads the symbols `xs` as `a` where `rest` follows them. What a compound reader reads
is put together from what its parts read : `Takes.bind` for one after another, `Takes.orElse`
for alternatives, `takes_sepBy` for elements with separators between them.
-/

namespace CppLinq

/-- A reader takes a value from the head of a list, or fails. -/
abbrev Reader (σ : Type) := StateT (List σ) Option

variable {σ α β : Type}

/-- The reader takes the symbols `xs` and leaves `rest`. -/
def Takes (p : Reader σ α) (xs : List σ) (a : α) (rest : List σ) : Prop :=
  p.run (xs ++ rest) = some (a, rest)

namespace Reader

/-- The given symbols. -/
def exactly [BEq σ] (xs : List σ) : Reader σ Unit :=
  fun s => (s.dropPrefix? xs).map fun rest => ((), rest)

/-- The end of the list. -/
def atEnd : Reader σ Unit :=
  fun s => if s.isEmpty then some ((), []) else none

/-- At most `n` elements with separators between them. -/
def sepByLoop [BEq σ] (sep : List σ) (p : Reader σ α) : ℕ → Reader σ (List α)
  | 0 => failure
  | n + 1 => do
    let a ← p
    let s ← get
    match s.dropPrefix? sep with
    | none => return [a]
    | some s' =>
      set s'
      let as ← sepByLoop sep p n
      return a :: as

/-- One element or more, with separators between them. -/
def sepBy [BEq σ] (sep : List σ) (p : Reader σ α) : Reader σ (List α) := do
  sepByLoop sep p ((← get).length + 1)

end Reader

open Reader

section Rules

variable {p q : Reader σ α} {f : α → Reader σ β} {xs ys rest : List σ} {a : α} {b : β}

theorem takes_pure (a : α) (rest : List σ) : Takes (pure a : Reader σ α) [] a rest :=
  rfl

/-- Readers follow each other. -/
theorem Takes.bind (h : Takes p xs a (ys ++ rest)) (h' : Takes (f a) ys b rest) :
    Takes (p >>= f) (xs ++ ys) b rest := by
  unfold Takes at h h' ⊢
  rw [StateT.run_bind, List.append_assoc, h, Option.bind_eq_bind, Option.bind_some, h']

/-- The last reader of several takes nothing. -/
theorem Takes.bind_nil (h : Takes p xs a rest) (h' : Takes (f a) [] b rest) :
    Takes (p >>= f) xs b rest := by
  have hbind : Takes (p >>= f) (xs ++ []) b rest := Takes.bind h h'
  rwa [List.append_nil] at hbind

/-- A reader whose result is made into another. -/
theorem Takes.map (h : Takes p xs a rest) (g : α → β) :
    Takes (do let a ← p; return g a) xs (g a) rest :=
  Takes.bind_nil h (takes_pure (g a) rest)

theorem Takes.orElse (h : Takes p xs a rest) : Takes (p <|> q) xs a rest := by
  unfold Takes at h ⊢
  rw [StateT.run_orElse, h]
  rfl

/-- The second reader reads where the first fails. -/
theorem Takes.orElse_right (hp : p.run (xs ++ rest) = none) (h : Takes q xs a rest) :
    Takes (p <|> q) xs a rest := by
  unfold Takes at h ⊢
  rw [StateT.run_orElse, hp, h]
  rfl

theorem run_bind_eq_none {s : List σ} (h : p.run s = none) : (p >>= f).run s = none := by
  rw [StateT.run_bind, h]
  rfl

theorem run_orElse_eq_none {s : List σ} (h : p.run s = none) (h' : q.run s = none) :
    (p <|> q).run s = none := by
  rw [StateT.run_orElse, h, h']
  rfl

/-- A reader fails where what comes after its first part does. -/
theorem Takes.run_bind_eq_none (h : Takes p xs a rest) (h' : (f a).run rest = none) :
    (p >>= f).run (xs ++ rest) = none := by
  unfold Takes at h
  rw [StateT.run_bind, h]
  exact h'

variable [BEq σ]

theorem run_sepBy_eq_none {sep s : List σ} (h : p.run s = none) : (sepBy sep p).run s = none := by
  have hloop : (sepByLoop sep p (s.length + 1)).run s = none := by
    rw [sepByLoop, StateT.run_bind, h]
    rfl
  exact hloop

theorem run_exactly_eq_none {s : List σ} (h : s.dropPrefix? xs = none) :
    (exactly xs).run s = none := by
  unfold exactly
  rw [StateT.run, h]
  rfl

variable [LawfulBEq σ]

theorem dropPrefix?_append (xs rest : List σ) : (xs ++ rest).dropPrefix? xs = some rest := by
  rw [List.dropPrefix?_eq_some_iff]
  exact ⟨xs, rfl, beq_self_eq_true xs⟩

theorem takes_exactly (xs rest : List σ) : Takes (exactly xs) xs () rest := by
  unfold Takes exactly
  rw [StateT.run, dropPrefix?_append]
  rfl

/-- A fixed text before what else is read. -/
theorem takes_exactly_bind {p : Reader σ β} (h : Takes p ys b rest) :
    Takes (do exactly xs; p) (xs ++ ys) b rest :=
  (takes_exactly xs (ys ++ rest)).bind h

section Elements

variable {ι : Type} {sep : List σ} (text : ι → List σ) (value : ι → α) {is : List ι}

/-- Elements are read up to the first that no separator follows. -/
theorem takes_sepByLoop (hne : is ≠ [])
    (hitem : ∀ i ∈ is, ∀ r, Takes p (text i) (value i) (sep ++ r))
    (hlast : ∀ i ∈ is, Takes p (text i) (value i) rest) (hrest : rest.dropPrefix? sep = none)
    {n : ℕ} (hn : is.length ≤ n) :
    Takes (sepByLoop sep p n) (sep.intercalate (is.map text)) (is.map value) rest := by
  induction is generalizing n with
  | nil => contradiction
  | cons i is ih =>
    obtain ⟨n, rfl⟩ := Nat.exists_eq_add_one_of_ne_zero (Nat.ne_zero_of_lt hn)
    cases is with
    | nil =>
      have hi := hlast i List.mem_cons_self
      unfold Takes at hi ⊢
      rw [List.map_singleton, List.map_singleton, List.intercalate_singleton, sepByLoop,
        StateT.run_bind, hi]
      simp [hrest]
    | cons j js =>
      have hi := hitem i List.mem_cons_self (sep.intercalate ((j :: js).map text) ++ rest)
      have htail := ih (List.cons_ne_nil j js) (fun x hx => hitem x (List.mem_cons_of_mem i hx))
        (fun x hx => hlast x (List.mem_cons_of_mem i hx)) (Nat.le_of_succ_le_succ hn)
      unfold Takes at hi htail ⊢
      have htext : sep.intercalate ((i :: j :: js).map text) =
          text i ++ (sep ++ sep.intercalate ((j :: js).map text)) := by
        simp only [List.map_cons, List.intercalate_cons_cons, List.append_assoc]
      rw [htext, List.append_assoc, List.append_assoc, sepByLoop, StateT.run_bind, hi]
      generalize sep.intercalate ((j :: js).map text) = tail at htail ⊢
      simp [dropPrefix?_append, htail]

/-- Items with separators are read back. -/
theorem takes_sepBy (hsep : sep ≠ []) (hne : is ≠ [])
    (hitem : ∀ i ∈ is, ∀ r, Takes p (text i) (value i) (sep ++ r))
    (hlast : ∀ i ∈ is, Takes p (text i) (value i) rest) (hrest : rest.dropPrefix? sep = none) :
    Takes (sepBy sep p) (sep.intercalate (is.map text)) (is.map value) rest := by
  have hlength : is.length ≤ (sep.intercalate (is.map text) ++ rest).length + 1 := by
    clear hitem hlast hne
    induction is with
    | nil => exact Nat.zero_le _
    | cons i is ih =>
      cases is with
      | nil => simp
      | cons j js =>
        have hpos := List.length_pos_iff.mpr hsep
        rw [List.map_cons, List.map_cons, List.intercalate_cons_cons]
        simp only [List.map_cons, List.length_append, List.length_cons] at ih ⊢
        omega
  have hloop := takes_sepByLoop text value hne hitem hlast hrest hlength
  unfold Takes at hloop ⊢
  simpa [sepBy] using hloop

end Elements

end Rules

end CppLinq
