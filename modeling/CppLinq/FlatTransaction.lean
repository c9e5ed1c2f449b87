import Mathlib.Data.List.Basic

/-!
# Flat transactions

A store with one transaction at most. Servers differ in what beginning a transaction does
while one is open (`Nesting`), and agree on the rest : writes of an open transaction stay
pending until it is committed, and writes without a transaction are durable at once.
-/

namespace CppLinq

/-- What is durable, and what the open transaction sees, if there is one. -/
structure Store (δ : Type) where
  durable : δ
  pending : Option δ

/-- What beginning a transaction does while one is open. -/
inductive Nesting
  /-- It is an error. -/
  | refused
  /-- Nothing. The open transaction goes on. -/
  | ignored
  /-- It commits the open transaction first. -/
  | commits
  deriving DecidableEq, Repr

namespace Store

variable {δ : Type}

/-- What a statement sees. -/
def seen (s : Store δ) : δ :=
  s.pending.getD s.durable

/-- A write goes to the open transaction, if there is one. -/
def write (s : Store δ) (f : δ → δ) : Store δ :=
  match s.pending with
  | some p => ⟨s.durable, some (f p)⟩
  | none => ⟨f s.durable, none⟩

/-- What was written is kept. -/
def commit (s : Store δ) : Store δ :=
  ⟨s.seen, none⟩

/-- What was written is dropped. -/
def rollback (s : Store δ) : Store δ :=
  ⟨s.durable, none⟩

/-- The store after a transaction has begun. Where that is refused nothing changes. -/
def begin (n : Nesting) (s : Store δ) : Store δ :=
  match s.pending, n with
  | none, _ => ⟨s.durable, some s.durable⟩
  | some p, .refused => ⟨s.durable, some p⟩
  | some p, .ignored => ⟨s.durable, some p⟩
  | some p, .commits => ⟨p, some p⟩

/-- A transaction is open, and nothing has become durable since `d`. -/
structure Open (d : δ) (s : Store δ) : Prop where
  durable_eq : s.durable = d
  pending_isSome : s.pending.isSome

/-- No transaction is open, and `d` is durable. -/
def Settled (d : δ) (s : Store δ) : Prop :=
  s = ⟨d, none⟩

variable {d : δ} {s : Store δ}

theorem Settled.begin (h : s.Settled d) (n : Nesting) : (s.begin n).Open d := by
  rw [Settled] at h
  subst h
  exact ⟨rfl, rfl⟩

theorem Settled.seen_begin (h : s.Settled d) (n : Nesting) : (s.begin n).seen = d := by
  rw [Settled] at h
  subst h
  rfl

/-- Beginning once more keeps the transaction, unless it commits. -/
theorem Open.begin (h : s.Open d) {n : Nesting} (hn : n ≠ .commits) : (s.begin n).Open d := by
  obtain ⟨hd, hp⟩ := h
  obtain ⟨p, hp⟩ := Option.isSome_iff_exists.mp hp
  cases n with
  | refused => exact ⟨by simp [Store.begin, hp, hd], by simp [Store.begin, hp]⟩
  | ignored => exact ⟨by simp [Store.begin, hp, hd], by simp [Store.begin, hp]⟩
  | commits => contradiction

/-- A write stays pending. -/
theorem Open.write (h : s.Open d) (f : δ → δ) : (s.write f).Open d := by
  obtain ⟨hd, hp⟩ := h
  obtain ⟨p, hp⟩ := Option.isSome_iff_exists.mp hp
  exact ⟨by simp [Store.write, hp, hd], by simp [Store.write, hp]⟩

theorem seen_write (s : Store δ) (f : δ → δ) : (s.write f).seen = f s.seen := by
  obtain ⟨durable, _ | p⟩ := s <;> rfl

theorem Open.rollback (h : s.Open d) : s.rollback.Settled d := by
  rw [Settled, Store.rollback, h.durable_eq]

theorem Settled.rollback (h : s.Settled d) : s.rollback.Settled d := by
  rw [Settled] at h
  subst h
  rfl

theorem commit_settled (s : Store δ) : s.commit.Settled s.seen :=
  rfl

end Store

end CppLinq
