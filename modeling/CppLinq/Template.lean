import Mathlib.Data.List.Range
import Mathlib.Data.List.Flatten
import Mathlib.Data.List.Perm.Subperm

/-!
# Text with numbered holes

A statement text is written from left to right while a counter numbers its parameters.
`Text` keeps the number of every parameter where its marker stands (`Sym.hole`), and
`render` puts a marker's text in its place.

A `Template` is what such a writer does from any start : the slots it records, and its
text as a function of the number of its first hole. One template may consist of others
(`Template.Parts`), or be their concatenation (`Template.Conc`), up to literal text. Two
properties are then read off the parts.

* `KeptAt` : every recorded slot has a hole (`Parts.keptAt_iff`).
* `InOrderAt` : the holes stand in the order of the slots (`Conc.inOrderAt_iff`).
-/

namespace CppLinq

/-- A character, or the hole of a numbered parameter. -/
inductive Sym
  | chr (c : Char)
  | hole (i : ℕ)
  deriving DecidableEq, Repr

/-- Text with numbered holes. -/
abbrev Text := List Sym

/-- A literal text. -/
def lit (s : String) : Text := s.toList.map .chr

/-- The numbers of the holes of a text, from left to right. -/
def holes (t : Text) : List ℕ :=
  t.filterMap fun
    | .chr _ => none
    | .hole i => some i

/-- The text with every hole `i` written as `marker i`. -/
def render (marker : ℕ → List Char) (t : Text) : List Char :=
  t.flatMap fun
    | .chr c => [c]
    | .hole i => marker i

@[simp] theorem holes_nil : holes [] = [] :=
  rfl

@[simp] theorem holes_append (t u : Text) : holes (t ++ u) = holes t ++ holes u := by
  simp [holes]

@[simp] theorem holes_lit (s : String) : holes (lit s) = [] := by
  simp [holes, lit]

@[simp] theorem holes_cons_chr (c : Char) (t : Text) : holes (.chr c :: t) = holes t :=
  rfl

@[simp] theorem holes_cons_hole (i : ℕ) (t : Text) : holes (.hole i :: t) = i :: holes t :=
  rfl

@[simp] theorem holes_map_chr (cs : List Char) : holes (cs.map .chr) = [] := by
  simp [holes]

@[simp] theorem render_nil (m : ℕ → List Char) : render m [] = [] :=
  rfl

/-- Texts are rendered one after another. -/
@[simp] theorem render_append (m : ℕ → List Char) (t u : Text) :
    render m (t ++ u) = render m t ++ render m u := by
  simp [render]

@[simp] theorem render_map_chr (m : ℕ → List Char) (cs : List Char) :
    render m (cs.map .chr) = cs := by
  induction cs with
  | nil => rfl
  | cons c cs ih => simpa [render] using ih

@[simp] theorem render_lit (m : ℕ → List Char) (s : String) : render m (lit s) = s.toList :=
  render_map_chr m s.toList

@[simp] theorem render_hole (m : ℕ → List Char) (i : ℕ) : render m [.hole i] = m i := by
  simp [render]

/-- The pieces of a list separated by `sep`. -/
def joinSep (sep : Text) : List Text → Text
  | [] => []
  | [t] => t
  | t :: u :: ts => t ++ sep ++ joinSep sep (u :: ts)

/-- A separator without holes adds none. -/
@[simp] theorem holes_joinSep {sep : Text} (hsep : holes sep = []) :
    ∀ ts : List Text, holes (joinSep sep ts) = (ts.map holes).flatten
  | [] => rfl
  | [t] => by simp [joinSep]
  | t :: u :: ts => by
    rw [joinSep, holes_append, holes_append, hsep, holes_joinSep hsep (u :: ts)]
    simp

/-- A list of texts without holes, joined. -/
theorem holes_joinSep_of_forall {sep : Text} (hsep : holes sep = []) {ts : List Text}
    (h : ∀ t ∈ ts, holes t = []) : holes (joinSep sep ts) = [] := by
  rw [holes_joinSep hsep, List.flatten_eq_nil_iff]
  simpa using h

/-! ## Templates -/

/-- A text written at any counter : the slots it records, and its text when its first
slot gets the number `k`. -/
structure Template (σ : Type*) where
  /-- One slot for every number the text takes from the counter. -/
  slots : List σ
  /-- The text, numbered from `k`. -/
  text : ℕ → Text

namespace Template

variable {σ ι : Type*}

/-- The holes of templates written one after another, from the number `k`. -/
def seqHoles : List (Template σ) → ℕ → List ℕ
  | [], _ => []
  | T :: Ts, k => holes (T.text k) ++ seqHoles Ts (k + T.slots.length)

/-- The number of slots of a list of templates. -/
def slotCount (Ts : List (Template σ)) : ℕ :=
  (Ts.flatMap slots).length

@[simp] theorem slotCount_cons (T : Template σ) (Ts : List (Template σ)) :
    slotCount (T :: Ts) = T.slots.length + slotCount Ts := by
  simp [slotCount]

/-- The holes of several templates follow each other. -/
theorem seqHoles_append (Ts Us : List (Template σ)) (k : ℕ) :
    seqHoles (Ts ++ Us) k = seqHoles Ts k ++ seqHoles Us (k + slotCount Ts) := by
  induction Ts generalizing k with
  | nil => simp [seqHoles, slotCount]
  | cons T Ts ih => simp [seqHoles, ih, Nat.add_assoc]

/-- `T` consists of `Ts` : it records their slots in order, and has their holes in some
order. -/
structure Parts (T : Template σ) (Ts : List (Template σ)) : Prop where
  slots_eq : T.slots = Ts.flatMap slots
  holes_perm : ∀ k, (holes (T.text k)).Perm (seqHoles Ts k)

/-- `T` is the concatenation of `Ts` : its holes are theirs in order. -/
structure Conc (T : Template σ) (Ts : List (Template σ)) : Prop where
  slots_eq : T.slots = Ts.flatMap slots
  holes_eq : ∀ k, holes (T.text k) = seqHoles Ts k

/-- Templates that follow each other are parts of the whole. -/
theorem Conc.parts {T : Template σ} {Ts : List (Template σ)} (h : Conc T Ts) : Parts T Ts :=
  ⟨h.slots_eq, fun k => by rw [h.holes_eq]⟩

/-! ## Every slot has a hole -/

/-- Numbered from `k`, the holes are numbers of slots, each at most once. -/
def WithinAt (T : Template σ) (k : ℕ) : Prop :=
  (holes (T.text k)).Subperm (List.range' k T.slots.length)

/-- Numbered from `k`, the text has as many holes as slots. -/
def KeptAt (T : Template σ) (k : ℕ) : Prop :=
  (holes (T.text k)).length = T.slots.length

/-- There are no more holes than slots. -/
theorem WithinAt.length_le {T : Template σ} {k : ℕ} (h : T.WithinAt k) :
    (holes (T.text k)).length ≤ T.slots.length := by
  simpa using List.Subperm.length_le h

theorem WithinAt.le_of_mem {T : Template σ} {k i : ℕ} (h : T.WithinAt k)
    (hi : i ∈ holes (T.text k)) : k ≤ i :=
  (List.mem_range'_1.mp (List.Subperm.subset h hi)).1

/-- The holes of several templates are among the numbers of their slots. -/
theorem seqHoles_subperm {Ts : List (Template σ)} (h : ∀ T ∈ Ts, ∀ k, T.WithinAt k) (k : ℕ) :
    (seqHoles Ts k).Subperm (List.range' k (slotCount Ts)) := by
  induction Ts generalizing k with
  | nil => simp [seqHoles, slotCount]
  | cons T Ts ih =>
    have hT : (holes (T.text k)).Subperm (List.range' k T.slots.length) := h T (by simp) k
    have hTs := ih (fun U hU => h U (by simp [hU])) (k + T.slots.length)
    rw [slotCount_cons, ← List.range'_append_1]
    exact hT.append hTs

theorem Parts.withinAt {T : Template σ} {Ts : List (Template σ)} (h : Parts T Ts)
    (hw : ∀ U ∈ Ts, ∀ k, U.WithinAt k) (k : ℕ) : T.WithinAt k := by
  unfold WithinAt
  rw [h.slots_eq]
  exact (h.holes_perm k).subperm.trans (seqHoles_subperm hw k)

/-- All slots have holes exactly if those of every part have. -/
theorem length_seqHoles_eq_iff {f : ι → Template σ} {p : ι → Prop} :
    ∀ {is : List ι}, (∀ i ∈ is, ∀ k, (f i).WithinAt k) →
      (∀ i ∈ is, ∀ k, (f i).KeptAt k ↔ p i) →
      ∀ k, (seqHoles (is.map f) k).length = slotCount (is.map f) ↔ ∀ i ∈ is, p i
  | [], _, _, _ => by simp [seqHoles, slotCount]
  | i :: is, hw, hp, k => by
    have hi := (hw i (by simp) k).length_le
    have hpi : (holes ((f i).text k)).length = (f i).slots.length ↔ p i := hp i (by simp) k
    have hws : ∀ j ∈ is, ∀ k, (f j).WithinAt k := fun j hj => hw j (by simp [hj])
    have hmap : ∀ T ∈ is.map f, ∀ k, T.WithinAt k := by simpa using hws
    have hle := (seqHoles_subperm hmap (k + (f i).slots.length)).length_le
    have ih := length_seqHoles_eq_iff hws (fun j hj => hp j (by simp [hj]))
      (k + (f i).slots.length)
    simp only [List.length_range'] at hle
    simp only [List.map_cons, seqHoles, List.length_append, slotCount_cons,
      List.forall_mem_cons, ← hpi, ← ih]
    omega

/-- A template keeps its slots iff every part does. -/
theorem Parts.keptAt_iff {T : Template σ} {f : ι → Template σ} {is : List ι} {p : ι → Prop}
    (h : Parts T (is.map f)) (hw : ∀ i ∈ is, ∀ k, (f i).WithinAt k)
    (hp : ∀ i ∈ is, ∀ k, (f i).KeptAt k ↔ p i) (k : ℕ) : T.KeptAt k ↔ ∀ i ∈ is, p i := by
  unfold KeptAt
  rw [(h.holes_perm k).length_eq, h.slots_eq]
  exact length_seqHoles_eq_iff hw hp k

/-! ## The holes stand in order -/

/-- Numbered from `k`, the holes read from left to right are the numbers of the slots. -/
def InOrderAt (T : Template σ) (k : ℕ) : Prop :=
  holes (T.text k) = List.range' k T.slots.length

/-- A list counts up exactly if its two parts do. -/
theorem append_eq_range'_iff {l l' : List ℕ} {k m n : ℕ} (hl : l.length = m) :
    l ++ l' = List.range' k (m + n) ↔ l = List.range' k m ∧ l' = List.range' (k + m) n := by
  rw [← List.range'_append_1]
  constructor
  · intro h
    exact List.append_inj h (by simp [hl])
  · rintro ⟨rfl, rfl⟩
    rfl

/-- The holes count up exactly if those of every part do. -/
theorem seqHoles_eq_range'_iff {f : ι → Template σ} {p : ι → Prop} :
    ∀ {is : List ι}, (∀ i ∈ is, ∀ k, (f i).KeptAt k) →
      (∀ i ∈ is, ∀ k, (f i).InOrderAt k ↔ p i) →
      ∀ k, seqHoles (is.map f) k = List.range' k (slotCount (is.map f)) ↔ ∀ i ∈ is, p i
  | [], _, _, _ => by simp [seqHoles, slotCount]
  | i :: is, hk, hp, k => by
    have hks : ∀ j ∈ is, ∀ k, (f j).KeptAt k := fun j hj => hk j (by simp [hj])
    have ih := seqHoles_eq_range'_iff hks (fun j hj => hp j (by simp [hj]))
      (k + (f i).slots.length)
    have hpi : holes ((f i).text k) = List.range' k (f i).slots.length ↔ p i :=
      hp i (by simp) k
    simp only [List.map_cons, seqHoles, slotCount_cons, List.forall_mem_cons]
    rw [append_eq_range'_iff (hk i (by simp) k), hpi, ih]

/-- A concatenation of templates that keep their slots is in order iff every part is. -/
theorem Conc.inOrderAt_iff {T : Template σ} {f : ι → Template σ} {is : List ι} {p : ι → Prop}
    (h : Conc T (is.map f)) (hk : ∀ i ∈ is, ∀ k, (f i).KeptAt k)
    (hp : ∀ i ∈ is, ∀ k, (f i).InOrderAt k ↔ p i) (k : ℕ) : T.InOrderAt k ↔ ∀ i ∈ is, p i := by
  unfold InOrderAt
  rw [h.holes_eq, h.slots_eq]
  exact seqHoles_eq_range'_iff hk hp k

/-- Two templates, the second numbered after the first but written before it : the holes
are in order iff each template is, and one of them has none. -/
theorem swap_eq_range'_iff {T U : Template σ} {k : ℕ} (hT : T.KeptAt k)
    (hU : U.KeptAt (k + T.slots.length)) (hw : U.WithinAt (k + T.slots.length)) :
    holes (U.text (k + T.slots.length)) ++ holes (T.text k) =
        List.range' k (T.slots.length + U.slots.length) ↔
      T.InOrderAt k ∧ U.InOrderAt (k + T.slots.length) ∧ (T.slots = [] ∨ U.slots = []) := by
  unfold KeptAt at hT hU
  unfold InOrderAt
  rcases List.eq_nil_or_concat' T.slots with hTs | ⟨_, _, hTs⟩
  · have ht : holes (T.text k) = [] := by simpa [hTs] using hT
    simp [hTs, ht]
  rcases List.eq_nil_or_concat' U.slots with hUs | ⟨_, _, hUs⟩
  · have hu : holes (U.text (k + T.slots.length)) = [] := by simpa [hUs] using hU
    simp [hUs, hu]
  have hne : ¬ (T.slots = [] ∨ U.slots = []) := by simp [hTs, hUs]
  simp only [hne, and_false, iff_false]
  intro h
  -- the first hole is one of `U`, and its number is past those of `T`
  obtain ⟨i, u, hu⟩ := List.exists_cons_of_length_pos (l := holes (U.text (k + T.slots.length)))
    (by simp [hU, hUs])
  have hi := hw.le_of_mem (hu ▸ List.mem_cons_self)
  have hpos : 0 < T.slots.length := by simp [hTs]
  have h0 := congrArg List.head? h
  rw [hu, List.cons_append, List.head?_cons, List.head?_range', if_neg (by omega)] at h0
  injection h0
  omega

end Template

end CppLinq
