import CppLinq.ValueParsing
import Mathlib.Algebra.Order.BigOperators.Group.List
import Mathlib.Data.List.Nodup
import Mathlib.Data.List.TakeWhile

/-!
# Keyword strings

The strings of keywords and values that `PQconnectdb` reads : assignments between blanks, whose
values may be quoted and have characters after backslashes. What is read of a string is not longer
than the string (`cost_le`), and a string is read back as the assignments that it was made of, in
as many characters, if and only if their values are plain (`run_assignmentText`).
-/

namespace CppLinq

namespace Conninfo

/-- A keyword and its value. -/
abbrev Assignment := List Char × List Char

/-- Where the reader of a string is, with what it has of a keyword and of its value. -/
inductive State
  | between
  | keyword (k : List Char)
  /-- After a keyword and a blank. -/
  | afterKeyword (k : List Char)
  /-- After the equals sign. -/
  | beforeValue (k : List Char)
  | unquoted (k v : List Char)
  /-- After a backslash. -/
  | unquotedEscape (k v : List Char)
  | quoted (k v : List Char)
  /-- After a backslash between quotes. -/
  | quotedEscape (k v : List Char)

/-- What a character completes, and where it leads, or `none` if it is malformed. -/
def step : State → Char → Option (Option Assignment × State)
  | .between, c =>
    if isSpace c then some (none, .between)
    else if c = '=' then some (none, .beforeValue [])
    else some (none, .keyword [c])
  | .keyword k, c =>
    if c = '=' then some (none, .beforeValue k)
    else if isSpace c then some (none, .afterKeyword k)
    else some (none, .keyword (k ++ [c]))
  | .afterKeyword k, c =>
    if isSpace c then some (none, .afterKeyword k)
    else if c = '=' then some (none, .beforeValue k)
    else none
  | .beforeValue k, c =>
    if isSpace c then some (none, .beforeValue k)
    else if c = '\'' then some (none, .quoted k [])
    else if c = '\\' then some (none, .unquotedEscape k [])
    else some (none, .unquoted k [c])
  | .unquoted k v, c =>
    if isSpace c then some (some (k, v), .between)
    else if c = '\\' then some (none, .unquotedEscape k v)
    else some (none, .unquoted k (v ++ [c]))
  | .unquotedEscape k v, c => some (none, .unquoted k (v ++ [c]))
  | .quoted k v, c =>
    if c = '\\' then some (none, .quotedEscape k v)
    else if c = '\'' then some (some (k, v), .between)
    else some (none, .quoted k (v ++ [c]))
  | .quotedEscape k v, c => some (none, .quoted k (v ++ [c]))

/-- What the end of a string completes. -/
def finish : State → Option (List Assignment)
  | .between => some []
  | .beforeValue k => some [(k, [])]
  | .unquoted k v | .unquotedEscape k v => some [(k, v)]
  | .keyword _ | .afterKeyword _ | .quoted _ _ | .quotedEscape _ _ => none

/-- The assignments of a string, or `none` if it is malformed. -/
def run : State → List Char → Option (List Assignment)
  | s, [] => finish s
  | s, c :: l => do
    let (out, s) ← step s c
    let rest ← run s l
    return out.toList ++ rest

/-- The assignments of a string that ends at its first null character. -/
def parse (text : List Char) : Option (List Assignment) :=
  run .between (text.takeWhile (· ≠ '\x00'))

/-- The value of the last assignment of a keyword. -/
def lookup (assignments : List Assignment) (k : List Char) : Option (List Char) :=
  assignments.reverse.lookup k

/-! ## Costs -/

/-- The characters that assignments take, with one after each. -/
def cost (assignments : List Assignment) : ℕ :=
  (assignments.map fun a => a.1.length + a.2.length + 2).sum

@[simp] theorem cost_nil : cost [] = 0 :=
  rfl

@[simp] theorem cost_cons (a : Assignment) (assignments : List Assignment) :
    cost (a :: assignments) = a.1.length + a.2.length + 2 + cost assignments :=
  rfl

/-- Texts one after another cost as much as both. -/
theorem cost_append (as bs : List Assignment) : cost (as ++ bs) = cost as + cost bs := by
  rw [cost, List.map_append, List.sum_append]
  rfl

/-- The characters that a state has taken of an assignment, with the one after it. -/
def State.held : State → ℕ
  | .between => 1
  | .keyword k | .afterKeyword k => k.length + 1
  | .beforeValue k => k.length + 2
  | .unquoted k v | .unquotedEscape k v | .quoted k v | .quotedEscape k v =>
    k.length + v.length + 2

/-- A character adds no more than itself. -/
theorem cost_step {s s' : State} {c : Char} {out : Option Assignment}
    (h : step s c = some (out, s')) : cost out.toList + s'.held ≤ s.held + 1 := by
  revert h
  fun_cases step s c with
  | case9 => exact nofun
  | _ =>
    rintro ⟨⟩
    simp [State.held]
    try omega

/-- Nothing is read that is not in the string. -/
theorem cost_le {s : State} {l : List Char} {assignments : List Assignment}
    (h : run s l = some assignments) : cost assignments ≤ l.length + s.held := by
  induction l generalizing s assignments with
  | nil =>
    cases s <;> simp only [run, finish, Option.some.injEq, reduceCtorEq] at h <;> subst h <;>
      simp [State.held]
  | cons c l ih =>
    rw [run, Option.bind_eq_bind, Option.bind_eq_some_iff] at h
    obtain ⟨⟨out, s'⟩, hstep, h⟩ := h
    rw [Option.bind_eq_bind, Option.bind_eq_some_iff] at h
    obtain ⟨rest, hrest, h⟩ := h
    rw [← Option.some.inj h, cost_append, List.length_cons]
    have hle := cost_step hstep
    have hrest := ih hrest
    omega

/-! ## Strings of assignments -/

/-- The string of assignments, with a blank between two. -/
def assignmentText : List Assignment → List Char
  | [] => []
  | [a] => a.1 ++ '=' :: a.2
  | a :: b :: rest => a.1 ++ '=' :: (a.2 ++ ' ' :: assignmentText (b :: rest))

/-- A keyword that ends nowhere but at its `=`. -/
def IsKeyword (k : List Char) : Prop :=
  k ≠ [] ∧ ∀ c ∈ k, isSpace c = false ∧ c ≠ '=' ∧ c ≠ '\x00'

instance (k : List Char) : Decidable (IsKeyword k) :=
  have : Decidable (∀ c ∈ k, isSpace c = false ∧ c ≠ '=' ∧ c ≠ '\x00') := List.decidableBAll _ k
  inferInstanceAs (Decidable (_ ∧ _))

/-- A value that is read as it is : no blanks, no backslashes and no quote at its start. -/
def IsPlain (v : List Char) : Prop :=
  (∀ c ∈ v, isSpace c = false ∧ c ≠ '\\') ∧ v.head? ≠ some '\''

instance (v : List Char) : Decidable (IsPlain v) :=
  have : Decidable (∀ c ∈ v, isSpace c = false ∧ c ≠ '\\') := List.decidableBAll _ v
  inferInstanceAs (Decidable (_ ∧ _))

/-- All values are plain, and only the last may be empty. -/
def PlainValues : List Assignment → Prop
  | [] => True
  | [a] => IsPlain a.2
  | a :: b :: rest => IsPlain a.2 ∧ a.2 ≠ [] ∧ PlainValues (b :: rest)

/-- The cost of assignments is the length of their text. -/
theorem length_assignmentText : ∀ (a : Assignment) (rest : List Assignment),
    (assignmentText (a :: rest)).length + 1 = cost (a :: rest)
  | a, [] => by
    simp [assignmentText]
    omega
  | a, b :: rest => by
    have ih := length_assignmentText b rest
    rw [cost_cons, ← ih, assignmentText]
    simp only [List.length_append, List.length_cons]
    omega

/-- Null characters are in the values alone. -/
theorem null_mem_assignmentText_iff : ∀ {as : List Assignment}, (∀ a ∈ as, IsKeyword a.1) →
    ('\x00' ∈ assignmentText as ↔ ∃ a ∈ as, '\x00' ∈ a.2)
  | [], _ => iff_of_false List.not_mem_nil fun ⟨_, ha, _⟩ => List.not_mem_nil ha
  | [a], hkeys => by
    have hkey : '\x00' ∉ a.1 := fun h => absurd rfl ((hkeys a List.mem_cons_self).2 _ h).2.2
    simp [assignmentText, hkey]
  | a :: b :: rest, hkeys => by
    obtain ⟨hkey, hkeys⟩ := List.forall_mem_cons.mp hkeys
    have hkey : '\x00' ∉ a.1 := fun h => absurd rfl (hkey.2 _ h).2.2
    have ih := null_mem_assignmentText_iff hkeys
    simp [assignmentText, hkey, ih]

/-! ## Reading words and values -/

theorem run_cons_of_step {s s' : State} {c : Char} (h : step s c = some (none, s'))
    (l : List Char) : run s (c :: l) = run s' l := by
  rw [run, h]
  change (run s' l).bind (fun rest => some rest) = _
  cases run s' l with
  | none => rfl
  | some _ => rfl

/-- Characters without blanks go to the keyword. -/
theorem run_keyword_append {w : List Char} (h : ∀ c ∈ w, isSpace c = false ∧ c ≠ '=')
    (k l : List Char) : run (.keyword k) (w ++ l) = run (.keyword (k ++ w)) l := by
  induction w generalizing k with
  | nil => rw [List.append_nil, List.nil_append]
  | cons c w ih =>
    obtain ⟨⟨hspace, heq⟩, hw⟩ := List.forall_mem_cons.mp h
    have hstep : step (.keyword k) c = some (none, .keyword (k ++ [c])) := by
      rw [step, if_neg heq, hspace]
      rfl
    rw [List.cons_append, run_cons_of_step hstep, ih hw, List.append_assoc, List.singleton_append]

/-- A keyword and its equals sign. -/
theorem run_between_keyword {k : List Char} (h : IsKeyword k) (l : List Char) :
    run .between (k ++ '=' :: l) = run (.beforeValue k) l := by
  obtain ⟨hne, hall⟩ := h
  cases k with
  | nil => exact absurd rfl hne
  | cons c k =>
    obtain ⟨⟨hspace, heq, -⟩, hk⟩ := List.forall_mem_cons.mp hall
    have hstep : step .between c = some (none, .keyword [c]) := by
      rw [step, hspace, if_neg heq]
      rfl
    have hend : step (.keyword (c :: k)) '=' = some (none, .beforeValue (c :: k)) := by
      rw [step, if_pos rfl]
    rw [List.cons_append, run_cons_of_step hstep,
      run_keyword_append fun c hc => ⟨(hk c hc).1, (hk c hc).2.1⟩]
    exact run_cons_of_step hend l

/-- Characters without blanks and escapes go to the value. -/
theorem run_unquoted_append {w : List Char} (h : ∀ c ∈ w, isSpace c = false ∧ c ≠ '\\')
    (k v l : List Char) : run (.unquoted k v) (w ++ l) = run (.unquoted k (v ++ w)) l := by
  induction w generalizing v with
  | nil => rw [List.append_nil, List.nil_append]
  | cons c w ih =>
    obtain ⟨⟨hspace, hescape⟩, hw⟩ := List.forall_mem_cons.mp h
    have hstep : step (.unquoted k v) c = some (none, .unquoted k (v ++ [c])) := by
      rw [step, hspace, if_neg hescape]
      rfl
    rw [List.cons_append, run_cons_of_step hstep, ih hw, List.append_assoc, List.singleton_append]

/-- A plain value is read as it stands. -/
theorem run_beforeValue {v : List Char} (h : IsPlain v) (hne : v ≠ []) (k l : List Char) :
    run (.beforeValue k) (v ++ l) = run (.unquoted k v) l := by
  cases v with
  | nil => exact absurd rfl hne
  | cons c v =>
    obtain ⟨⟨hspace, hescape⟩, hv⟩ := List.forall_mem_cons.mp h.1
    have hquote : c ≠ '\'' := fun heq => h.2 (congrArg some heq)
    have hstep : step (.beforeValue k) c = some (none, .unquoted k [c]) := by
      rw [step, hspace, if_neg hquote, if_neg hescape]
      rfl
    rw [List.cons_append, run_cons_of_step hstep, run_unquoted_append hv]
    rfl

/-- Plain values are read back. -/
theorem run_assignmentText : ∀ {as : List Assignment}, (∀ a ∈ as, IsKeyword a.1) →
    PlainValues as → run .between (assignmentText as) = some as
  | [], _, _ => rfl
  | [(k, v)], hkeys, h => by
    rw [assignmentText, run_between_keyword (hkeys _ List.mem_cons_self)]
    by_cases hne : v = []
    · subst hne
      rfl
    · rw [← List.append_nil v, run_beforeValue h hne, List.append_nil]
      rfl
  | (k, v) :: b :: rest, hkeys, h => by
    obtain ⟨hplain, hne, hrest⟩ := h
    obtain ⟨hkey, hkeys⟩ := List.forall_mem_cons.mp hkeys
    have hstep : step (.unquoted k v) ' ' = some (some (k, v), .between) := rfl
    rw [assignmentText, run_between_keyword hkey, run_beforeValue hplain hne, run, hstep]
    change (run .between (assignmentText (b :: rest))).bind (fun rest => some ((k, v) :: rest)) = _
    rw [run_assignmentText hkeys hrest]
    rfl

/-! ## Strings that are read in full -/

/-- What is read takes all of the string. -/
def IsTight (s : State) (l : List Char) (as : List Assignment) : Prop :=
  run s l = some as ∧ l.length + s.held ≤ cost as

/-- A text that is as long as its assignments spends no character on anything else. -/
theorem IsTight.cons {s : State} {c : Char} {l : List Char} {as : List Assignment}
    (h : IsTight s (c :: l) as) : ∃ out s' rest, step s c = some (out, s') ∧
      as = out.toList ++ rest ∧ IsTight s' l rest ∧ s.held + 1 ≤ cost out.toList + s'.held := by
  obtain ⟨hrun, hle⟩ := h
  rw [run, Option.bind_eq_bind, Option.bind_eq_some_iff] at hrun
  obtain ⟨⟨out, s'⟩, hstep, hrun⟩ := hrun
  rw [Option.bind_eq_bind, Option.bind_eq_some_iff] at hrun
  obtain ⟨rest, hrest, has⟩ := hrun
  have has := (Option.some.inj has).symm
  have hcost := cost_step hstep
  have hcosts := cost_le hrest
  rw [has, cost_append, List.length_cons] at hle
  exact ⟨out, s', rest, hstep, has, ⟨hrest, by omega⟩, by omega⟩

/-- The rest of a value, up to the end or to a blank. -/
theorem IsTight.unquoted {k v l : List Char} {as : List Assignment}
    (h : IsTight (.unquoted k v) l as) : ∃ w, (∀ c ∈ w, isSpace c = false ∧ c ≠ '\\') ∧
      ((l = w ∧ as = [(k, v ++ w)]) ∨ ∃ sep rest as', l = w ++ sep :: rest ∧
        as = (k, v ++ w) :: as' ∧ IsTight .between rest as') := by
  induction l generalizing v as with
  | nil => exact ⟨[], nofun, .inl ⟨rfl, by rw [List.append_nil]; exact (Option.some.inj h.1).symm⟩⟩
  | cons c l ih =>
    obtain ⟨out, s', rest, hstep, has, htight, hheld⟩ := h.cons
    rw [step] at hstep
    split at hstep
    · rename_i hspace
      cases hstep
      refine ⟨[], nofun, .inr ⟨c, l, rest, rfl, ?_, htight⟩⟩
      rw [has, List.append_nil]
      rfl
    · rename_i hspace
      split at hstep
      · cases hstep
        rw [State.held, Option.toList, cost_nil, State.held] at hheld
        omega
      · rename_i hescape
        cases hstep
        obtain ⟨w, hw, hcases⟩ := ih htight
        refine ⟨c :: w, List.forall_mem_cons.mpr ⟨⟨Bool.eq_false_iff.mpr hspace, hescape⟩, hw⟩, ?_⟩
        have hv : v ++ c :: w = v ++ [c] ++ w := by rw [List.append_assoc, List.singleton_append]
        rw [hv]
        rcases hcases with ⟨rfl, hrest⟩ | ⟨sep, rest', as', rfl, hrest, htight⟩
        · exact .inl ⟨rfl, has.trans hrest⟩
        · exact .inr ⟨sep, rest', as', rfl, has.trans hrest, htight⟩

/-- The value after an equals sign is plain, and not empty before the end. -/
theorem IsTight.beforeValue {k l : List Char} {as : List Assignment}
    (h : IsTight (.beforeValue k) l as) : ∃ v, IsPlain v ∧
      ((l = v ∧ as = [(k, v)]) ∨ ∃ sep rest as', v ≠ [] ∧ l = v ++ sep :: rest ∧
        as = (k, v) :: as' ∧ IsTight .between rest as') := by
  cases l with
  | nil => exact ⟨[], ⟨nofun, nofun⟩, .inl ⟨rfl, (Option.some.inj h.1).symm⟩⟩
  | cons c l =>
    obtain ⟨out, s', rest, hstep, has, htight, hheld⟩ := h.cons
    -- a blank, a quote and a backslash are read without being in the value
    have hloose : ∀ {s : State}, s.held = k.length + 2 →
        step (.beforeValue k) c ≠ some (none, s) := by
      intro s hs heq
      rw [heq] at hstep
      cases hstep
      rw [State.held, Option.toList, cost_nil, hs] at hheld
      omega
    by_cases hspace : isSpace c = true
    · exact absurd (by rw [step, if_pos hspace]) (hloose (s := .beforeValue k) rfl)
    by_cases hquote : c = '\''
    · exact absurd (by rw [step, if_neg hspace, if_pos hquote]) (hloose (s := .quoted k []) rfl)
    by_cases hescape : c = '\\'
    · exact absurd (by rw [step, if_neg hspace, if_neg hquote, if_pos hescape])
        (hloose (s := .unquotedEscape k []) rfl)
    rw [step, if_neg hspace, if_neg hquote, if_neg hescape] at hstep
    cases hstep
    obtain ⟨w, hw, hcases⟩ := htight.unquoted
    have hplain : IsPlain (c :: w) :=
      ⟨List.forall_mem_cons.mpr ⟨⟨Bool.eq_false_iff.mpr hspace, hescape⟩, hw⟩,
        fun heq => hquote (Option.some.inj heq)⟩
    refine ⟨c :: w, hplain, ?_⟩
    rcases hcases with ⟨rfl, hrest⟩ | ⟨sep, rest', as', rfl, hrest, htight⟩
    · exact .inl ⟨rfl, has.trans hrest⟩
    · exact .inr ⟨sep, rest', as', List.cons_ne_nil c w, rfl, has.trans hrest, htight⟩

/-- So a keyword is read up to its `=`. -/
theorem IsTight.keyword {k l : List Char} {as : List Assignment}
    (h : IsTight .between (k ++ '=' :: l) as) (hkey : IsKeyword k) :
    IsTight (.beforeValue k) l as := by
  obtain ⟨hrun, hle⟩ := h
  refine ⟨(run_between_keyword hkey l).symm.trans hrun, ?_⟩
  rw [List.length_append, List.length_cons, State.held] at hle
  rw [State.held]
  omega

/-- A string that is read in full, as its assignments in some order, has plain values. -/
theorem IsTight.plainValues : ∀ {as bs : List Assignment}, (∀ a ∈ as, IsKeyword a.1) →
    (as.map Prod.fst).Nodup → bs.Perm as → IsTight .between (assignmentText as) bs →
      PlainValues as
  | [], _, _, _, _, _ => trivial
  | (k, x) :: as, bs, hkeys, hnodup, hperm, h => by
    obtain ⟨hkey, hrest⟩ := List.forall_mem_cons.mp hkeys
    -- the value that is read is the one that the keyword has in the list
    have hvalue : ∀ {v : List Char} {bs' : List Assignment}, bs = (k, v) :: bs' →
        v = x ∧ bs'.Perm as := by
      intro v bs' hbs
      have hmem : (k, v) ∈ (k, x) :: as := hperm.subset (hbs ▸ List.mem_cons_self)
      have hv : v = x := by
        rcases List.mem_cons.mp hmem with heq | hmem
        · exact congrArg Prod.snd heq
        · exact absurd (List.mem_map_of_mem hmem) (List.nodup_cons.mp hnodup).1
      rw [hbs, hv] at hperm
      exact ⟨hv, hperm.cons_inv⟩
    cases as with
    | nil =>
      obtain ⟨v, hplain, ⟨rfl, -⟩ | ⟨sep, rest, bs', -, hl, hbs, -⟩⟩ := (h.keyword hkey).beforeValue
      · exact hplain
      · have hlength : x.length = (v ++ sep :: rest).length := congrArg List.length hl
        rw [(hvalue hbs).1, List.length_append, List.length_cons] at hlength
        omega
    | cons b as =>
      obtain ⟨v, hplain, ⟨hl, hbs⟩ | ⟨sep, rest, bs', hne, hl, hbs, htight⟩⟩ :=
        (h.keyword hkey).beforeValue
      · have hlength : (x ++ ' ' :: assignmentText (b :: as)).length = v.length :=
          congrArg List.length hl
        rw [(hvalue hbs).1, List.length_append, List.length_cons] at hlength
        omega
      · obtain ⟨rfl, hsame⟩ := hvalue hbs
        obtain ⟨-, rfl⟩ := List.cons.inj (List.append_cancel_left hl)
        exact ⟨hplain, hne, plainValues hrest (List.nodup_cons.mp hnodup).2 hsame htight⟩

/-! ## Reading back -/

/-- A sublist of assignments is cheaper than all by two for each assignment that it leaves out. -/
theorem cost_add_length_le_of_sublist {as bs : List Assignment} (h : as.Sublist bs) :
    cost as + bs.length ≤ cost bs + as.length := by
  induction h with
  | slnil => exact le_rfl
  | cons a h ih =>
    rw [cost_cons, List.length_cons]
    omega
  | cons_cons a h ih =>
    rw [cost_cons, cost_cons, List.length_cons, List.length_cons]
    omega

theorem cost_le_of_subset {as bs : List Assignment} (hnodup : as.Nodup) (h : as ⊆ bs) :
    cost as ≤ cost bs := by
  obtain ⟨cs, hperm, hsub⟩ := List.subperm_of_subset hnodup h
  have hcosts : cost cs = cost as := (hperm.map _).sum_eq
  have hle := cost_add_length_le_of_sublist hsub
  have hlength := hsub.length_le
  omega

/-- Assignments that have all of some others, and cost no more, are the same. -/
theorem perm_of_subset_of_cost_le {as bs : List Assignment} (hnodup : as.Nodup) (h : as ⊆ bs)
    (hcost : cost bs ≤ cost as) : bs.Perm as := by
  obtain ⟨cs, hperm, hsub⟩ := List.subperm_of_subset hnodup h
  have hcosts : cost cs = cost as := (hperm.map _).sum_eq
  have hle := cost_add_length_le_of_sublist hsub
  obtain rfl := hsub.eq_of_length_le (by omega)
  exact hperm

/-- Null characters end a string. -/
theorem takeWhile_eq_self_of_length {l : List Char}
    (h : l.length ≤ (l.takeWhile (· ≠ '\x00')).length) : l.takeWhile (· ≠ '\x00') = l :=
  (List.takeWhile_sublist _).eq_of_length_le h

/-- Plain values are read back. -/
theorem parse_of_plainValues {as : List Assignment} (hkeys : ∀ a ∈ as, IsKeyword a.1)
    (hplain : PlainValues as) (hnull : '\x00' ∉ assignmentText as) :
    parse (assignmentText as) = some as := by
  have hcut : (assignmentText as).takeWhile (· ≠ '\x00') = assignmentText as :=
    List.takeWhile_eq_self_iff.mpr fun c hc => decide_eq_true fun heq => hnull (heq ▸ hc)
  rw [parse, hcut, run_assignmentText hkeys hplain]

/-- The string of some assignments is read as these, or as others with all of these among them, if
and only if its values are plain and without null characters. -/
theorem parse_assignmentText {as : List Assignment} (hne : as ≠ [])
    (hkeys : ∀ a ∈ as, IsKeyword a.1) (hnodup : (as.map Prod.fst).Nodup) :
    (∃ bs, parse (assignmentText as) = some bs ∧ as ⊆ bs) ↔
      PlainValues as ∧ '\x00' ∉ assignmentText as := by
  have hlength : (assignmentText as).length + 1 = cost as := by
    cases as with
    | nil => contradiction
    | cons a as => exact length_assignmentText a as
  constructor
  · rintro ⟨bs, hparse, hsub⟩
    have hle := cost_le hparse
    have hcost := cost_le_of_subset hnodup.of_map hsub
    rw [State.held] at hle
    have hcut := takeWhile_eq_self_of_length (l := assignmentText as) (by omega)
    have hnull : '\x00' ∉ assignmentText as := fun hmem => by
      have hne := List.takeWhile_eq_self_iff.mp hcut _ hmem
      exact absurd rfl (of_decide_eq_true hne)
    rw [parse, hcut] at hparse
    rw [hcut] at hle
    refine ⟨IsTight.plainValues hkeys hnodup
      (perm_of_subset_of_cost_le hnodup.of_map hsub (by omega)) ⟨hparse, ?_⟩, hnull⟩
    rw [State.held]
    omega
  · rintro ⟨hplain, hnull⟩
    exact ⟨as, parse_of_plainValues hkeys hplain hnull, List.Subset.refl as⟩

/-! ## Values of keywords -/

theorem mem_of_lookup {as : List Assignment} {k v : List Char} (h : lookup as k = some v) :
    (k, v) ∈ as := by
  obtain ⟨before, after, hsplit, -⟩ := List.lookup_eq_some_iff.mp h
  rw [← List.mem_reverse, hsplit]
  exact List.mem_append_right _ List.mem_cons_self

/-- Where no keyword is there twice, an assignment is found. -/
theorem lookup_of_mem {as : List Assignment} (hnodup : (as.map Prod.fst).Nodup) {k v : List Char}
    (h : (k, v) ∈ as) : lookup as k = some v := by
  obtain ⟨before, after, hsplit⟩ := List.mem_iff_append.mp (List.mem_reverse.mpr h)
  refine List.lookup_eq_some_iff.mpr ⟨before, after, hsplit, fun a ha => ?_⟩
  rw [← List.nodup_reverse, ← List.map_reverse, hsplit, List.map_append, List.map_cons,
    List.nodup_append] at hnodup
  refine bne_iff_ne.mpr fun heq => ?_
  exact hnodup.2.2 _ (List.mem_map_of_mem ha) _ List.mem_cons_self heq.symm

theorem lookup_eq_none {as : List Assignment} {k : List Char} (h : ∀ v, (k, v) ∉ as) :
    lookup as k = none := by
  cases hlookup : lookup as k with
  | none => rfl
  | some v => exact absurd (mem_of_lookup hlookup) (h v)

end Conninfo

end CppLinq
