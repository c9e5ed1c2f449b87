import CppLinq.PredicateText
import CppLinq.ValueText

/-!
# The names in a text

A text of the generator is made of characters that it writes itself, placeholders, string
constants and quoted names (`Composed`). What matters where two pieces meet is that no name
is followed by a closing quote : the name would not end there.

The characters outside the quotes are `isClean` or `free`. With every character free every
text of the generator is composed so; where quotes are not free, the text has none but those of
its names and constants, and a scanner from left to right cannot mistake them.
-/

namespace CppLinq

/-! ## Pieces -/

/-- A character that begins no quoted piece and is no placeholder. -/
def isClean (c : Char) : Bool :=
  !(c == '\'' || c == '"' || c == '[' || c == '\x60' || c == '?')

/-- A character that closes the quotes of some dialect. -/
def isClosing (c : Char) : Bool :=
  c == '"' || c == ']' || c == '\x60'

/-- The text does not go on with a closing quote. -/
def Led (d : Dialect) (t : Text) : Prop :=
  t.head? ≠ some (.chr d.quotes.closing)

/-- The text is composed of clean or free characters, placeholders, constants and the
names `names`, none of them followed by a closing quote. -/
inductive Composed (d : Dialect) (free : Char → Prop) : Text → List String → Prop
  | nil : Composed d free [] []
  | chr {c : Char} {t : Text} {names : List String} :
      isClean c = true ∨ free c → Composed d free t names → Composed d free (.chr c :: t) names
  | hole {i : ℕ} {t : Text} {names : List String} :
      Composed d free t names → Composed d free (.hole i :: t) names
  | constant {cs : List Char} {t : Text} {names : List String} :
      '\'' ∉ cs → Composed d free t names →
      Composed d free (.chr '\'' :: (cs.map .chr ++ .chr '\'' :: t)) names
  | name {n : String} {t : Text} {names : List String} :
      Led d t → Composed d free t names → Composed d free (d.quoteId n ++ t) (n :: names)

section Rules

variable {d : Dialect} {free : Char → Prop} {t u : Text} {s : String} {names names' : List String}

theorem isClosing_closing (d : Dialect) : isClosing d.quotes.closing = true := by
  cases d <;> rfl

theorem led_nil : Led d [] := by
  simp [Led]

theorem Led.append (ht : Led d t) (hu : Led d u) : Led d (t ++ u) := by
  cases t with
  | nil => exact hu
  | cons => exact ht

/-- After a character that closes no quotes anything may follow. -/
theorem led_words (h : (s.toList.head?.any fun c => !isClosing c) = true) :
    Led d (lit s ++ u) := by
  unfold lit
  cases hs : s.toList with
  | nil =>
    rw [hs] at h
    contradiction
  | cons c cs =>
    rw [hs, List.head?_cons, Option.any_some] at h
    intro hhead
    rw [List.map_cons, List.cons_append, List.head?_cons, Option.some.injEq, Sym.chr.injEq] at hhead
    rw [hhead, isClosing_closing] at h
    contradiction

theorem led_lit (h : (s.toList.head?.any fun c => !isClosing c) = true) : Led d (lit s) := by
  have hled : Led d (lit s ++ []) := led_words h
  rwa [List.append_nil] at hled

theorem Composed.of_eq (h : Composed d free t names) (hn : names = names') :
    Composed d free t names' :=
  hn ▸ h

/-- Pieces follow each other, where the second does not go on with a quote. -/
theorem Composed.append (ht : Composed d free t names) (hu : Composed d free u names')
    (hled : Led d u) : Composed d free (t ++ u) (names ++ names') := by
  induction ht with
  | nil => exact hu
  | chr hc _ ih => exact .chr hc ih
  | hole _ ih => exact .hole ih
  | @constant cs t _ hcs _ ih =>
    rw [List.cons_append, List.append_assoc, List.cons_append]
    exact .constant hcs ih
  | name ht _ ih =>
    rw [List.append_assoc, List.cons_append]
    exact .name (ht.append hled) ih

/-- The characters of the string are clean, unless they are free. -/
def CleanUnless (free : Char → Prop) (s : String) : Prop :=
  ∀ c ∈ s.toList, isClean c = true ∨ free c

theorem cleanUnless_of_all (h : (s.toList.all isClean) = true) : CleanUnless free s :=
  fun c hc => Or.inl (List.all_eq_true.mp h c hc)

theorem CleanUnless.append {s' : String} (h : CleanUnless free s) (h' : CleanUnless free s') :
    CleanUnless free (s ++ s') := by
  intro c hc
  rw [String.toList_append, List.mem_append] at hc
  exact hc.elim (h c) (h' c)

theorem lit_append (s s' : String) : lit (s ++ s') = lit s ++ lit s' := by
  rw [lit, String.toList_append, List.map_append]
  rfl

/-- A string before the rest. -/
theorem Composed.free_words (hs : CleanUnless free s) (h : Composed d free t names) :
    Composed d free (lit s ++ t) names := by
  have hchars : ∀ cs : List Char, (∀ c ∈ cs, isClean c = true ∨ free c) →
      Composed d free (cs.map .chr ++ t) names := by
    intro cs hcs
    induction cs with
    | nil => exact h
    | cons c cs ih =>
      exact .chr (hcs c List.mem_cons_self) (ih fun a ha => hcs a (List.mem_cons_of_mem c ha))
  exact hchars s.toList hs

/-- A literal text before the rest. -/
theorem Composed.words (hs : (s.toList.all isClean) = true) (h : Composed d free t names) :
    Composed d free (lit s ++ t) names :=
  h.free_words (cleanUnless_of_all hs)

/-- Words are composed of no names. -/
theorem composed_lit (hs : (s.toList.all isClean) = true) : Composed d free (lit s) [] := by
  have h : Composed d free (lit s ++ []) [] := .words hs .nil
  rwa [List.append_nil] at h

/-- A quoted name is composed of itself. -/
theorem composed_quoteId (n : String) : Composed d free (d.quoteId n) [n] := by
  have h : Composed d free (d.quoteId n ++ []) [n] := .name led_nil .nil
  rwa [List.append_nil] at h

/-- A placeholder is composed of no names. -/
theorem composed_placeholder (i : ℕ) : Composed d free (placeholder i) [] :=
  .hole .nil

/-- A constant before the rest. -/
theorem Composed.constant_append (hs : (s.toList.all fun c => c != '\'') = true)
    (h : Composed d free t names) :
    Composed d free (lit "'" ++ (lit s ++ (lit "'" ++ t))) names := by
  refine .constant (fun hmem => ?_) h
  simpa using List.all_eq_true.mp hs _ hmem

/-- Texts separated by a literal one. -/
theorem composed_joinSep {α : Type*} {sep : String} (hsep : (sep.toList.all isClean) = true)
    (hhead : (sep.toList.head?.any fun c => !isClosing c) = true) {f : α → Text}
    {g : α → List String} :
    ∀ {items : List α}, (∀ a ∈ items, Composed d free (f a) (g a)) →
      Composed d free (joinSep (lit sep) (items.map f)) (items.flatMap g)
  | [], _ => .nil
  | [a], h => (h a List.mem_cons_self).of_eq (List.flatMap_singleton g a).symm
  | a :: b :: items, h => by
    have hrest := composed_joinSep hsep hhead fun c hc => h c (List.mem_cons_of_mem a hc)
    rw [List.map_cons, List.map_cons, joinSep, List.append_assoc, List.flatMap_cons]
    exact (h a List.mem_cons_self).append (hrest.words hsep) (led_words hhead)

end Rules

/-! ## Reading names -/

/-- The rest of a delimited identifier : a doubled closing quote stands for one, a single
one ends the identifier. -/
def readClosing (closing : Char) : List Char → Option (List Char × List Char)
  | [] => none
  | [c] => if c = closing then some ([], []) else none
  | c :: c' :: cs =>
    if c = closing then
      if c' = closing then (readClosing closing cs).map fun p => (closing :: p.1, p.2)
      else some ([], c' :: cs)
    else (readClosing closing (c' :: cs)).map fun p => (c :: p.1, p.2)

/-- Read a delimited identifier, and what follows it. -/
def readDelimited (q : Quotes) : List Char → Option (List Char × List Char)
  | [] => none
  | c :: cs => if c = q.opening then readClosing q.closing cs else none

section Reading

variable {q : Quotes} {rest : List Char}

theorem readClosing_cons {closing c : Char} (hc : c ≠ closing) {cs name : List Char}
    (h : readClosing closing cs = some (name, rest)) :
    readClosing closing (c :: cs) = some (c :: name, rest) := by
  cases cs with
  | nil => contradiction
  | cons c' cs => rw [readClosing, if_neg hc, h, Option.map_some]

theorem readClosing_end {closing : Char} (hrest : rest.head? ≠ some closing) :
    readClosing closing (closing :: rest) = some ([], rest) := by
  cases rest with
  | nil => rw [readClosing, if_pos rfl]
  | cons c cs =>
    have hc : c ≠ closing := fun h => hrest (by rw [List.head?_cons, h])
    rw [readClosing, if_pos rfl, if_neg hc]

/-- An identifier with its closing quotes doubled is read back, whatever its characters. -/
theorem readClosing_doubled {closing : Char} (hrest : rest.head? ≠ some closing)
    (name : List Char) :
    readClosing closing ((name.flatMap fun c => if c = closing then [c, c] else [c]) ++
      closing :: rest) = some (name, rest) := by
  induction name with
  | nil => exact readClosing_end hrest
  | cons c name ih =>
    rw [List.flatMap_cons, List.append_assoc]
    by_cases hc : c = closing
    · subst hc
      rw [if_pos rfl, List.cons_append, List.singleton_append, readClosing, if_pos rfl, if_pos rfl,
        ih, Option.map_some]
    · rw [if_neg hc, List.singleton_append]
      exact readClosing_cons hc ih

/-- A quoted name is read back, up to what follows. -/
theorem readDelimited_quoteChars (hrest : rest.head? ≠ some q.closing) (name : List Char) :
    readDelimited q (quoteChars q name ++ rest) = some (name, rest) := by
  rw [quoteChars, List.cons_append, List.cons_append, List.append_assoc, List.singleton_append,
    readDelimited, if_pos rfl, readClosing_doubled hrest]

end Reading

/-! ## Reading a text from left to right -/

/-- Where a scanner is : between pieces, inside a constant, inside a name, or after a
closing quote that may be the first of two. -/
inductive ScanMode
  | text
  | constant
  | name (acc : List Char)
  | nameEnd (acc : List Char)

/-- The mode after a character between pieces. -/
def ScanMode.enter (q : Quotes) (c : Char) : ScanMode :=
  if c = q.opening then .name [] else if c = '\'' then .constant else .text

/-- The quoted identifiers of a text, string constants skipped. -/
def scanNames (q : Quotes) : ScanMode → List Char → List (List Char)
  | .text, [] | .constant, [] | .name _, [] => []
  | .nameEnd acc, [] => [acc]
  | .text, c :: cs => scanNames q (.enter q c) cs
  | .constant, c :: cs => scanNames q (if c = '\'' then .text else .constant) cs
  | .name acc, c :: cs =>
    scanNames q (if c = q.closing then .nameEnd acc else .name (acc ++ [c])) cs
  | .nameEnd acc, c :: cs =>
    if c = q.closing then scanNames q (.name (acc ++ [c])) cs
    else acc :: scanNames q (.enter q c) cs

section Scanning

variable {q : Quotes}

theorem scanNames_nameEnd {acc cs : List Char} (hcs : cs.head? ≠ some q.closing) :
    scanNames q (.nameEnd acc) cs = acc :: scanNames q .text cs := by
  cases cs with
  | nil => rfl
  | cons c cs =>
    have hc : c ≠ q.closing := fun h => hcs (by rw [List.head?_cons, h])
    simp only [scanNames, if_neg hc]

theorem scanNames_doubled (acc name rest : List Char) :
    scanNames q (.name acc) ((name.flatMap fun c => if c = q.closing then [c, c] else [c]) ++
      q.closing :: rest) = scanNames q (.nameEnd (acc ++ name)) rest := by
  induction name generalizing acc with
  | nil => rw [List.flatMap_nil, List.nil_append, scanNames, if_pos rfl, List.append_nil]
  | cons c name ih =>
    have hacc : acc ++ c :: name = acc ++ [c] ++ name := by simp
    rw [List.flatMap_cons, List.append_assoc, hacc]
    by_cases hc : c = q.closing
    · rw [if_pos hc, List.cons_append, List.singleton_append, scanNames, if_pos hc, scanNames,
        if_pos hc, ih]
    · rw [if_neg hc, List.singleton_append, scanNames, if_neg hc, ih]

/-- The scanner finds a quoted name as it was. -/
theorem scanNames_quoteChars (name : List Char) {rest : List Char}
    (hrest : rest.head? ≠ some q.closing) :
    scanNames q .text (quoteChars q name ++ rest) = name :: scanNames q .text rest := by
  rw [quoteChars, List.cons_append, List.cons_append, List.append_assoc, List.singleton_append,
    scanNames, ScanMode.enter, if_pos rfl, scanNames_doubled, List.nil_append,
    scanNames_nameEnd hrest]

/-- The scanner passes over a constant. -/
theorem scanNames_constant {cs rest : List Char} (hcs : '\'' ∉ cs) :
    scanNames q .constant (cs ++ '\'' :: rest) = scanNames q .text rest := by
  induction cs with
  | nil => rfl
  | cons c cs ih =>
    rw [List.mem_cons, not_or] at hcs
    rw [List.cons_append, scanNames, if_neg (Ne.symm hcs.1), ih hcs.2]

end Scanning

/-- The names stand in the text one after another : each is read back from where it stands,
and the next are behind it. -/
def ReadsNames (q : Quotes) : List Char → List String → Prop
  | _, [] => True
  | text, n :: names => ∃ before after,
      text = before ++ (quoteChars q n.toList ++ after) ∧
      readDelimited q (quoteChars q n.toList ++ after) = some (n.toList, after) ∧
      ReadsNames q after names

theorem ReadsNames.append_left {q : Quotes} {text : List Char} {names : List String}
    (h : ReadsNames q text names) (cs : List Char) : ReadsNames q (cs ++ text) names := by
  cases names with
  | nil => trivial
  | cons n names =>
    obtain ⟨before, after, rfl, hread, hnames⟩ := h
    exact ⟨cs ++ before, after, (List.append_assoc _ _ _).symm, hread, hnames⟩

/-! ## What a composed text reads -/

section Composed

variable {d : Dialect} {free : Char → Prop} {t : Text} {names : List String}

theorem write_chr_cons (d : Dialect) (c : Char) (t : Text) :
    d.write (.chr c :: t) = c :: d.write t :=
  rfl

theorem write_hole_cons (d : Dialect) (i : ℕ) (t : Text) :
    d.write (.hole i :: t) = '?' :: d.write t :=
  rfl

theorem write_map_chr (d : Dialect) (cs : List Char) : d.write (cs.map .chr) = cs :=
  render_map_chr _ cs

/-- A text goes on with a closing quote only if it does so as written. -/
theorem Led.write (h : Led d t) : (d.write t).head? ≠ some d.quotes.closing := by
  cases t with
  | nil => simp [Dialect.write]
  | cons s t =>
    cases s with
    | chr c =>
      rw [write_chr_cons, List.head?_cons]
      intro hc
      injection hc with hc
      exact h (by rw [List.head?_cons, hc])
    | hole i =>
      rw [write_hole_cons, List.head?_cons]
      cases d <;> simp [Dialect.quotes]

/-- The names are read back where they stand. -/
theorem Composed.readsNames (h : Composed d free t names) :
    ReadsNames d.quotes (d.write t) names := by
  induction h with
  | nil => trivial
  | chr _ _ ih => exact ih.append_left [_]
  | hole _ ih => exact ih.append_left ['?']
  | @constant cs t _ _ _ ih =>
    rw [write_chr_cons, write_append, write_chr_cons]
    exact ((ih.append_left ['\'']).append_left _).append_left ['\'']
  | @name n t _ hled _ ih =>
    rw [write_append, write_quoteId]
    exact ⟨[], d.write t, rfl, readDelimited_quoteChars hled.write _, ih⟩

/-- A character that begins no name and no constant. -/
def Unquoting (d : Dialect) (c : Char) : Prop :=
  c ≠ d.quotes.opening ∧ c ≠ '\''

theorem unquoting_of_isClean {c : Char} (hc : isClean c = true) (d : Dialect) :
    Unquoting d c := by
  simp only [isClean, Bool.not_eq_true', Bool.or_eq_false_iff, beq_eq_false_iff_ne] at hc
  obtain ⟨⟨⟨⟨hquote, hdouble⟩, hbracket⟩, hback⟩, -⟩ := hc
  refine ⟨?_, hquote⟩
  cases d <;> assumption

/-- A character that opens nothing leaves the scanner in the text. -/
theorem Unquoting.enter {c : Char} (hc : Unquoting d c) : ScanMode.enter d.quotes c = .text := by
  rw [ScanMode.enter, if_neg hc.1, if_neg hc.2]

/-- Where no free character begins a name or a constant, a scan of the whole text finds the
names, and no others. -/
theorem Composed.scanNames_eq (h : Composed d (Unquoting d) t names) :
    scanNames d.quotes .text (d.write t) = names.map String.toList := by
  induction h with
  | nil => rfl
  | chr hc _ ih =>
    have hc := hc.elim (fun hc => unquoting_of_isClean hc d) id
    rw [write_chr_cons, scanNames, hc.enter, ih]
  | hole _ ih =>
    have hquestion : ScanMode.enter d.quotes '?' = .text := by
      cases d <;> rfl
    rw [write_hole_cons, scanNames, hquestion, ih]
  | @constant cs t _ hcs _ ih =>
    have hquote : ScanMode.enter d.quotes '\'' = .constant := by
      cases d <;> rfl
    rw [write_chr_cons, write_append, write_chr_cons, write_map_chr, scanNames, hquote,
      scanNames_constant hcs, ih]
  | name hled _ ih =>
    rw [write_append, write_quoteId, scanNames_quoteChars _ hled.write, ih, List.map_cons]

end Composed

end CppLinq
