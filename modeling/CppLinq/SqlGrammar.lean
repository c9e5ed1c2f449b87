import Mathlib.Logic.Function.Iterate
import Mathlib.Data.List.Basic

/-!
# The grammar of predicates

Predicates with the usual ranks of SQL (`Rank`) : `OR` binds loosest, then `AND`, then
`NOT`, then the comparisons with `IS NULL`, `BETWEEN`, `LIKE` and `IN`, then the primaries,
which are columns, parameters, function calls and parentheses. The comparisons share one
rank and associate to the left. `Derives` is the grammar, over any type of trees.

`parse` reads a predicate from left to right with a stack of open parentheses. It finds
every derivation (`parse_of_derives`), so a text has one tree at most (`Derives.unique`).
-/

namespace CppLinq

/-- The comparison operators. -/
inductive Comparison
  | eq | ne | lt | le | gt | ge
  deriving DecidableEq, Repr

/-- A token. The name of a called function comes with its opening parenthesis, and a
column without table has the table `""`. -/
inductive Token
  | column (table name : String)
  | param (k : ℕ)
  | call (name : String)
  | op (o : Comparison)
  | or | and | not | is | null | between | like | in_
  | lparen | rparen | comma
  deriving DecidableEq, Repr

/-- The trees that predicates are read into. The flag of a predicate is set for its
negated form, as in `IS NOT NULL`. -/
structure Predicates (ε : Type) where
  column : String → String → ε
  /-- The parameter with a number, where there is one. -/
  param : ℕ → Option ε
  call : String → List ε → ε
  cmp : ε → Comparison → ε → ε
  or : ε → ε → ε
  and : ε → ε → ε
  not : ε → ε
  isNull : Bool → ε → ε
  between : Bool → ε → ε → ε → ε
  like : Bool → ε → ε → ε
  inList : Bool → ε → List ε → ε

/-- How tightly an operator binds. -/
inductive Rank
  | disj | conj | neg | pred | prim
  /-- Predicates separated by commas. -/
  | items

/-- The `NOT` of a negated predicate. -/
def notIf (isNot : Bool) : List Token :=
  if isNot then [.not] else []

variable {ε : Type}

/-- The tokens derive the trees : one tree, or those of the items. -/
inductive Derives (A : Predicates ε) : Rank → List Token → List ε → Prop
  | or {ts us a b} : Derives A .disj ts [a] → Derives A .conj us [b] →
      Derives A .disj (ts ++ .or :: us) [A.or a b]
  | disj {ts a} : Derives A .conj ts [a] → Derives A .disj ts [a]
  | and {ts us a b} : Derives A .conj ts [a] → Derives A .neg us [b] →
      Derives A .conj (ts ++ .and :: us) [A.and a b]
  | conj {ts a} : Derives A .neg ts [a] → Derives A .conj ts [a]
  | not {ts a} : Derives A .neg ts [a] → Derives A .neg (.not :: ts) [A.not a]
  | neg {ts a} : Derives A .pred ts [a] → Derives A .neg ts [a]
  | cmp {ts us a b o} : Derives A .pred ts [a] → Derives A .prim us [b] →
      Derives A .pred (ts ++ .op o :: us) [A.cmp a o b]
  | isNull {ts a} (isNot : Bool) : Derives A .pred ts [a] →
      Derives A .pred (ts ++ .is :: (notIf isNot ++ [.null])) [A.isNull isNot a]
  | between {ts us vs a b c} (isNot : Bool) : Derives A .pred ts [a] →
      Derives A .prim us [b] → Derives A .prim vs [c] →
      Derives A .pred (ts ++ (notIf isNot ++ .between :: (us ++ .and :: vs)))
        [A.between isNot a b c]
  | like {ts us a b} (isNot : Bool) : Derives A .pred ts [a] → Derives A .prim us [b] →
      Derives A .pred (ts ++ (notIf isNot ++ .like :: us)) [A.like isNot a b]
  | inList {ts us a bs} (isNot : Bool) : Derives A .pred ts [a] → Derives A .items us bs →
      Derives A .pred (ts ++ (notIf isNot ++ .in_ :: .lparen :: (us ++ [.rparen])))
        [A.inList isNot a bs]
  | pred {ts a} : Derives A .prim ts [a] → Derives A .pred ts [a]
  | column (table name : String) : Derives A .prim [.column table name] [A.column table name]
  | param {k a} : A.param k = some a → Derives A .prim [.param k] [a]
  | group {ts a} : Derives A .disj ts [a] → Derives A .prim (.lparen :: (ts ++ [.rparen])) [a]
  | callEmpty (f : String) : Derives A .prim [.call f, .rparen] [A.call f []]
  | call {ts as} (f : String) : Derives A .items ts as →
      Derives A .prim (.call f :: (ts ++ [.rparen])) [A.call f as]
  | item {ts a} : Derives A .disj ts [a] → Derives A .items ts [a]
  | items {ts us as a} : Derives A .items ts as → Derives A .disj us [a] →
      Derives A .items (ts ++ .comma :: us) (as ++ [a])

/-! ## The parser -/

/-- What has been read of a predicate, and what it waits for. -/
inductive Pred (ε : Type)
  | empty
  | done (e : ε)
  /-- After `IS`, or `IS NOT`. -/
  | is (isNot : Bool) (e : ε)
  /-- After the `NOT` of a negated predicate. -/
  | negated (e : ε)
  /-- A primary completes it. -/
  | operand (k : ε → ε)
  /-- The lower bound of a `BETWEEN`, and then the `AND` and the upper bound. -/
  | lowBound (k : ε → ε → ε)
  | andBound (k : ε → ε)
  /-- The list of an `IN`, from its parenthesis on. -/
  | list (k : List ε → ε)

/-- What has been read since a parenthesis opened : the operands of `OR` and of `AND` so
far, the pending `NOT`s, and the predicate. -/
structure Level (ε : Type) where
  disj : Option ε
  conj : Option ε
  nots : ℕ
  pred : Pred ε

/-- Nothing has been read. -/
def Level.fresh : Level ε :=
  ⟨none, none, 0, .empty⟩

/-- Nothing stands between the parentheses of a level yet. -/
def Level.isFresh : Level ε → Bool
  | ⟨none, none, 0, .empty⟩ => true
  | _ => false

/-- An open parenthesis : a group, or items whose list leads back to a level. -/
inductive Frame (ε : Type)
  | group (outer : Level ε)
  | items (finish : List ε → Option (Level ε)) (read : List ε)

/-- Where a parser is : the level it reads, and those around it. -/
structure ParseState (ε : Type) where
  level : Level ε
  frames : List (Frame ε)

/-- The operands so far with one more. -/
def combine (f : ε → ε → ε) : Option ε → ε → ε
  | none, e => e
  | some d, e => f d e

/-- The operand of `AND` that ends here. -/
def Level.conjunct (A : Predicates ε) (l : Level ε) : Option ε :=
  match l.pred with
  | .done e => some (combine A.and l.conj (A.not^[l.nots] e))
  | _ => none

/-- The tree of the level, if it may end here. -/
def Level.close (A : Predicates ε) (l : Level ε) : Option ε :=
  (l.conjunct A).map (combine A.or l.disj)

/-- The level after a primary. -/
def Level.feed (l : Level ε) (e : ε) : Option (Level ε) :=
  match l.pred with
  | .empty => some { l with pred := .done e }
  | .operand k => some { l with pred := .done (k e) }
  | .lowBound k => some { l with pred := .andBound (k e) }
  | _ => none

/-- The level after a token that continues a predicate : what it negates, or what follows
`e` or a negated `e`. -/
def Level.continue (l : Level ε) (k : Bool → ε → Pred ε) : Option (Level ε) :=
  match l.pred with
  | .done e => some { l with pred := k false e }
  | .negated e => some { l with pred := k true e }
  | _ => none

namespace ParseState

/-- The parser takes a token. -/
def step (A : Predicates ε) (p : ParseState ε) : Token → Option (ParseState ε)
  | .column table name => (p.level.feed (A.column table name)).map (⟨·, p.frames⟩)
  | .param k => do
    let e ← A.param k
    (p.level.feed e).map (⟨·, p.frames⟩)
  | .call f => some ⟨.fresh, .items (fun as => p.level.feed (A.call f as)) [] :: p.frames⟩
  | .op o =>
    match p.level.pred with
    | .done e => some ⟨{ p.level with pred := .operand (A.cmp e o) }, p.frames⟩
    | _ => none
  | .or => do
    let e ← p.level.close A
    return ⟨⟨some e, none, 0, .empty⟩, p.frames⟩
  | .and =>
    match p.level.pred with
    | .andBound k => some ⟨{ p.level with pred := .operand k }, p.frames⟩
    | _ => do
      let e ← p.level.conjunct A
      return ⟨⟨p.level.disj, some e, 0, .empty⟩, p.frames⟩
  | .not =>
    match p.level.pred with
    | .empty => some ⟨{ p.level with nots := p.level.nots + 1 }, p.frames⟩
    | .done e => some ⟨{ p.level with pred := .negated e }, p.frames⟩
    | .is false e => some ⟨{ p.level with pred := .is true e }, p.frames⟩
    | _ => none
  | .is =>
    match p.level.pred with
    | .done e => some ⟨{ p.level with pred := .is false e }, p.frames⟩
    | _ => none
  | .null =>
    match p.level.pred with
    | .is isNot e => some ⟨{ p.level with pred := .done (A.isNull isNot e) }, p.frames⟩
    | _ => none
  | .between =>
    (p.level.continue fun isNot e => .lowBound (A.between isNot e)).map (⟨·, p.frames⟩)
  | .like => (p.level.continue fun isNot e => .operand (A.like isNot e)).map (⟨·, p.frames⟩)
  | .in_ => (p.level.continue fun isNot e => .list (A.inList isNot e)).map (⟨·, p.frames⟩)
  | .lparen =>
    match p.level.pred with
    | .list k =>
      some ⟨.fresh, .items (fun as => if as.isEmpty then none
        else some { p.level with pred := .done (k as) }) [] :: p.frames⟩
    | _ => some ⟨.fresh, .group p.level :: p.frames⟩
  | .rparen =>
    match p.frames with
    | .items finish as :: S =>
      if as.isEmpty && p.level.isFresh then (finish []).map (⟨·, S⟩)
      else do
        let e ← p.level.close A
        (finish (as ++ [e])).map (⟨·, S⟩)
    | .group outer :: S => do
      let e ← p.level.close A
      (outer.feed e).map (⟨·, S⟩)
    | [] => none
  | .comma =>
    match p.frames with
    | .items finish as :: S => do
      let e ← p.level.close A
      return ⟨.fresh, .items finish (as ++ [e]) :: S⟩
    | _ => none

/-- Read tokens. -/
def run (A : Predicates ε) : ParseState ε → List Token → Option (ParseState ε)
  | p, [] => some p
  | p, t :: ts => (p.step A t).bind fun q => run A q ts

end ParseState

/-- The tree of a text, if it is a predicate. -/
def parse (A : Predicates ε) (ts : List Token) : Option ε := do
  let p ← ParseState.run A ⟨.fresh, []⟩ ts
  if p.frames.isEmpty then p.level.close A else none

namespace ParseState

variable {A : Predicates ε}

@[simp] theorem run_nil (p : ParseState ε) : run A p [] = some p :=
  rfl

theorem run_cons (p : ParseState ε) (t : Token) (ts : List Token) :
    run A p (t :: ts) = (p.step A t).bind fun q => run A q ts :=
  rfl

/-- Tokens are read one after another. -/
theorem run_append (p : ParseState ε) (ts us : List Token) :
    run A p (ts ++ us) = (run A p ts).bind fun q => run A q us := by
  induction ts generalizing p with
  | nil => rfl
  | cons t ts ih =>
    rw [List.cons_append, run_cons, run_cons, Option.bind_assoc]
    exact congrArg _ (funext ih)

/-- Read `ts` and then `us`. -/
theorem run_append_of_eq {p q : ParseState ε} {ts us : List Token} (h : run A p ts = some q) :
    run A p (ts ++ us) = run A q us := by
  rw [run_append, h, Option.bind_some]

/-- Read `ts` and then one more token. -/
theorem run_append_cons {p q r : ParseState ε} {ts us : List Token} {t : Token}
    (h : run A p ts = some q) (ht : q.step A t = some r) :
    run A p (ts ++ t :: us) = run A r us := by
  rw [run_append_of_eq h, run_cons, ht, Option.bind_some]

end ParseState

/-! ## The parser finds every derivation -/

section Completeness

open ParseState

variable {A : Predicates ε}

/-- What reading tokens of a rank does to the parser. -/
def Rank.Reads (A : Predicates ε) (ts : List Token) (as : List ε) : Rank → Prop
  | .disj => ∀ S, ∃ l a, as = [a] ∧ run A ⟨.fresh, S⟩ ts = some ⟨l, S⟩ ∧ l.close A = some a
  | .conj => ∀ disj S, ∃ l a, as = [a] ∧
      run A ⟨⟨disj, none, 0, .empty⟩, S⟩ ts = some ⟨l, S⟩ ∧ l.disj = disj ∧
      l.conjunct A = some a
  | .neg => ∀ disj conj nots S, ∃ j e, as = [A.not^[j] e] ∧
      run A ⟨⟨disj, conj, nots, .empty⟩, S⟩ ts = some ⟨⟨disj, conj, nots + j, .done e⟩, S⟩
  | .pred => ∀ disj conj nots S, ∃ a, as = [a] ∧
      run A ⟨⟨disj, conj, nots, .empty⟩, S⟩ ts = some ⟨⟨disj, conj, nots, .done a⟩, S⟩
  | .prim => ∃ a, as = [a] ∧ ∀ l l' S, l.feed a = some l' → run A ⟨l, S⟩ ts = some ⟨l', S⟩
  | .items => ∀ finish S, ∃ init l a, as = init ++ [a] ∧
      run A ⟨.fresh, .items finish [] :: S⟩ ts = some ⟨l, .items finish init :: S⟩ ∧
      l.close A = some a

/-- A predicate that is done closes with the operands before it. -/
theorem Level.close_eq {l : Level ε} {a : ε} (h : l.conjunct A = some a) :
    l.close A = some (combine A.or l.disj a) := by
  rw [close, h, Option.map_some]

theorem Level.isFresh_of_close {l : Level ε} {a : ε} (h : l.close A = some a) :
    l.isFresh = false := by
  obtain ⟨disj, conj, nots, pred⟩ := l
  cases pred with
  | done e => cases disj <;> cases conj <;> cases nots <;> rfl
  | _ => simp [close, conjunct] at h

theorem step_or {l : Level ε} {a : ε} (h : l.close A = some a) (S : List (Frame ε)) :
    step A ⟨l, S⟩ .or = some ⟨⟨some a, none, 0, .empty⟩, S⟩ := by
  rw [step, h]
  rfl

theorem step_and {l : Level ε} {a : ε} (h : l.conjunct A = some a) (S : List (Frame ε)) :
    step A ⟨l, S⟩ .and = some ⟨⟨l.disj, some a, 0, .empty⟩, S⟩ := by
  obtain ⟨disj, conj, nots, pred⟩ := l
  cases pred with
  | done e => rw [← h]; rfl
  | _ => simp [Level.conjunct] at h

theorem step_rparen_items {l : Level ε} {a : ε} (h : l.close A = some a)
    (finish : List ε → Option (Level ε)) (as : List ε) (S : List (Frame ε)) :
    step A ⟨l, .items finish as :: S⟩ .rparen = (finish (as ++ [a])).map (⟨·, S⟩) := by
  simp [step, h, Level.isFresh_of_close h]

theorem step_rparen_group {l : Level ε} {a : ε} (h : l.close A = some a) (outer : Level ε)
    (S : List (Frame ε)) :
    step A ⟨l, .group outer :: S⟩ .rparen = (outer.feed a).map (⟨·, S⟩) := by
  simp [step, h]

theorem step_comma {l : Level ε} {a : ε} (h : l.close A = some a)
    (finish : List ε → Option (Level ε)) (as : List ε) (S : List (Frame ε)) :
    step A ⟨l, .items finish as :: S⟩ .comma = some ⟨.fresh, .items finish (as ++ [a]) :: S⟩ := by
  simp [step, h]

/-- An opening parenthesis is a group for a level that waits for a primary. -/
theorem step_lparen {l l' : Level ε} {a : ε} (h : l.feed a = some l') (S : List (Frame ε)) :
    step A ⟨l, S⟩ .lparen = some ⟨.fresh, .group l :: S⟩ := by
  obtain ⟨disj, conj, nots, pred⟩ := l
  cases pred with
  | list k => simp [Level.feed] at h
  | _ => rfl

/-- Continue a predicate after the `NOT` that may negate it. -/
theorem run_notIf {disj conj : Option ε} {nots : ℕ} {a : ε} {S : List (Frame ε)}
    (isNot : Bool) {t : Token} {us : List Token} {k : Bool → ε → Pred ε}
    (ht : ∀ p : ParseState ε, p.step A t = (p.level.continue k).map (⟨·, p.frames⟩)) :
    run A ⟨⟨disj, conj, nots, .done a⟩, S⟩ (notIf isNot ++ t :: us) =
      run A ⟨⟨disj, conj, nots, k isNot a⟩, S⟩ us := by
  cases isNot with
  | false =>
    rw [notIf, if_neg Bool.false_ne_true, List.nil_append, run_cons, ht]
    rfl
  | true =>
    have hnot : step A ⟨⟨disj, conj, nots, .done a⟩, S⟩ .not =
      some ⟨⟨disj, conj, nots, .negated a⟩, S⟩ := rfl
    rw [notIf, if_pos rfl, List.singleton_append, run_cons, hnot, Option.bind_some, run_cons, ht]
    rfl

/-- What the grammar derives, the parser reads. -/
theorem reads_of_derives {r : Rank} {ts : List Token} {as : List ε} (h : Derives A r ts as) :
    r.Reads A ts as := by
  induction h with
  | or _ _ iha ihb =>
    intro S
    obtain ⟨l, a, ha, hrun, hclose⟩ := iha S
    obtain ⟨m, b, hb, hrun', hdisj, hconj⟩ := ihb (some a) S
    injection ha with ha
    injection hb with hb
    subst ha hb
    refine ⟨m, _, rfl, ?_, ?_⟩
    · exact (run_append_cons hrun (step_or hclose S)).trans hrun'
    · rw [Level.close_eq hconj, hdisj]
      rfl
  | disj _ ih =>
    intro S
    obtain ⟨l, a, ha, hrun, hdisj, hconj⟩ := ih none S
    refine ⟨l, a, ha, hrun, ?_⟩
    rw [Level.close_eq hconj, hdisj]
    rfl
  | and _ _ iha ihb =>
    intro disj S
    obtain ⟨l, a, ha, hrun, hdisj, hconj⟩ := iha disj S
    obtain ⟨j, e, he, hrun'⟩ := ihb disj (some a) 0 S
    injection ha with ha
    injection he with he
    subst ha he
    refine ⟨_, _, rfl, (run_append_cons hrun (step_and hconj S)).trans (hdisj ▸ hrun'), ?_, ?_⟩
    · exact hdisj
    · rw [Level.conjunct, Nat.zero_add]
      rfl
  | conj _ ih =>
    intro disj S
    obtain ⟨j, e, he, hrun⟩ := ih disj none 0 S
    exact ⟨_, _, he, hrun, rfl, by rw [Level.conjunct, Nat.zero_add]; rfl⟩
  | not _ ih =>
    intro disj conj nots S
    obtain ⟨j, e, he, hrun⟩ := ih disj conj (nots + 1) S
    injection he with he
    subst he
    refine ⟨j + 1, e, by rw [Function.iterate_succ_apply'], ?_⟩
    rw [run_cons]
    simpa [step, Nat.add_assoc, Nat.add_comm 1] using hrun
  | neg _ ih =>
    intro disj conj nots S
    obtain ⟨a, ha, hrun⟩ := ih disj conj nots S
    exact ⟨0, a, ha, hrun⟩
  | cmp _ _ iha ihb =>
    intro disj conj nots S
    obtain ⟨a, ha, hrun⟩ := iha disj conj nots S
    obtain ⟨b, hb, hrun'⟩ := ihb
    injection ha with ha
    injection hb with hb
    subst ha hb
    exact ⟨_, rfl, (run_append_cons hrun rfl).trans (hrun' _ _ S rfl)⟩
  | isNull isNot _ ih =>
    intro disj conj nots S
    obtain ⟨a, ha, hrun⟩ := ih disj conj nots S
    injection ha with ha
    subst ha
    refine ⟨_, rfl, (run_append_cons hrun rfl).trans ?_⟩
    cases isNot <;> rfl
  | between isNot _ _ _ iha ihb ihc =>
    intro disj conj nots S
    obtain ⟨a, ha, hrun⟩ := iha disj conj nots S
    obtain ⟨b, hb, hrunb⟩ := ihb
    obtain ⟨c, hc, hrunc⟩ := ihc
    injection ha with ha
    injection hb with hb
    injection hc with hc
    subst ha hb hc
    refine ⟨_, rfl, (run_append_of_eq hrun).trans ?_⟩
    rw [run_notIf isNot fun _ => rfl, run_append_cons (hrunb _ _ S rfl) rfl]
    exact hrunc _ _ S rfl
  | like isNot _ _ iha ihb =>
    intro disj conj nots S
    obtain ⟨a, ha, hrun⟩ := iha disj conj nots S
    obtain ⟨b, hb, hrunb⟩ := ihb
    injection ha with ha
    injection hb with hb
    subst ha hb
    refine ⟨_, rfl, (run_append_of_eq hrun).trans ?_⟩
    rw [run_notIf isNot fun _ => rfl]
    exact hrunb _ _ S rfl
  | inList isNot _ _ iha ihb =>
    intro disj conj nots S
    obtain ⟨a, ha, hrun⟩ := iha disj conj nots S
    injection ha with ha
    subst ha
    refine ⟨_, rfl, (run_append_of_eq hrun).trans ?_⟩
    rw [run_notIf isNot fun _ => rfl, run_cons]
    obtain ⟨init, l, b, rfl, hrunb, hclose⟩ := ihb _ S
    refine (run_append_cons hrunb ((step_rparen_items hclose _ init S).trans ?_)).trans rfl
    rw [if_neg (by simp)]
    rfl
  | pred _ ih =>
    intro disj conj nots S
    obtain ⟨a, ha, hrun⟩ := ih
    exact ⟨a, ha, hrun _ _ S rfl⟩
  | column table name =>
    exact ⟨_, rfl, fun l l' S h => by simp [run_cons, step, h]⟩
  | param hk =>
    exact ⟨_, rfl, fun l l' S h => by simp [run_cons, step, h, hk]⟩
  | group _ ih =>
    obtain ⟨_, a, ha, _, _⟩ := ih []
    refine ⟨a, ha, fun l l' S h => ?_⟩
    obtain ⟨m, b, hb, hrun, hclose⟩ := ih (.group l :: S)
    obtain rfl : a = b := by
      rw [ha] at hb
      injection hb
    rw [run_cons, step_lparen h, Option.bind_some,
      run_append_cons hrun ((step_rparen_group hclose l S).trans (by rw [h]; rfl))]
    rfl
  | callEmpty f =>
    refine ⟨_, rfl, fun l l' S h => ?_⟩
    have hclose : step A ⟨.fresh, .items (fun as => l.feed (A.call f as)) [] :: S⟩ .rparen =
      (l.feed (A.call f [])).map (⟨·, S⟩) := rfl
    rw [run_cons, step, Option.bind_some, run_cons, hclose, h]
    rfl
  | call f _ ih =>
    refine ⟨_, rfl, fun l l' S h => ?_⟩
    obtain ⟨init, m, b, rfl, hrun, hclose⟩ := ih (fun as => l.feed (A.call f as)) S
    rw [run_cons, step, Option.bind_some,
      run_append_cons hrun ((step_rparen_items hclose _ init S).trans (by rw [h]; rfl))]
    rfl
  | item _ ih =>
    intro finish S
    obtain ⟨l, a, ha, hrun, hclose⟩ := ih (.items finish [] :: S)
    exact ⟨[], l, a, ha, hrun, hclose⟩
  | items _ _ ih iha =>
    intro finish S
    obtain ⟨init, l, b, rfl, hrun, hclose⟩ := ih finish S
    obtain ⟨m, a, ha, hrun', hclose'⟩ := iha (.items finish (init ++ [b]) :: S)
    injection ha with ha
    subst ha
    exact ⟨init ++ [b], m, _, rfl,
      (run_append_cons hrun (step_comma hclose finish init S)).trans hrun', hclose'⟩

/-- The parser finds every derivation. -/
theorem parse_of_derives {ts : List Token} {a : ε} (h : Derives A .disj ts [a]) :
    parse A ts = some a := by
  obtain ⟨l, b, hb, hrun, hclose⟩ := reads_of_derives h []
  injection hb with hb
  subst hb
  rw [parse, hrun]
  exact hclose

/-- The grammar is unambiguous. -/
theorem Derives.unique {ts : List Token} {a b : ε} (ha : Derives A .disj ts [a])
    (hb : Derives A .disj ts [b]) : a = b :=
  Option.some.inj ((parse_of_derives ha).symm.trans (parse_of_derives hb))

end Completeness

end CppLinq
