import CppLinq.StatementNames

/-!
# Identifiers cannot break out

`quote_id` doubles the closing quote, and so an identifier is read back whatever its
characters, if no closing quote follows it (`read_write_quoteId`). In a statement none does :
every name is read back where it stands, and where function names and join types have no
quotes of their own, a scan of the whole text finds the names of the statement and nothing
else (`identifier_quoting`).
-/

namespace CppLinq

section Quoting

variable {d : Dialect}

/-- A delimited identifier is read to its end, and is the identifier. -/
theorem read_write_quoteId (id : String) {rest : List Char}
    (hrest : rest.head? ≠ some d.quotes.closing) :
    readDelimited d.quotes (d.write (d.quoteId id) ++ rest) = some (id.toList, rest) := by
  rw [write_quoteId]
  exact readDelimited_quoteChars hrest _

theorem write_quoteId_injective (d : Dialect) :
    Function.Injective fun id => d.write (d.quoteId id) := by
  intro id id' h
  have hread : ∀ id : String, readDelimited d.quotes (d.write (d.quoteId id) ++ []) =
      some (id.toList, []) := fun id => read_write_quoteId id (by simp)
  have heq : some (id.toList, ([] : List Char)) = some (id'.toList, []) := by
    rw [← hread id, ← hread id']
    exact congrArg _ (congrArg (· ++ []) h)
  simp only [Option.some.injEq, Prod.mk.injEq, and_true] at heq
  exact String.toList_inj.mp heq

/-- Quoting is injection-proof. An identifier is read back before any text that does not go on
with a closing quote; no two identifiers are quoted alike; the names of a statement are read
back where they stand; and a scan of the statement finds them alone, if no function name or
join type of it has a quote. -/
theorem identifier_quoting (d : Dialect) :
    (∀ (id : String) (rest : List Char), rest.head? ≠ some d.quotes.closing →
      readDelimited d.quotes (d.write (d.quoteId id) ++ rest) = some (id.toList, rest)) ∧
    (Function.Injective fun id => d.write (d.quoteId id)) ∧
    (∀ (call : GenerateCall) (r : GeneratedSql), generate d call = .ok r →
      ReadsNames d.quotes (d.write r.sql) (call.names d)) ∧
    ∀ (call : GenerateCall) (r : GeneratedSql), generate d call = .ok r →
      (∀ s ∈ call.functionNames ++ call.joinTypes, ∀ c ∈ s.toList, Unquoting d c) →
      scanNames d.quotes .text (d.write r.sql) = (call.names d).map String.toList := by
  refine ⟨fun id rest => read_write_quoteId id, write_quoteId_injective d, ?_, ?_⟩
  · intro call r h
    have hfree : ∀ s : String, CleanUnless (fun _ => True) s := fun _ _ _ => Or.inr trivial
    exact (generate_composed h (fun f _ => hfree f) fun j _ => hfree j).readsNames
  · intro call r h hclean
    refine (generate_composed h (fun f hf c hc => ?_) fun j hj c hc => ?_).scanNames_eq
    · exact Or.inr (hclean f (List.mem_append_left _ hf) c hc)
    · exact Or.inr (hclean j (List.mem_append_right _ hj) c hc)

/-- A bracket in a name of SQL Server, and the dot behind it. -/
example : scanNames (Dialect.quotes .mssql) .text (Dialect.write .mssql
    (columnSql .mssql ⟨"a]b", "c[d"⟩)) = ["a]b".toList, "c[d".toList] := by
  decide

end Quoting

end CppLinq
