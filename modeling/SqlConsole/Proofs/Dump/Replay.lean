import SqlConsole.Proofs.Dump.Answers

/-!
# Reading a dump back

The script of a dump is split into statements again when it is run. If the definitions of the
catalog are texts of one statement each (`SelfContained`), the statements of the script are its
lines, one each and all ended. A line that the dump makes by itself is read back as it is, without
its `;`; of a definition the statement is read that it holds (`Line.statements`).

So the names of tables and the content of their rows cannot change where statements end. The lines
of rows are inert texts (`Line.inert_row`), and the rest follows for lines of any kind.
-/

namespace SqlConsole

namespace Dump

open Text Lexeme

namespace Line

/-- What is read of a line: it is a statement of its own, or holds the statement of a definition. -/
def statements : Line → List String
  | definition text => (Statement.split text).map (·.sql)
  | foreignKeys => [foreignKeys.body]
  | beginTransaction => [beginTransaction.body]
  | row table cells => [(row table cells).body]
  | commit => [commit.body]

variable (table : String) (cells : Row)

theorem body_row : (row table cells).body =
    String.ofList ("INSERT INTO ".toList ++ Identifier.write table ++ " VALUES(".toList ++
      joined [','] (cells.map Value.literal) ++ [')']) := rfl

/-- The line of a row as texts with a character between each two of them. -/
theorem toList_row :
    (row table cells).body.toList = "INSERT".toList ++ ' ' :: ("INTO".toList ++ ' ' ::
      (Identifier.write table ++ ' ' :: ("VALUES".toList ++ '(' ::
        (joined [','] (cells.map Value.literal) ++ ')' :: [])))) := by
  rw [body_row, String.toList_ofList]
  generalize Identifier.write table = name
  generalize joined [','] (cells.map Value.literal) = values
  simp

/-- **The line of a row is inert**, whatever the table is called and whatever the row holds. -/
theorem inert_row : Inert (row table cells).body.toList := by
  have hvalues : Inert (joined [','] (cells.map Value.literal)) :=
    inert_joined (List.forall_mem_map.mpr fun v _ => v.inert_literal)
  rw [toList_row]
  refine .append (inert_word (by simp [isWordChar])) apart_space (by decide) ?_
  refine .append (inert_word (by simp [isWordChar])) apart_space (by decide) ?_
  refine .append (Identifier.inert_write table) apart_space (by decide) ?_
  refine .append (inert_word (by simp [isWordChar])) (by decide) (by decide) ?_
  exact hvalues.append (by decide) (by decide) inert_nil

/-- The line of a row begins no trigger. -/
theorem openBodies_row : openBodies (words (lexemes (row table cells).body.toList)) = 0 := by
  have hinsert : lexemes "INSERT".toList = [.word "INSERT".toList] := by
    have hfits : Fits (.word "INSERT".toList) [] := .word (by simp) (by simp [isWordChar]) (by simp)
    have hcut := lexemes_text_append hfits
    rwa [List.append_nil, lexemes_nil] at hcut
  have hclosed : ∀ l ∈ (lexemes "INSERT".toList).getLast?, l.closed = true := by
    rw [hinsert]
    rintro _ ⟨⟩
    rfl
  rw [toList_row, lexemes_append_apart hclosed apart_space, hinsert]
  exact openBodies_cons (by decide) _

theorem trim_row : trim (row table cells).body.toList = (row table cells).body.toList := by
  refine trim_eq_self (fun c hc => ?_) (fun c hc => ?_)
  · have hfirst : c = 'I' := by simpa [toList_row, eq_comm] using hc
    subst hfirst
    rfl
  · rw [body_row, String.toList_ofList, List.getLast?_concat] at hc
    cases hc
    rfl

theorem selfContained_row : SelfContained (row table cells).body := by
  refine (inert_row table cells).selfContained (openBodies_row table cells) ?_
  rw [trim_row, toList_row]
  simp

/-- Every line is a text of one statement, if the definitions are. -/
theorem selfContained_body {l : Line} (h : ∀ text, l = definition text → SelfContained text) :
    SelfContained l.body := by
  cases l with
  | foreignKeys | beginTransaction | commit => decide
  | definition text => exact h text rfl
  | row table cells => exact selfContained_row table cells

/-- The statement that is read of a line. -/
theorem map_split_body (l : Line) : (Statement.split l.body).map (·.sql) = l.statements := by
  cases l with
  | foreignKeys | beginTransaction | commit => decide
  | definition text => rfl
  | row table cells =>
    exact (inert_row table cells).map_split (selfContained_row table cells) (trim_row table cells)

end Line

variable {settings : DumpSettings} {backend : Backend} {lines : List String}

/-- A script has a first line. -/
theorem ne_nil_of_script? {ls : List Line} (h : script? settings backend = some ls) : ls ≠ [] := by
  obtain ⟨answer, -, h⟩ := Option.bind_eq_some_iff.mp h
  obtain ⟨behind, -, rfl⟩ := Option.map_eq_some_iff.mp h
  simp [openingLines]

/-- **The statements of a dump are its lines**, one each, in order and all ended. -/
theorem Writes.split_eq (h : Writes backend { settings } lines) :
    ∃ ls, script? settings backend = some ls ∧ lines = ls.map Line.text ∧
      ((∀ text, .definition text ∈ ls → SelfContained text) →
        (Statement.split (join "\n" lines)).map (fun s => ([s.sql], s.terminated)) =
            ls.map (fun l => (l.statements, true)) ∧
          isComplete (join "\n" lines) = true) := by
  obtain ⟨ls, hscript, rfl⟩ := Option.map_eq_some_iff.mp (writes_iff.mp h)
  refine ⟨ls, hscript, rfl, fun hdefinitions => ?_⟩
  have hself : ∀ text ∈ ls.map Line.body, SelfContained text := by
    intro text htext
    obtain ⟨l, hl, rfl⟩ := List.mem_map.mp htext
    exact Line.selfContained_body fun text he => hdefinitions text (he ▸ hl)
  have htexts : ls.map Line.text = (ls.map Line.body).map (· ++ ";") := by
    rw [List.map_map]
    rfl
  have hne : ls.map Line.body ≠ [] := by simpa using ne_nil_of_script? hscript
  rw [htexts]
  refine ⟨?_, isComplete_join hne hself⟩
  rw [Statement.map_split_join hself, List.map_map]
  exact List.map_congr_left fun l _ => congrArg (·, true) l.map_split_body

/-- A table with an unlikely name and a trigger. -/
def unlikely : Backend :=
  Catalog.serve
    [⟨.table, "a;b", "a;b", some "CREATE TABLE \"a;b\"(x)"⟩,
      ⟨.trigger, "r", "a;b", some "CREATE TRIGGER r AFTER INSERT ON \"a;b\" BEGIN SELECT 1; END"⟩]
    fun _ => [[.text "'; -- /* BEGIN"], [.bytes [0x3B]]]

def unlikelyScript : List Line :=
  [.foreignKeys, .beginTransaction, .definition "CREATE TABLE \"a;b\"(x)",
    .row "a;b" [.text "'; -- /* BEGIN"], .row "a;b" [.bytes [0x3B]],
    .definition "CREATE TRIGGER r AFTER INSERT ON \"a;b\" BEGIN SELECT 1; END", .commit]

theorem script?_unlikely : script? {} unlikely = some unlikelyScript := by
  have htables (e : Catalog.Entry) : Catalog.inOrder [e] = [e] := List.mergeSort_singleton _
  have hviews : Catalog.inOrder [] = [] := List.mergeSort_nil
  rw [unlikely, script?_serve rfl]
  change some (scriptOf {} _ _ (Catalog.inOrder [_]) (Catalog.inOrder [])) = _
  rw [htables, hviews]
  decide

theorem split_unlikelyScript :
    Writes unlikely { settings := {} } (unlikelyScript.map Line.text) ∧
      (Statement.split (join "\n" (unlikelyScript.map Line.text))).map
        (fun s => ([s.sql], s.terminated)) = unlikelyScript.map (fun l => (l.statements, true)) ∧
      isComplete (join "\n" (unlikelyScript.map Line.text)) = true := by
  have hwrites := writes_iff.mpr (congrArg (Option.map (List.map Line.text)) script?_unlikely)
  obtain ⟨ls, hscript, -, hread⟩ := hwrites.split_eq
  rw [script?_unlikely] at hscript
  cases hscript
  refine ⟨hwrites, hread fun text htext => ?_⟩
  simp only [unlikelyScript, List.mem_cons, reduceCtorEq, Line.definition.injEq, false_or,
    List.not_mem_nil, or_false] at htext
  rcases htext with rfl | rfl
  · decide
  · decide

end Dump

end SqlConsole
