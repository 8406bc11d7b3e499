import SqlConsole.Proofs.Dump.Insertion
import SqlConsole.Proofs.Dump.Query

/-!
# Queries that hold a name

Four queries are made of a name or a pattern that may be any text: the definitions of a table, the
indexes of some tables, the schema of some objects, and the rows of a table. The text stands between
quotes, in three of them between single ones and in the last one between double ones.

Nothing that it holds leads out of its quotes (`Confined`). It is one lexeme, which gives it back,
and the lexemes around it are the same for all texts. So the query is one statement whatever it is
asked about, and different texts make different queries.

This is proved once, for any texts in front of the quotes and behind them that are firm
(`Confined.of_enclosed`): inert, with no white space around them.
-/

namespace SqlConsole

open Text Lexeme

/-- **A query that confines the text it is made of**: no text makes anything else of it. -/
structure Confined (query : String → String) : Prop where
  /-- It is run as it is written. -/
  verbatim : ∀ text, (Statement.ofText (query text)).sql = query text
  /-- It is one statement, all of it, which no `;` ends. -/
  alone : ∀ text, Statement.split (query text) =
    [⟨⟨0, byteSize (query text).toList⟩, query text, false⟩]
  /-- The text is one quoted lexeme, from which it can be read. What stands around that lexeme is
  the same for all texts. -/
  token : ∃ (opening closing : List Char) (quote : Char), ∀ text,
    (query text).toList = opening ++ (Lexeme.quoted quote text.toList true).text ++ closing ∧
      lexemes (query text).toList =
        lexemes opening ++ .quoted quote text.toList true :: lexemes closing ∧
      unenclose? quote (Lexeme.quoted quote text.toList true).text = some (text.toList, [])
  injective : Function.Injective query

/-! ## Firm texts -/

/-- An inert text with no white space around it. -/
structure Firm (cs : List Char) : Prop where
  inert : Inert cs
  tidy : Tidy cs

/-- Whether a text is firm by its single characters. -/
def isFirm (cs : List Char) : Bool :=
  !cs.isEmpty && cs.head?.all (!isBlank ·) && cs.getLast?.all (!isBlank ·) &&
    cs.all fun c => isWordChar c || decide (Apart c ∧ c ≠ ';')

theorem firm_of_isFirm {cs : List Char} (h : isFirm cs = true) : Firm cs := by
  simp only [isFirm, Bool.and_eq_true, Bool.not_eq_true', List.isEmpty_eq_false_iff,
    Option.all_eq_true, List.all_eq_true, Bool.or_eq_true, decide_eq_true_eq] at h
  obtain ⟨⟨⟨hne, hhead⟩, hlast⟩, hall⟩ := h
  exact ⟨inert_of_forall hall, hne, hhead, hlast⟩

theorem firm_ofList {cs : List Char} (h : isFirm cs = true) : Firm (String.ofList cs).toList := by
  rw [String.toList_ofList]
  exact firm_of_isFirm h

theorem firm_enclosed {quote : Char} (hq : isQuote quote = true) (cs : List Char) :
    Firm (enclosed quote cs) := by
  have hblank := isBlank_of_isQuote hq
  refine ⟨inert_enclosed hq cs, List.cons_ne_nil _ _, ?_, ?_⟩
  · rintro c ⟨⟩
    exact hblank
  · intro c hc
    rw [enclosed, List.getLast?_concat] at hc
    obtain rfl : quote = c := Option.some.inj hc
    exact hblank

namespace Firm

variable {a b : List Char}

/-- Firm texts with a blank between them. -/
theorem append (ha : Firm a) (hb : Firm b) : Firm (a ++ ' ' :: b) := by
  obtain ⟨c, cs, rfl⟩ := List.exists_cons_of_ne_nil ha.tidy.ne_nil
  obtain ⟨d, ds, rfl⟩ := List.exists_cons_of_ne_nil hb.tidy.ne_nil
  refine ⟨ha.inert.append apart_space (by decide) hb.inert, List.cons_ne_nil _ _,
    ha.tidy.head, ?_⟩
  rw [List.getLast?_append_of_ne_nil _ (List.cons_ne_nil _ _), List.getLast?_cons_cons]
  exact hb.tidy.last

theorem sql_ofText {text : String} (h : Firm text.toList) : (Statement.ofText text).sql = text := by
  show String.ofList (trim text.toList) = text
  rw [trim_eq_self h.tidy.head h.tidy.last, String.ofList_toList]

theorem toList_append {a b : String} (ha : Firm a.toList) (hb : Firm b.toList) :
    Firm (a ++ " " ++ b).toList := by
  rw [String.toList_append, String.toList_append, List.append_assoc]
  exact ha.append hb

/-- A firm text is one statement. -/
theorem split_whole {text : String} (h : Firm text.toList) :
    Statement.split text = [⟨⟨0, byteSize text.toList⟩, text, false⟩] := by
  have htrim : trim text.toList = text.toList := trim_eq_self h.tidy.head h.tidy.last
  have hpieces := pieces_of_unsplit h.inert.unsplit (lexemes_ne_nil h.tidy.ne_nil)
  have hfragments : Scan.fragments text.toList =
      [⟨⟨0, byteSize text.toList⟩, text.toList, false⟩] := by
    rw [fragments_eq_place_pieces, hpieces]
    show [(⟨⟨0, 0 + byteSize (source (lexemes text.toList))⟩,
      (Piece.mk (lexemes text.toList) false).sql, false⟩ : Fragment)] = _
    rw [h.inert.sql_eq, htrim, source_lexemes, Nat.zero_add]
  have hne : text.toList.isEmpty = false := by
    rw [List.isEmpty_eq_false_iff]
    exact h.tidy.ne_nil
  rw [Statement.split, hfragments, List.filter_singleton, hne]
  show [Statement.ofFragment _] = _
  rw [Statement.ofFragment, String.ofList_toList]

end Firm

/-! ## Around the quotes -/

/-- What may stand behind the quotes: nothing, or a blank and a firm text. -/
inductive Trails : String → Prop
  | nil : Trails ""
  | blank {text tail : String} (h : text = " " ++ tail) (htail : Firm tail.toList) : Trails text

theorem Trails.toList_cases {text : String} (h : Trails text) :
    text.toList = [] ∨ ∃ cs, text.toList = ' ' :: cs ∧ Firm cs := by
  cases h with
  | nil => exact .inl String.toList_empty
  | blank h htail =>
    rw [h, String.toList_append]
    exact .inr ⟨_, rfl, htail⟩

section

variable {quote : Char} (hq : isQuote quote = true) {closing : String}

include hq

/-- The text between the quotes is one lexeme, whatever it is. -/
theorem Trails.lexemes_enclosed (h : Trails closing) (cs : List Char) :
    lexemes (enclosed quote cs ++ closing.toList) =
      .quoted quote cs true :: lexemes closing.toList := by
  have hhead : closing.toList.head? ≠ some quote := by
    obtain hnil | ⟨tail, hblank, -⟩ := h.toList_cases
    · simp [hnil]
    · rw [hblank]
      rintro ⟨⟩
      exact absurd hq (by decide)
  have hfits : Fits (.quoted quote cs true) closing.toList := .quoted hq hhead
  have htext : enclosed quote cs = (Lexeme.quoted quote cs true).text := by
    simp [enclosed, Lexeme.text]
  rw [htext]
  exact lexemes_text_append hfits

theorem Trails.firm_enclosed (h : Trails closing) (cs : List Char) :
    Firm (enclosed quote cs ++ closing.toList) := by
  have hquoted := SqlConsole.firm_enclosed hq cs
  obtain hnil | ⟨tail, hblank, htail⟩ := h.toList_cases
  · rwa [hnil, List.append_nil]
  · rw [hblank]
    exact hquoted.append htail

/-- **What stands between quotes stays there**, with firm texts around them. -/
theorem Confined.of_enclosed {query : String → String} {opening : String}
    (hopening : Firm opening.toList) (hclosing : Trails closing)
    (hquery : ∀ text,
      query text = opening ++ " " ++ String.ofList (enclosed quote text.toList) ++ closing) :
    Confined query := by
  have hshape (text : String) : (query text).toList =
      opening.toList ++ ' ' :: (enclosed quote text.toList ++ closing.toList) := by
    rw [hquery]
    simp
  have hfirm (text : String) : Firm (query text).toList := by
    rw [hshape]
    exact hopening.append (hclosing.firm_enclosed hq _)
  have hlexemes (text : String) : lexemes (query text).toList =
      lexemes (opening.toList ++ [' ']) ++
        .quoted quote text.toList true :: lexemes closing.toList := by
    rw [hshape, lexemes_append_apart hopening.inert.last apart_space,
      lexemes_append_apart hopening.inert.last apart_space, hclosing.lexemes_enclosed hq,
      lexemes_nil, List.append_assoc]
    rfl
  refine ⟨fun text => (hfirm text).sql_ofText, fun text => (hfirm text).split_whole, ?_, ?_⟩
  · refine ⟨opening.toList ++ [' '], closing.toList, quote, fun text => ⟨?_, hlexemes text, ?_⟩⟩
    · rw [hshape]
      simp [enclosed, Lexeme.text]
    · have hread := @unenclose?_enclosed quote text.toList [] (by simp)
      rw [List.append_nil] at hread
      simpa [enclosed, Lexeme.text] using hread
  · intro a b hab
    have hsame := hlexemes a
    rw [hab, hlexemes b] at hsame
    have htoken := (List.cons.inj (List.append_cancel_left hsame)).1
    exact String.toList_inj.mp (Lexeme.quoted.inj htoken).2.1.symm

end

/-! ## The queries -/

namespace Catalog

/-- The end of the queries that are in the order of the names. -/
theorem trails_order : Trails " ORDER BY name" := by
  have horder : " ORDER BY name" = " " ++ "ORDER BY name" := by decide
  exact .blank horder (firm_ofList rfl)

theorem confined_definitionsQuery : Confined definitionsQuery := by
  have hopening : Firm "SELECT type, sql FROM sqlite_schema WHERE tbl_name =".toList :=
    firm_ofList rfl
  have hbehind : " AND sql IS NOT NULL ORDER BY rowid" =
      " " ++ "AND sql IS NOT NULL ORDER BY rowid" := by decide
  have hquote : isQuote '\'' = true := rfl
  apply Confined.of_enclosed hquote hopening (.blank hbehind (firm_ofList rfl))
  intro text
  have hbefore : "SELECT type, sql FROM sqlite_schema WHERE tbl_name = " =
      "SELECT type, sql FROM sqlite_schema WHERE tbl_name =" ++ " " := by decide
  exact congrArg (· ++ literal text ++ " AND sql IS NOT NULL ORDER BY rowid") hbefore

/-- The kind of the objects is a text in quotes of its own. -/
theorem confined_indexesQuery : Confined fun pattern => indexesQuery (some pattern) := by
  have hquote : isQuote '\'' = true := rfl
  have hkind : Firm (literal "index").toList := by
    rw [literal, String.toList_ofList]
    exact firm_enclosed hquote _
  have hselect : Firm "SELECT name FROM sqlite_schema WHERE type =".toList := firm_ofList rfl
  have hlike : Firm "AND tbl_name LIKE".toList := firm_ofList rfl
  apply Confined.of_enclosed hquote ((hselect.toList_append hkind).toList_append hlike) trails_order
  intro pattern
  have hbefore : "SELECT name FROM sqlite_schema WHERE type = 'index'" ++ " AND tbl_name LIKE " =
      "SELECT name FROM sqlite_schema WHERE type =" ++ " " ++ literal "index" ++ " " ++
        "AND tbl_name LIKE" ++ " " := by decide
  show _ ++ (_ ++ literal pattern) ++ _ = _
  rw [← String.append_assoc]
  exact congrArg (· ++ literal pattern ++ " ORDER BY name") hbefore

theorem confined_schemaQuery : Confined fun pattern => schemaQuery (some pattern) := by
  have hopening :
      Firm "SELECT name, sql FROM sqlite_schema WHERE sql IS NOT NULL AND name LIKE".toList :=
    firm_ofList rfl
  have hquote : isQuote '\'' = true := rfl
  apply Confined.of_enclosed hquote hopening trails_order
  intro pattern
  have hbefore : "SELECT name, sql FROM sqlite_schema WHERE sql IS NOT NULL" ++ " AND name LIKE " =
      "SELECT name, sql FROM sqlite_schema WHERE sql IS NOT NULL AND name LIKE" ++ " " := by decide
  show _ ++ (_ ++ literal pattern) ++ _ = _
  rw [← String.append_assoc]
  exact congrArg (· ++ literal pattern ++ " ORDER BY name") hbefore

/-- The `*` opens no comment, since no slash is in front of it. -/
theorem confined_rowsQuery : Confined Dump.rowsQuery := by
  have hfits : Fits (.symbol '*') [] := .symbol rfl (by decide) rfl (by decide) (by decide)
  have hfrom : Firm "FROM".toList := firm_ofList rfl
  have hinert : Inert "*".toList := Inert.cons hfits (isInert_symbol (by decide)) inert_nil
  have hstar : Firm "*".toList := by
    refine ⟨hinert, List.cons_ne_nil _ _, ?_, ?_⟩
    · rintro c ⟨⟩
      rfl
    · rintro c ⟨⟩
      rfl
  have hselect : Firm "SELECT".toList := firm_ofList rfl
  have hquote : isQuote '"' = true := rfl
  apply Confined.of_enclosed hquote ((hselect.toList_append hstar).toList_append hfrom) .nil
  intro table
  have hbefore : "SELECT * FROM " = "SELECT" ++ " " ++ "*" ++ " " ++ "FROM" ++ " " := by decide
  show "SELECT * FROM " ++ String.ofList (enclosed '"' table.toList) = _ ++ ""
  rw [hbefore, String.append_empty]

/-- **No name and no pattern leads out of its query.** -/
theorem queries_confined :
    Confined definitionsQuery ∧ Confined (fun pattern => indexesQuery (some pattern)) ∧
      Confined (fun pattern => schemaQuery (some pattern)) ∧ Confined Dump.rowsQuery :=
  ⟨confined_definitionsQuery, confined_indexesQuery, confined_schemaQuery, confined_rowsQuery⟩

end Catalog

/-- A name with a quote, a separator and a comment mark. -/
example : Statement.split (Dump.rowsQuery "a\"; --") =
    [⟨⟨0, 23⟩, "SELECT * FROM \"a\"\"; --\"", false⟩] := by decide

end SqlConsole
