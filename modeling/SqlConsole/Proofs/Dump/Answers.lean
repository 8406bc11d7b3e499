import Mathlib.Data.List.Sort
import SqlConsole.Proofs.Dump.Literal
import SqlConsole.Proofs.Dump.Script

/-!
# Databases with a catalog

A database describes its objects in the rows of its catalog (`Entry`): what kind of object it is,
what it is called, which table or view it belongs to, and how it was defined. A backend `Answers` a
catalog if it replies to the queries of a dump as their texts say, each with one result set.

Then a dump is told all it asks for, and its script can be read off the catalog
(`Dump.script?_of_answers`): around the rows of each table the definitions that belong to it, then
those of the views.

Every catalog is answered by some backend, one that is written down for it (`serve`).
-/

namespace SqlConsole

/-- A reply of one result set with these rows. -/
def Reply.Yields (reply : Reply) (rows : List Row) : Prop :=
  ∃ columns, reply = { sets := [⟨columns, .finite rows⟩] }

namespace Catalog

/-! ## Entries -/

/-- The kinds of objects in a database. -/
inductive Kind where
  | table
  | index
  | trigger
  | view
  deriving DecidableEq, Repr

/-- What the catalog calls a kind. -/
def Kind.name : Kind → String
  | table => "table"
  | index => "index"
  | trigger => "trigger"
  | view => "view"

/-- A row of the catalog. -/
structure Entry where
  kind : Kind
  name : String
  /-- The table or view that the object belongs to, which is the column `tbl_name`. -/
  owner : String
  /-- The definition. An index that SQLite made by itself has none. -/
  sql : Option String
  deriving DecidableEq, Repr

/-- The cell of a definition. -/
def Entry.cell (e : Entry) : Value := Value.ofOption .text e.sql

/-- The entries of a kind. -/
def ofKind (kind : Kind) (catalog : List Entry) : List Entry := catalog.filter (·.kind = kind)

/-- The entries with a definition that belong to a table or view. -/
def belonging (catalog : List Entry) (owner : String) : List Entry :=
  catalog.filter fun e => e.owner = owner && e.sql.isSome

/-- The views with a definition. -/
def definedViews (catalog : List Entry) : List Entry :=
  (ofKind .view catalog).filter (·.sql.isSome)

/-- **A backend answers a catalog**, whose rows are in the order of their ids: it replies to each
query of a dump with what the query asks of the catalog, and to the queries for the rows of its
tables with the rows. -/
structure Answers (backend : Backend) (catalog : List Entry) : Prop where
  tables : ∃ tables : List Entry, tables.Perm (ofKind .table catalog) ∧
    tables.Pairwise (·.name ≤ ·.name) ∧
    (backend tablesQuery).Yields (tables.map fun e => [.text e.name])
  definitions : ∀ table, (backend (definitionsQuery table)).Yields
    ((belonging catalog table).map fun e => [.text e.kind.name, e.cell])
  views : ∃ views : List Entry, views.Perm (definedViews catalog) ∧
    views.Pairwise (·.name ≤ ·.name) ∧
    (backend viewsQuery).Yields (views.map fun e => [e.cell])
  rows : ∀ e ∈ ofKind .table catalog, Dump.isInternal e.name = false →
    ∃ rows, (backend (Dump.rowsQuery e.name)).Yields rows

/-! ## Questions -/

theorem verbatim_tablesQuery : Statement.Verbatim tablesQuery := by
  have happend : tablesQuery = "SELECT" ++ " name FROM sqlite_schema WHERE type = 'table' ORDER BY"
      ++ " name" := by decide
  rw [happend]
  exact Statement.verbatim_append (c := 'S') (d := 'e') (by simp) (by simp) rfl rfl _

theorem verbatim_viewsQuery : Statement.Verbatim viewsQuery := by
  have happend : viewsQuery = "SELECT" ++
      " sql FROM sqlite_schema WHERE type = 'view' AND sql IS NOT NULL ORDER BY" ++ " name" := by
    decide
  rw [happend]
  exact Statement.verbatim_append (c := 'S') (d := 'e') (by simp) (by simp) rfl rfl _

theorem verbatim_definitionsQuery (table : String) : Statement.Verbatim (definitionsQuery table) :=
  Statement.verbatim_append (c := 'S') (d := 'd') (by simp) (by simp) rfl rfl (literal table)

/-! ## Answers -/

section

variable {backend : Backend} {text : String} {rows : List Row}

theorem answer?_of_yields (hv : Statement.Verbatim text) (h : (backend text).Yields rows) :
    backend.answer? text = some rows := by
  obtain ⟨columns, h⟩ := h
  exact Backend.answer?_of_finite hv h

theorem firstRows?_of_yields {reply : Reply} (h : reply.Yields rows) :
    reply.firstRows? = some (some rows) := by
  obtain ⟨columns, rfl⟩ := h
  rfl

end

theorem catalogText?_text (text : String) : (Value.text text).catalogText? = some text :=
  congrArg some (String.ofList_toList (s := text))

theorem catalogText?_cell (e : Entry) : e.cell.catalogText? = e.sql := by
  rw [Entry.cell]
  cases e.sql with
  | none => rfl
  | some sql => exact catalogText?_text sql

theorem firsts_names (entries : List Entry) :
    firsts (entries.map fun e => [.text e.name]) = entries.map (·.name) := by
  rw [firsts, List.filterMap_map]
  simp [Function.comp_def, catalogText?_text]

theorem firsts_cells (entries : List Entry) :
    firsts (entries.map fun e => [e.cell]) = entries.filterMap (·.sql) := by
  rw [firsts, List.filterMap_map]
  simp [Function.comp_def, catalogText?_cell]

/-- What is said of the entries: their kinds and their definitions. -/
def described (entries : List Entry) : List (String × String) :=
  entries.filterMap fun e => e.sql.map (e.kind.name, ·)

theorem pairs_described (entries : List Entry) :
    pairs (entries.map fun e => [.text e.kind.name, e.cell]) = described entries := by
  rw [pairs, List.filterMap_map]
  refine List.filterMap_congr fun e _ => ?_
  simp only [Function.comp_apply, catalogText?_text, catalogText?_cell]
  cases e.sql <;> rfl

end Catalog

namespace Dump

open Catalog

/-! ## The script of a catalog -/

/-- The tables that are dumped. -/
def dumped (settings : DumpSettings) (tables : List Entry) : List Entry :=
  tables.filter fun e => settings.exclusions.allows e.name && !isInternal e.name

/-- The lines of a table with its rows. -/
def linesOf (catalog : List Entry) (data : String → List Row) (e : Entry) : List Line :=
  linesAround (.ofPairs (described (belonging catalog e.name))) e.name (some (data e.name))

/-- The lines of a catalog with the rows of its tables. -/
def scriptOf (settings : DumpSettings) (catalog : List Entry) (data : String → List Row)
    (tables views : List Entry) : List Line :=
  openingLines settings ++ ((dumped settings tables).flatMap (linesOf catalog data) ++
    ((views.filterMap (·.sql)).map .definition ++ closingLines settings))

section

variable {settings : DumpSettings} {backend : Backend} {catalog tables views : List Entry}
  {data : String → List Row}

theorem tableNames_of_entries (settings : DumpSettings) (tables : List Entry) :
    tableNames settings (tables.map fun e => [.text e.name]) =
      (dumped settings tables).map (·.name) := by
  rw [tableNames, firsts_names, List.filter_filter, List.filter_map, dumped]
  refine congrArg _ (List.filter_congr fun e _ => ?_)
  simp [Bool.and_comm]

theorem tablesLines?_map {entries : List Entry} {lines : Entry → List Line}
    (h : ∀ e ∈ entries, tableLines? backend e.name = some (lines e)) :
    tablesLines? backend (entries.map (·.name)) = some (entries.flatMap lines) := by
  induction entries with
  | nil => rfl
  | cons e entries ih =>
    obtain ⟨he, hentries⟩ := List.forall_mem_cons.mp h
    rw [List.map_cons, tablesLines?, he, ih hentries]
    rfl

/-- **The script of a catalog**, whose tables and views are given in some order. -/
theorem script?_eq (hinclude : settings.includeViews = true)
    (htables : (backend tablesQuery).Yields (tables.map fun e => [.text e.name]))
    (hdefinitions : ∀ table, (backend (definitionsQuery table)).Yields
      ((belonging catalog table).map fun e => [.text e.kind.name, e.cell]))
    (hviews : (backend viewsQuery).Yields (views.map fun e => [e.cell]))
    (hrows : ∀ e ∈ dumped settings tables, (backend (rowsQuery e.name)).Yields (data e.name)) :
    script? settings backend = some (scriptOf settings catalog data tables views) := by
  have hlines : ∀ e ∈ dumped settings tables,
      tableLines? backend e.name = some (linesOf catalog data e) := by
    intro e he
    have hanswer := answer?_of_yields (verbatim_definitionsQuery e.name) (hdefinitions e.name)
    have hfirst := firstRows?_of_yields (hrows e he)
    rw [tableLines?, hanswer, Option.bind_some, (Dump.verbatim_rowsQuery e.name).sql, hfirst,
      pairs_described]
    rfl
  rw [script?, answer?_of_yields verbatim_tablesQuery htables, Option.bind_some,
    tableNames_of_entries, tablesLines?_map hlines, viewLines?, if_pos hinclude,
    answer?_of_yields verbatim_viewsQuery hviews, Option.map_some, firsts_cells]
  rfl

/-- A backend that answers a catalog has a script for it. -/
theorem script?_of_answers (h : Answers backend catalog) (hinclude : settings.includeViews = true) :
    ∃ tables views data, tables.Perm (ofKind .table catalog) ∧
      views.Perm (definedViews catalog) ∧
      script? settings backend = some (scriptOf settings catalog data tables views) := by
  obtain ⟨tables, hperm, -, htables⟩ := h.tables
  obtain ⟨views, hperm', -, hviews⟩ := h.views
  have hrows : ∀ name, ∃ rows, (∃ e ∈ dumped settings tables, e.name = name) →
      (backend (rowsQuery name)).Yields rows := by
    intro name
    by_cases hname : ∃ e ∈ dumped settings tables, e.name = name
    · obtain ⟨e, he, rfl⟩ := hname
      obtain ⟨hmem, hkept⟩ := List.mem_filter.mp he
      have hinternal : isInternal e.name = false := by
        rw [Bool.and_eq_true] at hkept
        simpa using hkept.2
      obtain ⟨rows, hrows⟩ := h.rows e (hperm.mem_iff.mp hmem) hinternal
      exact ⟨rows, fun _ => hrows⟩
    · exact ⟨[], fun he => absurd he hname⟩
  choose data hdata using hrows
  exact ⟨tables, views, data, hperm, hperm', script?_eq hinclude htables h.definitions hviews
    fun e he => hdata e.name ⟨e, he, rfl⟩⟩

end

end Dump

namespace Catalog

/-! ## A backend for a catalog -/

theorem definitionsQuery_inj {a b : String} (h : definitionsQuery a = definitionsQuery b) :
    a = b := by
  have hliteral : literal a = literal b :=
    (String.append_right_inj _).mp ((String.append_left_inj _).mp h)
  exact String.toList_inj.mp (enclosed_inj rfl (String.ofList_inj.mp hliteral))

theorem rowsQuery_inj {a b : String} (h : Dump.rowsQuery a = Dump.rowsQuery b) : a = b := by
  have hquoted := String.ofList_inj.mp ((String.append_right_inj _).mp h)
  exact String.toList_inj.mp (enclosed_inj rfl hquoted)

/-- What a query asks for is told by the first letter behind `SELECT`. -/
theorem ne_of_letter {a b : String} {c d : Char} (ha : a.toList[7]? = some c)
    (hb : b.toList[7]? = some d) (hne : c ≠ d) : a ≠ b := by
  rintro rfl
  rw [ha] at hb
  exact hne (Option.some.inj hb)

theorem letter_tablesQuery : tablesQuery.toList[7]? = some 'n' := by simp [tablesQuery]

theorem letter_viewsQuery : viewsQuery.toList[7]? = some 's' := by simp [viewsQuery]

theorem letter_append {a : String} {c : Char} (ha : a.toList[7]? = some c) (b : String) :
    (a ++ b).toList[7]? = some c := by
  obtain ⟨hlength, -⟩ := List.getElem?_eq_some_iff.mp ha
  rw [String.toList_append, List.getElem?_append_left hlength, ha]

theorem letter_definitionsQuery (table : String) :
    (definitionsQuery table).toList[7]? = some 't' :=
  letter_append (letter_append (by simp) (literal table)) _

theorem letter_rowsQuery (table : String) : (Dump.rowsQuery table).toList[7]? = some '*' :=
  letter_append (by simp) (String.ofList (Identifier.quoted table))

/-- Entries in the order of their names. -/
def inOrder (entries : List Entry) : List Entry :=
  entries.mergeSort fun a b => a.name ≤ b.name

theorem perm_inOrder (entries : List Entry) : (inOrder entries).Perm entries :=
  List.mergeSort_perm _ _

theorem pairwise_inOrder (entries : List Entry) : (inOrder entries).Pairwise (·.name ≤ ·.name) := by
  have htrans : ∀ a b c : Entry, decide (a.name ≤ b.name) = true → decide (b.name ≤ c.name) = true →
      decide (a.name ≤ c.name) = true := by
    intro a b c hab hbc
    simp only [decide_eq_true_eq] at hab hbc ⊢
    exact String.le_trans hab hbc
  have htotal : ∀ a b : Entry, (decide (a.name ≤ b.name) || decide (b.name ≤ a.name)) = true := by
    intro a b
    simpa using String.le_total a.name b.name
  simpa [inOrder] using List.pairwise_mergeSort htrans htotal entries

/-- A reply of one result set. -/
def found (columns : List String) (rows : List Row) : Reply :=
  { sets := [⟨columns, .finite rows⟩] }

theorem yields_found (columns : List String) (rows : List Row) : (found columns rows).Yields rows :=
  ⟨columns, rfl⟩

/-- A database with this catalog and these rows. -/
def serve (catalog : List Entry) (data : String → List Row) : Backend := fun sql =>
  if sql = tablesQuery then
    found ["name"] ((inOrder (ofKind .table catalog)).map fun e => [.text e.name])
  else if sql = viewsQuery then
    found ["sql"] ((inOrder (definedViews catalog)).map fun e => [e.cell])
  else
    match catalog.find? (fun e => sql = definitionsQuery e.owner),
        catalog.find? (fun e => sql = Dump.rowsQuery e.name) with
    | some e, _ =>
      found ["type", "sql"] ((belonging catalog e.owner).map fun e => [.text e.kind.name, e.cell])
    | none, some e => found ["value"] (data e.name)
    | none, none => found [] []

section

variable (catalog : List Entry) (data : String → List Row)

theorem serve_tablesQuery : serve catalog data tablesQuery =
    found ["name"] ((inOrder (ofKind .table catalog)).map fun e => [.text e.name]) := if_pos rfl

theorem serve_viewsQuery : serve catalog data viewsQuery =
    found ["sql"] ((inOrder (definedViews catalog)).map fun e => [e.cell]) := by
  have hne : viewsQuery ≠ tablesQuery :=
    ne_of_letter letter_viewsQuery letter_tablesQuery (by decide)
  rw [serve, if_neg hne, if_pos rfl]

theorem yields_definitionsQuery (table : String) :
    (serve catalog data (definitionsQuery table)).Yields
      ((belonging catalog table).map fun e => [.text e.kind.name, e.cell]) := by
  have htables : definitionsQuery table ≠ tablesQuery :=
    ne_of_letter (letter_definitionsQuery table) letter_tablesQuery (by decide)
  have hviews : definitionsQuery table ≠ viewsQuery :=
    ne_of_letter (letter_definitionsQuery table) letter_viewsQuery (by decide)
  have hrows : catalog.find? (fun e => definitionsQuery table = Dump.rowsQuery e.name) = none := by
    refine List.find?_eq_none.mpr fun e _ h => ?_
    exact ne_of_letter (letter_definitionsQuery table) (letter_rowsQuery e.name) (by decide)
      (by simpa using h)
  rw [serve, if_neg htables, if_neg hviews, hrows]
  cases hfind : catalog.find? (fun e => definitionsQuery table = definitionsQuery e.owner) with
  | some e =>
    have howner : table = e.owner := definitionsQuery_inj (by simpa using List.find?_some hfind)
    subst howner
    exact yields_found _ _
  | none =>
    have hnil : belonging catalog table = [] := by
      refine List.filter_eq_nil_iff.mpr fun e he howner => ?_
      rw [Bool.and_eq_true, decide_eq_true_eq] at howner
      exact List.find?_eq_none.mp hfind e he (by simp [howner.1])
    rw [hnil]
    exact yields_found _ _

theorem yields_rowsQuery {e : Entry} (he : e ∈ catalog) :
    (serve catalog data (Dump.rowsQuery e.name)).Yields (data e.name) := by
  have htables : Dump.rowsQuery e.name ≠ tablesQuery :=
    ne_of_letter (letter_rowsQuery e.name) letter_tablesQuery (by decide)
  have hviews : Dump.rowsQuery e.name ≠ viewsQuery :=
    ne_of_letter (letter_rowsQuery e.name) letter_viewsQuery (by decide)
  have hdefinitions :
      catalog.find? (fun e' => Dump.rowsQuery e.name = definitionsQuery e'.owner) = none := by
    refine List.find?_eq_none.mpr fun e' _ h => ?_
    exact ne_of_letter (letter_rowsQuery e.name) (letter_definitionsQuery e'.owner) (by decide)
      (by simpa using h)
  rw [serve, if_neg htables, if_neg hviews, hdefinitions]
  cases hfind : catalog.find? (fun e' => Dump.rowsQuery e.name = Dump.rowsQuery e'.name) with
  | some e' =>
    have hname : e.name = e'.name := rowsQuery_inj (by simpa using List.find?_some hfind)
    rw [hname]
    exact yields_found _ _
  | none => exact absurd (decide_eq_true rfl) (List.find?_eq_none.mp hfind e he)

/-- **Every catalog is answered.** -/
theorem answers_serve : Answers (serve catalog data) catalog where
  tables := ⟨inOrder (ofKind .table catalog), perm_inOrder _, pairwise_inOrder _,
    serve_tablesQuery catalog data ▸ yields_found _ _⟩
  definitions := yields_definitionsQuery catalog data
  views := ⟨inOrder (definedViews catalog), perm_inOrder _, pairwise_inOrder _,
    serve_viewsQuery catalog data ▸ yields_found _ _⟩
  rows := fun e he _ => ⟨data e.name, yields_rowsQuery catalog data (List.mem_of_mem_filter he)⟩

end

end Catalog

/-- The script of the database that is written down for a catalog. -/
theorem Dump.script?_serve {settings : DumpSettings} (hinclude : settings.includeViews = true)
    (catalog : List Catalog.Entry) (data : String → List Row) :
    script? settings (Catalog.serve catalog data) =
      some (scriptOf settings catalog data (Catalog.inOrder (Catalog.ofKind .table catalog))
        (Catalog.inOrder (Catalog.definedViews catalog))) := by
  refine script?_eq hinclude ?_ (Catalog.yields_definitionsQuery catalog data) ?_ fun e he => ?_
  · rw [Catalog.serve_tablesQuery]
    exact Catalog.yields_found _ _
  · rw [Catalog.serve_viewsQuery]
    exact Catalog.yields_found _ _
  · have hmem : e ∈ Catalog.ofKind .table catalog :=
      (Catalog.perm_inOrder _).mem_iff.mp (List.mem_of_mem_filter he)
    exact Catalog.yields_rowsQuery catalog data (List.mem_of_mem_filter hmem)

end SqlConsole
