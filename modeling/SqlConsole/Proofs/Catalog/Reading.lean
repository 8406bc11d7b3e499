import SqlConsole.Proofs.Batch.Collecting
import SqlConsole.Proofs.Dump.Answers

/-!
# What is read of the catalog

A question to the catalog may be answered with any number of result sets, whose rows have any width
and any cells, and it may be refused, or fail behind any row. An answer to such a question is all or
nothing (`Connection.AllOrNothing`). If an error is reported, the first one is the answer, as one of
the catalog. Otherwise the answer is made of the rows of all result sets.

Each row either contributes, once and in its place, or says nothing (`Contributed`). Which rows say
something is a matter of their first cells (`Says`, `SaysFirst`, `SaysTwo`). Of the definitions that
belong to a table none is dropped and none doubled when the table's own is taken out (`TakesOut`).
-/

namespace SqlConsole

/-! ## All or nothing -/

/-- **An answer that is all or nothing**: it is the first error that is reported of a question, or
is made of all rows. -/
structure Connection.AllOrNothing {α : Type} (conn : Connection) (sql : String)
    (answer : Except Error α) (Made : List Row → α → Prop) : Prop where
  /-- The report is what a consumer who takes everything is shown. -/
  reported : ∀ shown,
    (∃ last, Batch.Drains (Batch.start [Statement.ofText sql] conn, conn) shown last) ↔
      shown = conn.report sql
  error_iff : (∃ e, answer = .error e) ↔ Batch.errors (conn.report sql) ≠ []
  /-- The first error is made one of the catalog, which it is not yet. -/
  first : ∀ e rest, Batch.errors (conn.report sql) = e :: rest →
    answer = .error (.catalog e) ∧ (∀ source, e ≠ .catalog source) ∧
      (Error.catalog e).isCancelled = e.isCancelled
  made : Batch.errors (conn.report sql) = [] →
    ∃ a, answer = .ok a ∧ Made (Batch.shownRows (conn.report sql)) a

theorem Connection.AllOrNothing.ask {α : Type} {conn : Connection} {sql : String}
    (hsql : Statement.Verbatim sql) (h : conn.Settles sql) {read : List Row → α}
    {Made : List Row → α → Prop} (hmade : ∀ rows, Made rows (read rows)) :
    conn.AllOrNothing sql (conn.ask sql read).1 Made := by
  have hreported : ∀ shown,
      (∃ last, Batch.Drains (Batch.start [Statement.ofText sql] conn, conn) shown last) ↔
        shown = conn.report sql := by
    obtain ⟨last, hdrains⟩ := drains_report hsql h
    refine fun shown => ⟨fun ⟨last', h'⟩ => (hdrains.unique h').1, ?_⟩
    rintro rfl
    exact ⟨last, hdrains⟩
  have hquery := query_eq_gathered hsql h
  rw [Connection.ask]
  rcases hresult : conn.query sql with ⟨result, conn'⟩
  rw [hresult, Batch.gathered] at hquery
  cases herrors : Batch.errors (conn.report sql) with
  | nil =>
    rw [herrors] at hquery
    obtain rfl : result = .ok (Batch.shownRows (conn.report sql)) := hquery
    refine ⟨hreported, by simp [herrors], fun e rest he => ?_, fun _ => ⟨_, rfl, hmade _⟩⟩
    rw [herrors] at he
    cases he
  | cons e rest =>
    rw [herrors] at hquery
    obtain rfl : result = .error e := hquery
    -- What the engine reports is no error of the catalog yet, so it is wrapped, and only once.
    have hnew : ∀ source, e ≠ .catalog source :=
      ne_catalog_of_mem_report (herrors ▸ List.mem_cons_self)
    have hwrapped : e.inCatalog = .catalog e := by
      cases e with
      | catalog source => exact absurd rfl (hnew source)
      | _ => rfl
    refine ⟨hreported, by simp [herrors], fun e' rest' he => ?_, fun hnil => ?_⟩
    · obtain ⟨rfl, -⟩ := List.cons.inj (herrors.symm.trans he)
      exact ⟨congrArg Except.error hwrapped, hnew, rfl⟩
    · rw [herrors] at hnil
      cases hnil

/-! ## What rows say -/

namespace Catalog

/-- What a cell says: a text says itself, any other value what a table shows of it, and NULL
nothing. -/
inductive Says : Value → String → Prop
  | text (t : String) : Says (.text t) t
  | shown {v : Value} (hnull : v ≠ .null) (htext : ∀ t, v ≠ .text t) : Says v (v.write .table)

/-- What a row says by its first cell. -/
inductive SaysFirst : Row → String → Prop
  | intro {cell : Value} {cells : Row} {t : String} (h : Says cell t) : SaysFirst (cell :: cells) t

/-- What a row says by its first two cells. -/
inductive SaysTwo : Row → String × String → Prop
  | intro {a b : Value} {cells : Row} {s t : String} (ha : Says a s) (hb : Says b t) :
    SaysTwo (a :: b :: cells) (s, t)

/-- **What rows contribute**, in order: each row that says something what it says, once, and each
other row nothing. -/
inductive Contributed {β : Type} (tells : Row → β → Prop) : List Row → List β → Prop
  | nil : Contributed tells [] []
  | usable {row : Row} {rows : List Row} {b : β} {bs : List β} (h : tells row b)
    (hrest : Contributed tells rows bs) : Contributed tells (row :: rows) (b :: bs)
  | unusable {row : Row} {rows : List Row} {bs : List β} (h : ∀ b, ¬ tells row b)
    (hrest : Contributed tells rows bs) : Contributed tells (row :: rows) bs

/-- **The table's own definition is taken out** of kinds and definitions: the first one of the kind
`table`, if there is one. All others are left in order. -/
inductive TakesOut : List (String × String) → TableDefinitions → Prop
  | own {before after : List (String × String)} {definition : String}
    (h : ∀ entry ∈ before, entry.1 ≠ "table") :
    TakesOut (before ++ ("table", definition) :: after)
      ⟨some definition, (before ++ after).map (·.2)⟩
  | none {entries : List (String × String)} (h : ∀ entry ∈ entries, entry.1 ≠ "table") :
    TakesOut entries ⟨Option.none, entries.map (·.2)⟩

theorem catalogText?_eq_some_iff {v : Value} {t : String} :
    v.catalogText? = some t ↔ Says v t := by
  constructor
  · intro h
    cases v with
    | null => cases h
    | text s =>
      obtain rfl : s = t := Option.some.inj ((catalogText?_text s).symm.trans h)
      exact .text s
    | bool _ | int _ | uint _ | float _ | bytes _ | timestamp _ =>
      obtain rfl := Option.some.inj h
      exact .shown (by simp) (by simp)
  · intro h
    cases h with
    | text t => exact catalogText?_text t
    | shown hnull _ =>
      cases v with
      | null => exact absurd rfl hnull
      | _ => rfl

theorem contributed_filterMap {β : Type} {tells : Row → β → Prop} {f : Row → Option β}
    (hf : ∀ row b, f row = some b ↔ tells row b) (rows : List Row) :
    Contributed tells rows (rows.filterMap f) := by
  induction rows with
  | nil => exact .nil
  | cons row rows ih =>
    cases hrow : f row with
    | none =>
      rw [List.filterMap_cons_none hrow]
      refine .unusable (fun b hb => ?_) ih
      rw [(hf row b).mpr hb] at hrow
      cases hrow
    | some b =>
      rw [List.filterMap_cons_some hrow]
      exact .usable ((hf row b).mp hrow) ih

/-- **First cells.** -/
theorem contributed_firsts (rows : List Row) : Contributed SaysFirst rows (firsts rows) := by
  refine contributed_filterMap (fun row t => ?_) rows
  cases row with
  | nil => exact ⟨nofun, nofun⟩
  | cons cell cells =>
    refine catalogText?_eq_some_iff.trans ⟨.intro, fun h => ?_⟩
    cases h with
    | intro h => exact h

/-- **First two cells.** -/
theorem contributed_pairs (rows : List Row) : Contributed SaysTwo rows (pairs rows) := by
  refine contributed_filterMap (fun row entry => ?_) rows
  match row with
  | [] | [_] => exact ⟨nofun, nofun⟩
  | a :: b :: cells =>
    constructor
    · intro h
      obtain ⟨s, hs, h⟩ := Option.bind_eq_some_iff.mp h
      obtain ⟨t, ht, h⟩ := Option.bind_eq_some_iff.mp h
      obtain rfl := Option.some.inj h
      exact .intro (catalogText?_eq_some_iff.mp hs) (catalogText?_eq_some_iff.mp ht)
    · rintro ⟨ha, hb⟩
      simp [catalogText?_eq_some_iff.mpr ha, catalogText?_eq_some_iff.mpr hb]

/-- All definitions are left that are not the table's own, and also those of its kind that come when
its own is known. -/
theorem foldl_add {entries : List (String × String)} {d : TableDefinitions}
    (h : ∀ entry ∈ entries, entry.1 = "table" → d.own.isSome = true) :
    entries.foldl (fun d (kind, definition) => d.add kind definition) d =
      ⟨d.own, d.attached ++ entries.map (·.2)⟩ := by
  induction entries generalizing d with
  | nil => simp
  | cons entry entries ih =>
    obtain ⟨hentry, hentries⟩ := List.forall_mem_cons.mp h
    have hown : (entry.1 == "table" && d.own.isNone) = false := by
      by_cases hkind : entry.1 = "table"
      · simp [Option.isNone_eq_false_iff.mpr (hentry hkind)]
      · simp [hkind]
    have hadd : d.add entry.1 entry.2 = ⟨d.own, d.attached ++ [entry.2]⟩ := by
      rw [TableDefinitions.add, hown, if_neg Bool.false_ne_true]
    rw [List.foldl_cons]
    show List.foldl _ (d.add entry.1 entry.2) entries = _
    rw [hadd, @ih ⟨d.own, d.attached ++ [entry.2]⟩ hentries, List.map_cons, List.append_assoc,
      List.singleton_append]

/-- **No definition is dropped or doubled.** -/
theorem takesOut_ofPairs (entries : List (String × String)) :
    TakesOut entries (.ofPairs entries) := by
  cases hfind : entries.find? (·.1 == "table") with
  | none =>
    have hnone : ∀ entry ∈ entries, entry.1 ≠ "table" := by simpa using hfind
    rw [TableDefinitions.ofPairs, foldl_add fun entry he hkind => absurd hkind (hnone entry he)]
    exact .none hnone
  | some entry =>
    obtain ⟨hkind, before, after, rfl, hbefore⟩ := List.find?_eq_some_iff_append.mp hfind
    obtain ⟨kind, definition⟩ := entry
    obtain rfl : kind = "table" := by simpa using hkind
    have hbefore : ∀ entry ∈ before, entry.1 ≠ "table" := by simpa using hbefore
    have hadd : TableDefinitions.add ⟨none, before.map (·.2)⟩ "table" definition =
        ⟨some definition, before.map (·.2)⟩ := rfl
    -- Nothing before this entry is of its kind, and behind it the table's own is known.
    rw [TableDefinitions.ofPairs, List.foldl_append,
      foldl_add fun entry he hkind => absurd hkind (hbefore entry he), List.foldl_cons]
    show TakesOut _ (List.foldl _ (TableDefinitions.add ⟨none, [] ++ before.map (·.2)⟩ _ _) after)
    rw [List.nil_append, hadd, foldl_add fun _ _ _ => rfl, ← List.map_append]
    exact .own hbefore

/-! ## Questions -/

theorem verbatim_indexesQuery (table : Option String) : Statement.Verbatim (indexesQuery table) :=
  Statement.verbatim_append (c := 'S') (d := 'e') (by simp) (by simp) rfl rfl _

theorem verbatim_schemaQuery (pattern : Option String) : Statement.Verbatim (schemaQuery pattern) :=
  Statement.verbatim_append (c := 'S') (d := 'e') (by simp) (by simp) rfl rfl _

/-- **Reading the catalog is all or nothing, and no row is lost.** -/
theorem all_or_nothing (conn : Connection) :
    (∀ exclusions : Exclusions, conn.Settles tablesQuery →
      conn.AllOrNothing tablesQuery (conn.tables exclusions).1 fun rows names =>
        ∃ all, Contributed SaysFirst rows all ∧ names = all.filter exclusions.allows) ∧
    (∀ table, conn.Settles (definitionsQuery table) →
      conn.AllOrNothing (definitionsQuery table) (conn.tableDefinitions table).1
        fun rows definitions =>
          ∃ entries, Contributed SaysTwo rows entries ∧ TakesOut entries definitions) ∧
    (conn.Settles viewsQuery →
      conn.AllOrNothing viewsQuery conn.views.1 (Contributed SaysFirst)) ∧
    (∀ table, conn.Settles (indexesQuery table) →
      conn.AllOrNothing (indexesQuery table) (conn.indexes table).1 (Contributed SaysFirst)) ∧
    ∀ (pattern : Option String) (exclusions : Exclusions), conn.Settles (schemaQuery pattern) →
      conn.AllOrNothing (schemaQuery pattern) (conn.schema pattern exclusions).1 fun rows lines =>
        ∃ entries, Contributed SaysTwo rows entries ∧
          lines = (entries.filter (exclusions.allows ·.1)).map (·.2 ++ ";") := by
  refine ⟨fun exclusions h => ?_, fun table h => ?_, fun h => ?_, fun table h => ?_,
    fun pattern exclusions h => ?_⟩
  · exact .ask verbatim_tablesQuery h fun rows => ⟨_, contributed_firsts rows, rfl⟩
  · exact .ask (verbatim_definitionsQuery table) h fun rows =>
      ⟨_, contributed_pairs rows, takesOut_ofPairs _⟩
  · exact .ask verbatim_viewsQuery h contributed_firsts
  · exact .ask (verbatim_indexesQuery table) h contributed_firsts
  · exact .ask (verbatim_schemaQuery pattern) h fun rows => ⟨_, contributed_pairs rows, rfl⟩

/-- An answer of three result sets, with rows that are too short or hold NULL among the others. -/
def unevenDefinitions : Script :=
  { sets :=
      [(["type", "sql"], [[.text "index", .text "CREATE INDEX i ON t(a)"], [.text "table"],
          [.null, .text "CREATE TABLE t(a)"], [.int 7, .text "SELECT 7", .null]]),
        ([], []),
        (["type", "sql"],
          [[.text "table", .text "CREATE TABLE t(b)"], [.text "table", .bytes [0xAB]]])] }

/-- An answer that is interrupted behind its first row. -/
def interruptedViews : Script :=
  { sets := [(["sql"], [[.text "CREATE VIEW v AS SELECT 1"]])], failure := some "interrupted" }

/-- A database with these two answers. -/
def uneven : Connection :=
  { backend := .ofScripts
      [(definitionsQuery "t", unevenDefinitions), (viewsQuery, interruptedViews)] }

/-- The third result set has the table's own definition. The view that was read before the
interruption is no answer. -/
theorem all_or_nothing_uneven :
    uneven.Settles (definitionsQuery "t") ∧
      (uneven.AllOrNothing (definitionsQuery "t") (uneven.tableDefinitions "t").1
        fun rows definitions =>
          ∃ entries, Contributed SaysTwo rows entries ∧ TakesOut entries definitions) ∧
      (uneven.tableDefinitions "t").1 = .ok
        ⟨some "CREATE TABLE t(b)", ["CREATE INDEX i ON t(a)", "SELECT 7", "0xAB"]⟩ ∧
      uneven.Settles viewsQuery ∧ uneven.views.1 = .error (.catalog .cancelled) := by
  have hdefinitions : uneven.Settles (definitionsQuery "t") :=
    .of_script unevenDefinitions rfl rfl
  have hviews : uneven.Settles viewsQuery := .of_script interruptedViews rfl rfl
  have herrors : Batch.errors (uneven.report viewsQuery) = [.cancelled] := by decide
  exact ⟨hdefinitions, (all_or_nothing uneven).2.1 "t" hdefinitions, by decide, hviews,
    (((all_or_nothing uneven).2.2.1 hviews).first _ _ herrors).1⟩

end Catalog

end SqlConsole
