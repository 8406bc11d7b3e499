import SqlConsole.Proofs.Dump.Answers
import SqlConsole.Proofs.Statement.Ending

/-!
# Definitions with a `;`

A dump and a listing of the schema write the definitions of the catalog as they are, each with a `;`
behind it (`WrittenFor`). When the definition stops outside quotes, comments and trigger bodies, the
line is a complete statement. SQLite keeps a comment at the end of a definition, though, and in a
line comment the `;` ends nothing: such a line is a complete statement only if the definition was
one before (`WrittenFor.complete_iff`).
-/

namespace SqlConsole

/-- What is written for a definition of the catalog. -/
inductive WrittenFor : String → String → Prop
  /-- The line of a table in a dump. -/
  | own {cancelled d d' table} {conn conn₁ conn₂ : Connection} {definitions definition line}
      (hask : conn.tableDefinitions table = (.ok definitions, conn₁))
      (hbegin : Dump.begin cancelled d table conn = (.ok d', conn₂))
      (hmem : (definition, line) ∈ definitions.own.toList.zip d'.ready) :
      WrittenFor definition line
  /-- The line of an index or a trigger in a dump. -/
  | attached {cancelled d d' table conn definitions definition line} {conn₁ conn₂ : Connection}
      (hask : conn.tableDefinitions table = (.ok definitions, conn₁))
      (hbegin : Dump.begin cancelled d table conn = (.ok d', conn₂))
      (hmem : (definition, line) ∈ definitions.attached.zip d'.attached) :
      WrittenFor definition line
  /-- The line of a view in a dump. -/
  | view {d d' conn views first definition line} {conn₁ conn₂ : Connection}
      (hask : conn.views = (.ok views, conn₁)) (hviews : d.settings.includeViews = true)
      (hleave : Dump.leaveTables d conn = (.line first, d', conn₂))
      (hmem : (definition, line) ∈ views.zip (first :: d'.ready)) : WrittenFor definition line
  /-- An entry in a listing of the schema. -/
  | entry {conn conn₁ conn₂ : Connection} {pattern} {exclusions : Exclusions} {pairs entries}
      {definition line}
      (hask : conn.ask (Catalog.schemaQuery pattern) Catalog.pairs = (.ok pairs, conn₁))
      (hschema : conn.schema pattern exclusions = (.ok entries, conn₂))
      (hmem : (definition, line) ∈
        ((pairs.filter (exclusions.allows ·.1)).map (·.2)).zip entries) :
      WrittenFor definition line

theorem eq_of_mem_zip {definitions : List String} {definition line : String}
    (h : (definition, line) ∈ definitions.zip (definitions.map (· ++ ";"))) :
    line = definition ++ ";" := by
  induction definitions with
  | nil => simp at h
  | cons first definitions ih =>
    rw [List.map_cons, List.zip_cons_cons] at h
    rcases List.mem_cons.mp h with he | h
    · cases he
      rfl
    · exact ih h

/-- What a dump knows of a table once it was begun. -/
theorem Dump.begin_ok {cancelled : Bool} {d d' : Dump} {table : String}
    {conn conn₁ conn₂ : Connection} {definitions : TableDefinitions}
    (hask : conn.tableDefinitions table = (.ok definitions, conn₁))
    (hbegin : Dump.begin cancelled d table conn = (.ok d', conn₂)) :
    d'.ready = definitions.own.toList.map (· ++ ";") ∧
      d'.attached = definitions.attached.map (· ++ ";") := by
  simp only [Dump.begin, hask] at hbegin
  split at hbegin
  case h_2 => cases hbegin
  all_goals
    cases hbegin
    exact ⟨rfl, rfl⟩

/-- **A definition is written with a `;` behind it**, whatever it is. -/
theorem WrittenFor.eq {definition line : String} (h : WrittenFor definition line) :
    line = definition ++ ";" := by
  cases h with
  | own hask hbegin hmem =>
    rw [(Dump.begin_ok hask hbegin).1] at hmem
    exact eq_of_mem_zip hmem
  | attached hask hbegin hmem =>
    rw [(Dump.begin_ok hask hbegin).2] at hmem
    exact eq_of_mem_zip hmem
  | @view d d' conn views first _ _ _ _ hask hviews hleave hmem =>
    rw [Dump.leaveTables, if_pos hviews, hask] at hleave
    cases views with
    | nil => simp at hmem
    | cons view views =>
      cases hleave
      exact eq_of_mem_zip hmem
  | @entry conn conn₁ conn₂ pattern exclusions pairs entries _ _ hask hschema hmem =>
    have hentries :
        entries = ((pairs.filter (exclusions.allows ·.1)).map (·.2)).map (· ++ ";") := by
      rw [Connection.schema] at hschema
      rw [Connection.ask] at hask hschema
      split at hask
      case h_1 hquery =>
        cases hask
        rw [hquery] at hschema
        cases hschema
        rw [List.map_map]
        rfl
      case h_2 => cases hask
    rw [hentries] at hmem
    exact eq_of_mem_zip hmem

/-- A catalog in which there is nothing but one view. -/
def viewOnly (definition : String) : Connection :=
  { backend := fun _ => { sets := [⟨["sql"], .finite [[.text definition]]⟩] } }

/-- **Any text may be a definition**, and is written with a `;` behind it. -/
theorem writtenFor_iff {definition line : String} :
    WrittenFor definition line ↔ line = definition ++ ";" := by
  refine ⟨WrittenFor.eq, ?_⟩
  rintro rfl
  have hanswer : (viewOnly definition).backend.answer? Catalog.viewsQuery =
      some [[.text definition]] :=
    Catalog.answer?_of_yields Catalog.verbatim_viewsQuery ⟨["sql"], rfl⟩
  obtain ⟨answer, conn₁, hask, hsome, -⟩ | ⟨e, conn₁, -, hnone, -⟩ :=
    (viewOnly definition).ask_cases Catalog.viewsQuery Catalog.firsts
  · obtain rfl := Option.some.inj (hanswer.symm.trans hsome)
    have hfirsts : Catalog.firsts [[.text definition]] = [definition] := by
      simp [Catalog.firsts, Catalog.catalogText?_text]
    rw [hfirsts] at hask
    have hleave : Dump.leaveTables { settings := {} } (viewOnly definition) =
        (.line (definition ++ ";"), { settings := {}, stage := .closing }, conn₁) := by
      rw [Dump.leaveTables, if_pos rfl, Connection.views, hask]
      rfl
    exact .view hask rfl hleave List.mem_cons_self
  · rw [hanswer] at hnone
    rcases hnone with hnone | hnone <;> cases hnone

open Statement

/-- **When a definition is written as a complete statement.** The definition is one statement and
leaves no quote, block comment or trigger body open. What is written for it is complete, and is that
one statement, now ended, unless the definition stops in a line comment; then it is only if the
definition was complete already. -/
theorem WrittenFor.complete_iff {definition line : String} (h : WrittenFor definition line)
    {s : Statement} (hs : split definition = [s])
    (hmode : (Scan.run {} definition.toList).2.mode = .plain ∨
      (Scan.run {} definition.toList).2.mode = .lineComment)
    (hdepth : (Scan.run {} definition.toList).2.nesting.depth = 0) :
    (isComplete line = true ∧ ∃ t, split line = [t] ∧ t.terminated = true ∧ t.sql = s.sql) ↔
      ((Scan.run {} definition.toList).2.mode = .lineComment → isComplete definition = true) := by
  obtain rfl := h.eq
  -- One statement is written in either case; the question is whether it is ended.
  have hone {terminated : Bool} (hmap : (split (definition ++ ";")).map
      (fun s => (s.sql, s.terminated)) = [(s.sql, terminated)]) :
      ∃ t, split (definition ++ ";") = [t] ∧ t.terminated = terminated ∧ t.sql = s.sql := by
    obtain ⟨t, ht, he⟩ := List.map_eq_singleton_iff.mp hmap
    exact ⟨t, ht, (Prod.mk.inj he).2, (Prod.mk.inj he).1⟩
  rcases hmode with hmode | hmode
  · have hmap := map_split_semicolon hmode hdepth
    rw [hs] at hmap
    refine iff_of_true ⟨isComplete_semicolon hmode hdepth, hone hmap⟩ fun hc => ?_
    rw [hmode] at hc
    cases hc
  · have hmap := map_split_lineComment hmode
    rw [hs] at hmap
    rw [isComplete_lineComment hmode]
    constructor
    · rintro ⟨hcomplete, -⟩ -
      exact hcomplete
    · intro hcomplete
      have hended : s.terminated = true :=
        terminated_of_isComplete (hcomplete hmode) s (by rw [hs]; exact List.mem_singleton_self s)
      obtain ⟨t, ht, hterminated, hsql⟩ := hone hmap
      exact ⟨hcomplete hmode, t, ht, hterminated.trans hended, hsql⟩

/-- A trigger with statements in its body, and a comment behind it that is closed. -/
def commentedTrigger : String :=
  "CREATE TRIGGER r AFTER INSERT ON t BEGIN SELECT ';'; END /* ; */"

theorem complete_commentedTrigger :
    WrittenFor commentedTrigger (commentedTrigger ++ ";") ∧
      (Scan.run {} commentedTrigger.toList).2.mode = .plain ∧
      (Scan.run {} commentedTrigger.toList).2.nesting.depth = 0 ∧
      isComplete (commentedTrigger ++ ";") = true ∧
      ∃ t, split (commentedTrigger ++ ";") = [t] ∧ t.terminated = true ∧
        t.sql = "CREATE TRIGGER r AFTER INSERT ON t BEGIN SELECT ';'; END" :=
  have h : WrittenFor commentedTrigger (commentedTrigger ++ ";") := writtenFor_iff.mpr rfl
  have hsplit : split commentedTrigger =
      [⟨⟨0, 64⟩, "CREATE TRIGGER r AFTER INSERT ON t BEGIN SELECT ';'; END", false⟩] := by decide
  have hmode : (Scan.run {} commentedTrigger.toList).2.mode = .plain := by decide
  have hdepth : (Scan.run {} commentedTrigger.toList).2.nesting.depth = 0 := by decide
  ⟨h, hmode, hdepth, (h.complete_iff hsplit (Or.inl hmode) hdepth).mpr
    fun hc => absurd (hmode.symm.trans hc) (by decide)⟩

/-- **A comment swallows the `;`.** A view may end in a line comment, which SQLite keeps. What is
written for it is not complete. -/
theorem not_isComplete_commented_view :
    WrittenFor "CREATE VIEW v AS SELECT 1 -- c" "CREATE VIEW v AS SELECT 1 -- c;" ∧
      (split "CREATE VIEW v AS SELECT 1 -- c").map (·.sql) = ["CREATE VIEW v AS SELECT 1"] ∧
      (Scan.run {} "CREATE VIEW v AS SELECT 1 -- c".toList).2.mode = .lineComment ∧
      (Scan.run {} "CREATE VIEW v AS SELECT 1 -- c".toList).2.nesting.depth = 0 ∧
      isComplete "CREATE VIEW v AS SELECT 1 -- c;" = false :=
  ⟨writtenFor_iff.mpr (by decide), by decide, by decide, by decide, by decide⟩

end SqlConsole
