import Mathlib.Data.List.Perm.Basic
import SqlConsole.Proofs.Dump.Answers

/-!
# What of a schema is dumped

A dump reaches the objects of a database by three questions. It asks for the tables, for each of
them for the definitions of what belongs to it, and for the views (`Catalog.reached`). The
definitions in its script are those of the objects it reaches, as often as it reaches them
(`Dump.definitions_scriptOf`).

An object should be reached once (`Catalog.Complete`). In a well-formed catalog this is so for
tables, views, indexes and the triggers of tables. The triggers of views belong to no table, and to
the question for the views only the views themselves are the answer: they are reached never, and so
are lost (`Dump.schema_complete_iff`).
-/

namespace SqlConsole

namespace Catalog

/-- An object to be dumped: it has a definition, and neither its name nor its owner's is one that
SQLite keeps for itself. -/
def Entry.portable (e : Entry) : Bool :=
  e.sql.isSome && !Dump.isInternal e.name && !Dump.isInternal e.owner

/-- Whether other objects may belong to one of a kind. -/
def Kind.owns : Kind → Bool
  | table | view => true
  | index | trigger => false

/-- What holds of the catalog of a database: a table or view belongs to itself and shares its name
with no other one, an index belongs to a table and a trigger to a table or view. -/
structure WellFormed (catalog : List Entry) : Prop where
  own : ∀ e ∈ catalog, e.kind.owns = true → e.owner = e.name
  distinct : ((catalog.filter (·.kind.owns)).map (·.name)).Nodup
  indexed : ∀ e ∈ catalog, e.kind = .index → ∃ t ∈ catalog, t.kind = .table ∧ t.name = e.owner
  triggered : ∀ e ∈ catalog, e.kind = .trigger →
    ∃ t ∈ catalog, t.kind.owns = true ∧ t.name = e.owner

instance (catalog : List Entry) : Decidable (WellFormed catalog) :=
  decidable_of_iff
    ((∀ e ∈ catalog, e.kind.owns = true → e.owner = e.name) ∧
      ((catalog.filter (·.kind.owns)).map (·.name)).Nodup ∧
      (∀ e ∈ catalog, e.kind = .index → ∃ t ∈ catalog, t.kind = .table ∧ t.name = e.owner) ∧
      ∀ e ∈ catalog, e.kind = .trigger → ∃ t ∈ catalog, t.kind.owns = true ∧ t.name = e.owner)
    ⟨fun ⟨a, b, c, d⟩ => ⟨a, b, c, d⟩, fun ⟨a, b, c, d⟩ => ⟨a, b, c, d⟩⟩

/-- The tables whose names SQLite does not keep for itself. -/
def userTables (catalog : List Entry) : List Entry :=
  (ofKind .table catalog).filter (!Dump.isInternal ·.name)

/-- The objects that the questions of a dump reach, as often as they do. -/
def reached (catalog : List Entry) : List Entry :=
  (userTables catalog).flatMap (fun t => belonging catalog t.name) ++ definedViews catalog

/-- How often an object is reached. -/
def reaches (catalog : List Entry) (e : Entry) : Nat :=
  (userTables catalog).countP (·.name = e.owner) + if e.kind = .view then 1 else 0

/-- **No object is lost** and none is doubled: those to be dumped are reached once each. -/
def Complete (catalog : List Entry) : Prop :=
  ((reached catalog).filter (·.portable)).Perm (catalog.filter (·.portable))

instance (catalog : List Entry) : Decidable (Complete catalog) :=
  inferInstanceAs (Decidable (List.Perm _ _))

section

variable {catalog : List Entry} {e : Entry}

/-! ## Counting -/

/-- How often an entry is among those with a property. -/
theorem count_filter_eq (p : Entry → Bool) (entries : List Entry) (e : Entry) :
    (entries.filter p).count e = if p e then entries.count e else 0 := by
  by_cases hp : p e = true
  · rw [if_pos hp, List.count_filter hp]
  · rw [if_neg hp, List.count_eq_zero]
    exact fun he => hp (List.mem_filter.mp he).2

theorem count_flatMap_belonging (hsql : e.sql.isSome = true) (tables : List Entry) :
    (tables.flatMap fun t => belonging catalog t.name).count e =
      tables.countP (·.name = e.owner) * catalog.count e := by
  induction tables with
  | nil => simp
  | cons t tables ih =>
    rw [List.flatMap_cons, List.count_append, ih, List.countP_cons, belonging, count_filter_eq,
      hsql, Bool.and_true, Nat.add_mul, Nat.add_comm]
    by_cases howner : t.name = e.owner
    · simp [howner]
    · simp [howner, Ne.symm howner]

/-- An object is among those that are reached as often as it is reached. -/
theorem count_reached (hsql : e.sql.isSome = true) :
    (reached catalog).count e = reaches catalog e * catalog.count e := by
  rw [reached, List.count_append, count_flatMap_belonging hsql, definedViews, count_filter_eq,
    if_pos hsql, ofKind, count_filter_eq, reaches, Nat.add_mul]
  by_cases hkind : e.kind = .view
  · simp [hkind]
  · simp [hkind]

theorem Entry.portable_iff : e.portable = true ↔
    e.sql.isSome = true ∧ Dump.isInternal e.name = false ∧ Dump.isInternal e.owner = false := by
  simp [portable, and_assoc]

/-- **Any catalog is complete if each object to be dumped is reached once.** -/
theorem complete_iff_reaches :
    Complete catalog ↔ ∀ e ∈ catalog, e.portable = true → reaches catalog e = 1 := by
  rw [Complete, List.perm_iff_count]
  constructor
  · intro h e he hp
    have hcount := h e
    rw [List.count_filter hp, List.count_filter hp, count_reached (Entry.portable_iff.mp hp).1]
      at hcount
    exact Nat.eq_of_mul_eq_mul_right (List.count_pos_iff.mpr he) (hcount.trans (Nat.one_mul _).symm)
  · intro h e
    rw [count_filter_eq, count_filter_eq]
    by_cases hp : e.portable = true
    · rw [if_pos hp, if_pos hp, count_reached (Entry.portable_iff.mp hp).1]
      by_cases he : e ∈ catalog
      · rw [h e he hp, Nat.one_mul]
      · rw [List.count_eq_zero.mpr he, Nat.mul_zero]
    · rw [if_neg hp, if_neg hp]

/-! ## Well-formed catalogs -/

theorem mem_userTables : e ∈ userTables catalog ↔
    e ∈ catalog ∧ e.kind = .table ∧ Dump.isInternal e.name = false := by
  simp [userTables, ofKind, and_comm (a := Dump.isInternal e.name = false)]

/-- A name that SQLite does not keep for itself is the name of a table that is dumped if it is one
of a table. -/
theorem mem_names_iff {name : String} (hname : Dump.isInternal name = false) :
    name ∈ (userTables catalog).map (·.name) ↔ ∃ t ∈ catalog, t.kind = .table ∧ t.name = name := by
  rw [List.mem_map]
  constructor
  · rintro ⟨t, ht, rfl⟩
    obtain ⟨hmem, hkind, -⟩ := mem_userTables.mp ht
    exact ⟨t, hmem, hkind, rfl⟩
  · rintro ⟨t, ht, hkind, rfl⟩
    exact ⟨t, mem_userTables.mpr ⟨ht, hkind, hname⟩, rfl⟩

namespace WellFormed

/-- No two entries that own others have one name. -/
theorem eq_of_name (h : WellFormed catalog) {s t : Entry} (hs : s ∈ catalog) (ht : t ∈ catalog)
    (hsowns : s.kind.owns = true) (htowns : t.kind.owns = true) (hname : s.name = t.name) :
    s = t :=
  List.inj_on_of_nodup_map h.distinct (List.mem_filter.mpr ⟨hs, hsowns⟩)
    (List.mem_filter.mpr ⟨ht, htowns⟩) hname

/-- An object of a table is reached by way of that table, which is asked for once. -/
theorem reaches_of_table (h : WellFormed catalog) (howner : Dump.isInternal e.owner = false)
    (htable : ∃ t ∈ catalog, t.kind = .table ∧ t.name = e.owner) :
    reaches catalog e = 1 + if e.kind = .view then 1 else 0 := by
  have hsub : ((userTables catalog).map (·.name)).Sublist
      ((catalog.filter (·.kind.owns)).map (·.name)) := by
    refine List.Sublist.map _ (List.filter_sublist.trans ?_)
    exact List.monotone_filter_right _ fun t ht => by
      rw [of_decide_eq_true ht]
      rfl
  have hmem := (mem_names_iff howner).mpr htable
  have hcount := List.count_eq_one_of_mem (h.distinct.sublist hsub) hmem
  rw [List.count, List.countP_map] at hcount
  rw [reaches, ← hcount]
  rfl

end WellFormed

/-- What belongs to no table is not reached by way of one. -/
theorem reaches_of_no_table (howner : Dump.isInternal e.owner = false)
    (hnone : ¬ ∃ t ∈ catalog, t.kind = .table ∧ t.name = e.owner) :
    reaches catalog e = if e.kind = .view then 1 else 0 := by
  have hcount : (userTables catalog).countP (·.name = e.owner) = 0 := by
    refine List.countP_eq_zero.mpr fun t ht hname => ?_
    exact hnone ((mem_names_iff howner).mp (List.mem_map.mpr ⟨t, ht, of_decide_eq_true hname⟩))
  rw [reaches, hcount, Nat.zero_add]

/-- **How often an object of a well-formed catalog is reached.** -/
theorem WellFormed.reaches_eq_one_iff (h : WellFormed catalog) (he : e ∈ catalog)
    (hp : e.portable = true) :
    reaches catalog e = 1 ↔
      (e.kind = .trigger → ∀ v ∈ catalog, v.kind = .view → v.name ≠ e.owner) := by
  obtain ⟨-, -, howner⟩ := Entry.portable_iff.mp hp
  cases hkind : e.kind with
  | table =>
    have hown : e.owner = e.name := h.own e he (by rw [hkind]; rfl)
    rw [h.reaches_of_table howner ⟨e, he, hkind, hown.symm⟩, hkind]
    exact iff_of_true rfl nofun
  | index =>
    rw [h.reaches_of_table howner (h.indexed e he hkind), hkind]
    exact iff_of_true rfl nofun
  | view =>
    -- A table of that name would be the view itself.
    have hown : e.owner = e.name := h.own e he (by rw [hkind]; rfl)
    have hnone : ¬ ∃ t ∈ catalog, t.kind = .table ∧ t.name = e.owner := by
      rintro ⟨t, ht, htkind, htname⟩
      have heq := h.eq_of_name ht he (by rw [htkind]; rfl) (by rw [hkind]; rfl)
        (htname.trans hown)
      rw [heq, hkind] at htkind
      cases htkind
    rw [reaches_of_no_table howner hnone, hkind]
    exact iff_of_true rfl nofun
  | trigger =>
    obtain ⟨t, ht, howns, htname⟩ := h.triggered e he hkind
    have hunique {s : Entry} (hs : s ∈ catalog) (hsowns : s.kind.owns = true)
        (hsname : s.name = e.owner) : s = t :=
      h.eq_of_name hs ht hsowns howns (hsname.trans htname.symm)
    cases htkind : t.kind with
    | table =>
      rw [h.reaches_of_table howner ⟨t, ht, htkind, htname⟩, hkind]
      refine iff_of_true rfl fun _ v hv hvkind hvname => ?_
      rw [hunique hv (by rw [hvkind]; rfl) hvname, htkind] at hvkind
      cases hvkind
    | view =>
      have hnone : ¬ ∃ s ∈ catalog, s.kind = .table ∧ s.name = e.owner := by
        rintro ⟨s, hs, hskind, hsname⟩
        rw [hunique hs (by rw [hskind]; rfl) hsname, htkind] at hskind
        cases hskind
      rw [reaches_of_no_table howner hnone, hkind]
      exact iff_of_false nofun fun hviews => hviews rfl t ht htkind htname
    | index | trigger =>
      rw [htkind] at howns
      cases howns

/-- **A well-formed catalog is complete if no trigger to be dumped belongs to a view.** -/
theorem WellFormed.complete_iff_triggers (h : WellFormed catalog) :
    Complete catalog ↔ ∀ e ∈ catalog, e.portable = true → e.kind = .trigger →
      ∀ v ∈ catalog, v.kind = .view → v.name ≠ e.owner := by
  rw [complete_iff_reaches]
  exact forall₃_congr fun e he hp => h.reaches_eq_one_iff he hp

end

end Catalog

namespace Dump

open Catalog

/-! ## The definitions in a script -/

/-- The definition that a line writes. -/
def Line.definition? : Line → Option String
  | definition text => some text
  | foreignKeys | beginTransaction | row _ _ | commit => none

/-- The definitions of a script, in order. -/
def definitions (ls : List Line) : List String := ls.filterMap Line.definition?

theorem definitions_append (a b : List Line) :
    definitions (a ++ b) = definitions a ++ definitions b :=
  List.filterMap_append

theorem definitions_map_definition (texts : List String) :
    definitions (texts.map .definition) = texts := by
  rw [definitions, List.filterMap_map]
  exact List.filterMap_some

theorem definitions_map_row (table : String) (rows : List Row) :
    definitions (rows.map (.row table)) = [] := by
  rw [definitions, List.filterMap_map]
  exact List.filterMap_eq_nil_iff.mpr fun _ _ => rfl

theorem definitions_openingLines (settings : DumpSettings) :
    definitions (openingLines settings) = [] := by
  rw [openingLines]
  split <;> rfl

theorem definitions_closingLines (settings : DumpSettings) :
    definitions (closingLines settings) = [] := by
  rw [closingLines]
  split <;> rfl

/-- Of the definitions that belong to a table each is its own or attached to it. -/
theorem perm_ofPairs (pairs : List (String × String)) :
    ((TableDefinitions.ofPairs pairs).own.toList ++ (TableDefinitions.ofPairs pairs).attached).Perm
      (pairs.map (·.2)) := by
  suffices hfold : ∀ d : TableDefinitions,
      ((pairs.foldl (fun d pair => d.add pair.1 pair.2) d).own.toList ++
        (pairs.foldl (fun d pair => d.add pair.1 pair.2) d).attached).Perm
        (d.own.toList ++ d.attached ++ pairs.map (·.2)) from hfold {}
  induction pairs with
  | nil => simp
  | cons pair pairs ih =>
    obtain ⟨kind, definition⟩ := pair
    intro d
    have hadd : ((d.add kind definition).own.toList ++ (d.add kind definition).attached).Perm
        (d.own.toList ++ d.attached ++ [definition]) := by
      rw [TableDefinitions.add]
      split
      case isTrue hown =>
        rw [Bool.and_eq_true, Option.isNone_iff_eq_none] at hown
        simp [hown.2, List.perm_append_singleton, List.Perm.symm]
      case isFalse => simp
    rw [List.foldl_cons, List.map_cons, List.append_cons]
    exact (ih _).trans (hadd.append_right _)

theorem definitions_linesOf (catalog : List Entry) (data : String → List Row) (t : Entry) :
    (definitions (linesOf catalog data t)).Perm
      ((belonging catalog t.name).filterMap (·.sql)) := by
  have hdescribed : (described (belonging catalog t.name)).map (·.2) =
      (belonging catalog t.name).filterMap (·.sql) := by
    simp [described, List.map_filterMap]
  rw [linesOf, linesAround, definitions_append, definitions_append, definitions_map_definition,
    definitions_map_row, definitions_map_definition, List.append_nil, ← hdescribed]
  exact perm_ofPairs _

section

variable {settings : DumpSettings} {backend : Backend} {catalog tables views : List Entry}

/-- **The definitions in a script are those of the objects that are reached.** -/
theorem definitions_scriptOf (hall : ∀ name, settings.exclusions.allows name = true)
    (htables : tables.Perm (ofKind .table catalog)) (hviews : views.Perm (definedViews catalog))
    (data : String → List Row) :
    (definitions (scriptOf settings catalog data tables views)).Perm
      ((reached catalog).filterMap (·.sql)) := by
  have hdumped : (dumped settings tables).Perm (userTables catalog) := by
    have hkept : dumped settings tables = tables.filter (!isInternal ·.name) :=
      List.filter_congr fun t _ => by rw [hall, Bool.true_and]
    rw [hkept]
    exact htables.filter _
  have hlines : (definitions ((dumped settings tables).flatMap (linesOf catalog data))).Perm
      (((userTables catalog).flatMap fun t => belonging catalog t.name).filterMap (·.sql)) := by
    rw [definitions, List.filterMap_flatMap, List.filterMap_flatMap]
    exact hdumped.flatMap fun t _ => definitions_linesOf catalog data t
  rw [scriptOf, definitions_append, definitions_append, definitions_append,
    definitions_openingLines, definitions_closingLines, definitions_map_definition,
    List.append_nil, List.nil_append, reached, List.filterMap_append]
  exact hlines.append (hviews.filterMap _)

/-- **A dump defines what it reaches.** A database that answers its catalog is dumped to the end,
and the definitions in the script are those of the objects that are reached. They are all objects
to be dumped, once each, if and only if each of them is reached once; in a well-formed catalog this
means that no trigger to be dumped belongs to a view. -/
theorem schema_complete_iff (h : Answers backend catalog)
    (hall : ∀ name, settings.exclusions.allows name = true)
    (hinclude : settings.includeViews = true) :
    ∃ ls, Writes backend { settings } (ls.map Line.text) ∧
      (definitions ls).Perm ((reached catalog).filterMap (·.sql)) ∧
      (Complete catalog ↔ ∀ e ∈ catalog, e.portable = true → reaches catalog e = 1) ∧
      (WellFormed catalog →
        (Complete catalog ↔ ∀ e ∈ catalog, e.portable = true → e.kind = .trigger →
          ∀ v ∈ catalog, v.kind = .view → v.name ≠ e.owner)) := by
  obtain ⟨tables, views, data, htables, hviews, hscript⟩ := script?_of_answers h hinclude
  refine ⟨_, writes_iff.mpr ?_, definitions_scriptOf hall htables hviews data,
    complete_iff_reaches, WellFormed.complete_iff_triggers⟩
  rw [hscript]
  rfl

end

/-- A dump that leaves nothing out. -/
def everything : DumpSettings := { exclusions := .none }

/-- A table with an index of its own and one that SQLite made, a trigger of the table, and a
view. -/
def shelf : List Entry :=
  [⟨.table, "t", "t", some "CREATE TABLE t(a UNIQUE)"⟩, ⟨.index, "sqlite_autoindex_t_1", "t", none⟩,
    ⟨.view, "v", "v", some "CREATE VIEW v AS SELECT a FROM t"⟩,
    ⟨.trigger, "r", "t", some "CREATE TRIGGER r AFTER INSERT ON t BEGIN SELECT 1; END"⟩,
    ⟨.index, "i", "t", some "CREATE INDEX i ON t(a)"⟩]

theorem complete_shelf :
    Answers (serve shelf fun _ => [[.int 1]]) shelf ∧ WellFormed shelf ∧ Complete shelf ∧
      ∃ ls, Writes (serve shelf fun _ => [[.int 1]]) { settings := everything }
          (ls.map Line.text) ∧
        (definitions ls).Perm ["CREATE TABLE t(a UNIQUE)",
          "CREATE TRIGGER r AFTER INSERT ON t BEGIN SELECT 1; END", "CREATE INDEX i ON t(a)",
          "CREATE VIEW v AS SELECT a FROM t"] := by
  have hanswers := answers_serve shelf fun _ => [[.int 1]]
  have hall : ∀ name, everything.exclusions.allows name = true := fun _ => rfl
  have hwell : WellFormed shelf := by decide
  obtain ⟨ls, hwrites, hdefinitions, -, hcomplete⟩ := schema_complete_iff hanswers hall rfl
  refine ⟨hanswers, hwell, (hcomplete hwell).mpr (by decide), ls, hwrites, ?_⟩
  have hreached : (reached shelf).filterMap (·.sql) = ["CREATE TABLE t(a UNIQUE)",
      "CREATE TRIGGER r AFTER INSERT ON t BEGIN SELECT 1; END", "CREATE INDEX i ON t(a)",
      "CREATE VIEW v AS SELECT a FROM t"] := by decide
  rwa [hreached] at hdefinitions

/-- A view that can be inserted into. -/
def window : List Entry :=
  [⟨.view, "v", "v", some "CREATE VIEW v AS SELECT 1 AS a"⟩,
    ⟨.trigger, "r", "v", some "CREATE TRIGGER r INSTEAD OF INSERT ON v BEGIN SELECT 1; END"⟩]

/-- **The trigger of a view is lost.** It is an object to be dumped of a well-formed catalog, and no
line of the only script there is defines it. -/
theorem lost_trigger_of_view :
    WellFormed window ∧ Answers (serve window fun _ => []) window ∧ ¬ Complete window ∧
      ∀ lines, Writes (serve window fun _ => []) { settings := everything } lines ↔
        lines = ["PRAGMA foreign_keys=OFF;", "BEGIN TRANSACTION;",
          "CREATE VIEW v AS SELECT 1 AS a;", "COMMIT;"] := by
  refine ⟨by decide, answers_serve window _, by decide, fun lines => ?_⟩
  have htables : inOrder (ofKind .table window) = [] := List.mergeSort_nil
  have hviews : inOrder (definedViews window) = definedViews window := List.mergeSort_singleton _
  have hscript : (scriptOf everything window (fun _ => []) [] (definedViews window)).map Line.text =
      ["PRAGMA foreign_keys=OFF;", "BEGIN TRANSACTION;", "CREATE VIEW v AS SELECT 1 AS a;",
        "COMMIT;"] := by decide
  rw [writes_iff, script?_serve rfl, htables, hviews, Option.map_some, hscript, Option.some.injEq,
    eq_comm]

end Dump

end SqlConsole
