import SqlConsole.Output.Printer
import SqlConsole.Value.Form

/-!
# Query plans

The rows of a query plan name themselves and their parents. The parent of a row is the last row
before it that has the name which the row gives for its parent; a row without one is a root. The
plan is drawn as a forest, each row a line, with branches down to its children.
-/

namespace SqlConsole.Plan

/-- The column names by which a query plan is known. -/
def columns : List String := ["id", "parent", "notused", "detail"]

/-- A row of a query plan. -/
structure Entry where
  id : String
  parent : String
  detail : String
  deriving DecidableEq, Repr

namespace Entry

/-- A row as an entry. Cells that it lacks are empty, the third one is not used. -/
def ofRow (cells : Row) : Entry :=
  let texts := cells.write .table
  ⟨texts[0]?.getD "", texts[1]?.getD "", texts[3]?.getD ""⟩

end Entry

/-- The position of the last entry with the given name. -/
def lastNamed? (id : String) : List Entry → Option Nat
  | [] => none
  | e :: es =>
    match lastNamed? id es with
    | some i => some (i + 1)
    | none => if e.id == id then some 0 else none

/-- The position of the parent of the entry at position `i`. -/
def parent? (entries : List Entry) (i : Nat) : Option Nat :=
  entries[i]?.bind fun e => lastNamed? e.parent (entries.take i)

/-- The positions of the entries without a parent. -/
def roots (entries : List Entry) : List Nat :=
  (List.range entries.length).filter fun i => (parent? entries i).isNone

/-- The positions of the children of the entry at position `i`. They stand behind it. -/
def children (entries : List Entry) (i : Nat) : List Nat :=
  (List.range entries.length).filter fun j => i < j && parent? entries j == some i

/-- An entry with all that hangs from it. -/
inductive Tree where
  | node (detail : String) (children : List Tree)

/-- The tree below the entry at position `i`. -/
def tree (entries : List Entry) (i : Nat) : Tree :=
  .node ((entries[i]?.map (·.detail)).getD "")
    ((children entries i).attach.map fun ⟨j, _⟩ => tree entries j)
termination_by entries.length - i
decreasing_by
  rename_i h
  simp only [children, List.mem_filter, List.mem_range, Bool.and_eq_true, decide_eq_true_eq] at h
  omega

/-- The trees of a plan. -/
def forest (entries : List Entry) : List Tree := (roots entries).map (tree entries)

mutual

/-- The lines of a tree behind the branches `lead`; the last of its siblings ends the branch. -/
def drawTree (lead : String) (last : Bool) : Tree → List String
  | .node detail children =>
    (lead ++ (if last then "`--" else "|--") ++ detail) ::
      drawForest (lead ++ if last then "   " else "|  ") children

/-- The lines of siblings. -/
def drawForest (lead : String) : List Tree → List String
  | [] => []
  | t :: ts => drawTree lead ts.isEmpty t ++ drawForest lead ts

end

/-- The lines of a plan below its title. -/
def lines (entries : List Entry) : List String := "QUERY PLAN" :: drawForest "" (forest entries)

/-- Collects the entries. -/
def printer : Printer (List Entry) where
  start _ := ([], [])
  row entries cells := (entries ++ [.ofRow cells], [])
  close entries := (lines entries).map .line
  abort _ := []

end SqlConsole.Plan
