import SqlConsole.Proofs.Dump.Extent

/-!
# Sinks that are full

Whatever is printed, a sink that takes so many bytes and no more gets the first bytes of what a sink
without a limit gets. If these are not all, printing fails, and runs no statement that it would not
have run by then. If they are all, it makes no difference that there is a limit.

This is so for everything that is printed (`Printing`), because all of it follows a course
(`Printing.run_eq_play`), and a course that is cut is the beginning of the whole one.
-/

namespace SqlConsole

/-- Something to print. -/
inductive Printing where
  /-- What the statements of a text yield. -/
  | text (sql : String) (settings : PrintSettings)
  /-- What a batch has still to yield. -/
  | batch (b : Batch) (cancelled : Bool) (settings : PrintSettings)
  /-- The current result set of a batch, in some layout. -/
  | set (layout : Layout) (columns : List String) (b : Batch) (cancelled : Bool)
  /-- The lines that are left of a dump. -/
  | dump (d : Dump) (cancelled : Bool)
  | error (e : Error)

namespace Printing

/-- Prints to a sink; gives the error, if there is one. -/
def run (conn : Connection) (sink : Sink) : Printing → Option Error × Connection × Sink
  | text sql settings => conn.print sql settings sink
  | batch b cancelled settings => b.print cancelled settings conn sink
  | set layout columns b cancelled =>
    let printed := layout.print cancelled columns b conn sink
    (printed.error, printed.conn, printed.sink)
  | dump d cancelled => d.write cancelled conn sink
  | error e =>
    let (failure, sink) := e.print sink
    (failure, conn, sink)

/-- **Printing comes to an end** if there is no limit. -/
def Ends (conn : Connection) : Printing → Prop
  | text sql _ => (Batch.start (Statement.split sql) conn).Finishes false conn
  | batch b cancelled _ => b.Finishes cancelled conn
  | set _ _ b cancelled =>
    ∃ k cells stop s, b.rows cancelled k conn = (cells, some stop, s)
  | dump d cancelled => d.Finishes cancelled conn
  | error _ => True

/-- **All that is printed** is printed along a course. -/
theorem run_eq_play {p : Printing} {conn : Connection} (h : p.Ends conn) :
    ∃ c : Course Connection, c.Runs (·.log) conn.log ∧ ∀ sink, p.run conn sink = c.play sink := by
  cases p with
  | text sql settings => exact Batch.Finishes.print_eq_play h settings
  | batch b cancelled settings => exact Batch.Finishes.print_eq_play h settings
  | set layout columns b cancelled =>
    obtain ⟨k, cells, stop, s, hrows⟩ := h
    obtain ⟨c, hruns, -, hprint⟩ := layout.print_eq_printed hrows columns
    refine ⟨c.andThen Prod.snd (.through none c.ending.2.2),
      hruns.andThen (fun _ => rfl) (List.prefix_refl _), fun sink => ?_⟩
    simp only [run, hprint, Course.printed, Course.play_andThen]
    rcases hplay : c.play sink with ⟨_ | e, left, out⟩
    · rw [Course.ending_of_play hplay]
      rfl
    · rfl
  | dump d cancelled => exact Dump.Finishes.write_eq_play h
  | error e =>
    refine ⟨.puts [.line ("Error: " ++ e.message)] conn (.through none conn),
      Course.Runs.puts_through (·.log) _ _ conn, fun sink => ?_⟩
    simp only [run, Error.print, Course.play_puts]
    rcases sink.putAll [.line ("Error: " ++ e.message)] with ⟨_ | e, out⟩ <;> rfl

/-- **A limit cuts what is printed.** Of what is printed without a limit, a sink with room for
`limit` bytes gets the first of them, exactly so many or all. With fewer than all printing fails;
with all it gives what it gives without a limit. The statements that it runs are the first of those
that are run without a limit. -/
theorem run_limited (p : Printing) (conn : Connection) (h : p.Ends conn) (limit : Nat) :
    let (failure, left, full) := p.run conn {}
    let (failure', left', cut) := p.run conn { room := some limit }
    cut.written = full.written.take limit ∧
      (limit < full.written.length → failure' ≠ none) ∧
      (full.written.length ≤ limit → failure' = failure ∧ left' = left) ∧
      left'.log <+: left.log := by
  obtain ⟨c, hruns, hplay⟩ := run_eq_play h
  have hfull : c.play {} = _ := c.play_of_fits (by simp)
  have hlog := hruns.play { room := some limit }
  simp only [hplay, hfull, List.nil_append]
  by_cases hfits : c.bytes.length ≤ limit
  · have hcut : c.play { room := some limit } = _ := c.play_of_fits (by simpa using hfits)
    rw [hcut]
    refine ⟨?_, fun hless => by omega, fun _ => ⟨rfl, rfl⟩, List.prefix_refl _⟩
    rw [List.take_of_length_le hfits, List.nil_append]
  · obtain ⟨e, left, hcut⟩ := c.play_of_cut (Nat.lt_of_not_le hfits) []
    rw [hcut] at hlog ⊢
    exact ⟨List.nil_append _, fun _ => by simp, fun hall => absurd hall hfits, hlog⟩

/-- A database with two tables of one column. -/
def twoColumns : Connection :=
  { backend := .ofScripts [("SELECT a", { sets := [(["a"], [[.int 1], [.int 2]])] }),
      ("SELECT b", { sets := [(["b"], [[.int 3]])] })] }

/-- Both of them as comma-separated values, in ten bytes. -/
def bothColumns : Printing := .text "SELECT a; SELECT b" { mode := .csv }

/-- Five bytes are not enough for the first of them, and the second one is not asked for. -/
theorem run_limited_bothColumns :
    bothColumns.Ends twoColumns ∧
      (let (failure, left, full) := bothColumns.run twoColumns {}
      let (failure', left', cut) := bothColumns.run twoColumns { room := some 5 }
      cut.written = full.written.take 5 ∧
        (5 < full.written.length → failure' ≠ none) ∧
        (full.written.length ≤ 5 → failure' = failure ∧ left' = left) ∧
        left'.log <+: left.log) ∧
      (bothColumns.run twoColumns {}).2.2.written.length = 10 ∧
      (bothColumns.run twoColumns { room := some 5 }).2.1.log = ["SELECT a"] := by
  have hends : bothColumns.Ends twoColumns :=
    .set (k := 3) rfl rfl fun _ => .set (k := 2) rfl rfl fun _ => .last fun columns h => nomatch h
  exact ⟨hends, run_limited bothColumns twoColumns hends 5, rfl, rfl⟩

end Printing

end SqlConsole
