import SqlConsole.Output
import SqlConsole.Proofs.Batch.Use

/-!
# What printing uses

Printing reads rows and asks for result sets, as the settings and the room of the sink have it. So
what is printed depends on the database alone, like what is read (`Batch.print_uses`,
`Connection.print_uses`).
-/

namespace SqlConsole

namespace Printer

variable {σ : Type} (p : Printer σ)

theorem feed_uses (cancelled : Bool) (fuel : Nat) (s : σ) (b : Batch) (sink : Sink) :
    ∃ error b₁ out n,
      ∀ conn, p.feed cancelled fuel s b conn sink = ⟨error, b₁, conn.used [] n, out⟩ := by
  induction fuel generalizing s b sink with
  | zero => exact ⟨none, b, sink, 0, fun conn => by rw [feed, conn.used_nil]⟩
  | succ fuel ih =>
    obtain ⟨result, b₁, n, -, hrow⟩ := Batch.row_uses cancelled b
    cases result with
    | error e => exact ⟨some e, b₁, _, n, fun conn => by rw [feed, hrow]⟩
    | done => exact ⟨_, b₁, _, n, fun conn => by rw [feed, hrow]⟩
    | row cells =>
      rcases hput : sink.putAll (p.row s cells).2 with ⟨_ | e, out⟩
      · obtain ⟨error, b₂, out', m, hfeed⟩ := ih (p.row s cells).1 b₁ out
        refine ⟨error, b₂, out', n + m, fun conn => ?_⟩
        simp only [feed, hrow, hput, hfeed, Connection.used_used, List.append_nil]
      · exact ⟨some e, b₁, out, n, fun conn => by simp only [feed, hrow, hput]⟩

theorem drain_uses (cancelled : Bool) (columns : List String) (b : Batch) (sink : Sink) :
    ∃ error b₁ out n,
      ∀ conn, p.drain cancelled columns b conn sink = ⟨error, b₁, conn.used [] n, out⟩ := by
  rcases hput : sink.putAll (p.start columns).2 with ⟨_ | e, out⟩
  · obtain ⟨error, b₁, out', n, hfeed⟩ :=
      p.feed_uses cancelled (b.reach (patience out)) (p.start columns).1 b out
    exact ⟨error, b₁, out', n, fun conn => by simp only [drain, hput, hfeed]⟩
  · exact ⟨some e, b, out, 0, fun conn => by simp only [drain, hput, conn.used_nil]⟩

end Printer

/-- **Printing a result set** runs nothing. -/
theorem Layout.print_uses (layout : Layout) (cancelled : Bool) (columns : List String) (b : Batch)
    (sink : Sink) :
    ∃ error b₁ out n,
      ∀ conn, layout.print cancelled columns b conn sink = ⟨error, b₁, conn.used [] n, out⟩ := by
  cases layout with
  | silent => exact Printer.silent.drain_uses cancelled columns b sink
  | plan => exact Plan.printer.drain_uses cancelled columns b sink
  | table header => exact (Table.printer header).drain_uses cancelled columns b sink
  | csv header => exact (Csv.printer header).drain_uses cancelled columns b sink
  | json => exact Records.printer.drain_uses cancelled columns b sink

namespace Batch

theorem printWithin_uses (cancelled : Bool) (settings : PrintSettings) (fuel : Nat) (b : Batch)
    (sink : Sink) (backend : Backend) :
    ∃ error log n out, ∀ conn, conn.backend = backend →
      b.printWithin cancelled settings fuel conn sink = (error, conn.used log n, out) := by
  induction fuel generalizing b sink with
  | zero => exact ⟨none, [], 0, sink, fun conn _ => by rw [printWithin, conn.used_nil]⟩
  | succ fuel ih =>
    obtain ⟨result, b₁, log, n, -, -, hnext⟩ := next_uses cancelled b backend
    cases result with
    | done => exact ⟨none, log, n, sink, fun conn h => by rw [printWithin, hnext conn h]⟩
    | error e => exact ⟨some e, log, n, sink, fun conn h => by rw [printWithin, hnext conn h]⟩
    | columns columns =>
      obtain ⟨failure, b₂, out, m, hprint⟩ :=
        Layout.print_uses (.choose columns settings) cancelled columns b₁ sink
      cases failure with
      | some e =>
        refine ⟨some e, log, n + m, out, fun conn h => ?_⟩
        simp only [printWithin, hnext conn h, hprint, Connection.used_used, List.append_nil]
      | none =>
        obtain ⟨error, log', k, out', hrest⟩ := ih b₂ out
        refine ⟨error, log ++ log', n + m + k, out', fun conn h => ?_⟩
        have hmid := hrest (conn.used log (n + m)) h
        simp only [printWithin, hnext conn h, hprint, Connection.used_used, List.append_nil, hmid]

/-- **Printing a batch** runs statements and prints what they yield. -/
theorem print_uses (cancelled : Bool) (settings : PrintSettings) (b : Batch) (sink : Sink)
    (backend : Backend) :
    ∃ error log n out, ∀ conn, conn.backend = backend →
      b.print cancelled settings conn sink = (error, conn.used log n, out) := by
  obtain ⟨error, log, n, out, hprint⟩ :=
    printWithin_uses cancelled settings (b.setsLeft backend) b sink backend
  exact ⟨error, log, n, out, fun conn h => by rw [print, h, hprint conn h]⟩

end Batch

theorem Connection.print_uses (conn : Connection) (sql : String) (settings : PrintSettings)
    (sink : Sink) :
    ∃ error log n out, ∀ c : Connection, c.Alike conn →
      c.print sql settings sink = (error, c.used log n, out) := by
  obtain ⟨error, log, n, out, hprint⟩ :=
    (Batch.start (Statement.split sql) conn).print_uses false settings sink conn.backend
  refine ⟨error, log, n, out, fun c h => ?_⟩
  have hstart : Batch.start (Statement.split sql) c = Batch.start (Statement.split sql) conn := by
    rw [Batch.start, Batch.start, h.broken]
  rw [print, hstart, hprint c h.backend]

end SqlConsole
