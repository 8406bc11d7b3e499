import SqlConsole.Proofs.Batch.Extent
import SqlConsole.Proofs.Batch.Printing

/-!
# The course of printing

What is printed does not depend on the sink. There is one course of chunks, and a sink that is full
only ends it early (`Course.play`). So it is enough to know of a course what all of its chunks come
to: a sink with room for them takes them all (`Course.play_of_fits`), and any other sink takes the
first bytes and no more, and makes it fail (`Course.play_of_cut`). The statements that are run until
then are the first of those that are run in the end (`Course.Runs.play`).

A result set that comes to an end is printed along a course (`Layout.print_eq_printed`), and so is a
batch of such result sets (`Batch.Finishes.print_eq_play`). The bounds within which a printer reads
depend on the sink; but how many rows there are is known from the batch, so these bounds are never
met.
-/

namespace SqlConsole

/-- What is done in order to print something. -/
inductive Course (α : Type) where
  /-- Nothing more is written, perhaps because of an error. -/
  | through (error : Option Error) (left : α)
  /-- A chunk is written; `left` is what is left if it cannot be. -/
  | put (chunk : Chunk) (left : α) (rest : Course α)

namespace Course

variable {α β : Type}

/-- Goes as far as a sink lets it. -/
def play : Course α → Sink → Option Error × α × Sink
  | through error left, sink => (error, left, sink)
  | put chunk left rest, sink =>
    match sink.put chunk.bytes with
    | (true, sink) => rest.play sink
    | (false, sink) => (some (chunk.failure Sink.fullMessage), left, sink)

/-- All that is written. -/
def bytes : Course α → List UInt8
  | through _ _ => []
  | put chunk _ rest => chunk.bytes ++ rest.bytes

/-- What it comes to if all is written. -/
def ending : Course α → Option Error × α
  | through error left => (error, left)
  | put _ _ rest => rest.ending

/-- A sink with room for all bytes takes all. -/
theorem play_of_fits (c : Course α) {sink : Sink}
    (h : ∀ room, sink.room = some room → c.bytes.length ≤ room) :
    c.play sink =
      (c.ending.1, c.ending.2, ⟨sink.room.map (· - c.bytes.length), sink.written ++ c.bytes⟩) := by
  induction c generalizing sink with
  | through error left =>
    obtain ⟨room, written⟩ := sink
    cases room <;> simp [play, ending, bytes]
  | put chunk left rest ih =>
    obtain ⟨_ | room, written⟩ := sink
    · have hrest := @ih ⟨none, written ++ chunk.bytes⟩ (by simp)
      simp only [play, Sink.put, hrest, ending, bytes, List.append_assoc, Option.map_none]
    · have hfits : chunk.bytes.length + rest.bytes.length ≤ room := by
        simpa [bytes] using h room rfl
      have hchunk : chunk.bytes.length ≤ room := by omega
      have hrest := @ih ⟨some (room - chunk.bytes.length), written ++ chunk.bytes⟩ (by
        rintro _ ⟨⟩
        show rest.bytes.length ≤ room - chunk.bytes.length
        omega)
      simp only [play, Sink.put, hchunk, decide_true, List.take_of_length_le hchunk, hrest, ending,
        bytes, List.append_assoc, Option.map_some, List.length_append, Nat.sub_sub]

/-- Any other sink is filled with the first bytes, and that is an error. -/
theorem play_of_cut (c : Course α) {room : Nat} (h : room < c.bytes.length) (written : List UInt8) :
    ∃ e left, c.play ⟨some room, written⟩ =
      (some e, left, ⟨some 0, written ++ c.bytes.take room⟩) := by
  induction c generalizing room written with
  | through error left => exact absurd h (Nat.not_lt_zero _)
  | put chunk left rest ih =>
    by_cases hchunk : chunk.bytes.length ≤ room
    · have hrest : room - chunk.bytes.length < rest.bytes.length := by
        have hall : room < chunk.bytes.length + rest.bytes.length := by simpa [bytes] using h
        omega
      obtain ⟨e, left', hplay⟩ := ih hrest (written ++ chunk.bytes)
      refine ⟨e, left', ?_⟩
      simp only [play, Sink.put, hchunk, decide_true, List.take_of_length_le hchunk, hplay, bytes,
        List.take_append, List.append_assoc]
    · refine ⟨chunk.failure Sink.fullMessage, left, ?_⟩
      have hfull : room - chunk.bytes.length = 0 := by omega
      simp only [play, Sink.put, hchunk, decide_false, bytes, List.take_append, hfull,
        List.take_zero, List.append_nil]

/-- What comes of a sink that took all. -/
theorem ending_of_play {c : Course α} {sink out : Sink} {left : α}
    (h : c.play sink = (none, left, out)) : c.ending = (none, left) := by
  induction c generalizing sink with
  | through error left =>
    simp only [play, Prod.mk.injEq] at h
    rw [ending, h.1, h.2.1]
  | put chunk left rest ih =>
    rcases hput : sink.put chunk.bytes with ⟨_ | _, out'⟩
    · simp [play, hput] at h
    · simp only [play, hput] at h
      exact ih h

/-! ## What is run meanwhile -/

section Runs

variable (log : α → List String)

/-- The statements that are run are added to those that were run, chunk after chunk. -/
def Runs (ran : List String) : Course α → Prop
  | through _ left => ran <+: log left
  | put _ left rest => ran <+: log left ∧ rest.Runs (log left)

variable {log} {c : Course α} {ran : List String}

theorem Runs.ending (h : c.Runs log ran) : ran <+: log c.ending.2 := by
  induction c generalizing ran with
  | through error left => exact h
  | put chunk left rest ih => exact h.1.trans (ih h.2)

theorem Runs.mono (h : c.Runs log ran) {before : List String} (hran : before <+: ran) :
    c.Runs log before := by
  cases c with
  | through error left => exact hran.trans h
  | put chunk left rest => exact ⟨hran.trans h.1, h.2⟩

/-- **No sink makes more statements run**, or others. -/
theorem Runs.play (h : c.Runs log ran) (sink : Sink) :
    log (c.play sink).2.1 <+: log c.ending.2 := by
  induction c generalizing ran sink with
  | through error left => exact List.prefix_refl _
  | put chunk left rest ih =>
    rcases hput : sink.put chunk.bytes with ⟨_ | _, out⟩
    · simp only [Course.play, hput]
      exact h.2.ending
    · simp only [Course.play, hput]
      exact ih h.2 out

end Runs

/-! ## Courses out of courses -/

/-- Writes chunks, and all of them leave the same. -/
def puts (chunks : List Chunk) (left : α) (rest : Course α) : Course α :=
  chunks.foldr (fun chunk rest => put chunk left rest) rest

theorem play_puts (chunks : List Chunk) (left : α) (rest : Course α) (sink : Sink) :
    (puts chunks left rest).play sink =
      match sink.putAll chunks with
      | (none, out) => rest.play out
      | (some e, out) => (some e, left, out) := by
  induction chunks generalizing sink with
  | nil => rfl
  | cons chunk chunks ih =>
    rcases hput : sink.put chunk.bytes with ⟨_ | _, out⟩
    · simp only [puts, List.foldr_cons, play, hput, Sink.putAll]
    · simp only [puts, List.foldr_cons, play, hput, Sink.putAll]
      exact ih out

theorem ending_puts (chunks : List Chunk) (left : α) (rest : Course α) :
    (puts chunks left rest).ending = rest.ending := by
  induction chunks with
  | nil => rfl
  | cons chunk chunks ih => exact ih

theorem Runs.puts {log : α → List String} {rest : Course α} (left : α)
    (h : rest.Runs log (log left)) (chunks : List Chunk) :
    (puts chunks left rest).Runs log (log left) := by
  induction chunks with
  | nil => exact h
  | cons chunk chunks ih => exact ⟨List.prefix_refl _, ih⟩

/-- Writes chunks and is through. -/
theorem Runs.puts_through (log : α → List String) (chunks : List Chunk) (error : Option Error)
    (left : α) : (Course.puts chunks left (through error left)).Runs log (log left) :=
  @Runs.puts _ log (through error left) left (List.prefix_refl (log left)) chunks

/-- Goes on with another course once it is through, unless there was an error. -/
def andThen : Course α → (α → β) → Course β → Course β
  | through none _, _, next => next
  | through (some e) left, f, _ => through (some e) (f left)
  | put chunk left rest, f, next => put chunk (f left) (rest.andThen f next)

theorem play_andThen (c : Course α) (f : α → β) (next : Course β) (sink : Sink) :
    (c.andThen f next).play sink =
      match c.play sink with
      | (none, _, out) => next.play out
      | (some e, left, out) => (some e, f left, out) := by
  induction c generalizing sink with
  | through error left => cases error <;> rfl
  | put chunk left rest ih =>
    rcases hput : sink.put chunk.bytes with ⟨_ | _, out⟩
    · simp only [andThen, play, hput]
    · simp only [andThen, play, hput, ih]

theorem Runs.andThen {log : α → List String} {log' : β → List String} {f : α → β}
    (hf : ∀ left, log' (f left) = log left) {c : Course α} {ran : List String}
    (h : c.Runs log ran) {next : Course β} (hnext : next.Runs log' (log c.ending.2)) :
    (c.andThen f next).Runs log' ran := by
  induction c generalizing ran with
  | through error left =>
    cases error with
    | none => exact hnext.mono h
    | some e =>
      show ran <+: log' (f left)
      rw [hf]
      exact h
  | put chunk left rest ih =>
    rw [Course.andThen, Runs, hf]
    exact ⟨h.1, ih h.2 hnext⟩

end Course

/-! ## Printing follows a course -/

/-- The same bytes, and an error that is known already. -/
def Chunk.failing (e : Error) (chunk : Chunk) : Chunk := { chunk with failure := fun _ => e }

/-- What a sink takes does not depend on what is said when it is full. -/
theorem Sink.putAll_failing (e : Error) (chunks : List Chunk) (sink : Sink) :
    sink.putAll (chunks.map (.failing e)) =
      ((sink.putAll chunks).1.map fun _ => e, (sink.putAll chunks).2) := by
  induction chunks generalizing sink with
  | nil => rfl
  | cons chunk chunks ih =>
    rcases hput : sink.put chunk.bytes with ⟨_ | _, out⟩
    · simp only [List.map_cons, putAll, Chunk.failing, hput, Option.map_some]
    · simpa only [List.map_cons, putAll, Chunk.failing, hput] using ih out

/-- Prints a result set along a course. -/
def Course.printed (c : Course (Batch × Connection)) (sink : Sink) : Printed :=
  let (error, (batch, conn), sink) := c.play sink
  ⟨error, batch, conn, sink⟩

namespace Printer

variable {σ : Type} (p : Printer σ) {cancelled : Bool} {b b₁ : Batch} {conn conn₁ : Connection}

/-- The course behind the last row. -/
def closing (s : σ) (left : Batch × Connection) : Course (Batch × Connection) :=
  .puts (p.close s) left (.through none left)

/-- The course behind an error, which counts whether what is still written finds room or not. -/
def aborting (s : σ) (e : Error) (left : Batch × Connection) : Course (Batch × Connection) :=
  .puts ((p.abort s).map (.failing e)) left (.through (some e) left)

theorem feed_done (hrow : b.row cancelled conn = (.done, b₁, conn₁)) (fuel : Nat) (s : σ)
    (sink : Sink) :
    p.feed cancelled (fuel + 1) s b conn sink = (p.closing s (b₁, conn₁)).printed sink := by
  simp only [feed, hrow, Course.printed, closing, Course.play_puts]
  rcases sink.putAll (p.close s) with ⟨_ | e, out⟩ <;> rfl

theorem feed_error {e : Error} (hrow : b.row cancelled conn = (.error e, b₁, conn₁)) (fuel : Nat)
    (s : σ) (sink : Sink) :
    p.feed cancelled (fuel + 1) s b conn sink = (p.aborting s e (b₁, conn₁)).printed sink := by
  simp only [feed, hrow, Course.printed, aborting, Course.play_puts, Sink.putAll_failing]
  rcases sink.putAll (p.abort s) with ⟨_ | e', out⟩ <;> rfl

/-- A row is printed, and then the others. -/
theorem feed_row {first : Row} (hrow : b.row cancelled conn = (.row first, b₁, conn₁)) {fuel : Nat}
    {s : σ} {c : Course (Batch × Connection)}
    (hrest : ∀ sink, p.feed cancelled fuel (p.row s first).1 b₁ conn₁ sink = c.printed sink)
    (sink : Sink) :
    p.feed cancelled (fuel + 1) s b conn sink =
      (Course.puts (p.row s first).2 (b₁, conn₁) c).printed sink := by
  simp only [feed, hrow, Course.printed, Course.play_puts]
  rcases sink.putAll (p.row s first).2 with ⟨_ | e, out⟩
  · exact hrest out
  · rfl

/-- **Rows that come to an end** are printed along a course. -/
theorem feed_eq_printed {k : Nat} {cells : List Row} {stop : RowResult}
    (h : b.rows cancelled k conn = (cells, some stop, b₁, conn₁)) (s : σ) :
    ∃ c : Course (Batch × Connection),
      c.Runs (·.2.log) conn.log ∧ c.ending = (Batch.failure? (some stop), b₁, conn₁) ∧
      ∀ fuel sink, cells.length < fuel →
        p.feed cancelled fuel s b conn sink = c.printed sink := by
  induction k generalizing b conn cells s with
  | zero => cases h
  | succ k ih =>
    obtain ⟨first, more, b₂, conn₂, hrow, hrest, rfl⟩ | ⟨result, hresult, hrow, -, hstop⟩ :=
      Batch.rows_succ_cases h
    · obtain ⟨c, hruns, hending, hfeed⟩ := ih hrest (p.row s first).1
      refine ⟨.puts (p.row s first).2 (b₂, conn₂) c, ?_, ?_, fun fuel sink hfuel => ?_⟩
      · rw [← Batch.log_row hrow]
        exact hruns.puts (b₂, conn₂) _
      · rw [Course.ending_puts, hending]
      · obtain ⟨fuel, rfl⟩ := Nat.exists_eq_add_one_of_ne_zero (Nat.ne_zero_of_lt hfuel)
        exact p.feed_row hrow (fun out => hfeed fuel out (Nat.lt_of_succ_lt_succ hfuel)) sink
    · obtain rfl := Option.some.inj hstop
      rw [← Batch.log_row hrow]
      cases stop with
      | row cells => exact absurd rfl (hresult cells)
      | error e =>
        refine ⟨p.aborting s e (b₁, conn₁), Course.Runs.puts_through (·.2.log) _ _ (b₁, conn₁),
          Course.ending_puts _ _ _, fun fuel sink hfuel => ?_⟩
        obtain ⟨fuel, rfl⟩ := Nat.exists_eq_add_one_of_ne_zero (Nat.ne_zero_of_lt hfuel)
        exact p.feed_error hrow fuel s sink
      | done =>
        refine ⟨p.closing s (b₁, conn₁), Course.Runs.puts_through (·.2.log) _ _ (b₁, conn₁),
          Course.ending_puts _ _ _, fun fuel sink hfuel => ?_⟩
        obtain ⟨fuel, rfl⟩ := Nat.exists_eq_add_one_of_ne_zero (Nat.ne_zero_of_lt hfuel)
        exact p.feed_done hrow fuel s sink

theorem drain_eq_printed {k : Nat} {cells : List Row} {stop : RowResult}
    (h : b.rows cancelled k conn = (cells, some stop, b₁, conn₁)) (columns : List String) :
    ∃ c : Course (Batch × Connection),
      c.Runs (·.2.log) conn.log ∧ c.ending = (Batch.failure? (some stop), b₁, conn₁) ∧
      ∀ sink, p.drain cancelled columns b conn sink = c.printed sink := by
  obtain ⟨c, hruns, hending, hfeed⟩ := p.feed_eq_printed h (p.start columns).1
  refine ⟨.puts (p.start columns).2 (b, conn) c, hruns.puts (b, conn) _, ?_,
    fun sink => ?_⟩
  · rw [Course.ending_puts, hending]
  · simp only [drain, Course.printed, Course.play_puts]
    rcases sink.putAll (p.start columns).2 with ⟨_ | e, out⟩
    · exact hfeed _ out (Batch.length_lt_reach h _)
    · rfl

end Printer

/-- **A result set that comes to an end** is printed along a course. -/
theorem Layout.print_eq_printed (layout : Layout) {cancelled : Bool} {b b₁ : Batch}
    {conn conn₁ : Connection} {k : Nat} {cells : List Row} {stop : RowResult}
    (h : b.rows cancelled k conn = (cells, some stop, b₁, conn₁)) (columns : List String) :
    ∃ c : Course (Batch × Connection),
      c.Runs (·.2.log) conn.log ∧ c.ending = (Batch.failure? (some stop), b₁, conn₁) ∧
      ∀ sink, layout.print cancelled columns b conn sink = c.printed sink := by
  cases layout with
  | silent => exact Printer.silent.drain_eq_printed h columns
  | plan => exact Plan.printer.drain_eq_printed h columns
  | table header => exact (Table.printer header).drain_eq_printed h columns
  | csv header => exact (Csv.printer header).drain_eq_printed h columns
  | json => exact Records.printer.drain_eq_printed h columns

/-- **Printing a batch comes to an end**: each result set that is printed does. An error among its
rows is the end. -/
inductive Batch.Finishes (cancelled : Bool) : Batch → Connection → Prop
  | last {b : Batch} {conn : Connection}
    (h : ∀ columns, (b.next cancelled conn).1 ≠ .columns columns) : Finishes cancelled b conn
  | set {b b₁ b₂ : Batch} {conn conn₁ conn₂ : Connection} {columns : List String} {k : Nat}
    {cells : List Row} {stop : RowResult}
    (hnext : b.next cancelled conn = (.columns columns, b₁, conn₁))
    (hrows : b₁.rows cancelled k conn₁ = (cells, some stop, b₂, conn₂))
    (hrest : stop = .done → Finishes cancelled b₂ conn₂) : Finishes cancelled b conn

namespace Batch

variable {cancelled : Bool} {b : Batch} {conn : Connection}

theorem Finishes.printWithin_eq_play (h : b.Finishes cancelled conn) (settings : PrintSettings)
    (fuel : Nat) :
    ∃ c : Course Connection, c.Runs (·.log) conn.log ∧
      ∀ sink, b.printWithin cancelled settings fuel conn sink = c.play sink := by
  induction h generalizing fuel with
  | @last b conn h =>
    cases fuel with
    | zero => exact ⟨.through none conn, List.prefix_refl _, fun sink => rfl⟩
    | succ fuel =>
      obtain ⟨result, b₁, log, n, -, -, hnext⟩ := b.next_uses cancelled conn.backend
      have hnext := hnext conn rfl
      have hlog : conn.log <+: (conn.used log n).log := List.prefix_append _ _
      cases result with
      | columns columns => exact absurd (congrArg Prod.fst hnext) (h columns)
      | error e =>
        exact ⟨.through (some e) (conn.used log n), hlog, fun sink => by
          rw [printWithin, hnext]
          rfl⟩
      | done =>
        exact ⟨.through none (conn.used log n), hlog, fun sink => by
          rw [printWithin, hnext]
          rfl⟩
  | @set b b₁ b₂ conn conn₁ conn₂ columns k cells stop hnext hrows hrest ih =>
    cases fuel with
    | zero => exact ⟨.through none conn, List.prefix_refl _, fun sink => rfl⟩
    | succ fuel =>
      obtain ⟨result, _, log, n, -, -, huses⟩ := b.next_uses cancelled conn.backend
      obtain rfl : conn.used log n = conn₁ := congrArg (·.2.2) ((huses conn rfl).symm.trans hnext)
      obtain ⟨c, hruns, hending, hprint⟩ :=
        Layout.print_eq_printed (.choose columns settings) hrows columns
      have hrest : ∃ c' : Course Connection, c'.Runs (·.log) conn₂.log ∧
          (stop = .done → ∀ sink,
            b₂.printWithin cancelled settings fuel conn₂ sink = c'.play sink) := by
        by_cases hstop : stop = .done
        · obtain ⟨c', hruns', hmore⟩ := ih hstop fuel
          exact ⟨c', hruns', fun _ => hmore⟩
        · exact ⟨.through none conn₂, List.prefix_refl _, fun hdone => absurd hdone hstop⟩
      obtain ⟨c', hruns', hmore⟩ := hrest
      have hlog : conn.log <+: (conn.used log n).log := List.prefix_append _ _
      refine ⟨c.andThen Prod.snd c', ?_, fun sink => ?_⟩
      · refine (hruns.mono hlog).andThen (fun _ => rfl) ?_
        rw [hending]
        exact hruns'
      · simp only [printWithin, hnext, hprint, Course.printed, Course.play_andThen]
        rcases hplay : c.play sink with ⟨_ | e, ⟨b₃, conn₃⟩, out⟩
        · -- The result set was printed to its end, so it left what reading it leaves.
          have hend := (Course.ending_of_play hplay).symm.trans hending
          obtain ⟨hfailure, rfl, rfl⟩ : none = failure? (some stop) ∧ b₃ = b₂ ∧ conn₃ = conn₂ := by
            simpa using hend
          have hstop : stop = .done := by
            cases stop with
            | done => rfl
            | error e => cases hfailure
            | row cells => exact absurd hrows (rows_ne_row _ _ _ _)
          exact hmore hstop out
        · rfl

/-- **A batch whose result sets come to an end** is printed along a course. -/
theorem Finishes.print_eq_play (h : b.Finishes cancelled conn) (settings : PrintSettings) :
    ∃ c : Course Connection, c.Runs (·.log) conn.log ∧
      ∀ sink, b.print cancelled settings conn sink = c.play sink :=
  h.printWithin_eq_play settings _

end Batch

end SqlConsole
