import SqlConsole.Proofs.Batch.Cancel
import SqlConsole.Proofs.Dump.Answers
import SqlConsole.Proofs.Dump.Use

/-!
# A dump while things change

Between two lines of a dump it can be cancelled, and its connection can break. So each request for a
line is made at a `Moment` of its own, and the answers depend on the moments at which they were
asked for (`Dump.requestsAmid`).

What is known of some requests is put together from what is known of fewer: a dump `Leads` to
another one over some lines, or `Breaks` with an error. From step to step nothing has to be known of
the connection but the database behind it. Steps that hand over no line are taken within the request
that comes next, so they lead on over no lines at all (`Leads.of_next_eq`).

The rows of a table are `arriving` one by one. Who asks for a row makes the next one arrive, so it
is the moment of that request which counts for the row behind. How many rows are handed over and
what comes then is said by `Streams`, and `leads_streams` shows that this is what happens.
-/

namespace SqlConsole

/-- How things stand when a line is asked for. -/
structure Moment where
  /-- Whether the dump was cancelled. -/
  cancelled : Bool := false
  /-- Whether the connection is broken. -/
  broken : Bool := false
  deriving DecidableEq, Repr

/-- The connection as it is at a moment. -/
def Connection.amid (conn : Connection) (m : Moment) : Connection :=
  { conn with broken := m.broken }

namespace Rows

/-- The first rows, at most `n`. -/
def take : Nat → Rows → List Row
  | 0, _ => []
  | n + 1, rows =>
    match rows.next? with
    | some (row, rows) => row :: take n rows
    | none => []

theorem take_succ {rows rows' : Rows} {row : Row} (h : rows.next? = some (row, rows')) (n : Nat) :
    rows.take (n + 1) = row :: rows'.take n := by
  rw [take, h]

/-- The first rows are the first of all. -/
theorem isPrefix_take {rows : Rows} {all : List Row} (h : rows.all? = some all) (n : Nat) :
    rows.take n <+: all := by
  induction n generalizing rows all with
  | zero => exact List.nil_prefix
  | succ n ih =>
    cases hnext : rows.next? with
    | none =>
      rw [take, hnext]
      exact List.nil_prefix
    | some p =>
      rw [all?_of_next?_some hnext, Option.map_eq_some_iff] at h
      obtain ⟨rest, hrest, rfl⟩ := h
      rw [take_succ hnext]
      exact List.cons_prefix_cons.mpr ⟨rfl, ih hrest⟩

/-- As many rows as there are, are all. -/
theorem all?_of_size {rows : Rows} {n : Nat} (h : rows.size = n) :
    rows.all? = some (rows.take n) := by
  induction n generalizing rows with
  | zero => exact all?_of_next?_none ((size_eq_zero_iff rows).mp h)
  | succ n ih =>
    cases hnext : rows.next? with
    | none =>
      have hzero := (size_eq_zero_iff rows).mpr hnext
      rw [hzero] at h
      exact absurd h.symm (by simp)
    | some p =>
      have hsize : p.2.size = n := by
        rw [size_of_next? hnext, Nat.cast_succ] at h
        exact ENat.add_left_injective_of_ne_top ENat.one_ne_top h
      rw [all?_of_next?_some hnext, ih hsize, take_succ hnext]
      rfl

end Rows

namespace Dump

/-- The answers to the first `n` requests for a line from request number `k` on, each with what was
run by then. -/
def requestsAmid (moments : Nat → Moment) :
    Nat → Nat → Dump → Connection → List (LineResult × List String)
  | 0, _, _, _ => []
  | n + 1, k, d, conn =>
    let (result, d, conn) := d.next (moments k).cancelled (conn.amid (moments k))
    (result, conn.log) :: requestsAmid moments n (k + 1) d conn

/-- The first requests are answered as they are if there are more. -/
theorem isPrefix_requestsAmid (moments : Nat → Moment) (n m k : Nat) (d : Dump)
    (conn : Connection) :
    requestsAmid moments n k d conn <+: requestsAmid moments (n + m) k d conn := by
  induction n generalizing k d conn with
  | zero => exact List.nil_prefix
  | succ n ih =>
    rw [Nat.succ_add]
    exact List.cons_prefix_cons.mpr ⟨rfl, ih _ _ _⟩

section Places

variable (backend : Backend) (moments : Nat → Moment)

/-- From request `k` on a dump hands over these lines, and is like another one then. -/
def Leads (k : Nat) (d : Dump) (lines : List Line) (d' : Dump) : Prop :=
  ∀ conn : Connection, conn.backend = backend → ∃ conn' : Connection, conn'.backend = backend ∧
    ∀ n, ∃ told : List (LineResult × List String),
      told.map Prod.fst = lines.map (.line ·.text) ∧
      requestsAmid moments (lines.length + n) k d conn =
        told ++ requestsAmid moments n (k + lines.length) d' conn'

/-- Request `k` is answered with an error, and all further ones with the end; nothing is run any
more. -/
def Breaks (k : Nat) (d : Dump) (e : Error) : Prop :=
  ∀ conn : Connection, conn.backend = backend → ∀ n, ∃ log,
    requestsAmid moments (1 + n) k d conn = (.error e, log) :: List.replicate n (.done, log)

variable {backend moments} {k : Nat} {d d' d'' : Dump} {lines lines' : List Line} {e : Error}

theorem Leads.refl (k : Nat) (d : Dump) : Leads backend moments k d [] d := by
  intro conn hconn
  refine ⟨conn, hconn, fun n => ⟨[], rfl, ?_⟩⟩
  simp

theorem Leads.trans (h : Leads backend moments k d lines d')
    (h' : Leads backend moments (k + lines.length) d' lines' d'') :
    Leads backend moments k d (lines ++ lines') d'' := by
  intro conn hconn
  obtain ⟨conn', hconn', htold⟩ := h conn hconn
  obtain ⟨conn'', hconn'', htold'⟩ := h' conn' hconn'
  refine ⟨conn'', hconn'', fun n => ?_⟩
  obtain ⟨told', hlines', hrest⟩ := htold' n
  obtain ⟨told, hlines, hall⟩ := htold (lines'.length + n)
  refine ⟨told ++ told', by rw [List.map_append, List.map_append, hlines, hlines'], ?_⟩
  rw [List.length_append, Nat.add_assoc, hall, hrest, List.append_assoc, Nat.add_assoc]

/-- A request that is answered with a line. -/
theorem Leads.line {l : Line}
    (h : ∀ conn : Connection, conn.backend = backend → conn.broken = (moments k).broken →
      ∃ conn' : Connection, conn'.backend = backend ∧
        d.next (moments k).cancelled conn = (.line l.text, d', conn')) :
    Leads backend moments k d [l] d' := by
  intro conn hconn
  obtain ⟨conn', hconn', hnext⟩ := h (conn.amid (moments k)) hconn rfl
  refine ⟨conn', hconn', fun n => ⟨[(.line l.text, conn'.log)], rfl, ?_⟩⟩
  rw [List.length_singleton, Nat.add_comm 1 n, requestsAmid, hnext]
  rfl

/-- A step without a line: the next request is answered in the same way behind it. -/
theorem Leads.of_next_eq
    (h : ∀ conn : Connection, conn.backend = backend → conn.broken = (moments k).broken →
      ∃ conn' : Connection, conn'.Alike conn ∧
        d.next (moments k).cancelled conn = d'.next (moments k).cancelled conn') :
    Leads backend moments k d [] d' := by
  intro conn hconn
  obtain ⟨conn', halike, hnext⟩ := h (conn.amid (moments k)) hconn rfl
  refine ⟨conn', halike.backend.trans hconn, fun n => ⟨[], rfl, ?_⟩⟩
  -- Looking at the moment a second time changes nothing.
  have hamid : conn'.amid (moments k) = conn' := by
    have hbroken : conn'.broken = (moments k).broken := halike.broken
    rw [Connection.amid, ← hbroken]
  rw [List.length_nil, Nat.zero_add, List.nil_append, Nat.add_zero]
  cases n with
  | zero => rfl
  | succ n => rw [requestsAmid, requestsAmid, hnext, hamid]

/-- A dump that has failed says so once. -/
theorem requestsAmid_fail (n k : Nat) (d : Dump) (conn : Connection) :
    requestsAmid moments n k d.fail conn = List.replicate n (.done, conn.log) := by
  induction n generalizing k conn with
  | zero => rfl
  | succ n ih =>
    rw [List.replicate_succ, requestsAmid]
    exact congrArg (_ :: ·) (ih (k + 1) (conn.amid (moments k)))

/-- A request that is answered with an error. -/
theorem Breaks.of_next
    (h : ∀ conn : Connection, conn.backend = backend → conn.broken = (moments k).broken →
      ∃ (d₁ : Dump) (conn' : Connection),
        d.next (moments k).cancelled conn = (.error e, d₁.fail, conn')) :
    Breaks backend moments k d e := by
  intro conn hconn n
  obtain ⟨d₁, conn', hnext⟩ := h (conn.amid (moments k)) hconn rfl
  refine ⟨conn'.log, ?_⟩
  rw [Nat.add_comm 1 n, requestsAmid, hnext]
  exact congrArg (_ :: ·) (requestsAmid_fail n (k + 1) d₁ conn')

/-- **Lines and then an error**: all that is answered. -/
theorem Leads.breaks (h : Leads backend moments k d lines d')
    (hbreaks : Breaks backend moments (k + lines.length) d' e) {conn : Connection}
    (hconn : conn.backend = backend) (n : Nat) :
    ∃ told log, told.map Prod.fst = lines.map (.line ·.text) ∧
      requestsAmid moments (lines.length + 1 + n) k d conn =
        told ++ (.error e, log) :: List.replicate n (.done, log) := by
  obtain ⟨conn', hconn', htold⟩ := h conn hconn
  obtain ⟨told, hlines, hall⟩ := htold (1 + n)
  obtain ⟨log, hlog⟩ := hbreaks conn' hconn' n
  exact ⟨told, log, hlines, by rw [Nat.add_assoc, hall, hlog]⟩

/-- A request is answered with an error, among any number of them. -/
def HasError (moments : Nat → Moment) (k : Nat) (d : Dump) (conn : Connection) (e : Error) : Prop :=
  ∃ n, .error e ∈ (requestsAmid moments n k d conn).map Prod.fst

/-- An error stands behind the lines. -/
theorem Leads.hasError (h : Leads backend moments k d lines d') {conn : Connection}
    (hconn : conn.backend = backend) (herror : HasError moments k d conn e) :
    ∃ conn', conn'.backend = backend ∧ HasError moments (k + lines.length) d' conn' e := by
  obtain ⟨conn', hconn', htold⟩ := h conn hconn
  obtain ⟨n, hmem⟩ := herror
  obtain ⟨told, hlines, hall⟩ := htold n
  have hmore := ((isPrefix_requestsAmid moments n lines.length k d conn).map Prod.fst).subset hmem
  rw [Nat.add_comm, hall, List.map_append, hlines, List.mem_append] at hmore
  refine ⟨conn', hconn', n, hmore.resolve_left ?_⟩
  simp

/-- There is no second error. -/
theorem Breaks.eq_of_hasError (h : Breaks backend moments k d e) {conn : Connection}
    (hconn : conn.backend = backend) {e' : Error} (herror : HasError moments k d conn e') :
    e' = e := by
  obtain ⟨n, hmem⟩ := herror
  obtain ⟨log, hlog⟩ := h conn hconn n
  have hmore := ((isPrefix_requestsAmid moments n 1 k d conn).map Prod.fst).subset hmem
  rw [Nat.add_comm, hlog] at hmore
  simpa [List.map_replicate] using hmore

end Places

/-! ## Lines that are ready -/

variable {backend : Backend} {moments : Nat → Moment} {k : Nat} {d : Dump}

theorem leads_ready (lines : List Line) (k : Nat) (d : Dump) :
    Leads backend moments k { d with ready := lines.map Line.text } lines
      { d with ready := [] } := by
  induction lines generalizing k with
  | nil => exact .refl k _
  | cons l lines ih =>
    have hline : Leads backend moments k { d with ready := (l :: lines).map Line.text } [l]
        { d with ready := lines.map Line.text } :=
      .line fun conn hconn _ => ⟨conn, hconn, rfl⟩
    exact hline.trans (ih (k + 1))

end Dump

/-! ## Rows that arrive -/

namespace Batch

/-- A batch of one result set that nobody wants more of, once its next row was asked for. -/
def arriving (cancelled : Bool) (failure : Option String) (rows : Rows) : Batch :=
  { todo := []
    stage :=
      match rows.next? with
      | some (cells, rows) =>
        if cancelled then .failing .cancelled else .streaming cells rows ⟨[], failure⟩
      | none => .settle cancelled true ⟨[], failure⟩
    abandoned := true }

/-- The same batch behind its last row. -/
def stopped (stop : Option Error) : Batch :=
  { todo := [], stage := stop.elim .ended .failing, abandoned := true }

theorem fetch_eq_arriving {b : Batch} (htodo : b.todo = []) (hk : b.abandoned = true)
    (cancelled : Bool) (rows : Rows) (failure : Option String) :
    ∃ n, ∀ conn, b.fetch cancelled rows ⟨[], failure⟩ conn =
      (arriving cancelled failure rows, conn.used [] n) := by
  obtain ⟨todo, stage, abandoned⟩ := b
  obtain rfl : todo = [] := htodo
  obtain rfl : abandoned = true := hk
  obtain ⟨b₁, n, -, hfetch⟩ := fetch_uses cancelled ⟨[], stage, true⟩ rows ⟨[], failure⟩
  refine ⟨n, fun conn => (hfetch conn).trans (congrArg (·, _) ?_)⟩
  have hb := congrArg Prod.fst (hfetch conn)
  simp only at hb
  rw [← hb, fetch, arriving]
  cases rows.next? with
  | none => rfl
  | some p => cases cancelled <;> rfl

/-- The first row of a result set arrives with the result set, which is all that is wanted then. -/
theorem abandon_fetch (rows : Rows) (failure : Option String) :
    ∃ b n, b.abandon = arriving false failure rows ∧
      ∀ conn, fetch false ⟨[], .idle, false⟩ rows ⟨[], failure⟩ conn = (b, conn.used [] n) := by
  obtain ⟨b, n, -, hfetch⟩ := fetch_uses false ⟨[], .idle, false⟩ rows ⟨[], failure⟩
  refine ⟨b, n, ?_, hfetch⟩
  have hb := congrArg Prod.fst (hfetch { backend := fun _ => {} })
  simp only at hb
  rw [← hb, fetch, arriving]
  cases rows.next? with
  | none => cases failure <;> rfl
  | some p => rfl

/-- A row is handed over, and the next one arrives. -/
theorem row_arriving {rows rows' : Rows} {cells : Row} (h : rows.next? = some (cells, rows'))
    (failure : Option String) (cancelled : Bool) :
    ∃ n, ∀ conn, (arriving false failure rows).row cancelled conn =
      (.row cells, arriving cancelled failure rows', conn.used [] n) := by
  have hstage : (arriving false failure rows).stage = .streaming cells rows' ⟨[], failure⟩ := by
    rw [arriving, h]
    rfl
  obtain ⟨n, hfetch⟩ := @fetch_eq_arriving (arriving false failure rows) rfl rfl cancelled rows'
    failure
  exact ⟨n, fun conn => by rw [row, hstage, ← hfetch]⟩

theorem arriving_of_none {rows : Rows} (h : rows.next? = none) (cancelled : Bool)
    (failure : Option String) :
    arriving cancelled failure rows =
      stopped (failure.map fun message =>
        if cancelled then .cancelled else .ofBackend message) := by
  rw [arriving, h]
  cases failure <;> rfl

theorem arriving_of_cancelled {rows : Rows} (h : rows.next? ≠ none) (failure : Option String) :
    arriving true failure rows = stopped (some .cancelled) := by
  obtain ⟨p, hnext⟩ := Option.ne_none_iff_exists'.mp h
  rw [arriving, hnext]
  rfl

end Batch

namespace Dump

/-- Whether the dump was cancelled when the last of `n` rows was handed over, the first of them with
the answer to request `k`. -/
def late (moments : Nat → Moment) (k : Nat) : Nat → Bool
  | 0 => false
  | n + 1 => (moments (k + n)).cancelled

/-- **What is handed over of the rows of a table** from request `k` on, if the first of them was
fetched: the first `n`, and then `stop`. The dump was not cancelled when another row was fetched. If
these are all rows, the statement may have failed; if there are more, the dump was cancelled. -/
structure Streams (moments : Nat → Moment) (failure : Option String) (k : Nat) (rows : Rows)
    (n : Nat) (stop : Option Error) : Prop where
  uncancelled : ∀ j, j + 1 < n → (moments (k + j)).cancelled = false
  stop :
    (rows.size = n ∧ stop = failure.map fun message =>
      if late moments k n then .cancelled else .ofBackend message) ∨
    ((n : ℕ∞) < rows.size ∧ late moments k n = true ∧ stop = some .cancelled)

section Rows

variable {backend : Backend} {moments : Nat → Moment} {failure : Option String} {rows : Rows}
  {stop : Option Error} {n : Nat} {d : Dump}

/-- Behind the first of several rows. -/
theorem Streams.tail {k : Nat} {rows' : Rows} {cells : Row}
    (h : Streams moments failure k rows (n + 2) stop) (hnext : rows.next? = some (cells, rows')) :
    (moments k).cancelled = false ∧ Streams moments failure (k + 1) rows' (n + 1) stop := by
  have hlate : late moments k (n + 2) = late moments (k + 1) (n + 1) := by
    rw [late, late, Nat.add_right_comm, Nat.add_assoc]
  refine ⟨h.uncancelled 0 (by omega), ⟨fun j hj => ?_, ?_⟩⟩
  · have hmore := h.uncancelled (j + 1) (by omega)
    rwa [← Nat.add_assoc, Nat.add_right_comm] at hmore
  · have hsize := Rows.size_of_next? hnext
    rw [← hlate]
    rcases h.stop with ⟨hall, hstop⟩ | ⟨hmore, hstop⟩
    · refine Or.inl ⟨?_, hstop⟩
      rw [hsize] at hall
      exact ENat.add_left_injective_of_ne_top ENat.one_ne_top hall
    · refine Or.inr ⟨?_, hstop⟩
      rw [hsize] at hmore
      exact (ENat.add_lt_add_iff_right ENat.one_ne_top).mp hmore

/-- A row before others. -/
theorem Streams.cons {k : Nat} {rows' : Rows} {cells : Row}
    (hnext : rows.next? = some (cells, rows')) (hk : (moments k).cancelled = false)
    (h : Streams moments failure (k + 1) rows' n stop) :
    Streams moments failure k rows (n + 1) stop := by
  have hlate : late moments k (n + 1) = late moments (k + 1) n := by
    cases n with
    | zero => exact hk
    | succ n => rw [late, late, Nat.add_right_comm, Nat.add_assoc]
  refine ⟨fun j hj => ?_, ?_⟩
  · cases j with
    | zero => exact hk
    | succ j =>
      have hmore := h.uncancelled j (by omega)
      rwa [Nat.add_right_comm, Nat.add_assoc] at hmore
  · rw [hlate, Rows.size_of_next? hnext, Nat.cast_succ]
    rcases h.stop with ⟨hall, hstop⟩ | ⟨hmore, hstop⟩
    · exact Or.inl ⟨by rw [hall], hstop⟩
    · exact Or.inr ⟨(ENat.add_lt_add_iff_right ENat.one_ne_top).mpr hmore, hstop⟩

/-- Rows of a table that were asked for are handed over. -/
theorem leads_row {k : Nat} {cells : Row} {rows' : Rows} (h : rows.next? = some (cells, rows'))
    (failure : Option String) (d : Dump) :
    Leads backend moments k
      { d with ready := [], rows := some (.arriving false failure rows) } [.row d.table cells]
      { d with ready := [], rows := some (.arriving (moments k).cancelled failure rows') } := by
  obtain ⟨n, hrow⟩ := Batch.row_arriving h failure (moments k).cancelled
  refine .line fun conn hconn _ => ⟨conn.used [] n, hconn, ?_⟩
  rw [Line.text_row]
  simp only [next, emit?, hrow]

/-- **The rows of a table** are handed over one by one. -/
theorem leads_streams {k : Nat} (h : Streams moments failure k rows n stop) (d : Dump) :
    Leads backend moments k { d with ready := [], rows := some (.arriving false failure rows) }
      ((rows.take n).map (.row d.table)) { d with ready := [], rows := some (.stopped stop) } := by
  -- Each request hands over a row that is there and makes the next one arrive. Only the last one
  -- may find the dump cancelled, so the case of one row is apart.
  induction n generalizing k rows with
  | zero =>
    rcases h.stop with ⟨hsize, rfl⟩ | ⟨-, hlate, -⟩
    · rw [Batch.arriving_of_none ((Rows.size_eq_zero_iff rows).mp hsize)]
      exact .refl k _
    · cases hlate
  | succ n ih =>
    have hsome : rows.next? ≠ none := by
      intro hnone
      have hzero := (Rows.size_eq_zero_iff rows).mpr hnone
      rcases h.stop with ⟨hsize, -⟩ | ⟨hsize, -⟩ <;> rw [hzero] at hsize
      · exact absurd hsize.symm (by simp)
      · exact not_lt_zero hsize
    obtain ⟨⟨cells, rows'⟩, hnext⟩ := Option.ne_none_iff_exists'.mp hsome
    have hsize := Rows.size_of_next? hnext
    have hfirst : Leads backend moments k _ _ _ := leads_row hnext failure d
    rw [Rows.take_succ hnext, List.map_cons, ← List.singleton_append]
    refine hfirst.trans ?_
    cases n with
    | zero =>
      have hstopped : Batch.arriving (moments k).cancelled failure rows' = .stopped stop := by
        rcases h.stop with ⟨hall, rfl⟩ | ⟨hmore, hlate, rfl⟩
        · rw [hsize] at hall
          have hnone : rows'.size = 0 :=
            ENat.add_left_injective_of_ne_top ENat.one_ne_top (hall.trans Nat.cast_one)
          exact Batch.arriving_of_none ((Rows.size_eq_zero_iff rows').mp hnone) _ failure
        · have hcancelled : (moments k).cancelled = true := hlate
          rw [hcancelled]
          refine Batch.arriving_of_cancelled (fun hnone => ?_) failure
          rw [hsize, (Rows.size_eq_zero_iff rows').mpr hnone] at hmore
          simp at hmore
      rw [hstopped]
      exact .refl _ _
    | succ n =>
      obtain ⟨huncancelled, hrest⟩ := h.tail hnext
      rw [huncancelled]
      exact ih hrest

/-- Either something comes in place of a row, or all requests are answered with rows. -/
theorem streams_or_leads (failure : Option String) (rows : Rows) (n k : Nat) (d : Dump) :
    (∃ m stop, Streams moments failure k rows m stop) ∨
    ∃ lines d', lines.length = n ∧ Leads backend moments k
      { d with ready := [], rows := some (.arriving false failure rows) } lines d' := by
  induction n generalizing k rows with
  | zero => exact Or.inr ⟨[], _, rfl, .refl k _⟩
  | succ n ih =>
    cases hnext : rows.next? with
    | none =>
      refine Or.inl ⟨0, _, fun j hj => by omega, Or.inl ⟨?_, rfl⟩⟩
      exact (Rows.size_eq_zero_iff rows).mpr hnext
    | some p =>
      obtain ⟨cells, rows'⟩ := p
      have hsize := Rows.size_of_next? hnext
      cases hk : (moments k).cancelled with
      | true =>
        -- The row at hand is the last one that is handed over. If it is the last of all, the token
        -- is noticed only where the statement fails behind it.
        refine Or.inl ⟨1, ?_⟩
        by_cases hzero : rows'.size = 0
        · refine ⟨_, fun j hj => by omega, Or.inl ⟨?_, rfl⟩⟩
          rw [hsize, hzero]
          rfl
        · refine ⟨_, fun j hj => by omega, Or.inr ⟨?_, hk, rfl⟩⟩
          rw [hsize]
          exact (ENat.add_lt_add_iff_right ENat.one_ne_top).mpr (pos_iff_ne_zero.mpr hzero)
      | false =>
        obtain ⟨m, stop, hstop⟩ | ⟨lines, d', hlength, hleads⟩ := ih rows' (k + 1)
        · exact Or.inl ⟨m + 1, stop, hstop.cons hnext hk⟩
        · have hfirst : Leads backend moments k _ _ _ := leads_row hnext failure d
          rw [hk] at hfirst
          refine Or.inr ⟨.row d.table cells :: lines, d', by rw [List.length_cons, hlength], ?_⟩
          exact hfirst.trans hleads

/-- An error among the answers comes in place of a row. -/
theorem streams_of_hasError {k : Nat} {conn : Connection} {e : Error}
    (h : HasError moments k { d with ready := [], rows := some (.arriving false failure rows) }
      conn e) :
    ∃ m stop, Streams moments failure k rows m stop := by
  obtain ⟨n, hmem⟩ := h
  obtain hstop | ⟨lines, d', rfl, hleads⟩ :=
    @streams_or_leads conn.backend moments failure rows n k d
  · exact hstop
  · obtain ⟨conn', -, htold⟩ := hleads conn rfl
    obtain ⟨told, hlines, hall⟩ := htold 0
    rw [Nat.add_zero] at hall
    rw [hall, requestsAmid, List.append_nil, hlines] at hmem
    simp at hmem

end Rows

end Dump

end SqlConsole
