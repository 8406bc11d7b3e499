import SqlConsole.Proofs.Output.Contribution
import SqlConsole.Proofs.Text.Utf8

/-!
# Query plans as they are drawn

The names in a query plan are any texts: rows may share a name, name themselves or a row behind them
as their parent, or name one another. The parent of a row stands before it all the same
(`IsParent`), so the rows are a forest. It is described here by the rows that hang from a row or
from none (`hanging`) and by the way from a root down to a row (`trail`).

`Spans` relates rows to the trees below them and to the preorder of those trees. All that is said of
a drawing is proved by induction on it. A row is drawn once (`Spans.perm_range`), for the ways to
the rows that hang from one row part behind it. The line of a row shows the rows on its way
(`Spans.drawForest_eq`). The trees can be read from the lines, from the last line up, for a row
takes in the deeper ones behind it (`Spans.foldr_adopt`).
-/

namespace SqlConsole.Plan

variable {entries : List Entry}

/-! ## Parents -/

/-- Row `i` is the last row before row `j` that has the name which row `j` gives for its parent. -/
structure IsParent (entries : List Entry) (i j : Nat) : Prop where
  before : i < j
  bound : j < entries.length
  named : entries[i].id = entries[j].parent
  last : ∀ k (_ : i < k) (_ : k < j), entries[k].id ≠ entries[j].parent

theorem lastNamed?_eq_none_iff {name : String} :
    lastNamed? name entries = none ↔ ∀ e ∈ entries, e.id ≠ name := by
  induction entries with
  | nil => simp [lastNamed?]
  | cons e es ih =>
    rw [lastNamed?, List.forall_mem_cons, ← ih]
    cases lastNamed? name es with
    | some i => simp
    | none => simp

theorem lastNamed?_eq_some_iff {name : String} {i : Nat} :
    lastNamed? name entries = some i ↔ ∃ h : i < entries.length,
      entries[i].id = name ∧ ∀ k (_ : i < k) (_ : k < entries.length), entries[k].id ≠ name := by
  induction entries generalizing i with
  | nil => simp [lastNamed?]
  | cons e es ih =>
    rw [lastNamed?]
    cases hmore : lastNamed? name es with
    | some k =>
      obtain ⟨hk, hnamed, hlast⟩ := ih.mp hmore
      constructor
      · intro h
        obtain rfl : k + 1 = i := Option.some.inj h
        refine ⟨Nat.succ_lt_succ hk, hnamed, ?_⟩
        rintro (_ | l) hl hbound
        · omega
        · exact hlast l (by omega) (Nat.lt_of_succ_lt_succ hbound)
      · rintro ⟨hi, hname, hother⟩
        cases i with
        | zero => exact absurd hnamed (hother (k + 1) (by omega) (Nat.succ_lt_succ hk))
        | succ i =>
          have hsome : lastNamed? name es = some i :=
            ih.mpr ⟨Nat.lt_of_succ_lt_succ hi, hname, fun l hl hbound =>
              hother (l + 1) (by omega) (Nat.succ_lt_succ hbound)⟩
          obtain rfl : k = i := Option.some.inj (hmore.symm.trans hsome)
          rfl
    | none =>
      have hnone := lastNamed?_eq_none_iff.mp hmore
      show (if (e.id == name) = true then some 0 else none) = some i ↔ _
      constructor
      · intro h
        split_ifs at h with hname
        obtain rfl : 0 = i := Option.some.inj h
        refine ⟨Nat.succ_pos _, eq_of_beq hname, ?_⟩
        rintro (_ | l) hl hbound
        · omega
        · exact hnone _ (List.getElem_mem _)
      · rintro ⟨hi, hname, -⟩
        cases i with
        | zero => exact if_pos (beq_iff_eq.mpr hname)
        | succ i => exact absurd hname (hnone _ (List.getElem_mem _))

theorem parent?_eq_some_iff {i j : Nat} : parent? entries j = some i ↔ IsParent entries i j := by
  rw [parent?, Option.bind_eq_some_iff]
  constructor
  · rintro ⟨e, he, hlast⟩
    obtain ⟨hj, rfl⟩ := List.getElem?_eq_some_iff.mp he
    obtain ⟨hi, hnamed, hother⟩ := lastNamed?_eq_some_iff.mp hlast
    rw [List.length_take] at hi
    refine ⟨by omega, hj, ?_, ?_⟩
    · rw [← hnamed, List.getElem_take]
    · intro k hik hkj
      have hk := hother k hik (by rw [List.length_take]; omega)
      rwa [List.getElem_take] at hk
  · intro h
    have hj := h.bound
    have hij := h.before
    refine ⟨entries[j], List.getElem?_eq_getElem hj, lastNamed?_eq_some_iff.mpr ?_⟩
    refine ⟨by rw [List.length_take]; omega, ?_, ?_⟩
    · rw [List.getElem_take]
      exact h.named
    · intro k hik hk
      rw [List.length_take] at hk
      rw [List.getElem_take]
      exact h.last k hik (by omega)

theorem parent?_lt {i j : Nat} (h : parent? entries j = some i) : i < j :=
  (parent?_eq_some_iff.mp h).before

/-! ## The forest -/

/-- The rows that hang from a row, or from none, in their order. -/
def hanging (entries : List Entry) (above : Option Nat) : List Nat :=
  (List.range entries.length).filter fun j => parent? entries j == above

theorem mem_hanging {above : Option Nat} {j : Nat} :
    j ∈ hanging entries above ↔ j < entries.length ∧ parent? entries j = above := by
  simp [hanging]

theorem pairwise_hanging (above : Option Nat) : (hanging entries above).Pairwise (· < ·) :=
  List.pairwise_lt_range.filter _

theorem nodup_hanging {above : Option Nat} : (hanging entries above).Nodup :=
  (pairwise_hanging above).imp Nat.ne_of_lt

theorem roots_eq : roots entries = hanging entries none := by
  apply List.filter_congr
  intro j _
  cases parent? entries j <;> rfl

/-- A row stands behind the row that it hangs from. -/
theorem children_eq (i : Nat) : children entries i = hanging entries (some i) := by
  apply List.filter_congr
  intro j _
  by_cases hparent : parent? entries j = some i
  · simp [hparent, parent?_lt hparent]
  · simp [hparent]

/-- The detail of a row. -/
def detail (entries : List Entry) (i : Nat) : String := (entries[i]?.map (·.detail)).getD ""

theorem tree_eq (i : Nat) :
    tree entries i = .node (detail entries i) ((hanging entries (some i)).map (tree entries)) := by
  rw [tree, ← children_eq, detail, List.map_attach_eq_pmap, List.pmap_eq_map]

/-- The trees that grow from the rows `js`, and all rows in them, in preorder. -/
inductive Spans (entries : List Entry) : List Nat → List Nat → List Tree → Prop
  | nil : Spans entries [] [] []
  | cons {i : Nat} {js own rest : List Nat} {subtrees trees : List Tree} (hi : i < entries.length)
      (hbelow : Spans entries (hanging entries (some i)) own subtrees)
      (hmore : Spans entries js rest trees) :
      Spans entries (i :: js) (i :: (own ++ rest)) (.node (detail entries i) subtrees :: trees)

theorem exists_spans {js : List Nat} (hjs : ∀ j ∈ js, j < entries.length ∧
    ∃ own, Spans entries (hanging entries (some j)) own
      ((hanging entries (some j)).map (tree entries))) :
    ∃ order, Spans entries js order (js.map (tree entries)) := by
  induction js with
  | nil => exact ⟨[], .nil⟩
  | cons i js ih =>
    rw [List.forall_mem_cons] at hjs
    obtain ⟨⟨hi, own, hown⟩, hjs⟩ := hjs
    obtain ⟨rest, hrest⟩ := ih hjs
    refine ⟨i :: (own ++ rest), ?_⟩
    rw [List.map_cons, tree_eq]
    exact .cons hi hown hrest

theorem exists_spans_hanging (i : Nat) : ∃ own,
    Spans entries (hanging entries (some i)) own ((hanging entries (some i)).map (tree entries)) := by
  induction i using tree.induct entries with
  | case1 i ih =>
    apply exists_spans
    intro j hj
    exact ⟨(mem_hanging.mp hj).1, ih j (children_eq i ▸ hj)⟩

theorem exists_spans_forest (entries : List Entry) :
    ∃ order, Spans entries (hanging entries none) order (forest entries) := by
  rw [forest, roots_eq]
  apply exists_spans
  intro j hj
  exact ⟨(mem_hanging.mp hj).1, exists_spans_hanging j⟩

/-! ## Ways from a root -/

/-- The way from a root down to a row, with that row. -/
def trail (entries : List Entry) : Option Nat → List Nat
  | none => []
  | some i => trail entries (parent? entries i) ++ [i]
termination_by row => row.elim 0 (· + 1)
decreasing_by
  cases hparent : parent? entries i with
  | none => exact Nat.succ_pos i
  | some k => exact Nat.succ_lt_succ (parent?_lt hparent)

theorem trail_none : trail entries none = [] := by rw [trail]

theorem trail_some (i : Nat) :
    trail entries (some i) = trail entries (parent? entries i) ++ [i] := by rw [trail]

/-- Of the rows that hang from one row only one is on the way to a given row. -/
theorem eq_of_trail_prefix {a b k : Nat} (hparent : parent? entries a = parent? entries b)
    (ha : trail entries (some a) <+: trail entries (some k))
    (hb : trail entries (some b) <+: trail entries (some k)) : a = b := by
  have hlength : (trail entries (some a)).length = (trail entries (some b)).length := by
    rw [trail_some, trail_some, hparent, List.length_append, List.length_append]
    rfl
  have hprefix := List.prefix_of_prefix_length_le ha hb (Nat.le_of_eq hlength)
  have hsame := hprefix.eq_of_length hlength
  rw [trail_some, trail_some, hparent] at hsame
  exact (List.cons.inj (List.append_cancel_left hsame)).1

namespace Spans

variable {js order : List Nat} {trees : List Tree}

theorem isEmpty_eq (h : Spans entries js order trees) : trees.isEmpty = js.isEmpty := by
  cases h <;> rfl

theorem subset (h : Spans entries js order trees) : js ⊆ order := by
  induction h with
  | nil => exact List.nil_subset _
  | @cons i js own rest _ _ _ _ _ _ ih =>
    apply List.cons_subset_cons
    exact List.subset_append_of_subset_right own ih

theorem lt_length (h : Spans entries js order trees) : ∀ i ∈ order, i < entries.length := by
  induction h with
  | nil => simp
  | cons hi _ _ ihbelow ih =>
    rw [List.forall_mem_cons, List.forall_mem_append]
    exact ⟨hi, ihbelow, ih⟩

/-- A row brings the rows that hang from it. -/
theorem mem_of_parent? (h : Spans entries js order trees) {i j : Nat} (hi : i ∈ order)
    (hj : parent? entries j = some i) : j ∈ order := by
  induction h with
  | nil => exact absurd hi List.not_mem_nil
  | @cons i' _ own rest _ _ _ hbelow hmore ihbelow ih =>
    have hbound := (parent?_eq_some_iff.mp hj).bound
    rw [List.mem_cons, List.mem_append] at hi ⊢
    rcases hi with rfl | hi | hi
    · exact .inr (.inl (hbelow.subset (mem_hanging.mpr ⟨hbound, hj⟩)))
    · exact .inr (.inl (ihbelow hi))
    · exact .inr (.inr (ih hi))

theorem exists_trail_prefix (h : Spans entries js order trees) :
    ∀ k ∈ order, ∃ j ∈ js, trail entries (some j) <+: trail entries (some k) := by
  induction h with
  | nil => simp
  | @cons i js own rest _ _ _ _ _ ihbelow ih =>
    rw [List.forall_mem_cons, List.forall_mem_append]
    refine ⟨⟨i, List.mem_cons_self, List.prefix_refl _⟩, ?_, ?_⟩
    · intro k hk
      obtain ⟨j, hj, hprefix⟩ := ihbelow k hk
      refine ⟨i, List.mem_cons_self, .trans ?_ hprefix⟩
      rw [trail_some j, (mem_hanging.mp hj).2]
      exact List.prefix_append _ _
    · intro k hk
      obtain ⟨j, hj, hprefix⟩ := ih k hk
      exact ⟨j, List.mem_cons_of_mem i hj, hprefix⟩

/-- Below a row the ways are longer. -/
theorem not_mem_of_hanging {i : Nat}
    (h : Spans entries (hanging entries (some i)) order trees) : i ∉ order := by
  intro hi
  obtain ⟨j, hj, hprefix⟩ := h.exists_trail_prefix i hi
  have hlength := hprefix.length_le
  rw [trail_some j, (mem_hanging.mp hj).2, List.length_append, List.length_singleton] at hlength
  omega

theorem nodup (h : Spans entries js order trees) {above : Option Nat}
    (hjs : ∀ j ∈ js, parent? entries j = above) (hnodup : js.Nodup) : order.Nodup := by
  induction h generalizing above with
  | nil => exact List.nodup_nil
  | @cons i js own rest _ _ _ hbelow hmore ihbelow ih =>
    rw [List.forall_mem_cons] at hjs
    obtain ⟨hi, hjs⟩ := hjs
    rw [List.nodup_cons] at hnodup
    obtain ⟨hnot, hnodup⟩ := hnodup
    -- what grows from `i` has the way to `i` in front, what grows from the others has not
    have hapart : ∀ k ∈ rest, ¬ trail entries (some i) <+: trail entries (some k) := by
      intro k hk hprefix
      obtain ⟨j, hj, hprefix'⟩ := hmore.exists_trail_prefix k hk
      obtain rfl := eq_of_trail_prefix (hi.trans (hjs j hj).symm) hprefix hprefix'
      exact hnot hj
    have hown : ∀ k ∈ own, trail entries (some i) <+: trail entries (some k) := by
      intro k hk
      obtain ⟨j, hj, hprefix⟩ := hbelow.exists_trail_prefix k hk
      rw [trail_some j, (mem_hanging.mp hj).2] at hprefix
      exact (List.prefix_append _ _).trans hprefix
    rw [List.nodup_cons, List.mem_append, not_or, List.nodup_append]
    refine ⟨⟨hbelow.not_mem_of_hanging, ?_⟩, ?_, ?_, ?_⟩
    · exact fun hrest => hapart i hrest (List.prefix_refl _)
    · exact ihbelow (fun j hj => (mem_hanging.mp hj).2) nodup_hanging
    · exact ih hjs hnodup
    · rintro a ha b hb rfl
      exact hapart a hb (hown a ha)

/-- **Every row is drawn once.** -/
theorem perm_range (h : Spans entries (hanging entries none) order trees) :
    order.Perm (List.range entries.length) := by
  have hnodup : order.Nodup := h.nodup (fun j hj => (mem_hanging.mp hj).2) nodup_hanging
  have hall : ∀ j, j < entries.length → j ∈ order := by
    intro j
    induction j using Nat.strongRecOn with
    | ind j ih =>
      intro hj
      cases hparent : parent? entries j with
      | none => exact h.subset (mem_hanging.mpr ⟨hj, hparent⟩)
      | some i =>
        have hij := parent?_lt hparent
        exact h.mem_of_parent? (ih i hij (by omega)) hparent
  rw [List.perm_ext_iff_of_nodup hnodup List.nodup_range]
  intro j
  rw [List.mem_range]
  exact ⟨h.lt_length j, hall j⟩

end Spans

/-! ## Lines -/

/-- Whether no row behind hangs from the same row, or from none if this one does. -/
def isLast (entries : List Entry) (i : Nat) : Bool :=
  decide (∀ k < entries.length, i < k → parent? entries k ≠ parent? entries i)

/-- The rows on the way to a row, from the root on. -/
def ancestors (entries : List Entry) (i : Nat) : List Nat := trail entries (parent? entries i)

/-- What a row puts in front of the lines below it. -/
def branch (entries : List Entry) (i : Nat) : String :=
  if isLast entries i then "   " else "|  "

/-- What stands right in front of the detail of a row. -/
def connector (entries : List Entry) (i : Nat) : String :=
  if isLast entries i then "`--" else "|--"

/-- What the rows on the way to a row put in front of its line. -/
def lead (entries : List Entry) (i : Nat) : String :=
  String.join ((ancestors entries i).map (branch entries))

/-- The line of a row. -/
def line (entries : List Entry) (i : Nat) : String :=
  lead entries i ++ connector entries i ++ detail entries i

theorem isLast_of_suffix {i : Nat} {js : List Nat} {above : Option Nat}
    (h : (i :: js) <:+ hanging entries above) : isLast entries i = js.isEmpty := by
  obtain ⟨front, hfront⟩ := h
  have hordered : (hanging entries above).Pairwise (· < ·) := pairwise_hanging above
  rw [← hfront, List.pairwise_append, List.pairwise_cons] at hordered
  obtain ⟨-, ⟨hbehind, -⟩, hbefore⟩ := hordered
  have hi : i ∈ hanging entries above := hfront ▸ List.mem_append_right front List.mem_cons_self
  have hparent := (mem_hanging.mp hi).2
  cases js with
  | nil =>
    show isLast entries i = true
    rw [isLast, decide_eq_true_iff]
    intro k hk hik hsame
    have hmem : k ∈ hanging entries above := mem_hanging.mpr ⟨hk, hsame.trans hparent⟩
    rw [← hfront, List.mem_append, List.mem_singleton] at hmem
    rcases hmem with hmem | rfl
    · have hki := hbefore k hmem i List.mem_cons_self
      omega
    · omega
  | cons j js =>
    show isLast entries i = false
    rw [isLast, decide_eq_false_iff_not]
    intro hlast
    have hmem : j ∈ hanging entries above := by
      rw [← hfront]
      exact List.mem_append_right front (List.mem_cons_of_mem i List.mem_cons_self)
    obtain ⟨hj, hsame⟩ := mem_hanging.mp hmem
    exact hlast j hj (hbehind j List.mem_cons_self) (hsame.trans hparent.symm)

/-- **The lines of rows that hang from one row**, from one of them to the last. -/
theorem Spans.drawForest_eq {js order : List Nat} {trees : List Tree}
    (h : Spans entries js order trees) {above : Option Nat} (hjs : js <:+ hanging entries above) :
    drawForest (String.join ((trail entries above).map (branch entries))) trees =
      order.map (line entries) := by
  induction h generalizing above with
  | nil => rfl
  | @cons i js own rest subtrees trees hi hown hmore ihown ih =>
    have hparent : parent? entries i = above :=
      (mem_hanging.mp (hjs.subset List.mem_cons_self)).2
    have hlast : trees.isEmpty = isLast entries i := by
      rw [hmore.isEmpty_eq, isLast_of_suffix hjs]
    have hlead : String.join ((trail entries above).map (branch entries)) = lead entries i := by
      rw [lead, ancestors, hparent]
    have hbranch : lead entries i ++ branch entries i =
        String.join ((trail entries (some i)).map (branch entries)) := by
      rw [trail_some, List.map_append, String.join_append, lead, ancestors]
      simp
    rw [drawForest, drawTree, hlast, ih ((List.suffix_cons i js).trans hjs), hlead]
    show line entries i :: drawForest (lead entries i ++ branch entries i) subtrees ++ _ = _
    rw [hbranch, ihown (List.suffix_refl _), List.map_cons, List.map_append, List.cons_append]

theorem length_lead (i : Nat) : (lead entries i).length = 3 * (ancestors entries i).length := by
  rw [lead]
  induction ancestors entries i with
  | nil => rfl
  | cons k ks ih =>
    have hbranch : (branch entries k).length = 3 := by
      rw [branch]
      split <;> rfl
    rw [List.map_cons, String.join_cons, String.length_append, ih, hbranch, List.length_cons]
    omega

/-! ## Reading a drawing -/

/-- The depth and the detail in a line. The second character of a group tells a connector. -/
def readLine : List Char → Option (Nat × String)
  | _ :: '-' :: '-' :: cs => some (0, String.ofList cs)
  | _ :: ' ' :: ' ' :: cs => (readLine cs).map fun (depth, detail) => (depth + 1, detail)
  | _ => none

/-- A line as a tree, with the deeper trees behind it as its children. -/
def adopt (line : Nat × String) (behind : List (Nat × Tree)) : List (Nat × Tree) :=
  (line.1, .node line.2 ((behind.takeWhile (line.1 < ·.1)).map (·.2))) ::
    behind.dropWhile (line.1 < ·.1)

/-- The trees that an output shows below its title. -/
def readForest (output : List UInt8) : List Tree :=
  let lines := (Text.Utf8.decodeLossy output).toList.splitOn '\n'
  ((lines.tail.filterMap readLine).foldr adopt []).map (·.2)

/-- The depth and the detail of a row. -/
def rank (entries : List Entry) (i : Nat) : Nat × String :=
  ((ancestors entries i).length, detail entries i)

theorem readLine_line (i : Nat) : readLine (line entries i).toList = some (rank entries i) := by
  have hconnector (cs : List Char) : readLine ((connector entries i).toList ++ cs) =
      some (0, String.ofList cs) := by
    rw [connector]
    split <;> rfl
  rw [line, lead, rank, String.toList_append, String.toList_append, String.toList_join,
    List.append_assoc]
  induction ancestors entries i with
  | nil =>
    rw [List.map_nil, List.flatMap_nil, List.nil_append, hconnector, String.ofList_toList]
    rfl
  | cons k ks ih =>
    have hbranch (cs : List Char) : readLine ((branch entries k).toList ++ cs) =
        (readLine cs).map fun (depth, detail) => (depth + 1, detail) := by
      rw [branch]
      split <;> rfl
    rw [List.map_cons, List.flatMap_cons, List.append_assoc, hbranch, ih]
    rfl

theorem adopt_append {first : Nat × String} {deeper others : List (Nat × Tree)}
    (hdeeper : ∀ t ∈ deeper, first.1 < t.1) (hothers : ∀ t ∈ others.head?, t.1 ≤ first.1) :
    adopt first (deeper ++ others) = (first.1, .node first.2 (deeper.map (·.2))) :: others := by
  have hpos : ∀ t ∈ deeper, decide (first.1 < t.1) = true :=
    fun t ht => decide_eq_true (hdeeper t ht)
  rw [adopt, List.takeWhile_append_of_pos hpos, List.dropWhile_append_of_pos hpos]
  cases others with
  | nil => rw [List.takeWhile_nil, List.dropWhile_nil, List.append_nil]
  | cons t ts =>
    have hneg : decide (first.1 < t.1) = false := by
      have ht := hothers t rfl
      rw [decide_eq_false_iff_not]
      omega
    simp only [List.takeWhile, List.dropWhile, hneg, List.append_nil]

/-- **The trees of rows at one depth are read** in front of trees that are not deeper. -/
theorem Spans.foldr_adopt {js order : List Nat} {trees : List Tree}
    (h : Spans entries js order trees) {above : Option Nat} {depth : Nat}
    (hdepth : (trail entries above).length = depth) (hjs : ∀ j ∈ js, parent? entries j = above)
    {behind : List (Nat × Tree)} (hbehind : ∀ t ∈ behind.head?, t.1 ≤ depth) :
    (order.map (rank entries)).foldr adopt behind = trees.map (depth, ·) ++ behind := by
  induction h generalizing above depth behind with
  | nil => rfl
  | @cons i js own rest subtrees trees hi hown hmore ihown ih =>
    rw [List.forall_mem_cons] at hjs
    obtain ⟨hparent, hjs⟩ := hjs
    have hrank : rank entries i = (depth, detail entries i) := by
      rw [rank, ancestors, hparent, hdepth]
    have hbelow : (trail entries (some i)).length = depth + 1 := by
      rw [trail_some, hparent, List.length_append, hdepth, List.length_singleton]
    have hdeeper : ∀ t ∈ subtrees.map (depth + 1, ·), depth < t.1 := by
      intro t ht
      obtain ⟨s, -, rfl⟩ := List.mem_map.mp ht
      exact Nat.lt_succ_self depth
    have hothers : ∀ t ∈ (trees.map (depth, ·) ++ behind).head?, t.1 ≤ depth := by
      cases trees with
      | nil => exact hbehind
      | cons t ts =>
        intro s hs
        obtain rfl : (depth, t) = s := Option.some.inj hs
        exact Nat.le_refl depth
    have hnested := ihown hbelow (fun j hj => (mem_hanging.mp hj).2)
      (fun t ht => Nat.le_succ_of_le (hothers t ht))
    rw [List.map_cons, List.map_append, List.foldr_cons, List.foldr_append,
      ih hdepth hjs hbehind, hnested, hrank, adopt_append hdeeper hothers, List.map_map,
      List.map_cons, List.cons_append]
    simp

/-- Lines with their line ends. -/
def unlines (lines : List String) : List Char := lines.flatMap fun l => l.toList ++ ['\n']

theorem splitOn_unlines {lines : List String} (h : ∀ l ∈ lines, '\n' ∉ l.toList) :
    (unlines lines).splitOn '\n' = lines.map String.toList ++ [[]] := by
  induction lines with
  | nil => rfl
  | cons l ls ih =>
    rw [List.forall_mem_cons] at h
    have hpiece : l.toList.splitOnP (· == '\n') = [l.toList] := by
      apply List.splitOnP_eq_singleton
      intro c hc
      rw [beq_eq_false_iff_ne]
      exact fun hnewline => h.1 (hnewline ▸ hc)
    calc (unlines (l :: ls)).splitOn '\n'
        = (l.toList ++ '\n' :: unlines ls).splitOnP (· == '\n') := by
          rw [unlines, List.flatMap_cons, List.append_assoc]
          rfl
      _ = [l.toList] ++ (unlines ls).splitOn '\n' := by
          rw [List.splitOnP_append_cons (p := (· == '\n')) _ _ (beq_self_eq_true '\n'), hpiece]
          rfl
      _ = _ := by
          rw [ih h.2]
          rfl

theorem not_mem_line {i : Nat} (h : '\n' ∉ (detail entries i).toList) :
    '\n' ∉ (line entries i).toList := by
  have hbranch : ∀ k ∈ ancestors entries i, '\n' ∉ (branch entries k).toList := by
    intro k _
    rw [branch]
    split <;> decide
  have hconnector : '\n' ∉ (connector entries i).toList := by
    rw [connector]
    split <;> decide
  rw [line, lead, String.toList_append, String.toList_append, String.toList_join,
    List.flatMap_map, List.mem_append, List.mem_append, List.mem_flatMap]
  rintro ((⟨k, hk, hmem⟩ | hmem) | hmem)
  · exact hbranch k hk hmem
  · exact hconnector hmem
  · exact h hmem

/-- **The forest can be read from its drawing**, if no detail has a line break. -/
theorem Spans.readForest_eq {order : List Nat} {trees : List Tree}
    (h : Spans entries (hanging entries none) order trees)
    (hdetails : ∀ e ∈ entries, '\n' ∉ e.detail.toList) :
    readForest (Text.Utf8.encode (unlines ("QUERY PLAN" :: order.map (line entries)))) = trees := by
  have hlines : ∀ l ∈ "QUERY PLAN" :: order.map (line entries), '\n' ∉ l.toList := by
    rw [List.forall_mem_cons]
    refine ⟨by decide, ?_⟩
    intro l hl
    obtain ⟨i, hi, rfl⟩ := List.mem_map.mp hl
    apply not_mem_line
    have hbound := h.lt_length i hi
    rw [detail, List.getElem?_eq_getElem hbound]
    exact hdetails _ (List.getElem_mem hbound)
  have hread : ((order.map (line entries)).map String.toList ++ [[]]).filterMap readLine =
      order.map (rank entries) := by
    have hrank : readLine ∘ String.toList ∘ line entries = some ∘ rank entries :=
      funext readLine_line
    rw [List.map_map, List.filterMap_append, List.filterMap_map, hrank, List.filterMap_eq_map]
    exact List.append_nil _
  have hparents : ∀ j ∈ hanging entries none, parent? entries j = none :=
    fun j hj => (mem_hanging.mp hj).2
  have hdepth : (trail entries none).length = 0 := by rw [trail_none, List.length_nil]
  have hnone : ∀ t ∈ ([] : List (Nat × Tree)).head?, t.1 ≤ 0 := by simp
  rw [readForest, Text.Utf8.decodeLossy_encode, String.toList_ofList, splitOn_unlines hlines,
    List.map_cons, List.cons_append, List.tail_cons, hread, h.foldr_adopt hdepth hparents hnone,
    List.append_nil, List.map_map]
  exact List.map_id' trees

/-! ## What the printer writes -/

theorem allBytes_lines (lines : List String) :
    Chunk.allBytes (lines.map .line) = Text.Utf8.encode (unlines lines) := by
  induction lines with
  | nil => rfl
  | cons l ls ih =>
    rw [List.map_cons, Chunk.allBytes, List.flatMap_cons, ← Chunk.allBytes, ih, unlines, unlines,
      List.flatMap_cons, Text.Utf8.encode_append]
    rfl

theorem allBytes_chunks (columns : List String) (rows : List Row) :
    Chunk.allBytes (printer.chunks columns rows none) =
      Text.Utf8.encode (unlines (lines (rows.map .ofRow))) := by
  have hbody : printer.body [] rows = ([] ++ rows.map .ofRow, []) :=
    Printer.body_collect (fun _ _ => rfl) [] rows
  rw [← allBytes_lines]
  show Chunk.allBytes ([] ++ (printer.body [] rows).2 ++
    (lines (printer.body [] rows).1).map .line) = _
  rw [hbody]
  rfl

/-- An output that draws a plan: trees that grow from its roots, and its rows in an order. -/
structure Draws (entries : List Entry) (order : List Nat) (trees : List Tree)
    (output : List UInt8) : Prop where
  /-- The parent of a row is the last row before it that has the name which it gives. -/
  parent : ∀ i j, parent? entries j = some i ↔ IsParent entries i j
  /-- The rows stand in the preorder of the trees, siblings in the order in which they came. -/
  preorder : Spans entries (hanging entries none) order trees
  /-- Every row is drawn, and none of them twice. -/
  once : order.Perm (List.range entries.length)
  /-- Below the title there is a line for each row. -/
  output_eq : output = Text.Utf8.encode (unlines ("QUERY PLAN" :: order.map (line entries)))
  /-- In front of a connector there are three characters for each ancestor. -/
  indent : ∀ i ∈ order, (lead entries i).length = 3 * (ancestors entries i).length
  /-- The trees can be read from the output. -/
  readable : (∀ e ∈ entries, '\n' ∉ e.detail.toList) → readForest output = trees

/-- **A query plan is drawn whole**, whatever its rows hold. The output is the same wherever the
rows come from, and every result set that is read to its end is drawn to its end. -/
theorem printer_draws (rows : List Row) :
    ∃ order trees output, Draws (rows.map .ofRow) order trees output ∧
      (∀ settings, solo settings columns rows = output) ∧
      ∀ names s last written, Batch.ReadsOut s rows none last →
        printer.drain false names s.1 s.2 ⟨none, written⟩ =
          ⟨none, last.1, last.2, ⟨none, written ++ output⟩⟩ := by
  have hsame (names : List String) := allBytes_chunks names rows
  obtain ⟨order, hspans⟩ := exists_spans_forest (rows.map Entry.ofRow)
  have hlines : lines (rows.map .ofRow) =
      "QUERY PLAN" :: order.map (line (rows.map .ofRow)) := by
    have hdraw := hspans.drawForest_eq (List.suffix_refl _)
    rw [trail_none] at hdraw
    rw [lines, ← hdraw]
    rfl
  rw [hlines] at hsame
  refine ⟨order, forest (rows.map .ofRow), _, ⟨fun i j => parent?_eq_some_iff, hspans,
    hspans.perm_range, rfl, fun i _ => length_lead i, hspans.readForest_eq⟩, ?_, ?_⟩
  · intro settings
    rw [solo_eq, ← hsame columns]
    rfl
  · intro names s last written h
    rw [printer.drain_unlimited h names written, hsame]

/-- Rows that share a name, name themselves, or name one another. -/
def tangled : List Row :=
  [[.int 1, .int 1, .null, .text "a"], [.int 1, .int 1, .null, .text "b"],
    [.int 2, .int 3, .null, .text "c"], [.int 3, .int 2], [.int 1, .int 1, .null, .text "e"]]

theorem printer_draws_tangled :
    let conn : Connection := { backend := .ofScripts [] }
    let s := (Batch.mk [] .idle false).fetch false (.finite tangled) ⟨[], none⟩ conn
    (∀ e ∈ tangled.map Entry.ofRow, '\n' ∉ e.detail.toList) ∧
      ∃ last order trees, Batch.ReadsOut s tangled none last ∧
        Spans (tangled.map .ofRow) (hanging (tangled.map .ofRow) none) order trees ∧
        readForest (printer.drain false columns s.1 s.2 ⟨none, []⟩).sink.written = trees := by
  intro conn s
  have hdetails : ∀ e ∈ tangled.map Entry.ofRow, '\n' ∉ e.detail.toList := by decide
  have hreads := Batch.readsOut_fetch (b := ⟨[], .idle, false⟩) rfl tangled ⟨[], none⟩ conn
  obtain ⟨order, trees, output, hdraws, -, hdrain⟩ := printer_draws tangled
  refine ⟨hdetails, _, order, trees, hreads, hdraws.preorder, ?_⟩
  rw [hdrain columns _ _ [] hreads]
  exact hdraws.readable hdetails

/-- The cells that the fourth row lacks are empty. -/
example : lines (tangled.map .ofRow) =
    ["QUERY PLAN", "|--a", "|  `--b", "|     `--e", "`--c", "   `--"] := by decide +kernel

end SqlConsole.Plan
