import SqlConsole.Proofs.Statement.Cutting

/-!
# Scanning bytes

`Scan` reads a text character by character and keeps what is outside comments as it goes. `ByteScan`
reads the bytes of the text and keeps offsets: a comment's marks, a doubled quote and a word are
each read in one step, and what is outside comments is copied in segments, where a comment begins
or the fragment ends. Segments and words are slices of the text. A slice that would cut through a
character is none, and ends the scan without a result.

No slice does, and the fragments are the same (`ByteScan.scan_encode`). All bytes of a character
outside of ASCII are word characters and no marks, so that whatever the scan stops at is a
character of ASCII. `Tracks` is what the two readings have in common between two lexemes: the
segment at hand begins at a boundary, and what it holds is what `Scan` has kept and `ByteScan` has
not copied yet.
-/

namespace SqlConsole

open Text Lexeme

/-- Whether a comment is open. -/
def Mode.inComment : Mode → Bool
  | .lineComment | .blockOpening | .blockComment | .blockClosing => true
  | .plain | .quoted _ | .bracketed => false

/-- A reading of the bytes of a text, stopped between two steps. -/
structure ByteScan where
  mode : Mode := .plain
  nesting : Nesting := {}
  /-- The byte that the last token began with, if there was one. -/
  significant : Option UInt8 := none
  /-- Where the fragment at hand begins. -/
  start : Nat := 0
  /-- Where the text outside comments begins that is not copied yet. -/
  segment : Nat := 0
  /-- What is copied of the fragment at hand, with a space for each comment. -/
  sql : List Char := []
  /-- The number of bytes read. -/
  pos : Nat := 0

namespace ByteScan

/-- The next byte, taken as a character. -/
def peek (bs : List UInt8) : Option Char := bs.head?.map Char.ofUInt8

/-- Whether a `;` at this point separates statements. -/
def separates (t : ByteScan) : Bool := t.mode == .plain && t.nesting.depth == 0

/-- The segment at hand is copied, if it is a slice. -/
def copy (text : List Char) (t : ByteScan) : Option ByteScan :=
  (slice? text ⟨t.segment, t.pos⟩).map fun part => { t with sql := t.sql ++ part }

/-- The fragment at hand, all of it copied, were it to end here. -/
def fragment (t : ByteScan) (terminated : Bool) : Fragment :=
  ⟨⟨t.start, t.pos⟩, trim t.sql, terminated⟩

/-- Past a separating `;`. -/
def separate (t : ByteScan) : ByteScan :=
  { t with
    nesting := {}, significant := some 0x3B, sql := []
    start := t.pos + 1, segment := t.pos + 1, pos := t.pos + 1 }

/-- Past the two bytes that open a comment. -/
def openComment (text : List Char) (t : ByteScan) (mode : Mode) : Option ByteScan :=
  (t.copy text).map fun t => { t with mode, sql := t.sql ++ [' '], pos := t.pos + 2 }

/-- Past a word whose letters have so many bytes. -/
def readWord (text : List Char) (t : ByteScan) (b : UInt8) (size : Nat) : Option ByteScan :=
  (slice? text ⟨t.pos, t.pos + size⟩).map fun word =>
    { t with nesting := t.nesting.read word, significant := some b, pos := t.pos + size }

/-- One step outside quotes and comments. -/
def stepPlain (text : List Char) (t : ByteScan) (b : UInt8) (bs : List UInt8) : Option ByteScan :=
  let c := Char.ofUInt8 b
  if c == '-' && peek bs == some '-' then t.openComment text .lineComment
  else if c == '/' && peek bs == some '*' then t.openComment text .blockComment
  else if isQuote c then some { t with mode := .quoted c, significant := some b, pos := t.pos + 1 }
  else if c == '[' then some { t with mode := .bracketed, significant := some b, pos := t.pos + 1 }
  else if isWordChar c then
    t.readWord text b ((b :: bs).takeWhile fun b => isWordChar (Char.ofUInt8 b)).length
  else
    some { t with significant := if isSpace c then t.significant else some b, pos := t.pos + 1 }

/-- One step from the byte `b`, which does not separate; `bs` are the bytes behind it. -/
def step (text : List Char) (t : ByteScan) (b : UInt8) (bs : List UInt8) : Option ByteScan :=
  match t.mode with
  | .plain => t.stepPlain text b bs
  | .quoted quote =>
    if Char.ofUInt8 b == quote then
      if peek bs == some quote then some { t with pos := t.pos + 2 }
      else some { t with mode := .plain, pos := t.pos + 1 }
    else some { t with pos := t.pos + 1 }
  | .bracketed =>
    some { t with mode := if Char.ofUInt8 b == ']' then .plain else .bracketed, pos := t.pos + 1 }
  | .lineComment =>
    if Char.ofUInt8 b == '\n' then some { t with mode := .plain, segment := t.pos, pos := t.pos + 1 }
    else some { t with pos := t.pos + 1 }
  | .blockOpening | .blockComment | .blockClosing =>
    if Char.ofUInt8 b == '*' && peek bs == some '/' then
      some { t with mode := .plain, segment := t.pos + 2, pos := t.pos + 2 }
    else some { t with pos := t.pos + 1 }

/-- The last fragment, if it has a byte. -/
def finish (text : List Char) (t : ByteScan) : Option (List Fragment) :=
  if t.start < t.pos then
    (if t.mode.inComment then some t else t.copy text).map fun t => [t.fragment false]
  else some []

/-- The fragments of the rest of the text, whose bytes are given, and the reading at its end. -/
def scan (text : List Char) (t : ByteScan) : List UInt8 → Option (List Fragment × ByteScan)
  | [] => (t.finish text).map fun fs => (fs, t)
  | b :: bs =>
    if Char.ofUInt8 b == ';' && t.separates then
      (t.copy text).bind fun closing =>
        (scan text t.separate bs).map fun (fs, last) => (closing.fragment true :: fs, last)
    else
      (t.step text b bs).bind fun next => scan text next (bs.drop (next.pos - t.pos - 1))
termination_by bs => bs.length

/-- The reading after one step, and the bytes behind those that were read in it. No step goes past a
separator. -/
def advance (text : List Char) (t : ByteScan) : List UInt8 → Option (ByteScan × List UInt8)
  | [] => none
  | b :: bs =>
    if Char.ofUInt8 b == ';' && t.separates then none
    else (t.step text b bs).map fun next => (next, bs.drop (next.pos - t.pos - 1))

/-- Any number of steps, from one reading and the bytes ahead of it to another, without leaving a
mode. -/
inductive Within (text : List Char) (mode : Mode) :
    ByteScan → List UInt8 → ByteScan → List UInt8 → Prop
  | here {t bs} (hm : t.mode = mode) : Within text mode t bs t bs
  | step {t bs next rest u us} (hm : t.mode = mode) (h : t.advance text bs = some (next, rest))
      (hrest : Within text mode next rest u us) : Within text mode t bs u us

/-- Whether the last token read is a `;` with nothing left open. -/
def atEnd (t : ByteScan) : Bool :=
  (t.mode == .plain || t.mode == .lineComment) && t.nesting.depth == 0 &&
    t.significant.map Char.ofUInt8 == some ';'

end ByteScan

/-! ## Bytes of characters -/

theorem toNat_ofUInt8 (b : UInt8) : (Char.ofUInt8 b).toNat = b.toNat := by
  change b.toUInt32.toNat = b.toNat
  simp

/-- A character of ASCII is one byte, which stands for it. -/
theorem encodeChar_of_ascii {c : Char} (h : c.toNat < 0x80) :
    ∃ b, String.utf8EncodeChar c = [b] ∧ Char.ofUInt8 b = c := by
  refine ⟨UInt8.ofNat c.toNat, ?_, ?_⟩
  · have hle : c.toNat ≤ 127 := Nat.le_of_lt_succ h
    simp only [String.utf8EncodeChar, Char.toNat_val, if_pos hle]
  · rw [← Char.toNat_inj, toNat_ofUInt8, UInt8.toNat_ofNat']
    omega

theorem utf8Size_of_ascii {c : Char} (h : c.toNat < 0x80) : c.utf8Size = 1 := by
  obtain ⟨b, hb, -⟩ := encodeChar_of_ascii h
  rw [← String.length_utf8EncodeChar, hb]
  rfl

/-- All bytes of other characters are outside of ASCII. -/
theorem le_of_mem_encodeChar {c : Char} (h : ¬ c.toNat < 0x80) :
    ∀ b ∈ String.utf8EncodeChar c, 0x80 ≤ b.toNat := by
  have hle : ¬ c.toNat ≤ 127 := fun hle => h (Nat.lt_succ_of_le hle)
  simp only [String.utf8EncodeChar, Char.toNat_val, if_neg hle]
  intro b hb
  split at hb
  · simp at hb
    rcases hb with rfl | rfl <;> simp <;> omega
  · split at hb
    · simp at hb
      rcases hb with rfl | rfl | rfl <;> simp <;> omega
    · simp at hb
      rcases hb with rfl | rfl | rfl | rfl <;> simp <;> omega

/-- What is true of a character and of all that are outside of ASCII is true of its bytes. -/
theorem forall_mem_encodeChar {P : Char → Prop} (hhigh : ∀ d : Char, 0x80 ≤ d.toNat → P d)
    {c : Char} (hc : P c) : ∀ b ∈ String.utf8EncodeChar c, P (Char.ofUInt8 b) := by
  by_cases h : c.toNat < 0x80
  · obtain ⟨b, hb, hbc⟩ := encodeChar_of_ascii h
    rw [hb]
    simpa [hbc] using hc
  · intro b hb
    exact hhigh _ (toNat_ofUInt8 b ▸ le_of_mem_encodeChar h b hb)

theorem forall_mem_encode {P : Char → Prop} (hhigh : ∀ d : Char, 0x80 ≤ d.toNat → P d)
    {cs : List Char} (hcs : ∀ c ∈ cs, P c) : ∀ b ∈ Utf8.encode cs, P (Char.ofUInt8 b) := by
  intro b hb
  obtain ⟨c, hc, hb⟩ := List.mem_flatMap.mp hb
  exact forall_mem_encodeChar hhigh (hcs c hc) b hb

/-- No byte of another character is taken for a mark. -/
theorem forall_mem_encode_ne {mark : Char} (hmark : mark.toNat < 0x80) {cs : List Char}
    (hcs : mark ∉ cs) : ∀ b ∈ Utf8.encode cs, Char.ofUInt8 b ≠ mark := by
  have hhigh : ∀ d : Char, 0x80 ≤ d.toNat → d ≠ mark := by
    rintro d hd rfl
    omega
  exact forall_mem_encode hhigh fun c hc he => hcs (he ▸ hc)

theorem isWordChar_of_le {c : Char} (h : 0x80 ≤ c.toNat) : isWordChar c = true := by
  simp [isWordChar, h]

theorem ascii_of_not_isWordChar {c : Char} (h : isWordChar c = false) : c.toNat < 0x80 := by
  by_contra hge
  simp [isWordChar_of_le (Nat.le_of_not_lt hge)] at h

theorem ascii_of_isQuote {c : Char} (h : isQuote c = true) : c.toNat < 0x80 :=
  ascii_of_not_isWordChar (isWordChar_of_isQuote h)

namespace ByteScan

/-- The next byte is a mark if the next character is. -/
theorem peek_encode {mark : Char} (hmark : mark.toNat < 0x80) (cs : List Char) :
    peek (Utf8.encode cs) = some mark ↔ cs.head? = some mark := by
  cases cs with
  | nil => simp [peek]
  | cons c cs =>
    by_cases hc : c.toNat < 0x80
    · obtain ⟨b, hb, hbc⟩ := encodeChar_of_ascii hc
      simp [peek, hb, hbc]
    · have hne : c ≠ mark := fun he => hc (he ▸ hmark)
      have hlength : 0 < (String.utf8EncodeChar c).length := by
        rw [String.length_utf8EncodeChar]
        exact c.utf8Size_pos
      obtain ⟨b, bs, hbs⟩ := List.exists_cons_of_length_pos hlength
      have hb : Char.ofUInt8 b ≠ mark := by
        intro he
        have hge := le_of_mem_encodeChar hc b (hbs ▸ List.mem_cons_self)
        rw [← he, toNat_ofUInt8] at hmark
        omega
      simp [peek, hbs, hne, hb]

/-! ## Reading bytes -/

/-- Past bytes that count for nothing. -/
def skip (t : ByteScan) (n : Nat) : ByteScan := { t with pos := t.pos + n }

theorem skip_skip (t : ByteScan) (m n : Nat) : (t.skip m).skip n = t.skip (m + n) := by
  simp [skip, Nat.add_assoc]

section Steps

variable {text : List Char} {t next : ByteScan}

/-- One step, over the byte `b` and those behind it that are read with it. -/
theorem advance_step {b : UInt8} {xs ys : List UInt8}
    (hsep : ¬ (Char.ofUInt8 b = ';' ∧ t.separates = true))
    (hstep : t.step text b (xs ++ ys) = some next) (hpos : next.pos = t.pos + xs.length + 1) :
    advance text t (b :: (xs ++ ys)) = some (next, ys) := by
  have hdrop : next.pos - t.pos - 1 = xs.length := by omega
  rw [advance, if_neg (by simpa using hsep), hstep, Option.map_some, hdrop, List.drop_left]

/-- One step over a single byte. -/
theorem advance_byte {b : UInt8} {ys : List UInt8}
    (hsep : ¬ (Char.ofUInt8 b = ';' ∧ t.separates = true)) (hstep : t.step text b ys = some next)
    (hpos : next.pos = t.pos + 1) : advance text t (b :: ys) = some (next, ys) := by
  have hstep' : t.step text b ([] ++ ys) = some next := hstep
  exact advance_step hsep hstep' hpos

/-- One step over two bytes. -/
theorem advance_pair {b d : UInt8} {ys : List UInt8}
    (hsep : ¬ (Char.ofUInt8 b = ';' ∧ t.separates = true))
    (hstep : t.step text b (d :: ys) = some next) (hpos : next.pos = t.pos + 2) :
    advance text t (b :: d :: ys) = some (next, ys) := by
  have hstep' : t.step text b ([d] ++ ys) = some next := hstep
  exact advance_step hsep hstep' hpos

/-- The scan goes on from where a step leads. -/
theorem scan_of_advance {bs ys : List UInt8} (h : t.advance text bs = some (next, ys)) :
    scan text t bs = scan text next ys := by
  cases bs with
  | nil => cases h
  | cons b bs =>
    rw [advance] at h
    rw [scan]
    split at h
    case isTrue => cases h
    case isFalse hsep =>
      obtain ⟨u, hstep, ⟨⟩⟩ := Option.map_eq_some_iff.mp h
      rw [if_neg hsep, hstep, Option.bind_some]

/-- The scan goes on from where any number of steps lead. -/
theorem Within.scan_eq {mode : Mode} {u : ByteScan} {bs us : List UInt8}
    (h : Within text mode t bs u us) : scan text t bs = scan text u us := by
  induction h with
  | here _ => rfl
  | step _ hfirst _ ih => rw [scan_of_advance hfirst, ih]

theorem Within.trans {mode : Mode} {u v : ByteScan} {bs us vs : List UInt8}
    (h : Within text mode t bs u us) (h' : Within text mode u us v vs) :
    Within text mode t bs v vs := by
  induction h with
  | here _ => exact h'
  | step hm hfirst _ ih => exact .step hm hfirst (ih h')

theorem not_separates_of_mode (hm : t.mode ≠ .plain) (c : Char) :
    ¬ (c = ';' ∧ t.separates = true) := by
  simp [separates, hm]

/-- Bytes each of which is passed over by itself. -/
theorem within_skip {mode : Mode} (hmode : mode ≠ .plain) {xs : List UInt8}
    (hstep : ∀ t : ByteScan, t.mode = mode →
      ∀ b ∈ xs, ∀ bs, t.step text b bs = some (t.skip 1))
    (hm : t.mode = mode) (ys : List UInt8) :
    Within text mode t (xs ++ ys) (t.skip xs.length) ys := by
  induction xs generalizing t with
  | nil => exact .here hm
  | cons b xs ih =>
    have hfirst : advance text t (b :: (xs ++ ys)) = some (t.skip 1, xs ++ ys) :=
      advance_byte (not_separates_of_mode (hm ▸ hmode) _)
        (hstep t hm b List.mem_cons_self _) rfl
    have hrest := ih (t := t.skip 1)
      (fun t hm b hb => hstep t hm b (List.mem_cons_of_mem _ hb)) hm
    rw [skip_skip, Nat.add_comm, ← List.length_cons (a := b)] at hrest
    exact .step hm hfirst hrest

/-- The characters of a bracketed token. -/
theorem scan_bracketed (hm : t.mode = .bracketed) {inner : List Char} (hin : ']' ∉ inner)
    (ys : List UInt8) :
    scan text t (Utf8.encode inner ++ ys) = scan text (t.skip (byteSize inner)) ys := by
  rw [← length_encode]
  refine (within_skip (by simp) (fun t hm b hb bs => ?_) hm ys).scan_eq
  have hne := forall_mem_encode_ne (by decide) hin b hb
  simp [step, hm, hne, skip]

/-- The characters of a line comment. -/
theorem scan_lineComment (hm : t.mode = .lineComment) {inner : List Char} (hin : '\n' ∉ inner)
    (ys : List UInt8) :
    scan text t (Utf8.encode inner ++ ys) = scan text (t.skip (byteSize inner)) ys := by
  rw [← length_encode]
  refine (within_skip (by simp) (fun t hm b hb bs => ?_) hm ys).scan_eq
  have hne := forall_mem_encode_ne (by decide) hin b hb
  simp [step, hm, hne, skip]

/-- The characters of a block comment, up to its end or to where nothing follows. -/
theorem scan_blockComment (hm : t.mode = .blockComment) {inner rest : List Char}
    (hin : ¬ ['*', '/'] <:+: inner) (hrest : rest.head? ≠ some '/') :
    scan text t (Utf8.encode inner ++ Utf8.encode rest) =
      scan text (t.skip (byteSize inner)) (Utf8.encode rest) := by
  induction inner generalizing t with
  | nil => rfl
  | cons c inner ih =>
    obtain ⟨hc, hin⟩ := Enclosure.not_infix_cons.mp hin
    rw [byteSize_cons, ← skip_skip, ← ih (t := t.skip c.utf8Size) hm hin, Utf8.encode_cons,
      List.append_assoc]
    by_cases hstar : c = '*'
    · subst hstar
      have hnext : (inner ++ rest).head? ≠ some '/' := by
        cases inner with
        | nil => exact hrest
        | cons d inner => exact fun hd => hc ⟨rfl, hd⟩
      have hpeek : peek (Utf8.encode inner ++ Utf8.encode rest) ≠ some '/' := by
        rw [← Utf8.encode_append]
        exact mt (peek_encode (by decide) _).mp hnext
      exact scan_of_advance (advance_byte (not_separates_of_mode (by simp [hm]) _)
        (by simp [step, hm, hpeek, skip]; rfl) rfl)
    · rw [← String.length_utf8EncodeChar]
      refine (within_skip (by simp) (fun t hm b hb bs => ?_) hm _).scan_eq
      have hne : Char.ofUInt8 b ≠ '*' :=
        forall_mem_encodeChar (P := (· ≠ '*')) (by rintro d hd rfl; simp at hd) hstar b hb
      simp [step, hm, hne, skip]

/-- The characters of a quoted token. A doubled quote is read in one step, and does not leave the
token. -/
theorem within_doubled {quote : Char} (hq : isQuote quote = true) (hm : t.mode = .quoted quote)
    (inner : List Char) (ys : List UInt8) :
    Within text (.quoted quote) t (Utf8.encode (doubled quote inner) ++ ys)
      (t.skip (byteSize (doubled quote inner))) ys := by
  induction inner generalizing t with
  | nil => exact .here hm
  | cons c inner ih =>
    by_cases hc : c = quote
    · subst hc
      obtain ⟨b, hb, hbc⟩ := encodeChar_of_ascii (ascii_of_isQuote hq)
      have hsize : c.utf8Size = 1 := utf8Size_of_ascii (ascii_of_isQuote hq)
      have htwo : byteSize (doubled c (c :: inner)) = 2 + byteSize (doubled c inner) := by
        simp only [doubled_cons_self, byteSize_cons, hsize]
        omega
      have hstep : t.step text b (b :: (Utf8.encode (doubled c inner) ++ ys)) =
          some (t.skip 2) := by
        simp [step, hm, hbc, peek, skip]
      have hpair := advance_pair (not_separates_of_mode (by simp [hm]) _) hstep rfl
      rw [htwo, ← skip_skip, doubled_cons_self, Utf8.encode_cons, Utf8.encode_cons, hb]
      exact .step hm hpair (ih (t := t.skip 2) hm)
    · have hfirst : Within text (.quoted quote) t
          (String.utf8EncodeChar c ++ (Utf8.encode (doubled quote inner) ++ ys))
          (t.skip c.utf8Size) (Utf8.encode (doubled quote inner) ++ ys) := by
        rw [← String.length_utf8EncodeChar]
        refine within_skip (by simp) (fun t hm b hb bs => ?_) hm _
        have hquote : quote ∉ [c] := by simpa [eq_comm] using hc
        have hne : Char.ofUInt8 b ≠ quote :=
          forall_mem_encode_ne (ascii_of_isQuote hq) hquote b (by simpa using hb)
        simp [step, hm, hne, skip]
      rw [doubled_cons_of_ne hc, byteSize_cons, ← skip_skip, Utf8.encode_cons, List.append_assoc]
      exact hfirst.trans (ih (t := t.skip c.utf8Size) hm)

/-- One step over a character of ASCII. -/
theorem advance_ascii (text : List Char) {c : Char} (hc : c.toNat < 0x80)
    (hsep : ¬ (c = ';' ∧ t.separates = true)) (rest : List Char) :
    ∃ b, Char.ofUInt8 b = c ∧ ∀ next, t.step text b (Utf8.encode rest) = some next →
      next.pos = t.pos + 1 →
      advance text t (Utf8.encode (c :: rest)) = some (next, Utf8.encode rest) := by
  obtain ⟨b, hb, rfl⟩ := encodeChar_of_ascii hc
  refine ⟨b, rfl, fun next hstep hpos => ?_⟩
  rw [Utf8.encode_cons, hb]
  exact advance_byte hsep hstep hpos

/-- The step over the quote that opens a token. -/
theorem advance_quote_open (text : List Char) {quote : Char} (hq : isQuote quote = true)
    (hm : t.mode = .plain) (rest : List Char) :
    ∃ b, Char.ofUInt8 b = quote ∧
      advance text t (Utf8.encode (quote :: rest)) =
        some ({ t with mode := .quoted quote, significant := some b }.skip 1,
          Utf8.encode rest) := by
  have hsep : ¬ (quote = ';' ∧ t.separates = true) := by
    rintro ⟨rfl, -⟩
    simp [isQuote] at hq
  have hline : quote ≠ '-' := by rintro rfl; simp [isQuote] at hq
  have hblock : quote ≠ '/' := by rintro rfl; simp [isQuote] at hq
  obtain ⟨b, hb, hadvance⟩ := advance_ascii text (ascii_of_isQuote hq) hsep rest
  exact ⟨b, hb, hadvance _ (by simp [step, hm, stepPlain, hb, hline, hblock, hq, skip]) rfl⟩

/-- The step over the quote that closes a token. -/
theorem advance_quote_close (text : List Char) {quote : Char} (hq : isQuote quote = true)
    (hm : t.mode = .quoted quote) {rest : List Char} (hrest : rest.head? ≠ some quote) :
    advance text t (Utf8.encode (quote :: rest)) =
      some ({ t with mode := .plain }.skip 1, Utf8.encode rest) := by
  have hpeek : peek (Utf8.encode rest) ≠ some quote :=
    mt (peek_encode (ascii_of_isQuote hq) rest).mp hrest
  obtain ⟨b, hb, hadvance⟩ := advance_ascii text (ascii_of_isQuote hq)
    (not_separates_of_mode (t := t) (by simp [hm]) quote) rest
  exact hadvance _ (by simp [step, hm, hb, hpeek, skip]) rfl

/-- From the opening quote on. -/
theorem scan_quoted_open {quote : Char} (hq : isQuote quote = true) (hm : t.mode = .plain)
    (inner rest : List Char) :
    ∃ b, Char.ofUInt8 b = quote ∧
      scan text t (Utf8.encode (quote :: (doubled quote inner ++ rest))) =
        scan text
          ({ t with mode := .quoted quote, significant := some b }.skip
            (1 + byteSize (doubled quote inner)))
          (Utf8.encode rest) := by
  obtain ⟨b, hb, hopen⟩ := advance_quote_open text hq hm (doubled quote inner ++ rest)
  refine ⟨b, hb, ?_⟩
  rw [scan_of_advance hopen, Utf8.encode_append, (within_doubled hq rfl inner _).scan_eq,
    skip_skip]

/-- From the opening bracket on. -/
theorem scan_bracketed_open (hm : t.mode = .plain) {inner : List Char} (hin : ']' ∉ inner)
    (rest : List Char) :
    ∃ b, Char.ofUInt8 b = '[' ∧
      scan text t (Utf8.encode ('[' :: (inner ++ rest))) =
        scan text
          ({ t with mode := .bracketed, significant := some b }.skip (1 + byteSize inner))
          (Utf8.encode rest) := by
  obtain ⟨b, hb, hopen⟩ := advance_ascii text (t := t) (c := '[') (by decide) (by simp)
    (inner ++ rest)
  refine ⟨b, hb, ?_⟩
  rw [scan_of_advance (hopen ({ t with mode := .bracketed, significant := some b }.skip 1)
    (by simp [step, hm, stepPlain, hb, isQuote, skip]) rfl), Utf8.encode_append,
    scan_bracketed rfl hin, skip_skip]

/-- Past the bracket that closes a token. -/
theorem scan_bracketed_close (hm : t.mode = .bracketed) (rest : List Char) :
    scan text t (Utf8.encode (']' :: rest)) =
      scan text ({ t with mode := .plain }.skip 1) (Utf8.encode rest) := by
  obtain ⟨b, hb, hclose⟩ := advance_ascii text (c := ']') (by decide)
    (not_separates_of_mode (t := t) (by simp [hm]) _) rest
  exact scan_of_advance (hclose _ (by simp [step, hm, hb, skip]) rfl)

/-- Past the mark that closes a block comment. -/
theorem scan_blockComment_close (hm : t.mode = .blockComment) (rest : List Char) :
    scan text t (Utf8.encode ('*' :: '/' :: rest)) =
      scan text ({ t with mode := .plain, segment := t.pos + 2 }.skip 2) (Utf8.encode rest) := by
  obtain ⟨b, hb, hbc⟩ := encodeChar_of_ascii (c := '*') (by decide)
  obtain ⟨d, hd, hdc⟩ := encodeChar_of_ascii (c := '/') (by decide)
  rw [Utf8.encode_cons, Utf8.encode_cons, hb, hd]
  refine scan_of_advance (advance_pair (not_separates_of_mode (by simp [hm]) _) ?_ rfl)
  simp [step, hm, hbc, peek, hdc, skip]

/-- A word is read in one step. -/
theorem advance_word (hm : t.mode = .plain) {past letters rest : List Char}
    (hpos : t.pos = byteSize past) (hne : letters ≠ []) (hw : ∀ c ∈ letters, isWordChar c = true)
    (hrest : ∀ c ∈ rest.head?, isWordChar c = false) :
    ∃ b, isWordChar (Char.ofUInt8 b) = true ∧
      (Utf8.encode (letters ++ rest)).head? = some b ∧
      advance (past ++ (letters ++ rest)) t (Utf8.encode (letters ++ rest)) =
        some ({ t with
            nesting := t.nesting.read letters, significant := some b
            pos := t.pos + byteSize letters },
          Utf8.encode rest) := by
  have hletters : ∀ b ∈ Utf8.encode letters, isWordChar (Char.ofUInt8 b) = true :=
    forall_mem_encode (fun _ => isWordChar_of_le) hw
  have hbehind : ∀ b ∈ (Utf8.encode rest).head?, isWordChar (Char.ofUInt8 b) = false := by
    intro b hb
    cases rest with
    | nil => cases hb
    | cons c rest =>
      have hc := hrest c rfl
      obtain ⟨d, hd, hdc⟩ := encodeChar_of_ascii (ascii_of_not_isWordChar hc)
      rw [Utf8.encode_cons, hd] at hb
      cases hb
      rw [hdc]
      exact hc
  obtain ⟨htake, -⟩ := takeWhile_dropWhile_append hletters hbehind
  have hslice : slice? (past ++ (letters ++ rest)) ⟨t.pos, t.pos + byteSize letters⟩ =
      some letters := by
    rw [hpos]
    exact slice?_append past letters rest
  cases hbytes : Utf8.encode letters with
  | nil =>
    have hlength := length_encode letters
    have hbytePos := Scan.byteSize_pos hne
    rw [hbytes] at hlength
    simp at hlength
    omega
  | cons b bs =>
    have hb : isWordChar (Char.ofUInt8 b) = true := hletters b (hbytes ▸ List.mem_cons_self)
    have hsize : (b :: bs).length = byteSize letters := hbytes ▸ length_encode letters
    have hline := ne_of_isWordChar hb (d := '-') rfl
    have hblock := ne_of_isWordChar hb (d := '/') rfl
    have hbracket := ne_of_isWordChar hb (d := '[') rfl
    have hsemi := ne_of_isWordChar hb (d := ';') rfl
    refine ⟨b, hb, by rw [Utf8.encode_append, hbytes]; rfl, ?_⟩
    rw [Utf8.encode_append, hbytes, List.cons_append]
    refine advance_step (fun h => hsemi h.1) ?_ (by rw [← hsize]; rfl)
    rw [hbytes, List.cons_append] at htake
    simp [step, hm, stepPlain, hline, hblock, hbracket, isQuote_of_isWordChar hb, hb, readWord,
      htake, hsize, hslice]

/-- A character of any other kind. -/
theorem scan_symbol (hm : t.mode = .plain) {c : Char} {rest : List Char}
    (hf : (Lexeme.symbol c).Fits rest) (hsep : ¬ t.nesting.separates (.symbol c)) :
    ∃ b, Char.ofUInt8 b = c ∧
      scan text t (Utf8.encode (c :: rest)) =
        scan text
          { t with
            significant := if isSpace c then t.significant else some b, pos := t.pos + 1 }
          (Utf8.encode rest) := by
  cases hf with
  | symbol hq hb hw hline hblock =>
    have hsep' : ¬ (c = ';' ∧ t.separates = true) := by
      rintro ⟨rfl, h⟩
      exact hsep ⟨rfl, by simpa [separates, hm] using h⟩
    have hline' : ¬ (c = '-' ∧ peek (Utf8.encode rest) = some '-') := fun h =>
      hline h.1 ((peek_encode (by decide) rest).mp h.2)
    have hblock' : ¬ (c = '/' ∧ peek (Utf8.encode rest) = some '*') := fun h =>
      hblock h.1 ((peek_encode (by decide) rest).mp h.2)
    obtain ⟨b, hbc, hadvance⟩ :=
      advance_ascii text (ascii_of_not_isWordChar hw) hsep' rest
    refine ⟨b, hbc, scan_of_advance (hadvance _ ?_ rfl)⟩
    simp [step, hm, stepPlain, hbc, hline', hblock', hq, hb, hw]

/-- Any lexeme but a comment. Only a `;` counts as one when the last token is asked for. -/
theorem scan_token {past rest : List Char} {l : Lexeme} {before : Bool} (hm : t.mode = .plain)
    (hpos : t.pos = byteSize past) (hf : l.Fits rest) (hc : l.isComment = false)
    (hsep : ¬ t.nesting.separates l)
    (hbefore : before = (t.significant.map Char.ofUInt8 == some ';')) :
    ∃ significant : Option UInt8,
      l.settles before = (significant.map Char.ofUInt8 == some ';') ∧
      scan (past ++ (l.text ++ rest)) t (Utf8.encode (l.text ++ rest)) =
        scan (past ++ (l.text ++ rest))
          { t with
            mode := l.mode, nesting := t.nesting.after l, significant
            pos := t.pos + byteSize l.text }
          (Utf8.encode rest) := by
  have hquote : ∀ {quote : Char}, isQuote quote = true → quote ≠ ';' := by
    rintro _ hq rfl
    simp [isQuote] at hq
  cases hf with
  | @quoted quote inner rest hq hrest =>
    have hsize := utf8Size_of_ascii (ascii_of_isQuote hq)
    have htext : (Lexeme.quoted quote inner true).text ++ rest =
        quote :: (doubled quote inner ++ quote :: rest) := by simp [text]
    rw [htext]
    obtain ⟨b, hb, hopen⟩ := scan_quoted_open hq hm inner (quote :: rest)
    refine ⟨some b, by simp [settles, hb, hquote hq], ?_⟩
    rw [hopen, scan_of_advance (advance_quote_close _ hq rfl hrest)]
    simp [skip, Lexeme.mode, Nesting.after, text, hsize, Nat.add_assoc]
  | @openQuoted quote inner hq =>
    have htext : (Lexeme.quoted quote inner false).text ++ [] =
        quote :: (doubled quote inner ++ []) := by simp [text]
    rw [htext]
    obtain ⟨b, hb, hopen⟩ := scan_quoted_open hq hm inner []
    refine ⟨some b, by simp [settles, hb, hquote hq], ?_⟩
    rw [hopen]
    simp [skip, Lexeme.mode, Nesting.after, text, utf8Size_of_ascii (ascii_of_isQuote hq)]
  | @bracketed inner rest hin =>
    have htext : (Lexeme.bracketed inner true).text ++ rest = '[' :: (inner ++ ']' :: rest) := by
      simp [text]
    rw [htext]
    obtain ⟨b, hb, hopen⟩ := scan_bracketed_open hm hin (']' :: rest)
    refine ⟨some b, by simp [settles, hb], ?_⟩
    rw [hopen, scan_bracketed_close rfl]
    simp [skip, Lexeme.mode, Nesting.after, text, Nat.add_assoc, Char.utf8Size]
  | @openBracketed inner hin =>
    have htext : (Lexeme.bracketed inner false).text ++ [] = '[' :: (inner ++ []) := by
      simp [text]
    rw [htext]
    obtain ⟨b, hb, hopen⟩ := scan_bracketed_open hm hin []
    refine ⟨some b, by simp [settles, hb], ?_⟩
    rw [hopen]
    simp [skip, Lexeme.mode, Nesting.after, text, Char.utf8Size]
  | @word letters rest hne hw hrest =>
    obtain ⟨b, hb, -, hadvance⟩ := advance_word hm hpos hne hw hrest
    refine ⟨some b, by simp [settles, ne_of_isWordChar hb (d := ';') rfl], ?_⟩
    rw [text, scan_of_advance hadvance]
    simp [hm, Lexeme.mode, Nesting.after]
  | @symbol c rest hq hb hw hline hblock =>
    obtain ⟨b, hbc, hscan⟩ := scan_symbol hm (.symbol hq hb hw hline hblock) hsep
    refine ⟨if isSpace c then t.significant else some b, ?_, ?_⟩
    · by_cases hspace : isSpace c = true
      · simp [settles, hspace, hbefore]
      · simp [settles, hspace, hbc]
    · rw [text, List.singleton_append, hscan]
      simp [hm, Lexeme.mode, Nesting.after, utf8Size_of_ascii (ascii_of_not_isWordChar hw)]
  | lineComment _ _ | blockComment _ | openBlockComment _ => cases hc

end Steps

/-! ## Two readings of one text -/

/-- What two readings of a text share when both stand behind `past`. -/
structure Tracks (past : List Char) (s : Scan) (t : ByteScan) : Prop where
  mode : t.mode = s.mode
  nesting : t.nesting = s.nesting
  settled : s.settled = (t.significant.map Char.ofUInt8 == some ';')
  start : t.start = s.start
  chars : s.pos = byteSize past
  bytes : t.pos = byteSize past
  /-- In a comment all that was kept is copied. -/
  copied : t.mode.inComment = true → s.kept.reverse = t.sql
  /-- Elsewhere the segment at hand is what is not copied of it. -/
  segment : t.mode.inComment = false →
    ∃ before part, past = before ++ part ∧ t.segment = byteSize before ∧
      s.kept.reverse = t.sql ++ part

/-- Two readings of a text come to the same fragments, and agree on whether the text is at a
statement's end. -/
def Agrees (byBytes : Option (List Fragment × ByteScan)) (byChars : List Fragment × Scan) : Prop :=
  ∃ last, byBytes = some (byChars.1, last) ∧ last.atEnd = byChars.2.atEnd

namespace Tracks

variable {past rest : List Char} {s : Scan} {t : ByteScan}

theorem start_scan : Tracks [] {} {} :=
  ⟨rfl, rfl, rfl, rfl, rfl, rfl, fun h => (by cases h), fun _ => ⟨[], [], rfl, rfl, rfl⟩⟩

/-- The segment at hand is a slice. -/
theorem copy_eq (h : Tracks past s t) (hm : t.mode.inComment = false) (rest : List Char) :
    t.copy (past ++ rest) = some { t with sql := s.kept.reverse } := by
  obtain ⟨before, part, rfl, hsegment, hkept⟩ := h.segment hm
  have hslice : slice? (before ++ part ++ rest) ⟨t.segment, t.pos⟩ = some part := by
    rw [hsegment, h.bytes, byteSize_append, List.append_assoc]
    exact slice?_append before part rest
  rw [copy, hslice, hkept]
  rfl

theorem fragment_eq (h : Tracks past s t) (terminated : Bool) :
    { t with sql := s.kept.reverse }.fragment terminated = s.fragment terminated := by
  rw [fragment, Scan.fragment, h.start, h.bytes, h.chars]

/-- Both readings end with the same last fragment. -/
theorem finish_eq (h : Tracks past s t) :
    t.finish past = some (if s.start < s.pos then [s.fragment false] else []) := by
  have hcopied : (if t.mode.inComment then some t else t.copy past) =
      some { t with sql := s.kept.reverse } := by
    by_cases hm : t.mode.inComment = true
    · rw [if_pos hm, h.copied hm]
    · have hcopy := h.copy_eq (by simpa using hm) []
      rw [List.append_nil] at hcopy
      rw [if_neg hm, hcopy]
  rw [finish, h.start, h.bytes, ← h.chars, hcopied, Option.map_some, h.fragment_eq]
  split <;> rfl

theorem atEnd_eq (h : Tracks past s t) : t.atEnd = s.atEnd := by
  rw [ByteScan.atEnd, Scan.atEnd, h.mode, h.nesting, h.settled]

/-- Behind a lexeme that is no comment, the segment goes on. -/
theorem keep (h : Tracks past s t) (hm : t.mode = .plain) {l : Lexeme} (hc : l.isComment = false)
    {significant : Option UInt8}
    (hsettled : l.settles s.settled = (significant.map Char.ofUInt8 == some ';')) :
    Tracks (past ++ l.text) (s.pass l)
      { t with
        mode := l.mode, nesting := t.nesting.after l, significant
        pos := t.pos + byteSize l.text } := by
  have hmode : l.mode.inComment = false := by
    cases l with
    | quoted _ _ closed | bracketed _ closed => cases closed <;> rfl
    | word _ | symbol _ => rfl
    | lineComment _ | blockComment _ _ => cases hc
  obtain ⟨before, part, hpast, hsegment, hkept⟩ := h.segment (by rw [hm]; rfl)
  refine ⟨rfl, ?_, hsettled, h.start, ?_, ?_, ?_, fun _ => ?_⟩
  · rw [Scan.pass, h.nesting]
  · rw [Scan.pass, h.chars, byteSize_append]
  · rw [h.bytes, byteSize_append]
  · intro hcomment
    rw [hmode] at hcomment
    cases hcomment
  · refine ⟨before, part ++ l.text, by rw [hpast, List.append_assoc], hsegment, ?_⟩
    have hbare : l.bare = l := by simp [Lexeme.bare, hc]
    simp [Scan.pass, hbare, hkept]

/-- Behind a comment a new segment begins. -/
theorem erase (h : Tracks past s t) {l : Lexeme} (hc : l.isComment = true) {segment : Nat}
    (hsegment : l.mode.inComment = false → segment = byteSize (past ++ l.text)) :
    Tracks (past ++ l.text) (s.pass l)
      { t with
        mode := l.mode, sql := s.kept.reverse ++ [' '], segment
        pos := t.pos + byteSize l.text } := by
  have hkept : (s.pass l).kept.reverse = s.kept.reverse ++ [' '] := by
    simp [Scan.pass, Lexeme.bare, hc, text]
  refine ⟨rfl, ?_, ?_, h.start, ?_, ?_, fun _ => hkept, fun hm => ?_⟩
  · rw [Scan.pass, ← h.nesting]
    cases l <;> first | rfl | cases hc
  · rw [← h.settled]
    cases l <;> first | rfl | cases hc
  · rw [Scan.pass, h.chars, byteSize_append]
  · rw [h.bytes, byteSize_append]
  · exact ⟨past ++ l.text, [], by simp, hsegment hm, by simpa using hkept⟩

/-- A comment is opened where the segment at hand can be copied. -/
theorem openComment_eq (h : Tracks past s t) (hm : t.mode.inComment = false) (rest : List Char)
    (mode : Mode) :
    t.openComment (past ++ rest) mode =
      some ({ t with mode, sql := s.kept.reverse ++ [' '] }.skip 2) := by
  rw [openComment, h.copy_eq hm]
  rfl

/-- From the mark of a line comment up to the end of the line. -/
theorem scan_lineComment_open (h : Tracks past s t) (hm : t.mode = .plain) {inner : List Char}
    (hin : '\n' ∉ inner) :
    scan (past ++ ('-' :: '-' :: (inner ++ rest))) t
        (Utf8.encode ('-' :: '-' :: (inner ++ rest))) =
      scan (past ++ ('-' :: '-' :: (inner ++ rest)))
        ({ t with mode := .lineComment, sql := s.kept.reverse ++ [' '] }.skip
          (2 + byteSize inner))
        (Utf8.encode rest) := by
  have hcomment : t.mode.inComment = false := by rw [hm]; rfl
  have hopen := h.openComment_eq hcomment ('-' :: '-' :: (inner ++ rest)) .lineComment
  obtain ⟨b, hb, hbc⟩ := encodeChar_of_ascii (c := '-') (by decide)
  have hsemi : ¬ (Char.ofUInt8 b = ';' ∧ t.separates = true) := by simp [hbc]
  rw [Utf8.encode_cons, Utf8.encode_cons, hb, Utf8.encode_append, ← skip_skip,
    ← ByteScan.scan_lineComment rfl hin]
  refine scan_of_advance (advance_pair hsemi ?_ rfl)
  simp only [step, hm, stepPlain, hbc]
  simpa [peek, hbc] using hopen

/-- From the mark of a block comment up to the next mark, or to where nothing follows. -/
theorem scan_blockComment_open (h : Tracks past s t) (hm : t.mode = .plain) {inner : List Char}
    (hin : ¬ ['*', '/'] <:+: inner) (hrest : rest.head? ≠ some '/') :
    scan (past ++ ('/' :: '*' :: (inner ++ rest))) t
        (Utf8.encode ('/' :: '*' :: (inner ++ rest))) =
      scan (past ++ ('/' :: '*' :: (inner ++ rest)))
        ({ t with mode := .blockComment, sql := s.kept.reverse ++ [' '] }.skip
          (2 + byteSize inner))
        (Utf8.encode rest) := by
  have hcomment : t.mode.inComment = false := by rw [hm]; rfl
  have hopen := h.openComment_eq hcomment ('/' :: '*' :: (inner ++ rest)) .blockComment
  obtain ⟨b, hb, hbc⟩ := encodeChar_of_ascii (c := '/') (by decide)
  obtain ⟨d, hd, hdc⟩ := encodeChar_of_ascii (c := '*') (by decide)
  have hsemi : ¬ (Char.ofUInt8 b = ';' ∧ t.separates = true) := by simp [hbc]
  rw [Utf8.encode_cons, Utf8.encode_cons, hb, hd, Utf8.encode_append, ← skip_skip,
    ← ByteScan.scan_blockComment rfl hin hrest]
  refine scan_of_advance (advance_pair hsemi ?_ rfl)
  simp only [step, hm, stepPlain, hbc]
  simpa [peek, hdc] using hopen

/-- Past a comment. -/
theorem scan_comment (h : Tracks past s t) (hm : t.mode = .plain) {l : Lexeme}
    (hf : l.Fits rest) (hc : l.isComment = true) :
    ∃ segment, (l.mode.inComment = false → segment = byteSize (past ++ l.text)) ∧
      scan (past ++ (l.text ++ rest)) t (Utf8.encode (l.text ++ rest)) =
        scan (past ++ (l.text ++ rest))
          { t with
            mode := l.mode, sql := s.kept.reverse ++ [' '], segment
            pos := t.pos + byteSize l.text }
          (Utf8.encode rest) := by
  cases hf with
  | @lineComment inner rest hin hrest =>
    refine ⟨t.segment, fun hmode => (by cases hmode), ?_⟩
    have htext : (Lexeme.lineComment inner).text ++ rest = '-' :: '-' :: (inner ++ rest) := rfl
    rw [htext, h.scan_lineComment_open hm hin]
    simp [skip, Lexeme.mode, text, Char.utf8Size, ← Nat.add_assoc]
  | @blockComment inner rest hin =>
    refine ⟨_, fun _ => rfl, ?_⟩
    have htext : (Lexeme.blockComment inner true).text ++ rest =
        '/' :: '*' :: (inner ++ '*' :: '/' :: rest) := by simp [text]
    rw [htext, h.scan_blockComment_open hm hin (by simp), scan_blockComment_close rfl]
    have hsize : byteSize (Lexeme.blockComment inner true).text = 2 + byteSize inner + 2 := by
      simp [text, Char.utf8Size]
      omega
    rw [byteSize_append, hsize, ← h.bytes]
    simp [skip, Lexeme.mode, Nat.add_assoc]
  | @openBlockComment inner hin =>
    refine ⟨t.segment, fun hmode => (by cases hmode), ?_⟩
    have htext : (Lexeme.blockComment inner false).text ++ [] =
        '/' :: '*' :: (inner ++ []) := by simp [text]
    rw [htext, h.scan_blockComment_open hm hin (by simp)]
    simp [skip, Lexeme.mode, text, Char.utf8Size, ← Nat.add_assoc]
  | _ => cases hc

/-- **Past a lexeme** that does not separate, both readings go on from what they share. -/
theorem pass (h : Tracks past s t) (hm : s.mode = .plain) {l : Lexeme} (hf : l.Fits rest)
    (hsep : ¬ s.nesting.separates l) :
    ∃ next, scan (past ++ (l.text ++ rest)) t (Utf8.encode (l.text ++ rest)) =
        scan (past ++ (l.text ++ rest)) next (Utf8.encode rest) ∧
      Tracks (past ++ l.text) (s.pass l) next := by
  have hm' : t.mode = .plain := h.mode.trans hm
  by_cases hc : l.isComment = true
  · obtain ⟨segment, hsegment, hscan⟩ := h.scan_comment hm' hf hc
    exact ⟨_, hscan, h.erase hc hsegment⟩
  · have hc' : l.isComment = false := by simpa using hc
    obtain ⟨significant, hsettled, hscan⟩ :=
      scan_token hm' h.bytes hf hc' (h.nesting ▸ hsep) h.settled
    exact ⟨_, hscan, h.keep hm' hc' hsettled⟩

/-- Past the newline behind a line comment, with which a segment begins. -/
theorem newline (h : Tracks past s t) (hm : s.mode = .lineComment) (text rest : List Char) :
    ∃ next, scan text t (Utf8.encode ('\n' :: rest)) = scan text next (Utf8.encode rest) ∧
      Tracks (past ++ ['\n']) (s.pass (.symbol '\n')) next := by
  have hm' : t.mode = .lineComment := h.mode.trans hm
  obtain ⟨b, hb, hadvance⟩ := advance_ascii text (t := t) (c := '\n') (by decide)
    (not_separates_of_mode (by simp [hm']) _) rest
  refine ⟨_, scan_of_advance
    (hadvance { t with mode := .plain, segment := t.pos, pos := t.pos + 1 }
      (by simp [step, hm', hb]) rfl), rfl, h.nesting, h.settled, h.start, ?_, ?_,
    fun hcomment => (by cases hcomment), fun _ => ⟨past, ['\n'], rfl, h.bytes, ?_⟩⟩
  · simp [Scan.pass, h.chars, Lexeme.text, Char.utf8Size]
  · simp [h.bytes, Char.utf8Size]
  · have hcopied := h.copied (by rw [hm']; rfl)
    simp [Scan.pass, Lexeme.bare, isComment, Lexeme.text, hcopied]

/-- Past a separator a fragment and its first segment begin. -/
theorem separate (h : Tracks past s t) (hm : s.mode = .plain) :
    Tracks (past ++ [';']) s.separate t.separate := by
  have hm' : t.separate.mode.inComment = false := by
    change t.mode.inComment = false
    rw [h.mode, hm]
    rfl
  have hpos : t.pos + 1 = byteSize (past ++ [';']) := by simp [h.bytes, Char.utf8Size]
  have hchars : s.pos + 1 = t.pos + 1 := by rw [h.bytes, h.chars]
  have hsemi : (some (Char.ofUInt8 0x3B) == some ';') = true := by decide
  refine ⟨h.mode, rfl, hsemi.symm, hchars.symm, hchars.trans hpos, hpos, ?_, fun _ => ?_⟩
  · intro hcomment
    rw [hm'] at hcomment
    cases hcomment
  · exact ⟨past ++ [';'], [], by simp, hpos, rfl⟩

/-- At a separator what is not copied of the fragment is copied. -/
theorem scan_separator (h : Tracks past s t) (hm : s.mode = .plain) (hd : s.nesting.depth = 0) :
    scan (past ++ ';' :: rest) t (Utf8.encode (';' :: rest)) =
      (scan (past ++ ';' :: rest) t.separate (Utf8.encode rest)).map
        fun (fs, last) => (s.fragment true :: fs, last) := by
  have hm' : t.mode = .plain := h.mode.trans hm
  have hsep : t.separates = true := by simp [separates, hm', h.nesting, hd]
  obtain ⟨b, hb, hbc⟩ := encodeChar_of_ascii (c := ';') (by decide)
  rw [Utf8.encode_cons, hb, List.singleton_append, scan,
    if_pos (by simpa using ⟨hbc, hsep⟩), h.copy_eq (by rw [hm']; rfl), Option.bind_some,
    h.fragment_eq]

/-- At the end of the text it does not matter what is open. -/
theorem end_agrees (h : Tracks past s t) :
    Agrees (scan past t (Utf8.encode [])) (Scan.runLexemes s (lexemes [])) := by
  refine ⟨t, ?_, ?_⟩
  · rw [Utf8.encode_nil, scan, h.finish_eq, lexemes_nil, Scan.runLexemes]
    rfl
  · rw [h.atEnd_eq, lexemes_nil, Scan.runLexemes]

/-- **Two readings of one text** agree, from plain text or from the end of a line comment. -/
theorem scan_agrees (h : Tracks past s t)
    (hm : s.mode = .plain ∨ s.mode = .lineComment ∧ ∀ c ∈ rest.head?, c = '\n') :
    Agrees (scan (past ++ rest) t (Utf8.encode rest)) (Scan.runLexemes s (lexemes rest)) := by
  induction rest using lexemeInduction generalizing past s t with
  | nil =>
    rw [List.append_nil]
    exact h.end_agrees
  | cons l rest hf ih =>
    -- An open lexeme has nothing behind it, so the readings go on from plain text or a line's end.
    have hbehind : ∀ {next}, Tracks (past ++ l.text) (s.pass l) next →
        Agrees (scan (past ++ (l.text ++ rest)) next (Utf8.encode rest))
          (Scan.runLexemes (s.pass l) (lexemes rest)) := by
      intro next hnext
      rw [← List.append_assoc]
      rcases hf.mode_cases with hl | ⟨hl, hrest⟩ | hnil
      · exact ih hnext (Or.inl hl)
      · exact ih hnext (Or.inr ⟨hl, hrest⟩)
      · subst hnil
        rw [List.append_nil]
        exact hnext.end_agrees
    rw [lexemes_text_append hf, Scan.runLexemes]
    rcases hm with hm | ⟨hm, hnewline⟩
    · by_cases hsep : s.nesting.separates l
      · obtain ⟨rfl, hd⟩ := hsep
        have htext : (Lexeme.symbol ';').text ++ rest = ';' :: rest := rfl
        obtain ⟨last, hscan, hlast⟩ := ih (h.separate hm) (Or.inl hm)
        rw [List.append_assoc, List.singleton_append] at hscan
        rw [if_pos ⟨rfl, hd⟩, htext, h.scan_separator hm hd, hscan]
        exact ⟨last, rfl, hlast⟩
      · rw [if_neg hsep]
        obtain ⟨next, hscan, hnext⟩ := h.pass hm hf hsep
        rw [hscan]
        exact hbehind hnext
    · -- The newline behind a line comment is a lexeme of its own.
      obtain ⟨c, tail, hhead⟩ := List.exists_cons_of_ne_nil hf.text_ne_nil
      have hl : l = .symbol '\n' := by
        refine hf.eq_newline ?_
        rw [hhead, List.head?_cons, hnewline c (by rw [hhead]; rfl)]
      subst hl
      have hsep : ¬ s.nesting.separates (.symbol '\n') := fun h => absurd h.1 (by decide)
      have htext : (Lexeme.symbol '\n').text ++ rest = '\n' :: rest := rfl
      obtain ⟨next, hscan, hnext⟩ := h.newline hm (past ++ '\n' :: rest) rest
      rw [htext] at hbehind
      rw [if_neg hsep, htext, hscan]
      exact hbehind hnext

end Tracks

/-- **No slice cuts through a character**: the bytes of a text are read to its end, and the
fragments are those of its characters. -/
theorem scan_encode (text : List Char) :
    ∃ last, scan text {} (Utf8.encode text) = some (Scan.fragments text, last) ∧
      last.atEnd = (Scan.run {} text).2.atEnd := by
  have hagrees : Agrees (scan ([] ++ text) {} (Utf8.encode text))
      (Scan.runLexemes {} (lexemes text)) := Tracks.start_scan.scan_agrees (Or.inl rfl)
  rw [List.nil_append, ← Scan.run_eq_runLexemes rfl (Or.inl rfl)] at hagrees
  exact hagrees

end ByteScan

end SqlConsole
