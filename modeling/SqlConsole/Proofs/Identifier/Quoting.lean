import Mathlib.Data.List.Chain
import SqlConsole.Proofs.Dump.Insertion
import SqlConsole.Proofs.Statement.Bytes

/-!
# Names and their quotes

A name is written as it is if it is a word of ASCII letters, digits and underscores that does not
begin with a digit and is no keyword (`Identifier.StandsForItself`), and in quotes otherwise. The
search that halves its range finds every keyword, since the keywords stand in increasing order
(`Identifier.search_eq_true_iff`, `Identifier.increasing_keywords`).

In front of a blank a written name is one token of the statement, whatever was read before. The
reading of bytes takes a word in one step, and stays within a quoted token until the quote that
closes it (`ByteScan.ReadsToken`). Undoing the doubling of quotes gives the name back.
-/

namespace SqlConsole

open Text Lexeme

/-! ## Keywords -/

namespace Identifier

/-- Entries of an ordered array are in the order of their places. -/
theorem lt_of_getElem? {entries : Array String} (h : entries.toList.Pairwise (· < ·)) {i j : Nat}
    {a b : String} (ha : entries[i]? = some a) (hb : entries[j]? = some b) (hij : i < j) :
    a < b := by
  obtain ⟨hi, rfl⟩ := Array.getElem?_eq_some_iff.mp ha
  obtain ⟨hj, rfl⟩ := Array.getElem?_eq_some_iff.mp hb
  exact List.pairwise_iff_getElem.mp h i j hi hj hij

/-- **The search finds what there is.** In an ordered array a word is found in a range if and only
if it stands at a place of that range. -/
theorem search_eq_true_iff {entries : Array String} (h : entries.toList.Pairwise (· < ·))
    (word : String) {low high : Nat} (hhigh : high ≤ entries.size) :
    search entries word low high = true ↔
      ∃ i, low ≤ i ∧ i < high ∧ entries[i]? = some word := by
  fun_induction search entries word low high with
  | case1 low high hlt middle hnone =>
    have hmiddle : middle < entries.size := by omega
    rw [Array.getElem?_eq_getElem hmiddle] at hnone
    cases hnone
  | case2 low high hlt middle entry hentry heq =>
    rw [beq_iff_eq] at heq
    exact iff_of_true rfl ⟨middle, by omega, by omega, heq ▸ hentry⟩
  | case3 low high hlt middle entry hentry hne hless ih =>
    -- Up to the middle every entry is less than the word.
    rw [ih hhigh]
    constructor
    · rintro ⟨i, hi, hhi, hword⟩
      exact ⟨i, by omega, hhi, hword⟩
    · rintro ⟨i, hi, hhi, hword⟩
      refine ⟨i, Nat.lt_of_not_le fun hle => ?_, hhi, hword⟩
      rcases Nat.lt_or_eq_of_le hle with hlt' | rfl
      · exact String.lt_irrefl word
          (String.lt_trans (lt_of_getElem? h hword hentry hlt') hless)
      · rw [hentry] at hword
        exact hne (beq_iff_eq.mpr (Option.some.inj hword))
  | case4 low high hlt middle entry hentry hne hless ih =>
    -- From the middle on no entry is the word.
    rw [ih (by omega)]
    constructor
    · rintro ⟨i, hi, hhi, hword⟩
      exact ⟨i, hi, by omega, hword⟩
    · rintro ⟨i, hi, hhi, hword⟩
      refine ⟨i, hi, Nat.lt_of_not_le fun hle => ?_, hword⟩
      rcases Nat.lt_or_eq_of_le hle with hlt' | rfl
      · exact hless (lt_of_getElem? h hentry hword hlt')
      · rw [hentry] at hword
        exact hne (beq_iff_eq.mpr (Option.some.inj hword))
  | case5 low high hlt =>
    refine iff_of_false Bool.false_ne_true ?_
    rintro ⟨i, hi, hhi, -⟩
    omega

/-- The keywords stand in increasing order. -/
theorem increasing_keywords : keywords.toList.Pairwise (· < ·) := by
  rw [← List.isChain_iff_pairwise]
  decide +kernel

/-- **A name is taken for a keyword if it is one**, in any letter case. -/
theorem isKeyword_iff (name : List Char) :
    isKeyword name = true ↔ String.ofList (name.map Char.toUpper) ∈ keywords := by
  rw [isKeyword, search_eq_true_iff increasing_keywords _ (Nat.le_refl _),
    Array.mem_iff_getElem?]
  constructor
  · rintro ⟨i, -, -, hword⟩
    exact ⟨i, hword⟩
  · rintro ⟨i, hword⟩
    obtain ⟨hi, -⟩ := Array.getElem?_eq_some_iff.mp hword
    exact ⟨i, Nat.zero_le i, hi, hword⟩

/-- Whether a name is a word that is no keyword. -/
structure StandsForItself (name : String) : Prop where
  nonempty : name.toList ≠ []
  word : ∀ c ∈ name.toList, c.isAlphanum = true ∨ c = '_'
  first : ∀ c ∈ name.toList.head?, c.isDigit = false
  no_keyword : String.ofList (name.toList.map Char.toUpper) ∉ keywords

/-- **A name has no quotes if and only if it stands for itself.** -/
theorem needsQuotes_eq_false_iff (name : String) :
    needsQuotes name = false ↔ StandsForItself name := by
  rw [needsQuotes]
  cases hname : name.toList with
  | nil => exact iff_of_false Bool.true_eq_false.mp fun h => h.nonempty hname
  | cons c cs =>
    have hkeyword : isKeyword (c :: cs) = false ↔
        String.ofList ((c :: cs).map Char.toUpper) ∉ keywords := by
      rw [← isKeyword_iff, Bool.not_eq_true]
    simp only [Bool.or_eq_false_iff, Bool.not_eq_false', hkeyword, List.all_eq_true,
      Bool.or_eq_true, beq_iff_eq]
    constructor
    · rintro ⟨⟨hfirst, hword⟩, hkey⟩
      refine ⟨by simp [hname], hname ▸ hword, ?_, hname ▸ hkey⟩
      rw [hname]
      rintro d ⟨⟩
      exact hfirst
    · rintro ⟨-, hword, hfirst, hkey⟩
      rw [hname] at hword hfirst hkey
      exact ⟨⟨hfirst c rfl, hword⟩, hkey⟩

end Identifier

/-! ## Tokens -/

/-- A reading of bytes goes past one token: a word in one step, or a token in quotes, which it
enters and leaves once. -/
inductive ByteScan.ReadsToken (text : List Char) :
    ByteScan → List UInt8 → ByteScan → List UInt8 → Prop
  | word {t bs b next rest} (hm : t.mode = .plain) (hb : bs.head? = some b)
      (hword : isWordChar (Char.ofUInt8 b) = true) (h : t.advance text bs = some (next, rest))
      (hend : next.mode = .plain) : ReadsToken text t bs next rest
  | quoted {t bs quote u us v vs next rest} (hm : t.mode = .plain)
      (hopen : t.advance text bs = some (u, us)) (hin : Within text (.quoted quote) u us v vs)
      (hclose : v.advance text vs = some (next, rest)) (hend : next.mode = .plain) :
      ReadsToken text t bs next rest

namespace Identifier

/-- What a written name is read as. -/
def token (name : String) : Lexeme :=
  if needsQuotes name then .quoted '"' name.toList true else .word name.toList

theorem text_token (name : String) : (token name).text = write name := by
  rw [token, write]
  split
  case isTrue => rfl
  case isFalse => rfl

theorem token_ne_symbol (name : String) (c : Char) : token name ≠ .symbol c := by
  rw [token]
  split <;> nofun

/-- The characters of a name without quotes are word characters, and there is one. -/
theorem isWordChar_of_needsQuotes {name : String} (h : needsQuotes name = false) :
    name.toList ≠ [] ∧ ∀ c ∈ name.toList, isWordChar c = true := by
  obtain ⟨hne, hword⟩ := all_of_needsQuotes h
  refine ⟨hne, fun c hc => ?_⟩
  rw [isWordChar, List.all_eq_true.mp hword c hc]
  rfl

/-- The token ends in front of a blank. -/
theorem token_fits (name : String) (rest : List Char) : (token name).Fits (' ' :: rest) := by
  rw [token]
  split
  case isTrue => exact .quoted rfl (by simp)
  case isFalse h =>
    obtain ⟨hne, hword⟩ := isWordChar_of_needsQuotes (Bool.eq_false_iff.mpr h)
    refine .word hne hword ?_
    rintro c ⟨⟩
    rfl

/-- **The bytes of a written name are read as one token**, from plain text and in front of a
blank. -/
theorem readsToken_write (name : String) {past rest : List Char} {t : ByteScan}
    (hm : t.mode = .plain) (hpos : t.pos = byteSize past) :
    ∃ next, t.ReadsToken (past ++ (write name ++ ' ' :: rest))
        (Utf8.encode (write name ++ ' ' :: rest)) next (Utf8.encode (' ' :: rest)) ∧
      next.nesting = t.nesting.after (token name) ∧
      next.pos = t.pos + byteSize (write name) := by
  have hq : isQuote '"' = true := rfl
  have hblank : ∀ c ∈ (' ' :: rest).head?, isWordChar c = false := by
    rintro c ⟨⟩
    rfl
  rw [write, token]
  split
  case isTrue =>
    -- The quotes are passed by the first step and the last, and no step between them leaves them.
    have htext : quoted name ++ ' ' :: rest =
        '"' :: (doubled '"' name.toList ++ '"' :: ' ' :: rest) := by simp [quoted, enclosed]
    have hin (u : ByteScan) (hu : u.mode = .quoted '"') :
        ByteScan.Within (past ++ (quoted name ++ ' ' :: rest)) (.quoted '"') u
          (Utf8.encode (doubled '"' name.toList ++ '"' :: ' ' :: rest))
          (u.skip (byteSize (doubled '"' name.toList))) (Utf8.encode ('"' :: ' ' :: rest)) := by
      rw [Utf8.encode_append]
      exact ByteScan.within_doubled hq hu name.toList _
    have hclose (v : ByteScan) (hv : v.mode = .quoted '"') :=
      ByteScan.advance_quote_close (past ++ (quoted name ++ ' ' :: rest)) hq hv
        (show (' ' :: rest).head? ≠ some '"' by simp)
    obtain ⟨b, -, hopen⟩ := ByteScan.advance_quote_open (past ++ (quoted name ++ ' ' :: rest)) hq hm
      (doubled '"' name.toList ++ '"' :: ' ' :: rest)
    rw [← htext] at hopen
    refine ⟨_, .quoted hm hopen (hin _ rfl) (hclose _ rfl) rfl, rfl, ?_⟩
    simp [ByteScan.skip, quoted, enclosed, Char.utf8Size, Nat.add_assoc]
  case isFalse h =>
    obtain ⟨hne, hword⟩ := isWordChar_of_needsQuotes (Bool.eq_false_iff.mpr h)
    obtain ⟨b, hb, hhead, h⟩ := ByteScan.advance_word hm hpos hne hword hblank
    exact ⟨_, .word hm hhead hb h hm, rfl, rfl⟩

/-- What a statement makes of a written name with a blank behind it. -/
structure ReadsBack (name : String) : Prop where
  /-- It is one lexeme. -/
  lexeme : ∀ rest, cut (write name ++ ' ' :: rest) = some (token name, ' ' :: rest)
  /-- Its characters are read from plain text as that lexeme is. -/
  chars : ∀ (s : Scan) (rest : List Char), s.mode = .plain → s.word = [] →
    s.run (write name ++ ' ' :: rest) = (s.pass (token name)).run (' ' :: rest)
  /-- So are its bytes, as one token, and only a word is looked at for what it may open. -/
  bytes : ∀ (past rest : List Char) (t : ByteScan), t.mode = .plain → t.pos = byteSize past →
    ∃ next, t.ReadsToken (past ++ (write name ++ ' ' :: rest))
        (Utf8.encode (write name ++ ' ' :: rest)) next (Utf8.encode (' ' :: rest)) ∧
      next.nesting = t.nesting.after (token name) ∧
      next.pos = t.pos + byteSize (write name)
  /-- The name is found again by undoing the doubling. -/
  name_eq : ∀ rest, read? (write name ++ ' ' :: rest) = some (name, ' ' :: rest)

theorem readsBack (name : String) : ReadsBack name := by
  refine ⟨fun rest => ?_, fun s rest hm hword => ?_, fun past rest t hm hpos => ?_,
    read?_write name⟩
  · rw [← text_token]
    exact cut_text_append (token_fits name rest)
  · have hsep : ¬ s.nesting.separates (token name) := fun h => token_ne_symbol name ';' h.1
    rw [← text_token]
    exact Scan.run_text_append hm hword (token_fits name rest) hsep
  · exact readsToken_write name hm hpos

/-- Different names are written differently. -/
theorem write_injective : Function.Injective write := by
  intro name name' h
  have hread := (readsBack name).name_eq []
  rw [h, (readsBack name').name_eq []] at hread
  exact congrArg Prod.fst (Option.some.inj hread).symm

/-- **Written names are read back.** A name is in quotes unless it is a word of its own and none of
the keywords, all of which the search finds. Written, it is one token in front of a blank, and
gives itself back. -/
theorem write_reads_back :
    keywords.size = 147 ∧
      (∀ word, isKeyword word = true ↔ String.ofList (word.map Char.toUpper) ∈ keywords) ∧
      (∀ name, needsQuotes name = false ↔ StandsForItself name) ∧
      (∀ name, ReadsBack name) ∧
      Function.Injective write :=
  ⟨rfl, isKeyword_iff, needsQuotes_eq_false_iff, readsBack, write_injective⟩

/-- A keyword, a name with a quote in it, and one that only begins like a keyword. -/
example : (["order", "a\"b", "orders"].map write).map String.ofList =
    ["\"order\"", "\"a\"\"b\"", "orders"] := by
  decide +kernel

end Identifier

end SqlConsole
