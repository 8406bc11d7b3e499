import Mathlib.Data.List.DropRight
import SqlConsole.Proofs.Statement.Pieces

/-!
# Trimming and lexemes

The text of a statement is trimmed of Unicode's white space, while only ASCII's is a symbol of its
own to the scanner: any other white space is a word character. So trimming a text may drop whole
words of blanks and shorten a word at either end. All else is read as before
(`lexemes_dropBlanks`, `lexemes_trimRight`).

A word that was dropped or shortened at the front began with a blank, and spelled no `CREATE`. So
the text before was that of no trigger, which the text that is left may be.
-/

namespace SqlConsole

namespace Text

theorem trimRight_append (a b : List Char) :
    trimRight (a ++ b) = if trimRight b = [] then trimRight a else a ++ trimRight b := by
  simp only [trimRight, List.reverse_append, List.dropWhile_append, List.isEmpty_iff,
    List.reverse_eq_nil_iff]
  split <;> simp

theorem trimRight_singleton {c : Char} (h : isBlank c = false) : trimRight [c] = [c] := by
  simp [trimRight, h]

/-- A text that ends in a character that is not blank loses nothing at its end. -/
theorem trimRight_concat {c : Char} (h : isBlank c = false) (cs : List Char) :
    trimRight (cs ++ [c]) = cs ++ [c] := by
  rw [trimRight_append, trimRight_singleton h, if_neg (by simp)]

theorem trimRight_cons {c : Char} (h : isBlank c = false) (cs : List Char) :
    trimRight (c :: cs) = c :: trimRight cs := by
  have happend := trimRight_append [c] cs
  rw [List.singleton_append, trimRight_singleton h] at happend
  rw [happend]
  split
  case isTrue hnil => rw [hnil]
  case isFalse => rfl

theorem trim_cons {c : Char} (h : isBlank c = false) (cs : List Char) :
    trim (c :: cs) = c :: trimRight cs := by
  rw [trim, List.dropWhile_cons_of_neg (by simp [h]), trimRight_cons h]

/-- A text with no blank at either end is trimmed. -/
theorem trim_eq_self {cs : List Char} (hhead : ∀ c ∈ cs.head?, isBlank c = false)
    (hlast : ∀ c ∈ cs.getLast?, isBlank c = false) : trim cs = cs := by
  rcases List.eq_nil_or_concat cs with rfl | ⟨init, c, rfl⟩
  · rfl
  · rw [List.concat_eq_append] at hhead hlast ⊢
    have hdrop : (init ++ [c]).dropWhile isBlank = init ++ [c] := by
      obtain ⟨d, tail, he⟩ := List.exists_cons_of_ne_nil (List.append_ne_nil_of_right_ne_nil init
        (List.cons_ne_nil c []))
      rw [he] at hhead ⊢
      exact List.dropWhile_cons_of_neg (by simp [hhead d rfl])
    rw [trim, hdrop, trimRight_concat (hlast c (by simp))]

/-- A text of which nothing is left is blank. -/
theorem isBlank_of_trim_eq_nil {cs : List Char} (h : trim cs = []) :
    ∀ c ∈ cs, isBlank c = true := by
  cases hdrop : cs.dropWhile isBlank with
  | nil => exact List.dropWhile_eq_nil_iff.mp hdrop
  | cons c tail =>
    have hc : isBlank c = false := head?_dropWhile cs c (by rw [hdrop]; rfl)
    rw [trim, hdrop, trimRight_cons hc] at h
    cases h

/-- A text is tidy if it is not empty and has no blank at either end. -/
structure Tidy (cs : List Char) : Prop where
  ne_nil : cs ≠ []
  head : ∀ c ∈ cs.head?, isBlank c = false
  last : ∀ c ∈ cs.getLast?, isBlank c = false

/-- What is left of a text is tidy, if anything is. -/
theorem tidy_trim {cs : List Char} (h : trim cs ≠ []) : Tidy (trim cs) := by
  cases hdrop : cs.dropWhile isBlank with
  | nil => exact absurd (by rw [trim, hdrop]; rfl) h
  | cons c tail =>
    have hc : isBlank c = false := head?_dropWhile cs c (by rw [hdrop]; rfl)
    refine ⟨h, ?_, fun d hd => ?_⟩
    · rw [trim, hdrop, trimRight_cons hc]
      rintro _ ⟨⟩
      exact hc
    · rw [trim, trimRight, List.getLast?_reverse] at hd
      exact head?_dropWhile _ d hd

/-- What is left of a text is no blank. -/
theorem trim_eq_nil_of_isBlank {cs : List Char} (h : ∀ c ∈ trim cs, isBlank c = true) :
    trim cs = [] := by
  by_contra hne
  obtain ⟨c, tail, hc⟩ := List.exists_cons_of_ne_nil hne
  have hhead : isBlank c = false := (tidy_trim hne).head c (by rw [hc]; rfl)
  have hblank : isBlank c = true := h c (by rw [hc]; exact List.mem_cons_self)
  rw [hhead] at hblank
  cases hblank

/-- What was trimmed stays as it is. -/
theorem trim_trim (cs : List Char) : trim (trim cs) = trim cs := by
  cases h : cs.dropWhile isBlank with
  | nil => simp only [trim, h]; rfl
  | cons c tail =>
    have hc : isBlank c = false := by
      have hhead := List.head?_dropWhile_not isBlank cs
      rw [h] at hhead
      simpa using hhead
    have hidem : trimRight (trimRight tail) = trimRight tail :=
      List.rdropWhile_idempotent isBlank tail
    have htrim : trim cs = c :: trimRight tail := by rw [trim, h, trimRight_cons hc]
    rw [htrim, trim_cons hc, hidem]

end Text

open Text Lexeme

namespace Lexeme

/-! ## At the front -/

/-- A blank is no letter that has a capital. -/
theorem toUpper_of_isBlank {c : Char} (h : isBlank c = true) : c.toUpper = c := by
  unfold Char.toUpper
  split
  case isTrue hc =>
    obtain ⟨hlow, hhigh⟩ := hc
    rw [UInt32.le_iff_toNat_le] at hlow hhigh
    have hn : c.toNat = c.val.toNat := rfl
    have ha : ('a' : Char).val.toNat = 97 := rfl
    have hz : ('z' : Char).val.toNat = 122 := rfl
    simp [isBlank] at h
    omega
  case isFalse => rfl

/-- A word that begins with a blank opens nothing. -/
theorem read_of_isBlank {c : Char} (h : isBlank c = true) (cs : List Char) :
    Nesting.read {} (c :: cs) = ⟨.other, 0⟩ := by
  have hs : ¬ Nesting.spells (c :: cs) "CREATE" = true := by
    intro hs
    have hc : c.toUpper = 'C' := by simp [Nesting.spells] at hs; exact hs.1
    rw [toUpper_of_isBlank h] at hc
    exact absurd (hc ▸ h) (by decide)
  simp [Nesting.read, hs]

/-- Behind a word that begins with a blank a statement is of no kind with bodies. -/
theorem foldl_after_of_isBlank {c : Char} (h : isBlank c = true) (cs : List Char)
    (ls : List Lexeme) :
    (Lexeme.word (c :: cs) :: ls).foldl Nesting.after {} = ⟨.other, 0⟩ := by
  rw [List.foldl_cons, Nesting.after, read_of_isBlank h, foldl_after, foldl_read_other]

theorem isBlank_of_isQuote {c : Char} (h : isQuote c = true) : isBlank c = false := by
  simp only [isQuote, Bool.or_eq_true, beq_iff_eq] at h
  rcases h with (rfl | rfl) | rfl <;> rfl

/-- Only a symbol or a word can begin with a blank. -/
theorem Fits.of_isBlank {l : Lexeme} {rest cs : List Char} {c : Char} (h : l.Fits rest)
    (htext : l.text = c :: cs) (hc : isBlank c = true) : l = .symbol c ∨ l = .word (c :: cs) := by
  have hhead : ∀ {d : Char} {ds : List Char}, d :: ds = c :: cs → isBlank d = true :=
    fun he => (List.cons.inj he).1 ▸ hc
  cases h with
  | quoted hq _ | openQuoted hq =>
    have := hhead htext
    simp [isBlank_of_isQuote hq] at this
  | symbol _ _ _ _ _ => exact Or.inl (congrArg _ (List.cons.inj htext).1)
  | word _ _ _ => exact Or.inr (congrArg _ htext)
  | _ => exact absurd (hhead htext) (by decide)

/-- **Blanks dropped at the front.** What is left is read as it was before, up to the rest of one
word. If a word was touched, the statement was of no kind with bodies. -/
theorem lexemes_dropBlanks {ls : List Lexeme} (h : Lexed ls) :
    ∃ pre t post, ls = pre ++ post ∧ lexemes ((source ls).dropWhile isBlank) = t ++ post ∧
      (pre.foldl Nesting.after {} = {} ∧ t = [] ∨
        pre.foldl Nesting.after {} = ⟨.other, 0⟩ ∧ ∀ l ∈ t, ∃ letters, l = .word letters) := by
  induction ls with
  | nil => exact ⟨[], [], [], rfl, by simp, Or.inl ⟨rfl, rfl⟩⟩
  | cons l ls ih =>
    obtain ⟨c, cs, htext⟩ := List.exists_cons_of_ne_nil h.1.text_ne_nil
    by_cases hc : isBlank c = true
    · rcases h.1.of_isBlank htext hc with rfl | rfl
      · obtain ⟨pre, t, post, rfl, ht, hn⟩ := ih h.2
        refine ⟨.symbol c :: pre, t, post, rfl, ?_, hn⟩
        rw [source_cons, text, List.singleton_append, List.dropWhile_cons_of_pos hc, ht]
      · by_cases hall : (c :: cs).dropWhile isBlank = []
        · obtain ⟨pre, t, post, rfl, ht, hn⟩ := ih h.2
          refine ⟨.word (c :: cs) :: pre, t, post, rfl, ?_,
            Or.inr ⟨foldl_after_of_isBlank hc cs pre, ?_⟩⟩
          · rw [source_cons, text, List.dropWhile_append, hall]
            exact ht
          · rcases hn with ⟨-, rfl⟩ | ⟨-, hn⟩
            · simp
            · exact hn
        · -- The word is shortened, and the lexemes behind it are as they were.
          have hfits : Fits (.word ((c :: cs).dropWhile isBlank)) (source ls) := by
            cases h.1 with
            | word _ hw hrest =>
              exact .word hall (fun d hd => hw d ((List.dropWhile_sublist _).subset hd)) hrest
          refine ⟨[.word (c :: cs)], [.word ((c :: cs).dropWhile isBlank)], ls, rfl, ?_,
            Or.inr ⟨foldl_after_of_isBlank hc cs [], by simp⟩⟩
          rw [source_cons, text, List.dropWhile_append, if_neg (by simpa using hall),
            List.singleton_append]
          exact (lexemes_text_append hfits).trans (by rw [lexemes_source h.2])
    · refine ⟨[], [], l :: ls, rfl, ?_, Or.inl ⟨rfl, rfl⟩⟩
      rw [source_cons, htext, List.cons_append, List.dropWhile_cons_of_neg hc, ← List.cons_append,
        ← htext, ← source_cons, lexemes_source h]
      rfl

/-! ## At the end -/

theorem trimRight_doubled {quote : Char} (hq : isQuote quote = true) (inner : List Char) :
    trimRight (doubled quote inner) = doubled quote (trimRight inner) := by
  induction inner using List.reverseRecOn with
  | nil => rfl
  | append_singleton inner c ih =>
    have hdoubled : doubled quote (inner ++ [c]) = doubled quote inner ++ doubled quote [c] := by
      simp [doubled]
    by_cases hc : isBlank c = true
    · have hne : c ≠ quote := by rintro rfl; simp [isBlank_of_isQuote hq] at hc
      have hnil : trimRight [c] = [] := by simp [trimRight, hc]
      rw [hdoubled, doubled_cons_of_ne hne, doubled_nil, trimRight_append, trimRight_append,
        if_pos hnil, if_pos hnil, ih]
    · rw [trimRight_concat (by simpa using hc), hdoubled]
      by_cases hcq : c = quote
      · subst hcq
        rw [doubled_cons_self, doubled_nil, ← List.singleton_append (l := [c]), ← List.append_assoc,
          trimRight_concat (by simpa using hc)]
      · rw [doubled_cons_of_ne hcq, doubled_nil, trimRight_concat (by simpa using hc)]

theorem prefix_of_trimRight (cs : List Char) : trimRight cs <+: cs :=
  List.rdropWhile_prefix isBlank cs

/-- The last lexeme of a text may lose blanks at its end, and is of the same kind then. -/
theorem Fits.trimRight {l : Lexeme} (h : l.Fits []) (hc : l.isComment = false)
    (hne : trimRight l.text ≠ []) :
    ∃ l' : Lexeme, l'.Fits [] ∧ l'.text = Text.trimRight l.text ∧ l'.isComment = false ∧
      l'.closed = l.closed ∧ (l' = l ∨ ∀ c, l' ≠ .symbol c) := by
  cases h with
  | @quoted quote inner _ hq hrest =>
    have htext : Text.trimRight (Lexeme.quoted quote inner true).text =
        (Lexeme.quoted quote inner true).text := by
      rw [text, if_pos rfl, ← List.cons_append]
      exact trimRight_concat (isBlank_of_isQuote hq) _
    exact ⟨_, .quoted hq hrest, htext.symm, rfl, rfl, Or.inl rfl⟩
  | @openQuoted quote inner hq =>
    refine ⟨.quoted quote (Text.trimRight inner) false, .openQuoted hq, ?_, rfl, rfl,
      Or.inr (by simp)⟩
    simp [text, trimRight_cons (isBlank_of_isQuote hq), trimRight_doubled hq]
  | @bracketed inner _ hin =>
    have htext : Text.trimRight (Lexeme.bracketed inner true).text =
        (Lexeme.bracketed inner true).text := by
      rw [text, if_pos rfl, ← List.cons_append]
      exact trimRight_concat rfl _
    exact ⟨_, .bracketed hin, htext.symm, rfl, rfl, Or.inl rfl⟩
  | @openBracketed inner hin =>
    refine ⟨.bracketed (Text.trimRight inner) false, .openBracketed ?_, ?_, rfl, rfl,
      Or.inr (by simp)⟩
    · exact fun hmem => hin ((prefix_of_trimRight inner).subset hmem)
    · simp [text, trimRight_cons (c := '[') rfl]
  | lineComment _ _ | blockComment _ | openBlockComment _ => simp [isComment] at hc
  | @word letters _ hp hw hrest =>
    refine ⟨.word (Text.trimRight letters), .word hne (fun c hc => ?_) hrest, rfl, rfl, rfl,
      Or.inr (by simp)⟩
    exact hw c ((prefix_of_trimRight letters).subset hc)
  | @symbol c _ hq hb hw hl hs =>
    have hblank : ¬ isBlank c = true := fun hblank => hne (by simp [text, Text.trimRight, hblank])
    exact ⟨.symbol c, .symbol hq hb hw hl hs, (trimRight_singleton (by simpa using hblank)).symm,
      rfl, rfl, Or.inl rfl⟩

/-- The last lexeme may be replaced by one that begins with the same character. -/
theorem Lexed.replace_last {ls : List Lexeme} {l l' : Lexeme} (h : Lexed (ls ++ [l]))
    (hf : l'.Fits []) (hh : l'.text.head? = l.text.head?) : Lexed (ls ++ [l']) := by
  induction ls with
  | nil => exact ⟨hf, trivial⟩
  | cons k ls ih =>
    refine ⟨h.1.congr ?_, ih h.2⟩
    cases ls with
    | nil => simpa using hh
    | cons m ms =>
      obtain ⟨c, cs, he⟩ := List.exists_cons_of_ne_nil h.2.1.text_ne_nil
      simp [he]

/-- **Blanks dropped at the end.** What is left is read as it was before, up to the last lexeme,
which is of the same kind as the one in its place. -/
theorem lexemes_trimRight {ls : List Lexeme} (h : Lexed ls)
    (hc : ∀ l ∈ ls, l.isComment = false) :
    ∃ pre t post, ls = pre ++ post ∧ lexemes (trimRight (source ls)) = pre ++ t ∧
      ∀ l' ∈ t,
        l'.isComment = false ∧ (∀ c, l' ≠ .symbol c) ∧ ∃ l ∈ post, l'.closed = l.closed := by
  induction ls using List.reverseRecOn with
  | nil => exact ⟨[], [], [], rfl, by simp [trimRight], by simp⟩
  | append_singleton ls l ih =>
    have hsource : source (ls ++ [l]) = source ls ++ l.text := by simp
    by_cases hnil : trimRight l.text = []
    · obtain ⟨pre, t, post, rfl, ht, hl⟩ := ih h.left fun k hk => hc k (by simp [hk])
      refine ⟨pre, t, post ++ [l], by simp, ?_, fun l' hl' => ?_⟩
      · rw [hsource, trimRight_append, if_pos hnil, ht]
      · obtain ⟨hcomment, hsymbol, k, hk, hclosed⟩ := hl l' hl'
        exact ⟨hcomment, hsymbol, k, by simp [hk], hclosed⟩
    · obtain ⟨l', hf, htext, hcomment, hclosed, hsymbol⟩ :=
        h.right.1.trimRight (hc l (by simp)) hnil
      have hhead : l'.text.head? = l.text.head? := by
        obtain ⟨cs, he⟩ := prefix_of_trimRight l.text
        obtain ⟨d, ds, hd⟩ := List.exists_cons_of_ne_nil hnil
        rw [htext, hd, ← he, hd]; rfl
      have hlexemes : lexemes (trimRight (source (ls ++ [l]))) = ls ++ [l'] := by
        rw [← lexemes_source (h.replace_last hf hhead), hsource, trimRight_append, if_neg hnil]
        simp [htext]
      rcases hsymbol with rfl | hsymbol
      · exact ⟨ls ++ [l'], [], [], by simp, by simpa using hlexemes, by simp⟩
      · refine ⟨ls, [l'], [l], rfl, hlexemes, ?_⟩
        simp [hcomment, hsymbol, hclosed]

end Lexeme

end SqlConsole
