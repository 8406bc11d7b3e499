import Mathlib.Data.List.TakeWhile
import SqlConsole.Statement.Fragment
import SqlConsole.Text.Enclosed

/-!
# Lexemes

A text of SQL is a sequence of lexemes: quoted and bracketed tokens, comments, words, and single
characters of any other kind. `cut` takes the first one off a text and `lexemes` takes them all.

`Fits` says of each kind of lexeme what it looks like and what may stand behind it, and `cut` reads
exactly the lexemes that fit (`cut_eq_some_iff`). So a list in which every lexeme fits in front of
the others (`Lexed`) is the list of lexemes of its own source, and texts are put together from
lexemes without being scanned again: another character behind a closed lexeme changes nothing if
it is `Neutral`, and neither does a space in the place of a comment (`Lexed.bare`).
-/

namespace SqlConsole

open Text

/-- A piece of text that is read as one. -/
inductive Lexeme where
  /-- A token in quotes, which are doubled inside. -/
  | quoted (quote : Char) (inner : List Char) (closed : Bool)
  /-- A token in square brackets. -/
  | bracketed (inner : List Char) (closed : Bool)
  /-- A comment from `--` up to the end of the line, which is not part of it. -/
  | lineComment (inner : List Char)
  /-- A comment between `/*` and the first `*/` behind it. -/
  | blockComment (inner : List Char) (closed : Bool)
  /-- A run of word characters. -/
  | word (letters : List Char)
  /-- A single character of any other kind. -/
  | symbol (c : Char)
  deriving DecidableEq, Repr

/-- What stands behind an opening mark. -/
structure Enclosure where
  /-- The text up to the closing mark. -/
  inner : List Char
  /-- Whether there is a closing mark. -/
  closed : Bool
  /-- The text behind it. -/
  rest : List Char

namespace Enclosure

/-- One more character between the marks. -/
def push (c : Char) (e : Enclosure) : Enclosure := { e with inner := c :: e.inner }

/-- The text up to the first `quote` that is not doubled. -/
def upToQuote (quote : Char) : List Char → Enclosure
  | [] => ⟨[], false, []⟩
  | [c] => if c = quote then ⟨[], true, []⟩ else ⟨[c], false, []⟩
  | c :: d :: cs =>
    if c = quote then
      if d = quote then (upToQuote quote cs).push quote else ⟨[], true, d :: cs⟩
    else (upToQuote quote (d :: cs)).push c

/-- The text up to the first `]`. -/
def upToBracket : List Char → Enclosure
  | [] => ⟨[], false, []⟩
  | c :: cs => if c = ']' then ⟨[], true, cs⟩ else (upToBracket cs).push c

/-- The text up to the first `*/`. -/
def upToStarSlash : List Char → Enclosure
  | [] => ⟨[], false, []⟩
  | c :: cs =>
    if c = '*' ∧ cs.head? = some '/' then ⟨[], true, cs.tail⟩ else (upToStarSlash cs).push c

end Enclosure

namespace Lexeme

/-- The text of a lexeme. -/
def text : Lexeme → List Char
  | quoted quote inner closed => quote :: (doubled quote inner ++ if closed then [quote] else [])
  | bracketed inner closed => '[' :: (inner ++ if closed then [']'] else [])
  | lineComment inner => '-' :: '-' :: inner
  | blockComment inner closed => '/' :: '*' :: (inner ++ if closed then ['*', '/'] else [])
  | word letters => letters
  | symbol c => [c]

/-- The first lexeme of a text and the rest of the text. -/
def cut : List Char → Option (Lexeme × List Char)
  | [] => none
  | c :: cs =>
    if isQuote c then
      let e := Enclosure.upToQuote c cs
      some (quoted c e.inner e.closed, e.rest)
    else if c = '[' then
      let e := Enclosure.upToBracket cs
      some (bracketed e.inner e.closed, e.rest)
    else if c = '-' ∧ cs.head? = some '-' then
      some (lineComment (cs.tail.takeWhile (· != '\n')), cs.tail.dropWhile (· != '\n'))
    else if c = '/' ∧ cs.head? = some '*' then
      let e := Enclosure.upToStarSlash cs.tail
      some (blockComment e.inner e.closed, e.rest)
    else if isWordChar c then
      some (word (c :: cs.takeWhile isWordChar), cs.dropWhile isWordChar)
    else some (symbol c, cs)

/-- Whether nothing that a lexeme opens is left open. A line comment is closed by the newline behind
it only. -/
def closed : Lexeme → Bool
  | quoted _ _ closed | bracketed _ closed | blockComment _ closed => closed
  | lineComment _ => false
  | word _ | symbol _ => true

/-- Whether a lexeme is a comment. -/
def isComment : Lexeme → Bool
  | lineComment _ | blockComment _ _ => true
  | quoted _ _ _ | bracketed _ _ | word _ | symbol _ => false

/-- What a lexeme counts as outside comments: a comment counts as a space. -/
def bare (l : Lexeme) : Lexeme := if l.isComment then symbol ' ' else l

/-- **A lexeme in front of a text.** What the lexeme looks like, and what the text may begin with
so that it does not continue the lexeme. -/
inductive Fits : Lexeme → List Char → Prop
  | quoted {quote inner rest} (hq : isQuote quote = true) (hrest : rest.head? ≠ some quote) :
      Fits (.quoted quote inner true) rest
  | openQuoted {quote inner} (hq : isQuote quote = true) : Fits (.quoted quote inner false) []
  | bracketed {inner rest} (hin : ']' ∉ inner) : Fits (.bracketed inner true) rest
  | openBracketed {inner} (hin : ']' ∉ inner) : Fits (.bracketed inner false) []
  | lineComment {inner rest} (hin : '\n' ∉ inner) (hrest : ∀ c ∈ rest.head?, c = '\n') :
      Fits (.lineComment inner) rest
  | blockComment {inner rest} (hin : ¬ ['*', '/'] <:+: inner) : Fits (.blockComment inner true) rest
  | openBlockComment {inner} (hin : ¬ ['*', '/'] <:+: inner) : Fits (.blockComment inner false) []
  | word {letters rest} (hne : letters ≠ []) (hw : ∀ c ∈ letters, isWordChar c = true)
      (hrest : ∀ c ∈ rest.head?, isWordChar c = false) : Fits (.word letters) rest
  | symbol {c rest} (hq : isQuote c = false) (hb : c ≠ '[') (hw : isWordChar c = false)
      (hl : c = '-' → rest.head? ≠ some '-') (hs : c = '/' → rest.head? ≠ some '*') :
      Fits (.symbol c) rest

end Lexeme

namespace Enclosure

@[simp] theorem push_mk (c : Char) (inner : List Char) (closed : Bool) (rest : List Char) :
    push c ⟨inner, closed, rest⟩ = ⟨c :: inner, closed, rest⟩ := rfl

/-- Either the quote is closed by one that is not doubled, or nothing is left behind it. -/
theorem upToQuote_cases (quote : Char) (cs : List Char) :
    (∃ inner rest, upToQuote quote cs = ⟨inner, true, rest⟩ ∧
      cs = doubled quote inner ++ quote :: rest ∧ rest.head? ≠ some quote) ∨
    (∃ inner, upToQuote quote cs = ⟨inner, false, []⟩ ∧ cs = doubled quote inner) := by
  fun_induction upToQuote quote cs with
  | case1 => exact Or.inr ⟨[], rfl, rfl⟩
  | case2 => exact Or.inl ⟨[], [], rfl, rfl, by simp⟩
  | case3 c hc => exact Or.inr ⟨[c], rfl, (doubled_cons_of_ne hc []).symm⟩
  | case4 cs ih =>
    rcases ih with ⟨inner, rest, he, rfl, hr⟩ | ⟨inner, he, rfl⟩
    · exact Or.inl ⟨quote :: inner, rest, by rw [he]; rfl, by simp, hr⟩
    · exact Or.inr ⟨quote :: inner, by rw [he]; rfl, by simp⟩
  | case5 d cs hd => exact Or.inl ⟨[], d :: cs, rfl, rfl, by simpa using hd⟩
  | case6 c d cs hc ih =>
    rcases ih with ⟨inner, rest, he, h, hr⟩ | ⟨inner, he, h⟩
    · exact Or.inl ⟨c :: inner, rest, by rw [he]; rfl, by rw [h, doubled_cons_of_ne hc]; rfl, hr⟩
    · exact Or.inr ⟨c :: inner, by rw [he]; rfl, by rw [h, doubled_cons_of_ne hc]⟩

theorem upToQuote_quote {quote : Char} {rest : List Char} (h : rest.head? ≠ some quote) :
    upToQuote quote (quote :: rest) = ⟨[], true, rest⟩ := by
  cases rest with
  | nil => simp [upToQuote]
  | cons d cs =>
    have hd : d ≠ quote := by simpa using h
    simp [upToQuote, hd]

theorem upToQuote_push_self (quote : Char) (cs : List Char) :
    upToQuote quote (quote :: quote :: cs) = (upToQuote quote cs).push quote := by
  simp [upToQuote]

theorem upToQuote_push_of_ne {quote c : Char} (hc : c ≠ quote) (cs : List Char) :
    upToQuote quote (c :: cs) = (upToQuote quote cs).push c := by
  cases cs <;> simp [upToQuote, hc]

/-- A doubled text is read back up to where it ends. -/
theorem upToQuote_doubled {quote : Char} (inner : List Char) {cs rest : List Char}
    {closed : Bool} (h : upToQuote quote cs = ⟨[], closed, rest⟩) :
    upToQuote quote (doubled quote inner ++ cs) = ⟨inner, closed, rest⟩ := by
  induction inner with
  | nil => exact h
  | cons c inner ih =>
    by_cases hc : c = quote
    · subst hc
      rw [doubled_cons_self, List.cons_append, List.cons_append, upToQuote_push_self, ih, push_mk]
    · rw [doubled_cons_of_ne hc, List.cons_append, upToQuote_push_of_ne hc, ih, push_mk]

theorem upToBracket_cases (cs : List Char) :
    (∃ inner rest, upToBracket cs = ⟨inner, true, rest⟩ ∧ cs = inner ++ ']' :: rest ∧
      ']' ∉ inner) ∨
    (upToBracket cs = ⟨cs, false, []⟩ ∧ ']' ∉ cs) := by
  fun_induction upToBracket cs with
  | case1 => exact Or.inr ⟨rfl, by simp⟩
  | case2 cs => exact Or.inl ⟨[], cs, rfl, rfl, by simp⟩
  | case3 c cs hc ih =>
    have hc' : ']' ≠ c := fun h => hc h.symm
    rcases ih with ⟨inner, rest, he, rfl, hin⟩ | ⟨he, hin⟩
    · exact Or.inl ⟨c :: inner, rest, by rw [he]; rfl, rfl, by simp [hc', hin]⟩
    · exact Or.inr ⟨by rw [he]; rfl, by simp [hc', hin]⟩

/-- A text without `]` is read up to where it ends. -/
theorem upToBracket_append {inner : List Char} (hin : ']' ∉ inner) (rest : List Char) :
    upToBracket (inner ++ rest) =
      ⟨inner ++ (upToBracket rest).inner, (upToBracket rest).closed, (upToBracket rest).rest⟩ := by
  induction inner with
  | nil => rfl
  | cons c inner ih =>
    obtain ⟨hc, hin⟩ := not_or.mp (mt List.mem_cons.mpr hin)
    have hc' : ¬ c = ']' := fun h => hc h.symm
    simp [upToBracket, hc', ih hin]

theorem not_infix_cons {c : Char} {cs : List Char} :
    ¬ ['*', '/'] <:+: c :: cs ↔ ¬ (c = '*' ∧ cs.head? = some '/') ∧ ¬ ['*', '/'] <:+: cs := by
  rw [List.infix_cons_iff, not_or, List.cons_prefix_cons]
  refine and_congr_left fun _ => not_congr (and_congr eq_comm ?_)
  cases cs with
  | nil => simp
  | cons d cs => simp [List.cons_prefix_cons, eq_comm]

theorem upToStarSlash_cases (cs : List Char) :
    (∃ inner rest, upToStarSlash cs = ⟨inner, true, rest⟩ ∧ cs = inner ++ '*' :: '/' :: rest ∧
      ¬ ['*', '/'] <:+: inner) ∨
    (upToStarSlash cs = ⟨cs, false, []⟩ ∧ ¬ ['*', '/'] <:+: cs) := by
  fun_induction upToStarSlash cs with
  | case1 => exact Or.inr ⟨rfl, by simp⟩
  | case2 c cs hc =>
    obtain ⟨rfl, hd⟩ := hc
    obtain ⟨cs, rfl⟩ := List.head?_eq_some_iff.mp hd
    exact Or.inl ⟨[], cs, rfl, rfl, by simp⟩
  | case3 c cs hc ih =>
    rcases ih with ⟨inner, rest, he, rfl, hin⟩ | ⟨he, hin⟩
    · refine Or.inl ⟨c :: inner, rest, by rw [he]; rfl, rfl, not_infix_cons.mpr ⟨?_, hin⟩⟩
      rintro ⟨rfl, hd⟩
      obtain ⟨inner, rfl⟩ := List.head?_eq_some_iff.mp hd
      exact hc ⟨rfl, rfl⟩
    · exact Or.inr ⟨by rw [he]; rfl, not_infix_cons.mpr ⟨hc, hin⟩⟩

theorem upToStarSlash_closed {inner : List Char} (hin : ¬ ['*', '/'] <:+: inner)
    (rest : List Char) : upToStarSlash (inner ++ '*' :: '/' :: rest) = ⟨inner, true, rest⟩ := by
  induction inner with
  | nil => rfl
  | cons c inner ih =>
    obtain ⟨hc, hin⟩ := not_infix_cons.mp hin
    have hc' : ¬ (c = '*' ∧ (inner ++ '*' :: '/' :: rest).head? = some '/') := by
      rintro ⟨rfl, hd⟩
      cases inner with
      | nil => simp at hd
      | cons d inner => exact hc ⟨rfl, by simpa using hd⟩
    rw [List.cons_append, upToStarSlash, if_neg hc', ih hin, push_mk]

theorem upToStarSlash_open {inner : List Char} (hin : ¬ ['*', '/'] <:+: inner) :
    upToStarSlash inner = ⟨inner, false, []⟩ := by
  rcases upToStarSlash_cases inner with ⟨_, _, _, rfl, _⟩ | ⟨he, _⟩
  · exact absurd ⟨_, _, List.append_assoc _ _ _⟩ hin
  · exact he

end Enclosure

/-- A run of one class ends where the class does. -/
theorem takeWhile_dropWhile_append {α : Type} {p : α → Bool} {cs rest : List α}
    (hcs : ∀ c ∈ cs, p c = true) (hrest : ∀ c ∈ rest.head?, p c = false) :
    (cs ++ rest).takeWhile p = cs ∧ (cs ++ rest).dropWhile p = rest := by
  rw [List.takeWhile_append_of_pos hcs, List.dropWhile_append_of_pos hcs]
  cases rest with
  | nil => simp
  | cons c rest => simp [hrest c rfl]

/-- What stands behind a run of one class does not begin with that class. -/
theorem head?_dropWhile {p : Char → Bool} (cs : List Char) :
    ∀ c ∈ (cs.dropWhile p).head?, p c = false := by
  intro c hc
  have h := List.head?_dropWhile_not p cs
  rw [Option.mem_def.mp hc] at h
  simpa using h

namespace Lexeme

section Characters

variable {c : Char}

theorem isQuote_of_isWordChar (h : isWordChar c = true) : isQuote c = false := by
  refine Bool.eq_false_iff.mpr fun hq => ?_
  simp only [isQuote, Bool.or_eq_true, beq_iff_eq] at hq
  rcases hq with (rfl | rfl) | rfl <;> exact absurd h (by decide)

theorem isWordChar_of_isQuote (h : isQuote c = true) : isWordChar c = false :=
  Bool.eq_false_iff.mpr fun hw => by simp [isQuote_of_isWordChar hw] at h

theorem ne_of_isWordChar {d : Char} (h : isWordChar c = true) (hd : isWordChar d = false) :
    c ≠ d := by
  rintro rfl; simp [h] at hd

/-- A character that continues no closed lexeme: none of a word, and none that is doubled or makes a
pair with the one before it. -/
structure Neutral (c : Char) : Prop where
  not_word : isWordChar c = false
  not_quote : isQuote c = false
  not_dash : c ≠ '-'
  not_star : c ≠ '*'

/-- A character that is a lexeme by itself, whatever stands around it. -/
structure Apart (c : Char) : Prop extends Neutral c where
  not_bracket : c ≠ '['
  not_slash : c ≠ '/'

instance (c : Char) : Decidable (Apart c) :=
  decidable_of_iff
    (isWordChar c = false ∧ isQuote c = false ∧ c ≠ '-' ∧ c ≠ '*' ∧ c ≠ '[' ∧ c ≠ '/')
    ⟨fun ⟨hw, hq, hd, hs, hb, hl⟩ => ⟨⟨hw, hq, hd, hs⟩, hb, hl⟩,
      fun ⟨⟨hw, hq, hd, hs⟩, hb, hl⟩ => ⟨hw, hq, hd, hs, hb, hl⟩⟩

theorem apart_space : Apart ' ' := by decide

theorem apart_newline : Apart '\n' := by decide

theorem apart_semicolon : Apart ';' := by decide

end Characters

section Fitting

variable {l : Lexeme} {rest : List Char}

theorem Fits.text_ne_nil (h : l.Fits rest) : l.text ≠ [] := by
  cases h <;> simp_all [text]

/-- A lexeme is read off the text that it fits in front of. -/
theorem cut_text_append (h : l.Fits rest) : cut (l.text ++ rest) = some (l, rest) := by
  cases h with
  | @quoted quote inner rest hq hrest =>
    have he := Enclosure.upToQuote_doubled inner (Enclosure.upToQuote_quote hrest)
    simp [text, cut, hq, he]
  | @openQuoted quote inner hq =>
    have he : Enclosure.upToQuote quote (doubled quote inner ++ []) = ⟨inner, false, []⟩ :=
      Enclosure.upToQuote_doubled inner (by rfl)
    rw [List.append_nil] at he
    simp [text, cut, hq, he]
  | bracketed hin =>
    simp [text, cut, isQuote, Enclosure.upToBracket_append hin, Enclosure.upToBracket]
  | openBracketed hin =>
    have he := Enclosure.upToBracket_append hin []
    rw [List.append_nil] at he
    simp [text, cut, isQuote, he, Enclosure.upToBracket]
  | @lineComment inner rest hin hrest =>
    have hin' : ∀ c ∈ inner, (c != '\n') = true := fun c hc => by
      rw [bne_iff_ne]; rintro rfl; exact hin hc
    have hrest' : ∀ c ∈ rest.head?, (c != '\n') = false := fun c hc => by simp [hrest c hc]
    obtain ⟨htake, hdrop⟩ := takeWhile_dropWhile_append hin' hrest'
    simp [text, cut, isQuote, htake, hdrop]
  | blockComment hin => simp [text, cut, isQuote, Enclosure.upToStarSlash_closed hin]
  | openBlockComment hin => simp [text, cut, isQuote, Enclosure.upToStarSlash_open hin]
  | @word letters rest hne hw hrest =>
    obtain ⟨c, cs, rfl⟩ := List.exists_cons_of_ne_nil hne
    have hc := hw c List.mem_cons_self
    obtain ⟨htake, hdrop⟩ :=
      takeWhile_dropWhile_append (fun d hd => hw d (List.mem_cons_of_mem _ hd)) hrest
    simp [text, cut, isQuote_of_isWordChar hc, ne_of_isWordChar hc (d := '[') rfl,
      ne_of_isWordChar hc (d := '-') rfl, ne_of_isWordChar hc (d := '/') rfl, hc, htake, hdrop]
  | @symbol c rest hq hb hw hl hs =>
    have hline : ¬ (c = '-' ∧ rest.head? = some '-') := fun h => hl h.1 h.2
    have hblock : ¬ (c = '/' ∧ rest.head? = some '*') := fun h => hs h.1 h.2
    simp [text, cut, hq, hb, hw, hline, hblock]

/-- What is read off a text fits in front of the rest of it. -/
theorem fits_of_cut {cs : List Char} (h : cut cs = some (l, rest)) :
    l.Fits rest ∧ cs = l.text ++ rest := by
  cases cs with
  | nil => simp [cut] at h
  | cons c cs =>
    simp only [cut] at h
    split at h
    case isTrue hq =>
      rcases Enclosure.upToQuote_cases c cs with ⟨inner, tail, he, rfl, hr⟩ | ⟨inner, he, rfl⟩ <;>
        rw [he] at h <;> cases h
      · exact ⟨.quoted hq hr, by simp [text]⟩
      · exact ⟨.openQuoted hq, by simp [text]⟩
    case isFalse hq =>
    split at h
    case isTrue hb =>
      subst hb
      rcases Enclosure.upToBracket_cases cs with ⟨inner, tail, he, rfl, hin⟩ | ⟨he, hin⟩ <;>
        rw [he] at h <;> cases h
      · exact ⟨.bracketed hin, by simp [text]⟩
      · exact ⟨.openBracketed hin, by simp [text]⟩
    case isFalse hb =>
    split at h
    case isTrue hl =>
      obtain ⟨rfl, hd⟩ := hl
      obtain ⟨cs, rfl⟩ := List.head?_eq_some_iff.mp hd
      cases h
      refine ⟨.lineComment ?_ fun d hd => ?_, by simp [text, List.takeWhile_append_dropWhile]⟩
      · intro hin
        simpa using List.mem_takeWhile_imp hin
      · simpa using head?_dropWhile (p := (· != '\n')) cs d hd
    case isFalse hl =>
    split at h
    case isTrue hs =>
      obtain ⟨rfl, hd⟩ := hs
      obtain ⟨cs, rfl⟩ := List.head?_eq_some_iff.mp hd
      rw [List.tail_cons] at h
      rcases Enclosure.upToStarSlash_cases cs with ⟨inner, tail, he, rfl, hin⟩ | ⟨he, hin⟩ <;>
        rw [he] at h <;> cases h
      · exact ⟨.blockComment hin, by simp [text]⟩
      · exact ⟨.openBlockComment hin, by simp [text]⟩
    case isFalse hs =>
    split at h
    case isTrue hw =>
      cases h
      refine ⟨.word (by simp) (fun d hd => ?_) (head?_dropWhile cs),
        by simp [text, List.takeWhile_append_dropWhile]⟩
      rcases List.mem_cons.mp hd with rfl | hd
      · exact hw
      · exact List.mem_takeWhile_imp hd
    case isFalse hw =>
      cases h
      exact ⟨.symbol (by simpa using hq) hb (by simpa using hw) (fun hc hd => hl ⟨hc, hd⟩)
        fun hc hd => hs ⟨hc, hd⟩, rfl⟩

/-- **`cut` reads exactly the lexemes that fit.** -/
theorem cut_eq_some_iff {cs : List Char} :
    cut cs = some (l, rest) ↔ l.Fits rest ∧ cs = l.text ++ rest := by
  constructor
  · exact fits_of_cut
  · rintro ⟨h, rfl⟩
    exact cut_text_append h

theorem cut_eq_none {cs : List Char} (h : cut cs = none) : cs = [] := by
  cases cs with
  | nil => rfl
  | cons c cs =>
    simp only [cut] at h
    repeat' split at h
    all_goals cases h

end Fitting

/-! ## The lexemes of a text -/

theorem length_lt_of_cut {cs rest : List Char} {l : Lexeme} (h : cut cs = some (l, rest)) :
    rest.length < cs.length := by
  obtain ⟨hf, rfl⟩ := fits_of_cut h
  have := List.length_pos_iff.mpr hf.text_ne_nil
  simp only [List.length_append]
  omega

/-- The lexemes of a text, in order. -/
def lexemes (cs : List Char) : List Lexeme :=
  match _ : cut cs with
  | none => []
  | some (l, rest) => l :: lexemes rest
termination_by cs.length
decreasing_by exact length_lt_of_cut ‹_›

/-- The text of lexemes that stand one behind the other. -/
def source (ls : List Lexeme) : List Char := ls.flatMap text

@[simp] theorem source_nil : source [] = [] := rfl

@[simp] theorem source_cons (l : Lexeme) (ls : List Lexeme) :
    source (l :: ls) = l.text ++ source ls := by
  simp [source]

@[simp] theorem source_append (a b : List Lexeme) : source (a ++ b) = source a ++ source b := by
  simp [source]

@[simp] theorem lexemes_nil : lexemes [] = [] := by
  rw [lexemes]; rfl

theorem lexemes_text_append {l : Lexeme} {rest : List Char} (h : l.Fits rest) :
    lexemes (l.text ++ rest) = l :: lexemes rest := by
  rw [lexemes]
  split
  case h_1 hc => simp [cut_text_append h] at hc
  case h_2 l' rest' hc =>
    rw [cut_text_append h] at hc
    cases hc
    rfl

/-- A text is empty or begins with a lexeme that fits in front of the rest. -/
@[elab_as_elim]
theorem lexemeInduction {motive : List Char → Prop} (nil : motive [])
    (cons : ∀ (l : Lexeme) (rest : List Char), l.Fits rest → motive rest → motive (l.text ++ rest))
    (cs : List Char) : motive cs := by
  -- On the length of the text: a lexeme may be of any length, but of no less than one character.
  induction hn : cs.length using Nat.strongRecOn generalizing cs with
  | _ n ih =>
    cases h : cut cs with
    | none => rw [cut_eq_none h]; exact nil
    | some p =>
      obtain ⟨l, rest⟩ := p
      have hlt := length_lt_of_cut h
      obtain ⟨hf, rfl⟩ := fits_of_cut h
      exact cons l rest hf (ih _ (hn ▸ hlt) rest rfl)

/-- The lexemes of a text are all of it. -/
theorem source_lexemes (cs : List Char) : source (lexemes cs) = cs := by
  induction cs using lexemeInduction with
  | nil => simp
  | cons l rest hf ih => rw [lexemes_text_append hf, source_cons, ih]

/-- Lexemes each of which fits in front of the others behind it. -/
def Lexed : List Lexeme → Prop
  | [] => True
  | l :: ls => l.Fits (source ls) ∧ Lexed ls

theorem lexed_lexemes (cs : List Char) : Lexed (lexemes cs) := by
  induction cs using lexemeInduction with
  | nil => rw [lexemes_nil]; trivial
  | cons l rest hf ih =>
    rw [lexemes_text_append hf]
    exact ⟨by rwa [source_lexemes], ih⟩

/-- Lexemes that fit are read back from their source. -/
theorem lexemes_source {ls : List Lexeme} (h : Lexed ls) : lexemes (source ls) = ls := by
  induction ls with
  | nil => simp
  | cons l ls ih => rw [source_cons, lexemes_text_append h.1, ih h.2]

/-! ## Putting lexemes together -/

section Composition

variable {l : Lexeme} {rest rest' : List Char}

theorem Fits.nil (h : l.Fits rest) : l.Fits [] := by
  cases h with
  | quoted hq _ => exact .quoted hq (by simp)
  | openQuoted hq => exact .openQuoted hq
  | bracketed hin => exact .bracketed hin
  | openBracketed hin => exact .openBracketed hin
  | lineComment hin _ => exact .lineComment hin (by simp)
  | blockComment hin => exact .blockComment hin
  | openBlockComment hin => exact .openBlockComment hin
  | word hne hw _ => exact .word hne hw (by simp)
  | symbol hq hb hw _ _ => exact .symbol hq hb hw (by simp) (by simp)

/-- Only the next character decides whether a lexeme fits. -/
theorem Fits.congr (h : l.Fits rest) (hh : rest'.head? = rest.head?) : l.Fits rest' := by
  have hnil : rest = [] → rest' = [] := fun he => List.head?_eq_none_iff.mp (by rw [hh, he]; rfl)
  cases h with
  | quoted hq hr => exact .quoted hq (hh ▸ hr)
  | openQuoted hq => exact hnil rfl ▸ .openQuoted hq
  | bracketed hin => exact .bracketed hin
  | openBracketed hin => exact hnil rfl ▸ .openBracketed hin
  | lineComment hin hr => exact .lineComment hin (hh ▸ hr)
  | blockComment hin => exact .blockComment hin
  | openBlockComment hin => exact hnil rfl ▸ .openBlockComment hin
  | word hne hw hr => exact .word hne hw (hh ▸ hr)
  | symbol hq hb hw hl hs => exact .symbol hq hb hw (hh ▸ hl) (hh ▸ hs)

/-- A neutral character may stand behind any closed lexeme. -/
theorem Fits.of_neutral (h : l.Fits rest) (hc : l.closed = true)
    (hn : ∀ c ∈ rest'.head?, Neutral c) : l.Fits rest' := by
  have hne : ∀ {c : Char}, ¬ Neutral c → rest'.head? ≠ some c := fun h he => h (hn _ he)
  cases h with
  | quoted hq _ =>
    exact .quoted hq (hne fun h => absurd hq (by simp [h.not_quote]))
  | openQuoted _ | openBracketed _ | openBlockComment _ | lineComment _ _ => simp [closed] at hc
  | bracketed hin => exact .bracketed hin
  | blockComment hin => exact .blockComment hin
  | word hp hw _ => exact .word hp hw fun c hc => (hn c hc).not_word
  | symbol hq hb hw _ _ =>
    exact .symbol hq hb hw (fun _ => hne fun h => h.not_dash rfl)
      fun _ => hne fun h => h.not_star rfl

/-- Only an open lexeme or a line comment cares for all that follows. -/
theorem Fits.closed_of_ne_nil (h : l.Fits rest) (hne : rest ≠ []) (hc : l.isComment = false) :
    l.closed = true := by
  cases h <;> simp_all [closed, isComment]

theorem source_ne_nil {ls : List Lexeme} (h : Lexed ls) (hne : ls ≠ []) : source ls ≠ [] := by
  cases ls with
  | nil => exact absurd rfl hne
  | cons l ls => simp [h.1.text_ne_nil]

end Composition

theorem head?_source_append {a : List Lexeme} (h : Lexed a) (hne : a ≠ []) (cs : List Char) :
    (source a ++ cs).head? = (source a).head? := by
  obtain ⟨c, tail, he⟩ := List.exists_cons_of_ne_nil (source_ne_nil h hne)
  rw [he]; rfl

/-- Lexemes may stand in front of others if the last one fits there. -/
theorem Lexed.append_of_fits {a b : List Lexeme} (ha : Lexed a) (hb : Lexed b)
    (hlast : ∀ l ∈ a.getLast?, l.Fits (source b)) : Lexed (a ++ b) := by
  induction a with
  | nil => exact hb
  | cons l ls ih =>
    cases ls with
    | nil => exact ⟨hlast l rfl, hb⟩
    | cons m ms =>
      change l.Fits (source (m :: ms ++ b)) ∧ Lexed (m :: ms ++ b)
      refine ⟨ha.1.congr ?_, ih ha.2 fun k hk => hlast k ?_⟩
      · rw [source_append, head?_source_append ha.2 (by simp)]
      · rw [List.getLast?_cons_cons]; exact hk

theorem Lexed.fits_getLast {a : List Lexeme} (h : Lexed a) : ∀ l ∈ a.getLast?, l.Fits [] := by
  induction a with
  | nil => simp
  | cons l ls ih =>
    cases ls with
    | nil =>
      rintro _ ⟨⟩
      exact h.1
    | cons m ms => exact ih h.2

/-- Lexemes with nothing open at their end may stand in front of a neutral character. -/
theorem Lexed.append {a b : List Lexeme} (ha : Lexed a) (hb : Lexed b)
    (hlast : ∀ l ∈ a.getLast?, l.closed = true) (hn : ∀ c ∈ (source b).head?, Neutral c) :
    Lexed (a ++ b) :=
  ha.append_of_fits hb fun l hl => (ha.fits_getLast l hl).of_neutral (hlast l hl) hn

theorem Lexed.left {a b : List Lexeme} (h : Lexed (a ++ b)) : Lexed a := by
  induction a with
  | nil => trivial
  | cons l ls ih =>
    obtain ⟨hl, h⟩ : l.Fits (source (ls ++ b)) ∧ Lexed (ls ++ b) := h
    have hls := ih h
    refine ⟨?_, hls⟩
    by_cases hne : ls = []
    · subst hne; exact hl.nil
    · refine hl.congr ?_
      rw [source_append, head?_source_append hls hne]

theorem Lexed.right {a b : List Lexeme} (h : Lexed (a ++ b)) : Lexed b := by
  induction a with
  | nil => exact h
  | cons l ls ih => exact ih h.2

/-- Only the last lexeme of a text can be open, line comments apart. -/
theorem Lexed.closed_of_append {a b : List Lexeme} (h : Lexed (a ++ b)) (hb : b ≠ []) :
    ∀ l ∈ a, l.isComment = false → l.closed = true := by
  induction a with
  | nil => simp
  | cons l ls ih =>
    intro k hk hc
    rcases List.mem_cons.mp hk with rfl | hk
    · exact h.1.closed_of_ne_nil (source_ne_nil h.2 (by simp [hb])) hc
    · exact ih h.2 k hk hc

/-- The lexemes of two texts side by side, if nothing is open at the end of the first. -/
theorem lexemes_append {x y : List Char} (hx : ∀ l ∈ (lexemes x).getLast?, l.closed = true)
    (hn : ∀ c ∈ y.head?, Neutral c) : lexemes (x ++ y) = lexemes x ++ lexemes y := by
  have h := (lexed_lexemes x).append (lexed_lexemes y) hx (by rwa [source_lexemes])
  rw [← lexemes_source h, source_append, source_lexemes, source_lexemes]

theorem Apart.fits {c : Char} (h : Apart c) (rest : List Char) : Fits (.symbol c) rest :=
  .symbol h.not_quote h.not_bracket h.not_word (fun hc => absurd hc h.not_dash)
    fun hc => absurd hc h.not_slash

theorem lexemes_cons_apart {c : Char} (h : Apart c) (rest : List Char) :
    lexemes (c :: rest) = .symbol c :: lexemes rest :=
  lexemes_text_append (h.fits rest)

/-- A character that is apart is a lexeme behind a text that is not open at its end. -/
theorem lexemes_append_apart {x : List Char} (hx : ∀ l ∈ (lexemes x).getLast?, l.closed = true)
    {c : Char} (hc : Apart c) (y : List Char) :
    lexemes (x ++ c :: y) = lexemes x ++ .symbol c :: lexemes y := by
  have hneutral : ∀ d ∈ (c :: y).head?, Neutral d := by
    rintro d ⟨⟩
    exact hc.toNeutral
  rw [lexemes_append hx hneutral, lexemes_cons_apart hc]

/-- Comments can be replaced by spaces without any other lexeme being read differently. -/
theorem Lexed.bare {ls : List Lexeme} (h : Lexed ls) : Lexed (ls.map bare) := by
  induction ls with
  | nil => trivial
  | cons l ls ih =>
    have hls := ih h.2
    refine ⟨?_, hls⟩
    cases hc : l.isComment with
    | true => simpa [Lexeme.bare, hc] using apart_space.fits _
    | false =>
      have hl : l.bare = l := by simp [Lexeme.bare, hc]
      rw [hl]
      cases ls with
      | nil => exact h.1
      | cons m ms =>
        -- Only the next character counts, which is a space now if the next lexeme was a comment.
        cases hm : m.isComment with
        | true =>
          have hclosed := h.1.closed_of_ne_nil (source_ne_nil h.2 (by simp)) hc
          refine h.1.of_neutral hclosed fun c hc => ?_
          have hspace : c = ' ' := by simpa [Lexeme.bare, hm, text, eq_comm] using hc
          exact hspace ▸ apart_space.toNeutral
        | false =>
          refine h.1.congr ?_
          obtain ⟨c, tail, he⟩ := List.exists_cons_of_ne_nil h.2.1.text_ne_nil
          simp [Lexeme.bare, hm, he]

end Lexeme

end SqlConsole
