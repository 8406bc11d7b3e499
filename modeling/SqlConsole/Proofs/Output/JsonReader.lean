import Mathlib.Data.List.Nodup
import SqlConsole.Json.Parser
import SqlConsole.Proofs.Output.Contribution
import SqlConsole.Proofs.Statement.Bytes
import SqlConsole.Proofs.Text.Utf8

/-!
# Reading JSON records back

What the printer writes for rows is read by the same reader as every other document (`Json.parse?`),
which knows nothing of columns. It reads a character from its escape (`stringBody?_escape`) and from
there on strings, fields, objects and the array, each up to what stands behind it
(`string?_flatMap`, `fields?_joined`, `value?_object`, `items?_joined`). The reader is bounded; the
bound is never met because every field takes a character at least (`length_object`).

What the fields of a row are does not depend on how they are put in order one by one: they are in
the order of the bytes of their names, and of the cells of a name the last one counts
(`mem_gather`). Columns that share a name or have no cell are thereby accounted for (`Describes`).
-/

namespace SqlConsole.Records

/-! ## Strings -/

theorem hexValue?_digitChar {n : Nat} (h : n < 16) : Json.hexValue? (Nat.digitChar n) = some n := by
  have hall : ∀ k : Fin 16, Json.hexValue? (Nat.digitChar k) = some k.val := by decide
  exact hall ⟨n, h⟩

/-- A code point before those of a string that was read. -/
def push (n : Nat) (read : List Nat × List Char) : List Nat × List Char := (n :: read.1, read.2)

theorem stringBody?_short {e c : Char} (he : Json.escaped? e = some c) (rest : List Char) :
    Json.stringBody? ('\\' :: e :: rest) = (Json.stringBody? rest).map (push c.toNat) := by
  have hu : e ≠ 'u' := by
    rintro rfl
    cases he
  rw [Json.stringBody?, he]
  · cases Json.stringBody? rest <;> rfl
  · rintro _ _ _ _ _ rfl
    exact absurd rfl hu

theorem stringBody?_control {n : Nat} (h : n < 0x20) (rest : List Char) :
    Json.stringBody?
        ('\\' :: 'u' :: '0' :: '0' :: Nat.digitChar (n / 16) :: Nat.digitChar (n % 16) :: rest) =
      (Json.stringBody? rest).map (push n) := by
  have hzero : Json.hexValue? '0' = some 0 := rfl
  rw [Json.stringBody?, hzero, hexValue?_digitChar (by omega), hexValue?_digitChar (by omega)]
  have hn : 256 * (16 * 0 + 0) + (16 * (n / 16) + n % 16) = n := by omega
  cases Json.stringBody? rest with
  | none => rfl
  | some read => exact congrArg (fun n => some (n :: read.1, read.2)) hn

theorem stringBody?_plain {c : Char} (hquote : c ≠ '"') (hbackslash : c ≠ '\\')
    (hcontrol : 0x20 ≤ c.toNat) (rest : List Char) :
    Json.stringBody? (c :: rest) = (Json.stringBody? rest).map (push c.toNat) := by
  have hfits : ¬ (c == '\\' || decide (c.toNat < 0x20)) = true := by
    simpa using ⟨hbackslash, hcontrol⟩
  rw [Json.stringBody?, if_neg hfits]
  · rfl
  · exact hquote
  · exact fun _ _ _ _ _ h _ => hbackslash h
  · exact fun _ _ h _ => hbackslash h

/-- A character is read back from its escape, whatever follows. -/
theorem stringBody?_escape (c : Char) (rest : List Char) :
    Json.stringBody? (escape c ++ rest) = (Json.stringBody? rest).map (push c.toNat) := by
  unfold escape
  split
  · exact stringBody?_short rfl rest
  · exact stringBody?_short rfl rest
  · exact stringBody?_short rfl rest
  · exact stringBody?_short rfl rest
  · exact stringBody?_short rfl rest
  · exact stringBody?_short rfl rest
  · exact stringBody?_short rfl rest
  · rename_i hquote hbackslash _ _ _ _ _
    split_ifs with h
    · exact stringBody?_control h rest
    · exact stringBody?_plain hquote hbackslash (Nat.le_of_not_lt h) rest

theorem stringBody?_flatMap (cs rest : List Char) :
    Json.stringBody? (cs.flatMap escape ++ '"' :: rest) = some (cs.map Char.toNat, rest) := by
  induction cs with
  | nil => rfl
  | cons c cs ih =>
    rw [List.flatMap_cons, List.append_assoc, stringBody?_escape, ih]
    rfl

theorem joined?_toNat (cs : List Char) : Json.joined? (cs.map Char.toNat) = some cs := by
  induction cs with
  | nil => rfl
  | cons c cs ih =>
    have hvalid : c.toNat < 0xD800 ∨ 0xDFFF < c.toNat ∧ c.toNat < 0x110000 := c.valid
    rw [List.map_cons, Json.joined?.eq_def]
    simp only [if_neg (show ¬ (0xD800 ≤ c.toNat ∧ c.toNat < 0xDC00) by omega),
      if_neg (show ¬ (0xDC00 ≤ c.toNat ∧ c.toNat < 0xE000) by omega), ih, Option.map_some,
      Char.ofNat_toNat]

/-- **A string is read back** from what stands behind its opening quote. -/
theorem string?_flatMap (s : String) (rest : List Char) :
    Json.string? (s.toList.flatMap escape ++ '"' :: rest) = some (some s, rest) := by
  simp only [Json.string?, stringBody?_flatMap, Option.map_some, joined?_toNat,
    String.ofList_toList]

/-! ## Objects -/

/-- A field as it is read. -/
def spelled (f : String × String) : Option String × Json := (some f.1, .string (some f.2))

/-- An object as it is read. -/
def document (fs : List (String × String)) : Json := .object (fs.map spelled)

theorem string_append (s : String) (rest : List Char) :
    string s ++ rest = '"' :: (s.toList.flatMap escape ++ '"' :: rest) := by
  rw [string, List.append_assoc, List.cons_append, List.cons_append, List.nil_append]

theorem value?_string (s : String) (fuel : Nat) (rest : List Char) :
    Json.value? (fuel + 1) (string s ++ rest) = some (.string (some s), rest) := by
  rw [string_append]
  show (Json.string? (s.toList.flatMap escape ++ '"' :: rest)).map _ = _
  rw [string?_flatMap]
  rfl

/-- A field is read up to what stands behind it, which tells whether it is the last. -/
theorem fields?_field (f : String × String) (fuel : Nat) (rest : List Char) :
    Json.fields? (fuel + 2) (field f ++ rest) =
      match Json.skipSpace rest with
      | ',' :: rest => (Json.fields? (fuel + 1) rest).map fun (fs, rest) => (spelled f :: fs, rest)
      | '\x7d' :: rest => some ([spelled f], rest)
      | _ => none := by
  have hfield : field f ++ rest =
      '"' :: (f.1.toList.flatMap escape ++ '"' :: ':' :: (string f.2 ++ rest)) := by
    rw [field, List.append_assoc, List.cons_append, string_append]
  have hopen : Json.skipSpace (field f ++ rest) = field f ++ rest := by
    rw [hfield]
    rfl
  have hcolon : Json.skipSpace (':' :: (string f.2 ++ rest)) = ':' :: (string f.2 ++ rest) := rfl
  rw [Json.fields?, hopen, hfield]
  simp only [string?_flatMap, hcolon, value?_string, Option.bind_eq_bind, Option.bind_some]
  rfl

/-- All fields are read, up to the closing brace. -/
theorem fields?_joined {fs : List (String × String)} (hfs : fs ≠ []) {fuel : Nat}
    (hfuel : fs.length < fuel) (rest : List Char) :
    Json.fields? fuel (Text.joined [','] (fs.map field) ++ '\x7d' :: rest) =
      some (fs.map spelled, rest) := by
  obtain ⟨fuel, rfl⟩ := Nat.exists_eq_add_one_of_ne_zero (Nat.ne_zero_of_lt hfuel)
  induction fs generalizing fuel with
  | nil => exact absurd rfl hfs
  | cons f fs ih =>
    have hmore : fs.length < fuel := Nat.lt_of_succ_lt_succ hfuel
    obtain ⟨fuel, rfl⟩ := Nat.exists_eq_add_one_of_ne_zero (Nat.ne_zero_of_lt hmore)
    cases fs with
    | nil =>
      show Json.fields? (fuel + 2) (field f ++ '\x7d' :: rest) = _
      rw [fields?_field]
      rfl
    | cons g fs =>
      show Json.fields? (fuel + 2)
        (field f ++ [','] ++ Text.joined [','] ((g :: fs).map field) ++ '\x7d' :: rest) = _
      have hcomma (cs : List Char) : Json.skipSpace (',' :: cs) = ',' :: cs := rfl
      rw [List.append_assoc, List.append_assoc, List.cons_append, List.nil_append, fields?_field]
      simp only [hcomma, ih (List.cons_ne_nil g fs) fuel hmore]
      rfl

/-- **An object is read back** from its text, whatever follows. -/
theorem value?_object (fs : List (String × String)) {fuel : Nat} (hfuel : fs.length + 1 < fuel)
    (rest : List Char) :
    Json.value? fuel (object fs ++ rest) = some (document fs, rest) := by
  obtain ⟨fuel, rfl⟩ := Nat.exists_eq_add_one_of_ne_zero (Nat.ne_zero_of_lt hfuel)
  cases fs with
  | nil => rfl
  | cons f fs =>
    have hobject : object (f :: fs) ++ rest =
        '\x7b' :: (Text.joined [','] ((f :: fs).map field) ++ '\x7d' :: rest) := by
      rw [object, List.append_assoc, List.cons_append, List.cons_append, List.nil_append]
    have hjoined := fields?_joined (List.cons_ne_nil f fs) (Nat.lt_of_succ_lt_succ hfuel) rest
    have hquote : ∃ cs, Text.joined [','] ((f :: fs).map field) ++ '\x7d' :: rest = '"' :: cs := by
      rw [List.map_cons, Text.joined_cons]
      exact ⟨_, rfl⟩
    obtain ⟨cs, hcs⟩ := hquote
    rw [hobject]
    rw [hcs] at hjoined ⊢
    show (Json.fields? fuel ('"' :: cs)).map _ = _
    rw [hjoined]
    rfl

theorem length_joined_field (fs : List (String × String)) :
    fs.length ≤ (Text.joined [','] (fs.map field)).length := by
  cases fs with
  | nil => exact Nat.le_refl 0
  | cons f fs =>
    have hfield (f : String × String) : 1 ≤ (field f).length := Nat.succ_pos _
    have hrest : fs.length ≤ ((fs.map field).flatMap ([','] ++ ·)).length := by
      induction fs with
      | nil => exact Nat.le_refl 0
      | cons g fs ih =>
        simp only [List.map_cons, List.flatMap_cons, List.length_append, List.length_cons] at ih ⊢
        omega
    rw [List.map_cons, Text.joined_cons, List.length_append, List.length_cons]
    have hfirst := hfield f
    omega

/-- A field takes a character at least, and the braces two. -/
theorem length_object (fs : List (String × String)) : fs.length + 2 ≤ (object fs).length := by
  have hfields := length_joined_field fs
  rw [object, List.length_append, List.length_cons, List.length_singleton]
  omega

/-- All objects are read, up to the closing bracket. -/
theorem items?_joined {objects : List (List (String × String))} (hobjects : objects ≠ [])
    {fuel : Nat} (hfuel : (Text.joined [','] (objects.map object)).length < fuel)
    (rest : List Char) :
    Json.items? fuel (Text.joined [','] (objects.map object) ++ ']' :: rest) =
      some (objects.map document, rest) := by
  obtain ⟨fuel, rfl⟩ := Nat.exists_eq_add_one_of_ne_zero (Nat.ne_zero_of_lt hfuel)
  induction objects generalizing fuel with
  | nil => exact absurd rfl hobjects
  | cons fs objects ih =>
    have hlength := length_object fs
    cases objects with
    | nil =>
      have hfits : fs.length + 1 < fuel := by
        simp only [List.map_cons, List.map_nil, Text.joined] at hfuel
        omega
      have hend : Json.skipSpace (']' :: rest) = ']' :: rest := rfl
      show Json.items? (fuel + 1) (object fs ++ ']' :: rest) = _
      rw [Json.items?, value?_object fs hfits]
      simp only [Option.bind_eq_bind, Option.bind_some, hend]
      rfl
    | cons gs objects =>
      have hjoined : Text.joined [','] ((fs :: gs :: objects).map object) =
          object fs ++ ([','] ++ Text.joined [','] ((gs :: objects).map object)) :=
        List.append_assoc _ _ _
      rw [hjoined, List.length_append, List.length_append, List.length_singleton] at hfuel
      have hmore : (Text.joined [','] ((gs :: objects).map object)).length < fuel := by omega
      have hcomma (cs : List Char) : Json.skipSpace (',' :: cs) = ',' :: cs := rfl
      rw [hjoined, List.append_assoc, List.cons_append, List.nil_append, List.cons_append,
        Json.items?, value?_object fs (by omega)]
      obtain ⟨fuel, rfl⟩ := Nat.exists_eq_add_one_of_ne_zero (Nat.ne_zero_of_lt hmore)
      simp only [Option.bind_eq_bind, Option.bind_some, hcomma,
        ih (List.cons_ne_nil gs objects) fuel hmore]
      rfl

/-- The text of an array of objects. -/
def array (objects : List (List (String × String))) : List Char :=
  '[' :: Text.joined [','] (objects.map object) ++ [']']

/-- **An array of objects is read back** from its line. -/
theorem parse?_array {objects : List (List (String × String))} (hobjects : objects ≠ []) :
    Json.parse? (String.ofList (array objects ++ ['\n'])) =
      some (.array (objects.map document)) := by
  have harray : array objects ++ ['\n'] =
      '[' :: (Text.joined [','] (objects.map object) ++ ']' :: ['\n']) := by
    rw [array, List.append_assoc]
    rfl
  have hbrace : ∃ cs, Text.joined [','] (objects.map object) ++ ']' :: ['\n'] = '\x7b' :: cs := by
    obtain ⟨fs, objects, rfl⟩ := List.exists_cons_of_ne_nil hobjects
    rw [List.map_cons, Text.joined_cons]
    exact ⟨_, rfl⟩
  have hfuel : (Text.joined [','] (objects.map object)).length <
      2 * (array objects ++ ['\n']).length + 1 := by
    simp only [harray, List.length_append, List.length_cons]
    omega
  have hitems := items?_joined hobjects hfuel ['\n']
  have hvalue : Json.value? (2 * (array objects ++ ['\n']).length + 2) (array objects ++ ['\n']) =
      some (.array (objects.map document), ['\n']) := by
    obtain ⟨cs, hcs⟩ := hbrace
    rw [harray] at hitems ⊢
    rw [hcs] at hitems ⊢
    show (Json.items? _ ('\x7b' :: cs)).map _ = _
    rw [hitems]
    rfl
  rw [Json.parse?, String.toList_ofList, hvalue]
  rfl

/-- Such an array can be read as a whole: every string has a text, and it is not nested deeply. -/
theorem sound_array (objects : List (List (String × String))) :
    (Json.array (objects.map document)).sound = true := by
  have hfields (fs : List (String × String)) : Json.soundFields 126 (fs.map spelled) = true := by
    induction fs with
    | nil => rfl
    | cons f fs ih => exact ih
  have hitems : Json.soundItems 127 (objects.map document) = true := by
    induction objects with
    | nil => rfl
    | cons fs objects ih =>
      rw [List.map_cons, Json.soundItems, Bool.and_eq_true]
      exact ⟨hfields fs, ih⟩
  exact hitems

/-! ## One line -/

theorem not_mem_joined {c : Char} {separator : List Char} {parts : List (List Char)}
    (hseparator : c ∉ separator) (hparts : ∀ part ∈ parts, c ∉ part) :
    c ∉ Text.joined separator parts := by
  cases parts with
  | nil => exact List.not_mem_nil
  | cons s parts =>
    rw [List.forall_mem_cons] at hparts
    rw [Text.joined_cons, List.mem_append, List.mem_flatMap]
    rintro (hs | ⟨part, hpart, hc⟩)
    · exact hparts.1 hs
    · exact (List.mem_append.mp hc).elim hseparator (hparts.2 part hpart)

theorem digitChar_ne_newline {n : Nat} (h : n < 16) : '\n' ≠ Nat.digitChar n := by
  have hall : ∀ k : Fin 16, '\n' ≠ Nat.digitChar k := by decide
  exact hall ⟨n, h⟩

theorem newline_not_mem_escape (c : Char) : '\n' ∉ escape c := by
  unfold escape
  split
  iterate 7 decide
  · rename_i hnewline _ _
    split_ifs with h
    · have hhigh := digitChar_ne_newline (n := c.toNat / 16) (by omega)
      have hlow := digitChar_ne_newline (n := c.toNat % 16) (by omega)
      simp [hhigh, hlow]
    · simpa [eq_comm] using hnewline

theorem newline_not_mem_string (s : String) : '\n' ∉ string s := by
  simp [string, newline_not_mem_escape]

theorem newline_not_mem_object (fs : List (String × String)) : '\n' ∉ object fs := by
  have hfields : '\n' ∉ Text.joined [','] (fs.map field) := by
    refine not_mem_joined (by decide) (List.forall_mem_map.mpr fun f _ => ?_)
    simp [field, newline_not_mem_string]
  simpa [object] using hfields

theorem newline_not_mem_array (objects : List (List (String × String))) :
    '\n' ∉ array objects := by
  have hobjects : '\n' ∉ Text.joined [','] (objects.map object) :=
    not_mem_joined (by decide) (List.forall_mem_map.mpr fun fs _ => newline_not_mem_object fs)
  simpa [array] using hobjects

/-! ## The fields of a row -/

/-- The names of fields are in the order of their bytes. -/
def Increasing (fs : List (String × String)) : Prop := (fs.map Prod.fst).Pairwise (· < ·)

section Fields

variable {n name v value : String} {fs : List (String × String)}

theorem lt_of_not_lt {a b : String} (hne : a ≠ b) (h : ¬ a < b) : b < a := by
  by_contra hle
  exact hne (String.le_antisymm hle h)

theorem mem_names_insert :
    n ∈ (insert name value fs).map Prod.fst ↔ n = name ∨ n ∈ fs.map Prod.fst := by
  induction fs with
  | nil => simp [insert]
  | cons f fs ih =>
    rw [insert]
    split_ifs with heq hless
    · simp [heq]
    · simp
    · rw [List.map_cons, List.mem_cons, ih, List.map_cons, List.mem_cons, or_left_comm]

theorem Increasing.insert (h : Increasing fs) : Increasing (insert name value fs) := by
  induction fs with
  | nil => exact List.pairwise_singleton _ _
  | cons f fs ih =>
    obtain ⟨hf, hfs⟩ := List.pairwise_cons.mp h
    rw [Records.insert]
    split_ifs with heq hless
    · rw [heq]
      exact h
    · refine List.pairwise_cons.mpr ⟨fun m hm => ?_, h⟩
      rcases List.mem_cons.mp hm with rfl | hm
      · exact hless
      · exact String.lt_trans hless (hf m hm)
    · refine List.pairwise_cons.mpr ⟨fun m hm => ?_, ih hfs⟩
      rcases mem_names_insert.mp hm with rfl | hm
      · exact lt_of_not_lt heq hless
      · exact hf m hm

/-- A field takes the place of the one of its name; the others stay. -/
theorem mem_insert (h : Increasing fs) :
    (n, v) ∈ insert name value fs ↔ n = name ∧ v = value ∨ n ≠ name ∧ (n, v) ∈ fs := by
  induction fs with
  | nil => simp [insert]
  | cons f fs ih =>
    obtain ⟨hf, hfs⟩ := List.pairwise_cons.mp h
    have hlater (hn : (n, v) ∈ fs) : f.1 < n := hf n (List.mem_map_of_mem hn)
    rw [insert]
    split_ifs with heq hless
    · have hother (hn : (n, v) ∈ fs) : n ≠ name := by
        rintro rfl
        exact String.lt_irrefl _ (heq ▸ hlater hn)
      have hfirst : n ≠ name → (n, v) ≠ f := by
        rintro hne rfl
        exact hne heq.symm
      simp only [List.mem_cons, Prod.mk.injEq]
      grind
    · have hother (hn : (n, v) ∈ f :: fs) : n ≠ name := by
        rintro rfl
        rcases List.mem_cons.mp hn with rfl | hn
        · exact String.lt_irrefl _ hless
        · exact String.lt_irrefl _ (String.lt_trans hless (hlater hn))
      rw [List.mem_cons, Prod.mk.injEq]
      grind
    · have hfirst : n ≠ name ∨ (n, v) ≠ f := by
        refine or_iff_not_imp_left.mpr fun hn => ?_
        rintro rfl
        exact heq (not_not.mp hn).symm
      simp only [List.mem_cons, ih hfs]
      grind

theorem Increasing.lookup (h : Increasing fs) (hm : (n, v) ∈ fs) : fs.lookup n = some v := by
  induction fs with
  | nil => cases hm
  | cons f fs ih =>
    obtain ⟨hf, hfs⟩ := List.pairwise_cons.mp h
    rcases List.mem_cons.mp hm with rfl | hm
    · exact List.lookup_cons_self
    · have hne : (n == f.1) = false := by
        rw [beq_eq_false_iff_ne]
        rintro rfl
        exact String.lt_irrefl _ (hf _ (List.mem_map.mpr ⟨_, hm, rfl⟩))
      rw [List.lookup_cons, hne]
      exact ih hfs hm

/-- The fields of pairs, which come one after the other. -/
def gather (pairs : List (String × String)) : List (String × String) :=
  pairs.foldl (fun fs (name, value) => Records.insert name value fs) []

variable {pairs : List (String × String)}

theorem gather_concat (pairs : List (String × String)) (p : String × String) :
    gather (pairs ++ [p]) = Records.insert p.1 p.2 (gather pairs) := by
  rw [gather, List.foldl_append]
  rfl

theorem increasing_gather (pairs : List (String × String)) : Increasing (gather pairs) := by
  induction pairs using List.reverseRecOn with
  | nil => exact List.Pairwise.nil
  | append_singleton pairs p ih =>
    rw [gather_concat]
    exact ih.insert

theorem mem_names_gather : n ∈ (gather pairs).map Prod.fst ↔ n ∈ pairs.map Prod.fst := by
  induction pairs using List.reverseRecOn with
  | nil => rfl
  | append_singleton pairs p ih =>
    rw [gather_concat, mem_names_insert, ih, List.map_append, List.mem_append, List.map_singleton,
      List.mem_singleton, or_comm]

/-- **Of the pairs of a name the last one counts.** -/
theorem mem_gather : (n, v) ∈ gather pairs ↔
    ∃ i, pairs[i]? = some (n, v) ∧ ∀ (j : Nat) w, i < j → pairs[j]? ≠ some (n, w) := by
  induction pairs using List.reverseRecOn with
  | nil => simp [gather]
  | append_singleton pairs p ih =>
    obtain ⟨name, value⟩ := p
    have hlast : (pairs ++ [(name, value)])[pairs.length]? = some (name, value) :=
      List.getElem?_concat_length
    have hbehind {j : Nat} (hj : pairs.length < j) : (pairs ++ [(name, value)])[j]? = none := by
      rw [List.getElem?_eq_none_iff, List.length_append, List.length_singleton]
      omega
    rw [gather_concat, mem_insert (increasing_gather pairs), ih]
    constructor
    · rintro (⟨rfl, rfl⟩ | ⟨hne, i, hi, hlater⟩)
      · refine ⟨pairs.length, hlast, fun j w hj => ?_⟩
        rw [hbehind hj]
        exact nofun
      · obtain ⟨hless, -⟩ := List.getElem?_eq_some_iff.mp hi
        refine ⟨i, by rw [List.getElem?_append_left hless, hi], fun j w hj => ?_⟩
        rcases Nat.lt_trichotomy j pairs.length with hj' | rfl | hj'
        · rw [List.getElem?_append_left hj']
          exact hlater j w hj
        · rw [hlast]
          intro h
          cases h
          exact hne rfl
        · rw [hbehind hj']
          exact nofun
    · rintro ⟨i, hi, hlater⟩
      rcases Nat.lt_trichotomy i pairs.length with hless | rfl | hmore
      · rw [List.getElem?_append_left hless] at hi
        refine .inr ⟨?_, i, hi, fun j w hj hw => ?_⟩
        · rintro rfl
          exact hlater pairs.length value hless hlast
        · obtain ⟨hj', -⟩ := List.getElem?_eq_some_iff.mp hw
          exact hlater j w hj (by rw [List.getElem?_append_left hj', hw])
      · rw [hlast] at hi
        cases hi
        exact .inl ⟨rfl, rfl⟩
      · rw [hbehind hmore] at hi
        cases hi

end Fields

/-- The fields of an object describe a row of cells. -/
structure Describes (columns cells : List String) (fs : List (String × String)) : Prop where
  /-- The names are in the order of their bytes, and no two of them are the same. -/
  increasing : (fs.map Prod.fst).Pairwise fun a b =>
    Text.Utf8.encode a.toList < Text.Utf8.encode b.toList
  /-- They are the names of the columns that have a cell. -/
  names : ∀ name, name ∈ fs.map Prod.fst ↔ name ∈ columns.take cells.length
  /-- Of several columns of the same name the last one that has a cell counts. -/
  values : ∀ name value, (name, value) ∈ fs → ∃ i, columns[i]? = some name ∧
    cells[i]? = some value ∧ ∀ j, i < j → j < cells.length → columns[j]? ≠ some name
  /-- If there is a column for each cell, and each has its own name, all cells can be looked up. -/
  recovers : columns.Nodup → cells.length = columns.length →
    columns.map (fs.lookup ·) = cells.map some

theorem map_fst_zip (columns cells : List String) :
    (columns.zip cells).map Prod.fst = columns.take cells.length := by
  induction columns generalizing cells with
  | nil =>
    rw [List.take_nil]
    rfl
  | cons column columns ih =>
    cases cells with
    | nil => rfl
    | cons cell cells => exact congrArg (column :: ·) (ih cells)

/-- **The fields of a row describe it.** -/
theorem describes_fields (columns cells : List String) :
    Describes columns cells (fields columns cells) := by
  have hincreasing := increasing_gather (columns.zip cells)
  refine ⟨hincreasing.imp fun h => Text.Utf8.encode_lt h, ?_, ?_, ?_⟩
  · intro name
    rw [← map_fst_zip]
    exact mem_names_gather
  · intro name value h
    obtain ⟨i, hi, hlater⟩ := mem_gather.mp h
    obtain ⟨hcolumn, hcell⟩ := List.getElem?_zip_eq_some.mp hi
    refine ⟨i, hcolumn, hcell, fun j hij hj hname => hlater j cells[j] hij ?_⟩
    exact List.getElem?_zip_eq_some.mpr ⟨hname, List.getElem?_eq_getElem hj⟩
  · intro hnodup hlength
    refine List.ext_getElem (by rw [List.length_map, List.length_map, hlength]) fun i hi hi' => ?_
    rw [List.length_map] at hi hi'
    rw [List.getElem_map, List.getElem_map]
    refine hincreasing.lookup (mem_gather.mpr ⟨i, ?_, fun j w hij hj => ?_⟩)
    · exact List.getElem?_zip_eq_some.mpr
        ⟨List.getElem?_eq_getElem hi, List.getElem?_eq_getElem hi'⟩
    · obtain ⟨hbound, hname⟩ :=
        List.getElem?_eq_some_iff.mp (List.getElem?_zip_eq_some.mp hj).1
      have hsame : j = i := hnodup.getElem_inj_iff.mp hname
      omega

/-! ## What the printer writes -/

/-- The fields of a row, written as JSON. -/
def fieldsOf (columns : List String) (row : Row) : List (String × String) :=
  fields columns (row.write .json)

theorem allBytes_chunk (failure : String → Error) (cs : List Char) (more : List Chunk) :
    Chunk.allBytes (chunk failure cs :: more) = Text.Utf8.encode cs ++ Chunk.allBytes more := by
  rw [Chunk.allBytes, List.flatMap_cons]
  rfl

/-- All rows but the first come behind a comma. -/
theorem allBytes_body (columns : List String) (rows : List Row) :
    Chunk.allBytes (printer.body (columns, true) rows).2 =
      Text.Utf8.encode
        ((rows.map fun row => object (fieldsOf columns row)).flatMap ([','] ++ ·)) := by
  induction rows with
  | nil => rfl
  | cons row rows ih =>
    show Chunk.allBytes (chunk .write [','] :: chunk .writeObject (object (fieldsOf columns row)) ::
      (printer.body (columns, true) rows).2) = _
    rw [allBytes_chunk, allBytes_chunk, ih, List.map_cons, List.flatMap_cons,
      Text.Utf8.encode_append, Text.Utf8.encode_append, List.append_assoc]

theorem allBytes_chunks (columns : List String) {rows : List Row} (hrows : rows ≠ []) :
    Chunk.allBytes (printer.chunks columns rows none) =
      Text.Utf8.encode (array (rows.map (fieldsOf columns))) ++ [10] := by
  cases rows with
  | nil => exact absurd rfl hrows
  | cons row rows =>
    have hstarted := started_body columns true rows
    have harray : array ((row :: rows).map (fieldsOf columns)) = ['['] ++
        (object (fieldsOf columns row) ++
          ((rows.map fun row => object (fieldsOf columns row)).flatMap ([','] ++ ·) ++ [']'])) := by
      rw [array, List.map_map, List.map_cons, Text.joined_cons, List.cons_append, List.append_assoc]
      rfl
    have hend : Chunk.allBytes [chunk .write [']', '\n']] = Text.Utf8.encode [']'] ++ [10] := rfl
    show Chunk.allBytes (chunk .write ['['] :: chunk .writeObject (object (fieldsOf columns row)) ::
      (printer.body (columns, true) rows).2 ++
        if (printer.body (columns, true) rows).1.2 then [chunk .write [']', '\n']] else []) = _
    rw [hstarted, Bool.true_or, if_pos rfl, Chunk.allBytes_append, allBytes_chunk, allBytes_chunk,
      allBytes_body, hend, harray]
    simp only [Text.Utf8.encode_append, List.append_assoc]

/-- An output that holds rows as JSON. -/
inductive Holds (columns : List String) : List Row → List UInt8 → Prop
  /-- Without a row it is empty. -/
  | nothing : Holds columns [] []
  /-- Otherwise it is one line, which reads as an array of one object for each row, in order. -/
  | line {rows : List Row} {front : List UInt8} {objects : List (List (String × String))}
    (hrows : rows ≠ []) (hfront : 10 ∉ front)
    (hparse : Json.parse? (Text.Utf8.decodeLossy (front ++ [10])) =
      some (.array (objects.map document)))
    (hsound : (Json.array (objects.map document)).sound = true)
    (hobjects : List.Forall₂ (Describes columns) (rows.map (·.write .json)) objects) :
    Holds columns rows (front ++ [10])

/-- **JSON records can be read back.** -/
theorem printer_holds (columns : List String) (rows : List Row) :
    ∃ output, printer.Writes columns rows output ∧ Holds columns rows output := by
  refine ⟨_, printer.writes_chunks columns rows, ?_⟩
  by_cases hrows : rows = []
  · rw [hrows]
    exact .nothing
  · have hobjects : rows.map (fieldsOf columns) ≠ [] := mt List.map_eq_nil_iff.mp hrows
    have hfront : 10 ∉ Text.Utf8.encode (array (rows.map (fieldsOf columns))) := fun h =>
      forall_mem_encode_ne (by decide) (newline_not_mem_array _) 10 h rfl
    have hparse := parse?_array hobjects
    rw [← Text.Utf8.decodeLossy_encode, Text.Utf8.encode_append] at hparse
    rw [allBytes_chunks columns hrows]
    refine .line hrows hfront hparse (sound_array _) ?_
    rw [List.forall₂_map_left_iff, List.forall₂_map_right_iff, List.forall₂_same]
    exact fun row _ => describes_fields columns (row.write .json)

/-- Columns that share a name, a row with more cells than columns, and one with fewer. -/
def repeated : List Row :=
  [[.text "say \"no\"\n", .int 1, .null, .text "more"], [.text "\x00"]]

theorem printer_holds_repeated :
    let columns := ["b", "a", "b"]
    let s := (Batch.mk [] .idle false).fetch false (.finite repeated) ⟨[], none⟩
      { backend := .ofScripts [] }
    let written := (printer.drain false columns s.1 s.2 ⟨none, []⟩).sink.written
    (∃ last, s.1.rows false 3 s.2 = (repeated, some .done, last)) ∧
      Holds columns repeated written ∧
      written = Text.Utf8.encode
        "[\x7b\"a\":\"1\",\"b\":\"NULL\"\x7d,\x7b\"b\":\"\\u0000\"\x7d]\n".toList := by
  intro columns s written
  have hreads := Batch.readsOut_fetch (b := ⟨[], .idle, false⟩) rfl repeated ⟨[], none⟩
    { backend := .ofScripts [] }
  have hend := hreads.rows_eq (n := 3) (by decide)
  obtain ⟨output, hwrites, hholds⟩ := printer_holds columns repeated
  have hwritten : written = output := by
    show (printer.drain false columns s.1 s.2 ⟨none, []⟩).sink.written = output
    rw [hwrites _ _ _ _ _ _ [] hend, List.nil_append]
  exact ⟨⟨_, hend⟩, hwritten ▸ hholds, by decide +kernel⟩

end SqlConsole.Records
