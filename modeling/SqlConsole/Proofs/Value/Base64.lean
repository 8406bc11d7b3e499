import Mathlib.Algebra.Group.Nat.Defs
import Mathlib.Data.List.DropRight
import SqlConsole.Proofs.Statement.Bytes
import SqlConsole.Proofs.Text.Utf8
import SqlConsole.Value.OfJson

/-!
# Base64 read back

The encoding is said bit by bit (`Base64.encode`): the bits of all bytes stand in one row, which is
cut into pieces of six, the last one filled up with zeros. `Base64.numbers` gives the same pieces as
numbers, three bytes at a time (`map_value_sextets`), and `bytes?` is its inverse on numbers of six
bits (`bytes?_numbers`, `numbers_of_bytes?`).

So a text is decoded to bytes if and only if it is their encoding with any number of `=` behind it
(`decode_eq_ok_iff`). A cell that holds anything else is refused (`Value.ofJson_blob`).
-/

namespace SqlConsole.Base64

open Text

/-! ## The encoding -/

/-- The symbols, each at the place of the number that it stands for. -/
def alphabet : List Char :=
  "ABCDEFGHIJKLMNOPQRSTUVWXYZabcdefghijklmnopqrstuvwxyz0123456789+/".toList

def symbol (n : Nat) : Char := alphabet.getD n 'A'

/-- Some bits of a number in a row, the highest one first: `width` of them, above the lowest
`low`. -/
def field (n low width : Nat) : List Bool :=
  (List.range width).reverse.map fun i => n.testBit (low + i)

/-- The bits of a byte. -/
def bits (b : UInt8) : List Bool := field b.toNat 0 8

/-- The number that a row of bits denotes. -/
def value (row : List Bool) : Nat := row.foldl (fun n bit => 2 * n + bit.toNat) 0

/-- A row of bits in pieces of six, the last one filled up with zeros. -/
def sextets : List Bool → List (List Bool)
  | a :: b :: c :: d :: e :: f :: rest => [a, b, c, d, e, f] :: sextets rest
  | [] => []
  | row => [row ++ List.replicate (6 - row.length) false]

/-- The unpadded encoding of bytes. -/
def encode (bs : List UInt8) : List Char :=
  ((sextets (bs.flatMap bits)).map value).map symbol

/-- A text without the `=` at its end. -/
def unpadded (cs : List Char) : List Char := cs.rdropWhile (· == '=')

/-! ## Pieces of six bits -/

theorem value_append (xs ys : List Bool) :
    value (xs ++ ys) = value xs * 2 ^ ys.length + value ys := by
  induction ys using List.reverseRecOn with
  | nil => simp [value]
  | append_singleton ys y ih =>
    have hlast (row : List Bool) : value (row ++ [y]) = 2 * value row + y.toNat := by
      rw [value, List.foldl_append]
      rfl
    rw [← List.append_assoc, hlast, hlast, ih, List.length_append, List.length_singleton,
      Nat.pow_succ, Nat.mul_add, Nat.mul_left_comm, Nat.mul_comm 2 (2 ^ ys.length), Nat.add_assoc]

theorem value_field (n low width : Nat) : value (field n low width) = n / 2 ^ low % 2 ^ width := by
  induction width with
  | zero => simp [field, value, Nat.mod_one]
  | succ width ih =>
    have hfirst : field n low (width + 1) = [n.testBit (low + width)] ++ field n low width := by
      simp [field, List.range_succ]
    have hlength : (field n low width).length = width := by simp [field]
    have hbit : value [n.testBit (low + width)] = n / 2 ^ low / 2 ^ width % 2 := by
      rw [Nat.div_div_eq_div_mul, ← Nat.pow_add, ← Nat.toNat_testBit]
      simp [value]
    rw [hfirst, value_append, hlength, hbit, ih, Nat.mod_pow_succ, Nat.mul_comm, Nat.add_comm]

/-- Bits of two neighbours in one row. -/
theorem value_fields (m n low width width' : Nat) :
    value (field m 0 width ++ field n low width') =
      m % 2 ^ width * 2 ^ width' + n / 2 ^ low % 2 ^ width' := by
  have hlength : (field n low width').length = width' := by simp [field]
  rw [value_append, hlength, value_field, value_field, Nat.pow_zero, Nat.div_one]

section Pieces

variable {x y z : Nat}

/-- The first of the four pieces that three bytes make. -/
theorem value_first (hx : x < 256) : value (field x 2 6) = x / 4 := by
  rw [value_field]
  omega

theorem value_second (hy : y < 256) :
    value (field x 0 2 ++ field y 4 4) = x % 4 * 16 + y / 16 := by
  rw [value_fields]
  omega

theorem value_third (hz : z < 256) :
    value (field y 0 4 ++ field z 6 2) = y % 16 * 4 + z / 64 := by
  rw [value_fields]
  omega

theorem value_fourth : value (field z 0 6) = z % 64 := by
  rw [value_field]
  omega

end Pieces

/-- The pieces of six bits as numbers. -/
def numbers : List UInt8 → List Nat
  | [] => []
  | [x] => [x.toNat / 4, x.toNat % 4 * 16]
  | [x, y] => [x.toNat / 4, x.toNat % 4 * 16 + y.toNat / 16, y.toNat % 16 * 4]
  | x :: y :: z :: rest =>
    x.toNat / 4 :: (x.toNat % 4 * 16 + y.toNat / 16) :: (y.toNat % 16 * 4 + z.toNat / 64) ::
      z.toNat % 64 :: numbers rest

/-- **The bits in pieces of six are the numbers.** The bits that are missing in the last piece are
those of a zero byte. -/
theorem map_value_sextets (bs : List UInt8) :
    (sextets (bs.flatMap bits)).map value = numbers bs := by
  have hbyte (b : UInt8) : b.toNat < 256 := b.toNat_lt
  have hzero : 0 < 256 := by decide
  fun_induction numbers bs with
  | case1 => rfl
  | case2 x =>
    have hpieces : sextets ([x].flatMap bits) =
        [field x.toNat 2 6, field x.toNat 0 2 ++ field 0 4 4] := rfl
    rw [hpieces, List.map_cons, List.map_singleton, value_first (hbyte x), value_second hzero,
      Nat.zero_div, Nat.add_zero]
  | case3 x y =>
    have hpieces : sextets ([x, y].flatMap bits) =
        [field x.toNat 2 6, field x.toNat 0 2 ++ field y.toNat 4 4,
          field y.toNat 0 4 ++ field 0 6 2] := rfl
    rw [hpieces, List.map_cons, List.map_cons, List.map_singleton, value_first (hbyte x),
      value_second (hbyte y), value_third hzero, Nat.zero_div, Nat.add_zero]
  | case4 x y z rest ih =>
    have hpieces : sextets ((x :: y :: z :: rest).flatMap bits) =
        field x.toNat 2 6 :: (field x.toNat 0 2 ++ field y.toNat 4 4) ::
          (field y.toNat 0 4 ++ field z.toNat 6 2) :: field z.toNat 0 6 ::
            sextets (rest.flatMap bits) := rfl
    rw [hpieces, List.map_cons, List.map_cons, List.map_cons, List.map_cons,
      value_first (hbyte x), value_second (hbyte y), value_third (hbyte z), value_fourth, ih]

theorem numbers_lt (bs : List UInt8) : ∀ n ∈ numbers bs, n < 64 := by
  have hbyte (b : UInt8) : b.toNat < 256 := b.toNat_lt
  fun_induction numbers bs with
  | case1 => simp
  | case2 x =>
    have hx := hbyte x
    simp only [List.forall_mem_cons]
    exact ⟨by omega, by omega, List.forall_mem_nil _⟩
  | case3 x y =>
    have hx := hbyte x
    have hy := hbyte y
    simp only [List.forall_mem_cons]
    exact ⟨by omega, by omega, by omega, List.forall_mem_nil _⟩
  | case4 x y z rest ih =>
    have hx := hbyte x
    have hy := hbyte y
    have hz := hbyte z
    simp only [List.forall_mem_cons]
    exact ⟨by omega, by omega, by omega, by omega, ih⟩

/-- No bytes make a lone number in the last group. -/
theorem length_numbers (bs : List UInt8) : (numbers bs).length % 4 ≠ 1 := by
  fun_induction numbers bs with
  | case1 => simp
  | case2 x => simp
  | case3 x y => simp
  | case4 x y z rest ih =>
    simp only [List.length_cons]
    omega

/-! ## Bytes and numbers -/

/-- **Bytes are found again in their numbers.** -/
theorem bytes?_numbers (bs : List UInt8) : bytes? (numbers bs) = some bs := by
  have heq (b : UInt8) {n : Nat} (h : n = b.toNat) : UInt8.ofNat n = b := by
    rw [h, UInt8.ofNat_toNat]
  have hbyte (b : UInt8) : b.toNat < 256 := b.toNat_lt
  fun_induction numbers bs with
  | case1 => rfl
  | case2 x =>
    rw [bytes?, if_pos (by omega), heq x (by omega)]
  | case3 x y =>
    have hy := hbyte y
    rw [bytes?, if_pos (by omega), heq x (by omega), heq y (by omega)]
  | case4 x y z rest ih =>
    have hy := hbyte y
    have hz := hbyte z
    rw [bytes?, ih, Option.map_some, heq x (by omega), heq y (by omega), heq z (by omega)]

/-- **Numbers that make bytes are those of the bytes**, the last one with no bits to spare set. -/
theorem numbers_of_bytes? {ns : List Nat} {bs : List UInt8} (hlt : ∀ n ∈ ns, n < 64)
    (h : bytes? ns = some bs) : numbers bs = ns := by
  have hof {n : Nat} (h : n < 256) : (UInt8.ofNat n).toNat = n := by
    rw [UInt8.toNat_ofNat', Nat.mod_eq_of_lt h]
  fun_induction bytes? ns generalizing bs with
  | case1 =>
    cases h
    rfl
  | case2 => cases h
  | case3 a b hb =>
    cases h
    simp only [List.forall_mem_cons] at hlt
    obtain ⟨ha, hb', -⟩ := hlt
    rw [numbers, hof (by omega)]
    congr 2 <;> omega
  | case4 => cases h
  | case5 a b c hc =>
    cases h
    simp only [List.forall_mem_cons] at hlt
    obtain ⟨ha, hb, hc', -⟩ := hlt
    rw [numbers, hof (by omega), hof (by omega)]
    congr 3 <;> omega
  | case6 => cases h
  | case7 a b c d rest ih =>
    obtain ⟨bs', hbs', rfl⟩ := Option.map_eq_some_iff.mp h
    simp only [List.forall_mem_cons] at hlt
    obtain ⟨ha, hb, hc, hd, hrest⟩ := hlt
    rw [numbers, ih hrest hbs', hof (by omega), hof (by omega), hof (by omega)]
    congr 4 <;> omega

/-! ## Symbols -/

/-- The byte of a symbol. -/
def code (n : Nat) : UInt8 := UInt8.ofNat (symbol n).toNat

theorem bitsOf?_code {n : Nat} (h : n < 64) : bitsOf? (code n) = some n := by
  have hall : ∀ k : Fin 64, bitsOf? (code k) = some k.val := by decide +kernel
  exact hall ⟨n, h⟩

theorem encodeChar_symbol {n : Nat} (h : n < 64) : String.utf8EncodeChar (symbol n) = [code n] := by
  have hall : ∀ k : Fin 64, String.utf8EncodeChar (symbol k) = [code k] := by decide +kernel
  exact hall ⟨n, h⟩

/-- No byte but that of a symbol stands for a number. -/
theorem code_of_bitsOf? {b : UInt8} {n : Nat} (h : bitsOf? b = some n) : n < 64 ∧ code n = b := by
  have hall : ∀ k : Fin 256, ∀ n ∈ bitsOf? (UInt8.ofNat k), n < 64 ∧ code n = UInt8.ofNat k := by
    decide +kernel
  have hb : UInt8.ofNat b.toNat = b := UInt8.ofNat_toNat
  have hn := hall ⟨b.toNat, b.toNat_lt⟩ n
  simp only [hb] at hn
  exact hn h

theorem filterMap_code {ns : List Nat} (h : ∀ n ∈ ns, n < 64) :
    (ns.map code).filterMap bitsOf? = ns := by
  induction ns with
  | nil => rfl
  | cons n ns ih =>
    obtain ⟨hn, hns⟩ := List.forall_mem_cons.mp h
    rw [List.map_cons, List.filterMap_cons_some (bitsOf?_code hn), ih hns]

/-- Bytes all of which are symbols are those of their numbers. -/
theorem map_code_filterMap {cs : List UInt8} (h : ∀ b ∈ cs, (bitsOf? b).isSome) :
    (cs.filterMap bitsOf?).map code = cs := by
  induction cs with
  | nil => rfl
  | cons b cs ih =>
    obtain ⟨hb, hcs⟩ := List.forall_mem_cons.mp h
    obtain ⟨n, hn⟩ := Option.isSome_iff_exists.mp hb
    rw [List.filterMap_cons_some hn, List.map_cons, (code_of_bitsOf? hn).2, ih hcs]

theorem encode_map_symbol {ns : List Nat} (h : ∀ n ∈ ns, n < 64) :
    Utf8.encode (ns.map symbol) = ns.map code := by
  induction ns with
  | nil => rfl
  | cons n ns ih =>
    obtain ⟨hn, hns⟩ := List.forall_mem_cons.mp h
    rw [List.map_cons, List.map_cons, Utf8.encode_cons, encodeChar_symbol hn, ih hns,
      List.singleton_append]

/-- The bytes of the encoding. -/
theorem encode_encode (bs : List UInt8) : Utf8.encode (encode bs) = (numbers bs).map code := by
  rw [encode, map_value_sextets, encode_map_symbol (numbers_lt bs)]

/-- The `=` at the end of a text are those at the end of its bytes. -/
theorem symbols_eq (text : String) : symbols text = Utf8.encode (unpadded text.toList) := by
  have hmark : String.utf8EncodeChar '=' = [61] := by decide
  rw [symbols]
  generalize text.toList = cs
  induction cs using List.reverseRecOn with
  | nil => rfl
  | append_singleton cs c ih =>
    have hlast : Utf8.encode [c] = String.utf8EncodeChar c := by simp
    rw [unpadded, List.rdropWhile_concat, Utf8.encode_append, hlast]
    split
    case isTrue hc =>
      rw [eq_of_beq hc, hmark]
      simpa [unpadded] using ih
    case isFalse hc =>
      obtain ⟨init, last, hbytes⟩ : ∃ init last, String.utf8EncodeChar c = init ++ [last] :=
        ⟨_, _, (List.dropLast_concat_getLast (@String.utf8EncodeChar_ne_nil c)).symm⟩
      have hne : Char.ofUInt8 last ≠ '=' := by
        refine forall_mem_encodeChar (P := (· ≠ '=')) ?_ (by simpa using hc) last ?_
        · rintro d hd rfl
          exact absurd hd (by decide)
        · rw [hbytes]
          exact List.mem_append_right _ List.mem_cons_self
      have hstop : (last == 61) = false := by
        rw [beq_eq_false_iff_ne]
        rintro rfl
        exact hne rfl
      rw [Utf8.encode_append, hlast, hbytes, ← List.append_assoc,
        List.reverse_concat, List.dropWhile_cons, hstop]
      simp

/-! ## Decoding -/

theorem foreign?_eq_none_iff {cs : List UInt8} {offset : Nat} :
    foreign? cs offset = none ↔ ∀ b ∈ cs, (bitsOf? b).isSome := by
  induction cs generalizing offset with
  | nil => simp [foreign?]
  | cons b cs ih =>
    rw [foreign?, List.forall_mem_cons]
    cases bitsOf? b with
    | none => simp
    | some n => simpa using ih

/-- Looking at the last symbol before the others finds no more. -/
theorem stray?_eq_none_iff {cs : List UInt8} :
    stray? cs = none ↔ ∀ b ∈ cs, (bitsOf? b).isSome := by
  rw [stray?]
  constructor
  · intro h
    split at h
    · cases h
    · exact foreign?_eq_none_iff.mp h
  · intro h
    have hnone : (if cs.length % 4 = 1 then cs.getLast? else none).filter
        (fun b => (bitsOf? b).isNone) = none := by
      rw [Option.filter_eq_none_iff]
      intro b hb
      split at hb
      · simp [Option.isSome_iff_ne_none.mp (h b (List.mem_of_getLast? hb))]
      · cases hb
    simp only [hnone]
    exact foreign?_eq_none_iff.mpr h

/-- **A text is decoded to bytes if it is their encoding**, the `=` at its end left out. -/
theorem decode_eq_ok_iff {text : String} {bs : List UInt8} :
    decode text = .ok bs ↔ unpadded text.toList = encode bs := by
  have hcodes : unpadded text.toList = encode bs ↔ symbols text = (numbers bs).map code := by
    rw [symbols_eq, ← encode_encode]
    exact ⟨congrArg Utf8.encode, Utf8.encode_injective⟩
  rw [hcodes, decode]
  generalize symbols text = all
  constructor
  · intro h
    split at h
    case h_1 => cases h
    case h_2 hstray =>
      have hall := stray?_eq_none_iff.mp hstray
      split at h
      case isTrue => cases h
      case isFalse =>
        split at h
        case h_1 bs' hbytes =>
          cases h
          have hlt : ∀ n ∈ all.filterMap bitsOf?, n < 64 := by
            intro n hn
            obtain ⟨b, -, hb⟩ := List.mem_filterMap.mp hn
            exact (code_of_bitsOf? hb).1
          rw [numbers_of_bytes? hlt hbytes, map_code_filterMap hall]
        case h_2 => cases h
  · rintro rfl
    have hstray : stray? ((numbers bs).map code) = none := by
      rw [stray?_eq_none_iff]
      intro b hb
      obtain ⟨n, hn, rfl⟩ := List.mem_map.mp hb
      rw [bitsOf?_code (numbers_lt bs n hn)]
      rfl
    have hlength : ¬ ((numbers bs).map code).length % 4 = 1 := by
      rw [List.length_map]
      exact length_numbers bs
    simp only [hstray, if_neg hlength, filterMap_code (numbers_lt bs), bytes?_numbers]

/-! ## Padding -/

theorem symbol_ne_pad {n : Nat} (h : n < 64) : symbol n ≠ '=' := by
  have hall : ∀ k : Fin 64, symbol k ≠ '=' := by decide +kernel
  exact hall ⟨n, h⟩

theorem unpadded_append_replicate (cs : List Char) (k : Nat) :
    unpadded (cs ++ List.replicate k '=') = unpadded cs := by
  induction k with
  | zero => simp
  | succ k ih =>
    rw [List.replicate_succ', ← List.append_assoc, unpadded, List.rdropWhile_concat_pos _ _ _ rfl]
    exact ih

/-- An encoding has no `=` at its end. -/
theorem unpadded_encode (bs : List UInt8) : unpadded (encode bs) = encode bs := by
  rw [unpadded, List.rdropWhile_eq_self_iff]
  intro hne hlast
  have hmem := List.getLast_mem hne
  rw [eq_of_beq hlast, encode, map_value_sextets] at hmem
  obtain ⟨n, hn, hpad⟩ := List.mem_map.mp hmem
  exact symbol_ne_pad (numbers_lt bs n hn) hpad

end SqlConsole.Base64

namespace SqlConsole.Value

open Base64

/-- Bytes as a cell holds them. -/
def blob (s : String) : Json := .object [(some "base64", .string (some s))]

theorem ofJson_blob_eq (s : String) :
    ofJson (blob s) = match decode s with
      | .ok bs => .ok (bytes bs)
      | .error fault => .error (.unsupportedCell (.base64Fault fault)) :=
  rfl

theorem ofJson_blob_eq_ok_iff {s : String} {bs : List UInt8} :
    ofJson (blob s) = .ok (bytes bs) ↔ unpadded s.toList = encode bs := by
  rw [ofJson_blob_eq, ← decode_eq_ok_iff]
  cases decode s with
  | ok bs' => simp
  | error fault => simp

/-- **Blobs have one spelling.** A cell is read as bytes if and only if its text, the `=` at its end
left out, is their encoding; every other text is refused. So bytes are found again behind any number
of `=`, and texts that are read as the same bytes differ in these only. -/
theorem ofJson_blob (s : String) (bs : List UInt8) :
    (ofJson (blob s) = .ok (bytes bs) ↔ unpadded s.toList = encode bs) ∧
      ((∀ bs', unpadded s.toList ≠ encode bs') →
        ∃ fault, ofJson (blob s) = .error (.unsupportedCell (.base64Fault fault))) ∧
      (∀ k, ofJson (blob (String.ofList (encode bs ++ List.replicate k '='))) = .ok (bytes bs)) ∧
      ∀ s', ofJson (blob s) = .ok (bytes bs) → ofJson (blob s') = .ok (bytes bs) →
        unpadded s.toList = unpadded s'.toList := by
  refine ⟨ofJson_blob_eq_ok_iff, fun hother => ?_, fun k => ?_, fun s' h h' => ?_⟩
  · rw [ofJson_blob_eq]
    cases hdecode : decode s with
    | ok bs' => exact absurd (decode_eq_ok_iff.mp hdecode) (hother bs')
    | error fault => exact ⟨fault, rfl⟩
  · rw [ofJson_blob_eq_ok_iff, String.toList_ofList, unpadded_append_replicate, unpadded_encode]
  · rw [ofJson_blob_eq_ok_iff.mp h, ofJson_blob_eq_ok_iff.mp h']

/-- One byte, padded in full and not at all; and bits set in its last symbol that no byte needs. -/
theorem ofJson_blob_oneByte :
    ofJson (blob "AQ==") = .ok (bytes [1]) ∧ ofJson (blob "AQ") = .ok (bytes [1]) ∧
      unpadded "AQ==".toList = unpadded "AQ".toList ∧
      (∃ fault, ofJson (blob "AR==") = .error (.unsupportedCell (.base64Fault fault))) := by
  have hpadded : ofJson (blob "AQ==") = .ok (bytes [1]) :=
    (ofJson_blob "AQ==" [1]).1.mpr (by decide)
  have hbare : ofJson (blob "AQ") = .ok (bytes [1]) := (ofJson_blob "AQ" [1]).1.mpr (by decide)
  refine ⟨hpadded, hbare, (ofJson_blob "AQ==" [1]).2.2.2 "AQ" hpadded hbare, ?_⟩
  refine (ofJson_blob "AR==" []).2.1 fun bs hbs => ?_
  have hdecode := decode_eq_ok_iff.mpr hbs
  revert hdecode
  have hfault : decode "AR==" = .error (.lastSymbol 82 1) := by decide
  rw [hfault]
  rintro ⟨⟩

end SqlConsole.Value
