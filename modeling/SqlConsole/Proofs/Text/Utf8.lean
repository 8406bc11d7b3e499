import Mathlib.Tactic.SplitIfs
import SqlConsole.Text.Utf8

/-!
# Reading UTF-8 back

`decodeLossy` gives back every text from its bytes (`decodeLossy_encode`); replacements stand only
for bytes that are no text.

The first byte of a character tells how many bytes are to come and what the next one may be: it must
not begin a character that fewer bytes would do for, nor one of the code points that are no
character. Each kind of first byte has one lemma (`begin_two`, `begin_three`, `begin_four`), and the
bytes behind it are alike (`decodeFrom_next`, `decodeFrom_last`).

Texts are in the order of their bytes (`encode_lt`): of two characters the one with more bytes is
the greater, and has the greater first byte.
-/

namespace SqlConsole.Text.Utf8

/-! ## One byte -/

/-- A byte that begins a character of several bytes. -/
theorem decodeFrom_lead {b : UInt8} {p : Partial} (h : begin b = ([], some p)) (bs : List UInt8) :
    decodeFrom none (b :: bs) = decodeFrom (some p) bs := by
  rw [decodeFrom, h]
  rfl

/-- A byte behind the first one, with others to come. -/
theorem decodeFrom_next {need low high value : Nat} {b : UInt8}
    (h : low ≤ b.toNat ∧ b.toNat ≤ high) (bs : List UInt8) :
    decodeFrom (some ⟨need + 2, low, high, value⟩) (b :: bs) =
      decodeFrom (some ⟨need + 1, 0x80, 0xBF, value * 0x40 + b.toNat % 0x40⟩) bs := by
  rw [decodeFrom, proceed, if_pos h, if_neg (by simp)]
  rfl

/-- The last byte of a character. -/
theorem decodeFrom_last {low high value : Nat} {b : UInt8}
    (h : low ≤ b.toNat ∧ b.toNat ≤ high) (bs : List UInt8) :
    decodeFrom (some ⟨1, low, high, value⟩) (b :: bs) =
      Char.ofNat (value * 0x40 + b.toNat % 0x40) :: decodeFrom none bs := by
  rw [decodeFrom, proceed, if_pos h, if_pos rfl]
  rfl

theorem toNat_following (n : Nat) : (UInt8.ofNat (n % 64 + 128)).toNat = n % 64 + 128 := by
  rw [UInt8.toNat_ofNat']
  omega

theorem begin_two {n : Nat} (hlow : 2 ≤ n) (hhigh : n < 32) :
    begin (UInt8.ofNat (n + 192)) = ([], some ⟨1, 0x80, 0xBF, n⟩) := by
  have hall : ∀ k : Fin 32, 2 ≤ k.val →
      begin (UInt8.ofNat (k + 192)) = ([], some ⟨1, 0x80, 0xBF, k⟩) := by decide
  exact hall ⟨n, hhigh⟩ hlow

theorem begin_three {n : Nat} (hhigh : n < 16) :
    begin (UInt8.ofNat (n + 224)) =
      ([], some ⟨2, if n = 0 then 0xA0 else 0x80, if n = 13 then 0x9F else 0xBF, n⟩) := by
  have hall : ∀ k : Fin 16, begin (UInt8.ofNat (k + 224)) =
      ([], some ⟨2, if k.val = 0 then 0xA0 else 0x80, if k.val = 13 then 0x9F else 0xBF, k⟩) := by
    decide
  exact hall ⟨n, hhigh⟩

theorem begin_four {n : Nat} (hhigh : n < 5) :
    begin (UInt8.ofNat (n + 240)) =
      ([], some ⟨3, if n = 0 then 0x90 else 0x80, if n = 4 then 0x8F else 0xBF, n⟩) := by
  have hall : ∀ k : Fin 5, begin (UInt8.ofNat (k + 240)) =
      ([], some ⟨3, if k.val = 0 then 0x90 else 0x80, if k.val = 4 then 0x8F else 0xBF, k⟩) := by
    decide
  exact hall ⟨n, hhigh⟩

/-! ## One character -/

section Character

variable {v : Nat} (rest : List UInt8)

theorem decodeFrom_one (h : v < 0x80) :
    decodeFrom none (UInt8.ofNat v :: rest) = Char.ofNat v :: decodeFrom none rest := by
  have hv : (UInt8.ofNat v).toNat = v := by
    rw [UInt8.toNat_ofNat']
    omega
  have hbegin : begin (UInt8.ofNat v) = ([Char.ofNat v], none) := by
    rw [begin, hv]
    exact if_pos h
  rw [decodeFrom, hbegin]
  rfl

theorem decodeFrom_two (hlow : 0x80 ≤ v) (hhigh : v < 0x800) :
    decodeFrom none (UInt8.ofNat (v / 64 % 32 + 192) :: UInt8.ofNat (v % 64 + 128) :: rest) =
      Char.ofNat v :: decodeFrom none rest := by
  have hfirst : v / 64 % 32 = v / 64 := by omega
  have hvalue : v / 64 * 0x40 + (v % 64 + 128) % 0x40 = v := by omega
  rw [hfirst, decodeFrom_lead (begin_two (by omega) (by omega)),
    decodeFrom_last (by rw [toNat_following]; omega), toNat_following, hvalue]

theorem decodeFrom_three (hlow : 0x800 ≤ v) (hhigh : v < 0x10000)
    (hvalid : v < 0xD800 ∨ 0xDFFF < v) :
    decodeFrom none (UInt8.ofNat (v / 4096 % 16 + 224) :: UInt8.ofNat (v / 64 % 64 + 128) ::
      UInt8.ofNat (v % 64 + 128) :: rest) = Char.ofNat v :: decodeFrom none rest := by
  have hfirst : v / 4096 % 16 = v / 4096 := by omega
  have hvalue : (v / 4096 * 0x40 + (v / 64 % 64 + 128) % 0x40) * 0x40 + (v % 64 + 128) % 0x40 =
      v := by omega
  rw [hfirst, decodeFrom_lead (begin_three (by omega)),
    decodeFrom_next (by rw [toNat_following]; split_ifs <;> omega), toNat_following,
    decodeFrom_last (by rw [toNat_following]; omega), toNat_following, hvalue]

theorem decodeFrom_four (hlow : 0x10000 ≤ v) (hhigh : v < 0x110000) :
    decodeFrom none (UInt8.ofNat (v / 262144 % 8 + 240) :: UInt8.ofNat (v / 4096 % 64 + 128) ::
      UInt8.ofNat (v / 64 % 64 + 128) :: UInt8.ofNat (v % 64 + 128) :: rest) =
      Char.ofNat v :: decodeFrom none rest := by
  have hfirst : v / 262144 % 8 = v / 262144 := by omega
  have hvalue : ((v / 262144 * 0x40 + (v / 4096 % 64 + 128) % 0x40) * 0x40 +
      (v / 64 % 64 + 128) % 0x40) * 0x40 + (v % 64 + 128) % 0x40 = v := by omega
  rw [hfirst, decodeFrom_lead (begin_four (by omega)),
    decodeFrom_next (by rw [toNat_following]; split_ifs <;> omega), toNat_following,
    decodeFrom_next (by rw [toNat_following]; omega), toNat_following,
    decodeFrom_last (by rw [toNat_following]; omega), toNat_following, hvalue]

/-- **A character is read back from its bytes**, whatever follows. -/
theorem decodeFrom_encodeChar (c : Char) :
    decodeFrom none (String.utf8EncodeChar c ++ rest) = c :: decodeFrom none rest := by
  have hvalid : c.toNat < 0xD800 ∨ 0xDFFF < c.toNat ∧ c.toNat < 0x110000 := c.valid
  have hc : Char.ofNat c.toNat = c := Char.ofNat_toNat c
  simp only [String.utf8EncodeChar, Char.toNat_val]
  split_ifs with hone htwo hthree
  · exact (decodeFrom_one rest (by omega)).trans (by rw [hc])
  · exact (decodeFrom_two rest (by omega) (by omega)).trans (by rw [hc])
  · exact (decodeFrom_three rest (by omega) (by omega) (by omega)).trans (by rw [hc])
  · exact (decodeFrom_four rest (by omega) (by omega)).trans (by rw [hc])

end Character

/-! ## Texts -/

theorem decodeFrom_encode (cs : List Char) : decodeFrom none (encode cs) = cs := by
  induction cs with
  | nil => rfl
  | cons c cs ih => rw [encode_cons, decodeFrom_encodeChar, ih]

theorem encode_injective {s t : List Char} (h : encode s = encode t) : s = t := by
  rw [← decodeFrom_encode s, h, decodeFrom_encode]

/-- **Every text is read back from its bytes.** -/
theorem decodeLossy_encode (cs : List Char) : decodeLossy (encode cs) = String.ofList cs := by
  rw [decodeLossy, decodeFrom_encode]

/-! ## Order -/

section Order

variable {m n : Nat}

theorem ofNat_lt_iff (hm : m < 256) (hn : n < 256) : UInt8.ofNat m < UInt8.ofNat n ↔ m < n := by
  rw [UInt8.lt_iff_toNat_lt, UInt8.toNat_ofNat', UInt8.toNat_ofNat', Nat.mod_eq_of_lt hm,
    Nat.mod_eq_of_lt hn]

theorem ofNat_eq_iff (hm : m < 256) (hn : n < 256) : UInt8.ofNat m = UInt8.ofNat n ↔ m = n := by
  rw [← UInt8.toNat_inj, UInt8.toNat_ofNat', UInt8.toNat_ofNat', Nat.mod_eq_of_lt hm,
    Nat.mod_eq_of_lt hn]

/-- Characters are in the order of their bytes, whatever follows. -/
theorem encodeChar_lt {c d : Char} (h : c < d) (s t : List UInt8) :
    String.utf8EncodeChar c ++ s < String.utf8EncodeChar d ++ t := by
  have hlt : c.toNat < d.toNat := h
  have hvalid : d.toNat < 0xD800 ∨ 0xDFFF < d.toNat ∧ d.toNat < 0x110000 := d.valid
  have hdiv (k : Nat) : k / 4096 = k / 64 / 64 ∧ k / 262144 = k / 64 / 64 / 64 := by omega
  simp only [String.utf8EncodeChar, Char.toNat_val, (hdiv _).1, (hdiv _).2]
  -- one case for each number of bytes of either character
  split_ifs <;>
    simp (disch := omega) only [List.cons_append, List.cons_lt_cons_iff, ofNat_lt_iff,
      ofNat_eq_iff] <;>
    omega

/-- **Texts are in the order of their bytes.** -/
theorem encode_lt {a b : List Char} (h : a < b) : encode a < encode b := by
  induction h with
  | @nil c cs =>
    obtain ⟨first, bytes, hbytes⟩ := List.exists_cons_of_ne_nil (@String.utf8EncodeChar_ne_nil c)
    rw [encode_nil, encode_cons, hbytes]
    exact List.nil_lt_cons first _
  | rel h =>
    rw [encode_cons, encode_cons]
    exact encodeChar_lt h _ _
  | cons _ ih =>
    rw [encode_cons, encode_cons]
    exact List.append_left_lt ih

end Order

end SqlConsole.Text.Utf8
