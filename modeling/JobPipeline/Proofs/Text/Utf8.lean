import JobPipeline.Text.Utf8
import Mathlib

/-!
# Text survives its bytes

What `encode` writes `decode` reads back (`decode_encode`). A character is one byte that leads and
the bytes that follow; `lead_ofNat` gives the state a leading byte puts the decoder in, and
`decodeFrom_last` and `decodeFrom_more` take it through the others, each of which carries six bits.
-/

namespace JobPipeline.Utf8

/-- A leading byte, read off its number. -/
theorem lead_ofNat {n : Nat} (h : n < 256) :
    lead (.ofNat n) =
      if n < 0x80 then ([.char (Char.ofNat n)], .between)
      else if n < 0xC2 then ([.broken], .between)
      else if n < 0xE0 then ([], .inside 0 0x80 0xBF (n - 0xC0))
      else if n = 0xE0 then ([], .inside 1 0xA0 0xBF 0)
      else if n = 0xED then ([], .inside 1 0x80 0x9F 0xD)
      else if n < 0xF0 then ([], .inside 1 0x80 0xBF (n - 0xE0))
      else if n = 0xF0 then ([], .inside 2 0x90 0xBF 0)
      else if n < 0xF4 then ([], .inside 2 0x80 0xBF (n - 0xF0))
      else if n = 0xF4 then ([], .inside 2 0x80 0x8F 4)
      else ([.broken], .between) := by
  simp only [lead, UInt8.lt_iff_toNat_lt, ← UInt8.toNat_inj, UInt8.toNat_ofNat_of_lt' h]
  rfl

theorem decodeFrom_lead {b : UInt8} {state : State} (h : lead b = ([], state))
    (rest : List UInt8) : decodeFrom .between (b :: rest) = decodeFrom state rest := by
  simp only [decodeFrom, h, List.nil_append]

section
variable {left acc x : Nat} {lo hi : UInt8}

/-- A byte that follows a leading one holds six bits and its mark. -/
theorem follows (hx : x < 64) (low : lo.toNat ≤ x + 0x80) (high : x + 0x80 ≤ hi.toNat) :
    (lo ≤ .ofNat (x + 0x80) ∧ .ofNat (x + 0x80) ≤ hi) ∧
      (UInt8.ofNat (x + 0x80)).toNat = x + 0x80 := by
  have hn : (UInt8.ofNat (x + 0x80)).toNat = x + 0x80 :=
    UInt8.toNat_ofNat_of_lt' (by show x + 0x80 < 256; omega)
  rw [UInt8.le_iff_toNat_le, UInt8.le_iff_toNat_le, hn]
  exact ⟨⟨low, high⟩, rfl⟩

theorem decodeFrom_last (hx : x < 64) (low : lo.toNat ≤ x + 0x80) (high : x + 0x80 ≤ hi.toNat)
    (rest : List UInt8) :
    decodeFrom (.inside 0 lo hi acc) (.ofNat (x + 0x80) :: rest) =
      .char (Char.ofNat (acc * 64 + x)) :: decodeFrom .between rest := by
  obtain ⟨within, hn⟩ := follows hx low high
  simp only [decodeFrom, if_pos within, hn, Nat.add_sub_cancel]

theorem decodeFrom_more (hx : x < 64) (low : lo.toNat ≤ x + 0x80) (high : x + 0x80 ≤ hi.toNat)
    (rest : List UInt8) :
    decodeFrom (.inside (left + 1) lo hi acc) (.ofNat (x + 0x80) :: rest) =
      decodeFrom (.inside left 0x80 0xBF (acc * 64 + x)) rest := by
  obtain ⟨within, hn⟩ := follows hx low high
  simp only [decodeFrom, if_pos within, hn, Nat.add_sub_cancel]

end

/-! ## One character -/

/-- The leading byte of a character of two bytes. -/
theorem lead_two {v : Nat} (low : 0x80 ≤ v) (high : v < 0x800) :
    lead (.ofNat (v / 64 % 0x20 + 0xC0)) = ([], .inside 0 0x80 0xBF (v / 64)) := by
  have bits : v / 64 % 0x20 + 0xC0 - 0xC0 = v / 64 := by omega
  rw [lead_ofNat (by omega), if_neg (by omega), if_neg (by omega), if_pos (by omega), bits]

/-- The leading byte of a character of three bytes. The bounds on the byte behind it shut out the
characters that two bytes are enough for, and the surrogates. -/
theorem lead_three {v : Nat} (low : 0x800 ≤ v) (high : v < 0x10000)
    (scalar : v < 0xD800 ∨ 0xDFFF < v) :
    ∃ lo hi, lead (.ofNat (v / 4096 % 0x10 + 0xE0)) = ([], .inside 1 lo hi (v / 4096)) ∧
      lo.toNat ≤ v / 64 % 0x40 + 0x80 ∧ v / 64 % 0x40 + 0x80 ≤ hi.toNat := by
  have made {lo hi : UInt8} {acc : Nat} (h : acc = v / 4096)
      (fits : lo.toNat ≤ v / 64 % 0x40 + 0x80 ∧ v / 64 % 0x40 + 0x80 ≤ hi.toNat) :
      ∃ lo' hi', (([], .inside 1 lo hi acc) : List Symbol × State) =
        ([], .inside 1 lo' hi' (v / 4096)) ∧ lo'.toNat ≤ v / 64 % 0x40 + 0x80 ∧
        v / 64 % 0x40 + 0x80 ≤ hi'.toNat := ⟨lo, hi, by rw [h], fits⟩
  rw [lead_ofNat (by omega), if_neg (by omega), if_neg (by omega), if_neg (by omega)]
  split_ifs
  · exact made (by omega) ⟨by simp; omega, by simp; omega⟩
  · exact made (by omega) ⟨by simp, by simp; omega⟩
  · exact made (by omega) ⟨by simp, by simp; omega⟩
  all_goals omega

/-- The leading byte of a character of four bytes. -/
theorem lead_four {v : Nat} (low : 0x10000 ≤ v) (high : v < 0x110000) :
    ∃ lo hi, lead (.ofNat (v / 262144 % 0x08 + 0xF0)) = ([], .inside 2 lo hi (v / 262144)) ∧
      lo.toNat ≤ v / 4096 % 0x40 + 0x80 ∧ v / 4096 % 0x40 + 0x80 ≤ hi.toNat := by
  have made {lo hi : UInt8} {acc : Nat} (h : acc = v / 262144)
      (fits : lo.toNat ≤ v / 4096 % 0x40 + 0x80 ∧ v / 4096 % 0x40 + 0x80 ≤ hi.toNat) :
      ∃ lo' hi', (([], .inside 2 lo hi acc) : List Symbol × State) =
        ([], .inside 2 lo' hi' (v / 262144)) ∧ lo'.toNat ≤ v / 4096 % 0x40 + 0x80 ∧
        v / 4096 % 0x40 + 0x80 ≤ hi'.toNat := ⟨lo, hi, by rw [h], fits⟩
  rw [lead_ofNat (by omega), if_neg (by omega), if_neg (by omega), if_neg (by omega),
    if_neg (by omega), if_neg (by omega), if_neg (by omega)]
  split_ifs
  · exact made (by omega) ⟨by simp; omega, by simp; omega⟩
  · exact made (by omega) ⟨by simp, by simp; omega⟩
  · exact made (by omega) ⟨by simp, by simp; omega⟩
  all_goals omega

theorem decodeFrom_encodeChar (c : Char) (rest : List UInt8) :
    decodeFrom .between (String.utf8EncodeChar c ++ rest) =
      .char c :: decodeFrom .between rest := by
  have scalar : c.toNat < 0xD800 ∨ 0xDFFF < c.toNat ∧ c.toNat < 0x110000 := c.valid
  have same {n : Nat} (h : n = c.toNat) : Char.ofNat n = c := by rw [h, Char.ofNat_toNat]
  have bits {n : Nat} : n % 0x40 < 64 := Nat.mod_lt _ (by decide)
  have low {n : Nat} : UInt8.toNat 0x80 ≤ n + 0x80 := by simp
  have high {n : Nat} : n % 0x40 + 0x80 ≤ UInt8.toNat 0xBF := by simp; omega
  simp only [String.utf8EncodeChar]
  rw [show c.val.toNat = c.toNat from rfl]
  generalize c.toNat = v at *
  split_ifs
  · simp only [List.cons_append, List.nil_append, decodeFrom,
      lead_ofNat (show v < 256 by omega), if_pos (show v < 0x80 by omega), same rfl]
  · simp only [List.cons_append, List.nil_append]
    rw [decodeFrom_lead (lead_two (by omega) (by omega)), decodeFrom_last bits low high,
      same (by omega)]
  · obtain ⟨lo, hi, lead, low', high'⟩ :=
      lead_three (v := v) (by omega) (by omega) (scalar.imp_right And.left)
    simp only [List.cons_append, List.nil_append]
    rw [decodeFrom_lead lead, decodeFrom_more bits low' high', decodeFrom_last bits low high,
      same (by omega)]
  · obtain ⟨lo, hi, lead, low', high'⟩ := lead_four (v := v) (by omega) (by omega)
    simp only [List.cons_append, List.nil_append]
    rw [decodeFrom_lead lead, decodeFrom_more bits low' high', decodeFrom_more bits low high,
      decodeFrom_last bits low high, same (by omega)]

/-! ## A text -/

theorem toList_loop (bs : ByteArray) (i : Nat) (passed : List UInt8) :
    ByteArray.toList.loop bs i passed = passed.reverse ++ bs.data.toList.drop i := by
  fun_induction ByteArray.toList.loop bs i passed with
  | case1 i passed h ih =>
    have there : i < bs.data.toList.length := by simpa using h
    have byte : bs.get! i = bs.data[i] := getElem!_pos bs.data i h
    rw [ih, List.drop_eq_getElem_cons there, List.reverse_cons, List.append_assoc, byte]
    rfl
  | case2 i passed h =>
    have beyond : bs.data.toList.length ≤ i := by simpa using h
    rw [List.drop_eq_nil_of_le beyond, List.append_nil]

theorem encode_eq (s : String) : encode s = s.toList.flatMap String.utf8EncodeChar := by
  have bytes : s.toUTF8 = (s.toList.flatMap String.utf8EncodeChar).toByteArray :=
    s.utf8Encode_toList.symm
  rw [encode, bytes, ByteArray.toList, toList_loop]
  simp

/-- **What is written is read back**, no symbol of it broken. -/
theorem decode_encode (s : String) : decode (encode s) = symbols s := by
  rw [decode, encode_eq, symbols]
  induction s.toList with
  | nil => rfl
  | cons c cs ih => rw [List.flatMap_cons, decodeFrom_encodeChar, ih, List.map_cons]

theorem chars?_symbols (s : String) : chars? (symbols s) = some s.toList := by
  rw [symbols]
  induction s.toList with
  | nil => rfl
  | cons c cs ih => rw [List.map_cons, chars?, ih, Option.map_some]

/-- The bytes of a text spell it. -/
theorem text?_encode (s : String) : text? (encode s) = some s := by
  rw [text?, decode_encode, chars?_symbols, Option.map_some, String.ofList_toList]

end JobPipeline.Utf8
