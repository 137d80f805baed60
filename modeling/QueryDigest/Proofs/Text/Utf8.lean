import QueryDigest.Proofs.Log.Decoding
import QueryDigest.Proofs.Text.Utf8Bytes

/-!
Decoding undoes encoding. The bytes of a character are followed one after the other: the first one
awaits as many as there are, each further one lies in its interval, and the last one completes the
number of the character.
-/

namespace QueryDigest.Utf8

namespace Lead

theorem ofByte_eq {n : Nat} (h : n < 256) :
    ofByte n.toUInt8 =
      if n < 0x80 then .single (Char.ofNat n)
      else if n < 0xC2 then .stray
      else if n < 0xE0 then .sequence ⟨n - 0xC0, 0x80, 0xBF, 0⟩
      else if n = 0xE0 then .sequence ⟨0, 0xA0, 0xBF, 1⟩
      else if n = 0xED then .sequence ⟨0xD, 0x80, 0x9F, 1⟩
      else if n < 0xF0 then .sequence ⟨n - 0xE0, 0x80, 0xBF, 1⟩
      else if n = 0xF0 then .sequence ⟨0, 0x90, 0xBF, 2⟩
      else if n < 0xF4 then .sequence ⟨n - 0xF0, 0x80, 0xBF, 2⟩
      else if n = 0xF4 then .sequence ⟨4, 0x80, 0x8F, 2⟩
      else .stray := by
  have hn := toNat_toUInt8 h
  have hlt (k : UInt8) : n.toUInt8 < k ↔ n < k.toNat := by rw [UInt8.lt_iff_toNat_lt, hn]
  have heq (k : UInt8) : (n.toUInt8 == k) = true ↔ n = k.toNat := by
    rw [beq_iff_eq, ← UInt8.toNat_inj, hn]
  simp only [ofByte, hlt, heq, hn, UInt8.reduceToNat]

/-- A first byte that carries `value`: the next byte may carry the six bits `x`, and `more` bytes
are awaited behind that one. -/
def Starts (b : UInt8) (value x more : Nat) : Prop :=
  ∃ low high : UInt8, ofByte b = .sequence ⟨value, low, high, more⟩ ∧
    low.toNat ≤ 0x80 + x ∧ 0x80 + x ≤ high.toNat

variable {n : Nat}

theorem starts_two (hlow : 0x80 ≤ n) (hhigh : n < 0x800) :
    Starts (0xC0 + n / 0x40).toUInt8 (n / 0x40) (n % 0x40) 0 := by
  refine ⟨0x80, 0xBF, ?_, by simp, by simp; omega⟩
  rw [ofByte_eq (by omega), if_neg (by omega), if_neg (by omega), if_pos (by omega),
    Nat.add_sub_cancel_left]

theorem starts_three (hn : n.isValidChar) (hlow : 0x800 ≤ n) (hhigh : n < 0x10000) :
    Starts (0xE0 + n / 0x1000).toUInt8 (n / 0x1000) (n / 0x40 % 0x40) 1 := by
  simp only [Nat.isValidChar] at hn
  rw [Starts, ofByte_eq (by omega), if_neg (by omega), if_neg (by omega), if_neg (by omega)]
  by_cases h0 : n / 0x1000 = 0
  · exact ⟨0xA0, 0xBF, by rw [if_pos (by omega), h0], by simp; omega, by simp; omega⟩
  by_cases hD : n / 0x1000 = 0xD
  · exact ⟨0x80, 0x9F, by rw [if_neg (by omega), if_pos (by omega), hD], by simp, by simp; omega⟩
  · refine ⟨0x80, 0xBF, ?_, by simp, by simp; omega⟩
    rw [if_neg (by omega), if_neg (by omega), if_pos (by omega), Nat.add_sub_cancel_left]

theorem starts_four (hn : n.isValidChar) (hlow : 0x10000 ≤ n) :
    Starts (0xF0 + n / 0x40000).toUInt8 (n / 0x40000) (n / 0x1000 % 0x40) 2 := by
  simp only [Nat.isValidChar] at hn
  rw [Starts, ofByte_eq (by omega), if_neg (by omega), if_neg (by omega), if_neg (by omega),
    if_neg (by omega), if_neg (by omega), if_neg (by omega)]
  by_cases h0 : n / 0x40000 = 0
  · exact ⟨0x90, 0xBF, by rw [if_pos (by omega), h0], by simp; omega, by simp; omega⟩
  by_cases h4 : n / 0x40000 = 4
  · refine ⟨0x80, 0x8F, ?_, by simp, by simp; omega⟩
    rw [if_neg (by omega), if_neg (by omega), if_pos (by omega), h4]
  · refine ⟨0x80, 0xBF, ?_, by simp, by simp; omega⟩
    rw [if_neg (by omega), if_pos (by omega), Nat.add_sub_cancel_left]

end Lead

/-! ### Further bytes -/

section

variable {value x more : Nat} {low high : UInt8} (rest : List UInt8) (hx : x < 0x40)
  (hlow : low.toNat ≤ 0x80 + x) (hhigh : 0x80 + x ≤ high.toNat)

include hx hlow hhigh

theorem further_byte :
    (0x80 + x).toUInt8.toNat = 0x80 + x ∧ low ≤ (0x80 + x).toUInt8 ∧ (0x80 + x).toUInt8 ≤ high := by
  have hb : (0x80 + x).toUInt8.toNat = 0x80 + x := toNat_toUInt8 (by omega)
  rw [UInt8.le_iff_toNat_le, UInt8.le_iff_toNat_le, hb]
  exact ⟨rfl, hlow, hhigh⟩

theorem decodeFrom_last :
    decodeFrom [] (some ⟨value, low, high, 0⟩) ((0x80 + x).toUInt8 :: rest) =
      Char.ofNat (value * 0x40 + x) :: decode rest := by
  obtain ⟨hb, hwithin⟩ := further_byte hx hlow hhigh
  rw [decodeFrom_cons, step, if_pos hwithin, hb, Nat.add_sub_cancel_left]
  rfl

theorem decodeFrom_next :
    decodeFrom [] (some ⟨value, low, high, more + 1⟩) ((0x80 + x).toUInt8 :: rest) =
      decodeFrom [] (some ⟨value * 0x40 + x, 0x80, 0xBF, more⟩) rest := by
  obtain ⟨hb, hwithin⟩ := further_byte hx hlow hhigh
  rw [decodeFrom_cons, step, if_pos hwithin, hb, Nat.add_sub_cancel_left]
  rfl

end

theorem decodeFrom_lead {b : UInt8} {p : Pending} (h : Lead.ofByte b = .sequence p)
    (rest : List UInt8) : decodeFrom [] none (b :: rest) = decodeFrom [] (some p) rest := by
  rw [decodeFrom_cons]
  simp [step, begin, h]

/-- The bytes of a character are decoded as that character, whatever follows them. -/
theorem decode_encodeChar (c : Char) (rest : List UInt8) :
    decode (encodeChar c ++ rest) = c :: decode rest := by
  have hvalid : c.toNat.isValidChar := c.valid
  have hnumber {m : Nat} (hm : m = c.toNat) : Char.ofNat m = c := hm ▸ Char.ofNat_toNat c
  simp only [encodeChar, decode]
  split
  · rename_i h
    rw [List.singleton_append, decodeFrom_cons]
    simp only [step, begin, Lead.ofByte_eq (Nat.lt_trans h (by decide)), if_pos h, hnumber rfl]
    rfl
  split
  · obtain ⟨low, high, hlead, hlow, hhigh⟩ := Lead.starts_two (n := c.toNat) (by omega) (by omega)
    rw [List.cons_append, decodeFrom_lead hlead, List.singleton_append,
      decodeFrom_last rest (by omega) hlow hhigh, hnumber (by omega), decode]
  split
  · obtain ⟨low, high, hlead, hlow, hhigh⟩ := Lead.starts_three hvalid (by omega) (by omega)
    simp only [List.cons_append, List.nil_append]
    rw [decodeFrom_lead hlead, decodeFrom_next _ (by omega) hlow hhigh,
      decodeFrom_last rest (by omega) (by simp) (by simp; omega), hnumber (by omega), decode]
  · obtain ⟨low, high, hlead, hlow, hhigh⟩ := Lead.starts_four hvalid (by omega)
    simp only [List.cons_append, List.nil_append]
    rw [decodeFrom_lead hlead, decodeFrom_next _ (by omega) hlow hhigh,
      decodeFrom_next _ (by omega) (by simp) (by simp; omega),
      decodeFrom_last rest (by omega) (by simp) (by simp; omega), hnumber (by omega), decode]

theorem decode_encode (t : Text) : decode (encode t) = t := by
  induction t with
  | nil => rfl
  | cons c t ih => rw [encode, List.flatMap_cons, ← encode, decode_encodeChar, ih]

end QueryDigest.Utf8
