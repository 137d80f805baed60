import Mathlib.Tactic.SplitIfs
import QueryDigest.Text.Utf8

/-!
The bytes of texts. An ASCII character is one byte with its number, and no byte of any other
character is a number of ASCII, so that what is read in bytes cannot mistake a part of a character
for a mark.
-/

namespace QueryDigest.Utf8

@[simp] theorem encode_nil : encode [] = [] := rfl

theorem encode_append (s t : Text) : encode (s ++ t) = encode s ++ encode t :=
  List.flatMap_append

theorem encode_cons (c : Char) (t : Text) : encode (c :: t) = encodeChar c ++ encode t :=
  List.flatMap_cons

theorem toNat_toUInt8 {n : Nat} (h : n < 256) : n.toUInt8.toNat = n := by
  rw [Nat.toUInt8, UInt8.toNat_ofNat', Nat.mod_eq_of_lt h]

/-- The byte of an ASCII character. -/
def byte (c : Char) : UInt8 :=
  c.toNat.toUInt8

theorem encodeChar_ascii {c : Char} (h : c.toNat < 0x80) : encodeChar c = [byte c] := by
  simp only [encodeChar, if_pos h, byte]

theorem encode_ascii_cons {c : Char} (h : c.toNat < 0x80) (t : Text) :
    encode (c :: t) = byte c :: encode t := by
  rw [encode_cons, encodeChar_ascii h, List.singleton_append]

theorem byte_inj {c d : Char} (hc : c.toNat < 0x80) (hd : d.toNat < 0x80) :
    byte c = byte d ↔ c = d := by
  refine ⟨fun h => ?_, congrArg byte⟩
  have hnat := congrArg UInt8.toNat h
  rw [byte, byte, toNat_toUInt8 (by omega), toNat_toUInt8 (by omega)] at hnat
  exact Char.toNat_inj.mp hnat

theorem encodeChar_ne_nil (c : Char) : encodeChar c ≠ [] := by
  simp only [encodeChar]
  split_ifs <;> exact List.cons_ne_nil _ _

theorem length_encode_pos {t : Text} (h : t ≠ []) : 0 < (encode t).length := by
  obtain ⟨c, t, rfl⟩ := List.exists_cons_of_ne_nil h
  rw [encode_cons, List.length_append]
  exact Nat.add_pos_left (List.length_pos_iff.mpr (encodeChar_ne_nil c)) _

/-- No byte of a character outside ASCII is the byte of an ASCII character. -/
theorem le_of_mem_encodeChar {c : Char} (h : ¬ c.toNat < 0x80) :
    ∀ b ∈ encodeChar c, 0x80 ≤ b.toNat := by
  have hmax : c.toNat < 0x110000 := by
    have hvalid : c.toNat.isValidChar := c.valid
    simp only [Nat.isValidChar] at hvalid
    omega
  have hbyte : ∀ {n : Nat}, 0x80 ≤ n → n < 0x100 → 0x80 ≤ n.toUInt8.toNat := by
    intro n hlow hhigh
    rwa [toNat_toUInt8 hhigh]
  have hlast : ∀ b ∈ [(0x80 + c.toNat % 0x40).toUInt8], 0x80 ≤ b.toNat :=
    List.forall_mem_singleton.mpr (hbyte (by omega) (by omega))
  have hcons : ∀ {n : Nat} {bs : List UInt8}, 0x80 ≤ n → n < 0x100 →
      (∀ b ∈ bs, 0x80 ≤ b.toNat) → ∀ b ∈ n.toUInt8 :: bs, 0x80 ≤ b.toNat := fun hlow hhigh hbs =>
    List.forall_mem_cons.mpr ⟨hbyte hlow hhigh, hbs⟩
  simp only [encodeChar, if_neg h]
  split_ifs
  · exact hcons (by omega) (by omega) hlast
  · exact hcons (by omega) (by omega) (hcons (by omega) (by omega) hlast)
  · exact hcons (by omega) (by omega) (hcons (by omega) (by omega)
      (hcons (by omega) (by omega) hlast))

theorem byte_notMem_encodeChar {c mark : Char} (hc : ¬ c.toNat < 0x80) (hmark : mark.toNat < 0x80) :
    byte mark ∉ encodeChar c := by
  intro hmem
  have hlow := le_of_mem_encodeChar hc _ hmem
  rw [byte, toNat_toUInt8 (by omega)] at hlow
  omega

theorem head?_encode {mark : Char} (hmark : mark.toNat < 0x80) (t : Text) :
    (encode t).head? = some (byte mark) ↔ t.head? = some mark := by
  cases t with
  | nil => simp
  | cons c t =>
      rw [encode_cons]
      by_cases hc : c.toNat < 0x80
      · simp [encodeChar_ascii hc, byte_inj hc hmark]
      · obtain ⟨b, bs, hbytes⟩ := List.exists_cons_of_ne_nil (encodeChar_ne_nil c)
        have hb : b ≠ byte mark := by
          rintro rfl
          exact byte_notMem_encodeChar hc hmark (hbytes ▸ List.mem_cons_self)
        have hmark' : c ≠ mark := by
          rintro rfl
          exact hc hmark
        simp [hbytes, hb, hmark']

end QueryDigest.Utf8
