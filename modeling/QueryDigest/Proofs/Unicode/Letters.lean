import QueryDigest.Unicode.Blank
import QueryDigest.Unicode.Folding
import QueryDigest.Unicode.Word

/-!
Letters among word characters. Whatever folds to a capital is a word character, so that keywords are
made of word characters in every spelling.
-/

namespace QueryDigest.Unicode

/-- A property of all characters of a text is decided at each of them, not at all characters. -/
instance decidableForall (P : Char → Prop) [DecidablePred P] (t : List Char) :
    Decidable (∀ c ∈ t, P c) :=
  List.decidableBAll P t

theorem ascii_all {P : Char → Prop} (h : ∀ n < 0x80, P (Char.ofNat n)) {c : Char}
    (hc : c.toNat < 0x80) : P c := by
  have hn := h c.toNat hc
  rwa [Char.ofNat_toNat] at hn

theorem toNat_lt_of_isAlpha {c : Char} (h : c.isAlpha = true) : c.toNat < 0x80 := by
  change c.val.toNat < 0x80
  obtain h | h := Bool.or_eq_true_iff.mp h
  · have hle : c.val ≤ 'Z'.val := (of_decide_eq_true h).2
    exact Nat.lt_of_le_of_lt hle (by decide)
  · have hle : c.val ≤ 'z'.val := of_decide_eq_true (Bool.and_eq_true_iff.mp h).2
    exact Nat.lt_of_le_of_lt hle (by decide)

theorem toNat_lt_of_isDigit {c : Char} (h : c.isDigit = true) : c.toNat < 0x80 := by
  have hle : c.val ≤ '9'.val := of_decide_eq_true (Bool.and_eq_true_iff.mp h).2
  exact Nat.lt_of_le_of_lt hle (by decide)

theorem toNat_lt_of_isAlphanum {c : Char} (h : c.isAlphanum = true ∨ c = '_') :
    c.toNat < 0x80 := by
  obtain halphanum | rfl := h
  · obtain halpha | hdigit := Bool.or_eq_true_iff.mp halphanum
    · exact toNat_lt_of_isAlpha halpha
    · exact toNat_lt_of_isDigit hdigit
  · decide

theorem mem_digits_of_isDigit {c : Char} (h : c.isDigit = true) : c ∈ "0123456789".toList :=
  ascii_all (P := fun c => c.isDigit = true → c ∈ "0123456789".toList) (by decide)
    (toNat_lt_of_isDigit h) h

theorem isWord_of_isAlpha {c : Char} (h : c.isAlpha = true) : isWord c = true := by
  simp [isWord, toNat_lt_of_isAlpha h, Char.isAlphanum, h]

theorem isAlpha_of_isUpper_toUpper {c : Char} (h : c.toUpper.isUpper = true) :
    c.isAlpha = true := by
  unfold Char.toUpper at h
  split at h
  · rename_i hlower
    have hlow : c.isLower = true :=
      Bool.and_eq_true_iff.mpr ⟨decide_eq_true hlower.1, decide_eq_true hlower.2⟩
    exact Bool.or_eq_true_iff.mpr (Or.inr hlow)
  · exact Bool.or_eq_true_iff.mpr (Or.inl h)

/-- What holds of ASCII, the long s and the Kelvin sign holds of whatever folds to a capital. -/
theorem letter_all {P : Char → Prop} (hascii : ∀ n < 0x80, P (Char.ofNat n))
    (hlong : P (Char.ofNat 0x17F)) (hkelvin : P (Char.ofNat 0x212A)) {c : Char}
    (h : (foldLetter c).isUpper = true) : P c := by
  by_cases hs : c = Char.ofNat 0x17F
  · rwa [hs]
  · by_cases hk : c = Char.ofNat 0x212A
    · rwa [hk]
    · rw [foldLetter, if_neg hs, if_neg hk] at h
      exact ascii_all hascii (toNat_lt_of_isAlpha (isAlpha_of_isUpper_toUpper h))

theorem isWord_of_isUpper_foldLetter {c : Char} (h : (foldLetter c).isUpper = true) :
    isWord c = true := by
  unfold foldLetter at h
  split at h
  · rename_i hc
    rw [hc]
    decide
  · split at h
    · rename_i hc
      rw [hc]
      decide
    · exact isWord_of_isAlpha (isAlpha_of_isUpper_toUpper h)

theorem isDigit_of_isUpper_foldLetter {c : Char} (h : (foldLetter c).isUpper = true) :
    c.isDigit = false := by
  have hdigits : ∀ n < 0x80, (Char.ofNat n).isDigit = true →
      (foldLetter (Char.ofNat n)).isUpper = false := by
    decide
  refine Bool.eq_false_iff.mpr fun hdigit => ?_
  have hupper := ascii_all (P := fun c => c.isDigit = true → (foldLetter c).isUpper = false)
    hdigits (toNat_lt_of_isDigit hdigit) hdigit
  rw [h] at hupper
  cases hupper

def blankNumbers : List Nat :=
  List.range' 9 5 ++ List.range' 0x2000 11 ++
    [0x20, 0x85, 0xA0, 0x1680, 0x2028, 0x2029, 0x202F, 0x205F, 0x3000]

theorem mem_blankNumbers {c : Char} (h : isBlank c = true) : c.toNat ∈ blankNumbers := by
  simp only [isBlank, Bool.or_eq_true, Bool.and_eq_true, beq_iff_eq, decide_eq_true_eq] at h
  simp only [blankNumbers, List.mem_append, List.mem_range'_1, List.mem_cons, List.not_mem_nil]
  omega

theorem isBlank_of_isWord {c : Char} (h : isWord c = true) : isBlank c = false := by
  have hblanks : ∀ n ∈ blankNumbers, isWord (Char.ofNat n) = false := by decide
  refine Bool.eq_false_iff.mpr fun hblank => ?_
  have hword := hblanks c.toNat (mem_blankNumbers hblank)
  rw [Char.ofNat_toNat, h] at hword
  cases hword

theorem isWord_of_isBlank {c : Char} (h : isBlank c = true) : isWord c = false :=
  Bool.eq_false_iff.mpr fun hword => by
    rw [isBlank_of_isWord hword] at h
    cases h

end QueryDigest.Unicode
