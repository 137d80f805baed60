import QueryDigest.Unicode.Blank
import QueryDigest.Unicode.Folding
import QueryDigest.Unicode.Uppercase
import QueryDigest.Unicode.Word

/-!
The capitals of ASCII letters. The classes of characters that patterns are made of, the folding of
keywords and the upper-case form of a text do not see whether an ASCII letter is a capital.
-/

namespace QueryDigest

/-- A text with a capital in the place of each lower-case ASCII letter. -/
def Text.capitals (t : Text) : Text :=
  t.map Char.toUpper

namespace Unicode

theorem toUpper_of_not_ascii {c : Char} (h : ¬ c.toNat < 0x80) : c.toUpper = c := by
  unfold Char.toUpper
  split
  · rename_i hlower
    have hle : c.val ≤ 'z'.val := hlower.2
    exact absurd (Nat.lt_of_le_of_lt (UInt32.le_iff_toNat_le.mp hle) (by decide)) h
  · rfl

/-- What is the same for each ASCII character and its capital is the same for all characters. -/
theorem apply_toUpper {α : Type} {g : Char → α}
    (h : ∀ n < 0x80, g (Char.ofNat n).toUpper = g (Char.ofNat n)) (c : Char) :
    g c.toUpper = g c := by
  by_cases hc : c.toNat < 0x80
  · have hn := h c.toNat hc
    rwa [Char.ofNat_toNat] at hn
  · rw [toUpper_of_not_ascii hc]

@[simp] theorem isBlank_toUpper (c : Char) : isBlank c.toUpper = isBlank c :=
  apply_toUpper (by decide) c

@[simp] theorem isWord_toUpper (c : Char) : isWord c.toUpper = isWord c :=
  apply_toUpper (by decide) c

@[simp] theorem foldLetter_toUpper (c : Char) : foldLetter c.toUpper = foldLetter c :=
  apply_toUpper (by decide) c

theorem isWord_foldLetter (c : Char) : isWord (foldLetter c) = isWord c := by
  unfold foldLetter
  split
  · rename_i hc
    rw [hc]
    decide
  · split
    · rename_i hc
      rw [hc]
      decide
    · exact isWord_toUpper c

@[simp] theorem isDigit_toUpper (c : Char) : c.toUpper.isDigit = c.isDigit :=
  apply_toUpper (g := Char.isDigit) (by decide) c

@[simp] theorem isAlpha_toUpper (c : Char) : c.toUpper.isAlpha = c.isAlpha :=
  apply_toUpper (g := Char.isAlpha) (by decide) c

@[simp] theorem toUpper_toUpper (c : Char) : c.toUpper.toUpper = c.toUpper :=
  apply_toUpper (g := Char.toUpper) (by decide) c

theorem toUpper_of_not_isAlpha {c : Char} (h : c.isAlpha = false) : c.toUpper = c := by
  unfold Char.toUpper
  split
  · rename_i hlower
    have hlow : c.isLower = true :=
      Bool.and_eq_true_iff.mpr ⟨decide_eq_true hlower.1, decide_eq_true hlower.2⟩
    have halpha : c.isAlpha = true := Bool.or_eq_true_iff.mpr (Or.inr hlow)
    rw [h] at halpha
    cases halpha
  · rfl

theorem toUpper_eq_iff {x : Char} (hx : x.isAlpha = false) {c : Char} :
    c.toUpper = x ↔ c = x := by
  constructor
  · rintro rfl
    rw [isAlpha_toUpper] at hx
    exact (toUpper_of_not_isAlpha hx).symm
  · rintro rfl
    exact toUpper_of_not_isAlpha hx

theorem toUpper_beq {x : Char} (hx : x.isAlpha = false) (c : Char) :
    (c.toUpper == x) = (c == x) := by
  rw [Bool.eq_iff_iff, beq_iff_eq, beq_iff_eq, toUpper_eq_iff hx]

theorem toUpper_bne {x : Char} (hx : x.isAlpha = false) (c : Char) :
    (c.toUpper != x) = (c != x) := by
  rw [bne, bne, toUpper_beq hx]

/-! ### Upper case -/

theorem upperChar_toUpper (c : Char) : upperChar c.toUpper = upperChar c :=
  apply_toUpper (by decide) c

theorem upper_capitals (t : Text) : upper (t.map Char.toUpper) = upper t := by
  simp only [upper, List.flatMap_map, upperChar_toUpper]

theorem toUpper_ofNat_of_not_ascii {n : Nat} (h : ¬ n < 0x80) :
    (Char.ofNat n).toUpper = Char.ofNat n := by
  by_cases hn : n.isValidChar
  · apply toUpper_of_not_ascii
    rw [Char.ofNat, dif_pos hn]
    exact h
  · rw [Char.ofNat, dif_neg hn]
    decide

theorem capital_of_image? {r : CaseRun} (hr : r ∈ caseRuns) {n m : Nat}
    (h : r.image? n = some m) : (Char.ofNat m).toUpper = Char.ofNat m := by
  -- The images of a run lie beyond ASCII, or the run is a single letter whose image is a capital.
  have hruns : ∀ r ∈ caseRuns, 0x80 ≤ r.image ∨
      r.first = r.last ∧ (Char.ofNat r.image).toUpper = Char.ofNat r.image := by
    decide +kernel
  unfold CaseRun.image? at h
  split at h
  · rename_i hn
    obtain rfl := Option.some.inj h
    obtain himage | ⟨hsingle, himage⟩ := hruns r hr
    · exact toUpper_ofNat_of_not_ascii (by omega)
    · have hfirst : n - r.first + r.image = r.image := by omega
      rw [hfirst, himage]
  · cases h

theorem capitals_upperChar (c : Char) : (upperChar c).map Char.toUpper = upperChar c := by
  unfold upperChar
  split
  · rw [List.map_singleton, toUpper_toUpper]
  · rename_i hascii
    cases hlong : longUppercases.lookup c.toNat with
    | some form =>
        have hforms : ∀ entry ∈ longUppercases,
            (entry.2.map Char.ofNat).map Char.toUpper = entry.2.map Char.ofNat := by
          decide
        obtain ⟨l, r, hentry, _⟩ := List.lookup_eq_some_iff.mp hlong
        exact hforms (c.toNat, form) (hentry ▸ List.mem_append_right _ List.mem_cons_self)
    | none =>
        cases hrun : caseRuns.findSome? (·.image? c.toNat) with
        | some n =>
            obtain ⟨r, hr, himage⟩ := List.exists_of_findSome?_eq_some hrun
            change [(Char.ofNat n).toUpper] = [Char.ofNat n]
            rw [capital_of_image? hr himage]
        | none =>
            change [c.toUpper] = [c]
            rw [toUpper_of_not_ascii hascii]

/-- A text without lower-case ASCII letters. -/
def Raised (t : Text) : Prop :=
  ∀ c ∈ t, c.toUpper = c

instance : DecidablePred Raised :=
  fun t => inferInstanceAs (Decidable (∀ c ∈ t, c.toUpper = c))

theorem Raised.capitals {t : Text} (h : Raised t) : t.map Char.toUpper = t :=
  (List.map_congr_left h).trans (List.map_id t)

theorem Raised.capitals_append {s : Text} (h : Raised s) (t : Text) :
    (s ++ t).map Char.toUpper = s ++ t.map Char.toUpper := by
  rw [List.map_append, h.capitals]

theorem raised_upper (t : Text) : Raised (upper t) := by
  intro c hc
  obtain ⟨d, _, hd⟩ := List.mem_flatMap.mp hc
  have hform : (upperChar d).map Char.toUpper = (upperChar d).map id := by
    rw [capitals_upperChar, List.map_id]
  exact List.map_inj_left.mp hform c hd

end Unicode
end QueryDigest
