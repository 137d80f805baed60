import QueryDigest.Json.Printer
import QueryDigest.Json.Reader

/-!
Strings and numbers are read back as they were written. An escape stands for the character it was
made of, and a number up to the largest word is taken digit by digit without overflow.
-/

namespace QueryDigest

namespace Decimal

theorem isDigit_digit (n : Nat) : (digit n).isDigit = true := by
  have h : ∀ d < 10, (Char.ofNat (48 + d)).isDigit = true := by decide
  exact h _ (Nat.mod_lt _ (by decide))

theorem value?_digit (n : Nat) : value? (digit n) = some (n % 10) := by
  have h : ∀ d < 10, value? (Char.ofNat (48 + d)) = some d := by decide
  exact h _ (Nat.mod_lt _ (by decide))

/-- The numbers that the digits of a number stand for. -/
def digits (n : Nat) : List Nat :=
  (render n).filterMap value?

theorem digits_eq (n : Nat) :
    digits n = if n < 10 then [n] else digits (n / 10) ++ [n % 10] := by
  rw [digits, render]
  split
  · rename_i h
    simp [value?_digit, Nat.mod_eq_of_lt h]
  · rw [List.filterMap_append, List.filterMap_cons, value?_digit]
    rfl

/-- The number that digits spell behind a number that stands before them. -/
def spelled (high : Nat) : List Nat → Nat
  | [] => high
  | d :: ds => spelled (high * 10 + d) ds

theorem spelled_append (high : Nat) (ds es : List Nat) :
    spelled high (ds ++ es) = spelled (spelled high ds) es := by
  induction ds generalizing high with
  | nil => rfl
  | cons d ds ih => exact ih _

theorem isDigit_of_mem_render {n : Nat} {c : Char} (h : c ∈ render n) : c.isDigit = true := by
  induction n using render.induct with
  | case1 n hn =>
      rw [render, if_pos hn, List.mem_singleton] at h
      exact h ▸ isDigit_digit n
  | case2 n hn ih =>
      rw [render, if_neg hn, List.mem_append, List.mem_singleton] at h
      exact h.elim ih fun hc => hc ▸ isDigit_digit n

theorem spelled_digits (n : Nat) : spelled 0 (digits n) = n := by
  induction n using render.induct with
  | case1 n hn => rw [digits_eq, if_pos hn]; simp [spelled]
  | case2 n hn ih =>
      rw [digits_eq, if_neg hn, spelled_append, ih, spelled, spelled]
      omega

/-- There is a first digit, and it is zero only if it stands alone. -/
theorem digits_eq_cons (n : Nat) : ∃ d ds, digits n = d :: ds ∧ (d = 0 → ds = []) := by
  induction n using render.induct with
  | case1 n hn => exact ⟨n, [], by rw [digits_eq, if_pos hn], fun _ => rfl⟩
  | case2 n hn ih =>
      obtain ⟨d, ds, heq, hzero⟩ := ih
      refine ⟨d, ds ++ [n % 10], by rw [digits_eq, if_neg hn, heq]; rfl, fun hd => ?_⟩
      have hn' := spelled_digits (n / 10)
      rw [heq, hd, hzero hd] at hn'
      simp [spelled] at hn'
      omega

theorem render_eq_cons (n : Nat) : ∃ c t, render n = c :: t ∧ c.isDigit = true := by
  obtain ⟨d, ds, hdigits, -⟩ := digits_eq_cons n
  cases hrender : render n with
  | nil =>
      rw [digits, hrender] at hdigits
      cases hdigits
  | cons c t => exact ⟨c, t, rfl, isDigit_of_mem_render (hrender ▸ List.mem_cons_self)⟩

theorem le_spelled (high : Nat) (ds : List Nat) : high ≤ spelled high ds := by
  induction ds generalizing high with
  | nil => exact Nat.le_refl high
  | cons d ds ih => exact Nat.le_trans (by omega) (ih (high * 10 + d))

end Decimal

namespace Json

open Decimal (digits spelled render)

theorem Number.spanDigits_append {t rest : Text} (ht : ∀ c ∈ t, c.isDigit = true)
    (hrest : ∀ c ∈ rest.head?, c.isDigit = false) :
    spanDigits (t ++ rest) = (t.filterMap Decimal.value?, rest) := by
  have hnone : rest.takeWhile Char.isDigit = [] ∧ rest.dropWhile Char.isDigit = rest := by
    cases rest with
    | nil => exact ⟨rfl, rfl⟩
    | cons c rest =>
        have hc : c.isDigit = false := hrest c rfl
        simp [hc]
  rw [spanDigits, List.takeWhile_append_of_pos ht, List.dropWhile_append_of_pos ht, hnone.1,
    hnone.2, List.append_nil]

theorem Number.absorb_eq {ds : List Nat} {high : Nat} (h : spelled high ds ≤ Decimal.maxWord)
    (taken : Nat) : absorb high taken ds = (spelled high ds, taken + ds.length, 0) := by
  induction ds generalizing high taken with
  | nil => rfl
  | cons d ds ih =>
      have hle := Nat.le_trans (Decimal.le_spelled (high * 10 + d) ds) h
      rw [absorb, if_pos hle, ih h, spelled, List.length_cons, Nat.add_assoc, Nat.add_comm 1]

theorem Number.read_of_isDigit {c : Char} (hc : c.isDigit = true) (t : Text) :
    read (c :: t) = unsigned (c :: t) := by
  unfold read
  split
  · rename_i heq
    rw [List.cons.injEq] at heq
    rw [heq.1] at hc
    cases hc
  · rfl

/-- What follows a number: a comma, or the closing brace of the object it stands in. -/
def EndsNumber (rest : Text) : Prop :=
  ∃ c t, rest = c :: t ∧ (c = ',' ∨ c = '\x7d')

theorem Number.unsigned_render {n : Nat} (h : n ≤ Decimal.maxWord) {rest : Text}
    (hrest : EndsNumber rest) : unsigned (render n ++ rest) = .ok (some n, rest) := by
  obtain ⟨c, t, rfl, hc⟩ := hrest
  have hend : ∀ x ∈ (c :: t).head?, x.isDigit = false := by
    rintro x ⟨⟩
    rcases hc with rfl | rfl <;> rfl
  have hspan : spanDigits (render n ++ c :: t) = (digits n, c :: t) :=
    spanDigits_append (fun _ => Decimal.isDigit_of_mem_render) hend
  have habsorb := absorb_eq (Nat.le_trans (Nat.le_of_eq (Decimal.spelled_digits n)) h) 0
  rw [Decimal.spelled_digits] at habsorb
  have hafter : afterInteger n 0 (c :: t) = .ok (some n, c :: t) := by
    rcases hc with rfl | rfl <;> rfl
  obtain ⟨d, ds, hdigits, hzero⟩ := Decimal.digits_eq_cons n
  rw [hdigits] at hspan habsorb
  unfold unsigned
  rw [hspan]
  split
  · cases ‹_ = _›
  · cases ‹_ = _›
  · rename_i heq
    rw [Prod.mk.injEq, List.cons.injEq] at heq
    cases heq.1.2.symm.trans (hzero heq.1.1)
  · rename_i heq
    cases heq
    rw [habsorb]
    exact hafter

theorem Number.read_render {n : Nat} (h : n ≤ Decimal.maxWord) {rest : Text}
    (hrest : EndsNumber rest) : read (render n ++ rest) = .ok (some n, rest) := by
  obtain ⟨c, t, hrender, hc⟩ := Decimal.render_eq_cons n
  rw [hrender, List.cons_append, read_of_isDigit hc, ← List.cons_append, ← hrender,
    unsigned_render h hrest]

theorem hexQuad?_hexDigit {n : Nat} (h : n < 0x20) :
    hexQuad? '0' '0' (hexDigit (n / 16)) (hexDigit (n % 16)) = some n := by
  have hall : ∀ m < 0x20,
      hexQuad? '0' '0' (hexDigit (m / 16)) (hexDigit (m % 16)) = some m := by decide
  exact hall n h

theorem stringFrom_plain (strict : Bool) (done : Text) {c : Char} (hquote : c ≠ '"')
    (hescape : c ≠ '\\') (hlarge : ¬ c.toNat < 0x20) (rest : Text) :
    stringFrom strict done (c :: rest) = stringFrom strict (c :: done) rest := by
  rw [stringFrom, if_neg hlarge]
  · exact hquote
  -- All other patterns start with a backslash.
  all_goals
    intros
    exact hescape ‹c = '\\'›

/-- A character in a string, escaped or as it is, is read as that character. -/
theorem stringFrom_escapeChar (strict : Bool) (done : Text) (c : Char) (rest : Text) :
    stringFrom strict done (escapeChar c ++ rest) = stringFrom strict (c :: done) rest := by
  unfold escapeChar
  split
  · rename_i h
    rcases h with rfl | rfl <;> rfl
  split
  · rename_i h; subst h; rfl
  split
  · rename_i h; subst h; rfl
  split
  · rename_i h; subst h; rfl
  split
  · rename_i h; subst h; rfl
  split
  · rename_i h; subst h; rfl
  split
  · rename_i h
    have hlead : isLeading c.toNat = false := by simp [isLeading]; omega
    have htrail : isTrailing c.toNat = false := by simp [isTrailing]; omega
    simp only [List.cons_append, List.nil_append]
    rw [stringFrom.eq_def]
    simp [hexQuad?_hexDigit h, hlead, htrail]
  · rename_i hquote _ _ _ _ _ hlarge
    rw [not_or] at hquote
    exact stringFrom_plain strict done hquote.1 hquote.2 hlarge rest

/-- A quoted text is read back behind its opening quote. -/
theorem stringFrom_quoted (strict : Bool) (done t rest : Text) :
    stringFrom strict done (t.flatMap escapeChar ++ '"' :: rest) =
      .ok (done.reverse ++ t, rest) := by
  induction t generalizing done with
  | nil => simp [stringFrom]
  | cons c t ih =>
      rw [List.flatMap_cons, List.append_assoc, stringFrom_escapeChar, ih, List.reverse_cons,
        List.append_assoc, List.singleton_append]

end Json
end QueryDigest
