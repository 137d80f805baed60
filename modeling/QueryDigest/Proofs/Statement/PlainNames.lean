import QueryDigest.Proofs.Statement.NameLists

/-!
Plain names: words of ASCII letters, digits and underscores. A plain name is a word to every
pattern, and reads as a keyword just where it is one in another case.
-/

namespace QueryDigest

open Pattern (isWordAt)
open Unicode (foldLetter isWord)

/-- A word of ASCII letters, digits and underscores with at least one letter. -/
structure Text.Plain (t : Text) : Prop where
  chars : ∀ c ∈ t, c.isAlphanum = true ∨ c = '_'
  letter : t.hasLetter = true

namespace Text.Plain

variable {t : Text} (ht : Plain t)

include ht

theorem ascii : ∀ c ∈ t, c.toNat < 0x80 :=
  fun c hc => Unicode.toNat_lt_of_isAlphanum (ht.chars c hc)

theorem word : ∀ c ∈ t, isWord c = true := by
  intro c hc
  have hplain := ht.chars c hc
  simpa [isWord, ht.ascii c hc] using hplain

theorem ne_nil : t ≠ [] := by
  rintro rfl
  cases ht.letter

theorem wordy : TableClause.Wordy t :=
  ⟨ht.ne_nil, ht.word⟩

theorem head : isWordAt t.head? = true := by
  rw [← List.append_nil t]
  exact Text.isWordAt_head? ht.ne_nil ht.word []

theorem fold : t.map foldLetter = t.map Char.toUpper := by
  have hascii : ∀ n < 0x80, foldLetter (Char.ofNat n) = (Char.ofNat n).toUpper := by decide
  apply List.map_congr_left
  intro c hc
  exact Unicode.ascii_all (P := fun c => foldLetter c = c.toUpper) hascii (ht.ascii c hc)

end Text.Plain

/-- A plain word that is in any case none of the reserved words. -/
structure PlainName (reserved : List Text) where
  text : Text
  plain : Text.Plain text
  unreserved : text.map Char.toUpper ∉ reserved

namespace PlainName

variable {reserved : List Text} (name : PlainName reserved)

theorem fold_ne {k : Text} (hk : k ∈ reserved) : name.text.map foldLetter ≠ k := by
  rw [name.plain.fold]
  rintro rfl
  exact name.unreserved hk

end PlainName
end QueryDigest
