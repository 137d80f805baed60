import QueryDigest.Proofs.Pattern.Letterwise
import QueryDigest.Proofs.Unicode.LetterCase

/-!
Patterns that ignore letter case: those built from keywords, from classes that hold both forms of a
letter or neither, and from fixed text without letters.
-/

namespace QueryDigest.Pattern

open Unicode (toUpper_beq toUpper_bne)

variable {f : Char → Char}

@[simp] theorem ignores_append (p q : Pattern) : (p ++ q).Ignores f ↔ p.Ignores f ∧ q.Ignores f :=
  Iff.rfl

@[simp] theorem ignores_or (p q : Pattern) : (p ||| q).Ignores f ↔ p.Ignores f ∧ q.Ignores f :=
  Iff.rfl

@[simp] theorem ignores_group (p : Pattern) : (Pattern.group p).Ignores f ↔ p.Ignores f :=
  Iff.rfl

@[simp] theorem ignores_many (p : Pattern) : (Pattern.many p).Ignores f ↔ p.Ignores f :=
  Iff.rfl

@[simp] theorem ignores_optional (p : Pattern) : (optional p).Ignores f ↔ p.Ignores f :=
  ⟨fun h => h.1, fun h => ⟨h, trivial⟩⟩

@[simp] theorem ignores_one (ok : Char → Bool) :
    (Pattern.one ok).Ignores f ↔ ∀ c, ok (f c) = ok c :=
  Iff.rfl

@[simp] theorem ignores_allOf (ok : Char → Bool) :
    (allOf ok).Ignores f ↔ ∀ c, ok (f c) = ok c :=
  Iff.rfl

@[simp] theorem ignores_asMany (ok : Char → Bool) :
    (asMany ok).Ignores f ↔ ∀ c, ok (f c) = ok c :=
  Iff.rfl

@[simp] theorem ignores_asFew (ok : Char → Bool) :
    (asFew ok).Ignores f ↔ ∀ c, ok (f c) = ok c :=
  Iff.rfl

@[simp] theorem ignores_someOf (ok : Char → Bool) :
    (someOf ok).Ignores f ↔ ∀ c, ok (f c) = ok c :=
  and_self_iff

@[simp] theorem ignores_textStart : textStart.Ignores f := by
  intro before after
  simp

theorem ignores_anyOf {ps : List Pattern} (h : ∀ p ∈ ps, p.Ignores f) : (anyOf ps).Ignores f := by
  induction ps with
  | nil =>
      intro _ _
      rfl
  | cons p rest ih =>
      have hp : p.Ignores f := h p List.mem_cons_self
      cases rest with
      | nil => exact hp
      | cons q rest => exact ⟨hp, ih fun r hr => h r (List.mem_cons_of_mem p hr)⟩

/-! ### Letter case -/

@[simp] theorem ignores_char {x : Char} (hx : x.isAlpha = false) :
    (char x).Ignores Char.toUpper :=
  toUpper_beq hx

@[simp] theorem ignores_exactly {t : Text} (ht : t.all (!·.isAlpha) = true) :
    (exactly t).Ignores Char.toUpper := by
  induction t with
  | nil => trivial
  | cons x rest ih =>
      rw [List.all_cons, Bool.and_eq_true, Bool.not_eq_true'] at ht
      exact ⟨ignores_char ht.1, ih ht.2⟩

@[simp] theorem ignores_keyword (t : Text) : (keyword t).Ignores Char.toUpper := by
  induction t with
  | nil => trivial
  | cons c rest ih => exact ⟨fun d => congrArg (· == _) (Unicode.foldLetter_toUpper d), ih⟩

@[simp] theorem ignores_keywords (ts : List Text) : (keywords ts).Ignores Char.toUpper := by
  apply ignores_anyOf
  intro p hp
  obtain ⟨t, _, rfl⟩ := List.mem_map.mp hp
  exact ignores_keyword t

@[simp] theorem ignores_blanks : blanks.Ignores Char.toUpper := by
  simp [blanks]

@[simp] theorem ignores_maybeBlanks : maybeBlanks.Ignores Char.toUpper := by
  simp [maybeBlanks]

@[simp] theorem ignores_word : word.Ignores Char.toUpper := by
  simp [word]

@[simp] theorem ignores_digits : digits.Ignores Char.toUpper := by
  simp [digits]

theorem isWordAt_toUpper (c : Option Char) : isWordAt (c.map Char.toUpper) = isWordAt c := by
  cases c with
  | none => rfl
  | some c => exact Unicode.isWord_toUpper c

@[simp] theorem ignores_wordEdge : wordEdge.Ignores Char.toUpper := by
  intro before after
  simp only [List.head?_map, isWordAt_toUpper]

@[simp] theorem ignores_lineEnd : lineEnd.Ignores Char.toUpper := by
  have hreturn : ∀ c : Option Char, (c.map Char.toUpper != some '\r') = (c != some '\r') := by
    intro c
    cases c with
    | none => rfl
    | some c => exact toUpper_bne (by decide) c
  intro before after
  cases after with
  | nil => rfl
  | cons c rest =>
      by_cases hcr : c = '\r'
      · subst hcr
        rfl
      · by_cases hlf : c = '\n'
        · subst hlf
          exact (congrArg (· != some '\r') List.head?_map).trans (hreturn before.head?)
        · have hcr' : c.toUpper ≠ '\r' := mt (Unicode.toUpper_eq_iff (by decide)).mp hcr
          have hlf' : c.toUpper ≠ '\n' := mt (Unicode.toUpper_eq_iff (by decide)).mp hlf
          simp only [List.map_cons]
          split <;> split <;> simp_all

end QueryDigest.Pattern
