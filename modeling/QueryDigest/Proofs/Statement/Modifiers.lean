import QueryDigest.Proofs.Pattern.Replacing
import QueryDigest.Proofs.Statement.Subqueries

/-!
The removal of modifiers. It does not ask for the start of a word, so a word in front of white
space loses a modifier that it ends with, and any other word stays as it is.
-/

namespace QueryDigest.Extraction

open Pattern
open Nested (modifiers modifier_opens isWord_of_reads_modifiers)
open Unicode (foldLetter isBlank isWord)

/-- What is left of a word in front of white space: the word without a modifier at its end. -/
def clip : Text → Text
  | [] => []
  | c :: w => if modifiers.contains ((c :: w).map foldLetter) then [] else c :: clip w

theorem clip_cons_of_mem {c : Char} {w : Text} (h : (c :: w).map foldLetter ∈ modifiers) :
    clip (c :: w) = [] := by
  rw [clip, if_pos (List.contains_iff_mem.mpr h)]

theorem clip_cons_of_not_mem {c : Char} {w : Text} (h : (c :: w).map foldLetter ∉ modifiers) :
    clip (c :: w) = c :: clip w := by
  rw [clip, if_neg (List.contains_iff_mem.not.mpr h)]

theorem clip_eq_self {w : Text} (h : ∀ m ∈ modifiers, ¬ m <:+ w.map foldLetter) : clip w = w := by
  induction w with
  | nil => rfl
  | cons c w ih =>
      have hwhole : (c :: w).map foldLetter ∉ modifiers := fun hm => h _ hm (List.suffix_refl _)
      have hend : ∀ m ∈ modifiers, ¬ m <:+ w.map foldLetter := fun m hm hsuffix =>
        h m hm (hsuffix.trans (List.suffix_cons _ _))
      rw [clip_cons_of_not_mem hwhole, ih hend]

theorem clip_ne_nil {w : Text} (hne : w ≠ []) (h : w.map foldLetter ∉ modifiers) :
    clip w ≠ [] := by
  obtain ⟨c, w, rfl⟩ := List.exists_cons_of_ne_nil hne
  rw [clip_cons_of_not_mem h]
  exact List.cons_ne_nil _ _

theorem clip_subset (w : Text) : clip w ⊆ w := by
  induction w with
  | nil => exact List.Subset.refl _
  | cons c w ih =>
      rw [clip]
      split
      · exact List.nil_subset _
      · exact List.cons_subset_cons c ih

/-! ### The pass over a word -/

theorem reads_of_modifier {before w rest : Text} (hword : ∀ c ∈ w, isWord c = true)
    (hedge : isWordAt rest.head? = false) {h : Hit}
    (hmatch : modifier.matchAt? ⟨before, w ++ rest⟩ = some h) :
    w.map foldLetter ∈ modifiers ∧ ∃ b more, rest = b :: more ∧ isBlank b = true := by
  obtain ⟨m, b, more, hafter, hm, hb⟩ := modifier_opens hmatch
  have hblank : isWordAt (b :: more).head? = false := Unicode.isWord_of_isBlank hb
  obtain rfl : w = m :=
    Text.word_unique hafter hword (isWord_of_reads_modifiers hm).2 hedge hblank
  exact ⟨hm, b, more, List.append_cancel_left hafter, hb⟩

theorem matchAt?_modifier {w rest : Text} (hw : w.map foldLetter ∈ modifiers)
    (hrest : ∀ c, rest.head? = some c → isBlank c = false) (before : Text) :
    modifier.matchAt? ⟨before, w ++ ' ' :: rest⟩ =
      some ⟨⟨before, w ++ ' ' :: rest⟩, w.length + 1, []⟩ := by
  have hapart : ∀ m ∈ modifiers, m.map foldLetter = m ∧ ∀ m' ∈ modifiers,
      m'.map foldLetter <+: m.map foldLetter ∨ m.map foldLetter <+: m'.map foldLetter →
        m' = m := by
    decide
  obtain ⟨hfold, hapart⟩ := hapart _ hw
  rw [matchAt?, Nested.modifier_eq, run_append,
    run_keywords hw hfold.symm hapart rfl, run_blank hrest rfl]
  simp

/-- A word keeps its letters in front of anything but white space. -/
theorem turns_word {before w rest : Text} (hword : ∀ c ∈ w, isWord c = true)
    (hedge : isWordAt rest.head? = false)
    (hrest : (∀ m ∈ modifiers, ¬ m <:+ w.map foldLetter) ∨
      ∀ c, rest.head? = some c → isBlank c = false) :
    Turns modifier [' '] before w rest w := by
  apply turns_of_no_match
  intro u c v hsplit
  cases hmatch : modifier.matchAt? ⟨u.reverse ++ before, c :: (v ++ rest)⟩ with
  | none => rfl
  | some h =>
      have hend : ∀ d ∈ c :: v, isWord d = true := fun d hd =>
        hword d (hsplit ▸ List.mem_append_right u hd)
      obtain ⟨hm, b, more, rfl, hb⟩ := reads_of_modifier hend hedge hmatch
      obtain hnone | hblank := hrest
      · refine absurd ?_ (hnone _ hm)
        rw [hsplit, List.map_append]
        exact List.suffix_append _ _
      · rw [hblank b rfl] at hb
        cases hb

theorem matchAt?_modifier_mark {c : Char} (hc : isWord c = false) {before rest : Text} :
    modifier.matchAt? ⟨before, c :: rest⟩ = none := by
  cases hmatch : modifier.matchAt? ⟨before, c :: rest⟩ with
  | none => rfl
  | some h =>
      have hedge : isWordAt (c :: rest).head? = false := hc
      have hword : ([] : Text).map foldLetter ∈ modifiers :=
        (reads_of_modifier (List.forall_mem_nil _) hedge hmatch).1
      exact absurd hword (by decide)

theorem turns_marks {u : Text} (hu : ∀ c ∈ u, isWord c = false) (before rest : Text) :
    Turns modifier [' '] before u rest u :=
  turns_of_chars (P := fun c => isWord c = false) (fun h => matchAt?_modifier_mark h) hu

/-- A word in front of white space loses the modifier that it ends with. -/
theorem turns_clip {w rest : Text} (hword : ∀ c ∈ w, isWord c = true)
    (hrest : ∀ c, rest.head? = some c → isBlank c = false) (before : Text) :
    Turns modifier [' '] before (w ++ [' ']) rest (clip w ++ [' ']) := by
  induction w generalizing before with
  | nil => exact turns_marks (List.forall_mem_singleton.mpr rfl) before rest
  | cons c w ih =>
      have hbehind := ih (fun d hd => hword d (List.mem_cons_of_mem c hd)) (c :: before)
      -- White space ends the word, so a match starts here just where what is left is a modifier.
      by_cases hm : (c :: w).map foldLetter ∈ modifiers
      · have hmatch := matchAt?_modifier hm hrest before
        have hsplit : c :: w ++ ' ' :: rest = c :: w ++ [' '] ++ rest := by simp
        rw [clip_cons_of_mem hm]
        rw [hsplit] at hmatch
        exact turns_hit hmatch (by simp) (by simp)
      · have hsplit : c :: (w ++ [' '] ++ rest) = (c :: w) ++ ' ' :: rest := by simp
        rw [clip_cons_of_not_mem hm]
        refine Turns.cons ?_ hbehind
        cases hmatch : modifier.matchAt? ⟨before, c :: (w ++ [' '] ++ rest)⟩ with
        | none => rfl
        | some h =>
            rw [hsplit] at hmatch
            exact absurd (reads_of_modifier hword rfl hmatch).1 hm

theorem turns_clip_append {w t rest t' : Text} (hword : ∀ c ∈ w, isWord c = true)
    (hnext : isWordAt t.head? = true) (ht : ∀ before, Turns modifier [' '] before t rest t')
    (before : Text) : Turns modifier [' '] before (w ++ ' ' :: t) rest (clip w ++ ' ' :: t') := by
  have hblank : ∀ c, (t ++ rest).head? = some c → isBlank c = false := by
    intro c hc
    cases t with
    | nil => cases hnext
    | cons d t =>
        cases hc
        exact Unicode.isBlank_of_isWord hnext
  have hall := (turns_clip hword hblank before).append (ht _)
  rwa [List.append_assoc, List.append_assoc] at hall

end QueryDigest.Extraction
