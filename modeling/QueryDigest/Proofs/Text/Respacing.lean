import Mathlib.Data.List.TakeWhile
import QueryDigest.Text.Basic
import QueryDigest.Unicode.Blank

/-!
Texts with other white space. A text is respaced when other white space, perhaps more or less but
never none, is written in the place of a run of white space. What stands between runs of white space
is the same in both texts, and so is every class of characters that is read off their starts.
-/

namespace QueryDigest.Text

open Unicode (isBlank)

/-- White space, and some of it. -/
structure Blank (bs : Text) : Prop where
  nonempty : bs ≠ []
  blank : ∀ c ∈ bs, isBlank c = true

theorem blank_space : Blank [' '] :=
  ⟨List.cons_ne_nil ' ' [], List.forall_mem_singleton.mpr rfl⟩

theorem Blank.head {bs : Text} (h : Blank bs) (t : Text) :
    ∃ b more, bs ++ t = b :: more ∧ isBlank b = true := by
  obtain ⟨b, bs, rfl⟩ := List.exists_cons_of_ne_nil h.nonempty
  exact ⟨b, bs ++ t, rfl, h.blank b List.mem_cons_self⟩

section

variable {bs w t : Text} (hw : ∀ c ∈ w, isBlank c = false)

include hw

theorem head_nonblank (hne : w ≠ []) (t : Text) :
    ∀ c, (w ++ t).head? = some c → isBlank c = false := by
  obtain ⟨c, w, rfl⟩ := List.exists_cons_of_ne_nil hne
  rintro _ ⟨⟩
  exact hw c List.mem_cons_self

theorem eq_nil_of_prefix_blank (hbs : Blank bs) (h : w <+: bs ++ t) : w = [] := by
  obtain ⟨b, more, hhead, hb⟩ := hbs.head t
  cases w with
  | nil => rfl
  | cons c w =>
      rw [hhead, List.cons_prefix_cons] at h
      rw [← h.1, hw c List.mem_cons_self] at hb
      cases hb

/-- What holds no white space and stands in a text that starts with some stands behind it. -/
theorem infix_of_blank (hbs : ∀ c ∈ bs, isBlank c = true) (h : w <:+: bs ++ t) : w <:+: t := by
  induction bs with
  | nil => exact h
  | cons b bs ih =>
      rw [List.cons_append, List.infix_cons_iff] at h
      obtain h | h := h
      · have hb : Blank [b] :=
          ⟨List.cons_ne_nil b [], List.forall_mem_singleton.mpr (hbs b List.mem_cons_self)⟩
        obtain rfl : w = [] := eq_nil_of_prefix_blank hw hb h
        exact List.nil_infix
      · exact ih (fun c hc => hbs c (List.mem_cons_of_mem b hc)) h

end

theorem dropWhile_blank {bs : Text} (h : ∀ c ∈ bs, isBlank c = true) (t : Text) :
    (bs ++ t).dropWhile isBlank = t.dropWhile isBlank :=
  List.dropWhile_append_of_pos h

theorem head?_dropWhile_blank (t : Text) :
    ∀ c, (t.dropWhile isBlank).head? = some c → isBlank c = false := by
  intro c hc
  have hnot := List.head?_dropWhile_not isBlank t
  rw [hc] at hnot
  exact hnot

theorem split_blank {c : Char} (hc : isBlank c = true) (rest : Text) :
    ∃ bs t, c :: rest = bs ++ t ∧ Blank bs ∧ ∀ d, t.head? = some d → isBlank d = false := by
  refine ⟨_, _, List.takeWhile_append_dropWhile.symm,
    ⟨?_, fun d hd => List.mem_takeWhile_imp hd⟩, head?_dropWhile_blank (c :: rest)⟩
  rw [List.takeWhile_cons_of_pos hc]
  exact List.cons_ne_nil c _

/-- Two texts are the same but for white space, of which there is some in both where there is some
in either. -/
inductive Respaced : Text → Text → Prop where
  | nil : Respaced [] []
  | other {c : Char} {s t : Text} (hc : isBlank c = false) (h : Respaced s t) :
      Respaced (c :: s) (c :: t)
  | run {bs bs' s t : Text} (hbs : Blank bs) (hbs' : Blank bs') (h : Respaced s t) :
      Respaced (bs ++ s) (bs' ++ t)

namespace Respaced

variable {s t : Text}

theorem symm (h : Respaced s t) : Respaced t s := by
  induction h with
  | nil => exact .nil
  | other hc h ih => exact .other hc ih
  | run hbs hbs' h ih => exact .run hbs' hbs ih

/-- What stands in front of a text without white space stands in front of the other one too. -/
theorem of_append {w : Text} (hw : ∀ c ∈ w, isBlank c = false) (h : Respaced (w ++ s) t) :
    ∃ t', t = w ++ t' ∧ Respaced s t' := by
  induction w generalizing t with
  | nil => exact ⟨t, rfl, h⟩
  | cons c w ih =>
      rw [List.cons_append] at h
      generalize hstart : c :: (w ++ s) = r at h
      cases h with
      | nil => cases hstart
      | other hc h =>
          cases hstart
          obtain ⟨t', rfl, h'⟩ := ih (fun d hd => hw d (List.mem_cons_of_mem c hd)) h
          exact ⟨t', rfl, h'⟩
      | run hbs hbs' h =>
          obtain ⟨b, more, hhead, hb⟩ := hbs.head _
          rw [hhead] at hstart
          cases hstart
          rw [hw c List.mem_cons_self] at hb
          cases hb

theorem dropBlanks (h : Respaced s t) :
    Respaced (s.dropWhile isBlank) (t.dropWhile isBlank) := by
  induction h with
  | nil => exact .nil
  | other hc h ih =>
      rw [List.dropWhile_cons_of_neg (by simp [hc]), List.dropWhile_cons_of_neg (by simp [hc])]
      exact .other hc h
  | run hbs hbs' h ih => rwa [dropWhile_blank hbs.blank, dropWhile_blank hbs'.blank]

/-- White space at the start of one text is white space at the start of the other one. -/
theorem of_blank {bs : Text} (hbs : Blank bs) (h : Respaced (bs ++ s) t) :
    ∃ bs', Blank bs' ∧ t = bs' ++ t.dropWhile isBlank ∧
      Respaced (s.dropWhile isBlank) (t.dropWhile isBlank) := by
  have hdrop := h.dropBlanks
  rw [dropWhile_blank hbs.blank] at hdrop
  refine ⟨t.takeWhile isBlank, ⟨?_, fun c hc => List.mem_takeWhile_imp hc⟩,
    List.takeWhile_append_dropWhile.symm, hdrop⟩
  obtain ⟨b, more, hhead, hb⟩ := hbs.head s
  rw [hhead] at h
  generalize hstart : b :: more = r at h
  cases h with
  | nil => cases hstart
  | other hc h =>
      cases hstart
      rw [hb] at hc
      cases hc
  | run hcs hcs' h =>
      obtain ⟨b', more', hhead', hb'⟩ := hcs'.head _
      rw [hhead', List.takeWhile_cons_of_pos hb']
      exact List.cons_ne_nil b' _

/-- Of a class without white space both texts start with the same characters. -/
theorem span {ok : Char → Bool} (hok : ∀ c, isBlank c = true → ok c = false) (h : Respaced s t) :
    s.takeWhile ok = t.takeWhile ok ∧ Respaced (s.dropWhile ok) (t.dropWhile ok) := by
  induction h with
  | nil => exact ⟨rfl, .nil⟩
  | other hc h ih =>
      rename_i c s t
      cases hclass : ok c with
      | true =>
          rw [List.takeWhile_cons_of_pos hclass, List.takeWhile_cons_of_pos hclass,
            List.dropWhile_cons_of_pos hclass, List.dropWhile_cons_of_pos hclass, ih.1]
          exact ⟨rfl, ih.2⟩
      | false =>
          have hneg : ¬ ok c = true := by simp [hclass]
          rw [List.takeWhile_cons_of_neg hneg, List.takeWhile_cons_of_neg hneg,
            List.dropWhile_cons_of_neg hneg, List.dropWhile_cons_of_neg hneg]
          exact ⟨rfl, .other hc h⟩
  | run hbs hbs' h ih =>
      have hends : ∀ {bs : Text}, Blank bs → ∀ u, (bs ++ u).takeWhile ok = [] ∧
          (bs ++ u).dropWhile ok = bs ++ u := by
        intro bs hbs u
        obtain ⟨b, more, hhead, hb⟩ := hbs.head u
        have hneg : ¬ ok b = true := by simp [hok b hb]
        rw [hhead, List.takeWhile_cons_of_neg hneg, List.dropWhile_cons_of_neg hneg]
        exact ⟨rfl, rfl⟩
      rw [(hends hbs _).1, (hends hbs' _).1, (hends hbs _).2, (hends hbs' _).2]
      exact ⟨rfl, .run hbs hbs' h⟩

end Respaced
end QueryDigest.Text
