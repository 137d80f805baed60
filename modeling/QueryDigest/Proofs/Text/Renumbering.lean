import Mathlib.Data.List.Forall2
import QueryDigest.Text.Basic

/-!
Texts with other numbers. A text is renumbered when other digits, perhaps more or fewer but at least
one, are written in the place of each run of digits. Whatever is put together from such texts,
reversed, cut at a fixed character or freed of one is renumbered again, also where runs of digits
meet that were apart before.
-/

namespace QueryDigest.Text

def isDigitAt : Option Char → Bool
  | some c => c.isDigit
  | none => false

theorem exists_of_isDigitAt {t : Text} (h : isDigitAt t.head? = true) :
    ∃ d rest, t = d :: rest ∧ d.isDigit = true := by
  cases t with
  | nil => cases h
  | cons d rest => exact ⟨d, rest, rfl, h⟩

structure Digits (ds : Text) : Prop where
  nonempty : ds ≠ []
  digit : ∀ c ∈ ds, c.isDigit = true

namespace Digits

variable {ds ds' : Text}

theorem head (h : Digits ds) (t : Text) : isDigitAt (ds ++ t).head? = true := by
  obtain ⟨d, ds, rfl⟩ := List.exists_cons_of_ne_nil h.nonempty
  exact h.digit d List.mem_cons_self

theorem append (h : Digits ds) (h' : Digits ds') : Digits (ds ++ ds') where
  nonempty := List.append_ne_nil_of_left_ne_nil h.nonempty ds'
  digit := by
    intro c hc
    obtain hc | hc := List.mem_append.mp hc
    · exact h.digit c hc
    · exact h'.digit c hc

theorem reverse (h : Digits ds) : Digits ds.reverse where
  nonempty := List.reverse_ne_nil_iff.mpr h.nonempty
  digit := fun c hc => h.digit c (List.mem_reverse.mp hc)

theorem singleton {d : Char} (hd : d.isDigit = true) : Digits [d] where
  nonempty := List.cons_ne_nil d []
  digit := List.forall_mem_singleton.mpr hd

end Digits

/-- Two texts are the same but for their runs of digits, each of which is a whole run in both. -/
inductive Renumbered : Text → Text → Prop where
  | nil : Renumbered [] []
  | other {c : Char} {t t' : Text} (hc : c.isDigit = false) (h : Renumbered t t') :
      Renumbered (c :: t) (c :: t')
  | run {ds ds' t t' : Text} (hds : Digits ds) (hds' : Digits ds')
      (hend : isDigitAt t.head? = false) (h : Renumbered t t') :
      Renumbered (ds ++ t) (ds' ++ t')

/-- What stands next to a place in two texts: the same, or a digit in both. -/
def AlikeAt (x y : Option Char) : Prop :=
  x = y ∨ isDigitAt x = true ∧ isDigitAt y = true

theorem AlikeAt.isDigitAt {x y : Option Char} (h : AlikeAt x y) : isDigitAt x = isDigitAt y := by
  obtain rfl | ⟨hx, hy⟩ := h
  · rfl
  · rw [hx, hy]

theorem AlikeAt.eq_some_iff {x y : Option Char} (h : AlikeAt x y) {c : Char}
    (hc : c.isDigit = false) : x = some c ↔ y = some c := by
  obtain rfl | ⟨hx, hy⟩ := h
  · rfl
  · have hne : ∀ {x : Option Char}, Text.isDigitAt x = true → x ≠ some c := by
      rintro x hx rfl
      exact Bool.false_ne_true (hc.symm.trans hx)
    exact iff_of_false (hne hx) (hne hy)

theorem splitOn_append {x : Char} {u : Text} (hu : x ∉ u) (t : Text) :
    (u ++ t).splitOn x = (t.splitOn x).modifyHead (u ++ ·) := by
  induction u with
  | nil => cases ht : t.splitOn x <;> simp [ht]
  | cons c u ih =>
      rw [List.mem_cons, not_or] at hu
      obtain ⟨hc, hu⟩ := hu
      rw [List.cons_append, List.splitOn_cons_eq_if_modifyHead, ih hu, List.modifyHead_modifyHead,
        if_neg (by simpa using Ne.symm hc)]
      rfl

namespace Renumbered

variable {ds ds' t t' u u' : Text}

theorem head (h : Renumbered t t') : AlikeAt t.head? t'.head? := by
  cases h with
  | nil => exact Or.inl rfl
  | other hc h => exact Or.inl rfl
  | run hds hds' hend h => exact Or.inr ⟨hds.head _, hds'.head _⟩

/-- Runs of digits need not be whole. -/
theorem digits (hds : Digits ds) (hds' : Digits ds') (h : Renumbered t t') :
    Renumbered (ds ++ t) (ds' ++ t') := by
  cases h with
  | nil => exact .run hds hds' rfl .nil
  | other hc h => exact .run hds hds' hc (.other hc h)
  | run hes hes' hend h =>
      rw [← List.append_assoc, ← List.append_assoc]
      exact .run (hds.append hes) (hds'.append hes') hend h

theorem append (h : Renumbered t t') (hu : Renumbered u u') : Renumbered (t ++ u) (t' ++ u') := by
  induction h with
  | nil => exact hu
  | other hc h ih => exact .other hc ih
  | run hds hds' hend h ih =>
      rw [List.append_assoc, List.append_assoc]
      exact .digits hds hds' ih

theorem refl (t : Text) : Renumbered t t := by
  induction t with
  | nil => exact .nil
  | cons c t ih =>
      cases hc : c.isDigit with
      | false => exact .other hc ih
      | true => exact .digits (.singleton hc) (.singleton hc) ih

theorem symm (h : Renumbered t t') : Renumbered t' t := by
  induction h with
  | nil => exact .nil
  | other hc h ih => exact .other hc ih
  | run hds hds' hend h ih => exact .digits hds' hds ih

theorem reverse (h : Renumbered t t') : Renumbered t.reverse t'.reverse := by
  induction h with
  | nil => exact .nil
  | other hc h ih =>
      rw [List.reverse_cons, List.reverse_cons]
      exact ih.append (.refl _)
  | run hds hds' hend h ih =>
      rw [List.reverse_append, List.reverse_append]
      refine ih.append ?_
      have hrun := digits hds.reverse hds'.reverse .nil
      rwa [List.append_nil, List.append_nil] at hrun

theorem eq_nil_iff (h : Renumbered t t') : t = [] ↔ t' = [] := by
  cases h with
  | nil => rfl
  | other hc h => simp
  | run hds hds' hend h => simp [hds.nonempty, hds'.nonempty]

theorem tail {c : Char} (hc : c.isDigit = false) (hhead : t.head? = some c)
    (h : Renumbered t t') : Renumbered t.tail t'.tail := by
  cases h with
  | nil => exact .nil
  | other _ h => exact h
  | @run ds _ t _ hds _ _ _ =>
      have hdigit := hds.head t
      rw [hhead] at hdigit
      exact absurd hdigit (Bool.eq_false_iff.mp hc)

theorem filter {keeps : Char → Bool} (hkeeps : ∀ c, c.isDigit = true → keeps c = true)
    (h : Renumbered t t') : Renumbered (t.filter keeps) (t'.filter keeps) := by
  induction h with
  | nil => exact .nil
  | @other c t t' hc h ih =>
      rw [List.filter_cons, List.filter_cons]
      split
      · exact .other hc ih
      · exact ih
  | run hds hds' hend h ih =>
      rw [List.filter_append, List.filter_append,
        List.filter_eq_self.mpr fun c hc => hkeeps c (hds.digit c hc),
        List.filter_eq_self.mpr fun c hc => hkeeps c (hds'.digit c hc)]
      exact .digits hds hds' ih

theorem any_eq {ok : Char → Bool} (hok : ∀ c, c.isDigit = true → ok c = false)
    (h : Renumbered t t') : t.any ok = t'.any ok := by
  induction h with
  | nil => rfl
  | other hc h ih => rw [List.any_cons, List.any_cons, ih]
  | @run ds ds' t t' hds hds' hend h ih =>
      have hnone : ∀ {ds : Text}, Digits ds → ds.any ok = false := by
        intro ds hds
        refine List.any_eq_false.mpr fun c hc => ?_
        rw [hok c (hds.digit c hc)]
        exact Bool.false_ne_true
      rw [List.any_append, List.any_append, hnone hds, hnone hds', ih]

/-- A text without digits is renumbered in one way only. -/
theorem eq_of_no_digit (h : Renumbered t t') (hno : ∀ c ∈ t, c.isDigit = false) : t = t' := by
  induction h with
  | nil => rfl
  | other hc h ih => rw [ih fun d hd => hno d (List.mem_cons_of_mem _ hd)]
  | run hds hds' hend h ih =>
      obtain ⟨d, ds, rfl⟩ := List.exists_cons_of_ne_nil hds.nonempty
      have hdigit := hds.digit d List.mem_cons_self
      rw [hno d List.mem_cons_self] at hdigit
      cases hdigit

theorem prefix_iff {k : Text} (hk : ∀ c ∈ k, c.isDigit = false) (h : Renumbered t t') :
    k <+: t ↔ k <+: t' := by
  induction h generalizing k with
  | nil => rfl
  | @other c t t' hc h ih =>
      cases k with
      | nil => simp
      | cons d k =>
          rw [List.cons_prefix_cons, List.cons_prefix_cons,
            ih fun e he => hk e (List.mem_cons_of_mem d he)]
  | @run ds ds' t t' hds hds' hend h ih =>
      cases k with
      | nil => simp
      | cons d k =>
          have hno : ∀ {ds t : Text}, Digits ds → ¬ d :: k <+: ds ++ t := by
            rintro ds t hds ⟨rest, hrest⟩
            have hhead := hds.head t
            rw [← hrest] at hhead
            exact absurd hhead (Bool.eq_false_iff.mp (hk d List.mem_cons_self))
          exact iff_of_false (hno hds) (hno hds')

theorem splitOn {x : Char} (hx : x.isDigit = false) (h : Renumbered t t') :
    List.Forall₂ Renumbered (t.splitOn x) (t'.splitOn x) := by
  have hmodify : ∀ {u u' : Text} {ts ts' : List Text},
      (∀ {t t' : Text}, Renumbered t t' → Renumbered (u ++ t) (u' ++ t')) →
        List.Forall₂ Renumbered ts ts' →
          List.Forall₂ Renumbered (ts.modifyHead (u ++ ·)) (ts'.modifyHead (u' ++ ·)) := by
    intro u u' ts ts' hu hts
    cases hts with
    | nil => exact .nil
    | cons ht hts => exact .cons (hu ht) hts
  have hdigits : ∀ {ds : Text}, Digits ds → x ∉ ds := by
    intro ds hds hmem
    rw [hds.digit x hmem] at hx
    cases hx
  induction h with
  | nil => exact .cons .nil .nil
  | @other c t t' hc h ih =>
      rw [List.splitOn_cons_eq_if_modifyHead, List.splitOn_cons_eq_if_modifyHead]
      split
      · exact .cons .nil ih
      · exact @hmodify [c] [c] _ _ (fun ht => .other hc ht) ih
  | run hds hds' hend h ih =>
      rw [splitOn_append (hdigits hds), splitOn_append (hdigits hds')]
      exact hmodify (fun ht => .digits hds hds' ht) ih

/-! ### Masks -/

/-- The run of digits at the start of a text, and of one it is renumbered to. -/
theorem run_inv (hds : Digits ds) (hend : isDigitAt t.head? = false)
    (h : Renumbered (ds ++ t) t') :
    ∃ ds' u', t' = ds' ++ u' ∧ Digits ds' ∧ Renumbered t u' := by
  have hspan : ∀ {ds t : Text}, Digits ds → isDigitAt t.head? = false →
      (ds ++ t).takeWhile Char.isDigit = ds := by
    intro ds t hds hend
    rw [List.takeWhile_append_of_pos hds.digit]
    cases t with
    | nil => exact List.append_nil ds
    | cons c t =>
        have hc : ¬ c.isDigit = true := Bool.eq_false_iff.mp hend
        rw [List.takeWhile_cons_of_neg hc, List.append_nil]
  generalize hs : ds ++ t = s at h
  cases h with
  | nil => exact absurd (List.append_eq_nil_iff.mp hs).1 hds.nonempty
  | @other c u u' hc h =>
      have hhead := hds.head t
      rw [hs] at hhead
      exact absurd hhead (Bool.eq_false_iff.mp hc)
  | @run es es' u u' hes hes' hend' h =>
      have hsame : ds = es := by rw [← hspan hds hend, hs, hspan hes hend']
      rw [hsame] at hs
      exact ⟨es', u', rfl, hes', List.append_cancel_left hs ▸ h⟩

theorem trans {v : Text} (h : Renumbered t u) (hu : Renumbered u v) : Renumbered t v := by
  induction h generalizing v with
  | nil => exact hu
  | other hc h ih =>
      obtain ⟨rest, rfl⟩ := List.head?_eq_some_iff.mp ((hu.head.eq_some_iff hc).mp rfl)
      exact .other hc (ih (hu.tail hc rfl))
  | run hds hds' hend h ih =>
      obtain ⟨ds'', v, rfl, hds'', hu⟩ := hu.run_inv hds' (h.head.isDigitAt ▸ hend)
      exact .run hds hds'' hend (ih hu)

end Renumbered

/-- A text with one and the same digit in the place of each run of digits. -/
def masked : Text → Text
  | [] => []
  | c :: rest =>
    if c.isDigit then if isDigitAt rest.head? then masked rest else '0' :: masked rest
    else c :: masked rest

theorem renumbered_masked (t : Text) : Renumbered t (masked t) := by
  induction t with
  | nil => exact .nil
  | cons c rest ih =>
      rw [masked]
      by_cases hc : c.isDigit = true
      · rw [if_pos hc]
        cases hnext : isDigitAt rest.head? with
        | false => exact .run (.singleton hc) (.singleton rfl) hnext ih
        | true =>
            generalize masked rest = m at ih
            cases ih with
            | nil => cases hnext
            | other hd h => exact absurd hnext (Bool.eq_false_iff.mp hd)
            | run hds hds' hend h => exact .run ((Digits.singleton hc).append hds) hds' hend h
      · rw [if_neg hc]
        exact .other (Bool.eq_false_iff.mpr hc) ih

theorem masked_run {ds t : Text} (hds : Digits ds) (hend : isDigitAt t.head? = false) :
    masked (ds ++ t) = '0' :: masked t := by
  obtain ⟨hne, hdigit⟩ := hds
  induction ds with
  | nil => exact absurd rfl hne
  | cons d ds ih =>
      obtain ⟨hd, hdigit⟩ := List.forall_mem_cons.mp hdigit
      rw [List.cons_append, masked, if_pos hd]
      cases ds with
      | nil => rw [List.nil_append, hend]; rfl
      | cons e ds =>
          have he : isDigitAt (e :: ds ++ t).head? = true := hdigit e List.mem_cons_self
          rw [if_pos he, ih (List.cons_ne_nil e ds) hdigit]

/-- Renumbered texts are those that are the same behind masks. -/
theorem renumbered_iff {t t' : Text} : Renumbered t t' ↔ masked t = masked t' := by
  constructor
  · intro h
    induction h with
    | nil => rfl
    | other hc h ih =>
        rw [masked, masked, if_neg (Bool.eq_false_iff.mp hc), if_neg (Bool.eq_false_iff.mp hc), ih]
    | run hds hds' hend h ih =>
        rw [masked_run hds hend, masked_run hds' (h.head.isDigitAt ▸ hend), ih]
  · intro h
    exact (renumbered_masked t).trans (h ▸ (renumbered_masked t').symm)

instance (t t' : Text) : Decidable (Renumbered t t') :=
  decidable_of_iff _ renumbered_iff.symm

end QueryDigest.Text
