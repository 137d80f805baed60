import Mathlib.Data.List.Infix
import QueryDigest.Proofs.Pattern.Replacing
import QueryDigest.Proofs.Pattern.Runs

/-!
Passes over a text in front of another one. Where each match that starts in the first text ends in
it and is there without the second text too, the first text turns into what it turns into alone. A
second text that no match starts in stays, with the white space behind it.
-/

namespace QueryDigest.Pattern

open Unicode (foldLetter isBlank)

/-- What of `u` matches does not depend on whether `v` stands behind it, and lies in `u`. -/
def Cut (p : Pattern) (u v : Text) : Prop :=
  ∀ s, s <:+ u → s ≠ [] → ∀ before,
    (∀ tail ∈ [v, []], p.matchAt? ⟨before, s ++ tail⟩ = none) ∨
      ∃ m s', s = m ++ s' ∧ m ≠ [] ∧ ∀ tail ∈ [v, []],
        ∃ h, p.matchAt? ⟨before, s ++ tail⟩ = some h ∧ h.length = m.length

section

variable {p : Pattern} {u v : Text}

theorem Cut.of_suffix {u' : Text} (h : Cut p u v) (hsuffix : u' <:+ u) : Cut p u' v :=
  fun s hs => h s (hs.trans hsuffix)

theorem Cut.turns (h : Cut p u v) (r before : Text) :
    ∃ u', Turns p r before u v u' ∧ Turns p r before u [] u' := by
  induction hlength : u.length using Nat.strong_induction_on generalizing u before with
  | h n ih =>
      subst hlength
      cases u with
      | nil => exact ⟨[], turns_nil p r before v, turns_nil p r before []⟩
      | cons c u =>
          obtain hnone | ⟨m, s, hsplit, hm, hhit⟩ :=
            h (c :: u) (List.suffix_refl _) (List.cons_ne_nil c u) before
          · obtain ⟨u', hv, hnil⟩ := ih u.length (Nat.lt_succ_self _)
              (h.of_suffix (List.suffix_cons c u)) (c :: before) rfl
            exact ⟨c :: u', hv.cons (hnone v (by simp)), hnil.cons (hnone [] (by simp))⟩
          · have hshort : s.length < (c :: u).length := by
              rw [hsplit, List.length_append]
              exact Nat.lt_add_of_pos_left (List.length_pos_of_ne_nil hm)
            obtain ⟨s', hv, hnil⟩ := ih s.length hshort
              (h.of_suffix ⟨m, hsplit.symm⟩) (m.reverse ++ before) rfl
            have hfront : ∀ tail ∈ [v, []], Turns p r before m (s ++ tail) r := by
              intro tail htail
              obtain ⟨hit, hmatch, hlength⟩ := hhit tail htail
              rw [hsplit, List.append_assoc] at hmatch
              exact turns_hit hmatch hlength hm
            rw [hsplit]
            exact ⟨r ++ s', (hfront v (by simp)).append hv, (hfront [] (by simp)).append hnil⟩

/-- In front of a text that it is cut off from, a text turns into what it turns into alone. -/
theorem Cut.turns_replaceAll (h : Cut p u v) (r : Text) :
    Turns p r [] u v (p.replaceAll (fun _ => r) u) := by
  obtain ⟨u', hv, hnil⟩ := h.turns r []
  rwa [hnil.replaceAll]

/-- A pass over a text that stays, with something in front of it and white space behind it. -/
theorem replaceAll_around {r u' x rest : Text} (hu : Turns p r [] u (x ++ rest) u')
    (hx : ∀ before, Turns p r before x rest x)
    (hblank : ∀ {b : Char} {before rest : Text}, isBlank b = true →
      p.matchAt? ⟨before, b :: rest⟩ = none)
    (hrest : ∀ c, rest.head? = some c → isBlank c = true) :
    ∃ rest', p.replaceAll (fun _ => r) (u ++ (x ++ rest)) = u' ++ (x ++ rest') ∧
      ∀ c, rest'.head? = some c → isBlank c = true := by
  have hall := hu
  rw [Turns, hx] at hall
  rw [replaceAll_const, hall]
  cases rest with
  | nil => exact ⟨[], by simp, by simp⟩
  | cons b more =>
      have hb := hrest b rfl
      have hstays : Turns p r (x.reverse ++ (u.reverse ++ [])) [b] more [b] :=
        turns_of_chars (P := fun c => isBlank c = true) hblank (List.forall_mem_singleton.mpr hb)
      obtain ⟨more', hwrite⟩ : ∃ more', write (fun _ => r)
          (p.outlineFrom 0 (x.reverse ++ (u.reverse ++ [])) (b :: more)) = b :: more' :=
        ⟨_, hstays⟩
      rw [hwrite]
      refine ⟨b :: more', rfl, ?_⟩
      rintro _ ⟨⟩
      exact hb

end

/-- A text that reads like a keyword stays, if none of the keywords that a match starts with starts
in it or goes on behind its end. -/
theorem turns_of_keyword {p : Pattern} {ms : List Text}
    (hp : ∀ {before after : Text} {h : Hit}, p.matchAt? ⟨before, after⟩ = some h →
      ∃ m rest, after = m ++ rest ∧ m.map foldLetter ∈ ms)
    {k w : Text} (hw : w.map foldLetter = k)
    (hapart : ∀ s ∈ k.tails, s ≠ [] → ∀ m ∈ ms, ¬ m <+: s ∧ ¬ s <+: m) (r before rest : Text) :
    Turns p r before w rest w := by
  refine turns_of_no_match fun u c v hsplit => ?_
  refine Option.eq_none_iff_forall_ne_some.mpr fun h hmatch => ?_
  obtain ⟨m, more, hafter, hm⟩ := hp hmatch
  have hsuffix : (c :: v).map foldLetter ∈ k.tails := by
    rw [List.mem_tails, ← hw, hsplit, List.map_append]
    exact List.suffix_append _ _
  obtain ⟨hms, hsm⟩ := hapart _ hsuffix (by simp) _ hm
  have hsame : c :: (v ++ rest) = (c :: v) ++ rest := rfl
  exact (fold_starts hafter hsame).elim (absurd · hms) (absurd · hsm)

end QueryDigest.Pattern
