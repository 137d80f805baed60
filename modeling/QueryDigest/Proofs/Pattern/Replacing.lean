import QueryDigest.Proofs.Pattern.Outline
import QueryDigest.Proofs.Pattern.Words

/-!
Replacing matches piece by piece. What a text turns into when one and the same text is written for
the matches of a pattern is put together from what its pieces turn into, each in front of the rest
of the text.
-/

namespace QueryDigest.Pattern

/-- With `r` written for the matches of a pattern, `u` in front of `rest` turns into `u'`. -/
def Turns (p : Pattern) (r before u rest u' : Text) : Prop :=
  write (fun _ => r) (p.outlineFrom 0 before (u ++ rest)) =
    u' ++ write (fun _ => r) (p.outlineFrom 0 (u.reverse ++ before) rest)

section

variable {p : Pattern} {r before u v rest u' v' : Text}

theorem Turns.append (hu : Turns p r before u (v ++ rest) u')
    (hv : Turns p r (u.reverse ++ before) v rest v') :
    Turns p r before (u ++ v) rest (u' ++ v') := by
  rw [Turns] at *
  rw [List.append_assoc, hu, hv, List.reverse_append, List.append_assoc, List.append_assoc]

theorem turns_nil (p : Pattern) (r before rest : Text) : Turns p r before [] rest [] :=
  rfl

theorem turns_of_no_match (h : ∀ u₁ c u₂, u = u₁ ++ c :: u₂ →
    p.matchAt? ⟨u₁.reverse ++ before, c :: (u₂ ++ rest)⟩ = none) : Turns p r before u rest u := by
  rw [Turns, outlineFrom_of_no_match before rest h, write_append, write_map_kept]

/-- No match starts with a character of the given kind, so a text of such characters stays. -/
theorem turns_of_chars {P : Char → Prop}
    (hp : ∀ {c : Char} {before rest : Text}, P c → p.matchAt? ⟨before, c :: rest⟩ = none)
    (hu : ∀ c ∈ u, P c) : Turns p r before u rest u :=
  turns_of_no_match fun u₁ c _ hsplit =>
    hp (hu c (hsplit ▸ List.mem_append_right u₁ List.mem_cons_self))

theorem Turns.cons {c : Char} (hc : p.matchAt? ⟨before, c :: (u ++ rest)⟩ = none)
    (hu : Turns p r (c :: before) u rest u') : Turns p r before (c :: u) rest (c :: u') := by
  have hkept : ∀ h, p.matchAt? ⟨before, c :: (u ++ rest)⟩ = some h → h.text = [] := by
    intro h hmatch
    rw [hc] at hmatch
    cases hmatch
  rw [Turns] at *
  rw [List.cons_append, outlineFrom_kept hkept, write_kept, hu, List.reverse_cons,
    List.append_assoc]
  rfl

theorem turns_hit {h : Hit} (hmatch : p.matchAt? ⟨before, u ++ rest⟩ = some h)
    (hlength : h.length = u.length) (hne : u ≠ []) : Turns p r before u rest r := by
  obtain ⟨c, u, rfl⟩ := List.exists_cons_of_ne_nil hne
  obtain ⟨hstart, _, _⟩ := matchAt?_text hmatch
  have htext : h.text = c :: u := by
    rw [Hit.text, hstart, hlength]
    exact List.take_left
  rw [List.cons_append] at hmatch
  rw [Turns, List.cons_append, outlineFrom_hit hmatch htext, write_found, outlineFrom_skip,
    List.reverse_cons, List.append_assoc]
  rfl

theorem Turns.replaceAll {t t' : Text} (h : Turns p r [] t [] t') :
    p.replaceAll (fun _ => r) t = t' := by
  rw [Turns, List.append_nil, outlineFrom_nil, write_nil, List.append_nil] at h
  rw [replaceAll_const, h]

end

/-! ### Lazy runs -/

/-- A run that takes as few characters as possible ends where the attempt first goes on. -/
theorem run_asFew {ok : Char → Bool} {w rest : Text} {a b : Attempt} {onward : Onward}
    (hafter : a.after = w ++ rest) (hw : ∀ c ∈ w, ok c = true)
    (hearly : ∀ u c v, w = u ++ c :: v → onward (a.take u (c :: (v ++ rest))) = none)
    (hend : onward (a.take w rest) = some b) : (asFew ok).run a onward = some b := by
  induction w generalizing a with
  | nil =>
      obtain rfl : a.after = rest := hafter
      rw [Attempt.take_nil] at hend
      rw [asFew, run_shortest, hend, Option.some_or]
  | cons c w ih =>
      have hfirst : onward a = none := by
        have hnone := hearly [] c w rfl
        rwa [← List.cons_append, ← hafter, Attempt.take_nil] at hnone
      have hnext : a.next? ok = some ⟨c :: a.before, w ++ rest, a.passed + 1, a.groups⟩ :=
        Attempt.next?_eq_some.mpr ⟨c, w ++ rest, hafter, hw c List.mem_cons_self, rfl⟩
      rw [asFew, run_shortest, hfirst, Option.none_or, hnext, Option.bind_some]
      refine ih rfl (fun d hd => hw d (List.mem_cons_of_mem c hd)) ?_ ?_
      · intro u d v hsplit
        have hnone := hearly (c :: u) d v (by rw [hsplit, List.cons_append])
        rw [← hnone]
        simp [Attempt.take, Nat.add_comm, Nat.add_left_comm]
      · rw [← hend]
        exact congrArg onward (Attempt.take_cons c w rest a)

end QueryDigest.Pattern
