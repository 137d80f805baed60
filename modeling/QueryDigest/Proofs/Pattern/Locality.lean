import QueryDigest.Pattern.Forms
import QueryDigest.Pattern.Search
import QueryDigest.Proofs.Pattern.Simulation

/-!
How little of a text a match depends on. The tests of statement patterns look at the neighbouring
characters only, and no match takes a character that the classes of its pattern leave out. So a
match is the same wherever the character before it and the text up to such a character are.
-/

namespace QueryDigest

/-- A text up to its first character among `stops`, and that character with it. -/
def Text.upTo (stops : Text) : Text → Text
  | [] => []
  | c :: rest => if c ∈ stops then [c] else c :: upTo stops rest

namespace Text

theorem head?_upTo (stops t : Text) : (upTo stops t).head? = t.head? := by
  cases t with
  | nil => rfl
  | cons c rest =>
      rw [upTo]
      split <;> rfl

theorem upTo_cons {stops : Text} {c : Char} (h : c ∉ stops) (rest : Text) :
    upTo stops (c :: rest) = c :: upTo stops rest := by
  rw [upTo, if_neg h]

theorem upTo_append {stops : Text} {c : Char} (h : c ∈ stops) (t rest : Text) :
    upTo stops (t ++ c :: rest) = upTo stops (t ++ [c]) := by
  induction t with
  | nil => simp [upTo, h]
  | cons d t ih => rw [List.cons_append, List.cons_append, upTo, upTo, ih]

/-- A start of a text that lacks a character ends in front of every place where it stands. -/
theorem split_before {q : Char} {u w x v : Text} (h : x ++ q :: v = u ++ w) (hq : q ∉ u) :
    ∃ x', x = u ++ x' ∧ w = x' ++ q :: v := by
  obtain ⟨y, rfl, hw⟩ | ⟨y, hy, hw⟩ := List.append_eq_append_iff.mp h
  · cases y with
    | nil => exact ⟨[], by simp, hw.symm⟩
    | cons c y =>
        cases hw
        exact absurd (List.mem_append_right x List.mem_cons_self) hq
  · exact ⟨y, hy, hw⟩

end Text

namespace Pattern

open Text (upTo)

/-! ### Tests and classes -/

/-- The tests of a pattern look at the characters next to a place only. -/
def Near : Pattern → Prop
  | .empty | .one _ | .chars _ _ => True
  | .holds test => ∀ {before after before' after' : Text}, before.head? = before'.head? →
      after.head? = after'.head? → test before after = test before' after'
  | .seq p q | .alt p q => p.Near ∧ q.Near
  | .many p | .group p => p.Near

/-- No class of a pattern has any of the given characters. -/
def avoids (stops : Text) : Pattern → Bool
  | .empty | .holds _ => true
  | .one ok | .chars _ ok => stops.all (!ok ·)
  | .seq p q | .alt p q => p.avoids stops && q.avoids stops
  | .many p | .group p => p.avoids stops

theorem avoids_nil (p : Pattern) : p.avoids [] = true := by
  induction p with
  | empty | holds | one | chars => rfl
  | seq p q ihp ihq | alt p q ihp ihq => simp [avoids, ihp, ihq]
  | many p ih | group p ih => exact ih

@[simp] theorem near_append (p q : Pattern) : (p ++ q).Near ↔ p.Near ∧ q.Near :=
  Iff.rfl

@[simp] theorem near_or (p q : Pattern) : (p ||| q).Near ↔ p.Near ∧ q.Near :=
  Iff.rfl

@[simp] theorem near_group (p : Pattern) : (Pattern.group p).Near ↔ p.Near :=
  Iff.rfl

@[simp] theorem near_one (ok : Char → Bool) : (Pattern.one ok).Near :=
  trivial

@[simp] theorem near_chars (reach : Reach) (ok : Char → Bool) : (Pattern.chars reach ok).Near :=
  trivial

@[simp] theorem near_optional (p : Pattern) : (optional p).Near ↔ p.Near :=
  ⟨fun h => h.1, fun h => ⟨h, trivial⟩⟩

@[simp] theorem near_char (c : Char) : (char c).Near :=
  trivial

@[simp] theorem near_someOf (ok : Char → Bool) : (someOf ok).Near :=
  ⟨trivial, trivial⟩

@[simp] theorem near_allOf (ok : Char → Bool) : (allOf ok).Near :=
  trivial

@[simp] theorem near_asFew (ok : Char → Bool) : (asFew ok).Near :=
  trivial

@[simp] theorem near_asMany (ok : Char → Bool) : (asMany ok).Near :=
  trivial

@[simp] theorem near_blanks : blanks.Near :=
  near_someOf _

@[simp] theorem near_maybeBlanks : maybeBlanks.Near :=
  trivial

@[simp] theorem near_digits : digits.Near :=
  near_someOf _

@[simp] theorem near_exactly (t : Text) : (exactly t).Near := by
  induction t with
  | nil => trivial
  | cons c rest ih => exact ⟨trivial, ih⟩

@[simp] theorem near_keyword (t : Text) : (keyword t).Near := by
  induction t with
  | nil => trivial
  | cons c rest ih => exact ⟨trivial, ih⟩

theorem near_anyOf {ps : List Pattern} (h : ∀ p ∈ ps, p.Near) : (anyOf ps).Near := by
  induction ps with
  | nil =>
      intro _ _ _ _ _ _
      rfl
  | cons p rest ih =>
      have hp : p.Near := h p List.mem_cons_self
      cases rest with
      | nil => exact hp
      | cons q rest => exact ⟨hp, ih fun r hr => h r (List.mem_cons_of_mem p hr)⟩

@[simp] theorem near_keywords (ts : List Text) : (keywords ts).Near := by
  apply near_anyOf
  intro p hp
  obtain ⟨t, _, rfl⟩ := List.mem_map.mp hp
  exact near_keyword t

theorem isEmpty_congr {t t' : Text} (h : t.head? = t'.head?) : t.isEmpty = t'.isEmpty := by
  cases t <;> cases t' <;> simp_all

@[simp] theorem near_textStart : textStart.Near := by
  intro before _ before' _ hbefore _
  exact isEmpty_congr hbefore

@[simp] theorem near_wordEdge : wordEdge.Near := by
  intro before after before' after' hbefore hafter
  simp only [hbefore, hafter]

@[simp] theorem near_lineEnd : lineEnd.Near := by
  intro before after before' after' hbefore hafter
  cases after with
  | nil =>
      rw [List.head?_eq_none_iff.mp hafter.symm]
  | cons c rest =>
      cases after' with
      | nil => cases hafter
      | cons c' rest' =>
          cases hafter
          simp only [hbefore]
          split <;> simp_all

/-! ### Matches by their texts -/

/-- The matched text and the groups in it. -/
def Hit.found (h : Hit) : Text × List (Nat × Nat) :=
  (h.text, h.groups)

def Attempt.start (c : Cursor) : Attempt :=
  ⟨c.before, c.after, 0, []⟩

theorem matchAt?_eq_some {p : Pattern} {c : Cursor} {h : Hit} (hmatch : p.matchAt? c = some h) :
    ∃ a, p.run (.start c) some = some a ∧ h = ⟨c, a.passed, a.groups⟩ := by
  rw [matchAt?, Option.map_eq_some_iff] at hmatch
  obtain ⟨a, hrun, rfl⟩ := hmatch
  exact ⟨a, hrun, rfl⟩

theorem matchAt?_eq_none {p : Pattern} {c : Cursor} :
    p.matchAt? c = none ↔ p.run (.start c) some = none :=
  Option.map_eq_none_iff

theorem matchAt?_related {p : Pattern} {c d : Cursor} {R : Attempt → Attempt → Prop}
    (hrel : Option.Rel R (p.run (.start c) some) (p.run (.start d) some))
    {P : Hit → Hit → Prop}
    (hP : ∀ {a b}, p.run (.start c) some = some a → p.run (.start d) some = some b → R a b →
      P ⟨c, a.passed, a.groups⟩ ⟨d, b.passed, b.groups⟩) :
    Option.Rel P (p.matchAt? c) (p.matchAt? d) := by
  change Option.Rel P ((p.run (.start c) some).map _) ((p.run (.start d) some).map _)
  obtain ⟨hc, hd⟩ | ⟨a, b, hc, hd, hab⟩ := rel_cases hrel
  · rw [hc, hd]
    exact .none
  · have hhit := hP hc hd hab
    rw [hc, hd]
    exact .some hhit

/-- A match takes the text ahead of its place as far as it is long. -/
theorem matchAt?_text {p : Pattern} {c : Cursor} {h : Hit} (hmatch : p.matchAt? c = some h) :
    h.start = c ∧ h.text.length = h.length ∧ c.after = h.text ++ h.stop.after := by
  obtain ⟨a, hrun, rfl⟩ := matchAt?_eq_some hmatch
  obtain ⟨taken, hafter, _, hpassed⟩ := run_reaches hrun
  have hlength : a.passed = taken.length := hpassed.trans (Nat.zero_add _)
  have hafter : c.after = taken ++ a.after := hafter
  refine ⟨rfl, ?_, ?_⟩
  · simp [Hit.text, hafter, hlength]
  · simp [Hit.text, Hit.stop, Cursor.skip]

/-- A search passes over places without a match and ends at the first match. -/
theorem findBetween_some {p : Pattern} {before after : Text} {h : Hit}
    (hfind : p.findBetween before after = some h) :
    ∃ u v, after = u ++ v ∧ p.matchAt? ⟨u.reverse ++ before, v⟩ = some h := by
  induction after generalizing before with
  | nil => exact ⟨[], [], rfl, hfind⟩
  | cons c rest ih =>
      rw [findBetween] at hfind
      split at hfind
      · rename_i hmatch
        cases hfind
        exact ⟨[], c :: rest, rfl, hmatch⟩
      · obtain ⟨u, v, rfl, hmatch⟩ := ih hfind
        refine ⟨c :: u, v, rfl, ?_⟩
        rwa [List.reverse_cons, List.append_assoc, List.singleton_append]

theorem findBetween_hit {p : Pattern} {before after : Text} {h : Hit}
    (hmatch : p.matchAt? ⟨before, after⟩ = some h) : p.findBetween before after = some h := by
  cases after with
  | nil => exact hmatch
  | cons c rest => rw [findBetween, hmatch]

theorem findBetween_text {p : Pattern} {before after : Text} {h : Hit}
    (hfind : p.findBetween before after = some h) : h.start.text = before.reverse ++ after := by
  obtain ⟨u, v, rfl, hmatch⟩ := findBetween_some hfind
  rw [(matchAt?_text hmatch).1, Cursor.text, List.reverse_append, List.reverse_reverse,
    List.append_assoc]

/-! ### Equal surroundings -/

/-- Two attempts that have taken the same characters, none of them a stop, and have the same text
ahead of them up to the next stop. -/
structure SameUpTo (stops before before' : Text) (a b : Attempt) : Prop where
  taken : ∃ taken, a.before = taken ++ before ∧ b.before = taken ++ before' ∧
    ∀ c ∈ taken, c ∉ stops
  after : upTo stops a.after = upTo stops b.after
  passed : a.passed = b.passed
  groups : a.groups = b.groups

section

variable {stops before before' : Text}

theorem simulation_sameUpTo : Simulation (SameUpTo stops before before') where
  passed := fun h => h.passed
  close := by
    intro a b opened h
    refine ⟨h.taken, h.after, h.passed, ?_⟩
    simp only [Attempt.close, h.groups, h.passed]

theorem stepsAlike_sameUpTo {ok : Char → Bool} (hok : stops.all (!ok ·) = true) :
    StepsAlike (SameUpTo stops before before') ok := by
  intro a b h
  have hhead : a.after.head? = b.after.head? := by
    rw [← Text.head?_upTo stops, h.after, Text.head?_upTo]
  cases ha : a.next? ok with
  | none =>
      have hb : b.next? ok = none :=
        Attempt.next?_eq_none.mpr (hhead ▸ Attempt.next?_eq_none.mp ha)
      rw [hb]
      exact .none
  | some a' =>
      obtain ⟨c, rest, hc, hokc, rfl⟩ := Attempt.next?_eq_some.mp ha
      obtain ⟨rest', hc'⟩ : ∃ rest', b.after = c :: rest' := by
        rw [hc, List.head?_cons] at hhead
        exact List.head?_eq_some_iff.mp hhead.symm
      have hstop : c ∉ stops := by
        intro hmem
        have hnot := List.all_eq_true.mp hok c hmem
        rw [hokc] at hnot
        cases hnot
      obtain ⟨taken, hbefore, hbefore', htaken⟩ := h.taken
      have hrest : upTo stops rest = upTo stops rest' := by
        have hafter := h.after
        rw [hc, hc', Text.upTo_cons hstop, Text.upTo_cons hstop] at hafter
        exact List.tail_eq_of_cons_eq hafter
      rw [Attempt.next?_eq_some.mpr ⟨c, rest', hc', hokc, rfl⟩]
      refine .some ⟨⟨c :: taken, ?_, ?_, ?_⟩, hrest, ?_, h.groups⟩
      · rw [hbefore, List.cons_append]
      · rw [hbefore', List.cons_append]
      · intro d hd
        obtain rfl | hd := List.mem_cons.mp hd
        · exact hstop
        · exact htaken d hd
      · rw [h.passed]

theorem respects_sameUpTo {p : Pattern} (hnear : p.Near) (havoid : p.avoids stops = true)
    (hbefore : before.head? = before'.head?) : Respects (SameUpTo stops before before') p := by
  induction p with
  | empty => trivial
  | holds test =>
      intro a b h
      obtain ⟨taken, ha, hb, _⟩ := h.taken
      refine hnear ?_ ?_
      · rw [ha, hb, List.head?_append, List.head?_append, hbefore]
      · rw [← Text.head?_upTo stops, h.after, Text.head?_upTo]
  | one ok | chars reach ok => exact stepsAlike_sameUpTo havoid
  | seq p q ihp ihq | alt p q ihp ihq =>
      rw [avoids, Bool.and_eq_true] at havoid
      exact ⟨ihp hnear.1 havoid.1, ihq hnear.2 havoid.2⟩
  | many p ih | group p ih => exact ih hnear havoid

/-- A near pattern matches alike where the surroundings are equal up to a stop. -/
theorem matchAt?_sameUpTo {p : Pattern} (hnear : p.Near) (havoid : p.avoids stops = true)
    (hbefore : before.head? = before'.head?) {after after' : Text}
    (hafter : upTo stops after = upTo stops after') :
    Option.Rel (fun h h' => h.found = h'.found ∧ ∀ c ∈ h.text, c ∉ stops)
      (p.matchAt? ⟨before, after⟩) (p.matchAt? ⟨before', after'⟩) := by
  have hstart : SameUpTo stops before before' (.start ⟨before, after⟩)
      (.start ⟨before', after'⟩) :=
    ⟨⟨[], rfl, rfl, fun c hc => absurd hc List.not_mem_nil⟩, hafter, rfl, rfl⟩
  have hrel : Option.Rel (SameUpTo stops before before')
      (p.run (.start ⟨before, after⟩) some) (p.run (.start ⟨before', after'⟩) some) :=
    run_related simulation_sameUpTo (respects_sameUpTo hnear havoid hbefore) .some hstart
  refine matchAt?_related hrel ?_
  intro a b ha hb hab
  obtain ⟨taken, htaken, htaken', hstops⟩ := hab.taken
  obtain ⟨text, hafter, hbefore, hpassed⟩ := run_reaches ha
  obtain ⟨text', hafter', hbefore', hpassed'⟩ := run_reaches hb
  have htext : taken = text.reverse := List.append_cancel_right (htaken.symm.trans hbefore)
  have htext' : taken = text'.reverse := List.append_cancel_right (htaken'.symm.trans hbefore')
  obtain rfl : text = text' := List.reverse_inj.mp (htext.symm.trans htext')
  simp only [Attempt.start, Nat.zero_add] at hafter hafter' hpassed hpassed'
  have hleft : Hit.text ⟨⟨before, after⟩, a.passed, a.groups⟩ = text := by
    simp [Hit.text, hafter, hpassed]
  have hright : Hit.text ⟨⟨before', after'⟩, b.passed, b.groups⟩ = text := by
    simp [Hit.text, hafter', hpassed']
  refine ⟨?_, ?_⟩
  · rw [Hit.found, Hit.found, hleft, hright, hab.groups]
  · intro c hc
    rw [hleft] at hc
    exact hstops c (htext ▸ List.mem_reverse.mpr hc)

end

/-! ### Patterns bound to the start of the text -/

/-- A pattern that only matches at the start of a text. -/
def Anchored (p : Pattern) : Prop :=
  ∀ (a : Attempt) (onward : Onward), a.before ≠ [] → p.run a onward = none

theorem anchored_textStart : textStart.Anchored := by
  intro a onward h
  simp [textStart, run, h]

theorem Anchored.append {p : Pattern} (hp : p.Anchored) (q : Pattern) : (p ++ q).Anchored :=
  fun a _ h => hp a _ h

theorem findBetween_eq_none {p : Pattern} (hp : p.Anchored) {before : Text} (h : before ≠ [])
    (after : Text) : p.findBetween before after = none := by
  induction after generalizing before with
  | nil => exact matchAt?_eq_none.mpr (hp (.start ⟨before, []⟩) some h)
  | cons c rest ih =>
      rw [findBetween, matchAt?_eq_none.mpr (hp (.start ⟨before, c :: rest⟩) some h)]
      exact ih (List.cons_ne_nil c before)

theorem find_anchored {p : Pattern} (hp : p.Anchored) (t : Text) :
    p.find t = p.matchAt? (.start t) := by
  cases t with
  | nil => rfl
  | cons c rest =>
      change p.findBetween [] (c :: rest) = p.matchAt? ⟨[], c :: rest⟩
      rw [findBetween, findBetween_eq_none hp (List.cons_ne_nil c [])]
      cases p.matchAt? ⟨[], c :: rest⟩ <;> rfl

theorem isSome_of_rel {Q : Hit → Hit → Prop} {x y : Option Hit} (h : Option.Rel Q x y) :
    x.isSome = y.isSome := by
  cases h <;> rfl

theorem occursIn_upTo {p : Pattern} (hp : p.Anchored) (hnear : p.Near) (stops : Text)
    (havoid : p.avoids stops = true) {x : Char} (hx : x ∈ stops) (u v : Text) :
    p.occursIn (u ++ x :: v) = p.occursIn (u ++ [x]) := by
  have hrel := matchAt?_sameUpTo hnear havoid (rfl : ([] : Text).head? = _)
    (Text.upTo_append hx u v)
  rw [occursIn, occursIn, find_anchored hp, find_anchored hp]
  exact isSome_of_rel hrel

end Pattern
end QueryDigest
