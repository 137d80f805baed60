import QueryDigest.Proofs.Pattern.DigitRuns

/-!
The forms of statement patterns that are blind to numbers, and those that do not match from inside a
run of digits: whatever is built from keywords, fixed text without digits, runs of characters of a
class with all digits or none, and edges of words.
-/

namespace QueryDigest.Pattern

open Unicode (foldLetter)

/-! ### Fixed text -/

/-- A text that no digit is part of, in any spelling. -/
def digitless (t : Text) : Bool :=
  t.all fun c => lacksDigits (· == c) && lacksDigits (foldLetter · == foldLetter c)

theorem digitless_cons {c : Char} {t : Text} (h : digitless (c :: t) = true) :
    lacksDigits (· == c) = true ∧ lacksDigits (foldLetter · == foldLetter c) = true ∧
      digitless t = true := by
  rw [digitless, List.all_cons, Bool.and_eq_true, Bool.and_eq_true] at h
  exact ⟨h.1.1, h.1.2, h.2⟩

theorem blind_optional {p : Pattern} (hp : Blind p) : Blind (optional p) :=
  blind_or hp blind_empty

theorem blind_char {c : Char} (hc : digitless [c] = true) : Blind (char c) :=
  blind_one (digitless_cons hc).1

theorem blind_exactly {t : Text} (ht : digitless t = true) : Blind (exactly t) := by
  induction t with
  | nil => exact blind_empty
  | cons c t ih =>
      obtain ⟨hc, _, ht⟩ := digitless_cons ht
      exact blind_append (blind_one hc) (ih ht)

theorem blind_keyword {t : Text} (ht : digitless t = true) : Blind (keyword t) := by
  induction t with
  | nil => exact blind_empty
  | cons c t ih =>
      obtain ⟨_, hc, ht⟩ := digitless_cons ht
      exact blind_append (blind_one hc) (ih ht)

theorem blind_keywords {ts : List Text} (hts : ts.all digitless = true) :
    Blind (keywords ts) := by
  apply blind_anyOf
  intro p hp
  obtain ⟨t, ht, rfl⟩ := List.mem_map.mp hp
  exact blind_keyword (List.all_eq_true.mp hts t ht)

/-! ### Runs of characters -/

theorem blind_blanks : Blind blanks :=
  blind_someOf (by decide)

theorem blind_maybeBlanks : Blind maybeBlanks :=
  blind_allOf (by decide)

theorem blind_word : Blind word :=
  blind_someOf (by decide)

theorem blind_digits : Blind digits :=
  blind_someOf (by decide)

theorem blindTo_asFew {ok : Char → Bool} (hok : even ok = true) : BlindTo (asFew ok) :=
  blindTo_chars nofun hok

/-! ### Steady patterns -/

/-- A pattern that numbers have no part in: it runs alike whatever they are, and it is found only
outside runs of digits. -/
structure Steady (p : Pattern) : Prop where
  blind : Blind p
  refuses : Refuses p

section

variable {p q r : Pattern}

theorem refuses_append (hp : Refuses p) (q : Pattern) : Refuses (p ++ q) :=
  fun _ => hp _

theorem Steady.append (hp : Steady p) (hq : Blind q) : Steady (p ++ q) where
  blind := blind_append hp.blind hq
  refuses := refuses_append hp.refuses q

/-- What stands between two patterns may try to stop inside a run of digits. -/
theorem Steady.across (hp : Steady p) (hq : BlindTo q) (hr : Steady r) : Steady (p ++ q ++ r) where
  blind := by
    change Blind (p ++ (q ++ r))
    exact blind_append hp.blind (blind_append_of_refuses hq hr.blind hr.refuses)
  refuses := refuses_append (refuses_append hp.refuses q) r

/-- As `Steady.across`, with a character in front that may be a digit. -/
theorem Steady.across_one (hp : Steady p) {ok ok' : Char → Bool} (hok : even ok = true)
    (hok' : even ok' = true) (hzero : ok' '0' = true) (hr : Steady r) :
    Steady (p ++ .one ok ++ asFew ok' ++ r) where
  blind := by
    change Blind (p ++ ((.one ok ++ .chars .shortest ok') ++ r))
    exact blind_append hp.blind
      (blind_append_of_refuses (blindTo_one_chars nofun hok hok' hzero) hr.blind hr.refuses)
  refuses := refuses_append (refuses_append (refuses_append hp.refuses _) _) r

theorem Steady.or (hp : Steady p) (hq : Steady q) : Steady (p ||| q) where
  blind := blind_or hp.blind hq.blind
  refuses := by
    intro f a ha
    simp only [run_or]
    exact Option.or_eq_none_iff.mpr ⟨hp.refuses f a ha, hq.refuses f a ha⟩

theorem steady_anyOf {ps : List Pattern} (h : ∀ p ∈ ps, Steady p) : Steady (anyOf ps) where
  blind := blind_anyOf fun p hp => (h p hp).blind
  refuses := by
    intro f a ha
    cases hrun : (anyOf ps).run a f with
    | none => exact hrun
    | some b =>
        obtain ⟨p, hp, hsome⟩ := run_anyOf_eq_some hrun
        have hnone : p.run a f = none := (h p hp).refuses f a ha
        rw [hnone] at hsome
        cases hsome

end

theorem steady_one {ok : Char → Bool} (hok : lacksDigits ok = true) : Steady (.one ok) where
  blind := blind_one hok
  refuses := by
    intro f a ha
    refine run_one_none (fun c hc => ?_) f
    have hdigit := ha.2
    rw [hc] at hdigit
    exact not_ok_of_lacksDigits hok hdigit

theorem steady_char {c : Char} (hc : digitless [c] = true) : Steady (char c) :=
  steady_one (digitless_cons hc).1

theorem steady_blanks : Steady blanks where
  blind := blind_blanks
  refuses := refuses_append (steady_one (by decide)).refuses (.chars .all Unicode.isBlank)

theorem steady_exactly {t : Text} (ht : digitless t = true) (hne : t ≠ []) :
    Steady (exactly t) := by
  obtain ⟨c, t, rfl⟩ := List.exists_cons_of_ne_nil hne
  obtain ⟨hc, _, ht⟩ := digitless_cons ht
  exact (steady_one hc).append (blind_exactly ht)

theorem steady_keyword {t : Text} (ht : digitless t = true) (hne : t ≠ []) :
    Steady (keyword t) := by
  obtain ⟨c, t, rfl⟩ := List.exists_cons_of_ne_nil hne
  obtain ⟨_, hc, ht⟩ := digitless_cons ht
  exact (steady_one hc).append (blind_keyword ht)

theorem steady_keywords {ts : List Text}
    (hts : (ts.all fun t => digitless t && t != []) = true) : Steady (keywords ts) := by
  apply steady_anyOf
  intro p hp
  obtain ⟨t, ht, rfl⟩ := List.mem_map.mp hp
  have hall := List.all_eq_true.mp hts t ht
  rw [Bool.and_eq_true, bne_iff_ne] at hall
  exact steady_keyword hall.1 hall.2

theorem steady_wordEdge : Steady wordEdge where
  blind := blind_wordEdge
  refuses := by
    intro f a ha
    simp [wordEdge, run, isWordAt_of_isDigitAt ha.1, isWordAt_of_isDigitAt ha.2]

theorem steady_textStart : Steady textStart where
  blind := blind_textStart
  refuses := by
    intro f a ha
    refine anchored_textStart a f ?_
    intro hnil
    have hbefore := ha.1
    rw [hnil] at hbefore
    cases hbefore

end QueryDigest.Pattern
