import QueryDigest.Proofs.Pattern.Words
import QueryDigest.Proofs.Text.Renumbering

/-!
Patterns that are blind to numbers. Two attempts on texts that differ in their runs of digits do not
go on step by step but in strides: over the same character, or over a whole run of digits each. A
pattern is blind if it runs alike from attempts that go on so. A class that takes digits may stop
inside a run where it tries runs of every length, and then the rest of the pattern has to refuse to
go on there.
-/

namespace QueryDigest.Pattern

open Text (isDigitAt Digits AlikeAt)

/-! ### Strides -/

/-- What two attempts have ahead of them, and that they are related again behind it. -/
inductive Ahead (R : Attempt → Attempt → Prop) (a a' : Attempt) : Prop where
  | done (ha : a.after = []) (ha' : a'.after = [])
  | char {c : Char} {rest rest' : Text} (hc : c.isDigit = false) (ha : a.after = c :: rest)
      (ha' : a'.after = c :: rest') (hR : R (a.take [c] rest) (a'.take [c] rest'))
  | run {ds ds' rest rest' : Text} (hds : Digits ds) (hds' : Digits ds')
      (ha : a.after = ds ++ rest) (ha' : a'.after = ds' ++ rest')
      (hend : isDigitAt rest.head? = false) (hend' : isDigitAt rest'.head? = false)
      (hR : R (a.take ds rest) (a'.take ds' rest'))

/-- What two attempts have to agree on while they go on in strides. -/
structure Stride (R : Attempt → Attempt → Prop) : Prop where
  ahead : ∀ {a a'}, R a a' → Ahead R a a'
  before : ∀ {a a'}, R a a' → AlikeAt a.before.head? a'.before.head?
  passed : ∀ {a a' b b'}, R a a' → R b b' → (a.passed < b.passed ↔ a'.passed < b'.passed)
  close : ∀ {a a' b b'}, R a a' → R b b' → R (b.close a.passed) (b'.close a'.passed)

section

variable {R : Attempt → Attempt → Prop} (hR : Stride R) {a a' : Attempt}

include hR

theorem Stride.after (h : R a a') : AlikeAt a.after.head? a'.after.head? := by
  obtain ⟨ha, ha'⟩ | ⟨_, ha, ha', _⟩ | ⟨hds, hds', ha, ha', _, _, _⟩ := hR.ahead h
  · rw [ha, ha']
    exact Or.inl rfl
  · rw [ha, ha']
    exact Or.inl rfl
  · rw [ha, ha']
    exact Or.inr ⟨hds.head _, hds'.head _⟩

/-- What holds at the end of two texts and is passed back along strides holds of the attempts. -/
theorem Stride.induct {P : Attempt → Attempt → Prop}
    (done : ∀ {a a'}, R a a' → a.after = [] → a'.after = [] → P a a')
    (char : ∀ {a a' c rest rest'}, R a a' → c.isDigit = false → a.after = c :: rest →
      a'.after = c :: rest' → R (a.take [c] rest) (a'.take [c] rest') →
        P (a.take [c] rest) (a'.take [c] rest') → P a a')
    (run : ∀ {a a' ds ds' rest rest'}, R a a' → Digits ds → Digits ds' → a.after = ds ++ rest →
      a'.after = ds' ++ rest' → isDigitAt rest.head? = false → isDigitAt rest'.head? = false →
        R (a.take ds rest) (a'.take ds' rest') → P (a.take ds rest) (a'.take ds' rest') → P a a')
    (h : R a a') : P a a' := by
  induction hlength : a.after.length using Nat.strong_induction_on generalizing a a' with
  | _ n ih =>
      obtain ⟨ha, ha'⟩ | ⟨hc, ha, ha', hnext⟩ | ⟨hds, hds', ha, ha', hend, hend', hnext⟩ :=
        hR.ahead h
      · exact done h ha ha'
      · refine char h hc ha ha' hnext (ih _ ?_ hnext rfl)
        rw [← hlength, ha]
        exact Nat.lt_succ_self _
      · refine run h hds hds' ha ha' hend hend' hnext (ih _ ?_ hnext rfl)
        have hpos := List.length_pos_iff.mpr hds.nonempty
        rw [← hlength, ha, List.length_append, Attempt.take_after]
        omega

end

/-! ### Blind patterns -/

/-- Attempts that go on in strides run alike. -/
def Blind (p : Pattern) : Prop :=
  ∀ ⦃R : Attempt → Attempt → Prop⦄, Stride R → ∀ ⦃Q : Attempt → Attempt → Prop⦄ ⦃f f' : Onward⦄,
    Follows R Q f f' → Follows R Q (p.run · f) (p.run · f')

/-- A place with digits on both sides of it. -/
def Inside (a : Attempt) : Prop :=
  isDigitAt a.before.head? = true ∧ isDigitAt a.after.head? = true

/-- An attempt that does not go on from inside a run of digits. -/
def Halts (f : Onward) : Prop :=
  ∀ a, Inside a → f a = none

/-- Attempts that go on in strides run alike, if they do not go on behind the pattern from inside a
run of digits. -/
def BlindTo (p : Pattern) : Prop :=
  ∀ ⦃R : Attempt → Attempt → Prop⦄, Stride R → ∀ ⦃Q : Attempt → Attempt → Prop⦄ ⦃f f' : Onward⦄,
    Halts f → Halts f' → Follows R Q f f' → Follows R Q (p.run · f) (p.run · f')

/-- The pattern does not match from inside a run of digits. -/
def Refuses (p : Pattern) : Prop :=
  ∀ f, Halts (p.run · f)

/-- The class has all digits or none. -/
def even (ok : Char → Bool) : Bool :=
  "0123456789".toList.all fun d => ok d == ok '0'

/-- The class has no digits. -/
def lacksDigits (ok : Char → Bool) : Bool :=
  "0123456789".toList.all (!ok ·)

theorem ok_of_even {ok : Char → Bool} (hok : even ok = true) {c : Char} (hc : c.isDigit = true) :
    ok c = ok '0' :=
  beq_iff_eq.mp (List.all_eq_true.mp hok c (Unicode.mem_digits_of_isDigit hc))

theorem not_ok_of_lacksDigits {ok : Char → Bool} (hok : lacksDigits ok = true) {c : Char}
    (hc : c.isDigit = true) : ok c = false := by
  have hnot := List.all_eq_true.mp hok c (Unicode.mem_digits_of_isDigit hc)
  rwa [Bool.not_eq_true'] at hnot

/-! ### Combinations -/

section

variable {p q : Pattern}

theorem blind_empty : Blind .empty := by
  intro R hR Q f f' hf
  exact hf

theorem blind_append (hp : Blind p) (hq : Blind q) : Blind (p ++ q) := by
  intro R hR Q f f' hf
  exact hp hR (hq hR hf)

theorem blind_append_of_refuses (hp : BlindTo p) (hq : Blind q) (hrefuses : Refuses q) :
    Blind (p ++ q) := by
  intro R hR Q f f' hf
  exact hp hR (hrefuses f) (hrefuses f') (hq hR hf)

theorem blind_or (hp : Blind p) (hq : Blind q) : Blind (p ||| q) := by
  intro R hR Q f f' hf a a' h
  simp only [run_or]
  exact rel_or (hp hR hf h) (hq hR hf h)

theorem blind_group (hp : Blind p) : Blind (.group p) := by
  intro R hR Q f f' hf a a' h
  refine hp hR ?_ h
  intro b b' hb
  exact hf (hR.close h hb)

theorem blindTo_group (hp : BlindTo p) : BlindTo (.group p) := by
  intro R hR Q f f' hhalts hhalts' hf a a' h
  have hclosed : Halts fun b => f (b.close a.passed) := fun b hb => hhalts _ hb
  have hclosed' : Halts fun b => f' (b.close a'.passed) := fun b hb => hhalts' _ hb
  refine hp hR hclosed hclosed' ?_ h
  intro b b' hb
  exact hf (hR.close h hb)

theorem rounds_stride {R Q : Attempt → Attempt → Prop} (hR : Stride R) (hp : Blind p)
    {f f' : Onward} (hf : Follows R Q f f') (ahead : Text) {a a' : Attempt} (h : R a a') :
    Option.Rel Q (rounds p.run ahead a f) (rounds p.run ahead a' f') := by
  induction ahead generalizing a a' with
  | nil => exact hf h
  | cons c ahead ih =>
      rw [rounds_cons, rounds_cons]
      refine rel_or (hp hR ?_ h) (hf h)
      intro b b' hb
      simp only [← hR.passed h hb]
      split
      · exact ih hb
      · exact .none

theorem blind_many (hp : Blind p) : Blind (.many p) := by
  intro R hR Q f f' hf a a' h
  -- The texts ahead may differ in length, so both sides get all the rounds of either.
  have hlocal : Local p.run := local_run p
  simp only [run]
  rw [rounds_ahead hlocal a.after (a.after ++ a'.after) (Nat.le_refl _) (by simp),
    rounds_ahead hlocal a'.after (a.after ++ a'.after) (Nat.le_refl _) (by simp)]
  exact rounds_stride hR hp hf _ h

theorem blind_anyOf {ps : List Pattern} (h : ∀ p ∈ ps, Blind p) : Blind (anyOf ps) := by
  induction ps with
  | nil =>
      intro R hR Q f f' hf a a' _
      exact .none
  | cons p ps ih =>
      have hp : Blind p := h p List.mem_cons_self
      cases ps with
      | nil => exact hp
      | cons q ps => exact blind_or hp (ih fun r hr => h r (List.mem_cons_of_mem p hr))

end

/-! ### Tests -/

/-- A test that looks at the characters next to a place and does not tell digits apart. -/
theorem blind_holds {test : Text → Text → Bool}
    (htest : ∀ {before after before' after' : Text}, AlikeAt before.head? before'.head? →
      AlikeAt after.head? after'.head? → test before after = test before' after') :
    Blind (.holds test) := by
  intro R hR Q f f' hf a a' h
  simp only [run, htest (hR.before h) (hR.after h)]
  split
  · exact hf h
  · exact .none

theorem isWord_of_isDigit {c : Char} (h : c.isDigit = true) : Unicode.isWord c = true :=
  ok_of_even (by decide) h

theorem isWordAt_of_isDigitAt {x : Option Char} (h : isDigitAt x = true) : isWordAt x = true := by
  cases x with
  | none => cases h
  | some c => exact isWord_of_isDigit h

theorem isWordAt_alike {x y : Option Char} (h : AlikeAt x y) : isWordAt x = isWordAt y := by
  obtain rfl | ⟨hx, hy⟩ := h
  · rfl
  · rw [isWordAt_of_isDigitAt hx, isWordAt_of_isDigitAt hy]

theorem blind_wordEdge : Blind wordEdge := by
  apply blind_holds
  intro before after before' after' hbefore hafter
  rw [isWordAt_alike hbefore, isWordAt_alike hafter]

theorem isEmpty_alike {t t' : Text} (h : AlikeAt t.head? t'.head?) : t.isEmpty = t'.isEmpty := by
  obtain h | ⟨h, h'⟩ := h
  · exact isEmpty_congr h
  · cases t with
    | nil => cases h
    | cons c t =>
        cases t' with
        | nil => cases h'
        | cons c' t' => rfl

theorem blind_textStart : Blind textStart := by
  apply blind_holds
  intro before after before' after' hbefore _
  exact isEmpty_alike hbefore

theorem blind_lineEnd : Blind lineEnd := by
  apply blind_holds
  intro before after before' after' hbefore hafter
  have hreturn : (before.head? != some '\r') = (before'.head? != some '\r') := by
    obtain h | ⟨h, h'⟩ := hbefore
    · rw [h]
    · have hne : ∀ {x : Option Char}, isDigitAt x = true → (x != some '\r') = true := by
        intro x hx
        refine bne_iff_ne.mpr ?_
        rintro rfl
        cases hx
      rw [hne h, hne h']
  obtain hhead | ⟨hhead, hhead'⟩ := hafter
  · cases after with
    | nil => rw [List.head?_eq_none_iff.mp hhead.symm]
    | cons c rest =>
        obtain ⟨rest', rfl⟩ := List.head?_eq_some_iff.mp hhead.symm
        simp only [hreturn]
        split <;> simp_all
  · cases after with
    | nil => cases hhead
    | cons d rest =>
        cases after' with
        | nil => cases hhead'
        | cons d' rest' =>
            have hd : ∀ {d : Char}, d.isDigit = true → d ≠ '\r' ∧ d ≠ '\n' := by
              rintro d hd
              constructor <;> rintro rfl <;> cases hd
            obtain ⟨hr, hn⟩ := hd hhead
            obtain ⟨hr', hn'⟩ := hd hhead'
            split <;> split <;> simp_all

/-! ### Classes of characters -/

section

variable {ok ok' : Char → Bool}

theorem blind_one (hok : lacksDigits ok = true) : Blind (.one ok) := by
  have hrun : ∀ {ds rest : Text} {a : Attempt}, Digits ds → a.after = ds ++ rest → ∀ f,
      (Pattern.one ok).run a f = none := by
    intro ds rest a hds ha
    apply run_one_none
    intro c hc
    have hhead := hds.head rest
    rw [← ha, hc] at hhead
    exact not_ok_of_lacksDigits hok hhead
  intro R hR Q f f' hf a a' h
  obtain ⟨ha, ha'⟩ | @⟨c, rest, rest', hc, ha, ha', hnext⟩ | ⟨hds, hds', ha, ha', _, _, _⟩ :=
    hR.ahead h
  · simp only [run_one, Attempt.next?, ha, ha']
    exact .none
  · by_cases hokc : ok c = true
    · simp only [run_one_take hokc ha, run_one_take hokc ha']
      exact hf hnext
    · simp only [run_one, Attempt.next?, ha, ha', if_neg hokc]
      exact .none
  · simp only [hrun hds ha, hrun hds' ha']
    exact .none

/-- A character or a run of digits. -/
def Whole (u : Text) : Prop :=
  (∃ c, u = [c]) ∨ Digits u

/-- What holds where a class stops in two texts and is passed back along the strides that it takes
holds of the attempts. -/
theorem Stride.induct_class {R : Attempt → Attempt → Prop} (hR : Stride R) (hok : even ok = true)
    {P : Attempt → Attempt → Prop}
    (stop : ∀ {a a'}, R a a' → (∀ c, a.after.head? = some c → ok c = false) →
      (∀ c, a'.after.head? = some c → ok c = false) → P a a')
    (go : ∀ {a a' u u' rest rest'}, R a a' → Whole u → Whole u' → (∀ c ∈ u, ok c = true) →
      (∀ c ∈ u', ok c = true) → a.after = u ++ rest → a'.after = u' ++ rest' →
        R (a.take u rest) (a'.take u' rest') → P (a.take u rest) (a'.take u' rest') → P a a')
    {a a' : Attempt} (h : R a a') : P a a' := by
  refine hR.induct ?_ ?_ ?_ h
  · intro a a' h ha ha'
    exact stop h (by simp [ha]) (by simp [ha'])
  · intro a a' c rest rest' h hc ha ha' hnext ih
    cases hokc : ok c with
    | false => exact stop h (by simp [ha, hokc]) (by simp [ha', hokc])
    | true =>
        have hall : ∀ d ∈ [c], ok d = true := List.forall_mem_singleton.mpr hokc
        exact go h (Or.inl ⟨c, rfl⟩) (Or.inl ⟨c, rfl⟩) hall hall ha ha' hnext ih
  · intro a a' ds ds' rest rest' h hds hds' ha ha' _ _ hnext ih
    have hall : ∀ {ds : Text}, Digits ds → ∀ c ∈ ds, ok c = ok '0' :=
      fun hds c hc => ok_of_even hok (hds.digit c hc)
    cases hzero : ok '0' with
    | false =>
        have hstop : ∀ {ds rest : Text} {a : Attempt}, Digits ds → a.after = ds ++ rest →
            ∀ c, a.after.head? = some c → ok c = false := by
          intro ds rest a hds ha c hc
          have hhead := hds.head rest
          rw [← ha, hc] at hhead
          rw [ok_of_even hok hhead, hzero]
        exact stop h (hstop hds ha) (hstop hds' ha')
    | true =>
        rw [hzero] at hall
        exact go h (Or.inr hds) (Or.inr hds') (hall hds) (hall hds') ha ha' hnext ih

theorem furthest_take {w rest : Text} (hw : ∀ c ∈ w, ok c = true) {a : Attempt}
    (ha : a.after = w ++ rest) : a.furthest ok = (a.take w rest).furthest ok := by
  rw [Attempt.furthest_eq_take, Attempt.furthest_eq_take, ha, Attempt.take_after,
    Attempt.take_take, List.takeWhile_append_of_pos hw, List.dropWhile_append_of_pos hw]

theorem furthest_stride {R : Attempt → Attempt → Prop} (hR : Stride R) (hok : even ok = true)
    {a a' : Attempt} (h : R a a') : R (a.furthest ok) (a'.furthest ok) := by
  refine hR.induct_class hok (P := fun a a' => R (a.furthest ok) (a'.furthest ok)) ?_ ?_ h
  · intro a a' h hstop hstop'
    rwa [Attempt.furthest_of_none (Attempt.next?_eq_none.mpr hstop),
      Attempt.furthest_of_none (Attempt.next?_eq_none.mpr hstop')]
  · intro a a' u u' rest rest' _ _ _ hu hu' ha ha' _ ih
    rwa [furthest_take hu ha, furthest_take hu' ha']

theorem blind_allOf (hok : even ok = true) : Blind (allOf ok) := by
  intro R hR Q f f' hf a a' h
  exact hf (furthest_stride hR hok h)

theorem run_someOf_furthest (a : Attempt) (f : Onward) :
    (someOf ok).run a f = (a.next? ok).bind fun _ => f (a.furthest ok) := by
  rw [someOf, run_append, run_one]
  cases hnext : a.next? ok with
  | none => rfl
  | some b => rw [Option.bind_some, Option.bind_some, Attempt.furthest_of_some hnext, run_all]

theorem next?_of_whole {u rest : Text} (hu : Whole u) (hall : ∀ c ∈ u, ok c = true) {a : Attempt}
    (ha : a.after = u ++ rest) :
    ∃ d w, u = d :: w ∧ a.next? ok = some (a.take [d] (w ++ rest)) := by
  have hne : u ≠ [] := by
    obtain ⟨c, rfl⟩ | hu := hu
    · exact List.cons_ne_nil c []
    · exact hu.nonempty
  obtain ⟨d, w, rfl⟩ := List.exists_cons_of_ne_nil hne
  exact ⟨d, w, rfl, Attempt.next?_eq_some.mpr ⟨d, w ++ rest, ha, hall d List.mem_cons_self, rfl⟩⟩

theorem blind_someOf (hok : even ok = true) : Blind (someOf ok) := by
  intro R hR Q f f' hf a a' h
  have hend := hf (furthest_stride hR hok h)
  simp only [run_someOf_furthest]
  revert hend
  refine hR.induct_class hok (P := fun a a' =>
    Option.Rel Q (f (a.furthest ok)) (f' (a'.furthest ok)) →
      Option.Rel Q ((a.next? ok).bind fun _ => f (a.furthest ok))
        ((a'.next? ok).bind fun _ => f' (a'.furthest ok))) ?_ ?_ h
  · intro a a' _ hstop hstop' _
    rw [Attempt.next?_eq_none.mpr hstop, Attempt.next?_eq_none.mpr hstop']
    exact .none
  · intro a a' u u' rest rest' _ hu hu' hall hall' ha ha' _ _ hend
    obtain ⟨d, w, rfl, hnext⟩ := next?_of_whole hu hall ha
    obtain ⟨d', w', rfl, hnext'⟩ := next?_of_whole hu' hall' ha'
    rwa [hnext, hnext']

/-! ### Runs of every length -/

/-- The order in which a class tries to stop and to go on. -/
def stopOrGo (reach : Reach) (stop go : Option Attempt) : Option Attempt :=
  match reach with
  | .longest => go.or stop
  | _ => stop.or go

theorem stopOrGo_none (reach : Reach) (go : Option Attempt) : stopOrGo reach none go = go := by
  cases reach <;> simp [stopOrGo]

theorem rel_stopOrGo {Q : Attempt → Attempt → Prop} {x x' y y' : Option Attempt} (reach : Reach)
    (hx : Option.Rel Q x x') (hy : Option.Rel Q y y') :
    Option.Rel Q (stopOrGo reach x y) (stopOrGo reach x' y') := by
  cases reach with
  | longest => exact rel_or hy hx
  | all | shortest => exact rel_or hx hy

theorem run_chars {reach : Reach} (hreach : reach ≠ .all) (a : Attempt) (f : Onward) :
    (Pattern.chars reach ok).run a f =
      stopOrGo reach (f a) ((a.next? ok).bind fun b => (Pattern.chars reach ok).run b f) := by
  cases reach with
  | all => exact absurd rfl hreach
  | longest =>
      rw [run_longest, stopOrGo]
      cases hnext : a.next? ok with
      | none => rw [Attempt.runs_of_none hnext, List.findSome?_singleton, Option.bind_none,
          Option.none_or]
      | some b => rw [Attempt.runs_of_some hnext, List.findSome?_append, List.findSome?_singleton,
          Option.bind_some, run_longest]
  | shortest => exact run_shortest ok a f

/-- From inside a run of digits a class goes on to its end. -/
theorem run_chars_inside {reach : Reach} (hreach : reach ≠ .all) {f : Onward} (hf : Halts f)
    {d : Char} (hd : d.isDigit = true) {w rest : Text} (hw : ∀ c ∈ w, c.isDigit = true)
    (hall : ∀ c ∈ w, ok c = true) (a : Attempt) :
    (Pattern.chars reach ok).run (a.take [d] (w ++ rest)) f =
      (Pattern.chars reach ok).run (a.take (d :: w) rest) f := by
  induction w generalizing a d with
  | nil => rfl
  | cons e w ih =>
      obtain ⟨he, hw⟩ := List.forall_mem_cons.mp hw
      obtain ⟨hoke, hall⟩ := List.forall_mem_cons.mp hall
      have hinside : Inside (a.take [d] (e :: w ++ rest)) := ⟨hd, he⟩
      have hnext : (a.take [d] (e :: w ++ rest)).next? ok =
          some ((a.take [d] (e :: w ++ rest)).take [e] (w ++ rest)) :=
        Attempt.next?_eq_some.mpr ⟨e, w ++ rest, rfl, hoke, rfl⟩
      rw [run_chars hreach, hf _ hinside, stopOrGo_none, hnext, Option.bind_some, ih he hw hall,
        Attempt.take_take]
      rfl

theorem run_chars_whole {reach : Reach} (hreach : reach ≠ .all) {f : Onward} (hf : Halts f)
    {d : Char} {w rest : Text} (hu : Whole (d :: w)) (hall : ∀ c ∈ w, ok c = true) (a : Attempt) :
    (Pattern.chars reach ok).run (a.take [d] (w ++ rest)) f =
      (Pattern.chars reach ok).run (a.take (d :: w) rest) f := by
  obtain ⟨c, hc⟩ | hu := hu
  · obtain ⟨rfl, rfl⟩ := List.cons.inj hc
    rfl
  · obtain ⟨hd, hw⟩ := List.forall_mem_cons.mp hu.digit
    exact run_chars_inside hreach hf hd hw hall a

theorem blindTo_chars {reach : Reach} (hreach : reach ≠ .all) (hok : even ok = true) :
    BlindTo (.chars reach ok) := by
  intro R hR Q f f' hhalts hhalts' hf a a' h
  refine hR.induct_class hok (P := fun a a' => Option.Rel Q ((Pattern.chars reach ok).run a f)
    ((Pattern.chars reach ok).run a' f')) ?_ ?_ h
  · intro a a' h hstop hstop'
    rw [run_chars hreach, run_chars hreach, Attempt.next?_eq_none.mpr hstop,
      Attempt.next?_eq_none.mpr hstop']
    exact rel_stopOrGo reach (hf h) .none
  · intro a a' u u' rest rest' h hu hu' hall hall' ha ha' _ ih
    obtain ⟨d, w, rfl, hnext⟩ := next?_of_whole hu hall ha
    obtain ⟨d', w', rfl, hnext'⟩ := next?_of_whole hu' hall' ha'
    rw [run_chars hreach, run_chars hreach a', hnext, hnext', Option.bind_some, Option.bind_some,
      run_chars_whole hreach hhalts hu fun c hc => hall c (List.mem_cons_of_mem d hc),
      run_chars_whole hreach hhalts' hu' fun c hc => hall' c (List.mem_cons_of_mem d' hc)]
    exact rel_stopOrGo reach (hf h) ih

/-- A character and then any number of characters of a class with all digits. -/
theorem blindTo_one_chars {reach : Reach} (hreach : reach ≠ .all) (hok : even ok = true)
    (hok' : even ok' = true) (hzero : ok' '0' = true) :
    BlindTo (.one ok ++ .chars reach ok') := by
  intro R hR Q f f' hhalts hhalts' hf a a' h
  refine hR.induct_class hok (P := fun a a' => Option.Rel Q
    ((Pattern.one ok ++ .chars reach ok').run a f)
      ((Pattern.one ok ++ .chars reach ok').run a' f')) ?_ ?_ h
  · intro a a' _ hstop hstop'
    rw [run_append, run_append, run_one_none hstop, run_one_none hstop']
    exact .none
  · intro a a' u u' rest rest' _ hu hu' hall hall' ha ha' hnext _
    have htail : ∀ {d : Char} {w : Text}, Whole (d :: w) → ∀ c ∈ w, ok' c = true := by
      rintro d w (⟨e, he⟩ | hdigits) c hc
      · rw [(List.cons.inj he).2] at hc
        cases hc
      · rw [ok_of_even hok' (hdigits.digit c (List.mem_cons_of_mem d hc)), hzero]
    obtain ⟨d, w, rfl, hone⟩ := next?_of_whole hu hall ha
    obtain ⟨d', w', rfl, hone'⟩ := next?_of_whole hu' hall' ha'
    rw [run_append, run_append, run_one, run_one, hone, hone', Option.bind_some, Option.bind_some,
      run_chars_whole hreach hhalts hu (htail hu), run_chars_whole hreach hhalts' hu' (htail hu')]
    exact blindTo_chars hreach hok' hR hhalts hhalts' hf hnext

end

end QueryDigest.Pattern
