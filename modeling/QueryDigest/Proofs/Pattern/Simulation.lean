import QueryDigest.Pattern.Basic

/-!
Simulations of attempts. Where a relation between attempts is kept by every character that a
pattern takes and by every test that it makes, the pattern runs alike from related attempts. What
an attempt can reach, and how little of a text it looks at, are simulations of this kind.
-/

namespace QueryDigest.Pattern

namespace Attempt

def next? (ok : Char → Bool) (a : Attempt) : Option Attempt :=
  match a.after with
  | [] => none
  | c :: rest => if ok c then some ⟨c :: a.before, rest, a.passed + 1, a.groups⟩ else none

theorem next?_eq_some {ok : Char → Bool} {a b : Attempt} :
    a.next? ok = some b ↔
      ∃ c rest, a.after = c :: rest ∧ ok c = true ∧
        b = ⟨c :: a.before, rest, a.passed + 1, a.groups⟩ := by
  obtain ⟨before, after, passed, groups⟩ := a
  constructor
  · intro h
    cases after with
    | nil => cases h
    | cons c rest =>
        cases hok : ok c with
        | false => simp [next?, hok] at h
        | true =>
            simp only [next?, hok, if_true, Option.some.injEq] at h
            exact ⟨c, rest, rfl, hok, h.symm⟩
  · rintro ⟨c, rest, rfl, hok, rfl⟩
    simp [next?, hok]

theorem next?_eq_none {ok : Char → Bool} {a : Attempt} :
    a.next? ok = none ↔ ∀ c, a.after.head? = some c → ok c = false := by
  unfold next?
  cases hafter : a.after with
  | nil => simp
  | cons c rest => cases hok : ok c <;> simp [hok]

def furthest (ok : Char → Bool) (a : Attempt) : Attempt :=
  Pattern.furthest ok a.groups a.before a.passed a.after

theorem furthest_of_none {ok : Char → Bool} {a : Attempt} (h : a.next? ok = none) :
    a.furthest ok = a := by
  obtain ⟨before, after, passed, groups⟩ := a
  cases after with
  | nil => rfl
  | cons c rest =>
      have hc : ok c = false := next?_eq_none.mp h c rfl
      simp [furthest, Pattern.furthest, hc]

theorem furthest_of_some {ok : Char → Bool} {a b : Attempt} (h : a.next? ok = some b) :
    a.furthest ok = b.furthest ok := by
  obtain ⟨c, rest, hafter, hc, rfl⟩ := next?_eq_some.mp h
  simp [furthest, hafter, Pattern.furthest, hc]

/-- The attempts behind the runs of characters of a class that come next, the longest first. -/
def runs (ok : Char → Bool) (a : Attempt) : List Attempt :=
  Pattern.runs ok a.groups a.before a.passed a.after []

end Attempt

theorem runs_append (ok : Char → Bool) (groups : List (Nat × Nat)) (before : Text)
    (passed : Nat) (after : Text) (reached : List Attempt) :
    runs ok groups before passed after reached =
      runs ok groups before passed after [] ++ reached := by
  induction after generalizing before passed reached with
  | nil => rfl
  | cons c rest ih =>
      simp only [runs]
      cases ok c with
      | false => rfl
      | true =>
          rw [if_pos rfl, if_pos rfl, ih, ih _ _ [_], List.append_assoc]
          rfl

theorem Attempt.runs_of_none {ok : Char → Bool} {a : Attempt} (h : a.next? ok = none) :
    a.runs ok = [a] := by
  obtain ⟨before, after, passed, groups⟩ := a
  cases after with
  | nil => rfl
  | cons c rest =>
      have hc : ok c = false := next?_eq_none.mp h c rfl
      simp [runs, Pattern.runs, hc]

theorem Attempt.runs_of_some {ok : Char → Bool} {a b : Attempt} (h : a.next? ok = some b) :
    a.runs ok = b.runs ok ++ [a] := by
  obtain ⟨before, after, passed, groups⟩ := a
  obtain ⟨c, rest, rfl, hc, rfl⟩ := next?_eq_some.mp h
  simp only [runs, Pattern.runs, hc, if_true]
  exact runs_append ok groups (c :: before) (passed + 1) rest _

/-! ### Patterns by their single steps -/

theorem run_alt (p q : Pattern) (a : Attempt) (onward : Onward) :
    (p.alt q).run a onward = (p.run a onward).or (q.run a onward) := by
  rw [run]
  cases p.run a onward <;> rfl

theorem run_one (ok : Char → Bool) (a : Attempt) (onward : Onward) :
    (Pattern.one ok).run a onward = (a.next? ok).bind onward := by
  obtain ⟨before, after, passed, groups⟩ := a
  cases after with
  | nil => rfl
  | cons c rest => cases hc : ok c <;> simp [run, Attempt.next?, hc]

theorem run_all (ok : Char → Bool) (a : Attempt) (onward : Onward) :
    (Pattern.chars .all ok).run a onward = onward (a.furthest ok) :=
  rfl

theorem run_longest (ok : Char → Bool) (a : Attempt) (onward : Onward) :
    (Pattern.chars .longest ok).run a onward = (a.runs ok).findSome? onward :=
  rfl

theorem run_shortest (ok : Char → Bool) (a : Attempt) (onward : Onward) :
    (Pattern.chars .shortest ok).run a onward =
      (onward a).or ((a.next? ok).bind fun b => (Pattern.chars .shortest ok).run b onward) := by
  obtain ⟨before, after, passed, groups⟩ := a
  cases after with
  | nil =>
      rw [run, nearest]
      cases onward ⟨before, [], passed, groups⟩ <;> rfl
  | cons c rest =>
      rw [run, nearest]
      cases onward ⟨before, c :: rest, passed, groups⟩ with
      | some d => rfl
      | none => cases hc : ok c <;> simp [Attempt.next?, hc, run]

/-! ### Simulations -/

/-- What two attempts have to agree on while they run alike. -/
structure Simulation (R : Attempt → Attempt → Prop) : Prop where
  passed : ∀ {a b}, R a b → a.passed = b.passed
  close : ∀ {a b} (opened : Nat), R a b → R (a.close opened) (b.close opened)

def StepsAlike (R : Attempt → Attempt → Prop) (ok : Char → Bool) : Prop :=
  ∀ {a b}, R a b → Option.Rel R (a.next? ok) (b.next? ok)

/-- A relation between attempts is kept by the classes of a pattern, and its tests respect it. -/
def Respects (R : Attempt → Attempt → Prop) : Pattern → Prop
  | .empty => True
  | .holds test => ∀ {a b}, R a b → test a.before a.after = test b.before b.after
  | .one ok | .chars _ ok => StepsAlike R ok
  | .seq p q | .alt p q => Respects R p ∧ Respects R q
  | .many p | .group p => Respects R p

/-- Related attempts go on to related outcomes. -/
def Follows (R Q : Attempt → Attempt → Prop) (onward onward' : Onward) : Prop :=
  ∀ {a b}, R a b → Option.Rel Q (onward a) (onward' b)

theorem rel_cases {α β : Type} {R : α → β → Prop} {x : Option α} {y : Option β}
    (h : Option.Rel R x y) : (x = none ∧ y = none) ∨ ∃ a b, x = some a ∧ y = some b ∧ R a b := by
  cases h with
  | none => exact Or.inl ⟨rfl, rfl⟩
  | some h => exact Or.inr ⟨_, _, rfl, rfl, h⟩

theorem rel_or {Q : Attempt → Attempt → Prop} {x y x' y' : Option Attempt}
    (h : Option.Rel Q x y) (h' : Option.Rel Q x' y') : Option.Rel Q (x.or x') (y.or y') := by
  cases h with
  | none => exact h'
  | some h => exact .some h

theorem rel_bind {R Q : Attempt → Attempt → Prop} {x y : Option Attempt}
    {onward onward' : Onward} (h : Option.Rel R x y) (hf : Follows R Q onward onward') :
    Option.Rel Q (x.bind onward) (y.bind onward') := by
  cases h with
  | none => exact .none
  | some h => exact hf h

section

variable {R Q : Attempt → Attempt → Prop} {ok : Char → Bool} {onward onward' : Onward}

/-- What holds at the end of a run and is passed back along its steps holds at its start. -/
theorem StepsAlike.induct (hok : StepsAlike R ok) {P : Attempt → Attempt → Prop}
    (stop : ∀ {a b}, R a b → a.next? ok = none → b.next? ok = none → P a b)
    (step : ∀ {a b a' b'}, R a b → a.next? ok = some a' → b.next? ok = some b' → P a' b' → P a b)
    {a b : Attempt} (hab : R a b) : P a b := by
  induction hlength : a.after.length generalizing a b with
  | zero =>
      have ha : a.next? ok = none :=
        Attempt.next?_eq_none.mpr (by simp [List.length_eq_zero_iff.mp hlength])
      obtain ⟨_, hb⟩ | ⟨a', b', ha', _⟩ := rel_cases (hok hab)
      · exact stop hab ha hb
      · rw [ha] at ha'
        cases ha'
  | succ n ih =>
      obtain ⟨ha, hb⟩ | ⟨a', b', ha, hb, hab'⟩ := rel_cases (hok hab)
      · exact stop hab ha hb
      · obtain ⟨c, rest, hafter, _, rfl⟩ := Attempt.next?_eq_some.mp ha
        refine step hab ha hb (ih hab' ?_)
        simpa [hafter] using hlength

theorem furthest_related (hok : StepsAlike R ok) {a b : Attempt} (hab : R a b) :
    R (a.furthest ok) (b.furthest ok) := by
  refine hok.induct (P := fun a b => R (a.furthest ok) (b.furthest ok)) ?_ ?_ hab
  · intro a b hab ha hb
    rwa [Attempt.furthest_of_none ha, Attempt.furthest_of_none hb]
  · intro a b a' b' _ ha hb ih
    rwa [Attempt.furthest_of_some ha, Attempt.furthest_of_some hb]

theorem findSome?_runs_related (hok : StepsAlike R ok) (hf : Follows R Q onward onward')
    {a b : Attempt} (hab : R a b) :
    Option.Rel Q ((a.runs ok).findSome? onward) ((b.runs ok).findSome? onward') := by
  refine hok.induct
    (P := fun a b => Option.Rel Q ((a.runs ok).findSome? onward)
      ((b.runs ok).findSome? onward')) ?_ ?_ hab
  · intro a b hab ha hb
    rw [Attempt.runs_of_none ha, Attempt.runs_of_none hb, List.findSome?_singleton,
      List.findSome?_singleton]
    exact hf hab
  · intro a b a' b' hab ha hb ih
    rw [Attempt.runs_of_some ha, Attempt.runs_of_some hb, List.findSome?_append,
      List.findSome?_append, List.findSome?_singleton, List.findSome?_singleton]
    exact rel_or ih (hf hab)

theorem run_shortest_related (hok : StepsAlike R ok) (hf : Follows R Q onward onward')
    {a b : Attempt} (hab : R a b) :
    Option.Rel Q ((Pattern.chars .shortest ok).run a onward)
      ((Pattern.chars .shortest ok).run b onward') := by
  refine hok.induct
    (P := fun a b => Option.Rel Q ((Pattern.chars .shortest ok).run a onward)
      ((Pattern.chars .shortest ok).run b onward')) ?_ ?_ hab
  · intro a b hab ha hb
    rw [run_shortest, run_shortest, ha, hb]
    exact rel_or (hf hab) .none
  · intro a b a' b' hab ha hb ih
    rw [run_shortest, run_shortest _ b, ha, hb]
    exact rel_or (hf hab) ih

end

/-! ### Invariants of an attempt -/

/-- What holds of an attempt however it goes on. -/
structure Invariant (I : Attempt → Prop) : Prop where
  next : ∀ {ok : Char → Bool} {a b}, a.next? ok = some b → I a → I b
  close : ∀ {a} (opened : Nat), I a → I (a.close opened)

def Same (I : Attempt → Prop) (a b : Attempt) : Prop :=
  a = b ∧ I a

section

variable {I : Attempt → Prop} (hI : Invariant I)

include hI

theorem Invariant.simulation : Simulation (Same I) where
  passed := fun h => congrArg Attempt.passed h.1
  close := fun opened h => ⟨congrArg (Attempt.close opened) h.1, hI.close opened h.2⟩

theorem Invariant.stepsAlike (ok : Char → Bool) : StepsAlike (Same I) ok := by
  intro a b h
  obtain ⟨rfl, ha⟩ := h
  cases hnext : a.next? ok with
  | none => exact .none
  | some b => exact .some ⟨rfl, hI.next hnext ha⟩

theorem Invariant.respects (p : Pattern) : Respects (Same I) p := by
  induction p with
  | empty => trivial
  | holds test =>
      intro a b h
      rw [h.1]
  | one ok | chars reach ok => exact hI.stepsAlike ok
  | seq p q ihp ihq | alt p q ihp ihq => exact ⟨ihp, ihq⟩
  | many p ih | group p ih => exact ih

end

/-- The attempt `b` has taken some characters behind `a`. -/
def Attempt.Reaches (a b : Attempt) : Prop :=
  ∃ taken, a.after = taken ++ b.after ∧ b.before = taken.reverse ++ a.before ∧
    b.passed = a.passed + taken.length

theorem Attempt.Reaches.refl (a : Attempt) : a.Reaches a :=
  ⟨[], rfl, rfl, rfl⟩

theorem Attempt.Reaches.passed_le {a b : Attempt} (h : a.Reaches b) : a.passed ≤ b.passed := by
  obtain ⟨taken, _, _, hpassed⟩ := h
  exact hpassed ▸ Nat.le_add_right a.passed taken.length

theorem invariant_reaches (a : Attempt) : Invariant a.Reaches where
  next := by
    intro ok b c h hab
    obtain ⟨taken, hafter, hbefore, hpassed⟩ := hab
    obtain ⟨x, rest, hb, _, rfl⟩ := Attempt.next?_eq_some.mp h
    refine ⟨taken ++ [x], ?_, ?_, ?_⟩
    · simp [hafter, hb]
    · simp [hbefore]
    · simp [hpassed, Nat.add_assoc]
  close := fun _ h => h

/-! ### Rounds -/

section

variable {once : Attempt → Onward → Option Attempt}

/-- What a round comes to depends only on how the attempts go on that it reaches. -/
def Local (once : Attempt → Onward → Option Attempt) : Prop :=
  ∀ {Q : Attempt → Attempt → Prop} {a : Attempt} {onward onward' : Onward},
    Follows (Same a.Reaches) Q onward onward' → Option.Rel Q (once a onward) (once a onward')

theorem Local.none (h : Local once) {a : Attempt} {onward : Onward}
    (hnone : ∀ b, a.Reaches b → onward b = Option.none) : once a onward = Option.none := by
  have hrel : Option.Rel (fun _ _ => False) (once a onward) (once a onward) := by
    refine h ?_
    intro b c hbc
    rw [← hbc.1, hnone b hbc.2]
    exact .none
  obtain ⟨hrun, _⟩ | ⟨_, _, _, _, hfalse⟩ := rel_cases hrel
  · exact hrun
  · exact hfalse.elim

theorem rounds_cons (c : Char) (rest : Text) (a : Attempt) (onward : Onward) :
    rounds once (c :: rest) a onward =
      (once a fun b => if a.passed < b.passed then rounds once rest b onward else none).or
        (onward a) := by
  rw [rounds]
  cases once a _ <;> rfl

theorem rounds_of_after_nil (h : Local once) (ahead : Text) {a : Attempt}
    (ha : a.after = []) (onward : Onward) : rounds once ahead a onward = onward a := by
  cases ahead with
  | nil => rfl
  | cons c rest =>
      rw [rounds, h.none]
      intro b hb
      obtain ⟨taken, hafter, _, hpassed⟩ := hb
      have htaken : taken = [] := by
        rw [ha] at hafter
        exact (List.append_eq_nil_iff.mp hafter.symm).1
      rw [if_neg]
      simp [hpassed, htaken]

theorem rel_eq {x y : Option Attempt} : Option.Rel Eq x y ↔ x = y := by
  constructor
  · intro h
    cases h with
    | none => rfl
    | some h => rw [h]
  · rintro rfl
    cases x with
    | none => exact .none
    | some a => exact .some rfl

/-- Each round takes a character, so that more characters ahead than there are change nothing. -/
theorem rounds_ahead (h : Local once) (ahead ahead' : Text) {a : Attempt}
    (hahead : a.after.length ≤ ahead.length) (hahead' : a.after.length ≤ ahead'.length)
    (onward : Onward) : rounds once ahead a onward = rounds once ahead' a onward := by
  induction ahead generalizing ahead' a with
  | nil =>
      have ha : a.after = [] := List.eq_nil_of_length_eq_zero (Nat.le_zero.mp hahead)
      rw [rounds_of_after_nil h ahead' ha]
      rfl
  | cons c rest ih =>
      cases ahead' with
      | nil =>
          have ha : a.after = [] := List.eq_nil_of_length_eq_zero (Nat.le_zero.mp hahead')
          rw [rounds_of_after_nil h _ ha]
          rfl
      | cons c' rest' =>
          rw [rounds, rounds, rel_eq.mp (h ?_)]
          intro b _ hb
          obtain ⟨rfl, taken, hafter, _, hpassed⟩ := hb
          apply rel_eq.mpr
          by_cases hround : a.passed < b.passed
          · have hlength : a.after.length = taken.length + b.after.length := by
              rw [hafter, List.length_append]
            rw [List.length_cons] at hahead hahead'
            simp only [if_pos hround]
            exact ih rest' (by omega) (by omega)
          · simp only [if_neg hround]

theorem rounds_related {R Q : Attempt → Attempt → Prop} (hR : Simulation R)
    {onward onward' : Onward} (hf : Follows R Q onward onward')
    (honce : ∀ {f f' : Onward} {a b : Attempt}, Follows R Q f f' → R a b →
      Option.Rel Q (once a f) (once b f'))
    (ahead : Text) {a b : Attempt} (hab : R a b) :
    Option.Rel Q (rounds once ahead a onward) (rounds once ahead b onward') := by
  induction ahead generalizing a b with
  | nil => exact hf hab
  | cons c rest ih =>
      have hround : Option.Rel Q
          (once a fun d => if a.passed < d.passed then rounds once rest d onward else none)
          (once b fun d => if b.passed < d.passed then rounds once rest d onward' else none) := by
        refine honce ?_ hab
        intro d d' hd
        simp only [← hR.passed hab, ← hR.passed hd]
        split
        · exact ih hd
        · exact .none
      rw [rounds_cons, rounds_cons]
      exact rel_or hround (hf hab)

end

/-! ### Runs -/

/-- Related attempts run alike under a pattern that respects the relation. -/
theorem run_related {p : Pattern} {R Q : Attempt → Attempt → Prop} (hR : Simulation R)
    (hp : Respects R p) {onward onward' : Onward} (hf : Follows R Q onward onward')
    {a b : Attempt} (hab : R a b) : Option.Rel Q (p.run a onward) (p.run b onward') := by
  induction p generalizing R Q onward onward' a b with
  | empty => exact hf hab
  | holds test =>
      rw [run, run, hp hab]
      split
      · exact hf hab
      · exact .none
  | one ok =>
      rw [run_one, run_one]
      exact rel_bind (hp hab) hf
  | chars reach ok =>
      cases reach with
      | all =>
          rw [run_all, run_all]
          exact hf (furthest_related hp hab)
      | longest =>
          rw [run_longest, run_longest]
          exact findSome?_runs_related hp hf hab
      | shortest => exact run_shortest_related hp hf hab
  | seq p q ihp ihq =>
      refine ihp hR hp.1 ?_ hab
      intro c d hcd
      exact ihq hR hp.2 hf hcd
  | alt p q ihp ihq =>
      rw [run_alt, run_alt]
      exact rel_or (ihp hR hp.1 hf hab) (ihq hR hp.2 hf hab)
  | many p ih =>
      -- The texts ahead may differ in length, so both sides get all the rounds of either.
      have hlocal : Local p.run := by
        intro Q a f f' hfollows
        have hI := invariant_reaches a
        exact ih hI.simulation (hI.respects p) hfollows ⟨rfl, .refl a⟩
      rw [run, run,
        rounds_ahead hlocal a.after (a.after ++ b.after) (Nat.le_refl _) (by simp),
        rounds_ahead hlocal b.after (a.after ++ b.after) (Nat.le_refl _) (by simp)]
      refine rounds_related hR hf ?_ _ hab
      intro f f' c d hfollows hcd
      exact ih hR hp hfollows hcd
  | group p ih =>
      refine ih hR hp ?_ hab
      intro c d hcd
      rw [hR.passed hab]
      exact hf (hR.close b.passed hcd)

theorem Invariant.run {I : Attempt → Prop} (hI : Invariant I) {p : Pattern} {a b : Attempt}
    (h : p.run a some = some b) (ha : I a) : I b := by
  have hrel : Option.Rel (Same I) (p.run a some) (p.run a some) := by
    refine run_related hI.simulation (hI.respects p) ?_ ⟨rfl, ha⟩
    intro c d hcd
    exact .some hcd
  rw [h] at hrel
  cases hrel with
  | some hb => exact hb.2

theorem run_reaches {p : Pattern} {a b : Attempt} (h : p.run a some = some b) :
    a.Reaches b :=
  (invariant_reaches a).run h (.refl a)

end QueryDigest.Pattern
