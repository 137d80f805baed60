import QueryDigest.Proofs.Pattern.Runs

/-!
What is read off a text from a place on, without the places of what is found. A run is such a
reading, put together like its pattern, and so is a search. Of a literal in a text nothing is read
where none of the words that the reading asks for is written in it.
-/

namespace QueryDigest.Pattern

open Unicode (foldLetter)

/-- What is read at a place between two texts, the one before it in reverse. -/
abbrev Reading (α : Type) := (before after : Text) → Option α

namespace Reading

variable {α : Type}

/-- Reads behind a character of a class. -/
def step (ok : Char → Bool) (f : Reading α) : Reading α
  | _, [] => none
  | before, c :: rest => if ok c then f (c :: before) rest else none

/-- Reads behind a keyword. -/
def behind (k : Text) (f : Reading α) : Reading α :=
  k.foldr (fun c f => step (fun d => foldLetter d == foldLetter c) f) f

/-- Reads at the edge of a word. -/
def edge (f : Reading α) : Reading α
  | before, after => if isWordAt before.head? != isWordAt after.head? then f before after else none

/-- The last that is read behind characters of a class. -/
def last (ok : Char → Bool) (f : Reading α) : Reading α
  | before, [] => f before []
  | before, c :: rest =>
    (if ok c then last ok f (c :: before) rest else none).or (f before (c :: rest))

/-- The first that is read at the place or behind it. -/
def first (f : Reading α) : Reading α
  | before, [] => f before []
  | before, c :: rest => (f before (c :: rest)).or (first f (c :: before) rest)

end Reading

/-! ### Runs and searches -/

section

variable {α : Type} {g : Attempt → α} {f : Reading α} {onward : Onward}
  (h : ∀ a : Attempt, (onward a).map g = f a.before a.after)

include h

theorem map_run_one (ok : Char → Bool) (a : Attempt) :
    ((Pattern.one ok).run a onward).map g = f.step ok a.before a.after := by
  obtain ⟨before, after, passed, groups⟩ := a
  cases after with
  | nil => rfl
  | cons c rest =>
      cases hc : ok c with
      | false => simp [run, Reading.step, hc]
      | true =>
          simp only [run, Reading.step, hc, if_true]
          exact h _

theorem map_run_keyword (k : Text) (a : Attempt) :
    ((keyword k).run a onward).map g = f.behind k a.before a.after := by
  induction k generalizing a with
  | nil => exact h a
  | cons c k ih => exact map_run_one ih _ a

theorem map_run_wordEdge (a : Attempt) :
    (wordEdge.run a onward).map g = f.edge a.before a.after := by
  rw [wordEdge, run, Reading.edge]
  split
  · exact h a
  · rfl

theorem map_run_asMany (ok : Char → Bool) (a : Attempt) :
    ((asMany ok).run a onward).map g = f.last ok a.before a.after := by
  induction hafter : a.after generalizing a with
  | nil =>
      rw [run_asMany_stop (Attempt.next?_eq_none.mpr (by simp [hafter])), h, hafter]
      rfl
  | cons c rest ih =>
      rw [Reading.last]
      cases hc : ok c with
      | false =>
          rw [run_asMany_stop (Attempt.next?_eq_none.mpr (by simp [hafter, hc])), h, hafter]
          rfl
      | true =>
          rw [run_asMany_step hafter hc, Option.map_or, ih _ rfl, h, hafter]
          rfl

end

/-- Whether anything is read behind a run does not depend on which run is tried first. -/
theorem map_run_asFew {g : Attempt → Unit} {f : Reading Unit} {onward : Onward}
    (h : ∀ a : Attempt, (onward a).map g = f a.before a.after) (ok : Char → Bool) (a : Attempt) :
    ((asFew ok).run a onward).map g = f.last ok a.before a.after := by
  have hcomm : ∀ x y : Option Unit, x.or y = y.or x := by
    intro x y
    cases x <;> cases y <;> rfl
  induction hafter : a.after generalizing a with
  | nil =>
      rw [asFew, run_shortest, Attempt.next?_eq_none.mpr (by simp [hafter]), Option.bind_none,
        Option.or_none, h, hafter]
      rfl
  | cons c rest ih =>
      rw [asFew, run_shortest, Option.map_or, h, hafter, Reading.last, hcomm]
      cases hc : ok c with
      | false =>
          rw [Attempt.next?_eq_none.mpr (by simp [hafter, hc])]
          rfl
      | true =>
          rw [Attempt.next?_eq_some.mpr ⟨c, rest, hafter, hc, rfl⟩, Option.bind_some, if_pos rfl]
          exact congrArg (Option.or · _) (ih _ rfl)

theorem map_findBetween {α : Type} (p : Pattern) (g : Hit → α) (before after : Text) :
    (p.findBetween before after).map g =
      Reading.first (fun before after => (p.matchAt? ⟨before, after⟩).map g) before after := by
  induction after generalizing before with
  | nil => rfl
  | cons c rest ih => rw [findBetween_cons, Option.map_or, ih, Reading.first]

/-! ### Literals -/

/-- None of some words stands in a text, in any case. -/
def Lacks (ks : List Text) (t : Text) : Prop :=
  ∀ k ∈ ks, ¬ k <:+: t.map foldLetter

theorem Lacks.quote {ks : List Text} {b x : Text} (h : Lacks ks b) (hks : ∀ k ∈ ks, '\'' ∉ k)
    (hx : x <:+ b) : Lacks ks (x ++ ['\'']) := by
  intro k hk hwithin
  have hwithin' : k <:+: x.map foldLetter ++ ['\''] := by
    rwa [List.map_append] at hwithin
  obtain hend | hwithin := List.infix_concat_iff.mp hwithin'
  · obtain rfl | ⟨u, rfl, _⟩ := List.suffix_concat_iff.mp hend
    · exact h _ hk List.nil_infix
    · exact hks _ hk (List.mem_append_right u List.mem_cons_self)
  · exact h k hk (hwithin.trans (hx.isInfix.map foldLetter))

namespace Reading

variable {α : Type} {p b b' s : Text} {f : Reading α}

/-- Of what stands in front of a place only the nearest character counts. -/
def Near (f : Reading α) : Prop :=
  ∀ before before' : Text, before.head? = before'.head? → ∀ t, f before t = f before' t

theorem Near.first (h : f.Near) : f.first.Near := by
  intro before before' hbefore t
  induction t generalizing before before' with
  | nil => exact h before before' hbefore []
  | cons c rest ih =>
      rw [Reading.first, Reading.first, h before before' hbefore (c :: rest),
        ih (c :: before) (c :: before') rfl]

theorem Near.last (h : f.Near) (ok : Char → Bool) : (f.last ok).Near := by
  intro before before' hbefore t
  induction t generalizing before before' with
  | nil => exact h before before' hbefore []
  | cons c rest ih =>
      rw [Reading.last, Reading.last, h before before' hbefore (c :: rest),
        ih (c :: before) (c :: before') rfl]

theorem Near.step (h : f.Near) (ok : Char → Bool) : (f.step ok).Near := by
  intro before before' _ t
  cases t with
  | nil => rfl
  | cons c rest =>
      rw [Reading.step, Reading.step, h (c :: before) (c :: before') rfl rest]

theorem Near.behind (h : f.Near) (k : Text) : (f.behind k).Near := by
  induction k with
  | nil => exact h
  | cons c k ih => exact ih.step _

theorem Near.edge (h : f.Near) : f.edge.Near := by
  intro before before' hbefore t
  rw [Reading.edge, Reading.edge, hbefore, h before before' hbefore t]

/-- The same is read in front of either of two literals and behind it, and nothing in it. -/
structure Blind (p b b' s : Text) (f : Reading α) : Prop where
  near : f.Near
  front : ∀ (before : Text) {x : Text}, x <:+ p →
    f before (x ++ '\'' :: (b ++ '\'' :: s)) = f before (x ++ '\'' :: (b' ++ '\'' :: s))
  body : ∀ (before : Text) {x : Text}, x <:+ b → f before (x ++ '\'' :: s) = none
  body' : ∀ (before : Text) {x : Text}, x <:+ b' → f before (x ++ '\'' :: s) = none

section

variable (h : Blind p b b' s f)

include h

theorem Blind.of_suffix {p' : Text} (hsuffix : p' <:+ p) : Blind p' b b' s f :=
  ⟨h.near, fun before _ hx => h.front before (hx.trans hsuffix), h.body, h.body'⟩

theorem Blind.symm : Blind p b' b s f :=
  ⟨h.near, fun before _ hx => (h.front before hx).symm, h.body', h.body⟩

/-! ### Searches -/

/-- A search passes over the literal and goes on behind it. -/
theorem Blind.first_body (before : Text) {x : Text} (hx : x <:+ b) :
    f.first before (x ++ '\'' :: s) = f.first ['\''] s := by
  induction x generalizing before with
  | nil =>
      have hquote := h.body before hx
      rw [List.nil_append] at hquote ⊢
      rw [first, hquote, Option.none_or]
      exact h.near.first ('\'' :: before) ['\''] rfl s
  | cons c x ih =>
      have hfirst := h.body before hx
      rw [List.cons_append] at hfirst ⊢
      rw [first, hfirst, Option.none_or, ih _ ((List.suffix_cons c x).trans hx)]

theorem Blind.first_eq (before : Text) :
    f.first before (p ++ '\'' :: (b ++ '\'' :: s)) =
      f.first before (p ++ '\'' :: (b' ++ '\'' :: s)) := by
  induction p generalizing before with
  | nil =>
      have hfront := h.front before (List.suffix_refl [])
      rw [List.nil_append, List.nil_append] at hfront ⊢
      rw [first, first, hfront, h.first_body _ (List.suffix_refl b),
        h.symm.first_body _ (List.suffix_refl b')]
  | cons c p ih =>
      have hfront := h.front before (List.suffix_refl (c :: p))
      rw [List.cons_append, List.cons_append] at hfront ⊢
      rw [first, first, hfront, ih (h.of_suffix (List.suffix_cons c p))]

/-! ### Runs over a line -/

variable {ok : Char → Bool} (hquote : ok '\'' = true)

include hquote

theorem Blind.last_body (before : Text) {x : Text} (hx : x <:+ b) (hok : ∀ c ∈ x, ok c = true) :
    f.last ok before (x ++ '\'' :: s) = f.last ok ['\''] s := by
  induction x generalizing before with
  | nil =>
      have hbody := h.body before hx
      rw [List.nil_append] at hbody ⊢
      rw [last, hbody, Option.or_none, if_pos hquote]
      exact h.near.last ok ('\'' :: before) ['\''] rfl s
  | cons c x ih =>
      obtain ⟨hc, hok⟩ := List.forall_mem_cons.mp hok
      have hbody := h.body before hx
      rw [List.cons_append] at hbody ⊢
      rw [last, hbody, Option.or_none, if_pos hc, ih _ ((List.suffix_cons c x).trans hx) hok]

variable (hok : ∀ c ∈ b, ok c = true) (hok' : ∀ c ∈ b', ok c = true)

include hok hok'

theorem Blind.last_eq (before : Text) :
    f.last ok before (p ++ '\'' :: (b ++ '\'' :: s)) =
      f.last ok before (p ++ '\'' :: (b' ++ '\'' :: s)) := by
  induction p generalizing before with
  | nil =>
      have hfront := h.front before (List.suffix_refl [])
      rw [List.nil_append, List.nil_append] at hfront ⊢
      rw [last, last, hfront, h.last_body hquote _ (List.suffix_refl b) hok,
        h.symm.last_body hquote _ (List.suffix_refl b') hok']
  | cons c p ih =>
      have hfront := h.front before (List.suffix_refl (c :: p))
      rw [List.cons_append, List.cons_append] at hfront ⊢
      rw [last, last, hfront, ih (h.of_suffix (List.suffix_cons c p))]

theorem Blind.step_last_eq (before : Text) :
    (f.last ok).step ok before (p ++ '\'' :: (b ++ '\'' :: s)) =
      (f.last ok).step ok before (p ++ '\'' :: (b' ++ '\'' :: s)) := by
  cases p with
  | nil =>
      rw [List.nil_append, List.nil_append, step, step,
        h.last_body hquote _ (List.suffix_refl b) hok,
        h.symm.last_body hquote _ (List.suffix_refl b') hok']
  | cons c p =>
      rw [List.cons_append, List.cons_append, step, step,
        (h.of_suffix (List.suffix_cons c p)).last_eq hquote hok hok']

end

/-- What a search finds is the same around either literal. -/
theorem Blind.find_around {pat : Pattern} {g : Hit → α}
    (h : Blind p b b' s fun before after => (pat.matchAt? ⟨before, after⟩).map g) :
    (pat.find (p ++ '\'' :: (b ++ '\'' :: s))).map g =
      (pat.find (p ++ '\'' :: (b' ++ '\'' :: s))).map g := by
  rw [find, find, findFrom, findFrom, map_findBetween, map_findBetween]
  exact h.first_eq []

/-! ### Keywords -/

/-- Whether a word has an edge at a place is seen in front of a quote. -/
theorem edge_front {v v' : Text}
    (hf : ∀ (before : Text) {x : Text}, x <:+ p →
      f before (x ++ '\'' :: v) = f before (x ++ '\'' :: v')) (before : Text) {x : Text}
    (hx : x <:+ p) : f.edge before (x ++ '\'' :: v) = f.edge before (x ++ '\'' :: v') := by
  have hhead : (x ++ '\'' :: v).head? = (x ++ '\'' :: v').head? := by
    cases x <;> rfl
  rw [edge, edge, hhead, hf before hx]

theorem behind_cons (c : Char) (k : Text) (f : Reading α) :
    f.behind (c :: k) = (f.behind k).step fun d => foldLetter d == foldLetter c :=
  rfl

/-- A keyword that does not start a text is not read across a quote behind it. -/
theorem behind_eq_none {k : Text} (hk : '\'' ∉ k.map foldLetter) {x : Text}
    (hx : ¬ k.map foldLetter <+: x.map foldLetter) (f : Reading α) (before v : Text) :
    f.behind k before (x ++ '\'' :: v) = none := by
  induction k generalizing x before with
  | nil => exact absurd List.nil_prefix hx
  | cons c k ih =>
      rw [List.map_cons, List.mem_cons, not_or] at hk
      cases x with
      | nil => exact if_neg fun h => hk.1 (beq_iff_eq.mp h)
      | cons d x =>
          rw [behind_cons, List.cons_append, step]
          split
          · rename_i hd
            have hx' : ¬ k.map foldLetter <+: x.map foldLetter := fun hstart => hx (by
              rw [List.map_cons, List.map_cons, beq_iff_eq.mp hd]
              exact List.cons_prefix_cons.mpr ⟨rfl, hstart⟩)
            exact ih hk.2 hx' (d :: before)
          · rfl

theorem behind_front {k : Text} (hk : '\'' ∉ k.map foldLetter) {v v' : Text}
    (hf : ∀ (before : Text) {x : Text}, x <:+ p →
      f before (x ++ '\'' :: v) = f before (x ++ '\'' :: v')) (before : Text) {x : Text}
    (hx : x <:+ p) : f.behind k before (x ++ '\'' :: v) = f.behind k before (x ++ '\'' :: v') := by
  induction k generalizing x before with
  | nil => exact hf before hx
  | cons c k ih =>
      rw [List.map_cons, List.mem_cons, not_or] at hk
      cases x with
      | nil =>
          have hnone : ∀ w, f.behind (c :: k) before ('\'' :: w) = none :=
            fun w => if_neg fun h => hk.1 (beq_iff_eq.mp h)
          exact (hnone v).trans (hnone v').symm
      | cons d x =>
          have hrest := ih hk.2 (d :: before) ((List.suffix_cons d x).trans hx)
          rw [behind_cons, List.cons_append, List.cons_append, step, step, hrest]

/-- What is read last on a line behind a keyword is blind to literals on one line that lack the
keyword. -/
theorem Blind.behind_line (h : Blind p b b' s f) {ok : Char → Bool} (hquote : ok '\'' = true)
    (hok : ∀ c ∈ b, ok c = true) (hok' : ∀ c ∈ b', ok c = true) {k : Text}
    (hk : '\'' ∉ k.map foldLetter) (hb : ¬ k.map foldLetter <:+: b.map foldLetter)
    (hb' : ¬ k.map foldLetter <:+: b'.map foldLetter) :
    Blind p b b' s (((f.last ok).step ok).behind k) where
  near := ((h.near.last ok).step ok).behind k
  front := behind_front hk fun before _ hx =>
    (h.of_suffix hx).step_last_eq hquote hok hok' before
  body := fun before _ hx => behind_eq_none hk
    (fun hstart => hb (hstart.isInfix.trans (hx.isInfix.map foldLetter))) _ before s
  body' := fun before _ hx => behind_eq_none hk
    (fun hstart => hb' (hstart.isInfix.trans (hx.isInfix.map foldLetter))) _ before s

/-- Matches of a pattern that asks for one of some words and takes no quote are blind to literals
that lack these words. -/
theorem blind_of_near {pat : Pattern} (hpat : pat.Near) (havoid : pat.avoids ['\''] = true)
    {ks : List Text} (hks : ∀ k ∈ ks, '\'' ∉ k)
    (hneeds : ∀ {before t : Text} {h : Hit}, pat.matchAt? ⟨before, t⟩ = some h →
      ∃ k ∈ ks, k <:+: t.map foldLetter) (hb : Lacks ks b) (hb' : Lacks ks b')
    (g : Text × List (Nat × Nat) → α) :
    Blind p b b' s fun before t => (pat.matchAt? ⟨before, t⟩).map fun h => g h.found := by
  have hrel : ∀ {before before' t t' : Text}, before.head? = before'.head? →
      Text.upTo ['\''] t = Text.upTo ['\''] t' →
        ((pat.matchAt? ⟨before, t⟩).map fun h => g h.found) =
          (pat.matchAt? ⟨before', t'⟩).map fun h => g h.found := by
    intro before before' t t' hbefore hafter
    obtain ⟨hx, hy⟩ | ⟨h, k, hx, hy, hfound, _⟩ :=
      rel_cases (matchAt?_sameUpTo hpat havoid hbefore hafter)
    · rw [hx, hy]
    · rw [hx, hy, Option.map_some, Option.map_some, hfound]
  have hnone : ∀ {b : Text}, Lacks ks b → ∀ (before : Text) {x : Text}, x <:+ b →
      ((pat.matchAt? ⟨before, x ++ '\'' :: s⟩).map fun h => g h.found) = none := by
    intro b hb before x hx
    rw [hrel rfl (Text.upTo_append List.mem_cons_self x s), Option.map_eq_none_iff]
    refine Option.eq_none_iff_forall_ne_some.mpr fun h hmatch => ?_
    obtain ⟨k, hk, hwithin⟩ := hneeds hmatch
    exact hb.quote hks hx k hk hwithin
  refine ⟨fun _ _ hbefore _ => hrel hbefore rfl, ?_, hnone hb, hnone hb'⟩
  intro before x _
  have hq : '\'' ∈ ['\''] := List.mem_cons_self
  exact hrel rfl ((Text.upTo_append hq x _).trans (Text.upTo_append hq x _).symm)

end Reading
end QueryDigest.Pattern
