import QueryDigest.Proofs.Pattern.Blind
import QueryDigest.Proofs.Pattern.Outline

/-!
Searches in renumbered texts. A place in a text outside runs of digits is known by the number of
strides to it, which is the same in a renumbered text. So a blind pattern has the same matches in
both, with renumbered texts, and what is written for them is renumbered too.
-/

namespace QueryDigest

open Text (isDigitAt Digits AlikeAt Renumbered)

namespace Text

/-- The character or the run of digits that a text starts with. -/
def unit : Text → Text
  | [] => []
  | c :: rest => if c.isDigit then c :: rest.takeWhile Char.isDigit else [c]

theorem unit_other {c : Char} (hc : c.isDigit = false) (rest : Text) : unit (c :: rest) = [c] := by
  rw [unit, hc]
  rfl

theorem unit_run {ds rest : Text} (hds : Digits ds) (hend : isDigitAt rest.head? = false) :
    unit (ds ++ rest) = ds := by
  obtain ⟨d, ds, rfl⟩ := List.exists_cons_of_ne_nil hds.nonempty
  obtain ⟨hd, hdigit⟩ := List.forall_mem_cons.mp hds.digit
  have hrest : ∀ c, rest.head? = some c → c.isDigit = false := by
    intro c hc
    rwa [hc] at hend
  rw [List.cons_append, unit, hd, (span_append hdigit hrest).1]
  rfl

theorem take_unit (t : Text) : t.take (unit t).length = unit t := by
  cases t with
  | nil => rfl
  | cons c rest =>
      rw [unit]
      split
      · rw [List.length_cons, List.take_succ_cons]
        exact congrArg (c :: ·) (List.prefix_iff_eq_take.mp (List.takeWhile_prefix _)).symm
      · rfl

theorem unit_eq_nil_iff {t : Text} : unit t = [] ↔ t = [] := by
  cases t with
  | nil => rfl
  | cons c rest =>
      rw [unit]
      split <;> simp

theorem Renumbered.unit {t t' : Text} (h : Renumbered t t') : Renumbered (unit t) (unit t') := by
  cases h with
  | nil => exact .nil
  | other hc h =>
      rw [unit_other hc, unit_other hc]
      exact .refl _
  | run hds hds' hend h =>
      rw [unit_run hds hend, unit_run hds' (h.head.isDigitAt ▸ hend)]
      have hrun := Renumbered.digits hds hds' .nil
      rwa [List.append_nil, List.append_nil] at hrun

end Text

/-! ### Places -/

namespace Cursor

def stride (c : Cursor) : Cursor :=
  c.skip (Text.unit c.after).length

def strides (c : Cursor) : Nat → Cursor
  | 0 => c
  | n + 1 => (c.strides n).stride

/-- The number of characters in so many strides. -/
def offset (c : Cursor) : Nat → Nat
  | 0 => 0
  | n + 1 => c.offset n + (Text.unit (c.strides n).after).length

theorem stride_eq {before u rest : Text} (hunit : Text.unit (u ++ rest) = u) :
    stride ⟨before, u ++ rest⟩ = ⟨u.reverse ++ before, rest⟩ := by
  rw [stride, hunit, skip, List.take_left, List.drop_left]

theorem skip_skip (c : Cursor) (m n : Nat) : (c.skip m).skip n = c.skip (m + n) := by
  simp [skip, List.take_add]

theorem skip_offset (c : Cursor) (n : Nat) : c.skip (c.offset n) = c.strides n := by
  induction n with
  | zero => rfl
  | succ n ih => rw [offset, ← skip_skip, ih, strides, stride]

theorem drop_offset (c : Cursor) (n : Nat) : c.after.drop (c.offset n) = (c.strides n).after :=
  congrArg Cursor.after (c.skip_offset n)

theorem offset_mono (c : Cursor) (i k : Nat) : c.offset i ≤ c.offset (i + k) := by
  induction k with
  | zero => exact Nat.le_refl _
  | succ k ih => exact Nat.le_trans ih (Nat.le_add_right _ _)

theorem offset_le_of_after_nil {c : Cursor} {i : Nat} (h : (c.strides i).after = []) (k : Nat) :
    (c.strides (i + k)).after = [] ∧ c.offset (i + k) = c.offset i := by
  induction k with
  | zero => exact ⟨h, rfl⟩
  | succ k ih =>
      obtain ⟨hafter, hoffset⟩ := ih
      constructor
      · rw [← Nat.add_assoc, strides, stride, skip, hafter, List.drop_nil]
      · rw [← Nat.add_assoc, offset, hafter, hoffset]
        rfl

theorem offset_lt_iff (c : Cursor) (i j : Nat) :
    c.offset i < c.offset j ↔ i < j ∧ (c.strides i).after ≠ [] := by
  constructor
  · intro h
    refine ⟨?_, fun hnil => ?_⟩
    · by_contra hle
      obtain ⟨k, rfl⟩ := Nat.exists_eq_add_of_le (Nat.le_of_not_lt hle)
      exact absurd h (Nat.not_lt.mpr (c.offset_mono j k))
    · obtain hij | hji := Nat.le_total i j
      · obtain ⟨k, rfl⟩ := Nat.exists_eq_add_of_le hij
        rw [(offset_le_of_after_nil hnil k).2] at h
        exact Nat.lt_irrefl _ h
      · obtain ⟨k, rfl⟩ := Nat.exists_eq_add_of_le hji
        exact absurd h (Nat.not_lt.mpr (c.offset_mono j k))
  · rintro ⟨hlt, hne⟩
    obtain ⟨k, rfl⟩ := Nat.exists_eq_add_of_le (Nat.succ_le_of_lt hlt)
    have hunit := List.length_pos_iff.mpr (mt Text.unit_eq_nil_iff.mp hne)
    exact Nat.lt_of_lt_of_le (Nat.lt_add_of_pos_right hunit) (c.offset_mono (i + 1) k)

/-- Places in renumbered texts with the same text in front of them and behind them but for its
runs of digits. -/
structure Abreast (c c' : Cursor) : Prop where
  before : Renumbered c.before c'.before
  after : Renumbered c.after c'.after

namespace Abreast

theorem start {t t' : Text} (h : Renumbered t t') : Abreast (.start t) (.start t') :=
  ⟨.nil, h⟩

variable {c c' : Cursor} (h : Abreast c c')

include h

theorem stride : Abreast c.stride c'.stride := by
  obtain ⟨before, after⟩ := c
  obtain ⟨before', after'⟩ := c'
  obtain ⟨hbefore, hafter⟩ := h
  cases hafter with
  | nil => exact ⟨hbefore, .nil⟩
  | @other x t t' hx h =>
      rw [Cursor.stride, Cursor.stride, Text.unit_other hx, Text.unit_other hx]
      exact ⟨.other hx hbefore, h⟩
  | @run ds ds' t t' hds hds' hend h =>
      change Abreast (Cursor.stride ⟨before, ds ++ t⟩) (Cursor.stride ⟨before', ds' ++ t'⟩)
      rw [stride_eq (Text.unit_run hds hend),
        stride_eq (Text.unit_run hds' (h.head.isDigitAt ▸ hend))]
      exact ⟨.digits hds.reverse hds'.reverse hbefore, h⟩

theorem skip_one {x : Char} (hx : x.isDigit = false) (hhead : c.after.head? = some x) :
    Abreast (c.skip 1) (c'.skip 1) := by
  have hone : ∀ {c : Cursor}, c.after.head? = some x → c.stride = c.skip 1 := by
    intro c hhead
    obtain ⟨rest, hafter⟩ := List.head?_eq_some_iff.mp hhead
    rw [Cursor.stride, hafter, Text.unit_other hx]
    rfl
  have hnext := h.stride
  rwa [hone hhead, hone ((h.after.head.eq_some_iff hx).mp hhead)] at hnext

theorem strides (n : Nat) : Abreast (c.strides n) (c'.strides n) := by
  induction n with
  | zero => exact h
  | succ n ih => exact ih.stride

theorem offset_lt_iff (i j : Nat) : c.offset i < c.offset j ↔ c'.offset i < c'.offset j := by
  rw [c.offset_lt_iff, c'.offset_lt_iff, Ne, Ne, (h.strides i).after.eq_nil_iff]

/-- The text between two places that are so many strides away. -/
theorem slice (i j : Nat) :
    Renumbered ((c.after.drop (c.offset i)).take (c.offset j - c.offset i))
      ((c'.after.drop (c'.offset i)).take (c'.offset j - c'.offset i)) := by
  obtain hij | hji := Nat.le_total i j
  · obtain ⟨k, rfl⟩ := Nat.exists_eq_add_of_le hij
    have hstep : ∀ (c : Cursor) (k : Nat),
        (c.after.drop (c.offset i)).take (c.offset (i + (k + 1)) - c.offset i) =
          (c.after.drop (c.offset i)).take (c.offset (i + k) - c.offset i) ++
            Text.unit (c.strides (i + k)).after := by
      intro c k
      have hle := c.offset_mono i k
      have hsum : c.offset (i + (k + 1)) - c.offset i =
          (c.offset (i + k) - c.offset i) + (Text.unit (c.strides (i + k)).after).length := by
        rw [← Nat.add_assoc, Cursor.offset]
        omega
      rw [hsum, List.take_add, List.drop_drop, Nat.add_sub_cancel' hle, drop_offset c (i + k),
        Text.take_unit]
    clear hij
    induction k with
    | zero =>
        rw [Nat.add_zero, Nat.sub_self, Nat.sub_self, List.take_zero, List.take_zero]
        exact .nil
    | succ k ih =>
        rw [hstep, hstep]
        exact ih.append (h.strides (i + k)).after.unit
  · obtain ⟨k, rfl⟩ := Nat.exists_eq_add_of_le hji
    rw [Nat.sub_eq_zero_of_le (c.offset_mono j k), Nat.sub_eq_zero_of_le (c'.offset_mono j k),
      List.take_zero, List.take_zero]
    exact .nil

end Abreast
end Cursor

namespace Pattern

open Cursor (Abreast)

/-! ### Attempts -/

/-- The attempt that has come so many strides from a place, with groups at given strides. -/
def Attempt.along (c : Cursor) (n : Nat) (marks : List (Nat × Nat)) : Attempt :=
  ⟨(c.strides n).before, (c.strides n).after, c.offset n,
    marks.map fun m => (c.offset m.1, c.offset m.2)⟩

theorem Attempt.along_succ {c : Cursor} {n : Nat} {u rest : Text}
    (hafter : (c.strides n).after = u ++ rest) (hunit : Text.unit (u ++ rest) = u)
    (marks : List (Nat × Nat)) : along c (n + 1) marks = (along c n marks).take u rest := by
  have hplace : c.strides (n + 1) = ⟨u.reverse ++ (c.strides n).before, rest⟩ := by
    rw [← Cursor.stride_eq hunit, ← hafter]
    rfl
  rw [along, hplace, Cursor.offset, hafter, hunit]
  rfl

/-- Attempts that have come equally many strides from two places. -/
def Beside (c c' : Cursor) (a a' : Attempt) : Prop :=
  ∃ n marks, a = .along c n marks ∧ a' = .along c' n marks

theorem stride_beside {c c' : Cursor} (h : Abreast c c') : Stride (Beside c c') where
  ahead := by
    rintro _ _ ⟨n, marks, rfl, rfl⟩
    have hplaces := (h.strides n).after
    generalize hafter : (c.strides n).after = t at hplaces
    generalize hafter' : (c'.strides n).after = t' at hplaces
    cases hplaces with
    | nil => exact .done hafter hafter'
    | @other x t t' hx _ =>
        refine .char hx hafter hafter' ⟨n + 1, marks, ?_, ?_⟩
        · exact (Attempt.along_succ hafter (Text.unit_other hx t) marks).symm
        · exact (Attempt.along_succ hafter' (Text.unit_other hx t') marks).symm
    | @run ds ds' t t' hds hds' hend h =>
        have hend' : isDigitAt t'.head? = false := h.head.isDigitAt ▸ hend
        refine .run hds hds' hafter hafter' hend hend' ⟨n + 1, marks, ?_, ?_⟩
        · exact (Attempt.along_succ hafter (Text.unit_run hds hend) marks).symm
        · exact (Attempt.along_succ hafter' (Text.unit_run hds' hend') marks).symm
  before := by
    rintro _ _ ⟨n, marks, rfl, rfl⟩
    exact (h.strides n).before.head
  passed := by
    rintro _ _ _ _ ⟨n, marks, rfl, rfl⟩ ⟨m, marks', rfl, rfl⟩
    exact h.offset_lt_iff n m
  close := by
    rintro _ _ _ _ ⟨n, marks, rfl, rfl⟩ ⟨m, marks', rfl, rfl⟩
    refine ⟨m, marks' ++ [(n, m)], ?_, ?_⟩
    · simp [Attempt.close, Attempt.along]
    · simp [Attempt.close, Attempt.along]

/-! ### Matches -/

/-- Matches that start at places with the same surroundings and take equally many strides. -/
structure Hit.Alike (h h' : Hit) : Prop where
  start : Abreast h.start h'.start
  strides : ∃ (n : Nat) (marks : List (Nat × Nat)), h.length = h.start.offset n ∧
    h'.length = h'.start.offset n ∧
    h.groups = marks.map (fun m => (h.start.offset m.1, h.start.offset m.2)) ∧
    h'.groups = marks.map fun m => (h'.start.offset m.1, h'.start.offset m.2)

namespace Hit.Alike

variable {h h' : Hit} (halike : h.Alike h')

include halike

theorem stop : Abreast h.stop h'.stop := by
  obtain ⟨hstart, n, marks, hlength, hlength', _, _⟩ := halike
  rw [Hit.stop, Hit.stop, hlength, hlength', Cursor.skip_offset, Cursor.skip_offset]
  exact hstart.strides n

theorem text : Renumbered h.text h'.text := by
  obtain ⟨hstart, n, marks, hlength, hlength', _, _⟩ := halike
  have hslice := hstart.slice 0 n
  rw [Hit.text, Hit.text, hlength, hlength']
  exact hslice

theorem group (i : Nat) : Renumbered (h.group i) (h'.group i) := by
  obtain ⟨hstart, n, marks, _, _, hgroups, hgroups'⟩ := halike
  rw [Hit.group, Hit.group, hgroups, hgroups', List.getElem?_map, List.getElem?_map]
  cases marks[i]? with
  | none => exact .nil
  | some m => exact hstart.slice m.1 m.2

theorem length_eq_zero_iff : h.length = 0 ↔ h'.length = 0 := by
  obtain ⟨hstart, n, marks, hlength, hlength', _, _⟩ := halike
  have hlt := hstart.offset_lt_iff 0 n
  rw [hlength, hlength']
  change 0 < _ ↔ 0 < _ at hlt
  omega

end Hit.Alike

theorem matchAt?_alike {p : Pattern} (hp : Blind p) {c c' : Cursor} (h : Abreast c c') :
    Option.Rel Hit.Alike (p.matchAt? c) (p.matchAt? c') := by
  have hstart : Beside c c' (.start c) (.start c') := ⟨0, [], rfl, rfl⟩
  have hrun := hp (stride_beside h) .some hstart
  refine matchAt?_related hrun ?_
  rintro a a' _ _ ⟨n, marks, rfl, rfl⟩
  exact ⟨h, n, marks, rfl, rfl, rfl, rfl⟩

/-! ### Searches -/

/-- A pattern that refuses to start inside a run of digits is not found there. -/
theorem matchAt?_inside {p : Pattern} (hp : Refuses p) {before rest : Text} {d : Char}
    (hbefore : isDigitAt before.head? = true) (hd : d.isDigit = true) :
    p.matchAt? ⟨before, d :: rest⟩ = none :=
  matchAt?_eq_none.mpr (hp some _ ⟨hbefore, hd⟩)

theorem findBetween_inside {p : Pattern} (hp : Refuses p) {before ds : Text}
    (hbefore : isDigitAt before.head? = true) (hds : ∀ c ∈ ds, c.isDigit = true) (rest : Text) :
    p.findBetween before (ds ++ rest) = p.findBetween (ds.reverse ++ before) rest := by
  induction ds generalizing before with
  | nil => rfl
  | cons d ds ih =>
      obtain ⟨hd, hds⟩ := List.forall_mem_cons.mp hds
      rw [List.cons_append, findBetween, matchAt?_inside hp hbefore hd, List.reverse_cons,
        List.append_assoc]
      exact ih hd hds

theorem findBetween_run {p : Pattern} (hp : Refuses p) {before ds rest : Text} (hds : Digits ds)
    (hnone : p.matchAt? ⟨before, ds ++ rest⟩ = none) :
    p.findBetween before (ds ++ rest) = p.findBetween (ds.reverse ++ before) rest := by
  obtain ⟨d, ds, rfl⟩ := List.exists_cons_of_ne_nil hds.nonempty
  obtain ⟨hd, hdigit⟩ := List.forall_mem_cons.mp hds.digit
  rw [List.cons_append] at hnone ⊢
  have hinside : isDigitAt (d :: before).head? = true := hd
  rw [findBetween, hnone, List.reverse_cons, List.append_assoc]
  exact findBetween_inside hp hinside hdigit rest

theorem matchAt?_between {p : Pattern} (hp : Blind p) {before before' after after' : Text}
    (hbefore : Renumbered before before') (hafter : Renumbered after after') :
    Option.Rel Hit.Alike (p.matchAt? ⟨before, after⟩) (p.matchAt? ⟨before', after'⟩) :=
  matchAt?_alike hp ⟨hbefore, hafter⟩

section

variable {p : Pattern} (hp : Steady p)

include hp

theorem findBetween_alike {before before' after after' : Text}
    (hbefore : Renumbered before before') (hafter : Renumbered after after') :
    Option.Rel Hit.Alike (p.findBetween before after) (p.findBetween before' after') := by
  induction hafter generalizing before before' with
  | nil => exact matchAt?_between hp.blind hbefore .nil
  | @other c t t' hc h ih =>
      obtain ⟨hx, hx'⟩ | ⟨_, _, hx, hx', halike⟩ :=
        rel_cases (matchAt?_between hp.blind hbefore (.other hc h))
      · rw [findBetween, hx, findBetween, hx']
        exact ih (.other hc hbefore)
      · rw [findBetween_hit hx, findBetween_hit hx']
        exact .some halike
  | @run ds ds' t t' hds hds' hend h ih =>
      obtain ⟨hx, hx'⟩ | ⟨_, _, hx, hx', halike⟩ :=
        rel_cases (matchAt?_between hp.blind hbefore (.run hds hds' hend h))
      · rw [findBetween_run hp.refuses hds hx, findBetween_run hp.refuses hds' hx']
        exact ih (.digits hds.reverse hds'.reverse hbefore)
      · rw [findBetween_hit hx, findBetween_hit hx']
        exact .some halike

theorem findFrom_alike {c c' : Cursor} (h : Abreast c c') :
    Option.Rel Hit.Alike (p.findFrom c) (p.findFrom c') :=
  findBetween_alike hp h.before h.after

theorem find_alike {t t' : Text} (h : Renumbered t t') :
    Option.Rel Hit.Alike (p.find t) (p.find t') :=
  findFrom_alike hp (.start h)

theorem occursIn_alike {t t' : Text} (h : Renumbered t t') :
    p.occursIn t = p.occursIn t' :=
  isSome_of_rel (find_alike hp h)

end

/-- The groups of alike matches. -/
theorem group_alike {x x' : Option Hit} (h : Option.Rel Hit.Alike x x') (i : Nat) :
    Option.Rel Renumbered (x.map (·.group i)) (x'.map (·.group i)) := by
  cases h with
  | none => exact .none
  | some halike => exact .some (halike.group i)

/-! ### Pieces -/

def Hit.FoundBy (h : Hit) (p : Pattern) : Prop :=
  p.matchAt? h.start = some h

theorem foundBy_of_matchAt? {p : Pattern} {c : Cursor} {h : Hit} (hmatch : p.matchAt? c = some h) :
    h.FoundBy p := by
  rw [Hit.FoundBy, (matchAt?_text hmatch).1, hmatch]

/-- Pieces of renumbered texts. Digits are kept outside matches only if `digits` says so. -/
inductive PiecesAlike (p : Pattern) (digits : Prop) : List Piece → List Piece → Prop where
  | nil : PiecesAlike p digits [] []
  | kept {ps ps' : List Piece} (c : Char) (h : PiecesAlike p digits ps ps') :
      PiecesAlike p digits (.kept c :: ps) (.kept c :: ps')
  | run {ds ds' : Text} {ps ps' : List Piece} (hdigits : digits) (hds : Digits ds)
      (hds' : Digits ds') (h : PiecesAlike p digits ps ps') :
      PiecesAlike p digits (ds.map .kept ++ ps) (ds'.map .kept ++ ps')
  | hit {h h' : Hit} {ps ps' : List Piece} (hfound : h.FoundBy p) (halike : h.Alike h')
      (hrest : PiecesAlike p digits ps ps') :
      PiecesAlike p digits (.hit h :: ps) (.hit h' :: ps')

theorem piecesFrom_kept {p : Pattern} {before rest : Text} {c : Char}
    (hkept : ∀ h, p.matchAt? ⟨before, c :: rest⟩ = some h → h.length = 0) :
    p.piecesFrom [] 0 before (c :: rest) =
      .kept c :: p.piecesFrom [] 0 (c :: before) rest := by
  rw [piecesFrom]
  split
  · rename_i start length groups hmatch
    cases hkept _ hmatch
  · rw [piecesFrom_append]
    rfl

/-- Wherever a digit comes next there is a match that takes it. -/
def Takes (p : Pattern) : Prop :=
  ∀ before after, isDigitAt after.head? = true →
    ∃ h, p.matchAt? ⟨before, after⟩ = some h ∧ h.length ≠ 0

theorem takes_of_run {p : Pattern} (h : ∀ a : Attempt, isDigitAt a.after.head? = true →
    ∃ b, p.run a some = some b ∧ a.passed < b.passed) : Takes p := by
  intro before after hdigit
  obtain ⟨b, hrun, hpassed⟩ := h (.start ⟨before, after⟩) hdigit
  refine ⟨⟨⟨before, after⟩, b.passed, b.groups⟩, ?_, Nat.ne_of_gt hpassed⟩
  change (p.run (.start ⟨before, after⟩) some).map _ = _
  rw [hrun]
  rfl

theorem piecesFrom_digits {p : Pattern} (hp : Refuses p) {before ds : Text}
    (hbefore : isDigitAt before.head? = true) (hds : ∀ c ∈ ds, c.isDigit = true) (rest : Text) :
    p.piecesFrom [] 0 before (ds ++ rest) =
      ds.map .kept ++ p.piecesFrom [] 0 (ds.reverse ++ before) rest := by
  induction ds generalizing before with
  | nil => rfl
  | cons d ds ih =>
      obtain ⟨hd, hds⟩ := List.forall_mem_cons.mp hds
      have hkept : ∀ h, p.matchAt? ⟨before, d :: (ds ++ rest)⟩ = some h → h.length = 0 := by
        intro h hmatch
        rw [matchAt?_inside hp hbefore hd] at hmatch
        cases hmatch
      rw [List.cons_append, piecesFrom_kept hkept, List.reverse_cons, List.append_assoc,
        List.map_cons, List.cons_append]
      exact congrArg _ (ih hd hds)

theorem piecesFrom_run {p : Pattern} (hp : Refuses p) {before ds rest : Text} (hds : Digits ds)
    (hkept : ∀ h, p.matchAt? ⟨before, ds ++ rest⟩ = some h → h.length = 0) :
    p.piecesFrom [] 0 before (ds ++ rest) =
      ds.map .kept ++ p.piecesFrom [] 0 (ds.reverse ++ before) rest := by
  obtain ⟨d, ds, rfl⟩ := List.exists_cons_of_ne_nil hds.nonempty
  obtain ⟨hd, hdigit⟩ := List.forall_mem_cons.mp hds.digit
  have hinside : isDigitAt (d :: before).head? = true := hd
  have hstart : ∀ h, p.matchAt? ⟨before, d :: (ds ++ rest)⟩ = some h → h.length = 0 := hkept
  rw [List.cons_append, piecesFrom_kept hstart, piecesFrom_digits hp hinside hdigit,
    List.reverse_cons, List.append_assoc]
  rfl

section

variable {p : Pattern} (hp : Blind p) {digits : Prop} (hdigits : digits ∧ Refuses p ∨ Takes p)

include hp hdigits

theorem piecesFrom_alike {before before' after after' : Text} (hbefore : Renumbered before before')
    (hafter : Renumbered after after') :
    PiecesAlike p digits (p.piecesFrom [] 0 before after) (p.piecesFrom [] 0 before' after') := by
  induction hlength : after.length using Nat.strong_induction_on
    generalizing before before' after after' with
  | _ n ih =>
      have hmatch := matchAt?_between hp hbefore hafter
      by_cases hhit : ∃ h, p.matchAt? ⟨before, after⟩ = some h ∧ h.length ≠ 0
      · obtain ⟨h, hsome, hne⟩ := hhit
        rw [hsome] at hmatch
        obtain ⟨hnone, _⟩ | ⟨_, h', ⟨⟩, hsome', halike⟩ := rel_cases hmatch
        · cases hnone
        · rw [piecesFrom_hit hsome hne,
            piecesFrom_hit hsome' (mt halike.length_eq_zero_iff.mpr hne)]
          refine .hit (foundBy_of_matchAt? hsome) halike
            (ih _ ?_ halike.stop.before halike.stop.after rfl)
          obtain ⟨_, htext, hrest⟩ := matchAt?_text hsome
          have hlengths := congrArg List.length hrest
          rw [List.length_append, htext] at hlengths
          change after.length = _ at hlengths
          omega
      · have hkept : ∀ h, p.matchAt? ⟨before, after⟩ = some h → h.length = 0 :=
          fun h hsome => not_not.mp fun hne => hhit ⟨h, hsome, hne⟩
        have hkept' : ∀ h, p.matchAt? ⟨before', after'⟩ = some h → h.length = 0 := by
          intro h' hsome'
          rw [hsome'] at hmatch
          obtain ⟨_, hnone⟩ | ⟨h, _, hsome, ⟨⟩, halike⟩ := rel_cases hmatch
          · cases hnone
          · exact halike.length_eq_zero_iff.mp (hkept h hsome)
        cases hafter with
        | nil => exact .nil
        | @other c t t' hc h =>
            rw [piecesFrom_kept hkept, piecesFrom_kept hkept']
            exact .kept c (ih t.length (hlength ▸ Nat.lt_succ_self _) (.other hc hbefore) h rfl)
        | @run ds ds' t t' hds hds' hend h =>
            obtain ⟨hdigits, hrefuses⟩ | htakes := hdigits
            · rw [piecesFrom_run hrefuses hds hkept, piecesFrom_run hrefuses hds' hkept']
              refine .run hdigits hds hds'
                (ih t.length ?_ (.digits hds.reverse hds'.reverse hbefore) h rfl)
              have hpos := List.length_pos_iff.mpr hds.nonempty
              rw [← hlength, List.length_append]
              omega
            · obtain ⟨hit, hsome, hne⟩ := htakes before _ (hds.head t)
              exact absurd (hkept hit hsome) hne

theorem pieces_alike {t t' : Text} (h : Renumbered t t') :
    PiecesAlike p digits (p.pieces t) (p.pieces t') :=
  piecesFrom_alike hp hdigits .nil h

end

/-- What is written for a piece. -/
def Piece.write (f : Hit → Text) : Piece → Text
  | .kept c => [c]
  | .hit h => f h

def Piece.hit? : Piece → Option Hit
  | .kept _ => none
  | .hit h => some h

theorem flatMap_kept (f : Hit → Text) (t : Text) :
    (t.map Piece.kept).flatMap (Piece.write f) = t := by
  rw [List.flatMap_map]
  exact List.flatMap_singleton' t

theorem filterMap_kept (t : Text) : (t.map Piece.kept).filterMap Piece.hit? = [] := by
  simp [List.filterMap_map, Function.comp_def, Piece.hit?]

namespace PiecesAlike

variable {p : Pattern} {digits : Prop} {ps ps' : List Piece}

theorem write {f f' : Hit → Text} (hf : ∀ {h h'}, h.Alike h' → Renumbered (f h) (f' h'))
    (h : PiecesAlike p digits ps ps') :
    Renumbered (ps.flatMap (Piece.write f)) (ps'.flatMap (Piece.write f')) := by
  induction h with
  | nil => exact .nil
  | kept c h ih => exact Renumbered.append (.refl [c]) ih
  | run _ hds hds' h ih =>
      rw [List.flatMap_append, List.flatMap_append, flatMap_kept, flatMap_kept]
      exact .digits hds hds' ih
  | hit _ halike hrest ih => exact Renumbered.append (hf halike) ih

theorem write_eq {f : Hit → Text} (hf : ∀ {h h' : Hit}, h.FoundBy p → h.Alike h' → f h = f h')
    (h : PiecesAlike p False ps ps') :
    ps.flatMap (Piece.write f) = ps'.flatMap (Piece.write f) := by
  generalize hdigits : False = digits at h
  induction h with
  | nil => rfl
  | kept c h ih => exact congrArg (c :: ·) ih
  | run hfalse => exact (hdigits ▸ hfalse).elim
  | hit hfound halike hrest ih => exact congrArg₂ (· ++ ·) (hf hfound halike) ih

theorem hits (h : PiecesAlike p digits ps ps') :
    List.Forall₂ (fun h h' => h.FoundBy p ∧ h.Alike h') (ps.filterMap Piece.hit?)
      (ps'.filterMap Piece.hit?) := by
  induction h with
  | nil => exact .nil
  | kept c h ih => exact ih
  | run _ hds hds' h ih =>
      rw [List.filterMap_append, List.filterMap_append, filterMap_kept, filterMap_kept]
      exact ih
  | hit hfound halike hrest ih => exact .cons ⟨hfound, halike⟩ ih

end PiecesAlike

section

variable {p : Pattern} {t t' : Text}

theorem replaceAll_alike (hp : Blind p) (hdigits : Refuses p ∨ Takes p) {f f' : Hit → Text}
    (hf : ∀ {h h'}, h.Alike h' → Renumbered (f h) (f' h')) (h : Renumbered t t') :
    Renumbered (p.replaceAll f t) (p.replaceAll f' t') :=
  (pieces_alike hp (hdigits.imp_left (And.intro trivial)) h).write hf

theorem replaceAll_const_alike (hp : Steady p) {r r' : Text} (hr : Renumbered r r')
    (h : Renumbered t t') :
    Renumbered (p.replaceAll (fun _ => r) t) (p.replaceAll (fun _ => r') t') :=
  replaceAll_alike hp.blind (Or.inl hp.refuses) (fun _ => hr) h

theorem removeAll_alike (hp : Steady p) (h : Renumbered t t') :
    Renumbered (p.removeAll t) (p.removeAll t') :=
  replaceAll_const_alike hp .nil h

theorem replaceFirst_alike (hp : Steady p) {f f' : Hit → Text}
    (hf : ∀ {h h'}, h.Alike h' → Renumbered (f h) (f' h')) (h : Renumbered t t') :
    Renumbered (p.replaceFirst f t) (p.replaceFirst f' t') := by
  rw [replaceFirst, replaceFirst]
  obtain ⟨hx, hx'⟩ | ⟨_, _, hx, hx', halike⟩ := rel_cases (find_alike hp h)
  · rwa [hx, hx']
  · rw [hx, hx']
    exact (halike.start.before.reverse.append (hf halike)).append halike.stop.after

/-- Where every digit is taken the results are the same, if what is written for the matches is. -/
theorem replaceAll_eq (hp : Blind p) (htakes : Takes p) {f : Hit → Text}
    (hf : ∀ {h h' : Hit}, h.FoundBy p → h.Alike h' → f h = f h') (h : Renumbered t t') :
    p.replaceAll f t = p.replaceAll f t' :=
  (pieces_alike hp (Or.inr htakes) h).write_eq hf

theorem hits_alike (hp : Steady p) (h : Renumbered t t') :
    List.Forall₂ (fun h h' => h.FoundBy p ∧ h.Alike h') (p.hits t) (p.hits t') :=
  (pieces_alike hp.blind (Or.inl ⟨trivial, hp.refuses⟩) h).hits

end

end Pattern
end QueryDigest
