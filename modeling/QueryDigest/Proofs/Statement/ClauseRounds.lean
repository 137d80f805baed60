import QueryDigest.Proofs.Statement.GuardedClauses
import QueryDigest.Proofs.Text.Utf8Bytes

/-!
The search for table clauses, round by round. A round searches from a byte position of the text and
says where the next one resumes: one byte behind the start of an UPDATE that names columns, at the
end of any other clause. The rounds need no bound on their number, since each of them resumes at a
later position, and no position cuts a character, since the first character of a clause is one byte.
-/

namespace QueryDigest

open Pattern
open Unicode (foldLetter)

namespace Cursor

/-- The number of bytes in front of a place. -/
def bytesBefore (c : Cursor) : Nat :=
  (Utf8.encode c.before.reverse).length

/-- The place lies at a byte position of a text, which cuts no character. -/
structure StandsAt (c : Cursor) (t : Text) (position : Nat) : Prop where
  text : c.text = t
  position : c.bytesBefore = position

variable {c d : Cursor} {t : Text} {n position : Nat}

theorem bytesBefore_take (u before after : Text) :
    bytesBefore ⟨u.reverse ++ before, after⟩ =
      bytesBefore ⟨before, u ++ after⟩ + (Utf8.encode u).length := by
  simp [bytesBefore, Utf8.encode_append]

theorem bytesBefore_le (h : c.text = t) : c.bytesBefore ≤ (Utf8.encode t).length := by
  rw [← h, text, Utf8.encode_append, List.length_append]
  exact Nat.le_add_right _ _

theorem StandsAt.unique (hc : c.StandsAt t position) (hd : d.StandsAt t position) : c = d := by
  have hsame : ∀ {c d : Cursor}, c.text = d.text → c.bytesBefore = d.bytesBefore → ∀ u,
      d.before.reverse = c.before.reverse ++ u → c = d := by
    rintro ⟨before, after⟩ ⟨before', after'⟩ htext hbytes u hu
    have hempty : u = [] := by
      by_contra hne
      have hlengths := hbytes
      simp only [bytesBefore, hu, Utf8.encode_append, List.length_append] at hlengths
      exact absurd (Utf8.length_encode_pos hne) (by omega)
    rw [hempty, List.append_nil] at hu
    obtain rfl := List.reverse_inj.mp hu
    obtain rfl : after = after' := List.append_cancel_left htext
    rfl
  have htext := hc.text.trans hd.text.symm
  have hbytes := hc.position.trans hd.position.symm
  obtain ⟨u, hu, _⟩ | ⟨u, hu, _⟩ := List.append_eq_append_iff.mp htext
  · exact hsame htext hbytes u hu
  · exact (hsame htext.symm hbytes.symm u hu).symm

end Cursor

namespace TableClause

/-! ### Rounds -/

/-- A round of the search from a byte position of a text, with the clause that it finds and the
position at which the next round resumes. -/
inductive Round (t : Text) (position : Nat) : Hit → Nat → Prop where
  | columns {place : Cursor} {h : Hit} (hplace : place.StandsAt t position)
      (hfind : pattern.findFrom place = some h) (hcolumns : updatesColumns h = true) :
      Round t position h (h.start.bytesBefore + 1)
  | names {place : Cursor} {h : Hit} (hplace : place.StandsAt t position)
      (hfind : pattern.findFrom place = some h) (hnames : updatesColumns h = false) :
      Round t position h h.stop.bytesBefore

/-- All rounds from a byte position of a text on, up to the first that finds nothing, and the lists
of names found. -/
inductive Rounds (t : Text) : (position : Nat) → List Text → Prop where
  | last {position : Nat} {place : Cursor} (hplace : place.StandsAt t position)
      (hfind : pattern.findFrom place = none) : Rounds t position []
  | round {position next : Nat} {h : Hit} {found : List Text} (hround : Round t position h next)
      (hrest : Rounds t next found) :
      Rounds t position (if updatesColumns h then found else h.group 1 :: found)

theorem ascii_of_anchor {k w : Text} (hk : k ∈ anchors)
    (hw : w.map foldLetter = k.map foldLetter) : ∃ c w', w = c :: w' ∧ c.toNat < 0x80 := by
  have hanchors : ∀ k ∈ anchors, ∀ c ∈ (k.map foldLetter).take 1,
      c.isUpper = true ∧ c ≠ 'S' ∧ c ≠ 'K' := by
    decide
  obtain ⟨c, w, rfl⟩ := List.exists_cons_of_ne_nil (word_of_anchor hk hw).1
  obtain ⟨hupper, hs, hk⟩ := hanchors k hk (foldLetter c) (hw ▸ List.mem_cons_self)
  refine ⟨c, w, rfl, ?_⟩
  by_contra hascii
  simp only [foldLetter] at hupper hs hk
  split_ifs at hupper hs hk
  · exact hs rfl
  · exact hk rfl
  · exact hascii (Unicode.toNat_lt_of_isAlpha (Unicode.isAlpha_of_isUpper_toUpper hupper))

section

variable {t : Text} {position : Nat} {place : Cursor} {h : Hit}
  (hfind : pattern.findFrom place = some h)

include hfind

/-- A clause starts behind the place of the search, with a character of one byte. -/
theorem found_start : place.bytesBefore ≤ h.start.bytesBefore ∧
    (h.start.skip 1).bytesBefore = h.start.bytesBefore + 1 := by
  obtain ⟨u, v, hafter, hmatch⟩ := findBetween_some hfind
  obtain ⟨_, k, hk, w, rest, hv, hw, _⟩ := clause_opens hmatch
  obtain ⟨c, w, rfl, hc⟩ := ascii_of_anchor hk hw
  rw [(matchAt?_text hmatch).1]
  constructor
  · rw [Cursor.bytesBefore_take]
    exact Nat.le_add_right place.bytesBefore _
  · have hskip : Cursor.skip ⟨u.reverse ++ place.before, v⟩ 1 =
        ⟨[c].reverse ++ (u.reverse ++ place.before), w ++ rest⟩ := by
      simp [Cursor.skip, hv]
    rw [hskip, Cursor.bytesBefore_take, Utf8.encode_cons, Utf8.encodeChar_ascii hc]
    rfl

theorem found_stop : h.start.bytesBefore < h.stop.bytesBefore := by
  obtain ⟨_, _, _, hmatch⟩ := findBetween_some hfind
  obtain ⟨_, htext, _⟩ := matchAt?_text hmatch
  have hne : h.text ≠ [] :=
    List.length_pos_iff.mp (Nat.lt_of_lt_of_eq (found_moves hfind) htext.symm)
  have hstop : h.stop = ⟨h.text.reverse ++ h.start.before, h.stop.after⟩ := rfl
  rw [hstop, Cursor.bytesBefore_take]
  exact Nat.lt_add_of_pos_right (Utf8.length_encode_pos hne)

theorem found_text (hplace : place.StandsAt t position) : h.start.text = t :=
  (findFrom_text hfind).trans hplace.text

theorem standsAt_skip (hplace : place.StandsAt t position) :
    (h.start.skip 1).StandsAt t (h.start.bytesBefore + 1) :=
  ⟨(Cursor.text_skip _ _).trans (found_text hfind hplace), (found_start hfind).2⟩

theorem standsAt_stop (hplace : place.StandsAt t position) :
    h.stop.StandsAt t h.stop.bytesBefore :=
  ⟨(Cursor.text_skip _ _).trans (found_text hfind hplace), rfl⟩

end

variable {t : Text} {position next : Nat}

theorem Round.moves {h : Hit} (hround : Round t position h next) :
    h.start.text = t ∧ position ≤ h.start.bytesBefore ∧ position < next ∧
      next ≤ (Utf8.encode t).length ∧ ∃ place : Cursor, place.StandsAt t next := by
  cases hround with
  | columns hplace hfind hcolumns =>
      have hstart := hplace.position ▸ (found_start hfind).1
      have hnext := standsAt_skip hfind hplace
      exact ⟨found_text hfind hplace, hstart, Nat.lt_succ_of_le hstart,
        hnext.position ▸ Cursor.bytesBefore_le hnext.text, _, hnext⟩
  | names hplace hfind hnames =>
      have hstart := hplace.position ▸ (found_start hfind).1
      have hnext := standsAt_stop hfind hplace
      exact ⟨found_text hfind hplace, hstart, Nat.lt_of_le_of_lt hstart (found_stop hfind),
        Cursor.bytesBefore_le hnext.text, _, hnext⟩

/-! ### All rounds -/

/-- The rounds from a place on come to an end, with the lists that the search finds there. -/
theorem rounds_listsBehind {place : Cursor} (hplace : place.StandsAt t position) :
    Rounds t position (listsBehind place.before place.after) := by
  induction hlength : place.after.length using Nat.strong_induction_on
    generalizing place position with
  | _ n ih =>
      cases hfind : pattern.findFrom place with
      | none =>
          rw [listsBehind_of_none hfind]
          exact .last hplace hfind
      | some h =>
          cases hcolumns : updatesColumns h with
          | true =>
              rw [listsBehind_of_columns hfind hcolumns]
              have hrest := ih _ (hlength ▸ length_skip hfind Nat.one_pos)
                (standsAt_skip hfind hplace) rfl
              have hall := Rounds.round (.columns hplace hfind hcolumns) hrest
              rwa [hcolumns, if_pos rfl] at hall
          | false =>
              rw [listsBehind_of_names hfind hcolumns]
              have hrest := ih _ (hlength ▸ length_skip hfind (found_moves hfind))
                (standsAt_stop hfind hplace) rfl
              have hall := Rounds.round (.names hplace hfind hcolumns) hrest
              rwa [hcolumns, if_neg Bool.false_ne_true] at hall

theorem Rounds.eq_listsBehind {found : List Text} (hrounds : Rounds t position found)
    {place : Cursor} (hplace : place.StandsAt t position) :
    found = listsBehind place.before place.after := by
  induction hrounds generalizing place with
  | last hplace' hfind =>
      obtain rfl := hplace.unique hplace'
      exact (listsBehind_of_none hfind).symm
  | round hround hrest ih =>
      cases hround with
      | columns hplace' hfind hcolumns =>
          obtain rfl := hplace.unique hplace'
          rw [hcolumns, if_pos rfl, listsBehind_of_columns hfind hcolumns]
          exact ih (standsAt_skip hfind hplace)
      | names hplace' hfind hnames =>
          obtain rfl := hplace.unique hplace'
          rw [hnames, if_neg Bool.false_ne_true, listsBehind_of_names hfind hnames,
            ih (standsAt_stop hfind hplace)]

/-- The lists of a text are those of the matches of the pattern in which UPDATE does not stand
behind KEY. The rounds that find them end, each of them resumes behind the position it searched
from, and every position they search from or cut the text at lies in it, between two characters. -/
theorem lists_eq_guarded (t : Text) :
    lists t = (guarded.hits t).map (·.group 1) ∧
      (∀ found, Rounds t 0 found ↔ found = lists t) ∧
      ∀ position h next, Round t position h next →
        h.start.text = t ∧ position ≤ h.start.bytesBefore ∧ position < next ∧
          next ≤ (Utf8.encode t).length ∧ ∃ place : Cursor, place.StandsAt t next := by
  have hstart : (Cursor.start t).StandsAt t 0 := ⟨rfl, rfl⟩
  refine ⟨lists_eq_hits t, fun found => ⟨?_, ?_⟩, fun _ _ _ hround => hround.moves⟩
  · intro hrounds
    exact hrounds.eq_listsBehind hstart
  · rintro rfl
    exact rounds_listsBehind hstart

/-- An UPDATE behind KEY and a wide space. The next round resumes in its second letter. -/
theorem lists_eq_guarded_columns :
    (guarded.hits "é on key\u2003UPDATE a join b".toList).map (·.group 1) = ["b".toList] ∧
      ∃ h, Round "é on key\u2003UPDATE a join b".toList 0 h 13 ∧ updatesColumns h = true ∧
        h.start.text = "é on key\u2003UPDATE a join b".toList ∧
        ∃ place : Cursor, place.StandsAt "é on key\u2003UPDATE a join b".toList 13 := by
  obtain ⟨hhits, _, hrounds⟩ := lists_eq_guarded "é on key\u2003UPDATE a join b".toList
  have hfound : (pattern.find "é on key\u2003UPDATE a join b".toList).isSome = true := by
    decide +kernel
  obtain ⟨h, hfind⟩ := Option.isSome_iff_exists.mp hfound
  have hhit : (pattern.find "é on key\u2003UPDATE a join b".toList).map
      (fun h => (updatesColumns h, h.start.bytesBefore)) = some (true, 12) := by
    decide +kernel
  rw [hfind, Option.map_some, Option.some_inj, Prod.mk.injEq] at hhit
  obtain ⟨hcolumns, hbytes⟩ := hhit
  have hround : Round "é on key\u2003UPDATE a join b".toList 0 h 13 := by
    have hplace : (Cursor.start "é on key\u2003UPDATE a join b".toList).StandsAt _ 0 := ⟨rfl, rfl⟩
    have hround := Round.columns hplace hfind hcolumns
    rwa [hbytes] at hround
  obtain ⟨htext, _, _, _, hplace⟩ := hrounds 0 h 13 hround
  refine ⟨?_, h, hround, hcolumns, htext, hplace⟩
  rw [← hhits]
  decide +kernel

end TableClause
end QueryDigest
