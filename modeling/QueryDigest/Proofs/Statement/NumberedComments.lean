import QueryDigest.Proofs.Pattern.Runs
import QueryDigest.Proofs.Statement.KeptComments

/-!
SHOW statements with numbered version comments. The qualifier is found in the first version comment
and written for each of them. The two patterns at work agree on where a version comment starts and
ends, since its number stands right behind its opener and nothing in it reads as an end.
-/

namespace QueryDigest.Comment

open Pattern
open Unicode (foldLetter)

/-! ### Statements -/

/-- A segment in which neither stars nor slashes stand outside openers and ends of comments. A
version comment starts with a number. -/
def Segment.Numbered : Segment → Prop
  | .text t _ => '*' ∉ t
  | .block body _ _ _ => '/' ∉ body
  | .version body _ _ => body.head?.any Char.isDigit = true

instance : DecidablePred Segment.Numbered
  | .text t _ => inferInstanceAs (Decidable ('*' ∉ t))
  | .block body _ _ _ => inferInstanceAs (Decidable ('/' ∉ body))
  | .version body _ _ => inferInstanceAs (Decidable (body.head?.any Char.isDigit = true))

/-- What stands behind the number in the body of a version comment. -/
def qualifier (body : Text) : Text :=
  body.dropWhile Char.isDigit

def firstQualifier? (segments : List Segment) : Option Text :=
  segments.findSome? fun
    | .version body _ _ => some (qualifier body)
    | _ => none

/-- What is left of a segment when `q` is written for version comments. -/
def Segment.qualified (q : Text) : Segment → Text
  | .text t _ => t
  | .block _ _ _ _ => []
  | .version _ _ _ => q

/-! ### What the passes over block comments leave -/

theorem not_reopens {t : Text} (h : t.head? ≠ some '*') : ¬ Reopens t := by
  intro hreopens
  unfold Reopens at hreopens
  split at hreopens
  · exact h rfl
  · exact hreopens

theorem head_spelled {segments : List Segment} (h : ∀ s ∈ segments, s.Numbered) :
    (spelled segments).head? ≠ some '*' := by
  induction segments with
  | nil => exact nofun
  | cons s segments ih =>
      obtain ⟨hs, hrest⟩ := List.forall_mem_cons.mp h
      rw [spelled_cons]
      cases s with
      | text t harmless =>
          cases t with
          | nil => exact ih hrest
          | cons c t =>
              rintro ⟨⟩
              exact hs List.mem_cons_self
      | block body nonempty unmarked starless => exact nofun
      | version body harmless starless => exact nofun

theorem apart_of_numbered {segments : List Segment} (h : ∀ s ∈ segments, s.Numbered) :
    Apart segments := by
  induction segments with
  | nil => trivial
  | cons s segments ih =>
      obtain ⟨_, hrest⟩ := List.forall_mem_cons.mp h
      cases s with
      | text t harmless => exact ih hrest
      | block body nonempty unmarked starless => exact ih hrest
      | version body harmless starless => exact ⟨not_reopens (head_spelled hrest), ih hrest⟩

/-- The number of a version comment, and the qualifier behind it. -/
theorem numbered_body {body : Text} (h : body.head?.any Char.isDigit = true) :
    ∃ number, body = number ++ qualifier body ∧ number ≠ [] ∧ (∀ c ∈ number, c.isDigit = true) ∧
      ∀ c, (qualifier body).head? = some c → c.isDigit = false := by
  refine ⟨body.takeWhile Char.isDigit, List.takeWhile_append_dropWhile.symm, ?_,
    fun c hc => List.mem_takeWhile_imp hc, ?_⟩
  · cases body with
    | nil => cases h
    | cons d body =>
        have hd : d.isDigit = true := h
        rw [List.takeWhile_cons_of_pos hd]
        exact List.cons_ne_nil d _
  · intro c hc
    have hnot := List.head?_dropWhile_not Char.isDigit body
    rw [qualifier] at hc
    rw [hc] at hnot
    exact hnot

theorem eq_nil_of_slash {k t : Text} (hk : '/' ∉ k) (h : k <+: ('/' :: t).map foldLetter) :
    k = [] := by
  cases k with
  | nil => rfl
  | cons c k =>
      have hslash : foldLetter '/' = '/' := by decide
      obtain ⟨hc, _⟩ := List.cons_prefix_cons.mp h
      rw [hc, hslash] at hk
      exact absurd List.mem_cons_self hk

/-- What is left of a statement in front of its first version comment holds all that the statement
starts with, up to a slash. -/
theorem kept_upTo_version {segments : List Segment} (h : ∀ s ∈ segments, s.Numbered) {q k : Text}
    (hq : firstQualifier? segments = some q) (hk : '/' ∉ k)
    (hstart : k <+: (spelled segments).map foldLetter) :
    ∃ u body more, kept segments = u ++ ("/*!".toList ++ (body ++ ("*/".toList ++ more))) ∧
      '/' ∉ u ∧ k <+: u.map foldLetter ∧ '*' ∉ body ∧
      body.head?.any Char.isDigit = true ∧ q = qualifier body := by
  induction segments generalizing k with
  | nil => cases hq
  | cons s segments ih =>
      obtain ⟨hs, hrest⟩ := List.forall_mem_cons.mp h
      rw [spelled_cons] at hstart
      rw [kept_cons]
      cases s with
      | text t harmless =>
          have hslash : '/' ∉ t := fun hmem => (harmless _ hmem).2 (by decide)
          -- the text takes all of `k`, or `k` goes on behind it
          have hbehind : ∃ k', '/' ∉ k' ∧ k' <+: (spelled segments).map foldLetter ∧
              ∀ u : Text, k' <+: u.map foldLetter → k <+: (t ++ u).map foldLetter := by
            simp only [List.map_append]
            change k <+: (t ++ spelled segments).map foldLetter at hstart
            rw [List.map_append] at hstart
            obtain hkt | ⟨k', rfl⟩ :=
              List.prefix_or_prefix_of_prefix hstart (List.prefix_append _ _)
            · exact ⟨[], List.not_mem_nil, List.nil_prefix,
                fun u _ => hkt.trans (List.prefix_append _ _)⟩
            · exact ⟨k', fun hmem => hk (List.mem_append_right _ hmem),
                (List.prefix_append_right_inj _).mp hstart,
                fun u => (List.prefix_append_right_inj _).mpr⟩
          obtain ⟨k', hk', hstart', hfront⟩ := hbehind
          obtain ⟨u, body, more, hkept, hu, hku, hbody⟩ := ih hrest hq hk' hstart'
          refine ⟨t ++ u, body, more, ?_, ?_, hfront u hku, hbody⟩
          · rw [hkept, List.append_assoc]
            rfl
          · rw [List.mem_append, not_or]
            exact ⟨hslash, hu⟩
      | block body nonempty unmarked starless =>
          obtain rfl := eq_nil_of_slash hk hstart
          exact ih hrest hq hk List.nil_prefix
      | version body harmless starless =>
          obtain rfl := eq_nil_of_slash hk hstart
          refine ⟨[], body, kept segments, ?_, List.not_mem_nil, List.nil_prefix, starless, hs,
            (Option.some.inj hq).symm⟩
          simp [Segment.kept, Segment.spelling]

/-! ### The qualifier -/

/-- A number is taken as a whole, up to the qualifier behind it. -/
theorem run_number {number q more : Text} (hne : number ≠ [])
    (hnumber : ∀ c ∈ number, c.isDigit = true)
    (hq : ∀ c, q.head? = some c → c.isDigit = false) {a : Attempt}
    (hafter : a.after = number ++ (q ++ ("*/".toList ++ more))) (onward : Onward) :
    digits.run a onward = onward (a.take number (q ++ ("*/".toList ++ more))) := by
  refine run_someOf hne hnumber (fun c hc => ?_) hafter onward
  cases q with
  | nil =>
      obtain rfl : '*' = c := Option.some.inj hc
      decide
  | cons d q => exact hq c hc

/-- A text without stars is passed over up to the end of the comment behind it. -/
theorem run_upToEnd {q rest : Text} (hq : '*' ∉ q) {a b : Attempt} {onward : Onward}
    (hafter : a.after = q ++ ("*/".toList ++ rest))
    (hearly : ∀ u c v, '*' ≠ c → onward (a.take u (c :: v)) = none)
    (hend : onward (a.take q ("*/".toList ++ rest)) = some b) :
    (asFew anyChar).run a onward = some b := by
  refine run_asFew hafter (fun _ _ => rfl) (fun u c v hsplit => hearly u c _ ?_) hend
  rintro rfl
  exact hq (hsplit ▸ List.mem_append_right u List.mem_cons_self)

/-- The qualifier of a SHOW statement is the one in its first version comment. -/
theorem find_showQualifier_eq {w u body : Text} (hw : w.map foldLetter = "SHOW".toList)
    (hu : '/' ∉ u) (hstar : '*' ∉ body) (hbody : body.head?.any Char.isDigit = true)
    (more : Text) :
    ∃ h, showQualifier.find (w ++ (u ++ ("/*!".toList ++ (body ++ ("*/".toList ++ more))))) =
      some h ∧ h.group 0 = qualifier body := by
  have hanchored : showQualifier.Anchored :=
    (((((anchored_textStart.append _).append _).append _).append _).append _).append _
  obtain ⟨number, hsplit, hne, hnumber, happart⟩ := numbered_body hbody
  generalize qualifier body = q at *
  subst hsplit
  have hq : '*' ∉ q := fun hmem => hstar (List.mem_append_right number hmem)
  generalize hlead : w ++ (u ++ ("/*!".toList ++ number)) = lead
  have htext : w ++ (u ++ ("/*!".toList ++ (number ++ q ++ ("*/".toList ++ more)))) =
      lead ++ (q ++ ("*/".toList ++ more)) := by
    simp only [← hlead, List.append_assoc]
  have hrun : ∀ a : Attempt, a.before = [] →
      a.after = w ++ (u ++ ("/*!".toList ++ (number ++ (q ++ ("*/".toList ++ more))))) →
      showQualifier.run a some =
        some (((a.take (lead ++ q) ("*/".toList ++ more)).close (a.passed + lead.length)).take
          "*/".toList more) := by
    intro a hbefore hafter
    rw [showQualifier, run_append, run_append, run_append, run_append, run_append, run_append,
      textStart, run, hbefore]
    change (keyword "SHOW".toList).run a _ = _
    rw [run_keyword hw hafter]
    refine run_asFew rfl (fun _ _ => rfl) (fun x c v hsplit => run_exactly_none ?_ rfl _) ?_
    · rintro rfl
      exact hu (hsplit ▸ List.mem_append_right x List.mem_cons_self)
    · rw [run_exactly rfl, run_number hne hnumber happart rfl, run_group]
      refine run_upToEnd hq rfl (fun x c v hc => run_exactly_none hc rfl _) ?_
      rw [run_exactly rfl, Attempt.take_take, Attempt.take_take, Attempt.take_take]
      simp [← hlead, Attempt.close, Attempt.take, Nat.add_assoc]
      omega
  refine ⟨⟨.start (lead ++ (q ++ ("*/".toList ++ more))), (lead ++ q).length + 2,
    [(lead.length, (lead ++ q).length)]⟩, ?_, Hit.group_single [] lead q _ _ rfl (by simp)⟩
  have hmatch := hrun (.start (.start (lead ++ (q ++ ("*/".toList ++ more))))) rfl
    (by simp only [← hlead, List.append_assoc]; rfl)
  rw [htext, find_anchored hanchored, matchAt?]
  change Option.map _ (showQualifier.run (.start (.start _)) some) = _
  rw [hmatch]
  simp [Attempt.start, Attempt.close]

/-! ### Qualifiers in the place of version comments -/

theorem matchAt?_version_none {before rest : Text} {c : Char} (hc : c ≠ '/') :
    version.matchAt? ⟨before, c :: rest⟩ = none :=
  Option.eq_none_iff_forall_ne_some.mpr fun _ hmatch => hc (version_opens hmatch).1

theorem matchAt?_version {body : Text} (hstar : '*' ∉ body)
    (hbody : body.head?.any Char.isDigit = true) (before rest : Text) :
    version.matchAt? ⟨before, ("/*!".toList ++ body ++ "*/".toList) ++ rest⟩ =
      some ⟨⟨before, ("/*!".toList ++ body ++ "*/".toList) ++ rest⟩, body.length + 5, []⟩ := by
  obtain ⟨number, hsplit, hne, hnumber, happart⟩ := numbered_body hbody
  generalize qualifier body = q at *
  subst hsplit
  have hq : '*' ∉ q := fun hmem => hstar (List.mem_append_right number hmem)
  have htext : ("/*!".toList ++ (number ++ q) ++ "*/".toList) ++ rest =
      "/*".toList ++ (['!'] ++ (number ++ (q ++ ("*/".toList ++ rest)))) := by simp
  have hmark : ∀ c, (number ++ (q ++ ("*/".toList ++ rest))).head? = some c →
      (!c.isDigit) = false := by
    obtain ⟨d, number, rfl⟩ := List.exists_cons_of_ne_nil hne
    rintro _ ⟨⟩
    rw [hnumber d List.mem_cons_self]
    rfl
  have hrun : ∀ a : Attempt,
      a.after = "/*".toList ++ (['!'] ++ (number ++ (q ++ ("*/".toList ++ rest)))) →
      version.run a some =
        some (a.take ("/*".toList ++ (['!'] ++ (number ++ (q ++ "*/".toList)))) rest) := by
    intro a hafter
    rw [version, run_append, run_append, run_append, run_append, run_exactly hafter,
      run_allOf (List.forall_mem_singleton.mpr (by decide)) hmark rfl,
      run_number hne hnumber happart rfl]
    refine run_upToEnd hq rfl (fun u c v hc => run_exactly_none hc rfl _) ?_
    rw [run_exactly rfl, Attempt.take_take, Attempt.take_take, Attempt.take_take,
      Attempt.take_take]
  rw [htext, matchAt?]
  change Option.map _ (version.run (.start ⟨before, _⟩) some) = _
  rw [hrun _ rfl]
  simp [Attempt.start, Nat.add_assoc]

theorem turns_qualified {segments : List Segment} (h : ∀ s ∈ segments, s.Numbered)
    (q before : Text) :
    Turns version q before (kept segments) [] (segments.flatMap (·.qualified q)) := by
  induction segments generalizing before with
  | nil => exact turns_nil version q before []
  | cons s segments ih =>
      obtain ⟨hs, hrest⟩ := List.forall_mem_cons.mp h
      rw [kept_cons, List.flatMap_cons]
      refine Turns.append ?_ (ih hrest _)
      cases s with
      | text t harmless =>
          exact turns_of_chars (P := (· ≠ '/')) matchAt?_version_none fun c hc heq =>
            (harmless c hc).2 (heq ▸ List.mem_cons_self)
      | block body nonempty unmarked starless => exact turns_nil version q before _
      | version body harmless starless =>
          exact turns_hit (matchAt?_version starless hs before _)
            (by simp [Segment.kept, Segment.spelling]) (by simp [Segment.kept, Segment.spelling])

/-- In a SHOW statement with numbered version comments, erasing comments takes out the block
comments and writes the first qualifier in the place of every version comment. -/
theorem erase_numbered (segments : List Segment) (hshow : OpensShow (spelled segments))
    (hsegments : ∀ s ∈ segments, s.Numbered) (q : Text) (hq : firstQualifier? segments = some q) :
    erase (spelled segments) = segments.flatMap (·.qualified q) := by
  have hstart : "SHOW".toList <+: (spelled segments).map foldLetter := by
    rw [← hshow, List.map_take]
    exact List.take_prefix 4 _
  obtain ⟨u, body, more, hkept, hslash, hprefix, hstar, hbody, rfl⟩ :=
    kept_upTo_version hsegments hq (by decide) hstart
  obtain ⟨x, hx⟩ := hprefix
  obtain ⟨w, u, rfl, hw, _⟩ := List.map_eq_append_iff.mp hx.symm
  have hbehind : '/' ∉ u := fun hmem => hslash (List.mem_append_right w hmem)
  obtain ⟨h, hfind, hgroup⟩ :=
    find_showQualifier_eq hw hbehind hstar hbody more
  rw [← List.append_assoc, ← hkept] at hfind
  rw [erase, eraseClosedAndCut_spelled (apart_of_numbered hsegments), hfind]
  simp only [hgroup]
  exact (turns_qualified hsegments (qualifier body) []).replaceAll

/-- Three comments of both kinds next to each other, SHOW in small letters with a long s, a dollar
sign in the qualifier, and a number in a later one. -/
theorem erase_numbered_adjacent :
    let segments : List Segment :=
      [.text "\u017fhow".toList (by decide),
        .block "#1 '".toList (by decide) (by decide) (by decide),
        .version "50002 $1 a2 ".toList (by decide) (by decide),
        .version "4 b 5".toList (by decide) (by decide), .text "!c\n".toList (by decide),
        .version "0".toList (by decide) (by decide)]
    OpensShow (spelled segments) ∧ (∀ s ∈ segments, s.Numbered) ∧
      firstQualifier? segments = some " $1 a2 ".toList ∧
      erase (spelled segments) = "\u017fhow $1 a2  $1 a2 !c\n $1 a2 ".toList := by
  intro segments
  have hshow : OpensShow (spelled segments) := by decide +kernel
  have hsegments : ∀ s ∈ segments, s.Numbered := by decide +kernel
  have hq : firstQualifier? segments = some " $1 a2 ".toList := by decide +kernel
  exact ⟨hshow, hsegments, hq, erase_numbered segments hshow hsegments _ hq⟩

end QueryDigest.Comment
