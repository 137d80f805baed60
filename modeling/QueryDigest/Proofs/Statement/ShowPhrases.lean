import QueryDigest.Proofs.Pattern.WordPasses
import QueryDigest.Proofs.Statement.KeptComments
import QueryDigest.Proofs.Statement.Openings

/-!
The words of SHOW statements. Filler words, counts and clauses are taken out of the upper-case text
together with the white space in front of them, so that they leave the word SHOW alone, but not what
follows it: behind a count another word may end up right behind SHOW. The words are cut short only
where SHOW is the start of the text, and the fingerprint leaves the tables out only there.
-/

namespace QueryDigest

open Pattern
open Text (Blank Words)
open Unicode (foldLetter isBlank)

/-! ### Upper case -/

namespace Unicode

theorem upper_append (s t : Text) : upper (s ++ t) = upper s ++ upper t :=
  List.flatMap_append

theorem upperChar_of_isBlank {c : Char} (h : isBlank c = true) : upperChar c = [c] := by
  have hblanks : ∀ n ∈ blankNumbers, upperChar (Char.ofNat n) = [Char.ofNat n] := by
    decide +kernel
  have hupper := hblanks c.toNat (mem_blankNumbers h)
  rwa [Char.ofNat_toNat] at hupper

theorem upper_of_blank {t : Text} (h : ∀ c ∈ t, isBlank c = true) : upper t = t := by
  induction t with
  | nil => rfl
  | cons c t ih =>
      change upperChar c ++ upper t = c :: t
      rw [upperChar_of_isBlank (h c List.mem_cons_self),
        ih fun d hd => h d (List.mem_cons_of_mem c hd)]
      rfl

/-- A character that folds to a capital has it as its upper case; only the Kelvin sign has not. -/
theorem upperChar_of_foldLetter {c : Char} (hupper : (foldLetter c).isUpper = true)
    (hk : foldLetter c ≠ 'K') : upperChar c = [foldLetter c] := by
  by_cases hs : c = Char.ofNat 0x17F
  · rw [hs]
    decide
  · have hfold : foldLetter c = c.toUpper := by
      rw [foldLetter, if_neg hs, if_neg]
      rintro rfl
      exact hk rfl
    rw [hfold] at hupper ⊢
    rw [upperChar, if_pos (toNat_lt_of_isAlpha (isAlpha_of_isUpper_toUpper hupper))]

theorem upper_of_fold {w k : Text} (h : w.map foldLetter = k) (hupper : k.all Char.isUpper = true)
    (hk : 'K' ∉ k) : upper w = k := by
  subst h
  induction w with
  | nil => rfl
  | cons c w ih =>
      simp only [List.map_cons, List.all_cons, Bool.and_eq_true] at hupper
      simp only [List.map_cons, List.mem_cons, not_or] at hk
      change upperChar c ++ upper w = _
      rw [upperChar_of_foldLetter hupper.1 (Ne.symm hk.1), ih hupper.2 hk.2]
      rfl

end Unicode

/-! ### Synonyms -/

namespace Fingerprint

/-- What each of the synonyms keeps, all of them keep. -/
theorem unifySynonyms_induction {P : Text → Prop}
    (hstep : ∀ entry ∈ synonyms, ∀ t, P t →
      P ((exactly entry.1).replaceAll (fun _ => entry.2) t))
    {t : Text} (h : P t) : P (unifySynonyms t) :=
  List.foldlRecOn synonyms _ h fun t ht entry hentry => hstep entry hentry t ht

/-- No synonym starts within the word SHOW, and each is a word and written as one. -/
theorem synonyms_words : ∀ entry ∈ synonyms,
    (∀ s ∈ "SHOW".toList.tails, s ≠ [] → ¬ entry.1 <+: s ∧ ¬ s <+: entry.1) ∧
      (exactly entry.1).avoids [' '] = true ∧
      entry.2 ≠ [] ∧ ∀ c ∈ entry.2, isBlank c = false := by
  decide

end Fingerprint

namespace Classification

open Fingerprint (synonyms unifySynonyms unifySynonyms_induction synonyms_words)

/-- The word SHOW and at most two further words, with single spaces between them. -/
def ShowWords (f : Text) : Prop :=
  ∃ ws : List Text, ws.length ≤ 2 ∧ Words ws ∧ f = Text.spaced ("SHOW".toList :: ws)

/-- The word SHOW with something other than white space right behind it. -/
def Glued (f : Text) : Prop :=
  ∃ c rest, f = "SHOW".toList ++ c :: rest ∧ isBlank c = false

theorem ShowWords.unifySynonyms {f : Text} (h : ShowWords f) : ShowWords (unifySynonyms f) := by
  refine unifySynonyms_induction ?_ h
  rintro ⟨k, r⟩ hentry _ ⟨ws, hlength, hws, rfl⟩
  obtain ⟨hapart, havoid, hne, hr⟩ := synonyms_words _ hentry
  have hshow := turns_exactly hapart r [] (ws.flatMap (' ' :: ·))
  obtain ⟨ws', hlength', hws', hturns⟩ :=
    turns_words (near_exactly k) havoid hne hr hws ("SHOW".toList.reverse ++ [])
  refine ⟨ws', hlength' ▸ hlength, hws', ?_⟩
  rw [Text.spaced_cons, Text.spaced_cons]
  rw [← List.append_nil (ws.flatMap (' ' :: ·))] at hshow
  exact (hshow.append hturns).replaceAll

theorem Glued.unifySynonyms {f : Text} (h : Glued f) : Glued (unifySynonyms f) := by
  refine unifySynonyms_induction ?_ h
  rintro ⟨k, r⟩ hentry _ ⟨c, rest, rfl, hc⟩
  obtain ⟨hapart, _, hne, hr⟩ := synonyms_words _ hentry
  have hshow := turns_exactly hapart r [] (c :: rest)
  obtain ⟨d, more, hwrite, hd⟩ :=
    write_head (p := exactly k) hne hr hc ("SHOW".toList.reverse ++ []) rest
  refine ⟨d, more, ?_, hd⟩
  rw [replaceAll_const, hshow, hwrite]

theorem ShowWords.not_glued {f : Text} (h : ShowWords f) : ¬ Glued f := by
  obtain ⟨ws, _, _, rfl⟩ := h
  rintro ⟨c, rest, heq, hc⟩
  rw [Text.spaced_cons] at heq
  have hhead := List.append_cancel_left heq
  cases ws with
  | nil => cases hhead
  | cons w ws =>
      cases hhead
      cases hc

/-! ### What is left of a statement -/

/-- What is left of a SHOW statement without filler words, counts and clauses. -/
def shortened (t : Text) : Text :=
  showClause.removeAll (showCount.removeAll
    (showFiller.replaceAll (fun _ => [' ']) (Unicode.upper t)))

theorem showPhrase_eq (t : Text) : showPhrase t =
    blanks.replaceAll (fun _ => [' ']) (showHead.replaceFirst (·.group 0) (shortened t)) :=
  rfl

/-- Without words that start like SHOW a pass leaves the word and what stands in front of it. -/
theorem replaceAll_behind_show (p q : Pattern) (ks : List Text)
    (hp : ∀ a onward, p.run a onward = blanks.run a fun b =>
      (anyOf (ks.map exactly)).run b fun c => q.run c onward)
    (hks : ∀ k ∈ ks, ¬ k <+: "SHOW".toList ∧ ¬ "SHOW".toList <+: k)
    {lead : Text} (hlead : ∀ c ∈ lead, isBlank c = true) (r rest : Text) :
    ∃ rest', p.replaceAll (fun _ => r) (lead ++ ("SHOW".toList ++ rest)) =
      lead ++ ("SHOW".toList ++ rest') := by
  have hturns : Turns p r [] (lead ++ "SHOW".toList) rest (lead ++ "SHOW".toList) :=
    turns_behind_blanks (q := anyOf (ks.map exactly) ++ q) hp hlead (by decide) (by decide)
      (fun a onward hafter => run_anyOf_none hks hafter _) r []
  rw [Turns, ← replaceAll_const, List.append_assoc, List.append_assoc] at hturns
  exact ⟨_, hturns⟩

/-- White space and the word SHOW are left in front of a SHOW statement. -/
theorem shortened_opens {t : Text} (h : showOpening.occursIn t = true) :
    ∃ lead rest, (∀ c ∈ lead, isBlank c = true) ∧
      shortened t = lead ++ ("SHOW".toList ++ rest) := by
  obtain ⟨lead, w, rest, rfl, hlead, hw⟩ :=
    (opening_showOpening.opensWith_of_occursIn h).split
  have hupper : Unicode.upper (lead ++ (w ++ rest)) =
      lead ++ ("SHOW".toList ++ Unicode.upper rest) := by
    rw [Unicode.upper_append, Unicode.upper_append, Unicode.upper_of_blank hlead,
      Unicode.upper_of_fold hw (by decide) (by decide)]
    rfl
  obtain ⟨rest₁, h₁⟩ := replaceAll_behind_show showFiller wordEdge
    (["SESSION", "FULL", "STORAGE", "ENGINE"].map String.toList)
    (fun _ _ => rfl) (by decide) hlead [' '] (Unicode.upper rest)
  obtain ⟨rest₂, h₂⟩ := replaceAll_behind_show showCount
    (someOf (· != ')') ++ char ')') ["COUNT".toList]
    (fun _ _ => rfl) (by decide) hlead [] rest₁
  obtain ⟨rest₃, h₃⟩ := replaceAll_behind_show showClause
    (wordEdge ++ someOf anyChar)
    (["FOR", "FROM", "LIKE", "WHERE", "LIMIT", "IN"].map String.toList)
    (fun _ _ => rfl) (by decide) hlead [] rest₂
  refine ⟨lead, rest₃, hlead, ?_⟩
  rw [shortened, hupper, h₁, removeAll, removeAll, h₂, h₃]

/-! ### The words in front -/

/-- Nothing stands behind SHOW, or white space and then something else. -/
def ShowTail (rest : Text) : Prop :=
  rest = [] ∨ ∃ b more, rest = b :: more ∧ isBlank b = true ∧ ∃ c ∈ more, isBlank c = false

theorem run_nextRun {bs w rest : Text} (hbs : Blank bs) (hw : Words [w])
    (hrest : ∀ c, rest.head? = some c → isBlank c = true) {a : Attempt}
    (hafter : a.after = bs ++ (w ++ rest)) (onward : Onward) :
    nextRun.run a onward = onward (a.take (bs ++ w) rest) := by
  obtain ⟨hne, hnonblank⟩ := hw w List.mem_cons_self
  have hedge := Text.head_nonblank hnonblank hne rest
  have hclass : ∀ c, LoadTarget.notBlank c = !isBlank c := fun _ => rfl
  rw [nextRun, run_append, run_blanks hbs hedge hafter, run_nonblanks hclass hw hrest rfl,
    Attempt.take_take]

theorem run_nextRun_none {a : Attempt} (h : ∀ c ∈ a.after, isBlank c = true) (onward : Onward) :
    nextRun.run a onward = none := by
  refine Option.eq_none_iff_forall_ne_some.mpr fun b hrun => ?_
  rw [nextRun, run_append] at hrun
  obtain ⟨bs, rest, hafter, _, hrest, hrun⟩ := run_blanks_eq_some hrun
  cases rest with
  | nil => cases hrun
  | cons c rest =>
      have hc := h c (hafter ▸ List.mem_append_right bs List.mem_cons_self)
      rw [hrest c rfl] at hc
      cases hc

theorem anchored_showHead : showHead.Anchored :=
  ((anchored_textStart.append _).append _).append _

theorem run_showHead (t : Text) : showHead.run (.start (.start t)) some =
    (exactly "SHOW".toList).run (.start (.start t)) fun b => nextRun.run b fun c =>
      (optional nextRun).run c fun d =>
        some ((d.close 0).take d.after []) := by
  have hend : ∀ d : Attempt, (allOf anyChar).run d (fun e => textEnd.run e some) =
      some (d.take d.after []) := by
    intro d
    have hany : ∀ c ∈ d.after, anyChar c = true := fun _ _ => rfl
    have hstop : ∀ c, ([] : Text).head? = some c → anyChar c = false := fun c hc => nomatch hc
    rw [run_allOf hany hstop (List.append_nil d.after).symm]
    rfl
  have honward : (fun d : Attempt => (allOf anyChar).run (d.close 0) fun e =>
      textEnd.run e some) = fun d => some ((d.close 0).take d.after []) :=
    funext fun d => hend (d.close 0)
  rw [← honward]
  rfl

/-- Only a text with a word behind SHOW and white space is cut short. -/
theorem reads_of_showHead {t : Text} {h : Hit} (hfind : showHead.find t = some h) :
    ∃ b more, t = "SHOW".toList ++ b :: more ∧ isBlank b = true ∧
      ∃ c ∈ more, isBlank c = false := by
  rw [find_anchored anchored_showHead] at hfind
  obtain ⟨a, hrun, _⟩ := matchAt?_eq_some hfind
  rw [run_showHead] at hrun
  obtain ⟨rest, hrest⟩ := run_exactly_eq_some hrun
  rw [Comment.run_exactly hrest.symm, nextRun, run_append] at hrun
  obtain ⟨bs, tail, hafter, hbs, hedge, hrun⟩ := run_blanks_eq_some hrun
  obtain ⟨b, bs, rfl⟩ := List.exists_cons_of_ne_nil hbs.nonempty
  obtain rfl : rest = b :: (bs ++ tail) := hafter
  refine ⟨b, bs ++ tail, hrest.symm, hbs.blank b List.mem_cons_self, ?_⟩
  cases tail with
  | nil => cases hrun
  | cons c tail => exact ⟨c, by simp, hedge c rfl⟩

theorem replaceFirst_showHead {w rest : Text}
    (hrun : showHead.run (.start (.start (w ++ rest))) some =
      some ((((Attempt.start (.start (w ++ rest))).take w rest).close 0).take rest [])) :
    showHead.replaceFirst (·.group 0) (w ++ rest) = w := by
  have hmatch : showHead.matchAt? (.start (w ++ rest)) =
      some ⟨.start (w ++ rest), w.length + rest.length, [(0, w.length)]⟩ := by
    change (showHead.run (.start (.start (w ++ rest))) some).map _ = _
    rw [hrun]
    simp [Attempt.close, Attempt.start]
  have hgroup : Hit.group ⟨.start (w ++ rest), w.length + rest.length, [(0, w.length)]⟩ 0 = w :=
    Hit.group_single [] [] w rest _ rfl (by simp)
  rw [replaceFirst, find_anchored anchored_showHead, hmatch]
  simp only [hgroup]
  simp [Hit.stop, Cursor.skip, Cursor.start]

theorem blank_of_head {bs w rest : Text} (hbs : ∀ c ∈ bs, isBlank c = true) (hw : Words [w])
    (hhead : ∀ c, (bs ++ (w ++ rest)).head? = some c → isBlank c = true) : Blank bs := by
  refine ⟨?_, hbs⟩
  rintro rfl
  obtain ⟨hne, hword⟩ := hw w List.mem_cons_self
  obtain ⟨c, w, rfl⟩ := List.exists_cons_of_ne_nil hne
  have hc := hhead c rfl
  rw [hword c List.mem_cons_self] at hc
  cases hc

/-- Behind SHOW one word is left, or two where there are more. -/
theorem showHead_words {b : Char} {more : Text} (hb : isBlank b = true)
    (hmore : ∃ c ∈ more, isBlank c = false) :
    ∃ bs w, Blank bs ∧ Words [w] ∧
      (showHead.replaceFirst (·.group 0) ("SHOW".toList ++ b :: more) =
          "SHOW".toList ++ (bs ++ w) ∨
        ∃ bs' w', Blank bs' ∧ Words [w'] ∧
          showHead.replaceFirst (·.group 0) ("SHOW".toList ++ b :: more) =
            "SHOW".toList ++ (bs ++ (w ++ (bs' ++ w')))) := by
  obtain hall | ⟨bs, w, rest, hsplit, hbs, hw, hrest⟩ := Text.first_word (b :: more)
  · obtain ⟨c, hc, hnot⟩ := hmore
    rw [hall c (List.mem_cons_of_mem b hc)] at hnot
    cases hnot
  have hhead : ∀ c, (bs ++ (w ++ rest)).head? = some c → isBlank c = true := by
    rw [← hsplit]
    rintro _ ⟨⟩
    exact hb
  have hbs : Blank bs := blank_of_head hbs hw hhead
  rw [hsplit]
  have hfront : ∀ onward : Onward,
      (exactly "SHOW".toList).run (.start (.start ("SHOW".toList ++ (bs ++ (w ++ rest))))) (fun b =>
        nextRun.run b onward) =
      onward ((Attempt.start (.start ("SHOW".toList ++ (bs ++ (w ++ rest))))).take
        ("SHOW".toList ++ (bs ++ w)) rest) := by
    intro onward
    rw [Comment.run_exactly rfl, run_nextRun hbs hw hrest rfl, Attempt.take_take]
  refine ⟨bs, w, hbs, hw, ?_⟩
  obtain hall | ⟨bs', w', rest', rfl, hbs', hw', hrest'⟩ := Text.first_word rest
  · refine Or.inl ?_
    have hsplit : "SHOW".toList ++ (bs ++ (w ++ rest)) = "SHOW".toList ++ (bs ++ w) ++ rest := by
      simp
    rw [hsplit]
    refine replaceFirst_showHead ?_
    rw [← hsplit, run_showHead, hfront, Pattern.optional, run_or, run_nextRun_none hall]
    rfl
  · refine Or.inr ⟨bs', w', blank_of_head hbs' hw' hrest, hw', ?_⟩
    have hsplit : "SHOW".toList ++ (bs ++ (w ++ (bs' ++ (w' ++ rest')))) =
        "SHOW".toList ++ (bs ++ (w ++ (bs' ++ w'))) ++ rest' := by
      simp
    rw [hsplit]
    refine replaceFirst_showHead ?_
    rw [← hsplit, run_showHead, hfront, Pattern.optional, run_or,
      run_nextRun (blank_of_head hbs' hw' hrest) hw' hrest' rfl, Attempt.take_take]
    simp

theorem replaceFirst_of_uncut {t : Text} (h : ∀ b more, t = "SHOW".toList ++ b :: more →
    isBlank b = true → ∀ c ∈ more, isBlank c = true) :
    showHead.replaceFirst (·.group 0) t = t := by
  rw [replaceFirst]
  cases hfind : showHead.find t with
  | none => rfl
  | some hit =>
      obtain ⟨b, more, ht, hb, c, hc, hnot⟩ := reads_of_showHead hfind
      rw [h b more ht hb c hc] at hnot
      cases hnot

/-! ### The phrase -/

theorem turns_next_word {bs w : Text} (hbs : Blank bs) (hw : Words [w]) (before rest : Text) :
    Turns blanks [' '] before (bs ++ w) rest (' ' :: w) := by
  obtain ⟨hne, hnonblank⟩ := hw w List.mem_cons_self
  have hedge := Text.head_nonblank hnonblank hne rest
  exact (turns_blank_run hbs hedge before).append (turns_nonblank hnonblank _ _ rest)

theorem turns_show (before rest : Text) :
    Turns blanks [' '] before "SHOW".toList rest "SHOW".toList :=
  turns_nonblank (by decide) _ before rest

section

variable {t rest : Text} (h : shortened t = "SHOW".toList ++ rest)

include h

theorem showWords_showPhrase (htail : ShowTail rest) : ShowWords (showPhrase t) := by
  rw [showPhrase_eq, h]
  obtain rfl | ⟨b, more, rfl, hb, hmore⟩ := htail
  · refine ⟨[], Nat.zero_le 2, List.forall_mem_nil _, ?_⟩
    rw [replaceFirst_of_uncut fun b more hsplit => by cases hsplit]
    exact (turns_show [] []).replaceAll
  · obtain ⟨bs, w, hbs, hw, hone | ⟨bs', w', hbs', hw', htwo⟩⟩ := showHead_words hb hmore
    · refine ⟨[w], by simp, hw, ?_⟩
      have hspaced : Text.spaced ["SHOW".toList, w] = "SHOW".toList ++ ' ' :: w := by
        simp [Text.spaced_cons]
      rw [hone, hspaced]
      exact ((turns_show [] (bs ++ w ++ [])).append
        (turns_next_word hbs hw _ [])).replaceAll
    · refine ⟨[w, w'], by simp, ?_, ?_⟩
      · exact List.forall_mem_cons.mpr ⟨hw w List.mem_cons_self, hw'⟩
      · have hspaced : Text.spaced ["SHOW".toList, w, w'] =
            "SHOW".toList ++ (' ' :: w ++ ' ' :: w') := by
          simp [Text.spaced_cons]
        rw [htwo, hspaced, ← List.append_assoc bs]
        exact ((turns_show [] _).append ((turns_next_word hbs hw _ _).append
          (turns_next_word hbs' hw' _ []))).replaceAll

theorem glued_showPhrase {c : Char} {more : Text} (hrest : rest = c :: more)
    (hc : isBlank c = false) : Glued (showPhrase t) := by
  subst hrest
  have huncut : showHead.replaceFirst (·.group 0) ("SHOW".toList ++ c :: more) =
      "SHOW".toList ++ c :: more := by
    refine replaceFirst_of_uncut fun b more' hsplit hb => ?_
    obtain ⟨rfl, rfl⟩ := List.cons.inj (List.append_cancel_left hsplit)
    rw [hc] at hb
    cases hb
  obtain ⟨d, more', hwrite, hd⟩ :
      ∃ d more', write (fun _ => [' ']) (blanks.outlineFrom 0 ("SHOW".toList.reverse ++ [])
        (c :: more)) = d :: more' ∧ isBlank d = false := by
    have hword : Turns blanks [' '] ("SHOW".toList.reverse ++ []) [c] more [c] :=
      turns_nonblank (List.forall_mem_singleton.mpr hc) _ _ more
    exact ⟨c, _, hword, hc⟩
  refine ⟨d, more', ?_, hd⟩
  rw [showPhrase_eq, h, huncut, replaceAll_const, turns_show, hwrite]

theorem showPhrase_of_blank (hblank : Blank rest) : showPhrase t = "SHOW ".toList := by
  have huncut : showHead.replaceFirst (·.group 0) ("SHOW".toList ++ rest) =
      "SHOW".toList ++ rest := by
    refine replaceFirst_of_uncut fun b more hsplit _ c hc => hblank.blank c ?_
    rw [List.append_cancel_left hsplit]
    exact List.mem_cons_of_mem b hc
  rw [showPhrase_eq, h, huncut]
  exact ((turns_show [] (rest ++ [])).append (turns_blank_run hblank (by simp) _)).replaceAll

end

theorem showPhrase_of_lead {t lead rest : Text} (hlead : Blank lead)
    (h : shortened t = lead ++ ("SHOW".toList ++ rest)) :
    ∃ more, showPhrase t = ' ' :: more := by
  have huncut : showHead.replaceFirst (·.group 0) (lead ++ ("SHOW".toList ++ rest)) =
      lead ++ ("SHOW".toList ++ rest) := by
    obtain ⟨b, lead, rfl⟩ := List.exists_cons_of_ne_nil hlead.nonempty
    refine replaceFirst_of_uncut fun _ _ hsplit => ?_
    obtain rfl : b = 'S' := (List.cons.inj hsplit).1
    cases hlead.blank 'S' List.mem_cons_self
  have hturns : Turns blanks [' '] [] lead ("SHOW".toList ++ rest) [' '] :=
    turns_blank_run hlead (by rintro _ ⟨⟩; rfl) []
  have hphrase : showPhrase t = write (fun _ => [' '])
      (blanks.outlineFrom 0 [] (lead ++ ("SHOW".toList ++ rest))) := by
    rw [showPhrase_eq, h, huncut, replaceAll_const]
  exact ⟨_, hphrase.trans hturns⟩

/-! ### The fingerprint -/

theorem compose_showing {phrase : Text} (h : "SHOW".toList <+: phrase) (found : List Text) :
    Fingerprint.compose (.showing phrase) found = unifySynonyms phrase :=
  if_pos (List.isPrefixOf_iff_prefix.mpr h)

theorem ShowWords.starts {f : Text} (h : ShowWords f) : "SHOW".toList <+: f := by
  obtain ⟨ws, _, _, rfl⟩ := h
  rw [Text.spaced_cons]
  exact List.prefix_append _ _

theorem not_showWords_space : ¬ ShowWords "SHOW ".toList := by
  rintro ⟨ws, _, hws, heq⟩
  rw [Text.spaced_cons] at heq
  cases ws with
  | nil => cases heq
  | cons w ws =>
      have heq : "SHOW".toList ++ [' '] =
          "SHOW".toList ++ ' ' :: (w ++ ws.flatMap (' ' :: ·)) := heq
      have hbehind := List.append_cancel_left heq
      have hnil : [] = w ++ ws.flatMap (' ' :: ·) := (List.cons.inj hbehind).2
      exact (hws w List.mem_cons_self).1 (List.append_eq_nil_iff.mp hnil.symm).1

theorem Glued.starts {f : Text} (h : Glued f) : "SHOW".toList <+: f := by
  obtain ⟨c, rest, rfl, _⟩ := h
  exact List.prefix_append _ _

/-- A phrase with white space in front of it is no SHOW phrase, and so the tables follow it. -/
theorem not_showWords_compose_space (more : Text) (found : List Text) :
    ¬ ShowWords (Fingerprint.compose (.showing (' ' :: more)) found) := by
  intro hwords
  have hcompose : Fingerprint.compose (.showing (' ' :: more)) found =
      Text.spaced ((' ' :: more) :: Fingerprint.tables found []) := rfl
  have hstart := hwords.starts
  rw [hcompose, Text.spaced_cons] at hstart
  cases (List.cons_prefix_cons.mp hstart).1

theorem showTail_of_showWords {t rest : Text} (h : shortened t = "SHOW".toList ++ rest)
    {found : List Text}
    (hwords : ShowWords (Fingerprint.compose (.showing (showPhrase t)) found)) :
    ShowTail rest := by
  cases rest with
  | nil => exact Or.inl rfl
  | cons b more =>
      cases hb : isBlank b with
      | false =>
          have hglued := glued_showPhrase h rfl hb
          rw [compose_showing hglued.starts] at hwords
          exact absurd hglued.unifySynonyms hwords.not_glued
      | true =>
          refine Or.inr ⟨b, more, rfl, hb, ?_⟩
          by_contra hnone
          have hmore : ∀ c ∈ more, isBlank c = true := fun c hc =>
            Bool.not_eq_false _ ▸ fun hnot => hnone ⟨c, hc, hnot⟩
          have hblank : Blank (b :: more) :=
            ⟨List.cons_ne_nil b more, List.forall_mem_cons.mpr ⟨hb, hmore⟩⟩
          have hunified : unifySynonyms "SHOW ".toList = "SHOW ".toList :=
            unifySynonyms_eq (by decide)
          rw [showPhrase_of_blank h hblank, compose_showing (by decide), hunified] at hwords
          exact not_showWords_space hwords

/-- A phrase is the word SHOW and at most two further words just where nothing is left in front of
SHOW, and behind it nothing or a word that white space keeps apart from it. -/
theorem showWords_compose_iff {t : Text} (h : showOpening.occursIn t = true) (found : List Text) :
    ShowWords (Fingerprint.compose (.showing (showPhrase t)) found) ↔
      ∃ rest, shortened t = "SHOW".toList ++ rest ∧ ShowTail rest := by
  constructor
  · intro hwords
    obtain ⟨lead, rest, hlead, hshort⟩ := shortened_opens h
    cases lead with
    | nil => exact ⟨rest, hshort, showTail_of_showWords hshort hwords⟩
    | cons b lead =>
        obtain ⟨more, hphrase⟩ := showPhrase_of_lead ⟨List.cons_ne_nil b lead, hlead⟩ hshort
        rw [hphrase] at hwords
        exact absurd hwords (not_showWords_compose_space more found)
  · rintro ⟨rest, hshort, htail⟩
    have hwords := showWords_showPhrase hshort htail
    rw [compose_showing hwords.starts]
    exact hwords.unifySynonyms

/-- Whether a statement is claimed as a SHOW statement. -/
def shows : Classification → Bool
  | .showing _ => true
  | _ => false

theorem ofStatement_of_shows {t : Text} (h : (ofStatement t).shows = true) :
    showOpening.occursIn (Comment.erase t) = true ∧
      ofStatement t = .showing (showPhrase (Comment.erase t)) := by
  have hfits := fits_ofStatement t
  generalize ofStatement t = c at h hfits
  cases hfits with
  | showing hoccurs => exact ⟨hoccurs, rfl⟩
  | _ => cases h

end Classification

/-- The fingerprint of a SHOW statement is the word SHOW with at most two further words, and no
tables, just where the statement without filler words, counts and clauses starts with SHOW and has
nothing behind it, or white space and something else. -/
theorem fingerprint_show_iff (t : Text) (hshow : (Classification.ofStatement t).shows = true) :
    (Classification.ShowWords (fingerprint t) ∧
        ∀ found, Fingerprint.compose (Classification.ofStatement t) found = fingerprint t) ↔
      ∃ rest, Classification.shortened (Comment.erase t) = "SHOW".toList ++ rest ∧
        Classification.ShowTail rest := by
  obtain ⟨hoccurs, hshape⟩ := Classification.ofStatement_of_shows hshow
  have hfingerprint : fingerprint t =
      Fingerprint.compose (.showing (Classification.showPhrase (Comment.erase t))) (tablesOf t) :=
    congrArg (Fingerprint.compose · (tablesOf t)) hshape
  rw [hfingerprint, hshape]
  constructor
  · intro hwords
    exact (Classification.showWords_compose_iff hoccurs _).mp hwords.1
  · intro hshort
    refine ⟨(Classification.showWords_compose_iff hoccurs _).mpr hshort, fun found => ?_⟩
    obtain ⟨rest, hrest, htail⟩ := hshort
    have hstart := (Classification.showWords_showPhrase hrest htail).starts
    rw [Classification.compose_showing hstart, Classification.compose_showing hstart]

/-- Two words are left of a statement with a filler word and a clause. -/
theorem fingerprint_show_iff_cut :
    Classification.ShowWords (fingerprint "show full keys  cpu from t".toList) ∧
      ∀ found, Fingerprint.compose (.ofStatement "show full keys  cpu from t".toList) found =
        fingerprint "show full keys  cpu from t".toList := by
  refine (fingerprint_show_iff _ (by decide +kernel)).mpr ⟨"  KEYS  CPU".toList, ?_, ?_⟩
  · decide +kernel
  · exact Or.inr ⟨' ', " KEYS  CPU".toList, rfl, rfl, 'K', by decide, rfl⟩

/-- Behind a comment, SHOW has white space in front of it and the tables behind it. -/
theorem fingerprint_show_behind_comment :
    ¬ ∀ t : Text, (Classification.ofStatement t).shows = true →
      Classification.ShowWords (fingerprint t) ∧
        ∀ found, Fingerprint.compose (Classification.ofStatement t) found = fingerprint t := by
  intro h
  obtain ⟨hwords, _⟩ := h "/* c */ SHOW TABLES FROM t".toList (by decide +kernel)
  have hstart := hwords.starts
  revert hstart
  decide +kernel

end QueryDigest
