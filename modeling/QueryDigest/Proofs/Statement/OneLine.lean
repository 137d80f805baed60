import QueryDigest.Proofs.Log.Decoding
import QueryDigest.Proofs.Statement.Literals
import QueryDigest.Proofs.Statement.Verbs
import QueryDigest.Proofs.Text.Lines
import QueryDigest.Proofs.Unicode.LetterCase

/-!
Statements on one line. What is found in a text lies in it, and what is written in its place, in
upper case too, brings no line feed with it. So no pass over a statement on one line makes a second
line of it, and neither its words nor its tables nor its fingerprint have one.
-/

namespace QueryDigest

open Text (OneLine)

/-! ### Searches -/

namespace Pattern

theorem Hit.oneLine_group {h : Hit} (ht : OneLine h.start.text) (i : Nat) : OneLine (h.group i) :=
  ht.of_subset fun _ => Hit.mem_of_mem_group

theorem Hit.oneLine_text {h : Hit} (ht : OneLine h.start.text) : OneLine h.text :=
  ht.of_subset fun _ hc => List.mem_append_right _ (List.mem_of_mem_take hc)

theorem Hit.oneLine_stop {h : Hit} (ht : OneLine h.start.text) : OneLine h.stop.after :=
  ht.of_subset fun _ hc => List.mem_append_right _ (List.mem_of_mem_drop hc)

section

variable {p : Pattern} {t : Text} (ht : OneLine t)

include ht

theorem oneLine_start {h : Hit} (hfind : p.find t = some h) : OneLine h.start.text :=
  find_text hfind ▸ ht

theorem oneLine_replaceAll {f : Hit → Text}
    (hf : ∀ h : Hit, OneLine h.start.text → OneLine (f h)) : OneLine (p.replaceAll f t) := by
  intro hmem
  obtain hkept | ⟨h, rfl, hwritten⟩ := mem_replaceAll hmem
  · exact ht hkept
  · exact hf h ht hwritten

theorem oneLine_replaceFirst {f : Hit → Text}
    (hf : ∀ h : Hit, OneLine h.start.text → OneLine (f h)) : OneLine (p.replaceFirst f t) := by
  intro hmem
  obtain hkept | ⟨h, rfl, hwritten⟩ := mem_replaceFirst hmem
  · exact ht hkept
  · exact hf h ht hwritten

theorem oneLine_replaceAll_const {r : Text} (hr : OneLine r) :
    OneLine (p.replaceAll (fun _ => r) t) :=
  oneLine_replaceAll ht fun _ _ => hr

theorem oneLine_removeAll : OneLine (p.removeAll t) :=
  oneLine_replaceAll_const ht Text.oneLine_nil

end

end Pattern

open Pattern

/-! ### Upper case -/

namespace Unicode

theorem oneLine_upperChar {c : Char} (h : c ≠ '\n') : OneLine (upperChar c) := by
  unfold upperChar
  split
  · have hupper : c.toUpper ≠ '\n' := mt (toUpper_eq_iff (by decide)).mp h
    exact Text.oneLine_cons.mpr ⟨hupper, Text.oneLine_nil⟩
  · cases hlong : longUppercases.lookup c.toNat with
    | some form =>
        have hforms : ∀ entry ∈ longUppercases, OneLine (entry.2.map Char.ofNat) := by
          decide
        obtain ⟨l, r, hentry, _⟩ := List.lookup_eq_some_iff.mp hlong
        exact hforms (c.toNat, form) (hentry ▸ List.mem_append_right _ List.mem_cons_self)
    | none =>
        cases hrun : caseRuns.findSome? (·.image? c.toNat) with
        | some n =>
            have himages : ∀ r ∈ caseRuns, 10 < r.image := by decide +kernel
            obtain ⟨r, hr, himage⟩ := List.exists_of_findSome?_eq_some hrun
            obtain ⟨-, rfl⟩ := Option.ite_some_none_eq_some.mp himage
            have hlarge := himages r hr
            have hn : Char.ofNat (c.toNat - r.first + r.image) ≠ '\n' :=
              Utf8.ofNat_ne_lineFeed (by omega)
            exact Text.oneLine_cons.mpr ⟨hn, Text.oneLine_nil⟩
        | none => exact Text.oneLine_cons.mpr ⟨h, Text.oneLine_nil⟩

theorem oneLine_upper {t : Text} (h : OneLine t) : OneLine (upper t) :=
  Text.oneLine_flatMap.mpr fun _ hc => oneLine_upperChar fun heq => h (heq ▸ hc)

end Unicode

/-! ### Comments -/

namespace Comment

theorem oneLine_cutUnclosed {t : Text} (h : OneLine t) : OneLine (cutUnclosed t) := by
  unfold cutUnclosed
  split
  · exact h.of_subset fun _ => List.mem_of_mem_take
  · exact h

theorem oneLine_erase {t : Text} (h : OneLine t) : OneLine (erase t) := by
  have hrest : OneLine (eraseClosedAndCut t) :=
    oneLine_cutUnclosed (oneLine_removeAll (oneLine_removeAll h))
  unfold erase
  simp only
  split
  · rename_i qualifier hfind
    exact oneLine_replaceAll_const hrest (Hit.oneLine_group (oneLine_start hrest hfind) 0)
  · exact hrest

end Comment

/-! ### Words and objects -/

theorem Identifier.oneLine_unquoted {t : Text} (h : OneLine t) : OneLine (unquoted t) :=
  h.of_subset fun _ hc => (List.mem_filter.mp hc).1

theorem LoadTarget.oneLine_of_mem {t target : Text} (h : OneLine t)
    (hmem : target ∈ LoadTarget.ofStatement? t) : OneLine target := by
  obtain ⟨hit, hfind, rfl⟩ := Option.map_eq_some_iff.mp hmem
  exact Hit.oneLine_group (oneLine_start h hfind) 0

namespace Classification

/-- No text that is kept of a statement has a line feed. -/
def InLine : Classification → Prop
  | .procedureCall text | .distributedTransaction text | .bulkLoad text | .administration text
  | .showing text | .definition _ _ text => OneLine text
  | .verbWords found => ∀ text ∈ found, OneLine text
  | .databaseChoice | .tableRelease => True

theorem oneLine_words {c : Classification} (hc : c.InLine) : OneLine c.words := by
  cases c with
  | databaseChoice | tableRelease => decide
  | procedureCall text | distributedTransaction text | bulkLoad text =>
      exact Text.oneLine_append.mpr ⟨by decide, hc⟩
  | administration text | showing text => exact hc
  | definition verb kind object =>
      have hverb : OneLine verb.keyword := by cases verb <;> decide
      cases kind with
      | none => exact hverb
      | some kind =>
          have hkind : OneLine kind.keyword := by cases kind <;> decide
          exact .join (by decide) (by simp [hverb, hkind])
  | verbWords found => exact .join (by decide) fun x hx => hc x (mem_of_mem_settled hx)

theorem oneLine_object {c : Classification} (hc : c.InLine) : OneLine c.object := by
  cases c with
  | definition verb kind object => exact hc
  | _ => exact Text.oneLine_nil

section

variable {t : Text} (h : OneLine t)

include h

theorem oneLine_showPhrase : OneLine (showPhrase t) := by
  have hblank : OneLine [' '] := by decide
  have hcut : OneLine (showClause.removeAll (showCount.removeAll
      (showFiller.replaceAll (fun _ => [' ']) (Unicode.upper t)))) :=
    oneLine_removeAll (oneLine_removeAll
      (oneLine_replaceAll_const (Unicode.oneLine_upper h) hblank))
  exact oneLine_replaceAll_const
    (oneLine_replaceFirst hcut fun hit hstart => hit.oneLine_group hstart 0) hblank

theorem Fits.inLine {c : Classification} (hfits : Fits t c) : c.InLine := by
  have hbare := Comment.oneLine_erase h
  cases hfits with
  | databaseChoice _ | tableRelease _ => trivial
  | procedureCall hfind => exact Hit.oneLine_group (oneLine_start h hfind) 0
  | distributedTransaction hfind =>
      exact Unicode.oneLine_upper (Hit.oneLine_group (oneLine_start h hfind) 0)
  | bulkLoad _ =>
      apply Identifier.oneLine_unquoted
      cases htarget : LoadTarget.ofStatement? t with
      | none => exact Text.oneLine_nil
      | some target => exact LoadTarget.oneLine_of_mem h htarget
  | administration _ => exact Unicode.oneLine_upper (oneLine_replaceAll_const h (by decide))
  | showing _ => exact oneLine_showPhrase hbare
  | definition _ hplain =>
      subst hplain
      cases hname : namedObject.find
          (existenceClause.replaceAll (fun _ => [' ']) (Comment.erase t)) with
      | none => exact Text.oneLine_nil
      | some hit =>
          have hplain := oneLine_replaceAll_const (p := existenceClause) (r := [' ']) hbare
            (by decide)
          exact Hit.oneLine_group (oneLine_start hplain hname) 0
  | verbWords =>
      intro text htext
      obtain ⟨hit, hhit, rfl⟩ := List.mem_map.mp (mem_of_mem_withoutRepeats htext)
      exact Unicode.oneLine_upper (Hit.oneLine_text (text_of_mem_hits hhit ▸ hbare))

end

theorem inLine_ofStatement {t : Text} (h : OneLine t) : (ofStatement t).InLine :=
  (fits_ofStatement t).inLine h

end Classification

/-! ### Tables -/

namespace TableClause

theorem oneLine_of_mem_listsFrom {most : Nat} {place : Cursor} (h : OneLine place.text)
    {list : Text} (hlist : list ∈ listsFrom most place) : OneLine list := by
  induction most generalizing place with
  | zero => cases hlist
  | succ most ih =>
      rw [listsFrom] at hlist
      split at hlist
      · cases hlist
      · rename_i hit hfind
        have hstart : OneLine hit.start.text := findFrom_text hfind ▸ h
        split at hlist
        · exact ih (by rwa [Cursor.text_skip]) hlist
        · obtain rfl | hlist := List.mem_cons.mp hlist
          · exact Hit.oneLine_group hstart 1
          · exact ih (by rwa [Hit.stop, Cursor.text_skip]) hlist

theorem oneLine_of_mem_lists {t list : Text} (h : OneLine t) (hlist : list ∈ lists t) :
    OneLine list :=
  have hstart : OneLine (Cursor.start t).text := h
  oneLine_of_mem_listsFrom hstart hlist

theorem oneLine_of_mem_tables {list table : Text} (h : OneLine list)
    (htable : table ∈ tables list) : OneLine table := by
  have hname := (List.mem_filter.mp htable).1
  unfold names at hname
  split at hname
  · cases hname
  · obtain ⟨item, hitem, rfl⟩ := List.mem_map.mp hname
    exact oneLine_replaceAll (h.of_subset fun _ => Text.mem_of_mem_splitOn hitem)
      fun hit hstart => Hit.oneLine_group hstart 0

end TableClause

namespace Extraction

section

variable {t : Text} (h : OneLine t)

include h

theorem oneLine_unlocked : OneLine (unlocked t) := by
  have hplain : OneLine (modifier.replaceAll (fun _ => [' ']) t) :=
    oneLine_replaceAll_const h (by decide)
  simp only [unlocked, locked?]
  cases hfind : lockOpening.find (modifier.replaceAll (fun _ => [' ']) t) with
  | none => exact hplain
  | some hit =>
      have hlist := oneLine_removeAll (p := lockMode)
        (Hit.oneLine_stop (oneLine_start hplain hfind))
      exact Text.oneLine_append.mpr ⟨by decide, hlist⟩

theorem oneLine_blankLiterals : OneLine (blankLiterals t) :=
  oneLine_replaceAll_const
    (oneLine_replaceAll_const (oneLine_removeAll h) (by decide)) (by decide)

theorem oneLine_spellInto : OneLine (spellInto t) := by
  unfold spellInto
  split
  · split
    · exact h
    · exact oneLine_replaceFirst h fun hit hstart =>
        Text.oneLine_append.mpr ⟨Hit.oneLine_group hstart 0, by decide⟩
  · exact h

end

variable {t : Text}

theorem oneLine_of_mem_ofClauses (h : OneLine t) {table : Text}
    (htable : table ∈ (ofClauses t).tables) : OneLine table := by
  have hscanned : OneLine (scanned t) :=
    oneLine_spellInto (oneLine_blankLiterals (oneLine_unlocked h))
  rw [tables_ofClauses_eq] at htable
  split at htable
  · exact LoadTarget.oneLine_of_mem hscanned (Option.mem_toList.mp htable)
  · obtain ⟨list, hlist, htable⟩ := List.mem_flatMap.mp htable
    exact TableClause.oneLine_of_mem_tables (TableClause.oneLine_of_mem_lists hscanned hlist) htable

theorem oneLine_of_mem_definingQuery (h : OneLine t) {query : Text}
    (hquery : query ∈ definingQuery? t) : OneLine query := by
  unfold definingQuery? at hquery
  split at hquery
  · obtain ⟨hit, hfind, rfl⟩ := Option.map_eq_some_iff.mp hquery
    exact Hit.oneLine_group (oneLine_start h hfind) 0
  · cases hquery

theorem oneLine_of_mem_ofStatement (h : OneLine t) {table : Text}
    (htable : table ∈ (ofStatement t).tables) : OneLine table := by
  induction t using ofStatement.induct with
  | case1 t hverb =>
      rw [ofStatement, hverb] at htable
      exact oneLine_of_mem_ofClauses h htable
  | case2 t verb hverb plain hdatabase =>
      rw [ofStatement, hverb] at htable
      simp only [plain, if_pos hdatabase] at htable
      cases htable
  | case3 t verb hverb plain hdatabase query hquery hshorter ih =>
      rw [ofStatement, hverb] at htable
      simp only [plain, if_neg hdatabase, hquery, if_pos hshorter] at htable
      exact ih (oneLine_of_mem_definingQuery (oneLine_removeAll h) hquery) htable
  | case4 t verb hverb plain hdatabase query hquery hlong =>
      rw [ofStatement, hverb] at htable
      simp only [plain, if_neg hdatabase, hquery, if_neg hlong] at htable
      cases htable
  | case5 t verb hverb plain hdatabase hquery =>
      rw [ofStatement, hverb] at htable
      simp only [plain, if_neg hdatabase, hquery] at htable
      obtain ⟨hit, hfind, rfl⟩ := Option.map_eq_some_iff.mp (Option.mem_toList.mp htable)
      exact Hit.oneLine_group (oneLine_start (oneLine_removeAll h) hfind) 0

end Extraction

theorem oneLine_of_mem_tablesOf {q table : Text} (h : OneLine q) (htable : table ∈ tablesOf q) :
    OneLine table :=
  Extraction.oneLine_of_mem_ofStatement h (List.mem_eraseDups.mp htable)

/-! ### Fingerprints -/

namespace Fingerprint

theorem oneLine_maskedName {table : Text} (h : OneLine table) : OneLine (maskedName table) :=
  oneLine_replaceAll (Identifier.oneLine_unquoted h) fun _ hstart =>
    Text.oneLine_append.mpr ⟨Hit.oneLine_group hstart 0, by decide⟩

theorem oneLine_unifySynonyms {words : Text} (h : OneLine words) :
    OneLine (unifySynonyms words) := by
  simp only [unifySynonyms, synonyms, List.foldl_cons, List.foldl_nil]
  exact oneLine_replaceAll_const
    (oneLine_replaceAll_const (oneLine_replaceAll_const h (by decide)) (by decide)) (by decide)

theorem oneLine_of_mem_tables {found : List Text} {object : Text}
    (hfound : ∀ table ∈ found, OneLine table) (hobject : OneLine object) {name : Text}
    (hname : name ∈ tables found object) : OneLine name := by
  obtain hname | hname := List.mem_append.mp (List.mem_eraseDups.mp hname)
  · obtain ⟨table, htable, rfl⟩ := List.mem_map.mp hname
    exact oneLine_maskedName (hfound table htable)
  · split at hname
    · cases hname
    · exact List.mem_singleton.mp hname ▸ hobject

theorem oneLine_compose {c : Classification} (hc : c.InLine) {found : List Text}
    (hfound : ∀ table ∈ found, OneLine table) : OneLine (compose c found) := by
  have hwords := Classification.oneLine_words hc
  have hobject := Classification.oneLine_object hc
  unfold compose
  split
  · exact oneLine_unifySynonyms hwords
  split
  · exact hwords
  · refine .join (by decide) (List.forall_mem_cons.mpr ⟨hwords, fun name hname => ?_⟩)
    exact oneLine_of_mem_tables hfound hobject hname

end Fingerprint

theorem oneLine_fingerprint {q : Text} (h : OneLine q) : OneLine (fingerprint q) :=
  Fingerprint.oneLine_compose (Classification.inLine_ofStatement h) fun _ =>
    oneLine_of_mem_tablesOf h

end QueryDigest
