import QueryDigest.Proofs.Statement.ClosedLiterals
import QueryDigest.Proofs.Statement.Modifiers
import QueryDigest.Proofs.Statement.Openings

/-!
Bulk loads. A statement that opens with LOAD DATA still does when its modifiers are gone and its
literals are blanked out, so that both its words and its tables come from the target: the words from
the target of the statement as it stands, the tables from that of the statement as it is searched.
-/

namespace QueryDigest

open Pattern
open Nested (modifiers modifier_opens isWord_of_reads_modifiers)
open Unicode (foldLetter isBlank isWord)

namespace BulkLoad

def opening : Text :=
  "LOAD DATA".toList

/-! ### The words of a load -/

theorem ofStatement_load {t : Text} (h : OpensWith opening t) :
    Classification.ofStatement t =
      .bulkLoad (Identifier.unquoted ((LoadTarget.ofStatement? t).getD [])) := by
  have hcall : Classification.procedureCall? t = none := by
    refine Option.map_eq_none_iff.mpr (Option.eq_none_iff_forall_ne_some.mpr fun hit hfind => ?_)
    exact absurd (h.apart (Classification.opening_callOpening.opensWith hfind)) (by decide)
  have huse : Classification.databaseChoice? t = none :=
    if_neg fun hoccurs => absurd
      (h.apart (Classification.opening_useOpening.opensWith_of_occursIn hoccurs)) (by decide)
  have hunlock : Classification.tableRelease? t = none :=
    if_neg fun hoccurs => absurd
      (h.apart ((opening_keyword _).opensWith_of_occursIn hoccurs)) (by decide)
  have hxa : Classification.distributedTransaction? t = none := by
    refine Option.map_eq_none_iff.mpr (Option.eq_none_iff_forall_ne_some.mpr fun hit hfind => ?_)
    exact absurd (h.apart (Classification.opening_transactionOpening.opensWith hfind)) (by decide)
  have hwords : OpensWith ("LOAD".toList ++ " DATA".toList) t := h
  have hload : Classification.loadOpening.occursIn t = true := occursIn_keyword hwords.of_append
  refine Classification.ofStatement_of_raw ?_
  simp [Classification.ofRaw?, hcall, huse, hunlock, hxa, Classification.bulkLoad?, hload]

theorem fingerprint_load {t : Text} (h : OpensWith opening t) :
    fingerprint t =
      "LOAD DATA ".toList ++ Identifier.unquoted ((LoadTarget.ofStatement? t).getD []) := by
  rw [fingerprint, ofStatement_load h]
  rfl

/-! ### The statement as it is searched -/

theorem head_of_fold {w k : Text} {x : Char} (hw : w.map foldLetter = x :: k)
    (hx : x.isUpper = true) (rest : Text) :
    ∀ c, (w ++ rest).head? = some c → isBlank c = false := by
  cases w with
  | nil => cases hw
  | cons d w =>
      have hfold : foldLetter d = x := (List.cons.inj hw).1
      rintro _ ⟨⟩
      exact Unicode.isBlank_of_isWord (Unicode.isWord_of_isUpper_foldLetter (hfold ▸ hx))

/-- A text that opens with LOAD DATA does so still behind a pass that leaves the word alone. -/
theorem opensWith_replaceAll {p : Pattern} {r t : Text} (h : OpensWith opening t)
    (hblank : ∀ {b : Char} {before rest : Text}, isBlank b = true →
      p.matchAt? ⟨before, b :: rest⟩ = none)
    (hword : ∀ {w : Text}, w.map foldLetter = opening.map foldLetter → ∀ before rest,
      Turns p r before w rest w) :
    OpensWith opening (p.replaceAll (fun _ => r) t) := by
  obtain ⟨lead, w, rest, rfl, hlead, hw⟩ := h.split
  have hfront : Turns p r [] (lead ++ w) rest (lead ++ w) :=
    (turns_of_chars (P := fun c => isBlank c = true) hblank hlead).append (hword hw _ rest)
  rw [Turns, ← replaceAll_const, List.append_assoc, List.append_assoc] at hfront
  rw [hfront]
  exact opensWith_of_lead hlead hw (head_of_fold hw rfl _)

theorem starts_modifier {before after : Text} {h : Hit}
    (hmatch : Extraction.modifier.matchAt? ⟨before, after⟩ = some h) :
    ∃ m rest, after = m ++ rest ∧ m.map foldLetter ∈ modifiers := by
  obtain ⟨m, b, rest, hafter, hm, _⟩ := modifier_opens hmatch
  exact ⟨m, b :: rest, hafter, hm⟩

theorem matchAt?_modifier_blank {b : Char} {before rest : Text} (hb : isBlank b = true) :
    Extraction.modifier.matchAt? ⟨before, b :: rest⟩ = none :=
  Extraction.matchAt?_modifier_mark (Unicode.isWord_of_isBlank hb)

theorem opensWith_unmodified {t : Text} (h : OpensWith opening t) :
    OpensWith opening (Extraction.modifier.replaceAll (fun _ => [' ']) t) := by
  exact opensWith_replaceAll h matchAt?_modifier_blank fun hw =>
    turns_of_keyword starts_modifier hw (by decide) [' ']

theorem opensWith_blankLiterals {t : Text} (h : OpensWith opening t) :
    OpensWith opening (Extraction.blankLiterals t) := by
  have hharmless : ∀ {w : Text}, w.map foldLetter = opening.map foldLetter →
      ∀ c ∈ w, Extraction.Harmless c := fun hw =>
    Extraction.harmless_of_fold hw (by decide)
  have hescapes : OpensWith opening (Extraction.escapedQuote.removeAll t) :=
    opensWith_replaceAll h Extraction.matchAt?_escapedQuote_blank fun hw =>
      Extraction.turns_harmless_escapes (hharmless hw)
  have hliteral : ∀ q ∈ Extraction.quotes, ∀ {t : Text}, OpensWith opening t →
      OpensWith opening ((Extraction.literal q).replaceAll (fun _ => ['?']) t) := fun q hq _ h =>
    opensWith_replaceAll h (Extraction.matchAt?_literal_blank hq) fun hw =>
      Extraction.turns_harmless (hharmless hw) hq ['?']
  exact hliteral '\'' (by decide) (hliteral '"' (by decide) hescapes)

theorem unlocked_load {t : Text} (h : OpensWith opening t) :
    Extraction.unlocked t = Extraction.modifier.replaceAll (fun _ => [' ']) t := by
  have hlock : Extraction.locked? (Extraction.modifier.replaceAll (fun _ => [' ']) t) = none :=
    Extraction.locked?_eq_none (opensWith_unmodified h) (by decide)
  simp only [Extraction.unlocked, hlock, Extraction.withLocks]

theorem spellInto_load {t : Text} (h : OpensWith opening t) : Extraction.spellInto t = t :=
  Extraction.spellInto_eq_self h (by decide)

theorem scanned_load {t : Text} (h : OpensWith opening t) :
    Extraction.scanned t =
      Extraction.blankLiterals (Extraction.modifier.replaceAll (fun _ => [' ']) t) := by
  rw [Extraction.scanned, unlocked_load h,
    spellInto_load (opensWith_blankLiterals (opensWith_unmodified h))]

theorem tablesOf_load {t : Text} (h : OpensWith opening t) :
    tablesOf t = (LoadTarget.ofStatement? (Extraction.scanned t)).toList := by
  have hverb : DefinitionVerb.ofStatement? t = none := by
    refine Option.eq_none_iff_forall_ne_some.mpr fun verb hverb => ?_
    have hapart := h.apart (DefinitionVerb.ofStatement?_eq_some.mp hverb).opensWith
    revert hapart
    cases verb <;> decide
  have hload : Extraction.loadOpening.occursIn (Extraction.scanned t) = true := by
    rw [scanned_load h]
    exact occursIn_keyword (opensWith_blankLiterals (opensWith_unmodified h))
  rw [tablesOf, Extraction.ofStatement, hverb]
  change (Extraction.ofClauses t).tables.eraseDups = _
  rw [Extraction.tables_ofClauses_eq, if_pos hload]
  cases LoadTarget.ofStatement? (Extraction.scanned t) <;> rfl

end BulkLoad
end QueryDigest
