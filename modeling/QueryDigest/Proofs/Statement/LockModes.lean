import QueryDigest.Proofs.Pattern.Replacing
import QueryDigest.Proofs.Statement.NameLists
import QueryDigest.Statement.Extraction

/-!
The removal of lock modes. It asks for white space in front of a mode but not for the end of a word
behind it, so a word behind white space loses a mode that it starts with, together with the white
space in front of it.
-/

namespace QueryDigest.Extraction

open Pattern
open TableClause (Wordy head?_wordy run_space wordy_as)
open Unicode (foldLetter isBlank isWord)

/-- The modes that are one word. -/
def modes : List Text :=
  ["READ", "WRITE"].map String.toList

/-- What stands behind the mode that a word starts with. -/
def behindMode? (w : Text) : Option Text :=
  (modes.find? fun k => k.isPrefixOf (w.map foldLetter)).map fun k => w.drop k.length

/-- What is left of a word and a space in front of it. -/
def behindSpace (w : Text) : Text :=
  match behindMode? w with
  | some v => v
  | none => ' ' :: w

theorem behindMode?_eq_some {w v : Text} (h : behindMode? w = some v) :
    ∃ m, w = m ++ v ∧ m.map foldLetter ∈ modes := by
  obtain ⟨k, hfind, rfl⟩ := Option.map_eq_some_iff.mp h
  have hfound := List.find?_some hfind
  have hstart : k <+: w.map foldLetter := List.isPrefixOf_iff_prefix.mp hfound
  refine ⟨w.take k.length, (List.take_append_drop _ _).symm, ?_⟩
  rw [List.map_take, ← List.prefix_iff_eq_take.mp hstart]
  exact List.mem_of_find?_eq_some hfind

theorem behindMode?_eq_none {w : Text} :
    behindMode? w = none ↔ ∀ k ∈ modes, ¬ k <+: w.map foldLetter := by
  simp [behindMode?, List.find?_eq_none]

theorem wordy_behindMode {w v : Text} (hw : Wordy w) (hmode : w.map foldLetter ∉ modes)
    (h : behindMode? w = some v) : Wordy v := by
  obtain ⟨m, rfl, hm⟩ := behindMode?_eq_some h
  refine ⟨?_, fun c hc => hw.2 c (List.mem_append_right m hc)⟩
  rintro rfl
  rw [List.append_nil] at hmode
  exact hmode hm

/-! ### The pass over a mode -/

/-- A mode, of one word or of two. -/
def mode : Pattern :=
  keyword "READ".toList ++ Pattern.optional (blanks ++ keyword "LOCAL".toList)
    ||| keyword "WRITE".toList

theorem run_lockMode (a : Attempt) (onward : Onward) :
    lockMode.run a onward = blanks.run a fun b => mode.run b fun b => maybeBlanks.run b onward :=
  rfl

theorem run_keyword_none {k : Text} {a : Attempt} (h : ∀ m rest, a.after = m ++ rest →
    m.map foldLetter ≠ k.map foldLetter) (onward : Onward) : (keyword k).run a onward = none := by
  cases hrun : (keyword k).run a onward with
  | none => rfl
  | some b =>
      obtain ⟨m, rest, hsplit, hm, _⟩ := run_keyword_eq_some hrun
      exact absurd hm (h m rest hsplit)

/-- The text is taken for a mode, in front of the rest. -/
def ReadsMode (m rest : Text) : Prop :=
  ∀ {a b : Attempt} {onward : Onward}, a.after = m ++ rest → onward (a.take m rest) = some b →
    mode.run a onward = some b

theorem readsMode_word {m rest : Text} (hm : m.map foldLetter ∈ modes)
    (hrest : ∀ c, rest.head? = some c → isBlank c = false) : ReadsMode m rest := by
  intro a b onward hafter honward
  have hlocal : ∀ b : Attempt, b.after = rest → ∀ onward,
      (blanks ++ keyword "LOCAL".toList).run b onward = none := by
    rintro b rfl onward
    rw [run_append, blanks, someOf, run_append]
    exact run_one_none hrest _
  rw [mode, run_or]
  obtain hread | hwrite : m.map foldLetter = "READ".toList ∨ m.map foldLetter = "WRITE".toList := by
    simpa [modes] using hm
  · rw [run_append, run_keyword hread hafter, Pattern.optional, run_or, hlocal _ rfl,
      Option.none_or]
    exact Option.or_eq_some_iff.mpr (Or.inl honward)
  · rw [run_append, run_keyword_none (fun m' rest' hsplit hread => ?_), Option.none_or,
      run_keyword hwrite hafter, honward]
    have hstart := fold_starts hsplit hafter
    rw [hread, hwrite] at hstart
    revert hstart
    decide

theorem readsMode_local {rest : Text} : ReadsMode "READ LOCAL".toList rest := by
  intro a b onward hafter honward
  have hread : a.after = "READ".toList ++ ' ' :: ("LOCAL".toList ++ rest) := hafter
  have hlocal : Wordy "LOCAL".toList := ⟨by decide, by decide⟩
  rw [mode, run_or, run_append, run_keyword rfl hread, Pattern.optional, run_or, run_append,
    run_space hlocal rfl, run_keyword rfl rfl]
  simp only [Attempt.take_take]
  -- READ alone is a mode as well, but it is tried behind READ LOCAL.
  exact Option.or_eq_some_iff.mpr (Or.inl (Option.or_eq_some_iff.mpr (Or.inl honward)))

section

variable {m rest : Text} (hm : ReadsMode m rest)
  (hfirst : ∀ c, (m ++ rest).head? = some c → isBlank c = false)
  (hrest : ∀ c, rest.head? = some c → isBlank c = false)

include hm hfirst hrest

theorem matchAt?_lockMode (before : Text) : lockMode.matchAt? ⟨before, ' ' :: (m ++ rest)⟩ =
    some ⟨⟨before, ' ' :: (m ++ rest)⟩, m.length + 1, []⟩ := by
  have hend : ∀ b : Attempt, b.after = rest → maybeBlanks.run b some = some b := by
    intro b hb
    rw [maybeBlanks, run_allOf (List.forall_mem_nil _) hrest hb, ← hb, Attempt.take_nil]
  rw [matchAt?, run_lockMode, run_blank hfirst rfl, hm rfl (hend _ rfl)]
  simp [Nat.add_comm]

theorem turns_mode (before : Text) : Turns lockMode [] before (' ' :: m) rest [] :=
  turns_hit (matchAt?_lockMode hm hfirst hrest before) (by simp) (List.cons_ne_nil _ _)

end

/-- A mode is taken away from the white space in front of it on. -/
theorem matchAt?_lockMode_none {c : Char} (hc : isBlank c = false) {before rest : Text} :
    lockMode.matchAt? ⟨before, c :: rest⟩ = none := by
  rw [matchAt?, run_lockMode, blanks, someOf, run_append, run_one_none (fun d hd => ?_)]
  · rfl
  · cases hd
    exact hc

theorem behindMode?_of_run {w rest : Text} (hrest : isWordAt rest.head? = false) {k : Text}
    (hk : k ∈ modes) {a b : Attempt} (hafter : a.after = w ++ rest) {onward : Onward}
    (hrun : (keyword k).run a onward = some b) : behindMode? w ≠ none := by
  have hmodes : ∀ k ∈ modes, k ≠ [] ∧ k.map foldLetter = k ∧
      (k.map foldLetter).all Char.isUpper = true := by decide
  obtain ⟨m, more, hsplit, hm, _⟩ := run_keyword_eq_some hrun
  obtain ⟨hne, hfold, hupper⟩ := hmodes k hk
  have hword := (Text.word_of_fold hm hne hupper).2
  have hstart := (Text.prefix_of_edge (hafter.symm.trans hsplit) hword hrest).map foldLetter
  rw [hm, hfold] at hstart
  exact fun hnone => behindMode?_eq_none.mp hnone k hk hstart

theorem behindMode?_of_lockMode {before w rest : Text} (hw : Wordy w)
    (hrest : isWordAt rest.head? = false) {h : Hit}
    (hmatch : lockMode.matchAt? ⟨before, ' ' :: (w ++ rest)⟩ = some h) : behindMode? w ≠ none := by
  obtain ⟨a, hrun, _⟩ := matchAt?_eq_some hmatch
  rw [run_lockMode, run_space hw rfl, mode, run_or, Option.or_eq_some_iff] at hrun
  obtain hread | ⟨_, hwrite⟩ := hrun
  · rw [run_append] at hread
    exact behindMode?_of_run hrest (by decide) rfl hread
  · exact behindMode?_of_run hrest (by decide) rfl hwrite

/-! ### The pass over a word -/

theorem turns_behindSpace {w rest : Text} (hw : Wordy w) (hmode : w.map foldLetter ∉ modes)
    (hrest : isWordAt rest.head? = false) (before : Text) :
    Turns lockMode [] before (' ' :: w) rest (behindSpace w) := by
  have hword : ∀ {before u rest}, (∀ c ∈ u, isWord c = true) →
      Turns lockMode [] before u rest u := fun hu =>
    turns_of_chars (P := fun c => isBlank c = false) (fun hc => matchAt?_lockMode_none hc)
      fun c hc => Unicode.isBlank_of_isWord (hu c hc)
  rw [behindSpace]
  cases hbehind : behindMode? w with
  | none =>
      have hspace : lockMode.matchAt? ⟨before, ' ' :: (w ++ rest)⟩ = none := by
        cases hmatch : lockMode.matchAt? ⟨before, ' ' :: (w ++ rest)⟩ with
        | none => rfl
        | some h => exact absurd hbehind (behindMode?_of_lockMode hw hrest hmatch)
      exact Turns.cons hspace (hword hw.2)
  | some v =>
      have hv := wordy_behindMode hw hmode hbehind
      obtain ⟨m, rfl, hm⟩ := behindMode?_eq_some hbehind
      -- The rest of the word follows, so that neither LOCAL nor white space goes with the mode.
      have hfirst := head?_wordy hw rest
      have hrest := head?_wordy hv rest
      rw [List.append_assoc] at hfirst
      exact (turns_mode (readsMode_word hm hrest) hfirst hrest before).append (hword hv.2)

end QueryDigest.Extraction
