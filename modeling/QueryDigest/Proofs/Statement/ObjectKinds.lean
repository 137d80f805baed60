import QueryDigest.Proofs.Statement.ExistenceClauses
import QueryDigest.Proofs.Statement.NamedObjects
import QueryDigest.Proofs.Statement.Openings
import QueryDigest.Proofs.Statement.PlainNames
import QueryDigest.Proofs.Unicode.LetterCase

/-!
The kind of the object that a data definition is about. The pattern for it asks for the end of a
word behind the kind but not for the start of one in front of it, and it takes the last kind on the
line, so a name that ends with a kind is taken for an object of that kind.
-/

namespace QueryDigest

open Pattern
open Text (Blank)
open Unicode (foldLetter isBlank isWord)

theorem DefinitionVerb.fold_keyword (verb : DefinitionVerb) :
    verb.keyword.map foldLetter = verb.keyword := by
  cases verb <;> decide

namespace ObjectKind

/-! ### The last kind on a line -/

theorem mem_all (kind : ObjectKind) : kind ∈ all := by
  cases kind <;> decide

theorem fold_keyword (kind : ObjectKind) : kind.keyword.map foldLetter = kind.keyword := by
  cases kind <;> decide

theorem isWord_of_keyword {kind : ObjectKind} {w : Text}
    (h : w.map foldLetter = kind.keyword) : w ≠ [] ∧ ∀ c ∈ w, isWord c = true :=
  Text.word_of_fold (h.trans (fold_keyword kind).symm) (by cases kind <;> decide)
    (by cases kind <;> decide)

theorem isWord_keyword (kind : ObjectKind) : ∀ c ∈ kind.keyword, isWord c = true :=
  (isWord_of_keyword kind.fold_keyword).2

theorem apart_keywords : Apart (all.map keyword) := by
  decide

/-- Of two kinds none ends with the other. -/
theorem eq_of_suffix {kind kind' : ObjectKind} (h : kind.keyword <:+ kind'.keyword) :
    kind = kind' := by
  revert h
  cases kind <;> cases kind' <;> decide

theorem eq_nil_of_append {kind kind' : ObjectKind} {u v : Text}
    (h : (u ++ v).map foldLetter = kind.keyword) (hv : v.map foldLetter = kind'.keyword) :
    u = [] := by
  rw [List.map_append, hv] at h
  obtain rfl : kind' = kind := eq_of_suffix ⟨_, h⟩
  exact List.map_eq_nil_iff.mp (List.append_left_eq_self.mp h)

/-- The kind that a text ends with, and the end of a word. -/
def ending : Pattern :=
  .group (keywords (all.map keyword)) ++ wordEdge

theorem run_behind (verb : DefinitionVerb) (a : Attempt) (onward : Onward) :
    (behind verb).run a onward = (Pattern.keyword verb.keyword).run a fun b =>
      (Pattern.one inLine).run b fun c => (asMany inLine).run c fun d => ending.run d onward :=
  rfl

theorem run_ending {kind : ObjectKind} {w rest : Text} (hw : w.map foldLetter = kind.keyword)
    (hrest : isWordAt rest.head? = false) {a : Attempt} (hafter : a.after = w ++ rest) :
    ending.run a some = some ((a.take w rest).close a.passed) := by
  obtain ⟨hfold, _, _, hapart⟩ := apart_keywords _ (List.mem_map_of_mem (mem_all kind))
  obtain ⟨hne, hword⟩ := isWord_of_keyword hw
  rw [ending, run_append, run_group, run_keywords (List.mem_map_of_mem (mem_all kind))
    (hw.trans hfold.symm) ?_ hafter]
  · have hedge : isWordAt ((a.take w rest).close a.passed).before.head? = true :=
      Text.isWordAt_reverse hne hword a.before
    exact (DefinitionVerb.run_wordEdge_eq_some hedge).mpr ⟨hrest, rfl⟩
  · intro k hk hstart
    rw [hfold, (apart_keywords k hk).1] at hstart
    exact hapart k hk hstart

theorem kind_of_ending {a b : Attempt} (h : ending.run a some = some b) :
    ∃ kind : ObjectKind, ∃ w rest, a.after = w ++ rest ∧ w.map foldLetter = kind.keyword ∧
      isWordAt rest.head? = false := by
  rw [ending, run_append, run_group] at h
  obtain ⟨k, hk, w, rest, hafter, hw, hedge⟩ := run_keywords_eq_some h
  obtain ⟨kind, _, rfl⟩ := List.mem_map.mp hk
  rw [fold_keyword] at hw
  obtain ⟨hne, hword⟩ := isWord_of_keyword hw
  refine ⟨kind, w, rest, hafter, hw, ((DefinitionVerb.run_wordEdge_eq_some ?_).mp hedge).1⟩
  exact Text.isWordAt_reverse hne hword a.before

theorem find?_sameLetters {kind : ObjectKind} {w : Text} (hw : w.map foldLetter = kind.keyword) :
    all.find? (fun k => Unicode.sameLetters k.keyword w) = some kind := by
  simp only [Unicode.sameLetters, hw, fold_keyword]
  cases kind <;> decide

/-- The kind of a statement is the last one on its first line that a word ends with. -/
theorem ofStatement?_last {verb : DefinitionVerb} {kind : ObjectKind} {b : Char} {p w rest : Text}
    (hb : inLine b = true) (hp : ∀ c ∈ p, inLine c = true) (hw : w.map foldLetter = kind.keyword)
    (hrest : isWordAt rest.head? = false)
    (hlast : ∀ (kind' : ObjectKind) (u v rest' : Text), w ++ rest = u ++ (v ++ rest') → u ≠ [] →
      v.map foldLetter = kind'.keyword → isWordAt rest'.head? = false → False) :
    ofStatement? verb (verb.keyword ++ b :: (p ++ (w ++ rest))) = some kind := by
  have hlate : ∀ (a : Attempt) (u v : Text), w ++ rest = u ++ v → u ≠ [] →
      ending.run (a.take (p ++ u) v) some = none := by
    intro a u v hsplit hu
    refine Option.eq_none_iff_forall_ne_some.mpr fun d hrun => ?_
    obtain ⟨kind', w', rest', hafter, hw', hrest'⟩ := kind_of_ending hrun
    obtain rfl : v = w' ++ rest' := hafter
    exact hlast kind' u w' rest' hsplit hu hw' hrest'
  have hsplit : verb.keyword ++ b :: (p ++ (w ++ rest)) =
      (verb.keyword ++ b :: p) ++ (w ++ rest) := by simp
  have hmatch : (behind verb).matchAt? ⟨[], verb.keyword ++ b :: (p ++ (w ++ rest))⟩ =
      some ⟨⟨[], verb.keyword ++ b :: (p ++ (w ++ rest))⟩,
        (verb.keyword ++ b :: p).length + w.length,
        [((verb.keyword ++ b :: p).length, (verb.keyword ++ b :: p).length + w.length)]⟩ := by
    rw [matchAt?, run_behind, run_keyword rfl rfl, run_one_take hb rfl,
      run_asMany_last hp rfl (hlate _) (run_ending hw hrest rfl)]
    simp [Attempt.close, Nat.add_assoc, Nat.add_comm 1]
  have hgroup := Hit.group_single [] (verb.keyword ++ b :: p) w rest
    ((verb.keyword ++ b :: p).length + w.length) rfl rfl
  rw [← hsplit] at hgroup
  rw [ofStatement?, find, findFrom, Cursor.start, findBetween_hit hmatch]
  change (all.find? fun k => Unicode.sameLetters k.keyword _) = _
  rw [hgroup]
  exact find?_sameLetters hw

end ObjectKind

/-! ### The statements -/

/-- The words between the kind of an object and its name. -/
inductive ExistenceWords where
  | absent
  | ifExists
  | ifNotExists
  deriving DecidableEq, Repr

def ExistenceWords.words : ExistenceWords → List Text
  | absent => []
  | ifExists => ["IF".toList, "EXISTS".toList]
  | ifNotExists => ["IF".toList, "NOT".toList, "EXISTS".toList]

/-- A plain name without digits that is in any case no word of a data definition. -/
structure ObjectName extends PlainName (["IF", "NOT", "EXISTS", "TABLE", "DATABASE", "SELECT"].map
    String.toList) where
  digitless : ∀ c ∈ text, c.isDigit = false

/-- A data definition that names its object and says nothing more about it. -/
structure ObjectDefinition where
  verb : DefinitionVerb
  kind : ObjectKind
  existence : ExistenceWords
  name : ObjectName

namespace ObjectDefinition

variable (d : ObjectDefinition)

def statement : Text :=
  Text.spaced ([d.verb.keyword, d.kind.keyword] ++ d.existence.words ++ [d.name.text])

/-- The kind that is shown: the one that the name ends with, or the one that was written. -/
def shownKind : ObjectKind :=
  (ObjectKind.all.find? fun kind => kind.keyword.isSuffixOf (d.name.text.map Char.toUpper)).getD
    d.kind

/-- The white space that is left between the kind and the name. -/
def gap : Text :=
  match d.existence with
  | .absent => [' ']
  | .ifExists | .ifNotExists => [' ', ' ']

/-- What is left of the statement without an existence clause. -/
def plain : Text :=
  d.verb.keyword ++ ' ' :: (d.kind.keyword ++ (d.gap ++ d.name.text))

/-! ### The words of a statement -/

theorem blank_gap : Blank d.gap := by
  rw [gap]
  cases d.existence with
  | absent => exact Text.blank_space
  | ifExists | ifNotExists => exact ⟨List.cons_ne_nil _ _, by decide⟩

theorem name_nonblank : ∀ c ∈ d.name.text, isBlank c = false :=
  fun c hc => Unicode.isBlank_of_isWord (d.name.plain.word c hc)

theorem cleared : Cleared d.statement d.plain d.plain := by
  have hwords : ∀ w ∈ DefinitionVerb.all.map DefinitionVerb.keyword ++
      ObjectKind.all.map ObjectKind.keyword, ∀ c ∈ w, isBlank c = false ∧ foldLetter c ≠ 'I' := by
    decide
  have hverb := hwords d.verb.keyword
    (List.mem_append_left _ (List.mem_map_of_mem d.verb.mem_all))
  have hkind := hwords d.kind.keyword
    (List.mem_append_right _ (List.mem_map_of_mem d.kind.mem_all))
  have hfront : ∀ {t s s' : Text}, Cleared t s s' →
      Cleared (d.verb.keyword ++ ([' '] ++ (d.kind.keyword ++ t)))
        (d.verb.keyword ++ ([' '] ++ (d.kind.keyword ++ s)))
        (d.verb.keyword ++ ([' '] ++ (d.kind.keyword ++ s'))) := by
    intro t s s' h
    obtain ⟨c, k, hk⟩ := List.exists_cons_of_ne_nil (ObjectKind.isWord_of_keyword
      d.kind.fold_keyword).1
    have hc := hkind c (hk ▸ List.mem_cons_self)
    refine .word hverb (.run Text.blank_space ?_ ?_ (.word hkind h))
    · rw [hk]
      rintro _ ⟨⟩
      exact hc.1
    · rw [hk]
      exact Existence.none_of_first hc.2
  have hname : Cleared ([' '] ++ d.name.text) ([' '] ++ d.name.text) ([' '] ++ d.name.text) := by
    refine .run Text.blank_space (fun c hc => d.name_nonblank c (List.mem_of_head? hc))
      (Existence.none_of_nonblank d.name_nonblank) (.final d.name_nonblank)
  have hclause : ∀ {cl : Text}, Existence cl → Cleared ([' '] ++ (cl ++ ([' '] ++ d.name.text)))
      (' ' :: ([' '] ++ d.name.text)) ([' '] ++ ([' '] ++ d.name.text)) :=
    fun hcl => .clause Text.blank_space hcl hname
  rw [statement, plain, gap]
  cases d.existence with
  | absent => simpa [Text.spaced_cons, ExistenceWords.words] using hfront hname
  | ifExists =>
      have hcl : Existence ("IF".toList ++ ([' '] ++ "EXISTS".toList)) :=
        .plain rfl Text.blank_space rfl
      simpa [Text.spaced_cons, ExistenceWords.words] using hfront (hclause hcl)
  | ifNotExists =>
      have hcl : Existence ("IF".toList ++ ([' '] ++ ("NOT".toList ++ ([' '] ++
          "EXISTS".toList)))) :=
        .negated rfl Text.blank_space rfl Text.blank_space rfl
      simpa [Text.spaced_cons, ExistenceWords.words] using hfront (hclause hcl)

theorem gap_unword : ∀ c ∈ d.gap, isWord c = false := by
  rw [gap]
  cases d.existence <;> decide

/-- A word of the statement ends the verb, the kind or the name. -/
theorem word_of_plain {u w rest : Text} (hne : w ≠ []) (hw : ∀ c ∈ w, isWord c = true)
    (hrest : isWordAt rest.head? = false) (h : d.plain = u ++ (w ++ rest)) :
    d.verb.keyword = u ++ w ∨ (∃ p, u = d.verb.keyword ++ ' ' :: p ∧ d.kind.keyword = p ++ w) ∨
      ∃ p, u = d.verb.keyword ++ ' ' :: (d.kind.keyword ++ (d.gap ++ p)) ∧
        d.name.text = p ++ w := by
  have hspace : ∀ c ∈ [' '], isWord c = false := by decide
  have hkeyword := d.verb.isWord_keyword
  have hkind := d.kind.isWord_keyword
  obtain ⟨hverb, _⟩ | ⟨u₁, rfl, h₁⟩ :=
    Text.word_behind (r := ' ' :: (d.kind.keyword ++ (d.gap ++ d.name.text))) hkeyword
      (hspace ' ' List.mem_cons_self) hw hrest h
  · exact Or.inl hverb
  obtain ⟨u₂, rfl, h₂⟩ := Text.word_behind_marks hspace hne hw (x := [' ']) h₁
  obtain ⟨hkind, _⟩ | ⟨u₃, rfl, h₃⟩ := Text.word_behind hkind (d.blank_gap.edge _) hw hrest h₂
  · exact Or.inr (Or.inl ⟨u₂, rfl, hkind⟩)
  obtain ⟨u₄, rfl, h₄⟩ := Text.word_behind_marks d.gap_unword hne hw h₃
  rw [← List.append_nil d.name.text] at h₄
  obtain ⟨hname, _⟩ | ⟨u₅, _, h₅⟩ := Text.word_behind d.name.plain.word (r := []) rfl hw hrest h₄
  · exact Or.inr (Or.inr ⟨u₄, rfl, hname⟩)
  · exact absurd (List.append_eq_nil_iff.mp (List.append_eq_nil_iff.mp h₅.symm).2).1 hne

theorem inLine_plain : ∀ c ∈ d.plain, inLine c = true := by
  have hblank : ∀ c ∈ d.gap, inLine c = true := by
    rw [gap]
    cases d.existence <;> decide
  have hword : ∀ {w : Text}, (∀ c ∈ w, isWord c = true) → ∀ c ∈ w, inLine c = true := by
    intro w hw c hc
    refine bne_iff_ne.mpr ?_
    rintro rfl
    exact absurd (hw _ hc) (by decide)
  have hverb := hword d.verb.isWord_keyword
  have hkind := hword d.kind.isWord_keyword
  simp only [plain, List.forall_mem_append, List.forall_mem_cons]
  exact ⟨hverb, rfl, hkind, hblank, hword d.name.plain.word⟩

/-- The kind that is shown ends the name, or it is the one that was written and no kind does. -/
theorem shownKind_cases :
    (∃ m w, d.name.text = m ++ w ∧ w.map foldLetter = d.shownKind.keyword) ∨
      d.shownKind = d.kind ∧
        ∀ kind : ObjectKind, ¬ kind.keyword <:+ d.name.text.map Char.toUpper := by
  rw [shownKind]
  cases hends : ObjectKind.all.find? fun kind =>
      kind.keyword.isSuffixOf (d.name.text.map Char.toUpper) with
  | some kind =>
      have hsuffix := List.find?_some hends
      rw [List.isSuffixOf_iff_suffix, ← d.name.plain.fold] at hsuffix
      obtain ⟨m, hm⟩ := hsuffix
      obtain ⟨m, w, hname, _, hw⟩ := List.map_eq_append_iff.mp hm.symm
      exact Or.inl ⟨m, w, hname, hw⟩
  | none =>
      refine Or.inr ⟨rfl, fun kind hsuffix => ?_⟩
      have hnone := List.find?_eq_none.mp hends kind kind.mem_all
      exact hnone (List.isSuffixOf_iff_suffix.mpr hsuffix)

theorem kind_plain : ObjectKind.ofStatement? d.verb d.plain = some d.shownKind := by
  obtain ⟨m, w, hname, hw⟩ | ⟨hkind, hnone⟩ := d.shownKind_cases
  · have hsplit : d.plain =
        d.verb.keyword ++ ' ' :: (d.kind.keyword ++ (d.gap ++ m) ++ (w ++ [])) := by
      rw [plain, hname]
      simp
    have hinLine : ∀ c ∈ d.kind.keyword ++ (d.gap ++ m), inLine c = true := fun c hc =>
      d.inLine_plain c (by rw [hsplit]; simp only [List.mem_append, List.mem_cons, hc]; simp)
    rw [hsplit]
    refine ObjectKind.ofStatement?_last rfl hinLine hw rfl ?_
    intro kind' u v rest' hbehind hu hv hrest'
    obtain ⟨_, hword⟩ := ObjectKind.isWord_of_keyword hw
    obtain ⟨hne, hword'⟩ := ObjectKind.isWord_of_keyword hv
    obtain ⟨rfl, _⟩ | ⟨u', _, hnil⟩ :=
      Text.word_behind (r := []) hword rfl hword' hrest' hbehind
    · exact hu (ObjectKind.eq_nil_of_append hw hv)
    · exact hne (List.append_eq_nil_iff.mp (List.append_eq_nil_iff.mp hnil.symm).2).1
  · rw [hkind]
    refine ObjectKind.ofStatement?_last (p := []) rfl (List.forall_mem_nil _)
      d.kind.fold_keyword (d.blank_gap.edge _) ?_
    intro kind' u v rest' hbehind hu hv hrest'
    obtain ⟨hne, hword⟩ := ObjectKind.isWord_of_keyword hv
    have hplain : d.plain = (d.verb.keyword ++ ' ' :: u) ++ (v ++ rest') := by
      rw [plain, hbehind]
      simp
    obtain hverb | ⟨p, hp, hkind⟩ | ⟨p, _, hname⟩ := d.word_of_plain hne hword hrest' hplain
    · have hlength := congrArg List.length hverb
      simp only [List.length_append, List.length_cons] at hlength
      omega
    · obtain rfl : u = p := by simpa using hp
      have hreads : (u ++ v).map foldLetter = d.kind.keyword := by
        rw [← hkind, d.kind.fold_keyword]
      exact hu (ObjectKind.eq_nil_of_append hreads hv)
    · refine hnone kind' ?_
      rw [← d.name.plain.fold, hname, List.map_append, hv]
      exact List.suffix_append _ _

/-! ### The name and the tables -/

theorem not_mem_plain {x : Char} (hword : isWord x = false) (hblank : isBlank x = false) :
    x ∉ d.plain := by
  have hne : ∀ {ok : Char → Bool} {w : Text}, ok x = false → (∀ c ∈ w, ok c = true) → x ∉ w := by
    intro ok w hx hw hmem
    rw [hw x hmem] at hx
    cases hx
  have hverb := hne hword d.verb.isWord_keyword
  have hkind := hne hword d.kind.isWord_keyword
  have hspace := hne hblank Text.blank_space.blank
  simp only [plain, List.mem_append, List.mem_cons, not_or]
  exact ⟨hverb, List.ne_of_not_mem_cons hspace, hkind, hne hblank d.blank_gap.blank,
    hne hword d.name.plain.word⟩

/-- The name that is found behind some kinds is the name of the object. -/
theorem find_name {ks : List Text} (hks : Apart ks) (hkind : d.kind.keyword ∈ ks)
    (hverb : ∀ k ∈ ks, ¬ k <:+ d.verb.keyword) :
    ((nameBehind ks).find d.plain).map (·.group 0) = some d.name.text := by
  have hquote : Identifier.backquote ∉ d.plain := d.not_mem_plain (by decide) rfl
  have hsplit : d.plain =
      (d.verb.keyword ++ [' ']) ++ (d.kind.keyword ++ (d.gap ++ d.name.text)) := by
    rw [plain]
    simp
  have hskip : (nameBehind ks).find d.plain =
      (nameBehind ks).findBetween ((d.verb.keyword ++ [' ']).reverse ++ [])
        (d.kind.keyword ++ (d.gap ++ d.name.text)) := by
    rw [hsplit]
    refine findBetween_skip [] _ fun u c v hfront =>
      Option.eq_none_iff_forall_ne_some.mpr fun hit hmatch => ?_
    obtain ⟨rest, k, bs, hk, hfold, hbs, _⟩ := namesAt_of_match hks hmatch
    obtain ⟨hne, hword⟩ := hks.word hfold
    have hshort := congrArg List.length hfront
    simp only [List.length_append, List.length_cons, List.length_nil] at hshort
    have hplain : d.plain = u ++ (k ++ (bs ++ rest)) := by
      rw [hsplit, hfront, List.append_assoc, List.cons_append, hk]
    obtain hverb' | ⟨p, rfl, _⟩ | ⟨p, rfl, _⟩ := d.word_of_plain hne hword (hbs.edge rest) hplain
    · refine hverb _ hfold ?_
      rw [← d.verb.fold_keyword, hverb', List.map_append]
      exact List.suffix_append _ _
    · simp only [List.length_append, List.length_cons] at hshort
      omega
    · simp only [List.length_append, List.length_cons] at hshort
      omega
  have hnames : NamesAt ks (d.kind.keyword ++ (d.gap ++ d.name.text)) d.name.text :=
    ⟨d.kind.keyword, d.gap, rfl, d.kind.fold_keyword.symm ▸ hkind, d.blank_gap,
      fun c hc => d.name_nonblank c (List.mem_of_head? hc)⟩
  have hbehind : Identifier.backquote ∉ d.kind.keyword ++ (d.gap ++ d.name.text) := fun hmem =>
    hquote (hsplit ▸ List.mem_append_right _ hmem)
  have hmatch := matchAt?_nameBehind hks hnames hbehind ((d.verb.keyword ++ [' ']).reverse ++ [])
  rw [Identifier.bare_word d.name.plain.word, if_neg d.name.plain.ne_nil,
    Option.map_eq_some_iff] at hmatch
  obtain ⟨hit, hhit, hgroup⟩ := hmatch
  rw [hskip, findBetween_hit hhit, Option.map_some, hgroup]

/-- The words of the statement are the verb, the kind and the name. -/
theorem whole_word {u w rest : Text} (hne : w ≠ []) (hw : ∀ c ∈ w, isWord c = true)
    (hu : isWordAt u.reverse.head? = false) (hrest : isWordAt rest.head? = false)
    (h : d.plain = u ++ (w ++ rest)) :
    w = d.verb.keyword ∨ w = d.kind.keyword ∨ w = d.name.text := by
  have hfront : ∀ {q p x : Text}, (∀ c ∈ x, isWord c = true) → x = p ++ w → u = q ++ p → w = x := by
    rintro q p x hx rfl rfl
    obtain rfl | hp := eq_or_ne p []
    · rfl
    · rw [List.reverse_append, Text.isWordAt_reverse hp fun c hc =>
        hx c (List.mem_append_left w hc)] at hu
      cases hu
  obtain hverb | ⟨p, hp, hkind⟩ | ⟨p, hp, hname⟩ := d.word_of_plain hne hw hrest h
  · exact Or.inl (hfront d.verb.isWord_keyword hverb (List.nil_append u).symm)
  · exact Or.inr (Or.inl (hfront (q := d.verb.keyword ++ [' '])
      d.kind.isWord_keyword hkind (by simp [hp])))
  · exact Or.inr (Or.inr (hfront (q := d.verb.keyword ++ ' ' :: (d.kind.keyword ++ d.gap))
      d.name.plain.word hname (by simp [hp])))

theorem definingQuery?_plain : Extraction.definingQuery? d.plain = none := by
  refine if_neg fun hoccurs => ?_
  obtain ⟨hit, hfind⟩ := Option.isSome_iff_exists.mp hoccurs
  obtain ⟨u, w, rest, hsplit, hw, hu, hrest⟩ := word_of_find (by decide) (by decide) hfind
  obtain ⟨hne, hword⟩ := Text.word_of_fold hw (by decide) (by decide)
  obtain rfl | rfl | rfl := d.whole_word hne hword hu hrest hsplit
  · rw [d.verb.fold_keyword] at hw
    revert hw
    cases d.verb <;> decide
  · rw [d.kind.fold_keyword] at hw
    revert hw
    cases d.kind <;> decide
  · exact d.name.fold_ne (by decide) hw

theorem occursIn_databaseBehind (h : d.kind = .database) :
    (Extraction.databaseBehind d.verb).occursIn d.plain = true := by
  have hplain : d.plain = d.verb.keyword ++ (" DATABASE".toList ++ (d.gap ++ d.name.text)) := by
    rw [plain, h]
    rfl
  have hword : isWordAt (" DATABASE".toList.reverse ++ d.verb.keyword.reverse).head? = true := by
    change isWord 'E' = true
    decide
  have hedge := d.blank_gap.edge d.name.text
  have hmatch : (Extraction.databaseBehind d.verb).matchAt? ⟨[], d.plain⟩ ≠ none := by
    rw [hplain, Ne, matchAt?_eq_none, Extraction.databaseBehind, run_append, run_append,
      run_keyword rfl rfl, run_keyword rfl rfl, run_wordEdge]
    · exact Option.some_ne_none _
    · simp only [Attempt.take_before, Attempt.take_after, Attempt.start, List.append_nil, hword,
        hedge]
      decide
  obtain ⟨hit, hhit⟩ := Option.ne_none_iff_exists'.mp hmatch
  rw [occursIn, find, findFrom, Cursor.start, findBetween_hit hhit]
  rfl

theorem not_occursIn_databaseBehind (h : d.kind = .table) :
    (Extraction.databaseBehind d.verb).occursIn d.plain = false := by
  refine Bool.eq_false_iff.mpr fun hoccurs => ?_
  obtain ⟨hit, hfind⟩ := Option.isSome_iff_exists.mp hoccurs
  obtain ⟨u, v, hplain, hmatch⟩ := findBetween_some hfind
  obtain ⟨a, hrun, _⟩ := matchAt?_eq_some hmatch
  rw [Extraction.databaseBehind, run_append, run_append] at hrun
  obtain ⟨w, rest, hafter, _, hrun⟩ := run_keyword_eq_some hrun
  obtain ⟨w', rest', hafter', hw', hrun⟩ := run_keyword_eq_some hrun
  obtain ⟨hedge, _⟩ := run_wordEdge_some.mp hrun
  have hreads : w'.map foldLetter = ' ' :: "DATABASE".toList := hw'.trans (by decide)
  obtain ⟨b, w', rfl, hb, hw'⟩ := List.map_eq_cons_iff.mp hreads
  obtain ⟨hne, hword⟩ := Text.word_of_fold (t := "DATABASE".toList) hw' (by decide) (by decide)
  have hspace : isWord b = false := by
    rw [← Unicode.isWord_foldLetter b, hb]
    decide
  have hrest : isWordAt rest'.head? = false := by
    rw [Attempt.take_before, List.reverse_cons, List.append_assoc,
      Text.isWordAt_reverse hne hword] at hedge
    exact Bool.eq_false_iff.mpr hedge.symm
  have hsplit : d.plain = (u ++ w ++ [b]) ++ (w' ++ rest') := by
    have hplain : d.plain = u ++ v := hplain
    have hv : v = w ++ rest := hafter
    have hrest : rest = b :: w' ++ rest' := hafter'
    rw [hplain, hv, hrest]
    simp
  have hedge : isWordAt (u ++ w ++ [b]).reverse.head? = false := by
    rw [List.reverse_append]
    exact hspace
  obtain rfl | rfl | rfl := d.whole_word hne hword hedge hrest hsplit
  · rw [d.verb.fold_keyword] at hw'
    revert hw'
    cases d.verb <;> decide
  · rw [h] at hw'
    revert hw'
    decide
  · exact d.name.fold_ne (by decide) hw'

theorem statement_eq : d.statement = d.verb.keyword ++ ' ' :: (d.kind.keyword ++
    (d.existence.words ++ [d.name.text]).flatMap (' ' :: ·)) := by
  change Text.spaced (d.verb.keyword :: d.kind.keyword :: (d.existence.words ++ [d.name.text])) = _
  rw [Text.spaced_cons, List.flatMap_cons]
  rfl

theorem ofStatement?_statement : DefinitionVerb.ofStatement? d.statement = some d.verb := by
  have hspace : isWord ' ' = false := by decide
  refine DefinitionVerb.ofStatement?_eq_some.mpr ⟨d.verb.keyword, ' ' :: (d.kind.keyword ++
    (d.existence.words ++ [d.name.text]).flatMap (' ' :: ·)), ?_, rfl, hspace⟩
  rw [statement_eq]
  cases d.verb <;> rfl

theorem unmarked_statement : Comment.Unmarked d.statement := by
  have hexistence : ∀ w ∈ d.existence.words, ∀ c ∈ w, isWord c = true := by
    cases d.existence <;> decide
  refine Comment.unmarked_of_words fun c hc => ?_
  obtain hspace | ⟨w, hw, hc⟩ := Text.mem_join hc
  · exact Or.inr (Text.blank_space.blank c hspace)
  · refine Or.inl ?_
    simp only [List.mem_append, List.mem_cons, List.not_mem_nil, or_false] at hw
    obtain ((rfl | rfl) | hw) | rfl := hw
    · exact d.verb.isWord_keyword c hc
    · exact d.kind.isWord_keyword c hc
    · exact hexistence w hw c hc
    · exact d.name.plain.word c hc

theorem tablesOf_statement : tablesOf d.statement =
    match d.kind with
    | .database => []
    | .table => [d.name.text] := by
  have hplain := d.cleared.replaceAll.2
  rw [tablesOf, Extraction.ofStatement, d.ofStatement?_statement]
  simp only [hplain]
  cases hkind : d.kind with
  | database =>
      rw [if_pos (d.occursIn_databaseBehind hkind)]
      rfl
  | table =>
      have hks : Apart ["TABLE".toList] := by decide
      have hname := d.find_name hks (by rw [hkind]; decide) (by cases d.verb <;> decide)
      rw [← tableName_eq] at hname
      rw [d.not_occursIn_databaseBehind hkind, if_neg Bool.false_ne_true, d.definingQuery?_plain]
      change (((Extraction.tableName.find d.plain).map (·.group 0)).toList).eraseDups = _
      rw [hname]
      rfl

theorem ofStatement_statement : Classification.ofStatement d.statement =
    .definition d.verb (some d.shownKind) d.name.text := by
  have hks : Apart ["TABLE".toList, "DATABASE".toList] := by decide
  have hname := d.find_name hks (by cases d.kind <;> decide) (by cases d.verb <;> decide)
  rw [← namedObject_eq] at hname
  rw [Classification.ofStatement_of_definition d.ofStatement?_statement d.unmarked_statement
    d.cleared.replaceAll.1, d.kind_plain, hname]
  rfl

/-- A name without digits is shown as it is. -/
theorem maskedName_name : Fingerprint.maskedName d.name.text = d.name.text := by
  have hquote : Identifier.unquoted d.name.text = d.name.text := by
    refine List.filter_eq_self.mpr fun c hc => bne_iff_ne.mpr ?_
    rintro rfl
    exact absurd (d.name.plain.word _ hc) (by decide)
  have hnone : ∀ u c v, d.name.text = u ++ c :: v →
      Fingerprint.number.matchAt? ⟨u.reverse, c :: v⟩ = none := by
    intro u c v hsplit
    refine Option.eq_none_iff_forall_ne_some.mpr fun hit hmatch => ?_
    obtain ⟨a, hrun, _⟩ := matchAt?_eq_some hmatch
    rw [Fingerprint.number, run_append] at hrun
    obtain ⟨b, ⟨taken, hafter, _, _⟩, hdigits⟩ := run_eq_some hrun
    rw [digits, someOf, run_append, run_one, Option.bind_eq_some_iff] at hdigits
    obtain ⟨_, hnext, _⟩ := hdigits
    obtain ⟨x, rest, hx, hdigit, _⟩ := Attempt.next?_eq_some.mp hnext
    have hmem : x ∈ d.name.text := by
      have hafter : c :: v = taken ++ b.after := hafter
      rw [hsplit, hafter, hx]
      simp
    rw [d.name.digitless x hmem] at hdigit
    cases hdigit
  rw [Fingerprint.maskedName, hquote, Fingerprint.maskNumbers, replaceAll,
    pieces_of_no_match hnone, List.flatMap_map]
  exact List.flatMap_singleton' _

theorem fingerprint_statement : fingerprint d.statement =
    Text.spaced [d.verb.keyword, d.shownKind.keyword, d.name.text] := by
  have htables : Fingerprint.tables (tablesOf d.statement) d.name.text = [d.name.text] := by
    rw [tablesOf_statement, Fingerprint.tables, if_neg (by simpa using d.name.plain.ne_nil)]
    cases d.kind with
    | database => rfl
    | table =>
        rw [List.map_singleton, maskedName_name]
        simp [List.eraseDups_cons]
  rw [fingerprint, ofStatement_statement, Fingerprint.compose_definition]
  change Text.spaced (_ :: _ :: Fingerprint.tables _ _) = _
  rw [htables]

theorem shownKind_eq_kind_iff : d.shownKind = d.kind ↔
    ∀ kind : ObjectKind, kind.keyword <:+ d.name.text.map Char.toUpper → kind = d.kind := by
  obtain ⟨m, w, hname, hw⟩ | ⟨hkind, hnone⟩ := d.shownKind_cases
  · have hends : d.shownKind.keyword <:+ d.name.text.map Char.toUpper := by
      rw [← d.name.plain.fold, hname, List.map_append, hw]
      exact List.suffix_append _ _
    constructor
    · rintro hshown kind hkind
      rw [← hshown]
      obtain hsuffix | hsuffix := List.suffix_or_suffix_of_suffix hkind hends
      · exact ObjectKind.eq_of_suffix hsuffix
      · exact (ObjectKind.eq_of_suffix hsuffix).symm
    · exact fun h => h _ hends
  · exact iff_of_true hkind fun kind hsuffix => absurd hsuffix (hnone kind)

/-- A data definition is shown with its verb, its name and the kind that the name ends with, if it
ends with one, so that the kind is the one that was written just where the name ends with no other.
-/
theorem fingerprint_eq_iff_of_kind :
    fingerprint d.statement = Text.spaced [d.verb.keyword, d.shownKind.keyword, d.name.text] ∧
      (fingerprint d.statement = Text.spaced [d.verb.keyword, d.kind.keyword, d.name.text] ↔
        ∀ kind : ObjectKind, kind.keyword <:+ d.name.text.map Char.toUpper → kind = d.kind) := by
  refine ⟨d.fingerprint_statement, ?_⟩
  rw [fingerprint_statement, ← shownKind_eq_kind_iff]
  constructor
  · intro h
    rw [Text.spaced_cons, Text.spaced_cons, List.append_cancel_left_eq] at h
    have hkeywords : d.shownKind.keyword = d.kind.keyword := by
      simpa using h
    revert hkeywords
    cases d.shownKind <;> cases d.kind <;> decide
  · exact fun h => by rw [h]

/-- A name that ends with the other kind is shown as an object of that kind. -/
theorem fingerprint_ne_of_kind : ∃ d : ObjectDefinition,
    d.statement = "CREATE DATABASE mytable".toList ∧
      fingerprint d.statement = "CREATE TABLE mytable".toList ∧
      fingerprint d.statement ≠ Text.spaced [d.verb.keyword, d.kind.keyword, d.name.text] := by
  let d : ObjectDefinition := ⟨.create, .database, .absent,
    ⟨⟨"mytable".toList, ⟨by decide, by decide⟩, by decide⟩, by decide⟩⟩
  have hfingerprint : fingerprint d.statement = "CREATE TABLE mytable".toList := by
    rw [d.fingerprint_statement]
    decide
  refine ⟨d, by decide, hfingerprint, ?_⟩
  rw [hfingerprint]
  decide

end ObjectDefinition
end QueryDigest
