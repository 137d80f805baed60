import QueryDigest.Proofs.Pattern.Readings
import QueryDigest.Proofs.Statement.DefiningQueries
import QueryDigest.Proofs.Statement.ObjectKinds

/-!
Literals in data definitions. A definition is read for its kind and its name in the text as it
stands, with the literals in it, so that it shows words of a literal. A literal on one line in which
none of the words stands that a definition is read for shows nothing.
-/

namespace QueryDigest

open Pattern
open Text (Blank)
open Unicode (foldLetter isBlank isWord)

/-- The words that data definitions are read for. -/
def definitionKeywords : List Text :=
  DefinitionVerb.all.map DefinitionVerb.keyword ++ ObjectKind.all.map ObjectKind.keyword
    ++ ["EXISTS".toList, "SELECT".toList]

/-- The body of a literal on one line that opens no comment and has no quote of any kind in it, and
none of the words that data definitions are read for. -/
structure Unread (b : Text) : Prop where
  chars : ∀ c ∈ b, c ≠ '\'' ∧ c ≠ '"' ∧ c ≠ '\x60' ∧ c ≠ '\\' ∧ c ≠ '\n'
  unmarked : Comment.Unmarked b
  lacks : Lacks definitionKeywords b

theorem opens_around {verb : DefinitionVerb} {p : Text}
    (hverb : DefinitionVerb.ofStatement? (p ++ ['\'']) = some verb) (b s : Text) :
    DefinitionVerb.ofStatement? (p ++ '\'' :: (b ++ '\'' :: s)) = some verb :=
  DefinitionVerb.ofStatement?_eq_some.mpr
    ((DefinitionVerb.ofStatement?_eq_some.mp hverb).change_behind (by decide) (by decide)
      '\'' (by decide) (by decide) _)

/-! ### Passes -/

/-- A pass over matches that ask for a word leaves a literal without the word as it is. -/
theorem replaceAll_lacking {pat : Pattern} (hpat : pat.Near) (havoid : pat.avoids ['\''] = true)
    {k : Text} (hk : '\'' ∉ k)
    (hneeds : ∀ {before t : Text} {h : Hit}, pat.matchAt? ⟨before, t⟩ = some h →
      k <:+: t.map foldLetter) (r p s : Text) :
    ∃ p' s', (∀ c ∈ p', c ∈ p ∨ c ∈ r) ∧ (∀ c ∈ s', c ∈ s ∨ c ∈ r) ∧
      ∀ b, Lacks [k] b → pat.replaceAll (fun _ => r) (p ++ '\'' :: (b ++ '\'' :: s)) =
        p' ++ '\'' :: (b ++ '\'' :: s') := by
  obtain ⟨p', hp', hfront⟩ := write_stop hpat ['\''] havoid List.mem_cons_self r [] p
  refine ⟨p', write (fun _ => r) (pat.outlineFrom 0 ['\''] s), hp', ?_, ?_⟩
  · intro c hc
    obtain hc | hc := mem_write_const hc
    · rw [write_outlineFrom] at hc
      exact Or.inl hc
    · exact Or.inr hc
  · intro b hb
    -- A match in the body would hold the word, and no match goes on behind the quote.
    have hnone : ∀ u c v, b ++ ['\''] = u ++ c :: v →
        pat.matchAt? ⟨u.reverse ++ ['\''], c :: (v ++ [])⟩ = none := by
      intro u c v hsplit
      refine Option.eq_none_iff_forall_ne_some.mpr fun h hmatch => ?_
      have hwithin := hneeds hmatch
      rw [List.append_nil] at hwithin
      have hquote := hb.quote (List.forall_mem_singleton.mpr hk) (List.suffix_refl b)
      rw [hsplit] at hquote
      refine hquote k List.mem_cons_self ?_
      rw [List.map_append]
      exact hwithin.trans (List.suffix_append _ _).isInfix
    have hbody := outlineFrom_of_no_match ['\''] [] hnone
    rw [List.append_nil, outlineFrom_nil, List.append_nil] at hbody
    rw [replaceAll_const, hfront, outlineFrom_append hpat havoid List.mem_cons_self ['\'']
      (Nat.zero_le b.length) s, hbody, write_append, write_map_kept, List.append_assoc]
    rfl

/-! ### Names -/

theorem Identifier.dotted_before {q : Char} (hq : isWord q = false) (hdot : q ≠ '.')
    (x v v' : Text) : dotted (x ++ q :: v) = dotted (x ++ q :: v') := by
  cases x with
  | nil => simp [dotted, hdot]
  | cons c x =>
      simp only [dotted, List.cons_append, List.head?_cons, List.tail_cons,
        (Text.span_before hq x v).1, (Text.span_before hq x v').1]

theorem Identifier.bare_before {q : Char} (hq : isWord q = false) (hdot : q ≠ '.') (x v v' : Text) :
    bare (x ++ q :: v) = bare (x ++ q :: v') := by
  rw [bare, bare, (Text.span_before hq x v).1, (Text.span_before hq x v).2,
    (Text.span_before hq x v').1, (Text.span_before hq x v').2, dotted_before hq hdot _ v v']

theorem NamesAt.before {ks : List Text} (hks : Apart ks) {q : Char} (hword : isWord q = false)
    (hblank : isBlank q = false) {x v rest : Text} (h : NamesAt ks (x ++ q :: v) rest) :
    ∃ r, rest = r ++ q :: v ∧ ∀ v', NamesAt ks (x ++ q :: v') (r ++ q :: v') := by
  obtain ⟨k, bs, hsplit, hk, hbs, hrest⟩ := h
  have hqk : q ∉ k := fun hmem => absurd ((hks.word hk).2 q hmem) (by simp [hword])
  have hqbs : q ∉ bs := fun hmem => absurd (hbs.blank q hmem) (by simp [hblank])
  obtain ⟨x, rfl, hbehind⟩ := Text.split_before hsplit hqk
  obtain ⟨r, rfl, rfl⟩ := Text.split_before hbehind.symm hqbs
  refine ⟨r, rfl, fun v' => ⟨k, bs, by simp, hk, hbs, ?_⟩⟩
  cases r with
  | nil =>
      rintro _ ⟨⟩
      exact hblank
  | cons c r => exact hrest

/-- The name behind one of some keywords at a place. -/
def nameAt (ks : List Text) : Reading Text
  | before, after => ((nameBehind ks).matchAt? ⟨before, after⟩).map (·.group 0)

theorem near_nameAt (ks : List Text) : (nameAt ks).Near := by
  intro before before' hbefore t
  have hnear : (nameBehind ks).Near := by
    simp [nameBehind, Identifier.pattern, Identifier.simple, Identifier.quoted, Pattern.word]
  rw [nameAt, nameAt]
  obtain ⟨hx, hy⟩ | ⟨h, k, hx, hy, hfound, _⟩ := rel_cases
    (matchAt?_sameUpTo hnear (avoids_nil _) hbefore (Eq.refl (Text.upTo [] t)))
  · rw [hx, hy]
  · have hgroups : h.groups = k.groups := congrArg Prod.snd hfound
    have hstart := (matchAt?_text hx).1
    have hstart' := (matchAt?_text hy).1
    rw [hx, hy, Option.map_some, Option.map_some, Hit.group, Hit.group, hgroups, hstart, hstart']

section

variable {ks : List Text} (hks : Apart ks)

include hks

theorem nameAt_before {before x v v' : Text} (hv : Identifier.backquote ∉ x ++ '\'' :: v)
    (hv' : Identifier.backquote ∉ x ++ '\'' :: v') :
    nameAt ks before (x ++ '\'' :: v) = nameAt ks before (x ++ '\'' :: v') := by
  rw [nameAt, nameAt]
  by_cases hnames : ∃ rest, NamesAt ks (x ++ '\'' :: v) rest
  · obtain ⟨rest, hnames⟩ := hnames
    obtain ⟨r, rfl, hall⟩ := hnames.before hks (by decide) (by decide)
    rw [matchAt?_nameBehind hks hnames hv, matchAt?_nameBehind hks (hall v') hv',
      Identifier.bare_before (by decide) (by decide) r v v']
  · have hnone : (nameBehind ks).matchAt? ⟨before, x ++ '\'' :: v⟩ = none :=
      Option.eq_none_iff_forall_ne_some.mpr fun hit hmatch => hnames (namesAt_of_match hks hmatch)
    have hnone' : (nameBehind ks).matchAt? ⟨before, x ++ '\'' :: v'⟩ = none := by
      refine Option.eq_none_iff_forall_ne_some.mpr fun hit hmatch => hnames ?_
      obtain ⟨rest, hnames'⟩ := namesAt_of_match hks hmatch
      obtain ⟨r, rfl, hall⟩ := hnames'.before hks (by decide) (by decide)
      exact ⟨_, hall v⟩
    rw [hnone, hnone']

theorem nameAt_of_lacks {b : Text} (hb : Lacks ks b) (before : Text) {x : Text} (hx : x <:+ b)
    (v : Text) : nameAt ks before (x ++ '\'' :: v) = none := by
  rw [nameAt, Option.map_eq_none_iff]
  refine Option.eq_none_iff_forall_ne_some.mpr fun hit hmatch => ?_
  obtain ⟨rest, k, bs, hsplit, hk, _⟩ := namesAt_of_match hks hmatch
  have hquote : '\'' ∉ k := fun hmem => absurd ((hks.word hk).2 _ hmem) (by decide)
  obtain ⟨x', rfl, _⟩ := Text.split_before hsplit hquote
  have hstart : k <:+: b := (List.prefix_append k x').isInfix.trans hx.isInfix
  exact hb _ hk (hstart.map foldLetter)

/-- Names without back-quotes are read alike around literals that lack the keywords. -/
theorem blind_nameAt {p b b' s : Text} (hb : Lacks ks b) (hb' : Lacks ks b')
    (hp : Identifier.backquote ∉ p) (hquote : Identifier.backquote ∉ b)
    (hquote' : Identifier.backquote ∉ b') (hs : Identifier.backquote ∉ s) :
    (nameAt ks).Blind p b b' s where
  near := near_nameAt ks
  front := by
    intro before x hx
    have hx' : Identifier.backquote ∉ x := fun hmem => hp (hx.subset hmem)
    have hall : ∀ {d : Text}, Identifier.backquote ∉ d →
        Identifier.backquote ∉ x ++ '\'' :: (d ++ '\'' :: s) := by
      intro d hd
      simp only [List.mem_append, List.mem_cons, not_or]
      exact ⟨hx', by decide, hd, by decide, hs⟩
    exact nameAt_before hks (hall hquote) (hall hquote')
  body := fun before _ hx => nameAt_of_lacks hks hb before hx s
  body' := fun before _ hx => nameAt_of_lacks hks hb' before hx s

end

/-! ### Kinds -/

namespace ObjectKind

def ofWord (w : Text) : Option ObjectKind :=
  all.find? fun kind => Unicode.sameLetters kind.keyword w

/-- The kind that a word at a place ends with, which is the start of the text there. -/
def kindAt : Reading (Option ObjectKind)
  | before, after => (ending.matchAt? ⟨before, after⟩).map fun h => ofWord h.found.1

/-- The text of the group that an attempt has closed last. -/
def lastGroup (a : Attempt) : Text :=
  match a.groups.getLast? with
  | some (opened, closed) => (a.before.take (closed - opened)).reverse
  | none => []

theorem lastGroup_close (a : Attempt) (w rest : Text) :
    lastGroup ((a.take w rest).close a.passed) = w := by
  simp [lastGroup, Attempt.close]

theorem take_of_ending {a b : Attempt} (h : ending.run a some = some b) :
    ∃ kind : ObjectKind, ∃ w rest, a.after = w ++ rest ∧ w.map foldLetter = kind.keyword ∧
      isWordAt rest.head? = false ∧ b = (a.take w rest).close a.passed := by
  obtain ⟨kind, w, rest, hafter, hw, hrest⟩ := kind_of_ending h
  rw [run_ending hw hrest hafter] at h
  exact ⟨kind, w, rest, hafter, hw, hrest, (Option.some.inj h).symm⟩

theorem map_run_ending (a : Attempt) :
    (ending.run a some).map (fun b => ofWord (lastGroup b)) = kindAt a.before a.after := by
  cases hrun : ending.run a some with
  | some b =>
      obtain ⟨kind, w, rest, hafter, hw, hrest, rfl⟩ := take_of_ending hrun
      rw [kindAt, matchAt?]
      change _ = Option.map _ (Option.map _ (ending.run (.start ⟨a.before, a.after⟩) some))
      rw [run_ending hw hrest (a := .start ⟨a.before, a.after⟩) hafter, Option.map_some,
        lastGroup_close]
      simp [Hit.found, Hit.text, Attempt.close, Attempt.start, hafter]
  | none =>
      refine (Option.map_eq_none_iff.mpr ?_).symm
      refine Option.eq_none_iff_forall_ne_some.mpr fun h hmatch => ?_
      obtain ⟨b, hstart, _⟩ := matchAt?_eq_some hmatch
      obtain ⟨kind, w, rest, hafter, hw, hrest, _⟩ := take_of_ending hstart
      rw [run_ending hw hrest (a := a) hafter] at hrun
      cases hrun

theorem group_behind {verb : DefinitionVerb} {c : Cursor} {b : Attempt}
    (h : (behind verb).run (.start c) some = some b) :
    Hit.group ⟨c, b.passed, b.groups⟩ 0 = lastGroup b := by
  rw [run_behind] at h
  obtain ⟨v, r₁, hv, _, h⟩ := run_keyword_eq_some h
  rw [run_one, Option.bind_eq_some_iff] at h
  obtain ⟨_, hnext, h⟩ := h
  obtain ⟨d, r₂, hd, _, rfl⟩ := Attempt.next?_eq_some.mp hnext
  obtain ⟨u, r₃, hu, h⟩ := run_asMany_eq_some h
  obtain ⟨_, w, rest, hw, _, _, rfl⟩ := take_of_ending h
  obtain ⟨before, after⟩ := c
  obtain rfl : after = v ++ r₁ := hv
  obtain rfl : r₁ = d :: r₂ := hd
  obtain rfl : r₂ = u ++ r₃ := hu
  obtain rfl : r₃ = w ++ rest := hw
  have hsplit : v ++ d :: (u ++ (w ++ rest)) = (v ++ d :: u) ++ (w ++ rest) := by simp
  rw [lastGroup_close, hsplit]
  refine Hit.group_single before (v ++ d :: u) w rest _ ?_ ?_
  · simp [Attempt.start]
    omega
  · simp

theorem find_behind (verb : DefinitionVerb) (t : Text) :
    ((behind verb).find t).map (fun h => ofWord (h.group 0)) =
      (((kindAt.last inLine).step inLine).behind verb.keyword).first [] t := by
  have hmatch : ∀ before after : Text,
      ((behind verb).matchAt? ⟨before, after⟩).map (fun h => ofWord (h.group 0)) =
        ((kindAt.last inLine).step inLine).behind verb.keyword before after := by
    intro before after
    have hrun := map_run_keyword (map_run_one (map_run_asMany map_run_ending inLine) inLine)
      verb.keyword (.start ⟨before, after⟩)
    rw [← run_behind] at hrun
    refine Eq.trans ?_ hrun
    rw [matchAt?, Option.map_map]
    refine Option.map_congr fun b hb => ?_
    exact congrArg ofWord (group_behind hb)
  rw [find, findFrom, map_findBetween]
  simp only [hmatch]
  rfl

theorem ofStatement?_eq_join (verb : DefinitionVerb) (t : Text) :
    ofStatement? verb t = (((behind verb).find t).map fun h => ofWord (h.group 0)).join := by
  rw [ofStatement?]
  cases (behind verb).find t <;> rfl

/-- The kind is read alike around literals on one line that lack the kinds and the verb. -/
theorem ofStatement?_around {verb : DefinitionVerb} {p b b' s : Text}
    (hb : Lacks (verb.keyword :: all.map keyword) b)
    (hb' : Lacks (verb.keyword :: all.map keyword) b') (hline : ∀ c ∈ b, inLine c = true)
    (hline' : ∀ c ∈ b', inLine c = true) :
    ofStatement? verb (p ++ '\'' :: (b ++ '\'' :: s)) =
      ofStatement? verb (p ++ '\'' :: (b' ++ '\'' :: s)) := by
  have hneeds : ∀ {before t : Text} {h : Hit}, ending.matchAt? ⟨before, t⟩ = some h →
      ∃ k ∈ all.map keyword, k <:+: t.map foldLetter := by
    intro before t h hmatch
    obtain ⟨a, hrun, _⟩ := matchAt?_eq_some hmatch
    obtain ⟨kind, w, rest, hafter, hw, _⟩ := kind_of_ending hrun
    refine ⟨kind.keyword, List.mem_map_of_mem kind.mem_all, ?_⟩
    have hstart : w <+: t := ⟨rest, hafter.symm⟩
    rw [← hw]
    exact hstart.isInfix.map foldLetter
  have hkinds : ∀ {d : Text}, Lacks (verb.keyword :: all.map keyword) d →
      Lacks (all.map keyword) d := fun h k hk => h k (List.mem_cons_of_mem _ hk)
  have hnear : ending.Near := ⟨near_keywords _, near_wordEdge⟩
  have hblind : kindAt.Blind p b b' s :=
    Reading.blind_of_near hnear (by decide) (by decide) hneeds (hkinds hb) (hkinds hb')
      fun found => ofWord found.1
  have hline := hblind.behind_line (by decide) hline hline' (k := verb.keyword)
    (by cases verb <;> decide) (by rw [verb.fold_keyword]; exact hb _ List.mem_cons_self)
    (by rw [verb.fold_keyword]; exact hb' _ List.mem_cons_self)
  rw [ofStatement?_eq_join, ofStatement?_eq_join, find_behind, find_behind, hline.first_eq []]

end ObjectKind

/-! ### Queries -/

namespace Extraction

def anything : Reading Unit
  | _, _ => some ()

def something : Reading Unit
  | _, after => if after = [] then none else some ()

/-- The word SELECT at a place, with what is read behind it. -/
def selectAt (f : Reading Unit) : Reading Unit :=
  (f.edge.behind "SELECT".toList).edge

theorem find_createSelect (t : Text) :
    (createSelect.find t).map (fun _ => ()) =
      ((((selectAt anything).last inLine).step inLine).behind "CREATE".toList).first
        [] t := by
  have hmatch : ∀ before after : Text,
      (createSelect.matchAt? ⟨before, after⟩).map (fun _ => ()) =
        (((selectAt anything).last inLine).step inLine).behind "CREATE".toList before
          after := by
    intro before after
    have hend : ∀ a : Attempt, (some a).map (fun _ => ()) = anything a.before a.after :=
      fun _ => rfl
    have hselect := map_run_wordEdge (map_run_keyword (map_run_wordEdge hend) "SELECT".toList)
    have hrun := map_run_keyword (map_run_one (map_run_asFew hselect inLine) inLine)
      "CREATE".toList (.start ⟨before, after⟩)
    rw [matchAt?, Option.map_map]
    exact hrun
  rw [find, findFrom, map_findBetween]
  simp only [hmatch]
  rfl

theorem matchAt?_selectTail (before after : Text) :
    (selectTail.matchAt? ⟨before, after⟩).map (fun _ => ()) =
      selectAt something before after := by
  have hend : ∀ (opened : Nat) (a : Attempt),
      ((someOf anyChar).run a fun b => some (b.close opened)).map (fun _ => ()) =
        something a.before a.after := by
    intro opened a
    have hall : a.after.takeWhile anyChar = a.after :=
      List.takeWhile_eq_self_iff.mpr fun _ _ => rfl
    rw [run_someOf_eq, hall, something]
    split <;> rfl
  have hgroup : ∀ a : Attempt, ((Pattern.group (keyword "SELECT".toList ++ wordEdge
      ++ someOf anyChar)).run a some).map (fun _ => ()) =
        something.edge.behind "SELECT".toList a.before a.after :=
    fun a => map_run_keyword (map_run_wordEdge (hend a.passed)) "SELECT".toList a
  rw [matchAt?, Option.map_map]
  exact map_run_wordEdge hgroup (.start ⟨before, after⟩)

theorem blind_selectAt {f : Reading Unit} {p b b' s : Text} (hnear : f.Near)
    (hfront : ∀ (before : Text) {x : Text}, x <:+ p →
      f before (x ++ '\'' :: (b ++ '\'' :: s)) = f before (x ++ '\'' :: (b' ++ '\'' :: s)))
    (hb : Lacks ["SELECT".toList] b) (hb' : Lacks ["SELECT".toList] b') :
    (selectAt f).Blind p b b' s := by
  have hnone : ∀ {b : Text}, Lacks ["SELECT".toList] b → ∀ (before : Text) {x : Text}, x <:+ b →
      selectAt f before (x ++ '\'' :: s) = none := by
    intro b hb before x hx
    have hstart : ¬ "SELECT".toList.map foldLetter <+: x.map foldLetter := fun hstart =>
      hb _ List.mem_cons_self (hstart.isInfix.trans (hx.isInfix.map foldLetter))
    rw [selectAt, Reading.edge, Reading.behind_eq_none (by decide) hstart, ite_self]
  refine ⟨(hnear.edge.behind _).edge, ?_, hnone hb, hnone hb'⟩
  exact Reading.edge_front (Reading.behind_front (by decide) (Reading.edge_front hfront))

theorem definingQuery?_map {α : Type} (g : Text → α) (t : Text) :
    (definingQuery? t).map g =
      if createSelect.occursIn t then (selectTail.find t).map fun h => g (h.group 0) else none := by
  rw [definingQuery?]
  split
  · exact Option.map_map _ _ _
  · rfl

/-- The tables of a data definition are those of the query in it, or the one that it names. -/
theorem tablesOf_definition {verb : DefinitionVerb} {t : Text}
    (hverb : DefinitionVerb.ofStatement? t = some verb) :
    tablesOf t = if (databaseBehind verb).occursIn (existenceClause.removeAll t) then []
      else ((definingQuery? (existenceClause.removeAll t)).map tablesOf).getD
        ((tableName.find (existenceClause.removeAll t)).map (·.group 0)).toList := by
  rw [tablesOf, ofStatement_of_verb hverb, ofDefinition]
  split
  · rfl
  · cases definingQuery? (existenceClause.removeAll t) with
    | some query => rfl
    | none => cases (tableName.find (existenceClause.removeAll t)).map (·.group 0) <;> rfl

/-- The tables of a query do not depend on a literal in it. -/
theorem tablesOf_query_around {x b b' s : Text} (hx : ∀ c ∈ x, Harmless c) (hb : ∀ c ∈ b, Harmless c)
    (hb' : ∀ c ∈ b', Harmless c) (hopens : OpensQuery (x ++ '\'' :: (b ++ '\'' :: s))) :
    tablesOf (x ++ '\'' :: (b ++ '\'' :: s)) = tablesOf (x ++ '\'' :: (b' ++ '\'' :: s)) := by
  -- The text opens with SELECT behind white space, so that no verb stands in front of the quote.
  have hddl : DefinitionVerb.ofStatement? (x ++ ['\'']) = none := by
    refine Option.eq_none_iff_forall_ne_some.mpr fun verb hverb => ?_
    have hverb' := opens_around hverb b s
    rw [hopens.ofStatement?_eq_none] at hverb'
    cases hverb'
  have htables := tablesOf_single hx hddl hb hb' s
  simpa using htables

/-- The tables of a query that starts at a place. -/
def queryTablesAt : Reading (List Text)
  | before, after => (selectTail.matchAt? ⟨before, after⟩).map fun h => tablesOf (h.group 0)

theorem queryTablesAt_eq (before after : Text) :
    queryTablesAt before after = (selectAt something before after).map fun _ => tablesOf after := by
  rw [queryTablesAt, ← matchAt?_selectTail, Option.map_map]
  exact Option.map_congr fun h hmatch => congrArg tablesOf (group_selectTail hmatch).1

theorem blind_queryTablesAt {p b b' s : Text} (hp : ∀ c ∈ p, Harmless c) (hb : ∀ c ∈ b, Harmless c)
    (hb' : ∀ c ∈ b', Harmless c) (hlacks : Lacks ["SELECT".toList] b)
    (hlacks' : Lacks ["SELECT".toList] b') :
    queryTablesAt.Blind p b b' s := by
  have hblind : (selectAt something).Blind p b b' s := by
    refine blind_selectAt (fun _ _ _ _ => rfl) ?_ hlacks hlacks'
    intro before x _
    rw [something, something, if_neg (by simp), if_neg (by simp)]
  refine ⟨?_, ?_, ?_, ?_⟩
  · intro before before' hbefore t
    rw [queryTablesAt_eq, queryTablesAt_eq, hblind.near before before' hbefore t]
  · intro before x hx
    rw [queryTablesAt_eq, queryTablesAt_eq, ← hblind.front before hx]
    refine Option.map_congr fun u hu => ?_
    rw [← matchAt?_selectTail] at hu
    obtain ⟨h, hmatch, _⟩ := Option.map_eq_some_iff.mp hu
    exact tablesOf_query_around (fun c hc => hp c (hx.subset hc)) hb hb' (group_selectTail hmatch).2
  · intro before x hx
    rw [queryTablesAt_eq, hblind.body before hx, Option.map_none]
  · intro before x hx
    rw [queryTablesAt_eq, hblind.body' before hx, Option.map_none]

end Extraction

/-! ### Definitions with a literal -/

namespace Unread

variable {b b' : Text} (hb : Unread b) (hb' : Unread b')

include hb

theorem backquote : Identifier.backquote ∉ b :=
  fun hmem => (hb.chars _ hmem).2.2.1 rfl

theorem harmless : ∀ c ∈ b, Extraction.Harmless c :=
  fun c hc => ⟨(hb.chars c hc).1, (hb.chars c hc).2.1, (hb.chars c hc).2.2.2.1⟩

theorem inLine : ∀ c ∈ b, Pattern.inLine c = true :=
  fun c hc => bne_iff_ne.mpr (hb.chars c hc).2.2.2.2

theorem lacks_of_subset {ks : List Text} (h : ∀ k ∈ ks, k ∈ definitionKeywords) : Lacks ks b :=
  fun k hk => hb.lacks k (h k hk)

include hb'

section

variable {p s : Text}

theorem occursIn_databaseBehind (verb : DefinitionVerb) :
    (Extraction.databaseBehind verb).occursIn (p ++ '\'' :: (b ++ '\'' :: s)) =
      (Extraction.databaseBehind verb).occursIn (p ++ '\'' :: (b' ++ '\'' :: s)) := by
  have hneeds : ∀ {before t : Text} {h : Hit},
      (Extraction.databaseBehind verb).matchAt? ⟨before, t⟩ = some h →
        ∃ k ∈ ["DATABASE".toList], k <:+: t.map foldLetter := by
    intro before t h hmatch
    obtain ⟨a, hrun, _⟩ := matchAt?_eq_some hmatch
    have hwithin := infix_of_run hrun
    exact ⟨_, List.mem_cons_self, (List.suffix_cons ' ' "DATABASE".toList).isInfix.trans hwithin⟩
  have hblind : Reading.Blind p b b' s fun before after =>
      ((Extraction.databaseBehind verb).matchAt? ⟨before, after⟩).map fun _ => () :=
    Reading.blind_of_near (by simp [Extraction.databaseBehind]) (by cases verb <;> decide)
      (by decide) hneeds (hb.lacks_of_subset (by decide)) (hb'.lacks_of_subset (by decide))
      fun _ => ()
  have hfind := congrArg Option.isSome hblind.find_around
  rwa [Option.isSome_map, Option.isSome_map] at hfind

theorem occursIn_createSelect :
    Extraction.createSelect.occursIn (p ++ '\'' :: (b ++ '\'' :: s)) =
      Extraction.createSelect.occursIn (p ++ '\'' :: (b' ++ '\'' :: s)) := by
  have hselect : (Extraction.selectAt Extraction.anything).Blind p b b' s :=
    Extraction.blind_selectAt (fun _ _ _ _ => rfl) (fun _ _ _ => rfl)
      (hb.lacks_of_subset (by decide)) (hb'.lacks_of_subset (by decide))
  have hline := hselect.behind_line (by decide) hb.inLine hb'.inLine (k := "CREATE".toList)
    (by decide) (hb.lacks _ (by decide)) (hb'.lacks _ (by decide))
  have hfind := congrArg Option.isSome (hline.first_eq [])
  rwa [← Extraction.find_createSelect, ← Extraction.find_createSelect, Option.isSome_map,
    Option.isSome_map] at hfind

theorem find_nameBehind {ks : List Text} (hks : Apart ks)
    (hwords : ∀ k ∈ ks, k ∈ definitionKeywords) (hp : Identifier.backquote ∉ p)
    (hs : Identifier.backquote ∉ s) :
    ((nameBehind ks).find (p ++ '\'' :: (b ++ '\'' :: s))).map (·.group 0) =
      ((nameBehind ks).find (p ++ '\'' :: (b' ++ '\'' :: s))).map (·.group 0) :=
  Reading.Blind.find_around (blind_nameAt hks (hb.lacks_of_subset hwords)
    (hb'.lacks_of_subset hwords) hp hb.backquote hb'.backquote hs)

theorem definingQuery?_around (hp : ∀ c ∈ p, Extraction.Harmless c) :
    (Extraction.definingQuery? (p ++ '\'' :: (b ++ '\'' :: s))).map tablesOf =
      (Extraction.definingQuery? (p ++ '\'' :: (b' ++ '\'' :: s))).map tablesOf := by
  have hquery := (Extraction.blind_queryTablesAt (s := s) hp hb.harmless hb'.harmless
    (hb.lacks_of_subset (by decide)) (hb'.lacks_of_subset (by decide))).find_around
  rw [Extraction.definingQuery?_map, Extraction.definingQuery?_map,
    hb.occursIn_createSelect hb', hquery]

end

section

variable {verb : DefinitionVerb} {p s : Text}
  (hp : ∀ c ∈ p, c ≠ '\'' ∧ c ≠ '"' ∧ c ≠ '\x60' ∧ c ≠ '\\') (hs : Identifier.backquote ∉ s)
  (hverb : DefinitionVerb.ofStatement? (p ++ ['\'']) = some verb)

include hp hs hverb

theorem tablesOf_around :
    tablesOf (p ++ '\'' :: (b ++ '\'' :: s)) = tablesOf (p ++ '\'' :: (b' ++ '\'' :: s)) := by
  have hnear : Extraction.existenceClause.Near := by simp [Extraction.existenceClause]
  obtain ⟨p', s', hp', hs', hplain⟩ := replaceAll_lacking hnear (by decide) (by decide)
    Existence.exists_infix_of_match [] p s
  have hclean : ∀ {d : Text}, Unread d →
      Extraction.existenceClause.removeAll (p ++ '\'' :: (d ++ '\'' :: s)) =
        p' ++ '\'' :: (d ++ '\'' :: s') := fun hd => hplain _ (hd.lacks_of_subset (by decide))
  have hfront : ∀ c ∈ p', c ≠ '\'' ∧ c ≠ '"' ∧ c ≠ '\x60' ∧ c ≠ '\\' := fun c hc =>
    hp c ((hp' c hc).resolve_right List.not_mem_nil)
  have hquotes : Identifier.backquote ∉ p' := fun hmem => (hfront _ hmem).2.2.1 rfl
  have hquotes' : Identifier.backquote ∉ s' := fun hmem =>
    hs ((hs' _ hmem).resolve_right List.not_mem_nil)
  have hquery := hb.definingQuery?_around hb' (s := s')
    fun c hc => ⟨(hfront c hc).1, (hfront c hc).2.1, (hfront c hc).2.2.2⟩
  have hword : Apart ["TABLE".toList] := by decide
  have hname := hb.find_nameBehind hb' hword (by decide) hquotes hquotes'
  rw [Extraction.tablesOf_definition (opens_around hverb b s),
    Extraction.tablesOf_definition (opens_around hverb b' s), hclean hb, hclean hb',
    hb.occursIn_databaseBehind hb', hquery, tableName_eq, hname]

theorem ofStatement_around (hmarked : Comment.Unmarked p) (hmarked' : Comment.Unmarked s) :
    Classification.ofStatement (p ++ '\'' :: (b ++ '\'' :: s)) =
      Classification.ofStatement (p ++ '\'' :: (b' ++ '\'' :: s)) := by
  have hnear : Classification.existenceClause.Near := by simp [Classification.existenceClause]
  obtain ⟨p', s', hp', hs', hplain⟩ := replaceAll_lacking hnear (by decide) (by decide)
    Existence.exists_infix_of_spaced [' '] p s
  have hspace : ∀ c ∈ [' '], c ≠ Identifier.backquote := by decide
  have hquotes : Identifier.backquote ∉ p' := fun hmem =>
    (hp' _ hmem).elim (fun hmem => (hp _ hmem).2.2.1 rfl) fun hmem => hspace _ hmem rfl
  have hquotes' : Identifier.backquote ∉ s' := fun hmem =>
    (hs' _ hmem).elim hs fun hmem => hspace _ hmem rfl
  have hclass : ∀ {d : Text}, Unread d →
      Classification.ofStatement (p ++ '\'' :: (d ++ '\'' :: s)) =
        .definition verb (ObjectKind.ofStatement? verb (p' ++ '\'' :: (d ++ '\'' :: s')))
          (((Classification.namedObject.find (p' ++ '\'' :: (d ++ '\'' :: s'))).map
            (·.group 0)).getD []) := fun hd =>
    Classification.ofStatement_of_definition (opens_around hverb _ s)
      (hmarked.quote (hd.unmarked.quote hmarked')) (hplain _ (hd.lacks_of_subset (by decide)))
  have hkind : ∀ {d : Text}, Unread d →
      Lacks (verb.keyword :: ObjectKind.all.map ObjectKind.keyword) d := fun hd =>
    hd.lacks_of_subset (by cases verb <;> decide)
  have hwords : Apart ["TABLE".toList, "DATABASE".toList] := by decide
  have hname := hb.find_nameBehind hb' hwords (by decide) hquotes hquotes'
  rw [hclass hb, hclass hb', namedObject_eq, hname,
    ObjectKind.ofStatement?_around (hkind hb) (hkind hb') hb.inLine hb'.inLine]

end

end Unread

/-- Data definitions that differ in one literal share a fingerprint if neither literal has a line
feed or a quote of any kind in it, opens a comment there or spells a word that a definition is read
for. -/
theorem fingerprint_eq_of_unread {verb : DefinitionVerb} {p s b₁ b₂ : Text}
    (hp : ∀ c ∈ p, c ≠ '\'' ∧ c ≠ '"' ∧ c ≠ '\x60' ∧ c ≠ '\\') (hp' : Comment.Unmarked p)
    (hs : Identifier.backquote ∉ s) (hs' : Comment.Unmarked s) (hb₁ : Unread b₁) (hb₂ : Unread b₂)
    (hverb : DefinitionVerb.ofStatement? (p ++ ['\'']) = some verb) :
    fingerprint (p ++ '\'' :: b₁ ++ '\'' :: s) = fingerprint (p ++ '\'' :: b₂ ++ '\'' :: s) := by
  have hshape : ∀ b : Text, p ++ '\'' :: b ++ '\'' :: s = p ++ '\'' :: (b ++ '\'' :: s) := by
    simp
  rw [hshape, hshape, fingerprint, fingerprint, hb₁.ofStatement_around hb₂ hp hs hverb hp' hs',
    hb₁.tablesOf_around hb₂ hp hs hverb]

-- A literal that spells TABLE is read for the kind.
example : fingerprint "create database d comment 'table t'".toList = "CREATE TABLE d".toList := by
  decide +kernel

end QueryDigest
