import QueryDigest.Proofs.Pattern.Locality

/-!
Outlines of a search: the characters outside all matches and the texts of the matches, without
their places. The outline of a text falls apart at every character that no match can take, and what
is written for the matches of a pattern depends on the outline only.
-/

namespace QueryDigest.Pattern

/-- A character outside all matches, or what has been found in a match. -/
abbrev Part := Char ⊕ (Text × List (Nat × Nat))

def Piece.part : Piece → Part
  | .kept c => .inl c
  | .hit h => .inr h.found

/-- The outline of a text, the next `inside` characters of which belong to an earlier match. -/
def outlineFrom (p : Pattern) (inside : Nat) (before after : Text) : List Part :=
  (p.piecesFrom [] inside before after).map Piece.part

def outline (p : Pattern) (t : Text) : List Part :=
  p.outlineFrom 0 [] t

theorem piecesFrom_append (p : Pattern) (done : List Piece) (inside : Nat)
    (before after : Text) :
    p.piecesFrom done inside before after =
      done.reverse ++ p.piecesFrom [] inside before after := by
  induction after generalizing done inside before with
  | nil => simp [piecesFrom]
  | cons c rest ih =>
      cases inside with
      | succ inside =>
          rw [piecesFrom, piecesFrom]
          exact ih done inside (c :: before)
      | zero =>
          rw [piecesFrom, piecesFrom]
          split
          · rw [ih, ih [_], List.reverse_cons, List.append_assoc]
            rfl
          · rw [ih, ih [_], List.reverse_cons, List.append_assoc]
            rfl

@[simp] theorem outlineFrom_nil (p : Pattern) (inside : Nat) (before : Text) :
    p.outlineFrom inside before [] = [] := by
  cases inside <;> rfl

@[simp] theorem outlineFrom_inside (p : Pattern) (inside : Nat) (before : Text) (c : Char)
    (rest : Text) :
    p.outlineFrom (inside + 1) before (c :: rest) = p.outlineFrom inside (c :: before) rest :=
  rfl

theorem outlineFrom_skip (p : Pattern) (u before v : Text) :
    p.outlineFrom u.length before (u ++ v) = p.outlineFrom 0 (u.reverse ++ before) v := by
  induction u generalizing before with
  | nil => rfl
  | cons c u ih =>
      rw [List.length_cons, List.cons_append, outlineFrom_inside, ih, List.reverse_cons,
        List.append_assoc, List.singleton_append]

theorem outlineFrom_kept {p : Pattern} {before rest : Text} {c : Char}
    (h : ∀ hit, p.matchAt? ⟨before, c :: rest⟩ = some hit → hit.text = []) :
    p.outlineFrom 0 before (c :: rest) = .inl c :: p.outlineFrom 0 (c :: before) rest := by
  rw [outlineFrom, piecesFrom]
  split
  · rename_i start length groups hmatch
    have hlength := (matchAt?_text hmatch).2.1
    rw [h _ hmatch] at hlength
    cases hlength
  · rw [piecesFrom_append]
    rfl

theorem outlineFrom_hit {p : Pattern} {before rest : Text} {c : Char} {h : Hit}
    (hmatch : p.matchAt? ⟨before, c :: rest⟩ = some h) {d : Char} {text : Text}
    (htext : h.text = d :: text) :
    p.outlineFrom 0 before (c :: rest) =
      .inr h.found :: p.outlineFrom text.length (c :: before) rest := by
  have hlength := (matchAt?_text hmatch).2.1
  obtain ⟨start, length, groups⟩ := h
  rw [htext, List.length_cons] at hlength
  obtain rfl : length = text.length + 1 := hlength.symm
  rw [outlineFrom, piecesFrom, hmatch]
  simp only []
  rw [piecesFrom_append, List.map_append]
  rfl

theorem kept_or_hit (p : Pattern) (place : Cursor) :
    (∀ h, p.matchAt? place = some h → h.text = []) ∨
      ∃ h d text, p.matchAt? place = some h ∧ h.text = d :: text := by
  cases hmatch : p.matchAt? place with
  | none =>
      refine Or.inl ?_
      intro h hh
      cases hh
  | some h =>
      cases htext : h.text with
      | nil =>
          refine Or.inl ?_
          rintro _ ⟨⟩
          exact htext
      | cons d text => exact Or.inr ⟨h, d, text, rfl, htext⟩

theorem Hit.text_eq_of_found {h k : Hit} (hfound : h.found = k.found) : h.text = k.text :=
  congrArg Prod.fst hfound

section

variable {p : Pattern} {Q : Hit → Prop} {x y : Option Hit}

theorem kept_of_rel (hrel : Option.Rel (fun h k => h.found = k.found ∧ Q h) x y)
    (hx : ∀ h, x = some h → h.text = []) (k : Hit) (hk : y = some k) : k.text = [] := by
  subst hk
  cases hrel with
  | some hfound => exact Hit.text_eq_of_found hfound.1 ▸ hx _ rfl

theorem none_of_rel (hrel : Option.Rel (fun h k => h.found = k.found ∧ Q h) x y)
    (hx : x = none) : y = none := by
  subst hx
  cases hrel with
  | none => rfl

theorem hit_of_rel (hrel : Option.Rel (fun h k => h.found = k.found ∧ Q h) x y) {h : Hit}
    (hx : x = some h) : ∃ k, y = some k ∧ h.found = k.found ∧ Q h := by
  subst hx
  cases hrel with
  | some hfound => exact ⟨_, rfl, hfound⟩

end

/-! ### Equal surroundings -/

section

variable {p : Pattern} (hp : p.Near)

include hp

theorem outlineFrom_before (inside : Nat) (before before' : Text)
    (h : before.head? = before'.head?) (after : Text) :
    p.outlineFrom inside before after = p.outlineFrom inside before' after := by
  induction after generalizing inside before before' with
  | nil => rw [outlineFrom_nil, outlineFrom_nil]
  | cons c rest ih =>
      cases inside with
      | succ inside => exact ih inside _ _ rfl
      | zero =>
          have hrel := matchAt?_sameUpTo hp (avoids_nil p) h (Eq.refl (Text.upTo [] (c :: rest)))
          obtain hkept | ⟨hit, d, text, hmatch, htext⟩ := kept_or_hit p ⟨before, c :: rest⟩
          · rw [outlineFrom_kept hkept, outlineFrom_kept (kept_of_rel hrel hkept),
              ih 0 (c :: before) (c :: before') rfl]
          · obtain ⟨hit', hmatch', hfound, _⟩ := hit_of_rel hrel hmatch
            rw [outlineFrom_hit hmatch htext, hfound,
              outlineFrom_hit hmatch' (Hit.text_eq_of_found hfound ▸ htext),
              ih _ (c :: before) (c :: before') rfl]

variable {stops : Text} (havoid : p.avoids stops = true) {x : Char} (hx : x ∈ stops)

include havoid hx

/-- A match that starts in front of a stop ends there. -/
theorem hit_within {before u v : Text} {h : Hit}
    (hmatch : p.matchAt? ⟨before, u ++ x :: v⟩ = some h) : h.text <+: u := by
  have hrel := matchAt?_sameUpTo hp havoid (rfl : before.head? = _)
    (Eq.refl (Text.upTo stops (u ++ x :: v)))
  obtain ⟨_, _, _, hstops⟩ := hit_of_rel hrel hmatch
  have hafter : u ++ x :: v = h.text ++ h.stop.after := (matchAt?_text hmatch).2.2
  obtain ⟨more, hmore, _⟩ := Text.split_before hafter fun hmem => hstops x hmem hx
  exact ⟨more, hmore.symm⟩

/-- The outline of a text falls apart behind a stop. -/
theorem outlineFrom_append {inside : Nat} (before : Text) {u : Text}
    (hinside : inside ≤ u.length) (v : Text) :
    p.outlineFrom inside before (u ++ x :: v) =
      p.outlineFrom inside before (u ++ [x]) ++ p.outlineFrom 0 [x] v := by
  induction u generalizing inside before with
  | nil =>
      obtain rfl : inside = 0 := Nat.le_zero.mp hinside
      have hkept : ∀ rest h, p.matchAt? ⟨before, x :: rest⟩ = some h → h.text = [] := by
        intro rest h hmatch
        exact List.prefix_nil.mp (hit_within hp havoid hx (u := []) hmatch)
      rw [List.nil_append, List.nil_append, outlineFrom_kept (hkept v), outlineFrom_kept (hkept []),
        outlineFrom_nil, outlineFrom_before hp 0 (x :: before) [x] rfl]
      rfl
  | cons c u ih =>
      cases inside with
      | succ inside => exact ih (c :: before) (Nat.le_of_succ_le_succ hinside)
      | zero =>
          have hupTo : Text.upTo stops (c :: (u ++ x :: v)) = Text.upTo stops (c :: (u ++ [x])) :=
            Text.upTo_append hx (c :: u) v
          have hrel := matchAt?_sameUpTo hp havoid (rfl : before.head? = _) hupTo
          obtain hkept | ⟨hit, d, text, hmatch, htext⟩ :=
            kept_or_hit p ⟨before, c :: (u ++ x :: v)⟩
          · have hkept' := kept_of_rel hrel hkept
            rw [List.cons_append, List.cons_append, outlineFrom_kept hkept,
              outlineFrom_kept hkept', ih _ (Nat.zero_le _)]
            rfl
          · obtain ⟨hit', hmatch', hfound, _⟩ := hit_of_rel hrel hmatch
            have hlength := (hit_within hp havoid hx (u := c :: u) hmatch).length_le
            rw [htext, List.length_cons, List.length_cons] at hlength
            rw [List.cons_append, List.cons_append, outlineFrom_hit hmatch htext, hfound,
              outlineFrom_hit hmatch' (Hit.text_eq_of_found hfound ▸ htext),
              ih _ (Nat.le_of_succ_le_succ hlength)]
            rfl

theorem outlineFrom_stop {inside : Nat} (before : Text) {u : Text}
    (hinside : inside ≤ u.length) :
    ∃ parts, p.outlineFrom inside before (u ++ [x]) = parts ++ [.inl x] := by
  induction u generalizing inside before with
  | nil =>
      obtain rfl : inside = 0 := Nat.le_zero.mp hinside
      have hkept : ∀ h, p.matchAt? ⟨before, [x]⟩ = some h → h.text = [] := by
        intro h hmatch
        exact List.prefix_nil.mp (hit_within hp havoid hx (u := []) hmatch)
      refine ⟨[], ?_⟩
      rw [List.nil_append, outlineFrom_kept hkept, outlineFrom_nil]
      rfl
  | cons c u ih =>
      cases inside with
      | succ inside => exact ih (c :: before) (Nat.le_of_succ_le_succ hinside)
      | zero =>
          obtain hnone | ⟨hit, d, text, hmatch, htext⟩ :=
            kept_or_hit p ⟨before, c :: (u ++ [x])⟩
          · obtain ⟨parts, houtline⟩ := ih (c :: before) (Nat.zero_le _)
            refine ⟨.inl c :: parts, ?_⟩
            rw [List.cons_append, outlineFrom_kept hnone, houtline]
            rfl
          · have hlength := (hit_within hp havoid hx (u := c :: u) hmatch).length_le
            rw [htext, List.length_cons, List.length_cons] at hlength
            obtain ⟨parts, houtline⟩ := ih (c :: before) (Nat.le_of_succ_le_succ hlength)
            refine ⟨.inr hit.found :: parts, ?_⟩
            rw [List.cons_append, outlineFrom_hit hmatch htext, houtline]
            rfl

end

/-! ### Texts without a match -/

theorem outlineFrom_of_no_match {p : Pattern} {u : Text} (before v : Text)
    (h : ∀ u₁ c u₂, u = u₁ ++ c :: u₂ →
      p.matchAt? ⟨u₁.reverse ++ before, c :: (u₂ ++ v)⟩ = none) :
    p.outlineFrom 0 before (u ++ v) =
      u.map .inl ++ p.outlineFrom 0 (u.reverse ++ before) v := by
  induction u generalizing before with
  | nil => rfl
  | cons c u ih =>
      have hkept : ∀ hit, p.matchAt? ⟨before, c :: (u ++ v)⟩ = some hit → hit.text = [] := by
        intro hit hmatch
        have hnone : p.matchAt? ⟨before, c :: (u ++ v)⟩ = none := h [] c u rfl
        rw [hnone] at hmatch
        cases hmatch
      have hrest : ∀ u₁ d u₂, u = u₁ ++ d :: u₂ →
          p.matchAt? ⟨u₁.reverse ++ c :: before, d :: (u₂ ++ v)⟩ = none := by
        intro u₁ d u₂ hu
        have hnone := h (c :: u₁) d u₂ (by rw [hu, List.cons_append])
        rwa [List.reverse_cons, List.append_assoc] at hnone
      rw [List.cons_append, outlineFrom_kept hkept, ih (c :: before) hrest, List.map_cons,
        List.cons_append, List.reverse_cons, List.append_assoc]
      rfl

/-! ### Replacements -/

/-- Outlined parts as a text, with `f` of what has been found in the place of each match. -/
def write (f : Text × List (Nat × Nat) → Text) (parts : List Part) : Text :=
  parts.flatMap (Sum.elim (fun c => [c]) f)

section

variable (f : Text × List (Nat × Nat) → Text)

@[simp] theorem write_nil : write f [] = [] :=
  rfl

@[simp] theorem write_kept (c : Char) (parts : List Part) :
    write f (.inl c :: parts) = c :: write f parts :=
  rfl

@[simp] theorem write_found (found : Text × List (Nat × Nat)) (parts : List Part) :
    write f (.inr found :: parts) = f found ++ write f parts :=
  rfl

@[simp] theorem write_append (parts parts' : List Part) :
    write f (parts ++ parts') = write f parts ++ write f parts' :=
  List.flatMap_append

@[simp] theorem write_map_kept (t : Text) : write f (t.map .inl) = t := by
  induction t with
  | nil => rfl
  | cons c t ih => rw [List.map_cons, write_kept, ih]

end

theorem replaceAll_eq_write (p : Pattern) {f : Hit → Text} {g : Text × List (Nat × Nat) → Text}
    (h : ∀ hit, f hit = g hit.found) (t : Text) :
    p.replaceAll f t = write g (p.outline t) := by
  rw [replaceAll, write, outline, outlineFrom, List.flatMap_map]
  congr
  funext piece
  cases piece with
  | kept c => rfl
  | hit hit => exact h hit

/-- The parts of an outline are the text, cut into pieces. -/
theorem write_outlineFrom (p : Pattern) (inside : Nat) (before after : Text) :
    write Prod.fst (p.outlineFrom inside before after) = after.drop inside := by
  induction after generalizing inside before with
  | nil => rw [outlineFrom_nil, List.drop_nil, write_nil]
  | cons c rest ih =>
      cases inside with
      | succ inside => exact ih inside (c :: before)
      | zero =>
          obtain hkept | ⟨h, d, text, hmatch, htext⟩ := kept_or_hit p ⟨before, c :: rest⟩
          · rw [outlineFrom_kept hkept, write_kept, ih]
            rfl
          · obtain ⟨_, _, hafter⟩ := matchAt?_text hmatch
            rw [htext] at hafter
            have hd : c = d := (List.cons.inj hafter).1
            have hrest : rest = text ++ h.stop.after := (List.cons.inj hafter).2
            rw [outlineFrom_hit hmatch htext, write_found, ih, hrest, List.drop_left, Hit.found,
              htext, hd]
            rfl

theorem mem_write_const {r : Text} {parts : List Part} {c : Char}
    (h : c ∈ write (fun _ => r) parts) : c ∈ write Prod.fst parts ∨ c ∈ r := by
  induction parts with
  | nil => exact absurd h List.not_mem_nil
  | cons part parts ih =>
      cases part with
      | inl d =>
          rw [write_kept] at h ⊢
          obtain rfl | h := List.mem_cons.mp h
          · exact Or.inl List.mem_cons_self
          · exact (ih h).imp_left (List.mem_cons_of_mem d)
      | inr found =>
          rw [write_found] at h ⊢
          obtain h | h := List.mem_append.mp h
          · exact Or.inr h
          · exact (ih h).imp_left (List.mem_append_right found.1)

/-- Replacing matches by one and the same text changes what stands in front of a stop and what
stands behind it apart from each other. -/
theorem write_stop {p : Pattern} (hp : p.Near) (stops : Text) (havoid : p.avoids stops = true)
    {x : Char} (hx : x ∈ stops) (r before u : Text) :
    ∃ u', (∀ c ∈ u', c ∈ u ∨ c ∈ r) ∧ ∀ v,
      write (fun _ => r) (p.outlineFrom 0 before (u ++ x :: v)) =
        u' ++ x :: write (fun _ => r) (p.outlineFrom 0 [x] v) := by
  obtain ⟨parts, hparts⟩ := outlineFrom_stop hp havoid hx before (Nat.zero_le u.length)
  have htext : write Prod.fst parts = u := by
    have hwrite := write_outlineFrom p 0 before (u ++ [x])
    rw [hparts, write_append] at hwrite
    exact List.append_cancel_right hwrite
  refine ⟨write (fun _ => r) parts, ?_, ?_⟩
  · intro c hc
    rw [← htext]
    exact mem_write_const hc
  · intro v
    rw [outlineFrom_append hp havoid hx before (Nat.zero_le u.length), hparts, write_append,
      write_append, List.append_assoc]
    rfl

theorem replaceAll_const (p : Pattern) (r t : Text) :
    p.replaceAll (fun _ => r) t = write (fun _ => r) (p.outlineFrom 0 [] t) :=
  replaceAll_eq_write p (g := fun _ => r) (fun _ => rfl) t

theorem replaceAll_of_no_match {p : Pattern} {t : Text}
    (h : ∀ u c v, t = u ++ c :: v → p.matchAt? ⟨u.reverse, c :: v⟩ = none) (r : Text) :
    p.replaceAll (fun _ => r) t = t := by
  have hnone : ∀ u c v, t = u ++ c :: v → p.matchAt? ⟨u.reverse ++ [], c :: (v ++ [])⟩ = none := by
    intro u c v ht
    rw [List.append_nil, List.append_nil]
    exact h u c v ht
  have houtline := outlineFrom_of_no_match [] [] hnone
  rw [List.append_nil, outlineFrom_nil, List.append_nil] at houtline
  rw [replaceAll_const, houtline, write_map_kept]

theorem piecesFrom_skip (p : Pattern) (before u rest : Text) :
    p.piecesFrom [] u.length before (u ++ rest) = p.piecesFrom [] 0 (u.reverse ++ before) rest := by
  induction u generalizing before with
  | nil => rfl
  | cons c u ih =>
      rw [List.reverse_cons, List.append_assoc]
      exact ih (c :: before)

theorem piecesFrom_hit {p : Pattern} {before after : Text} {h : Hit}
    (hmatch : p.matchAt? ⟨before, after⟩ = some h) (hlength : h.length ≠ 0) :
    p.piecesFrom [] 0 before after = .hit h :: p.piecesFrom [] 0 h.stop.before h.stop.after := by
  obtain ⟨hstart, htext, hafter⟩ := matchAt?_text hmatch
  obtain ⟨c, w, hw⟩ : ∃ c w, h.text = c :: w :=
    List.exists_cons_of_ne_nil (fun hnil => hlength (by rw [← htext, hnil]; rfl))
  rw [hw] at htext hafter
  generalize hrest : h.stop.after = rest at hafter
  change after = c :: (w ++ rest) at hafter
  subst hafter
  have hstop : h.stop.before = w.reverse ++ c :: before := by
    rw [Hit.stop, Cursor.skip, ← htext, hstart]
    simp
  obtain ⟨start, length, groups⟩ := h
  obtain rfl : length = w.length + 1 := htext.symm
  rw [hstop, piecesFrom, hmatch]
  simp only []
  rw [piecesFrom_append, piecesFrom_skip]
  rfl

/-- What a text comes to from a place on when its matches are replaced. -/
def replaceFrom (p : Pattern) (f : Hit → Text) (before after : Text) : Text :=
  (p.piecesFrom [] 0 before after).flatMap fun
    | .kept c => [c]
    | .hit h => f h

theorem replaceFrom_nil (p : Pattern) (f : Hit → Text) (before : Text) :
    p.replaceFrom f before [] = [] :=
  rfl

theorem replaceAll_eq_replaceFrom (p : Pattern) (f : Hit → Text) (t : Text) :
    p.replaceAll f t = p.replaceFrom f [] t :=
  rfl

theorem replaceFrom_hit {p : Pattern} {before u rest : Text} {h : Hit}
    (hmatch : p.matchAt? ⟨before, u ++ rest⟩ = some h) (hne : u ≠ [])
    (hlength : h.length = u.length) (f : Hit → Text) :
    p.replaceFrom f before (u ++ rest) = f h ++ p.replaceFrom f (u.reverse ++ before) rest := by
  have hmoves : h.length ≠ 0 := hlength ▸ mt List.length_eq_zero_iff.mp hne
  have hstop : h.stop = ⟨u.reverse ++ before, rest⟩ := by
    rw [Hit.stop, (matchAt?_text hmatch).1, hlength]
    simp [Cursor.skip]
  rw [replaceFrom, piecesFrom_hit hmatch hmoves, hstop]
  rfl

/-- A match of the whole of a text is replaced as a whole. -/
theorem replaceAll_whole {p : Pattern} {t : Text} {h : Hit}
    (hmatch : p.matchAt? (.start t) = some h) (hne : t ≠ []) (hlength : h.length = t.length)
    (f : Hit → Text) : p.replaceAll f t = f h := by
  have hhit : p.replaceFrom f [] (t ++ []) = f h ++ p.replaceFrom f (t.reverse ++ []) [] :=
    replaceFrom_hit (by rwa [List.append_nil]) hne hlength f
  rwa [List.append_nil, replaceFrom_nil, List.append_nil] at hhit

theorem removeAll_sublist (p : Pattern) (t : Text) : (p.removeAll t).Sublist t := by
  have hparts : ∀ parts, (write (fun _ => []) parts).Sublist (write Prod.fst parts) := by
    intro parts
    induction parts with
    | nil => exact .slnil
    | cons part parts ih =>
        cases part with
        | inl c => exact ih.cons_cons c
        | inr found => exact ih.trans (List.sublist_append_right found.1 _)
  have hsub := hparts (p.outline t)
  rw [outline, write_outlineFrom] at hsub
  rw [removeAll, replaceAll_const]
  exact hsub

/-! ### Characters of what is found and written -/

section

variable {p : Pattern} {t : Text} {c : Char}

theorem findFrom_text {place : Cursor} {h : Hit} (hfind : p.findFrom place = some h) :
    h.start.text = place.text :=
  findBetween_text hfind

theorem find_text {h : Hit} (hfind : p.find t = some h) : h.start.text = t :=
  findBetween_text hfind

/-- A piece of a text holds one of its characters or is a match within it. -/
def Piece.Of (t : Text) : Piece → Prop
  | .kept c => c ∈ t
  | .hit h => h.start.text = t

theorem of_mem_piecesFrom {inside : Nat} {before after : Text} {piece : Piece}
    (h : piece ∈ p.piecesFrom [] inside before after) : piece.Of (before.reverse ++ after) := by
  induction after generalizing inside before with
  | nil => cases h
  | cons c rest ih =>
      have htext : (c :: before).reverse ++ rest = before.reverse ++ c :: rest := by simp
      rw [← htext]
      cases inside with
      | succ inside => exact ih h
      | zero =>
          rw [piecesFrom] at h
          split at h <;> rw [piecesFrom_append] at h <;> obtain rfl | h := List.mem_cons.mp h
          · rename_i hmatch
            rw [htext]
            exact congrArg Cursor.text (matchAt?_text hmatch).1
          · exact ih h
          · rw [htext]
            exact List.mem_append_right _ List.mem_cons_self
          · exact ih h

theorem text_of_mem_hits {h : Hit} (hmem : h ∈ p.hits t) : h.start.text = t := by
  obtain ⟨piece, hpiece, heq⟩ := List.mem_filterMap.mp hmem
  cases piece with
  | kept c => cases heq
  | hit k =>
      cases heq
      exact of_mem_piecesFrom hpiece

theorem mem_replaceAll {f : Hit → Text} (hc : c ∈ p.replaceAll f t) :
    c ∈ t ∨ ∃ h : Hit, h.start.text = t ∧ c ∈ f h := by
  obtain ⟨piece, hpiece, hmem⟩ := List.mem_flatMap.mp hc
  have hof : piece.Of t := of_mem_piecesFrom hpiece
  cases piece with
  | kept d => exact Or.inl (List.mem_singleton.mp hmem ▸ hof)
  | hit h => exact Or.inr ⟨h, hof, hmem⟩

theorem mem_replaceAll_const {r : Text} (hc : c ∈ p.replaceAll (fun _ => r) t) :
    c ∈ t ∨ c ∈ r :=
  (mem_replaceAll hc).imp_right fun ⟨_, _, hr⟩ => hr

theorem mem_replaceFirst {f : Hit → Text} (hc : c ∈ p.replaceFirst f t) :
    c ∈ t ∨ ∃ h : Hit, h.start.text = t ∧ c ∈ f h := by
  unfold replaceFirst at hc
  cases hfind : p.find t with
  | none => exact Or.inl (by rwa [hfind] at hc)
  | some h =>
      have htext := find_text hfind
      rw [hfind, List.mem_append, List.mem_append] at hc
      rw [← htext, Cursor.text, List.mem_append]
      obtain (hc | hc) | hc := hc
      · exact Or.inl (Or.inl hc)
      · exact Or.inr ⟨h, rfl, hc⟩
      · exact Or.inl (Or.inr (List.mem_of_mem_drop hc))

end

theorem Hit.group_sublist (h : Hit) (i : Nat) : (h.group i).Sublist h.start.after := by
  unfold Hit.group
  split
  · exact (List.take_sublist _ _).trans (List.drop_sublist _ _)
  · exact List.nil_sublist _

theorem Hit.mem_of_mem_group {h : Hit} {i : Nat} {c : Char} (hc : c ∈ h.group i) :
    c ∈ h.start.text :=
  List.mem_append_right _ ((h.group_sublist i).subset hc)

theorem mem_replaceFirst_group {p : Pattern} {i : Nat} {t : Text} {c : Char}
    (hc : c ∈ p.replaceFirst (·.group i) t) : c ∈ t := by
  obtain h | ⟨h, rfl, hgroup⟩ := mem_replaceFirst hc
  · exact h
  · exact Hit.mem_of_mem_group hgroup

end QueryDigest.Pattern
