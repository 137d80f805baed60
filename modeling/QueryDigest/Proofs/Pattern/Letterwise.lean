import QueryDigest.Proofs.Pattern.Locality

/-!
Texts changed character by character. A pattern that cannot tell the characters of a text from those
they are changed to has the same matches in both texts, at the same places and with the same groups,
so that searching and replacing commute with the change.
-/

namespace QueryDigest

def Cursor.map (f : Char → Char) (c : Cursor) : Cursor :=
  ⟨c.before.map f, c.after.map f⟩

namespace Pattern

/-- No class and no test of a pattern sees a difference between a text and its image. -/
def Ignores (f : Char → Char) : Pattern → Prop
  | .empty => True
  | .holds test => ∀ before after : Text, test (before.map f) (after.map f) = test before after
  | .one ok | .chars _ ok => ∀ c, ok (f c) = ok c
  | .seq p q | .alt p q => p.Ignores f ∧ q.Ignores f
  | .many p | .group p => p.Ignores f

def Attempt.map (f : Char → Char) (a : Attempt) : Attempt :=
  ⟨a.before.map f, a.after.map f, a.passed, a.groups⟩

def Hit.map (f : Char → Char) (h : Hit) : Hit :=
  ⟨h.start.map f, h.length, h.groups⟩

def Piece.map (f : Char → Char) : Piece → Piece
  | .kept c => .kept (f c)
  | .hit h => .hit (h.map f)

variable {f : Char → Char}

/-! ### Hits -/

theorem Hit.text_map (h : Hit) : (h.map f).text = h.text.map f :=
  List.map_take.symm

theorem Hit.stop_map (h : Hit) : (h.map f).stop = h.stop.map f := by
  simp [Hit.stop, Hit.map, Cursor.map, Cursor.skip]

theorem Hit.group_map (h : Hit) (i : Nat) : (h.map f).group i = (h.group i).map f := by
  have hgroups : (h.map f).groups[i]? = h.groups[i]? := rfl
  rw [Hit.group, Hit.group, hgroups]
  cases h.groups[i]? with
  | none => rfl
  | some g =>
      rw [List.map_take, List.map_drop]
      rfl

/-! ### Runs -/

/-- The second of two attempts is where the first one is, in the image of its text. -/
def Mapped (f : Char → Char) (a b : Attempt) : Prop :=
  b = a.map f

theorem simulation_mapped : Simulation (Mapped f) where
  passed := by
    rintro a _ rfl
    rfl
  close := by
    rintro a _ opened rfl
    rfl

theorem stepsAlike_mapped {ok : Char → Bool} (hok : ∀ c, ok (f c) = ok c) :
    StepsAlike (Mapped f) ok := by
  rintro a _ rfl
  cases hnext : a.next? ok with
  | none =>
      have hnone : (a.map f).next? ok = none := by
        apply Attempt.next?_eq_none.mpr
        intro d hd
        obtain ⟨c, hc, rfl⟩ : ∃ c, a.after.head? = some c ∧ f c = d := by
          simpa [Attempt.map] using hd
        rw [hok]
        exact Attempt.next?_eq_none.mp hnext c hc
      rw [hnone]
      exact .none
  | some b =>
      obtain ⟨c, rest, hafter, hc, rfl⟩ := Attempt.next?_eq_some.mp hnext
      have hsome : (a.map f).next? ok =
          some ⟨f c :: a.before.map f, rest.map f, a.passed + 1, a.groups⟩ := by
        apply Attempt.next?_eq_some.mpr
        exact ⟨f c, rest.map f, by simp [Attempt.map, hafter], (hok c).trans hc, rfl⟩
      rw [hsome]
      exact .some rfl

theorem respects_mapped {p : Pattern} (h : p.Ignores f) : Respects (Mapped f) p := by
  induction p with
  | empty => trivial
  | holds test =>
      rintro a _ rfl
      exact (h a.before a.after).symm
  | one ok | chars reach ok => exact stepsAlike_mapped h
  | seq p q ihp ihq | alt p q ihp ihq => exact ⟨ihp h.1, ihq h.2⟩
  | many p ih | group p ih => exact ih h

theorem matchAt?_map {p : Pattern} (h : p.Ignores f) (c : Cursor) :
    p.matchAt? (c.map f) = (p.matchAt? c).map (Hit.map f) := by
  have hrel : Option.Rel (Mapped f) (p.run (.start c) some) (p.run (.start (c.map f)) some) :=
    run_related simulation_mapped (respects_mapped h) (fun hab => .some hab) rfl
  change ((p.run (.start (c.map f)) some).map _) = ((p.run (.start c) some).map _).map _
  obtain ⟨hc, hd⟩ | ⟨a, _, hc, hd, rfl⟩ := rel_cases hrel
  · rw [hc, hd]
    rfl
  · rw [hc, hd]
    rfl

/-! ### Searches -/

section

variable {p : Pattern} (hp : p.Ignores f)

include hp

theorem findBetween_map (before after : Text) :
    p.findBetween (before.map f) (after.map f) =
      (p.findBetween before after).map (Hit.map f) := by
  induction after generalizing before with
  | nil => exact matchAt?_map hp ⟨before, []⟩
  | cons c rest ih =>
      have hmatch : p.matchAt? ⟨before.map f, f c :: rest.map f⟩ = _ :=
        matchAt?_map hp ⟨before, c :: rest⟩
      rw [List.map_cons, findBetween, findBetween, hmatch]
      cases p.matchAt? ⟨before, c :: rest⟩ with
      | none => exact ih (c :: before)
      | some h => rfl

theorem findFrom_map (c : Cursor) :
    p.findFrom (c.map f) = (p.findFrom c).map (Hit.map f) :=
  findBetween_map hp c.before c.after

theorem find_map (t : Text) : p.find (t.map f) = (p.find t).map (Hit.map f) :=
  findBetween_map hp [] t

theorem occursIn_map (t : Text) : p.occursIn (t.map f) = p.occursIn t := by
  rw [occursIn, occursIn, find_map hp, Option.isSome_map]

theorem piecesFrom_map (done : List Piece) (inside : Nat) (before after : Text) :
    p.piecesFrom (done.map (Piece.map f)) inside (before.map f) (after.map f) =
      (p.piecesFrom done inside before after).map (Piece.map f) := by
  induction after generalizing done inside before with
  | nil => cases inside <;> simp [piecesFrom]
  | cons c rest ih =>
      cases inside with
      | succ inside => exact ih done inside (c :: before)
      | zero =>
          have hmatch : p.matchAt? ⟨before.map f, f c :: rest.map f⟩ = _ :=
            matchAt?_map hp ⟨before, c :: rest⟩
          rw [List.map_cons, piecesFrom, piecesFrom, hmatch]
          -- A hit keeps its length, so both texts go on behind it or behind one character.
          match p.matchAt? ⟨before, c :: rest⟩ with
          | none => exact ih (.kept c :: done) 0 (c :: before)
          | some ⟨start, 0, groups⟩ => exact ih (.kept c :: done) 0 (c :: before)
          | some ⟨start, length + 1, groups⟩ =>
              exact ih (.hit ⟨start, length + 1, groups⟩ :: done) length (c :: before)

theorem pieces_map (t : Text) : p.pieces (t.map f) = (p.pieces t).map (Piece.map f) :=
  piecesFrom_map hp [] 0 [] t

theorem hits_map (t : Text) : p.hits (t.map f) = (p.hits t).map (Hit.map f) := by
  rw [hits, hits, pieces_map hp, List.filterMap_map, List.map_filterMap]
  congr 1
  funext piece
  cases piece <;> rfl

theorem replaceAll_map {g k : Hit → Text} (hg : ∀ h : Hit, k (h.map f) = (g h).map f)
    (t : Text) : p.replaceAll k (t.map f) = (p.replaceAll g t).map f := by
  rw [replaceAll, replaceAll, pieces_map hp, List.flatMap_map, List.map_flatMap]
  congr 1
  funext piece
  cases piece with
  | kept c => rfl
  | hit h => exact hg h

theorem removeAll_map (t : Text) : p.removeAll (t.map f) = (p.removeAll t).map f :=
  replaceAll_map hp (fun _ => rfl) t

theorem replaceFirst_map {g g' : Hit → Text} (hg : ∀ h : Hit, g' (h.map f) = (g h).map f)
    (t : Text) : p.replaceFirst g' (t.map f) = (p.replaceFirst g t).map f := by
  rw [replaceFirst, replaceFirst, find_map hp]
  cases p.find t with
  | none => rfl
  | some h =>
      change (h.start.map f).before.reverse ++ g' (h.map f) ++ (h.map f).stop.after = _
      rw [hg, Hit.stop_map]
      simp [Cursor.map]

end

end Pattern
end QueryDigest
