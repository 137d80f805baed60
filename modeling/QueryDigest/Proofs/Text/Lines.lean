import QueryDigest.Text.Basic

/-!
Texts in a row: joined with a separator, or each on a line of its own. Lines are told apart again if
none of them has a line feed inside.
-/

namespace QueryDigest.Text

theorem join_cons {t : Text} {ts : List Text} (hne : ts ≠ []) (separator : Text) :
    join separator (t :: ts) = t ++ (separator ++ join separator ts) := by
  obtain ⟨u, us, rfl⟩ := List.exists_cons_of_ne_nil hne
  rw [join, join, List.intercalate_cons_cons, List.append_assoc]

theorem join_eq_flatMap (separator t : Text) (ts : List Text) :
    join separator (t :: ts) = t ++ ts.flatMap (separator ++ ·) := by
  induction ts generalizing t with
  | nil => simp [join]
  | cons u us ih => rw [join_cons (List.cons_ne_nil u us), ih, List.flatMap_cons, List.append_assoc]

theorem spaced_cons (t : Text) (ts : List Text) :
    spaced (t :: ts) = t ++ ts.flatMap (' ' :: ·) :=
  join_eq_flatMap [' '] t ts

section

variable {separator : Text} {ts : List Text} {t : Text} {c : Char}

theorem mem_join (h : c ∈ join separator ts) : c ∈ separator ∨ ∃ t ∈ ts, c ∈ t := by
  cases ts with
  | nil => cases h
  | cons t ts =>
      rw [join_eq_flatMap, List.mem_append] at h
      obtain h | h := h
      · exact Or.inr ⟨t, List.mem_cons_self, h⟩
      · obtain ⟨u, hu, h⟩ := List.mem_flatMap.mp h
        obtain h | h := List.mem_append.mp h
        · exact Or.inl h
        · exact Or.inr ⟨u, List.mem_cons_of_mem t hu, h⟩

theorem mem_join_of_mem (ht : t ∈ ts) (hc : c ∈ t) : c ∈ join separator ts := by
  obtain ⟨u, us, rfl⟩ := List.exists_cons_of_ne_nil (List.ne_nil_of_mem ht)
  rw [join_eq_flatMap, List.mem_append]
  obtain rfl | ht := List.mem_cons.mp ht
  · exact Or.inl hc
  · exact Or.inr (List.mem_flatMap.mpr ⟨t, ht, List.mem_append_right separator hc⟩)

theorem mem_of_mem_splitOn {x : Char} {part : Text} (hpart : part ∈ t.splitOn x) (hc : c ∈ part) :
    c ∈ t := by
  rw [← t.intercalate_splitOn x]
  exact mem_join_of_mem hpart hc

end

/-- A text without a line feed. -/
def OneLine (t : Text) : Prop :=
  '\n' ∉ t

instance : DecidablePred OneLine :=
  fun t => inferInstanceAs (Decidable ('\n' ∉ t))

section

variable {s t : Text}

theorem oneLine_nil : OneLine [] :=
  List.not_mem_nil

theorem OneLine.of_subset (ht : OneLine t) (h : ∀ c ∈ s, c ∈ t) : OneLine s :=
  fun hmem => ht (h _ hmem)

theorem oneLine_append : OneLine (s ++ t) ↔ OneLine s ∧ OneLine t := by
  rw [OneLine, List.mem_append, not_or]
  rfl

theorem oneLine_cons {c : Char} : OneLine (c :: t) ↔ c ≠ '\n' ∧ OneLine t := by
  rw [OneLine, List.mem_cons, not_or, ne_comm]
  rfl

theorem oneLine_flatMap {α : Type} {f : α → Text} {xs : List α} :
    OneLine (xs.flatMap f) ↔ ∀ x ∈ xs, OneLine (f x) := by
  simp [OneLine]

theorem OneLine.join {separator : Text} {ts : List Text} (hseparator : OneLine separator)
    (h : ∀ t ∈ ts, OneLine t) : OneLine (Text.join separator ts) :=
  fun hmem => (mem_join hmem).elim hseparator fun ⟨t, ht, hc⟩ => h t ht hc

end

theorem splitOn_lines {lines : List Text} (h : ∀ t ∈ lines, OneLine t) :
    (lines.flatMap line).splitOn '\n' = lines ++ [[]] := by
  induction lines with
  | nil => rfl
  | cons t rest ih =>
      have hrest := ih fun u hu => h u (List.mem_cons_of_mem t hu)
      rw [List.flatMap_cons, line, List.append_assoc, List.singleton_append,
        List.splitOn_append_cons_self_of_not_mem (h t List.mem_cons_self), hrest]
      rfl

theorem count_lines {lines : List Text} (h : ∀ t ∈ lines, OneLine t) :
    (lines.flatMap line).count '\n' = lines.length := by
  induction lines with
  | nil => rfl
  | cons t rest ih =>
      have hrest := ih fun u hu => h u (List.mem_cons_of_mem t hu)
      have hline : t.count '\n' = 0 := List.count_eq_zero.mpr (h t List.mem_cons_self)
      rw [List.flatMap_cons, line, List.count_append, List.count_append, hrest, hline,
        List.count_singleton_self, List.length_cons]
      omega

end QueryDigest.Text
