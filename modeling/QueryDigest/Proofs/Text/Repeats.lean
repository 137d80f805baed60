import Mathlib.Data.List.Induction
import Mathlib.Data.List.Nodup

/-!
Lists from which repeats are dropped. Dropping them before a change of the members makes no
difference once they are dropped behind it.
-/

namespace List

variable {α β : Type} [BEq α] [LawfulBEq α] [BEq β] [LawfulBEq β]

theorem eraseDups_concat (l : List α) (x : α) [Decidable (x ∈ l)] :
    (l ++ [x]).eraseDups = if x ∈ l then l.eraseDups else l.eraseDups ++ [x] := by
  rw [eraseDups_append]
  split
  · rename_i h
    simp [removeAll, h]
  · rename_i h
    simp [removeAll, h, eraseDups_cons]

theorem eraseDups_map_eraseDups (f : α → β) (l : List α) :
    (l.eraseDups.map f).eraseDups = (l.map f).eraseDups := by
  classical
  induction l using reverseRecOn with
  | nil => rfl
  | append_singleton l x ih =>
      rw [eraseDups_concat, map_append, map_singleton, eraseDups_concat]
      by_cases hx : x ∈ l
      · rw [if_pos hx, if_pos (mem_map_of_mem hx), ih]
      · have hmem : f x ∈ l.eraseDups.map f ↔ f x ∈ l.map f := by simp
        rw [if_neg hx, map_append, map_singleton, eraseDups_concat, ih]
        simp only [hmem]

theorem eraseDups_append_eraseDups_map (f : α → β) (l : List α) (m : List β) :
    (l.eraseDups.map f ++ m).eraseDups = (l.map f ++ m).eraseDups := by
  have hmem (x : β) : x ∈ l.eraseDups.map f ↔ x ∈ l.map f := by simp
  rw [eraseDups_append, eraseDups_append, eraseDups_map_eraseDups]
  congr 2
  exact filter_congr fun x _ => by simp only [elem_eq_mem, hmem]

theorem nodup_eraseDups (l : List α) : l.eraseDups.Nodup := by
  classical
  induction l using reverseRecOn with
  | nil => exact nodup_nil
  | append_singleton l x ih =>
      rw [eraseDups_concat]
      split
      · exact ih
      · rename_i hx
        rw [nodup_append]
        refine ⟨ih, nodup_singleton x, ?_⟩
        rintro y hy z hz rfl
        exact hx (mem_singleton.mp hz ▸ mem_eraseDups.mp hy)

/-- The entries that are left stand in the order in which they first occur. -/
theorem idxOf_eraseDups_lt_iff {l : List α} {x y : α} (hx : x ∈ l) (hy : y ∈ l) :
    l.eraseDups.idxOf x < l.eraseDups.idxOf y ↔ l.idxOf x < l.idxOf y := by
  classical
  induction l using reverseRecOn with
  | nil => cases hx
  | append_singleton l z ih =>
      have hold : ∀ {m : List α} {w : α}, w ∈ m → (m ++ [z]).idxOf w = m.idxOf w := fun hw =>
        idxOf_append_of_mem hw
      have hnew : ∀ {m : List α}, z ∉ m → (m ++ [z]).idxOf z = m.length := fun hz => by
        rw [idxOf_append_of_notMem hz, idxOf_cons_self, Nat.add_zero]
      have hcases : ∀ {w : α}, w ∈ l ++ [z] → w ∈ l ∨ w = z := fun hw =>
        (mem_append.mp hw).imp_right mem_singleton.mp
      rw [eraseDups_concat]
      by_cases hz : z ∈ l
      · have hmem : ∀ {w : α}, w ∈ l ++ [z] → w ∈ l := fun hw =>
          (hcases hw).elim id fun h => h ▸ hz
        rw [if_pos hz, hold (hmem hx), hold (hmem hy)]
        exact ih (hmem hx) (hmem hy)
      · have hz' : z ∉ l.eraseDups := mt mem_eraseDups.mp hz
        rw [if_neg hz]
        replace hx := hcases hx
        replace hy := hcases hy
        obtain hx | rfl := hx <;> obtain hy | rfl := hy
        · rw [hold hx, hold hy, hold (mem_eraseDups.mpr hx), hold (mem_eraseDups.mpr hy)]
          exact ih hx hy
        · rw [hold (mem_eraseDups.mpr hx), hnew hz', hold hx, hnew hz]
          exact iff_of_true (idxOf_lt_length_of_mem (mem_eraseDups.mpr hx))
            (idxOf_lt_length_of_mem hx)
        · rw [hold (mem_eraseDups.mpr hy), hnew hz', hold hy, hnew hz]
          exact iff_of_false (Nat.lt_asymm (idxOf_lt_length_of_mem (mem_eraseDups.mpr hy)))
            (Nat.lt_asymm (idxOf_lt_length_of_mem hy))
        · exact iff_of_false (Nat.lt_irrefl _) (Nat.lt_irrefl _)

end List
