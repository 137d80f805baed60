import Mathlib.Algebra.BigOperators.Group.List.Lemmas
import Mathlib.Algebra.GroupWithZero.Nat
import Mathlib.Data.Finset.Card
import Mathlib.Data.List.Induction
import Mathlib.Data.List.Nodup
import QueryDigest.Tally

/-!
What a tally holds after a sequence of additions. The buckets are described by the additions alone:
one for each fingerprint in the order of first occurrence, with the number of its additions and the
statement of the first one. The index and the list of buckets agree at every moment.
-/

namespace QueryDigest.Tally

/-- The fingerprints of a sequence of additions, each where it first occurs. -/
def fingerprints (additions : List (Text × Text)) : List Text :=
  (additions.map Prod.fst).eraseDups

/-- The bucket of a fingerprint, counted over a sequence of additions. -/
def bucketOf (additions : List (Text × Text)) (fingerprint : Text) : Bucket :=
  ⟨fingerprint, (additions.map Prod.fst).count fingerprint,
    (additions.lookup fingerprint).getD []⟩

/-- The tally of a sequence of additions. -/
structure Counts (t : Tally) (additions : List (Text × Text)) : Prop where
  slots : ∀ f, t.slots[f]? = (fingerprints additions).idxOf? f
  buckets : t.buckets.toList = (fingerprints additions).map (bucketOf additions)
  total : t.total = additions.length

theorem mem_fingerprints {additions : List (Text × Text)} {f : Text} :
    f ∈ fingerprints additions ↔ f ∈ additions.map Prod.fst := by
  simp only [fingerprints, List.mem_eraseDups]

theorem fingerprints_concat (additions : List (Text × Text)) (f s : Text) :
    fingerprints (additions ++ [(f, s)]) =
      if f ∈ fingerprints additions then fingerprints additions
      else fingerprints additions ++ [f] := by
  simp only [mem_fingerprints]
  rw [fingerprints, List.map_append, List.eraseDups_append]
  by_cases h : f ∈ additions.map Prod.fst
  · rw [if_pos h]
    simp [fingerprints, List.removeAll, h]
  · rw [if_neg h]
    simp [fingerprints, List.removeAll, h, List.eraseDups_cons]

theorem nodup_fingerprints (additions : List (Text × Text)) :
    (fingerprints additions).Nodup := by
  induction additions using List.reverseRecOn with
  | nil => exact List.nodup_nil
  | append_singleton additions addition ih =>
      obtain ⟨f, s⟩ := addition
      rw [fingerprints_concat]
      split
      · exact ih
      · rename_i h
        exact List.nodup_append.mpr ⟨ih, List.nodup_singleton f, by
          intro a ha b hb hab
          rw [List.mem_singleton.mp hb] at hab
          exact h (hab ▸ ha)⟩

theorem bucketOf_concat_of_ne (additions : List (Text × Text)) {f g : Text} (s : Text)
    (h : g ≠ f) : bucketOf (additions ++ [(f, s)]) g = bucketOf additions g := by
  have hlookup : (additions ++ [(f, s)]).lookup g = additions.lookup g := by
    rw [List.lookup_append]
    simp [List.lookup_cons, beq_false_of_ne h]
  simp [bucketOf, hlookup, Ne.symm h]

theorem lookup_ne_none {additions : List (Text × Text)} {f : Text}
    (h : f ∈ additions.map Prod.fst) : additions.lookup f ≠ none := by
  obtain ⟨a, ha, rfl⟩ := List.mem_map.mp h
  intro hnone
  have hother := List.lookup_eq_none_iff.mp hnone a ha
  simp at hother

theorem bucketOf_concat_of_mem {additions : List (Text × Text)} {f : Text} (s : Text)
    (h : f ∈ fingerprints additions) :
    bucketOf (additions ++ [(f, s)]) f =
      { bucketOf additions f with count := (bucketOf additions f).count + 1 } := by
  obtain ⟨first, hfirst⟩ :=
    Option.ne_none_iff_exists'.mp (lookup_ne_none (mem_fingerprints.mp h))
  have hlookup : (additions ++ [(f, s)]).lookup f = some first := by
    rw [List.lookup_append, hfirst]
    rfl
  simp [bucketOf, hfirst, hlookup]

theorem bucketOf_concat_of_not_mem {additions : List (Text × Text)} {f : Text} (s : Text)
    (h : f ∉ fingerprints additions) : bucketOf (additions ++ [(f, s)]) f = ⟨f, 1, s⟩ := by
  rw [mem_fingerprints] at h
  have hnone : additions.lookup f = none := by
    rw [List.lookup_eq_none_iff]
    intro a ha
    have hother : f ≠ a.1 := fun hf => h (List.mem_map.mpr ⟨a, ha, hf.symm⟩)
    simpa using hother
  have hlookup : (additions ++ [(f, s)]).lookup f = some s := by
    rw [List.lookup_append, hnone]
    simp
  simp [bucketOf, hlookup, List.count_eq_zero_of_not_mem h]

theorem idxOf?_concat (fs : List Text) (f g : Text) :
    (fs ++ [f]).idxOf? g = (fs.idxOf? g).or (if f == g then some fs.length else none) := by
  simp only [List.idxOf?, List.findIdx?_append]
  by_cases h : f == g <;> simp [h]

theorem counts_empty : Counts empty [] where
  slots f := by simp [empty, fingerprints]
  buckets := rfl
  total := rfl

theorem Counts.size_eq {t : Tally} {additions : List (Text × Text)} (h : t.Counts additions) :
    t.buckets.size = (fingerprints additions).length := by
  rw [← Array.length_toList, h.buckets, List.length_map]

/-- The index finds a known fingerprint: only the bucket in its slot changes. -/
theorem Counts.add_known {t : Tally} {additions : List (Text × Text)} (h : t.Counts additions)
    (f s : Text) (hf : f ∈ fingerprints additions) :
    (t.add f s).Counts (additions ++ [(f, s)]) := by
  obtain ⟨slot, hslot⟩ := Option.isSome_iff_exists.mp (List.isSome_idxOf?.mpr hf)
  obtain ⟨hlt, hat, -⟩ := List.idxOf?_eq_some_iff.mp hslot
  have hkeys : fingerprints (additions ++ [(f, s)]) = fingerprints additions := by
    rw [fingerprints_concat, if_pos hf]
  have hadd : t.add f s =
      { t with
        buckets := t.buckets.modify slot fun b => { b with count := b.count + 1 }
        total := t.total + 1 } := by
    simp [add, h.slots f, hslot]
  rw [hadd]
  refine ⟨fun g => by rw [hkeys]; exact h.slots g, ?_, by simp [h.total]⟩
  rw [Array.toList_modify, h.buckets, hkeys]
  apply List.ext_getElem (by simp)
  intro i hi hi'
  have hi'' : i < (fingerprints additions).length := by simpa using hi'
  rw [List.getElem_modify, List.getElem_map, List.getElem_map]
  by_cases his : slot = i
  · subst his
    rw [if_pos rfl, hat, bucketOf_concat_of_mem s hf]
  · have hne : (fingerprints additions)[i] ≠ f := by
      intro heq
      exact his ((nodup_fingerprints additions).getElem_inj_iff.mp (hat.trans heq.symm))
    rw [if_neg his, bucketOf_concat_of_ne additions s hne]

/-- The index has no slot for a new fingerprint: a bucket is put behind the others. -/
theorem Counts.add_new {t : Tally} {additions : List (Text × Text)} (h : t.Counts additions)
    (f s : Text) (hf : f ∉ fingerprints additions) :
    (t.add f s).Counts (additions ++ [(f, s)]) := by
  have hnone : (fingerprints additions).idxOf? f = none := List.idxOf?_eq_none_iff.mpr hf
  have hkeys : fingerprints (additions ++ [(f, s)]) = fingerprints additions ++ [f] := by
    rw [fingerprints_concat, if_neg hf]
  have hadd : t.add f s =
      { slots := t.slots.insert f t.buckets.size
        buckets := t.buckets.push ⟨f, 1, s⟩
        total := t.total + 1 } := by
    simp [add, h.slots f, hnone]
  rw [hadd]
  refine ⟨fun g => ?_, ?_, by simp [h.total]⟩
  · rw [Std.HashMap.getElem?_insert, h.slots g, h.size_eq, hkeys, idxOf?_concat]
    by_cases hg : f = g
    · subst hg
      simp [hnone]
    · simp [beq_false_of_ne hg]
  · rw [Array.toList_push, h.buckets, hkeys, List.map_append]
    congr 1
    · apply List.map_congr_left
      intro g hg
      have hne : g ≠ f := fun heq => hf (heq ▸ hg)
      exact (bucketOf_concat_of_ne additions s hne).symm
    · simp [bucketOf_concat_of_not_mem s hf]

theorem Counts.add {t : Tally} {additions : List (Text × Text)} (h : t.Counts additions)
    (f s : Text) : (t.add f s).Counts (additions ++ [(f, s)]) := by
  by_cases hf : f ∈ fingerprints additions
  · exact h.add_known f s hf
  · exact h.add_new f s hf

/-! ### The order of the buckets -/

theorem pairwise_fingerprints (additions : List (Text × Text)) :
    (fingerprints additions).Pairwise fun f g =>
      (additions.map Prod.fst).idxOf f < (additions.map Prod.fst).idxOf g := by
  induction additions using List.reverseRecOn with
  | nil => exact .nil
  | append_singleton additions addition ih =>
      obtain ⟨f, s⟩ := addition
      have hkept : ∀ g ∈ fingerprints additions,
          ((additions ++ [(f, s)]).map Prod.fst).idxOf g = (additions.map Prod.fst).idxOf g := by
        intro g hg
        rw [List.map_append, List.idxOf_append_of_mem (mem_fingerprints.mp hg)]
      have hold := ih.imp_of_mem fun ha hb hlt => by rwa [← hkept _ ha, ← hkept _ hb] at hlt
      rw [fingerprints_concat]
      split
      · exact hold
      · rename_i hf
        refine List.pairwise_append.mpr ⟨hold, List.pairwise_singleton _ f, ?_⟩
        intro g hg f' hf'
        obtain rfl := List.mem_singleton.mp hf'
        rw [hkept g hg, List.map_append,
          List.idxOf_append_of_notMem (fun hmem => hf (mem_fingerprints.mpr hmem))]
        exact Nat.lt_of_lt_of_le (List.idxOf_lt_length_of_mem (mem_fingerprints.mp hg))
          (Nat.le_add_right _ _)

theorem perm_dedup_fingerprints (additions : List (Text × Text)) :
    (fingerprints additions).Perm (additions.map Prod.fst).dedup :=
  (List.perm_ext_iff_of_nodup (nodup_fingerprints additions) (List.nodup_dedup _)).mpr fun f => by
    rw [mem_fingerprints, List.mem_dedup]

/-- The order that buckets are ranked in. -/
def atLeast (a b : Bucket) : Bool :=
  b.count ≤ a.count

theorem atLeast_trans (a b c : Bucket) (hab : atLeast a b = true) (hbc : atLeast b c = true) :
    atLeast a c = true :=
  decide_eq_true (Nat.le_trans (of_decide_eq_true hbc) (of_decide_eq_true hab))

theorem atLeast_total (a b : Bucket) : (atLeast a b || atLeast b a) = true := by
  simp only [atLeast, Bool.or_eq_true, decide_eq_true_eq]
  exact Nat.le_total _ _

theorem ranked_eq (t : Tally) : t.ranked = t.buckets.toList.mergeSort atLeast :=
  rfl

/-- Ranking keeps the buckets of one count in their order. -/
theorem filter_ranked (t : Tally) (n : Nat) :
    t.ranked.filter (·.count = n) = t.buckets.toList.filter (·.count = n) := by
  have hequal : (t.buckets.toList.filter (·.count = n)).Pairwise
      fun a b => atLeast a b = true := by
    refine List.pairwise_of_forall_mem_list fun a ha b hb => decide_eq_true ?_
    rw [of_decide_eq_true (List.mem_filter.mp ha).2, of_decide_eq_true (List.mem_filter.mp hb).2]
  have hsub : (t.buckets.toList.filter (·.count = n)).Sublist (t.ranked.filter (·.count = n)) := by
    have hranked := (List.sublist_mergeSort atLeast_trans atLeast_total hequal
      List.filter_sublist).filter fun b : Bucket => decide (b.count = n)
    simpa only [ranked_eq, List.filter_filter, Bool.and_self] using hranked
  exact (hsub.eq_of_length ((List.mergeSort_perm _ atLeast).filter _).length_eq.symm).symm

/-- The records counted into a tally, as additions. -/
def additionsOf (records : List Record) : List (Text × Text) :=
  records.map fun r => (r.fingerprint, r.query)

theorem Counts.addRecords {t : Tally} {additions : List (Text × Text)} (h : t.Counts additions)
    (records : List Record) :
    (records.foldl addRecord t).Counts (additions ++ additionsOf records) := by
  induction records generalizing t additions with
  | nil => simpa [additionsOf] using h
  | cons r rest ih =>
      have hrest := ih (h.add r.fingerprint r.query)
      simpa [additionsOf, addRecord, List.append_assoc] using hrest

/-! ### The tally of a sequence of additions -/

def ofAdditions (additions : List (Text × Text)) : Tally :=
  additions.foldl (fun t addition => t.add addition.1 addition.2) empty

theorem counts_ofAdditions (additions : List (Text × Text)) :
    (ofAdditions additions).Counts additions := by
  induction additions using List.reverseRecOn with
  | nil => exact counts_empty
  | append_singleton additions addition ih =>
      rw [ofAdditions, List.foldl_append]
      exact ih.add addition.1 addition.2

/-- What a tally says about the additions it is made of. -/
structure Describes (t : Tally) (additions : List (Text × Text)) : Prop where
  known : ∀ f, f ∈ additions.map Prod.fst ↔ ∃ slot, t.slots[f]? = some slot
  slot : ∀ f slot, t.slots[f]? = some slot →
    ∃ b : Bucket, t.buckets[slot]? = some b ∧ b.fingerprint = f
  distinct : (t.buckets.toList.map Bucket.fingerprint).Nodup
  complete : ∀ f, f ∈ t.buckets.toList.map Bucket.fingerprint ↔ f ∈ additions.map Prod.fst
  count : ∀ b ∈ t.buckets.toList, b.count = (additions.map Prod.fst).count b.fingerprint
  sample : ∀ b ∈ t.buckets.toList, additions.lookup b.fingerprint = some b.sample
  size : t.size = (additions.map Prod.fst).toFinset.card
  total : t.total = additions.length
  sum : (t.buckets.toList.map Bucket.count).sum = additions.length
  ranked : t.ranked.Perm t.buckets.toList
  order : t.ranked.Pairwise fun a b : Bucket => b.count < a.count ∨ a.count = b.count ∧
    (additions.map Prod.fst).idxOf a.fingerprint < (additions.map Prod.fst).idxOf b.fingerprint

section

variable {t : Tally} {additions : List (Text × Text)} (h : t.Counts additions)

include h

theorem Counts.map_fingerprint :
    t.buckets.toList.map Bucket.fingerprint = fingerprints additions := by
  rw [h.buckets, List.map_map]
  exact List.map_id _

theorem Counts.eq_bucketOf {b : Bucket} (hb : b ∈ t.buckets.toList) :
    b.fingerprint ∈ additions.map Prod.fst ∧ b = bucketOf additions b.fingerprint := by
  rw [h.buckets] at hb
  obtain ⟨f, hf, rfl⟩ := List.mem_map.mp hb
  exact ⟨mem_fingerprints.mp hf, rfl⟩

theorem Counts.slot {f : Text} {slot : Nat} (hslot : t.slots[f]? = some slot) :
    ∃ b, t.buckets[slot]? = some b ∧ b.fingerprint = f := by
  rw [h.slots] at hslot
  obtain ⟨hlt, hat, -⟩ := List.idxOf?_eq_some_iff.mp hslot
  refine ⟨bucketOf additions f, ?_, rfl⟩
  rw [← Array.getElem?_toList, h.buckets, List.getElem?_map, List.getElem?_eq_getElem hlt, hat]
  rfl

theorem Counts.sample {b : Bucket} (hb : b ∈ t.buckets.toList) :
    additions.lookup b.fingerprint = some b.sample := by
  obtain ⟨hmem, heq⟩ := h.eq_bucketOf hb
  obtain ⟨first, hfirst⟩ := Option.ne_none_iff_exists'.mp (lookup_ne_none hmem)
  rw [heq]
  simp [bucketOf, hfirst]

theorem Counts.size_eq_card : t.size = (additions.map Prod.fst).toFinset.card := by
  rw [size, h.size_eq, (perm_dedup_fingerprints additions).length_eq, List.card_toFinset]

theorem Counts.sum_count : (t.buckets.toList.map Bucket.count).sum = additions.length := by
  have hcounts : t.buckets.toList.map Bucket.count =
      (fingerprints additions).map fun f => (additions.map Prod.fst).count f := by
    rw [h.buckets, List.map_map]
    rfl
  rw [hcounts, ((perm_dedup_fingerprints additions).map _).sum_eq,
    ← List.length_map Prod.fst]
  convert List.sum_map_count_dedup_eq_length (additions.map Prod.fst) using 5
  · rfl
  · exact lawful_beq_subsingleton _ _

theorem Counts.pairwise_ranked : t.ranked.Pairwise fun a b => b.count < a.count ∨
    a.count = b.count ∧ (additions.map Prod.fst).idxOf a.fingerprint <
      (additions.map Prod.fst).idxOf b.fingerprint := by
  have hfirst : t.buckets.toList.Pairwise fun a b =>
      (additions.map Prod.fst).idxOf a.fingerprint <
        (additions.map Prod.fst).idxOf b.fingerprint := by
    have hpairs := pairwise_fingerprints additions
    rwa [← h.map_fingerprint, List.pairwise_map] at hpairs
  have hfalling : t.ranked.Pairwise fun a b => atLeast a b = true :=
    List.pairwise_mergeSort atLeast_trans atLeast_total _
  refine List.pairwise_iff_forall_sublist.mpr fun {a b} hab => ?_
  have hle : b.count ≤ a.count :=
    of_decide_eq_true (List.pairwise_iff_forall_sublist.mp hfalling hab)
  obtain hlt | heq := Nat.lt_or_eq_of_le hle
  · exact Or.inl hlt
  · -- Buckets of one count stand in the ranking as they stand among the buckets.
    have hsame := hab.filter fun x : Bucket => decide (x.count = a.count)
    rw [filter_ranked] at hsame
    refine Or.inr ⟨heq.symm, List.pairwise_iff_forall_sublist.mp hfirst ?_⟩
    have hkept : [a, b].filter (fun x : Bucket => decide (x.count = a.count)) = [a, b] := by
      simp [heq]
    exact (hkept ▸ hsame).trans List.filter_sublist

end

/-- A tally has one bucket for each fingerprint, found by its slot, with the number of its additions
and the statement of the first one, and ranks the buckets by falling count and first addition. -/
theorem describes_ofAdditions (additions : List (Text × Text)) :
    (ofAdditions additions).Describes additions := by
  have h := counts_ofAdditions additions
  refine ⟨fun f => ?_, fun f slot => h.slot, ?_, fun f => ?_, fun b hb => ?_,
    fun b hb => h.sample hb, h.size_eq_card, h.total, h.sum_count, List.mergeSort_perm _ _,
    h.pairwise_ranked⟩
  · rw [h.slots, ← Option.isSome_iff_exists, List.isSome_idxOf?, mem_fingerprints]
  · rw [h.map_fingerprint]
    exact nodup_fingerprints additions
  · rw [h.map_fingerprint, mem_fingerprints]
  · rw [(h.eq_bucketOf hb).2]
    rfl

end QueryDigest.Tally
