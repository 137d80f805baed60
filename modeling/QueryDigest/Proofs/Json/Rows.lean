import QueryDigest.Proofs.Json.Scalars
import QueryDigest.Proofs.Text.Lines

/-!
Rows of named fields, written as the members of an object on one line and read back by the row's own
schema. The reader goes from member to member; the names it has met are those already behind it, so
distinct names are each found once.
-/

namespace QueryDigest.Json

open Text (OneLine)

/-! ### One line -/

theorem oneLine_render (n : Nat) : OneLine (Decimal.render n) := by
  intro hmem
  cases Decimal.isDigit_of_mem_render hmem

theorem hexDigit_ne_lineFeed {n : Nat} (h : n < 16) : hexDigit n ≠ '\n' := by
  have hall : ∀ m < 16, hexDigit m ≠ '\n' := by decide
  exact hall n h

theorem oneLine_escapeChar (c : Char) : OneLine (escapeChar c) := by
  unfold escapeChar
  split
  · rename_i h
    rcases h with rfl | rfl <;> decide
  iterate 2
    split
    · decide
  split
  · decide
  · rename_i hline
    iterate 2
      split
      · decide
    split
    · have hlow := hexDigit_ne_lineFeed (Nat.mod_lt c.toNat (by decide : 0 < 16))
      have hhigh : hexDigit (c.toNat / 16) ≠ '\n' := hexDigit_ne_lineFeed (by omega)
      simp [OneLine, hlow.symm, hhigh.symm]
    · simpa [OneLine] using Ne.symm hline

theorem oneLine_quote (t : Text) : OneLine (quote t) := by
  refine Text.oneLine_append.mpr ⟨Text.oneLine_cons.mpr ⟨by decide, ?_⟩, by decide⟩
  exact Text.oneLine_flatMap.mpr fun c _ => oneLine_escapeChar c

namespace Value

mutual

theorem oneLine_compact : ∀ v : Value, OneLine v.compact
  | .string t => oneLine_quote t
  | .number n => oneLine_render n
  | .array items => by
      have hitems := OneLine.join (by decide : OneLine [',']) (oneLine_compactItems items)
      rw [compact, Text.oneLine_append, Text.oneLine_cons]
      exact ⟨⟨by decide, hitems⟩, by decide⟩
  | .object members => by
      have hmembers := OneLine.join (by decide : OneLine [',']) (oneLine_compactMembers members)
      rw [compact, Text.oneLine_append, Text.oneLine_cons]
      exact ⟨⟨by decide, hmembers⟩, by decide⟩

theorem oneLine_compactItems : ∀ vs : List Value, ∀ t ∈ compactItems vs, OneLine t
  | [] => fun _ hmem => absurd hmem List.not_mem_nil
  | v :: vs => by
      rw [compactItems, List.forall_mem_cons]
      exact ⟨oneLine_compact v, oneLine_compactItems vs⟩

theorem oneLine_compactMembers : ∀ ms : List (Text × Value), ∀ t ∈ compactMembers ms, OneLine t
  | [] => fun _ hmem => absurd hmem List.not_mem_nil
  | (name, v) :: ms => by
      rw [compactMembers, List.forall_mem_cons, Text.oneLine_append, Text.oneLine_cons]
      exact ⟨⟨oneLine_quote name, by decide, oneLine_compact v⟩, oneLine_compactMembers ms⟩

end

theorem compactItems_eq_map (vs : List Value) : compactItems vs = vs.map compact := by
  induction vs with
  | nil => rfl
  | cons v vs ih => rw [compactItems, ih, List.map_cons]

end Value

/-! ### Parts between commas -/

/-- What stands in front of a part: nothing behind the opening bracket, else a comma. -/
def separator (first : Bool) : Text :=
  if first then [] else [',']

/-- Parts as they follow an opening bracket or another part. -/
def listed (first : Bool) : List Text → Text
  | [] => []
  | part :: parts => separator first ++ (part ++ listed false parts)

theorem join_eq_listed (parts : List Text) : Text.join [','] parts = listed true parts := by
  cases parts with
  | nil => rfl
  | cons part parts =>
      have hrest : listed false parts = parts.flatMap ([','] ++ ·) := by
        induction parts with
        | nil => rfl
        | cons part parts ih => rw [listed, ih]; rfl
      rw [Text.join_eq_flatMap, listed, hrest]
      rfl

theorem length_le_length_listed (first : Bool) {parts : List Text} (h : [] ∉ parts) :
    parts.length ≤ (listed first parts).length := by
  induction parts generalizing first with
  | nil => exact Nat.zero_le _
  | cons part parts ih =>
      rw [List.mem_cons, not_or] at h
      have hpart := List.length_pos_iff.mpr (Ne.symm h.1)
      have hrest := ih false h.2
      simp only [listed, List.length_cons, List.length_append]
      omega

/-! ### Lists of texts -/

theorem nextItem_quote (first : Bool) (t : Text) :
    nextItem first (separator first ++ '"' :: t) = .ok (true, '"' :: t) := by
  cases first <;> rfl

theorem quote_append (t rest : Text) :
    quote t ++ rest = '"' :: (t.flatMap escapeChar ++ '"' :: rest) := by
  simp [quote]

theorem readText_quote (t rest : Text) : readText (quote t ++ rest) = .ok (t, rest) := by
  rw [quote_append]
  exact stringFrom_quoted true [] t rest

theorem readTextItems_listed (first : Bool) (ts : List Text) (rest : Text) {fuel : Nat}
    (hfuel : ts.length < fuel) :
    readTextItems fuel first (listed first (ts.map quote) ++ ']' :: rest) = .ok (ts, rest) := by
  induction ts generalizing first fuel with
  | nil =>
      obtain ⟨fuel, rfl⟩ := Nat.exists_eq_add_one_of_ne_zero (Nat.ne_of_gt hfuel)
      cases first <;> rfl
  | cons t ts ih =>
      obtain ⟨fuel, rfl⟩ := Nat.exists_eq_add_one_of_ne_zero (Nat.ne_zero_of_lt hfuel)
      have hrest := ih false (Nat.lt_of_succ_lt_succ hfuel)
      rw [List.map_cons, listed, List.append_assoc, List.append_assoc, readTextItems,
        quote_append, nextItem_quote, ← quote_append]
      simp only [bind, Except.bind, readText_quote, hrest]
      rfl

theorem readTexts_compact (ts : List Text) (rest : Text) :
    readTexts ((Value.array (ts.map .string)).compact ++ rest) = .ok (ts, rest) := by
  have hquotes : Value.compactItems (ts.map .string) = ts.map quote := by
    rw [Value.compactItems_eq_map, List.map_map]
    rfl
  have hne : [] ∉ ts.map quote := by simp [quote]
  have hlength := length_le_length_listed true hne
  rw [List.length_map] at hlength
  rw [Value.compact, hquotes, join_eq_listed, List.append_assoc, List.cons_append,
    List.singleton_append]
  refine readTextItems_listed true ts rest ?_
  rw [List.length_append]
  omega

/-! ### Fields -/

namespace Field

def kind : Field → Kind
  | .text _ => .text
  | .texts _ => .texts
  | .count _ => .count

def toValue : Field → Value
  | .text t => .string t
  | .texts ts => .array (ts.map .string)
  | .count n => .number n

/-- Numbers are read back up to the largest word. -/
def Readable : Field → Prop
  | .text _ | .texts _ => True
  | .count n => n ≤ Decimal.maxWord

end Field

theorem readCount_render {n : Nat} (h : n ≤ Decimal.maxWord) {rest : Text}
    (hrest : EndsNumber rest) : readCount (Decimal.render n ++ rest) = .ok (n, rest) := by
  have hread := Number.read_render h hrest
  obtain ⟨c, t, hrender, hc⟩ := Decimal.render_eq_cons n
  have hblank : isBlank c = false := by
    cases hb : isBlank c with
    | false => rfl
    | true =>
        simp only [isBlank, Bool.or_eq_true, beq_iff_eq] at hb
        rcases hb with ((rfl | rfl) | rfl) | rfl <;> cases hc
  rw [hrender] at hread ⊢
  simp only [readCount, skipBlanks, List.cons_append, List.dropWhile_cons, hblank,
    Bool.false_eq_true, if_false, hc, or_true, if_true]
  rw [← List.cons_append, hread]
  rfl

theorem readField_toValue {field : Field} (h : field.Readable) {rest : Text}
    (hrest : EndsNumber rest) :
    readField field.kind (field.toValue.compact ++ rest) = .ok (field, rest) := by
  cases field with
  | text t =>
      have hread := readText_quote t rest
      simp only [Field.kind, Field.toValue, Value.compact, readField, hread, Except.map]
  | texts ts => simp only [Field.kind, Field.toValue, readField, readTexts_compact, Except.map]
  | count n =>
      have hread := readCount_render h hrest
      simp only [Field.kind, Field.toValue, Value.compact, readField, hread, Except.map]

/-! ### Rows -/

/-- Fields with their names, in order. -/
abbrev Row := List (Text × Field)

namespace Row

def schema (row : Row) : Schema :=
  row.map fun (name, field) => (name, field.kind)

theorem map_fst_schema (row : Row) : row.schema.map Prod.fst = row.map Prod.fst := by
  rw [schema, List.map_map]
  rfl

def toValue (row : Row) : Value :=
  .object (row.map fun (name, field) => (name, field.toValue))

def member (part : Text × Field) : Text :=
  quote part.1 ++ ':' :: part.2.toValue.compact

theorem compactMembers_eq_map (row : Row) :
    Value.compactMembers (row.map fun (name, field) => (name, field.toValue)) =
      row.map member := by
  induction row with
  | nil => rfl
  | cons part row ih => rw [List.map_cons, Value.compactMembers, ih, List.map_cons]; rfl

theorem compact_toValue (row : Row) :
    row.toValue.compact = '\x7b' :: (listed true (row.map member) ++ ['\x7d']) := by
  rw [toValue, Value.compact, compactMembers_eq_map, join_eq_listed]
  rfl

theorem nil_not_mem_map_member (row : Row) : [] ∉ row.map member := by
  simp [member, quote]

/-- Behind a member stands a comma or the closing brace. -/
theorem endsNumber_listed (row : Row) (rest : Text) :
    EndsNumber (listed false (row.map member) ++ '\x7d' :: rest) := by
  cases row with
  | nil => exact ⟨'\x7d', rest, rfl, Or.inr rfl⟩
  | cons part row => exact ⟨',', _, rfl, Or.inl rfl⟩

end Row

theorem lookup_of_mem {β : Type} {entries : List (Text × β)} (hnodup : (entries.map Prod.fst).Nodup)
    {name : Text} {value : β} (hmem : (name, value) ∈ entries) :
    entries.lookup name = some value := by
  obtain ⟨before, behind, rfl⟩ := List.append_of_mem hmem
  refine List.lookup_eq_some_iff.mpr ⟨before, behind, rfl, fun entry hentry => bne_iff_ne.mpr ?_⟩
  rw [List.map_append, List.map_cons, List.nodup_append] at hnodup
  exact (hnodup.2.2 _ (List.mem_map_of_mem hentry) name List.mem_cons_self).symm

theorem lookup_eq_none {β : Type} {entries : List (Text × β)} {name : Text}
    (h : name ∉ entries.map Prod.fst) : entries.lookup name = none :=
  List.lookup_eq_none_iff.mpr fun _ hentry =>
    bne_iff_ne.mpr fun heq => h (heq ▸ List.mem_map_of_mem hentry)

theorem collect_schema {row found : Row}
    (h : ∀ part ∈ row, found.lookup part.1 = some part.2) :
    collect row.schema found = .ok (row.map Prod.snd) := by
  induction row with
  | nil => rfl
  | cons part row ih =>
      rw [List.forall_mem_cons] at h
      have hrest := ih h.2
      simp only [collect, Row.schema] at hrest
      simp only [collect, Row.schema, List.map_cons, List.mapM_cons, h.1, hrest]
      rfl

theorem nextMember_quote (first : Bool) (t rest : Text) :
    nextMember first (separator first ++ (quote t ++ rest)) =
      .ok (.inl (t.flatMap escapeChar ++ '"' :: rest)) := by
  rw [quote_append]
  cases first <;> rfl

theorem colon_cons (t : Text) : colon (':' :: t) = .ok t :=
  rfl

/-- A member that the schema knows and that was not met before is added to those found. -/
theorem readByName_member {schema : Schema} {found : Row} {part : Text × Field}
    (hkind : schema.lookup part.1 = some part.2.kind) (hfresh : found.lookup part.1 = none)
    (hreadable : part.2.Readable) {rest : Text} (hrest : EndsNumber rest) (fuel : Nat)
    (first : Bool) :
    readByName schema (fuel + 1) first found (separator first ++ (Row.member part ++ rest)) =
      readByName schema fuel false (part :: found) rest := by
  have hname := stringFrom_quoted true [] part.1 (':' :: (part.2.toValue.compact ++ rest))
  have hfield := readField_toValue hreadable hrest
  rw [Row.member, List.append_assoc, List.cons_append, readByName, nextMember_quote]
  simp only [bind, Except.bind, stringBody, hname, List.reverse_nil, List.nil_append, hkind, hfresh,
    Option.isSome_none, Bool.false_eq_true, if_false, colon_cons, hfield]

theorem readByName_listed (behind : Row) {row : Row}
    (hnodup : ((behind ++ row).map Prod.fst).Nodup) (hreadable : ∀ part ∈ row, part.2.Readable)
    (first : Bool) (rest : Text) {fuel : Nat} (hfuel : row.length < fuel) :
    readByName (behind ++ row).schema fuel first behind.reverse
        (listed first (row.map Row.member) ++ '\x7d' :: rest) =
      .ok ((behind ++ row).map Prod.snd, rest) := by
  induction row generalizing behind first fuel with
  | nil =>
      obtain ⟨fuel, rfl⟩ := Nat.exists_eq_add_one_of_ne_zero (Nat.ne_of_gt hfuel)
      have hcollect : collect (behind ++ []).schema behind.reverse =
          .ok ((behind ++ []).map Prod.snd) := by
        rw [List.append_nil] at hnodup ⊢
        refine collect_schema fun part hpart => lookup_of_mem ?_ (List.mem_reverse.mpr hpart)
        rw [List.map_reverse]
        exact (List.reverse_perm _).symm.nodup hnodup
      have hnext : nextMember first ('\x7d' :: rest) = .ok (.inr rest) := by cases first <;> rfl
      simp only [List.map_nil, listed, List.nil_append, readByName, bind, Except.bind, hnext,
        hcollect]
      rfl
  | cons part row ih =>
      obtain ⟨fuel, rfl⟩ := Nat.exists_eq_add_one_of_ne_zero (Nat.ne_zero_of_lt hfuel)
      have happend : behind ++ part :: row = behind ++ [part] ++ row := List.append_cons ..
      have hkind : (behind ++ part :: row).schema.lookup part.1 = some part.2.kind := by
        refine lookup_of_mem ((Row.map_fst_schema _).symm ▸ hnodup) ?_
        exact List.mem_map_of_mem (List.mem_append_right behind List.mem_cons_self)
      have hfresh : behind.reverse.lookup part.1 = none := by
        apply lookup_eq_none
        rw [List.map_reverse, List.mem_reverse]
        rw [List.map_append, List.nodup_append] at hnodup
        exact fun hmem => hnodup.2.2 part.1 hmem part.1 List.mem_cons_self rfl
      rw [List.forall_mem_cons] at hreadable
      have hrest := ih (behind ++ [part]) (happend ▸ hnodup) hreadable.2 false
        (Nat.lt_of_succ_lt_succ hfuel)
      rw [List.reverse_append, ← happend] at hrest
      rw [List.map_cons, listed, List.append_assoc, List.append_assoc,
        readByName_member hkind hfresh hreadable.1 (Row.endsNumber_listed row rest)]
      exact hrest

/-- An object with distinct names is read back as the fields it was made of. -/
theorem parseRow_compact {row : Row} (hnodup : (row.map Prod.fst).Nodup)
    (hreadable : ∀ part ∈ row, part.2.Readable) :
    parseRow row.schema row.toValue.compact = .ok (row.map Prod.snd) := by
  have hlength := length_le_length_listed true row.nil_not_mem_map_member
  rw [List.length_map] at hlength
  have hfuel : row.length < (listed true (row.map Row.member) ++ ['\x7d']).length + 1 := by
    rw [List.length_append]
    omega
  have hread : readRow row.schema row.toValue.compact = .ok (row.map Prod.snd, []) := by
    rw [Row.compact_toValue]
    exact readByName_listed [] hnodup hreadable true [] hfuel
  rw [parseRow, hread]
  rfl

end QueryDigest.Json
