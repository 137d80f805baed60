import QueryDigest.Proofs.Statement.UnclosedComments
import QueryDigest.Proofs.Text.Utf8Bytes

/-!
The scan for an unclosed comment over the bytes of a text. A scan over units of any kind passes over
the unit behind a backslash and over closed comments unread. On the bytes of a text it stops where
it does on the characters, since a jump into a character leaves bytes that mark nothing.
-/

namespace QueryDigest.Comment

open Utf8

section

variable {α : Type} [DecidableEq α] (unit : Char → α)

/-- The number of units in front of the first end of a comment. -/
def endOver : List α → Option Nat
  | [] => none
  | x :: rest =>
    if x = unit '*' ∧ rest.head? = some (unit '/') then some 0 else (endOver rest).map (· + 1)

/-- The number of units in front of the first comment left open, unless a version comment opens
there, if `place` units are read and the next `jump` ones stay unread. -/
def stopOver : (jump : Nat) → (quote : Option α) → (place : Nat) → List α → Option Nat
  | _, _, _, [] => none
  | jump + 1, quote, n, _ :: rest => stopOver jump quote (n + 1) rest
  | 0, some quote, n, x :: rest =>
    if x = unit '\\' then stopOver 1 (some quote) (n + 1) rest
    else if x = quote then stopOver 0 none (n + 1) rest
    else stopOver 0 (some quote) (n + 1) rest
  | 0, none, n, x :: rest =>
    if x = unit '\'' ∨ x = unit '"' ∨ x = unit '\x60' then stopOver 0 (some x) (n + 1) rest
    else if x = unit '/' ∧ rest.head? = some (unit '*') then
      match endOver unit rest.tail with
      | some close => stopOver (close + 3) none (n + 1) rest
      | none => if rest.tail.head? = some (unit '!') then none else some n
    else stopOver 0 none (n + 1) rest

def cutOver (units : List α) : List α :=
  match stopOver unit 0 none 0 units with
  | some n => units.take n
  | none => units

/-- The scan reads a piece in front of `rest` and goes from one state to another. -/
def Passes (quote : Option α) (piece rest : List α) (quote' : Option α) : Prop :=
  ∀ n, stopOver unit 0 quote n (piece ++ rest) = stopOver unit 0 quote' (n + piece.length) rest

/-- The characters at which the scan may change its state. -/
def marks : List Char :=
  ['\'', '"', '\x60', '\\', '/']

/-- A unit that the scan reads without a change of its state. -/
def Idle (quote : Option α) (x : α) : Prop :=
  quote ≠ some x ∧ ∀ mark ∈ marks, x ≠ unit mark

variable {unit} {quote quote' quote'' : Option α} {q x : α} {piece piece' rest : List α}

theorem Passes.append (h : Passes unit quote piece (piece' ++ rest) quote')
    (h' : Passes unit quote' piece' rest quote'') :
    Passes unit quote (piece ++ piece') rest quote'' := by
  intro n
  rw [List.append_assoc, h, h', List.length_append, Nat.add_assoc]

theorem passes_escape : Passes unit (some q) [unit '\\', x] rest (some q) := by
  intro n
  rw [List.cons_append, stopOver, if_pos rfl, List.singleton_append, stopOver]
  rfl

theorem passes_close (hq : q ≠ unit '\\') : Passes unit (some q) [q] rest none := by
  intro n
  rw [List.singleton_append, stopOver, if_neg hq, if_pos rfl, List.length_singleton]

theorem passes_quoted (hescape : x ≠ unit '\\') (hx : x ≠ q) :
    Passes unit (some q) [x] rest (some q) := by
  intro n
  rw [List.singleton_append, stopOver, if_neg hescape, if_neg hx, List.length_singleton]

theorem passes_quote (hx : x = unit '\'' ∨ x = unit '"' ∨ x = unit '\x60') :
    Passes unit none [x] rest (some x) := by
  intro n
  rw [List.singleton_append, stopOver, if_pos hx, List.length_singleton]

theorem passes_plain (hx : ¬ (x = unit '\'' ∨ x = unit '"' ∨ x = unit '\x60'))
    (hopener : ¬ (x = unit '/' ∧ rest.head? = some (unit '*'))) :
    Passes unit none [x] rest none := by
  intro n
  rw [List.singleton_append, stopOver, if_neg hx, if_neg hopener, List.length_singleton]

theorem passes_idle (h : ∀ x ∈ piece, Idle unit quote x) : Passes unit quote piece rest quote := by
  induction piece with
  | nil => exact fun _ => rfl
  | cons x piece ih =>
      obtain ⟨⟨hquote, hmarks⟩, hpiece⟩ := List.forall_mem_cons.mp h
      simp only [marks, List.forall_mem_cons] at hmarks
      obtain ⟨hsingle, hdouble, htick, hescape, hslash, _⟩ := hmarks
      have hx : Passes unit quote [x] (piece ++ rest) quote := by
        cases quote with
        | none => exact passes_plain (by simp [hsingle, hdouble, htick]) fun h => hslash h.1
        | some q => exact passes_quoted hescape fun hclose => hquote (congrArg some hclose.symm)
      exact hx.append (ih hpiece)

theorem stopOver_jump (jump : Nat) (quote : Option α) (n : Nat) (units : List α) :
    stopOver unit jump quote n units =
      stopOver unit 0 quote (n + jump) (units.drop jump) := by
  induction jump generalizing n units with
  | zero => rfl
  | succ jump ih =>
      cases units with
      | nil => simp [stopOver]
      | cons x rest =>
          rw [stopOver, ih, List.drop_succ_cons, Nat.add_right_comm, Nat.add_assoc]

section

variable (hslash : ¬ (unit '/' = unit '\'' ∨ unit '/' = unit '"' ∨ unit '/' = unit '\x60'))

include hslash

theorem stopOver_opener (n : Nat) (body : List α) :
    stopOver unit 0 none n (unit '/' :: unit '*' :: body) =
      match endOver unit body with
      | some close => stopOver unit (close + 3) none (n + 1) (unit '*' :: body)
      | none => if body.head? = some (unit '!') then none else some n := by
  rw [stopOver, if_neg hslash, if_pos ⟨rfl, rfl⟩, List.tail_cons]

theorem passes_comment {front : List α}
    (hend : endOver unit (front ++ unit '*' :: unit '/' :: rest) = some front.length) :
    Passes unit none (unit '/' :: unit '*' :: (front ++ [unit '*', unit '/'])) rest none := by
  intro n
  have hsplit : unit '*' :: (front ++ unit '*' :: unit '/' :: rest) =
      (unit '*' :: (front ++ [unit '*', unit '/'])) ++ rest := by simp
  have hlength : (unit '*' :: (front ++ [unit '*', unit '/'])).length = front.length + 3 := by simp
  rw [List.cons_append, ← hsplit, stopOver_opener hslash, hend]
  dsimp only
  rw [stopOver_jump, hsplit, List.drop_left' hlength, List.length_cons, hlength, Nat.add_right_comm,
    Nat.add_assoc n]

end

theorem endOver_append {xs : List α} (h : unit '*' ∉ xs) (units : List α) :
    endOver unit (xs ++ units) = (endOver unit units).map (xs.length + ·) := by
  induction xs with
  | nil => simp
  | cons x xs ih =>
      rw [List.mem_cons, not_or] at h
      rw [List.cons_append, endOver, if_neg (fun hend => h.1 hend.1.symm), ih h.2, Option.map_map]
      congr 1
      funext k
      simp only [Function.comp, List.length_cons]
      omega

theorem exists_of_endOver {units : List α} {k : Nat} (h : endOver unit units = some k) :
    ∃ front rest, units = front ++ unit '*' :: unit '/' :: rest ∧ front.length = k := by
  induction units generalizing k with
  | nil => cases h
  | cons x units ih =>
      rw [endOver] at h
      split_ifs at h with hend
      · obtain ⟨rfl, hhead⟩ := hend
        cases units with
        | nil => cases hhead
        | cons y rest =>
            cases hhead
            cases h
            exact ⟨[], rest, rfl, rfl⟩
      · obtain ⟨j, hj, rfl⟩ := Option.map_eq_some_iff.mp h
        obtain ⟨front, rest, rfl, hlength⟩ := ih hj
        exact ⟨x :: front, rest, rfl, by rw [List.length_cons, hlength]⟩

end

/-! ### Characters -/

theorem isQuote_iff {c : Char} : isQuote c = true ↔ c = '\'' ∨ c = '"' ∨ c = '\x60' := by
  simp [isQuote, or_assoc]

theorem closes_eq (t : Text) : closes t = (endOver id t).isSome := by
  induction t with
  | nil => rfl
  | cons c rest ih =>
      rw [closes, endOver, ih]
      by_cases hend : c = '*' ∧ rest.head? = some '/'
      · simp [hend]
      · simp only [id, if_neg hend, Option.isSome_map]
        simpa using fun hstar hslash => absurd ⟨hstar, hslash⟩ hend

/-- The state of the scan that jumps, where the one that does not reads `t` in the given
surroundings. -/
inductive Reads (t : Text) : Surroundings → Nat → Option Char → Prop
  | plain : Reads t .plain 0 none
  | quoted (quote : Char) : Reads t (.quoted quote) 0 (some quote)
  | escaped (quote : Char) : Reads t (.escaped quote) 1 (some quote)
  | opener {k : Nat} (h : endOver id t.tail = some k) : Reads t .opener (k + 3) none
  | comment {k : Nat} (h : endOver id t = some k) : Reads t .comment (k + 2) none
  | closer : Reads t .closer 1 none

theorem stopOver_id {t : Text} {s : Surroundings} {jump : Nat} {quote : Option Char}
    (h : Reads t s jump quote) (n : Nat) : stopOver id jump quote n t = unclosedFrom s n t := by
  induction t generalizing s jump quote n with
  | nil => rw [stopOver, unclosedFrom]
  | cons c rest ih =>
      cases h with
      | plain =>
          rw [stopOver, unclosedFrom]
          simp only [id, ← isQuote_iff]
          by_cases hquote : isQuote c = true
          · rw [if_pos hquote, if_pos hquote, ih (.quoted c)]
          · rw [if_neg hquote, if_neg hquote]
            by_cases hopener : c = '/' ∧ rest.head? = some '*'
            · rw [if_pos hopener, if_pos hopener, closes_eq]
              cases hend : endOver id rest.tail with
              | none => rfl
              | some k => exact ih (.opener hend) _
            · rw [if_neg hopener, if_neg hopener, ih .plain]
      | quoted q =>
          rw [stopOver, unclosedFrom]
          simp only [id]
          split_ifs
          · exact ih (.escaped q) _
          · exact ih .plain _
          · exact ih (.quoted q) _
      | escaped q => exact ih (.quoted q) _
      | opener hend => exact ih (.comment hend) _
      | comment hend =>
          rw [stopOver, unclosedFrom]
          rw [endOver] at hend
          simp only [id] at hend
          split_ifs at hend ⊢
          · cases hend
            exact ih .closer _
          · obtain ⟨k, hk, rfl⟩ := Option.map_eq_some_iff.mp hend
            exact ih (.comment hk) _
      | closer => exact ih .plain _

theorem cutUnclosed_eq_cutOver (t : Text) : cutUnclosed t = cutOver id t := by
  cases hscan : unclosedFrom .plain 0 t <;>
    simp only [cutUnclosed, cutOver, stopOver_id .plain, hscan]

/-! ### Bytes -/

/-- The number of bytes that the first `n` characters of a text take. -/
def byteOffset (t : Text) (n : Nat) : Nat :=
  (encode (t.take n)).length

theorem byteOffset_append (s t : Text) : byteOffset (s ++ t) s.length = (encode s).length := by
  rw [byteOffset, List.take_left]

theorem endOver_encode (t : Text) :
    endOver byte (encode t) = (endOver id t).map (byteOffset t) := by
  induction t with
  | nil => rfl
  | cons c t ih =>
      have hoffset : ∀ k, byteOffset (c :: t) (k + 1) = (encodeChar c).length + byteOffset t k := by
        intro k
        rw [byteOffset, List.take_succ_cons, encode_cons, List.length_append, byteOffset]
      by_cases hend : c = '*' ∧ t.head? = some '/'
      · obtain ⟨rfl, hhead⟩ := hend
        have hbyte : (encode t).head? = some (byte '/') := (head?_encode (by decide) t).mpr hhead
        rw [encode_ascii_cons (by decide), endOver, endOver, if_pos ⟨rfl, hbyte⟩,
          if_pos ⟨rfl, hhead⟩]
        rfl
      · have hmap : (endOver id (c :: t)).map (byteOffset (c :: t)) =
            ((endOver id t).map (byteOffset t)).map ((encodeChar c).length + ·) := by
          simp only [endOver, id_eq, if_neg hend, Option.map_map]
          congr 1
          funext k
          exact hoffset k
        rw [hmap, encode_cons, ← ih]
        by_cases hc : c.toNat < 0x80
        · have hend' : ¬ (byte c = byte '*' ∧ (encode t).head? = some (byte '/')) := by
            rw [byte_inj hc (by decide), head?_encode (by decide)]
            exact hend
          rw [encodeChar_ascii hc, List.singleton_append, endOver, if_neg hend']
          simp only [List.length_singleton, Nat.add_comm 1]
        · exact endOver_append (byte_notMem_encodeChar hc (by decide)) _

/-- The scan over the bytes of `ahead` behind those of `done` stops where the one over the
characters does. -/
def Agree (done ahead : Text) (quote : Option Char) : Prop :=
  stopOver byte 0 (quote.map byte) (encode done).length (encode ahead) =
    (stopOver id 0 quote done.length ahead).map (byteOffset (done ++ ahead))

section

variable {done piece rest : Text} {c : Char} {quote quote' : Option Char}

theorem Agree.behind (h : Agree (done ++ piece) rest quote')
    (hbytes : Passes byte (quote.map byte) (encode piece) (encode rest) (quote'.map byte))
    (hchars : Passes id quote piece rest quote') : Agree done (piece ++ rest) quote := by
  rw [Agree, encode_append, hbytes, hchars]
  rwa [Agree, encode_append, List.length_append, List.length_append, List.append_assoc] at h

theorem Agree.char (h : Agree (done ++ [c]) rest quote') (hc : c.toNat < 0x80)
    (hbyte : Passes byte (quote.map byte) [byte c] (encode rest) (quote'.map byte))
    (hchar : Passes id quote [c] rest quote') : Agree done (c :: rest) quote := by
  rw [← encode_nil, ← encode_ascii_cons hc] at hbyte
  exact h.behind hbyte hchar

/-- A quote of a literal, if the scan stands in one. -/
def QuoteState (quote : Option Char) : Prop :=
  ∀ q ∈ quote, isQuote q = true

theorem quoteState_none : QuoteState none := by
  simp [QuoteState]

theorem QuoteState.ascii (h : QuoteState quote) : ∀ q ∈ quote, q.toNat < 0x80 := by
  intro q hq
  obtain rfl | rfl | rfl := isQuote_iff.mp (h q hq) <;> decide

theorem toNat_mark : ∀ mark ∈ marks, mark.toNat < 0x80 := by
  decide

theorem idle_id (hquote : QuoteState quote) (hc : ¬ c.toNat < 0x80) : Idle id quote c :=
  ⟨fun h => hc (hquote.ascii c h), fun mark hmark heq => hc (heq ▸ toNat_mark mark hmark)⟩

theorem idle_byte (hquote : QuoteState quote) (hc : ¬ c.toNat < 0x80) :
    ∀ b ∈ encodeChar c, Idle byte (quote.map byte) b := by
  intro b hb
  refine ⟨fun h => ?_, fun mark hmark heq => ?_⟩
  · obtain ⟨q, hq, rfl⟩ := Option.map_eq_some_iff.mp h
    exact byte_notMem_encodeChar hc (hquote.ascii q hq) hb
  · exact byte_notMem_encodeChar hc (toNat_mark mark hmark) (heq ▸ hb)

/-- A character between quotes that escapes none. -/
theorem agree_quoted {q : Char} (h : ∀ {quote}, QuoteState quote → Agree (done ++ [c]) rest quote)
    (hquote : QuoteState (some q)) (hc : c.toNat < 0x80) (hescape : c ≠ '\\') :
    Agree done (c :: rest) (some q) := by
  have hescape' : byte c ≠ byte '\\' := by rwa [ne_eq, byte_inj hc (by decide)]
  by_cases hclose : c = q
  · subst hclose
    exact (h quoteState_none).char hc (passes_close hescape') (passes_close hescape)
  · have hclose' : byte c ≠ byte q := by rwa [ne_eq, byte_inj hc (hquote.ascii q rfl)]
    exact (h hquote).char hc (passes_quoted hescape' hclose') (passes_quoted hescape hclose)

/-- A character outside literals that opens no comment. -/
theorem agree_plain (h : ∀ {quote}, QuoteState quote → Agree (done ++ [c]) rest quote)
    (hc : c.toNat < 0x80) (hopener : ¬ (c = '/' ∧ rest.head? = some '*')) :
    Agree done (c :: rest) none := by
  have hopener' : ¬ (byte c = byte '/' ∧ (encode rest).head? = some (byte '*')) := by
    rwa [byte_inj hc (by decide), head?_encode (by decide)]
  have hbyte : (byte c = byte '\'' ∨ byte c = byte '"' ∨ byte c = byte '\x60') ↔
      isQuote c = true := by
    rw [byte_inj hc (by decide), byte_inj hc (by decide), byte_inj hc (by decide), isQuote_iff]
  by_cases hquote : isQuote c = true
  · have hstate : QuoteState (some c) := by simpa [QuoteState] using hquote
    exact (h hstate).char hc (passes_quote (hbyte.mpr hquote))
      (passes_quote (isQuote_iff.mp hquote))
  · exact (h quoteState_none).char hc (passes_plain (mt hbyte.mp hquote) hopener')
      (passes_plain (mt isQuote_iff.mpr hquote) hopener)

theorem Agree.wide (h : Agree (done ++ [c]) rest quote) (hquote : QuoteState quote)
    (hc : ¬ c.toNat < 0x80) : Agree done (c :: rest) quote := by
  have hbytes : Passes byte (quote.map byte) (encode [c]) (encode rest) (quote.map byte) := by
    rw [encode_cons, encode_nil, List.append_nil]
    exact passes_idle (idle_byte hquote hc)
  have hchar : Passes id quote [c] rest quote :=
    passes_idle (List.forall_mem_singleton.mpr (idle_id hquote hc))
  exact h.behind hbytes hchar

/-- Of the character behind a backslash the first byte is passed over, and the others are read. -/
theorem Agree.escape {q : Char} (h : Agree (done ++ ['\\', c]) rest (some q))
    (hquote : QuoteState (some q)) : Agree done ('\\' :: c :: rest) (some q) := by
  obtain ⟨b, bs, hbytes⟩ := List.exists_cons_of_ne_nil (encodeChar_ne_nil c)
  have hidle : ∀ x ∈ bs, Idle byte (some (byte q)) x := by
    intro x hx
    by_cases hc : c.toNat < 0x80
    · rw [encodeChar_ascii hc] at hbytes
      cases hbytes
      cases hx
    · exact idle_byte hquote hc x (hbytes ▸ List.mem_cons_of_mem b hx)
  have hencode : encode ['\\', c] = [byte '\\', b] ++ bs := by
    rw [encode_ascii_cons (by decide), encode_cons, hbytes, encode_nil, List.append_nil]
    rfl
  have hpasses : Passes byte (some (byte q)) (encode ['\\', c]) (encode rest) (some (byte q)) := by
    rw [hencode]
    exact passes_escape.append (passes_idle hidle)
  exact h.behind hpasses passes_escape

theorem Agree.comment {front : Text}
    (h : Agree (done ++ '/' :: '*' :: (front ++ ['*', '/'])) rest none)
    (hend : endOver id (front ++ '*' :: '/' :: rest) = some front.length) :
    Agree done ('/' :: '*' :: (front ++ ['*', '/']) ++ rest) none := by
  have hencode : encode (front ++ '*' :: '/' :: rest) =
      encode front ++ byte '*' :: byte '/' :: encode rest := by
    rw [encode_append, encode_ascii_cons (by decide), encode_ascii_cons (by decide)]
  have hbytes : endOver byte (encode front ++ byte '*' :: byte '/' :: encode rest) =
      some (encode front).length := by
    rw [← hencode, endOver_encode, hend, Option.map_some, byteOffset_append]
  refine h.behind ?_ (passes_comment (by decide) hend)
  rw [encode_ascii_cons (by decide), encode_ascii_cons (by decide), encode_append,
    encode_ascii_cons (by decide), encode_ascii_cons (by decide)]
  exact passes_comment (by decide) hbytes

theorem agree_unclosed {body : Text} (hend : endOver id body = none) :
    Agree done ('/' :: '*' :: body) none := by
  have hbytes : endOver byte (encode body) = none := by
    rw [endOver_encode, hend, Option.map_none]
  have hchars := @stopOver_opener _ _ id (by decide) done.length body
  rw [hend] at hchars
  rw [Agree, encode_ascii_cons (by decide), encode_ascii_cons (by decide), Option.map_none,
    stopOver_opener (by decide), hbytes]
  refine Eq.trans ?_ (congrArg _ hchars).symm
  by_cases hmark : body.head? = some '!'
  · simp [hmark, head?_encode (show '!'.toNat < 0x80 by decide)]
  · simp [hmark, head?_encode (show '!'.toNat < 0x80 by decide), byteOffset_append]

end

theorem agree (done ahead : Text) {quote : Option Char} (hquote : QuoteState quote) :
    Agree done ahead quote := by
  -- On the length of what is ahead, since an escape and a closed comment are passed over whole.
  induction hsize : ahead.length using Nat.strong_induction_on generalizing done ahead quote with
  | _ size ih =>
      have hbehind : ∀ {piece rest quote}, ahead = piece ++ rest → piece ≠ [] →
          QuoteState quote → Agree (done ++ piece) rest quote := by
        intro piece rest quote hsplit hne hquote
        refine ih rest.length ?_ _ rest hquote rfl
        rw [← hsize, hsplit, List.length_append]
        exact Nat.lt_add_of_pos_left (List.length_pos_iff.mpr hne)
      cases ahead with
      | nil => rfl
      | cons c rest =>
          have hnext : ∀ {quote}, QuoteState quote → Agree (done ++ [c]) rest quote :=
            hbehind rfl (List.cons_ne_nil c [])
          by_cases hc : c.toNat < 0x80
          · cases quote with
            | some q =>
                by_cases hescape : c = '\\'
                · subst hescape
                  cases rest with
                  | nil => rfl
                  | cons d rest => exact (hbehind rfl (List.cons_ne_nil _ [d]) hquote).escape hquote
                · exact agree_quoted hnext hquote hc hescape
            | none =>
                by_cases hopener : c = '/' ∧ rest.head? = some '*'
                · obtain ⟨rfl, hhead⟩ := hopener
                  obtain ⟨body, rfl⟩ := List.head?_eq_some_iff.mp hhead
                  cases hend : endOver id body with
                  | none => exact agree_unclosed hend
                  | some k =>
                      obtain ⟨front, rest, rfl, rfl⟩ := exists_of_endOver hend
                      have hsplit : '/' :: '*' :: (front ++ '*' :: '/' :: rest) =
                          '/' :: '*' :: (front ++ ['*', '/']) ++ rest := by simp
                      have hcomment := hbehind hsplit (List.cons_ne_nil _ _) quoteState_none
                      exact hsplit ▸ hcomment.comment hend
                · exact agree_plain hnext hc hopener
          · exact (hnext hquote).wide hquote hc

theorem cutOver_encode (t : Text) : cutOver byte (encode t) = encode (cutUnclosed t) := by
  have hstop : stopOver byte 0 none 0 (encode t) = (stopOver id 0 none 0 t).map (byteOffset t) :=
    agree [] t quoteState_none
  rw [cutUnclosed_eq_cutOver, cutOver, cutOver, hstop]
  cases stopOver id 0 none 0 t with
  | none => rfl
  | some n =>
      have hsplit : encode t = encode (t.take n) ++ encode (t.drop n) := by
        rw [← encode_append, List.take_append_drop]
      exact hsplit ▸ List.take_left

theorem cutUnclosed_isPrefix (t : Text) : cutUnclosed t <+: t := by
  rw [cutUnclosed]
  cases unclosedFrom .plain 0 t with
  | none => exact List.prefix_rfl
  | some n => exact List.take_prefix n t

/-- The scan over bytes cuts a text as the one over characters does, in front of the first unclosed
comment unless it is a version comment, and leaves what it has cut as it is. -/
theorem cutUnclosed_laws (t : Text) :
    cutUnclosed t = cutOver id t ∧
      cutOver byte (encode t) = encode (cutUnclosed t) ∧
      cutUnclosed t <+: t ∧
      (∀ before behind, FirstUnclosed t before behind →
        cutUnclosed t = if behind.head? = some '!' then t else before) ∧
      ((∀ before behind, ¬ Unclosed t before behind) → cutUnclosed t = t) ∧
      cutUnclosed (cutUnclosed t) = cutUnclosed t :=
  ⟨cutUnclosed_eq_cutOver t, cutOver_encode t, cutUnclosed_isPrefix t,
    fun _ _ => cutUnclosed_first, cutUnclosed_of_closed, cutUnclosed_idem t⟩

/-- A backslash in front of a character of two bytes, an opener in its literal and a closed version
comment, all in front of the comment that is left open. -/
theorem cutUnclosed_laws_wide :
    let before := "'\\\u00e9/*' /*!a*/ \u00e9".toList
    FirstUnclosed (before ++ "/*b".toList) before ['b'] ∧
      cutUnclosed (before ++ "/*b".toList) = before ∧
      cutOver byte (encode (before ++ "/*b".toList)) = encode before := by
  intro before
  obtain ⟨_, hbytes, _, hfirst, hclosed, _⟩ := cutUnclosed_laws (before ++ "/*b".toList)
  have hcut : cutUnclosed (before ++ "/*b".toList) = before := by decide +kernel
  have hlonger : before ≠ before ++ "/*b".toList := by simp
  obtain ⟨u, v, hopen⟩ : ∃ u v, Unclosed (before ++ "/*b".toList) u v := by
    by_contra hnone
    exact hlonger (hcut.symm.trans (hclosed fun u v hopen => hnone ⟨u, v, hopen⟩))
  obtain ⟨u, v, hopen⟩ := exists_first hopen
  have hat := hfirst u v hopen
  rw [hcut] at hat
  split_ifs at hat
  · exact absurd hat hlonger
  · subst hat
    obtain rfl : v = ['b'] := by simpa using hopen.1.split.symm
    exact ⟨hopen, hcut, hcut ▸ hbytes⟩

end QueryDigest.Comment
