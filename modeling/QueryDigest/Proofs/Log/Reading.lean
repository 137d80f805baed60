import QueryDigest.Proofs.Log.Decoding
import QueryDigest.Proofs.Text.Lines

/-!
Reading a log against reading its text. However the bytes of a log are cut into chunks, the reader
finds the statements in the lines of the decoded whole, and each of them stands on one line.
-/

namespace QueryDigest.Log

/-- The statements in the lines of a text. -/
def statementsIn (t : Text) : List Text :=
  (t.splitOn '\n').filterMap statementIn

theorem statementsIn_append_lineFeed (above below : Text) :
    statementsIn (above ++ '\n' :: below) = statementsIn above ++ statementsIn below := by
  rw [statementsIn, List.splitOn_append_cons_self, List.filterMap_append, statementsIn,
    statementsIn]

theorem filterMap_itemIn (lines : List (List UInt8)) :
    lines.filterMap itemIn =
      ((lines.map Utf8.decode).filterMap statementIn).map .statement := by
  rw [List.filterMap_map, List.map_filterMap]
  rfl

theorem filterMap_itemIn_splitOn (bytes : List UInt8) :
    (bytes.splitOn lineFeed).filterMap itemIn =
      (statementsIn (Utf8.decode bytes)).map .statement := by
  rw [filterMap_itemIn, ← Utf8.splitOn_decode, statementsIn]

theorem cutLines_of_not_mem {line : List UInt8} (h : lineFeed ∉ line) :
    cutLines line = ([], line) := by
  simp [cutLines, List.splitOn_eq_singleton h]

theorem cutLines_append_lineFeed {line : List UInt8} (h : lineFeed ∉ line)
    (rest : List UInt8) :
    cutLines (line ++ lineFeed :: rest) = (line :: (cutLines rest).1, (cutLines rest).2) := by
  rw [cutLines, List.splitOn_append_cons_self_of_not_mem h, List.reverse_cons, cutLines]
  cases hrest : (rest.splitOn lineFeed).reverse with
  | nil => simp at hrest
  | cons last complete => simp

theorem splitOn_append_eq_cutLines (bytes more : List UInt8) :
    lineFeed ∉ (cutLines bytes).2 ∧
      (bytes ++ more).splitOn lineFeed =
        (cutLines bytes).1 ++ ((cutLines bytes).2 ++ more).splitOn lineFeed := by
  induction bytes using byLines with
  | last line hline =>
      rw [cutLines_of_not_mem hline]
      exact ⟨hline, rfl⟩
  | above line rest hline ih =>
      obtain ⟨hopen, hrest⟩ := ih
      rw [cutLines_append_lineFeed hline, List.append_assoc, List.cons_append,
        List.splitOn_append_cons_self_of_not_mem hline, hrest]
      exact ⟨hopen, rfl⟩

theorem itemsAfter_cons (pending : List UInt8) {chunk : List UInt8} (h : chunk ≠ [])
    (rest : List Chunk) :
    itemsAfter pending (.bytes chunk :: rest) =
      (cutLines (pending ++ chunk)).1.filterMap itemIn
        ++ itemsAfter (cutLines (pending ++ chunk)).2 rest := by
  obtain ⟨b, chunk, rfl⟩ := List.exists_cons_of_ne_nil h
  rfl

theorem itemsAfter_bytes {pending : List UInt8} (hpending : lineFeed ∉ pending)
    {chunks : List (List UInt8)} (h : ∀ chunk ∈ chunks, chunk ≠ []) :
    itemsAfter pending (chunks.map .bytes) =
      ((pending ++ chunks.flatten).splitOn lineFeed).filterMap itemIn := by
  induction chunks generalizing pending with
  | nil =>
      rw [List.flatten_nil, List.append_nil, List.splitOn_eq_singleton hpending]
      cases hitem : itemIn pending <;> simp [itemsAfter, hitem]
  | cons chunk rest ih =>
      have hchunk : chunk ≠ [] := h chunk List.mem_cons_self
      obtain ⟨hopen, hcut⟩ := splitOn_append_eq_cutLines (pending ++ chunk) rest.flatten
      have hrest := ih hopen fun c hc => h c (List.mem_cons_of_mem chunk hc)
      rw [List.map_cons, itemsAfter, List.flatten_cons, ← List.append_assoc, hcut,
        List.filterMap_append, ← hrest]
      exact hchunk

theorem items_bytes {chunks : List (List UInt8)} (h : ∀ chunk ∈ chunks, chunk ≠ []) :
    items (chunks.map .bytes) =
      (statementsIn (Utf8.decode chunks.flatten)).map .statement := by
  rw [items, itemsAfter_bytes (by simp) h, List.nil_append, filterMap_itemIn_splitOn]

/-- A log is read as its decoded text is, wherever its bytes are cut into chunks. A last line needs
no line feed, and what stands on one line has no effect on the statements of the others. -/
theorem items_eq_statements_of_text (chunks : List (List UInt8))
    (h : ∀ chunk ∈ chunks, chunk ≠ []) :
    items (chunks.map .bytes) = (statementsIn (Utf8.decode chunks.flatten)).map .statement ∧
      (∀ chunks' : List (List UInt8), (∀ chunk ∈ chunks', chunk ≠ []) →
        chunks'.flatten = chunks.flatten → items (chunks'.map .bytes) = items (chunks.map .bytes)) ∧
      items ((chunks ++ [[lineFeed]]).map .bytes) = items (chunks.map .bytes) ∧
      ∀ above line below : List UInt8,
        chunks.flatten = above ++ lineFeed :: (line ++ lineFeed :: below) →
          items (chunks.map .bytes) =
            (statementsIn (Utf8.decode above) ++ statementsIn (Utf8.decode line)
              ++ statementsIn (Utf8.decode below)).map .statement := by
  refine ⟨items_bytes h, ?_, ?_, ?_⟩
  · intro chunks' h' hflatten
    rw [items_bytes h', items_bytes h, hflatten]
  · have hended : ∀ chunk ∈ chunks ++ [[lineFeed]], chunk ≠ [] := by
      intro chunk hmem
      rw [List.mem_append, List.mem_singleton] at hmem
      obtain hmem | rfl := hmem
      · exact h chunk hmem
      · exact List.cons_ne_nil _ _
    have hempty : statementsIn (Utf8.decode []) = [] := rfl
    rw [items_bytes hended, items_bytes h, List.flatten_append, List.flatten_singleton,
      Utf8.decode_append_lineFeed, statementsIn_append_lineFeed, hempty, List.append_nil]
  · intro above line below hbytes
    rw [items_bytes h, hbytes, Utf8.decode_append_lineFeed, statementsIn_append_lineFeed,
      Utf8.decode_append_lineFeed, statementsIn_append_lineFeed, List.append_assoc]

/-- A character and a line ending are cut in two, one line is no text, and the last one is open. -/
theorem items_eq_statements_of_text_cut :
    (∀ chunk ∈ [[0x73, 0xC3], [0xA9, 0x0D], [0x0A, 0xFF, 0x0A, 0x28]], chunk ≠ ([] : List UInt8)) ∧
      items ([[0x73, 0xC3], [0xA9, 0x0D], [0x0A, 0xFF, 0x0A, 0x28]].map .bytes) =
        [.statement "sé".toList, .statement "(".toList] := by
  refine ⟨by decide, ?_⟩
  rw [(items_eq_statements_of_text _ (by decide)).1]
  decide +kernel

/-! ### Interruptions -/

/-- A log as it would have been read without interruptions. -/
def uninterrupted (chunks : List Chunk) : List Chunk :=
  chunks.filter fun
    | .interrupted => false
    | .bytes _ | .failure _ => true

/-- An interruption has no effect, wherever it falls. -/
theorem itemsAfter_uninterrupted (pending : List UInt8) (chunks : List Chunk) :
    itemsAfter pending (uninterrupted chunks) = itemsAfter pending chunks := by
  induction chunks generalizing pending with
  | nil => rfl
  | cons chunk rest ih =>
      cases chunk with
      | interrupted => exact ih pending
      | failure message => exact congrArg (.failure message :: ·) (ih [])
      | bytes bytes =>
          rw [uninterrupted, List.filter_cons_of_pos rfl, ← uninterrupted]
          cases bytes with
          | nil => rw [itemsAfter, itemsAfter, ih]
          | cons b bytes =>
              rw [itemsAfter_cons pending (List.cons_ne_nil b bytes), ih,
                itemsAfter_cons pending (List.cons_ne_nil b bytes)]

theorem items_uninterrupted (chunks : List Chunk) : items (uninterrupted chunks) = items chunks :=
  itemsAfter_uninterrupted [] chunks

/-! ### One line -/

theorem lineFeed_not_mem_of_mem_splitOn {bytes line : List UInt8}
    (h : line ∈ bytes.splitOn lineFeed) : lineFeed ∉ line := by
  induction bytes using byLines with
  | last last hlast =>
      rw [List.splitOn_eq_singleton hlast, List.mem_singleton] at h
      exact h ▸ hlast
  | above first rest hfirst ih =>
      rw [List.splitOn_append_cons_self_of_not_mem hfirst, List.mem_cons] at h
      obtain rfl | h := h
      · exact hfirst
      · exact ih h

theorem lineFeed_not_mem_of_mem_cutLines {bytes line : List UInt8}
    (h : line ∈ (cutLines bytes).1) : lineFeed ∉ line := by
  have hcut := (splitOn_append_eq_cutLines bytes []).2
  rw [List.append_nil] at hcut
  exact lineFeed_not_mem_of_mem_splitOn (hcut ▸ List.mem_append_left _ h)

theorem beforeDelimiter_sublist (line : Text) : (beforeDelimiter line).Sublist line := by
  have htrimmed : (line.dropRightWhile Unicode.isBlank).Sublist line := by
    have hsublist := (line.reverse.dropWhile_sublist Unicode.isBlank).reverse
    rwa [List.reverse_reverse] at hsublist
  exact (List.takeWhile_sublist _).trans htrimmed

theorem statementIn_sublist {line statement : Text} (h : statementIn line = some statement) :
    statement.Sublist line := by
  unfold statementIn at h
  simp only at h
  split at h
  · cases h
  · obtain ⟨-, rfl⟩ := Option.ite_some_none_eq_some.mp h
    exact (List.dropWhile_sublist _).trans (beforeDelimiter_sublist line)

theorem oneLine_of_itemIn {line : List UInt8} (hline : lineFeed ∉ line) {q : Text}
    (h : itemIn line = some (.statement q)) : Text.OneLine q := by
  obtain ⟨statement, hstatement, heq⟩ := Option.map_eq_some_iff.mp h
  cases heq
  exact Text.OneLine.of_subset (Utf8.lineFeed_not_mem_decode hline)
    fun _ hc => (statementIn_sublist hstatement).subset hc

theorem oneLine_of_mem_itemsAfter {pending : List UInt8} (hpending : lineFeed ∉ pending)
    {chunks : List Chunk} {q : Text} (h : .statement q ∈ itemsAfter pending chunks) :
    Text.OneLine q := by
  induction chunks generalizing pending with
  | nil => exact oneLine_of_itemIn hpending (Option.mem_toList.mp h)
  | cons chunk rest ih =>
      cases chunk with
      | interrupted => exact ih hpending h
      | failure message =>
          obtain h | h := List.mem_cons.mp h
          · cases h
          · exact ih List.not_mem_nil h
      | bytes bytes =>
          cases bytes with
          | nil =>
              rw [itemsAfter] at h
              split at h
              · cases h
              · obtain h | h := List.mem_append.mp h
                · exact oneLine_of_itemIn hpending (Option.mem_toList.mp h)
                · exact ih List.not_mem_nil h
          | cons b bytes =>
              obtain h | h := List.mem_append.mp h
              · obtain ⟨line, hline, hitem⟩ := List.mem_filterMap.mp h
                exact oneLine_of_itemIn (lineFeed_not_mem_of_mem_cutLines hline) hitem
              · exact ih (splitOn_append_eq_cutLines (pending ++ b :: bytes) []).1 h

/-- No statement of a log has a line feed in it, whatever interrupts the reading. -/
theorem oneLine_of_mem_items {chunks : List Chunk} {q : Text} (h : .statement q ∈ items chunks) :
    Text.OneLine q :=
  oneLine_of_mem_itemsAfter List.not_mem_nil h

theorem itemsAfter_map_bytes (pending : List UInt8) (chunks : List (List UInt8)) :
    ∃ statements : List Text,
      itemsAfter pending (chunks.map .bytes) = statements.map .statement := by
  have hitem (line : List UInt8) : ∃ statements : List Text,
      (itemIn line).toList = statements.map .statement := by
    refine ⟨(statementIn (Utf8.decode line)).toList, ?_⟩
    rw [itemIn, Option.toList_map]
  induction chunks generalizing pending with
  | nil => exact hitem pending
  | cons chunk rest ih =>
      cases chunk with
      | nil =>
          rw [List.map_cons, itemsAfter]
          split
          · exact ⟨[], rfl⟩
          · obtain ⟨last, hlast⟩ := hitem pending
            obtain ⟨more, hmore⟩ := ih []
            exact ⟨last ++ more, by rw [hlast, hmore, List.map_append]⟩
      | cons b bytes =>
          obtain ⟨more, hmore⟩ := ih (cutLines (pending ++ b :: bytes)).2
          obtain ⟨complete, hcomplete⟩ : ∃ statements : List Text,
              (cutLines (pending ++ b :: bytes)).1.filterMap itemIn = statements.map .statement :=
            ⟨_, filterMap_itemIn _⟩
          exact ⟨complete ++ more, by rw [List.map_append, ← hcomplete, ← hmore]; rfl⟩

/-- What is read without failures are statements. -/
theorem items_map_bytes (chunks : List (List UInt8)) :
    ∃ statements : List Text, items (chunks.map .bytes) = statements.map .statement :=
  itemsAfter_map_bytes [] chunks

end QueryDigest.Log
