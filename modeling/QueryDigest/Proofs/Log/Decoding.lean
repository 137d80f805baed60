import QueryDigest.Log.Reader

/-!
Decoding and line feeds. The byte of a line feed belongs to no longer sequence: it ends whatever
malformed part stands in front of it, and no other bytes are read as a line feed. So decoding the
whole of some bytes and cutting the text gives the same lines as cutting the bytes and decoding.
-/

namespace QueryDigest

/-- Bytes are a last line, or a line with further bytes behind its line feed. -/
theorem Log.byLines {P : List UInt8 → Prop} (last : ∀ line, Log.lineFeed ∉ line → P line)
    (above : ∀ line rest, Log.lineFeed ∉ line → P rest → P (line ++ Log.lineFeed :: rest))
    (bytes : List UInt8) : P bytes := by
  induction h : bytes.length using Nat.strongRecOn generalizing bytes with
  | _ n ih =>
      by_cases hmem : Log.lineFeed ∈ bytes
      · obtain ⟨line, rest, rfl, hline⟩ := List.eq_append_cons_of_mem hmem
        have hshort : rest.length < n := by
          rw [← h, List.length_append, List.length_cons]
          omega
        exact above line rest hline (ih _ hshort rest rfl)
      · exact last bytes hmem

namespace Utf8

open Log (lineFeed)

theorem ofNat_ne_lineFeed {n : Nat} (h : n ≠ 10) : Char.ofNat n ≠ '\n' := by
  intro heq
  have hnat := congrArg Char.toNat heq
  by_cases hn : n.isValidChar
  · rw [Char.ofNat, dif_pos hn] at hnat
    exact h hnat
  · rw [Char.ofNat, dif_neg hn] at hnat
    cases hnat

/-- The next byte of a sequence lies beyond ASCII, and what the bytes so far and the next one spell
is too large for a character of fewer bytes. -/
structure Pending.Proper (p : Pending) : Prop where
  low : 0x80 ≤ p.low.toNat
  large : 128 ≤ p.value * 64 + (p.low.toNat - 128) ∨
    p.more ≠ 0 ∧ 2 ≤ p.value * 64 + (p.low.toNat - 128)

def Awaits (awaited : Option Pending) : Prop :=
  ∀ p, awaited = some p → p.Proper

theorem awaits_none : Awaits none := by
  intro p h
  cases h

/-- A first byte stands for itself, starts a proper sequence, or means nothing. -/
def Lead.Sound (b : UInt8) : Lead → Prop
  | .single c => c = Char.ofNat b.toNat
  | .sequence p => p.Proper
  | .stray => True

theorem Lead.sound_ofByte (b : UInt8) : (Lead.ofByte b).Sound b := by
  have hlt (k : UInt8) : b < k ↔ b.toNat < k.toNat := UInt8.lt_iff_toNat_lt
  have heq (k : UInt8) : (b == k) = true ↔ b.toNat = k.toNat := by
    rw [beq_iff_eq, ← UInt8.toNat_inj]
  simp only [Lead.ofByte, hlt, heq, UInt8.reduceToNat]
  repeat' split
  · rfl
  · trivial
  rotate_right
  · trivial
  all_goals
    refine ⟨Nat.le_of_ble_eq_true rfl, ?_⟩
    simp only [UInt8.reduceToNat]
    omega

theorem awaits_begin (b : UInt8) : Awaits (begin b).2 := by
  intro p h
  have hsound := Lead.sound_ofByte b
  cases hlead : Lead.ofByte b with
  | single c => simp [begin, hlead] at h
  | stray => simp [begin, hlead] at h
  | sequence q =>
      have hq : q = p := by simpa [begin, hlead] using h
      rw [hlead, hq] at hsound
      exact hsound

theorem lineFeed_not_mem_begin {b : UInt8} (h : b ≠ lineFeed) : '\n' ∉ (begin b).1 := by
  have hsound := Lead.sound_ofByte b
  cases hlead : Lead.ofByte b with
  | single c =>
      rw [hlead] at hsound
      have hb : b.toNat ≠ 10 := fun heq => h (UInt8.toNat_inj.mp heq)
      have hc : c = Char.ofNat b.toNat := hsound
      simpa [begin, hlead, hc] using (ofNat_ne_lineFeed hb).symm
  | stray => simp [begin, hlead, replacement]
  | sequence q => simp [begin, hlead]

theorem awaits_step {awaited : Option Pending} (h : Awaits awaited) (b : UInt8) :
    Awaits (step awaited b).2 := by
  cases awaited with
  | none => exact awaits_begin b
  | some p =>
      obtain ⟨hlow, hlarge⟩ := h p rfl
      simp only [step]
      split
      · rename_i hb
        have hpb : p.low.toNat ≤ b.toNat := UInt8.le_iff_toNat_le.mp hb.1
        split
        · exact awaits_none
        · intro q hq
          have hq' := Option.some.inj hq
          subst hq'
          refine ⟨Nat.le_of_ble_eq_true rfl, ?_⟩
          simp only [UInt8.reduceToNat]
          omega
      · exact awaits_begin b

theorem lineFeed_not_mem_step {awaited : Option Pending} (h : Awaits awaited) {b : UInt8}
    (hb : b ≠ lineFeed) : '\n' ∉ (step awaited b).1 := by
  cases awaited with
  | none => exact lineFeed_not_mem_begin hb
  | some p =>
      obtain ⟨hlow, hlarge⟩ := h p rfl
      simp only [step]
      split
      · rename_i hin
        have hpb : p.low.toNat ≤ b.toNat := UInt8.le_iff_toNat_le.mp hin.1
        split
        · rename_i hmore
          have hvalue : p.value * 64 + (b.toNat - 128) ≠ 10 := by
            rw [hmore] at hlarge
            omega
          simpa using (ofNat_ne_lineFeed hvalue).symm
        · simp
      · simpa [replacement] using lineFeed_not_mem_begin hb

theorem step_lineFeed {awaited : Option Pending} (h : Awaits awaited) :
    step awaited lineFeed = (decodeFrom [] awaited [] ++ ['\n'], none) := by
  cases awaited with
  | none => rfl
  | some p =>
      obtain ⟨hlow, -⟩ := h p rfl
      have hout : ¬ (p.low ≤ lineFeed ∧ lineFeed ≤ p.high) := by
        intro hin
        have hle := UInt8.le_iff_toNat_le.mp hin.1
        simp [lineFeed] at hle
        omega
      rw [step, if_neg hout]
      rfl

theorem decodeFrom_eq_append (done : Text) (awaited : Option Pending) (bytes : List UInt8) :
    decodeFrom done awaited bytes = done.reverse ++ decodeFrom [] awaited bytes := by
  induction bytes generalizing done awaited with
  | nil => cases awaited <;> simp [decodeFrom]
  | cons b rest ih =>
      simp only [decodeFrom]
      rw [ih, ih ((step awaited b).1.reverse ++ [])]
      simp

theorem decodeFrom_cons (awaited : Option Pending) (b : UInt8) (rest : List UInt8) :
    decodeFrom [] awaited (b :: rest) =
      (step awaited b).1 ++ decodeFrom [] (step awaited b).2 rest := by
  simp only [decodeFrom, List.append_nil]
  rw [decodeFrom_eq_append, List.reverse_reverse]

theorem decodeFrom_append_lineFeed {awaited : Option Pending} (h : Awaits awaited)
    (above below : List UInt8) :
    decodeFrom [] awaited (above ++ lineFeed :: below) =
      decodeFrom [] awaited above ++ '\n' :: decode below := by
  induction above generalizing awaited with
  | nil =>
      rw [List.nil_append, decodeFrom_cons, step_lineFeed h]
      simp [decode]
  | cons b rest ih =>
      rw [List.cons_append, decodeFrom_cons, decodeFrom_cons, ih (awaits_step h b),
        List.append_assoc]

theorem lineFeed_not_mem_decodeFrom {awaited : Option Pending} (h : Awaits awaited)
    {line : List UInt8} (hline : lineFeed ∉ line) : '\n' ∉ decodeFrom [] awaited line := by
  induction line generalizing awaited with
  | nil => cases awaited <;> simp [decodeFrom, replacement]
  | cons b rest ih =>
      rw [decodeFrom_cons, List.mem_append]
      rintro (hb | hrest)
      · exact lineFeed_not_mem_step h (fun heq => hline (heq ▸ List.mem_cons_self)) hb
      · exact ih (awaits_step h b) (fun hmem => hline (List.mem_cons_of_mem b hmem)) hrest

/-- What stands above a line feed is decoded apart from what stands below it. -/
theorem decode_append_lineFeed (above below : List UInt8) :
    decode (above ++ lineFeed :: below) = decode above ++ '\n' :: decode below :=
  decodeFrom_append_lineFeed awaits_none above below

theorem lineFeed_not_mem_decode {line : List UInt8} (h : lineFeed ∉ line) :
    '\n' ∉ decode line :=
  lineFeed_not_mem_decodeFrom awaits_none h

/-- The lines of the decoded text are the decoded lines. -/
theorem splitOn_decode (bytes : List UInt8) :
    (decode bytes).splitOn '\n' = (bytes.splitOn lineFeed).map decode := by
  induction bytes using Log.byLines with
  | last line hline =>
      rw [List.splitOn_eq_singleton hline,
        List.splitOn_eq_singleton (lineFeed_not_mem_decode hline), List.map_singleton]
  | above line rest hline ih =>
      rw [decode_append_lineFeed,
        List.splitOn_append_cons_self_of_not_mem (lineFeed_not_mem_decode hline),
        List.splitOn_append_cons_self_of_not_mem hline, ih, List.map_cons]

end Utf8
end QueryDigest
