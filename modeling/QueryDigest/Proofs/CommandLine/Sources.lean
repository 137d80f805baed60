import QueryDigest.CommandLine.FileTree
import QueryDigest.Proofs.Batch
import QueryDigest.Proofs.CommandLine.Arguments
import QueryDigest.Proofs.Log.Reading
import QueryDigest.Proofs.Text.Utf8

/-!
The sources of a run side by side. Whether bytes stand in a file or come as input, a run prints the
report on their statements, and a statement given as an argument is printed as its line would be.
Settings are checked before a source is opened, and a run that fails so prints nothing. Whether a
batch has room is not a matter of that check.
-/

namespace QueryDigest

namespace Log

/-- Chunks that hold some bytes, cut anywhere, with or without the empty chunk at their end. There
may be interruptions anywhere. -/
def Hold (chunks : List Chunk) (bytes : List UInt8) : Prop :=
  ∃ pieces : List (List UInt8), (∀ piece ∈ pieces, piece ≠ []) ∧ pieces.flatten = bytes ∧
    (uninterrupted chunks = pieces.map .bytes ∨
      uninterrupted chunks = pieces.map .bytes ++ [.bytes []])

theorem itemsAfter_end (pending : List UInt8) : itemsAfter pending [.bytes []] =
    itemsAfter pending [] := by
  rw [itemsAfter]
  cases pending with
  | nil => rfl
  | cons b pending => exact List.append_nil _

theorem itemsAfter_append_end {pieces : List (List UInt8)} (h : ∀ piece ∈ pieces, piece ≠ [])
    (pending : List UInt8) :
    itemsAfter pending (pieces.map .bytes ++ [.bytes []]) =
      itemsAfter pending (pieces.map .bytes) := by
  induction pieces generalizing pending with
  | nil => exact itemsAfter_end pending
  | cons piece pieces ih =>
      have hpiece : piece ≠ [] := h piece List.mem_cons_self
      have hmore := ih fun p hp => h p (List.mem_cons_of_mem piece hp)
      rw [List.map_cons, List.cons_append, itemsAfter_cons pending hpiece, hmore,
        itemsAfter_cons pending hpiece]

theorem Hold.items {chunks : List Chunk} {bytes : List UInt8} (h : Hold chunks bytes) :
    items chunks = (statementsIn (Utf8.decode bytes)).map .statement := by
  obtain ⟨pieces, hpieces, rfl, hread | hread⟩ := h
  · rw [← items_uninterrupted, hread]
    exact items_bytes hpieces
  · rw [← items_uninterrupted, hread, Log.items, itemsAfter_append_end hpieces]
    exact items_bytes hpieces

theorem statementsIn_of_line {q : Text} (hline : '\n' ∉ q) (hq : statementIn q = some q) :
    statementsIn q = [q] := by
  rw [statementsIn, List.splitOn_eq_singleton hline]
  simp [hq]

/-- A statement does not look like an option. -/
theorem head?_of_statementIn {line q : Text} (h : statementIn line = some q) :
    q.head? ≠ some '-' := by
  have hstart : startsStatement q = true := by
    unfold statementIn at h
    simp only at h
    split at h
    · cases h
    · obtain ⟨hstart, rfl⟩ := Option.ite_some_none_eq_some.mp h
      exact hstart
  intro hhead
  obtain ⟨rest, rfl⟩ := List.head?_eq_some_iff.mp hhead
  have hword : (Unicode.isWord '-' || '-' == '(') = true := hstart
  revert hword
  decide +kernel

end Log

namespace CommandLine

/-- The report on the statements in some bytes, under the settings of some options. -/
def reportOn (g : Given) (processors : Nat) (bytes : List UInt8) : Text :=
  let settings := g.settings processors
  Report.ofStatements settings.format settings.mode (Log.statementsIn (Utf8.decode bytes))

def Result.Prints (r : Result) (t : Text) : Prop :=
  r.exitCode = 0 ∧ r.output = Utf8.encode t

theorem plain_of_head? {t : Text} (h : t.head? ≠ some '-') : Argument.ofText t = .plain := by
  cases t with
  | nil => rfl
  | cons c t =>
      have hc : c ≠ '-' := fun heq => h (congrArg some heq)
      simp [Argument.ofText, hc]

theorem settings_reading (g : Given) (source : Source) (processors : Nat) :
    (g.reading source).settings processors = g.settings processors := by
  cases source <;> rfl

theorem logFolder_reading (g : Given) (source : Source) :
    (g.reading source).logFolder = g.logFolder := by
  cases source <;> rfl

theorem prints_runOver {s : Settings} (hs : s.check = .ok ())
    (hroom : s.batchSize ≤ Batch.largest) (clock : Nat → Nat) (statements : List Text) :
    (runOver s clock (statements.map .statement)).Prints
      (Report.ofStatements s.format s.mode statements) := by
  obtain ⟨hsink, hresult⟩ := Batch.run_statements hs hroom none clock statements
  rw [if_pos (Sink.fits_none _)] at hresult
  simp only [runOver, hresult, hsink]
  exact ⟨rfl, rfl⟩

theorem check_settings {g : Given} (hthreads : g.threads ≠ some 0)
    (hbatches : g.batchSize ≠ some 0) (processors : Nat) :
    (g.settings processors).check = .ok () := by
  have hpos {old : Option Nat} {n : Nat} (hold : old ≠ some 0) (hn : 0 < n) :
      1 ≤ old.getD n := by
    cases old with
    | none => exact hn
    | some m => exact Nat.pos_of_ne_zero fun hm => hold (congrArg some hm)
  exact Batch.check_of_pos (hpos hthreads (Nat.le_max_left 1 processors))
    (hpos hbatches (Nat.zero_lt_succ 999))

theorem room_settings {g : Given} (h : ∀ n ∈ g.batchSize, n ≤ Batch.largest)
    (processors : Nat) : (g.settings processors).batchSize ≤ Batch.largest := by
  cases hg : g.batchSize with
  | none =>
      have hstandard : (1000 : Nat) ≤ Batch.largest := by decide
      simpa [Given.settings, Settings.standard, hg] using hstandard
  | some n => simpa [Given.settings, hg] using h n hg

theorem check_settings_of_zero {g : Given} (h : g.threads = some 0 ∨ g.batchSize = some 0)
    (processors : Nat) :
    (g.settings processors).check =
      .error (if g.threads = some 0 then .noThreads else .emptyBatches) := by
  by_cases hthreads : g.threads = some 0
  · simp [Settings.check, Given.settings, hthreads]
  · have hbatches : g.batchSize = some 0 := h.resolve_left hthreads
    have hpos : g.threads.getD (max 1 processors) ≠ 0 := by
      cases hg : g.threads with
      | none => simp
      | some n => simpa [hg] using hthreads
    simp [Settings.check, Given.settings, Settings.standard, hthreads, hbatches, hpos]

section

variable {World : Type} (machine : Machine (StateM World)) (world : World)

/-- A run with settings that are in order opens its source and runs over what it holds. -/
theorem run_checked {g : Given} {arguments : List Text} (hparse : parse arguments = .run g)
    (hlog : g.logFolder = none) (hs : (g.settings machine.processors).check = .ok ()) :
    ∃ clock, ((run machine arguments).run world).1 =
      match ((source machine g).run world).1 with
      | .error problem => .failing problem
      | .ok items => runOver (g.settings machine.processors) clock items := by
  have hrun : ((run machine arguments).run world).1 =
      ((match ((source machine g).run world).1 with
        | .error problem => pure (.failing problem)
        | .ok items => do
          let settings := g.settings machine.processors
          return runOver settings (← clockOf machine settings items) items :
          StateM World Result).run ((source machine g).run world).2).1 := by
    simp only [run, hparse, runGiven, hlog, hs, pure_bind]
    rfl
  rw [hrun]
  cases ((source machine g).run world).1 with
  | error problem => exact ⟨fun _ => 0, rfl⟩
  | ok items =>
      exact ⟨((clockOf machine (g.settings machine.processors) items).run
        ((source machine g).run world).2).1, rfl⟩

theorem run_unchecked {g : Given} {arguments : List Text} (hparse : parse arguments = .run g)
    (hlog : g.logFolder = none) {fault : SettingsFault}
    (hs : (g.settings machine.processors).check = .error fault) :
    (run machine arguments).run world =
      (.failing (report (Failure.settings fault).message none), world) := by
  have hrun : run machine arguments =
      pure (.failing (report (Failure.settings fault).message none)) := by
    simp only [run, hparse, runGiven, hlog, hs, pure_bind]
  rw [hrun]
  rfl

theorem prints_of_items {g : Given} {arguments : List Text} (hparse : parse arguments = .run g)
    (hlog : g.logFolder = none) (hs : (g.settings machine.processors).check = .ok ())
    (hroom : (g.settings machine.processors).batchSize ≤ Batch.largest)
    {bytes : List UInt8} (hitems : ((source machine g).run world).1 =
      .ok ((Log.statementsIn (Utf8.decode bytes)).map .statement)) :
    ((run machine arguments).run world).1.Prints (reportOn g machine.processors bytes) := by
  obtain ⟨clock, hrun⟩ := run_checked machine world hparse hlog hs
  rw [hrun, hitems]
  exact prints_runOver hs hroom clock _

theorem source_input {g : Given} (hg : g.Sourceless) :
    ((source machine g).run world).1 = .ok (Log.items (machine.input.run world).1) := by
  simp only [source, hg.1, hg.2]
  rfl

theorem source_file {g : Given} (hg : g.Sourceless) (path : Text) :
    ((source machine (g.reading (.file path))).run world).1 =
      match ((machine.openFile path).run world).1 with
      | .ok chunks => .ok (Log.items chunks)
      | .error refusal =>
        .error (report ("Failed to open ".toList ++ path) (some refusal.message)) := by
  simp only [source, Given.reading, hg.1]
  change ((match ((machine.openFile path).run world).1 with
    | .ok chunks => pure (.ok (Log.items chunks))
    | .error refusal =>
      pure (.error (report ("Failed to open ".toList ++ path) (some refusal.message))) :
      StateM World (Except Text (List Log.Item))).run ((machine.openFile path).run world).2).1 = _
  cases ((machine.openFile path).run world).1 <;> rfl

end

variable {World : Type}

/-- A run that has room for its batches prints the report on the statements of its source, be it
bytes in a file, bytes that come as input or a statement that is an argument. With settings that are
out of order it prints nothing and does not touch its source, and with a file that cannot be opened
it prints nothing either. -/
theorem run_prints_source (machine : Machine (StateM World)) (world : World)
    {arguments : List Text} {g : Given} (hparse : parse arguments = .run g) (hg : g.Sourceless)
    (hlog : g.logFolder = none) :
    let runFrom (source : Source) := (run machine (source.arguments ++ arguments)).run world
    (g.threads ≠ some 0 → g.batchSize ≠ some 0 →
      ((∀ n ∈ g.batchSize, n ≤ Batch.largest) →
        (∀ bytes path chunks, (Source.file path).Accepted →
          ((machine.openFile path).run world).1 = .ok chunks → Log.Hold chunks bytes →
            (runFrom (.file path)).1.Prints (reportOn g machine.processors bytes)) ∧
        (∀ bytes, Log.Hold (machine.input.run world).1 bytes →
          (runFrom .input).1.Prints (reportOn g machine.processors bytes)) ∧
        ∀ q, '\n' ∉ q → Log.statementIn q = some q →
          (runFrom (.query q)).1.Prints (reportOn g machine.processors (Utf8.encode q))) ∧
      ∀ path refusal, (Source.file path).Accepted →
        ((machine.openFile path).run world).1 = .error refusal →
          (runFrom (.file path)).1 = .failing
            (report ("Failed to open ".toList ++ path) (some refusal.message))) ∧
    (g.threads = some 0 ∨ g.batchSize = some 0 →
      ∀ source : Source, source.Accepted →
        let fault := if g.threads = some 0 then SettingsFault.noThreads else .emptyBatches
        runFrom source = (.failing (report (Failure.settings fault).message none), world)) := by
  have hread : ∀ source : Source, source.Accepted →
      parse (source.arguments ++ arguments) = .run (g.reading source) :=
    fun _ hsource => parse_source hparse hg hsource
  refine ⟨fun hthreads hbatches => ?_, fun hzero source hsource => ?_⟩
  · have hs := check_settings hthreads hbatches machine.processors
    refine ⟨fun hlargest => ⟨?_, ?_, ?_⟩, ?_⟩
    · intro bytes path chunks haccepted hopen hbytes
      refine prints_of_items machine world (hread _ haccepted) hlog hs
        (room_settings hlargest machine.processors) ?_
      rw [source_file machine world hg, hopen]
      exact congrArg Except.ok hbytes.items
    · intro bytes hbytes
      refine prints_of_items machine world (hread .input trivial) hlog hs
        (room_settings hlargest machine.processors) ?_
      rw [Given.reading, source_input machine world hg, hbytes.items]
    · intro q hline hq
      have haccepted : (Source.query q).Accepted := plain_of_head? (Log.head?_of_statementIn hq)
      refine prints_of_items machine world (hread _ haccepted) hlog hs
        (room_settings hlargest machine.processors) ?_
      rw [Utf8.decode_encode, Log.statementsIn_of_line hline hq]
      rfl
    · intro path refusal haccepted hopen
      obtain ⟨clock, hrun⟩ := run_checked machine world (hread _ haccepted) hlog hs
      rw [hrun, source_file machine world hg, hopen]
  · have hs := check_settings_of_zero hzero machine.processors
    rw [← settings_reading g source] at hs
    exact run_unchecked machine world (hread source hsource)
      ((logFolder_reading g source).trans hlog) hs

/-- A file, the input and an argument that hold one statement, a file that is not there, and a batch
size of zero. -/
theorem run_prints_source_alike :
    let statement := "select 1 from a, b".toList
    let bytes := Utf8.encode statement
    let machine := FileTree.machine bytes
    let tree := FileTree.ofFiles [("log".toList, bytes)] bytes
    let options := ["--tables".toList, "-t2".toList, "--batch-size=3".toList]
    let runFrom (source : Source) (arguments : List Text) :=
      (run machine (source.arguments ++ arguments)).run tree
    (∀ source ∈ [Source.file "log".toList, .input, .query statement],
      (runFrom source options).1.Prints "a,b\n".toList) ∧
    (runFrom (.file "none".toList) options).1 =
      .failing ("Error: Failed to open none\n\nCaused by:\n".toList
        ++ "    No such file or directory (os error 2)\n".toList) ∧
    runFrom (.file "none".toList) ["--batch-size=0".toList] =
      (.failing "Error: Invalid configuration: batch size must be at least 1\n".toList, tree) := by
  intro statement bytes machine tree options runFrom
  let g : Given := { tables := true, threads := some 2, batchSize := some 3 }
  have hhold : Log.Hold [.bytes bytes] bytes :=
    ⟨[bytes], by decide +kernel, List.flatten_singleton, Or.inl rfl⟩
  have hroom : ∀ n ∈ g.batchSize, n ≤ Batch.largest := by decide
  have hreport : reportOn g machine.processors bytes = "a,b\n".toList := by decide +kernel
  have htables : parse options = .run g := by decide
  have hempty : parse ["--batch-size=0".toList] = .run { batchSize := some 0 } := by decide
  obtain ⟨hprints, hmissing⟩ :=
    (run_prints_source machine tree htables ⟨rfl, rfl⟩ rfl).1 (by decide) (by decide)
  obtain ⟨hfile, hinput, hquery⟩ := hprints hroom
  have hzero := (run_prints_source machine tree hempty ⟨rfl, rfl⟩ rfl).2 (Or.inr rfl)
  refine ⟨?_, ?_, ?_⟩
  · rw [← hreport]
    refine List.forall_mem_cons.mpr ⟨?_, List.forall_mem_cons.mpr ⟨?_, ?_⟩⟩
    · exact hfile bytes "log".toList [.bytes bytes] ⟨by decide, by decide⟩ rfl hhold
    · exact hinput bytes hhold
    · exact List.forall_mem_singleton.mpr (hquery statement (by decide) (by decide +kernel))
  · have hfail := hmissing "none".toList FileTree.missing ⟨by decide, by decide⟩ rfl
    exact hfail.trans (congrArg Result.failing (by decide +kernel))
  · have hfail := hzero (.file "none".toList) ⟨by decide, by decide⟩
    exact hfail.trans (congrArg (fun t => (Result.failing t, tree)) (by decide +kernel))

/-- A batch of as many statements as a word counts is accepted, and nothing is printed. -/
theorem run_prints_nothing_without_room :
    let bytes := Utf8.encode "select 1".toList
    let machine := FileTree.machine bytes
    let tree := FileTree.ofFiles [] bytes
    let g : Given := { threads := some 1, batchSize := some 18446744073709551615 }
    let arguments := ["-t1".toList, "--batch-size=18446744073709551615".toList]
    let result := ((run machine arguments).run tree).1
    parse arguments = .run g ∧ g.threads ≠ some 0 ∧ g.batchSize ≠ some 0 ∧
      Log.Hold (machine.input.run tree).1 bytes ∧ result.output = [] ∧
      ¬ result.Prints (reportOn g machine.processors bytes) := by
  intro bytes machine tree g arguments result
  have hparse : parse arguments = .run g := by decide
  have hoverflow : Batch.largest < (g.settings machine.processors).batchSize := by decide
  have hresult : result.exitCode = Result.abandonedCode ∧ result.output = [] := by
    obtain ⟨clock, hrun⟩ := run_checked machine tree hparse rfl rfl
    rw [source_input machine tree ⟨rfl, rfl⟩] at hrun
    simp only [result, hrun, runOver, Batch.run_of_no_room rfl hoverflow]
    exact ⟨rfl, rfl⟩
  refine ⟨hparse, by decide, by decide, ?_, hresult.2, fun hprints => ?_⟩
  · exact ⟨[bytes], by decide +kernel, List.flatten_singleton, Or.inl rfl⟩
  · exact absurd (hresult.1.symm.trans hprints.1) (by decide)

end CommandLine
end QueryDigest
