import QueryDigest.CommandLine.Arguments

/-!
Arguments with a source in front of them. Options that name no source are read behind one that does
as they are read alone, and the source is added to them.
-/

namespace QueryDigest.CommandLine

/-- Where the statements of a run come from. -/
inductive Source where
  | input
  | file (path : Text)
  | query (statement : Text)

namespace Source

def arguments : Source → List Text
  | input => []
  | file path => ["--file".toList, path]
  | query statement => ["--query".toList, statement]

/-- The values that the option of a source can have. -/
def Accepted : Source → Prop
  | input => True
  | file path => path ≠ [] ∧ Argument.ofText path = .plain
  | query statement => Argument.ofText statement = .plain

end Source

namespace Given

def Sourceless (g : Given) : Prop :=
  g.query = none ∧ g.file = none

/-- Options with a source. -/
def reading (g : Given) : Source → Given
  | .input => g
  | .file path => { g with file := some path }
  | .query statement => { g with query := some statement }

theorem first_ne_none {α : Type} {old value new : Option α} (h : first old value = some new) :
    new ≠ none := by
  unfold first at h
  split at h
  · cases h
    exact Option.some_ne_none _
  · cases h

variable {g g' : Given}

theorem turnOn_reading (s : Switch) (source : Source) (h : g.turnOn s = some g')
    (hg' : g'.Sourceless) :
    g.Sourceless ∧ (g.reading source).turnOn s = some (g'.reading source) := by
  cases s with
  | tables | summary | progress =>
      simp only [turnOn] at h
      split at h
      · cases h
      · rename_i hoff
        cases h
        refine ⟨hg', ?_⟩
        cases source <;> simp [turnOn, reading, hoff]

theorem choose_reading (c : Choice) (value : Text) (source : Source)
    (h : g.choose c value = some g') (hg' : g'.Sourceless) :
    g.Sourceless ∧ (g.reading source).choose c value = some (g'.reading source) := by
  cases c with
  | query =>
      obtain ⟨query, hquery, rfl⟩ := Option.map_eq_some_iff.mp h
      exact absurd hg'.1 (first_ne_none hquery)
  | file =>
      obtain ⟨file, hfile, rfl⟩ := Option.map_eq_some_iff.mp h
      exact absurd hg'.2 (first_ne_none hfile)
  | format | threads | batchSize | logFolder =>
      obtain ⟨v, hv, rfl⟩ := Option.map_eq_some_iff.mp h
      refine ⟨hg', ?_⟩
      cases source <;> simp [choose, reading, hv]

theorem conflicting_reading (hg : g.Sourceless) (source : Source) :
    (g.reading source).conflicting = g.conflicting := by
  obtain ⟨hquery, hfile⟩ := hg
  cases source <;> simp [conflicting, reading, hquery, hfile]

end Given

open Given

theorem settle_reading {g g' : Given} (source : Source) (h : settle g = .run g')
    (hg' : g'.Sourceless) :
    g.Sourceless ∧ settle (g.reading source) = .run (g'.reading source) := by
  unfold settle at h
  split at h
  · cases h
  · rename_i hconflict
    cases h
    refine ⟨hg', ?_⟩
    rw [settle, conflicting_reading hg', if_neg hconflict]

theorem parseFrom_choice {g g' : Given} {c : Choice} {name value : Text} {rest : List Text}
    (hname : Argument.ofText name = .choice c none) (hvalue : Argument.ofText value = .plain)
    (hchoose : g.choose c value = some g') :
    parseFrom g (name :: value :: rest) = parseFrom g' rest := by
  simp only [parseFrom, hname, hvalue, if_true, hchoose]

/-- Where options without a source are accepted, they are accepted behind a source too. -/
theorem parseFrom_reading {g g' : Given} {arguments : List Text} (source : Source)
    (h : parseFrom g arguments = .run g') (hg' : g'.Sourceless) :
    g.Sourceless ∧ parseFrom (g.reading source) arguments = .run (g'.reading source) := by
  fun_induction parseFrom g arguments with
  | case1 g => exact settle_reading source h hg'
  | case4 g argument rest hargument hrest =>
      obtain ⟨hg, hsettle⟩ := settle_reading source h hg'
      refine ⟨hg, ?_⟩
      simp only [parseFrom, hargument, hrest, if_true, hsettle]
  | case8 g argument rest s hargument g₁ hturn ih =>
      obtain ⟨hg₁, hrest⟩ := ih h
      obtain ⟨hg, hreading⟩ := turnOn_reading s source hturn hg₁
      refine ⟨hg, ?_⟩
      simp only [parseFrom, hargument, hreading, hrest]
  | case10 g argument rest c value hargument g₁ hchoose ih =>
      obtain ⟨hg₁, hrest⟩ := ih h
      obtain ⟨hg, hreading⟩ := choose_reading c value source hchoose hg₁
      refine ⟨hg, ?_⟩
      simp only [parseFrom, hargument, hreading, hrest]
  | case13 g argument c hargument value rest hvalue g₁ hchoose ih =>
      obtain ⟨hg₁, hrest⟩ := ih h
      obtain ⟨hg, hreading⟩ := choose_reading c value source hchoose hg₁
      exact ⟨hg, (parseFrom_choice hargument hvalue hreading).trans hrest⟩
  | _ => cases h

theorem parse_source {g : Given} {arguments : List Text} (h : parse arguments = .run g)
    (hg : g.Sourceless) {source : Source} (hsource : source.Accepted) :
    parse (source.arguments ++ arguments) = .run (g.reading source) := by
  obtain ⟨-, hreading⟩ := parseFrom_reading source h hg
  rw [← hreading]
  cases source with
  | input => rfl
  | file path =>
      obtain ⟨hne, hplain⟩ := hsource
      have hpath : path? path = some path := if_neg (by simpa using hne)
      refine parseFrom_choice (c := .file) (by decide) hplain ?_
      rw [choose, hpath]
      rfl
  | query statement => exact parseFrom_choice (c := .query) (by decide) hsource rfl

end QueryDigest.CommandLine
