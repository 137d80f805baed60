/-!
Sets of code points given by closed intervals, searched through a balanced tree.
-/

namespace QueryDigest.Unicode

/-- A search tree of disjoint closed intervals, the smaller ones below. -/
inductive Ranges where
  | none
  | node (below : Ranges) (first last : Nat) (above : Ranges)

namespace Ranges

/-- Membership by descent: each interval sends the smaller numbers down and the larger ones up. -/
def contains : Ranges → Nat → Bool
  | .none, _ => false
  | .node below first last above, n =>
    if n < first then below.contains n
    else if last < n then above.contains n
    else true

/--
Builds a tree of at most `depth` levels from the front of an increasing list of intervals and
returns the intervals that did not fit.
-/
def build : (depth : Nat) → List (Nat × Nat) → Ranges × List (Nat × Nat)
  | 0, intervals => (.none, intervals)
  | depth + 1, intervals =>
    match build depth intervals with
    | (below, []) => (below, [])
    | (below, (first, last) :: rest) =>
      let (above, left) := build depth rest
      (.node below first last above, left)

/-- The set of an increasing list of fewer than 1024 disjoint intervals. -/
def ofIntervals (intervals : List (Nat × Nat)) : Ranges :=
  (build 10 intervals).1

end Ranges
end QueryDigest.Unicode
