import QueryDigest.Text.Basic

/-!
Why a run over a log fails.
-/

namespace QueryDigest

inductive SettingsFault where
  | noThreads
  | emptyBatches
  deriving DecidableEq, Repr

def SettingsFault.message : SettingsFault → Text
  | .noThreads => "thread count must be at least 1".toList
  | .emptyBatches => "batch size must be at least 1".toList

inductive Failure where
  | io (reason : Text)
  | settings (fault : SettingsFault)
  /-- A batch is so large that it cannot have a place for each of its statements. -/
  | noRoom
  deriving DecidableEq, Repr

namespace Failure

def message : Failure → Text
  | io reason => "IO error: ".toList ++ reason
  | settings fault => "Invalid configuration: ".toList ++ fault.message
  | noRoom => "capacity overflow".toList

def cause? : Failure → Option Text
  | io reason => some reason
  | settings _ | noRoom => none

end Failure
end QueryDigest
