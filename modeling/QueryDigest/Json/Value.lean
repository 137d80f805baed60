import QueryDigest.Text.Basic

/-!
The JSON values that reports are made of.
-/

namespace QueryDigest.Json

/-- A JSON value. The members of an object keep their order. -/
inductive Value where
  | string (text : Text)
  | number (n : Nat)
  | array (items : List Value)
  | object (members : List (Text × Value))

end QueryDigest.Json
