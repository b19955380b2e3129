import Mathlib.Data.Nat.Notation

namespace TinyProto

inductive TinyError
  | failed
  | timeout
  | dataTooLarge
  | invalidData
  | busy
  | outOfSync
  | again
  | wrongCrc
  | outOfMemory
  | unknownPeer
  | io
  deriving DecidableEq, Repr

abbrev TinyResult (α : Type) := Except TinyError α

end TinyProto
