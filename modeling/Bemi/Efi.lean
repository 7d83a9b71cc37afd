import Mathlib.Tactic.Common

/-!
# Status codes

The `EFI_STATUS` values that the modelled firmware modules return.
-/

namespace Bemi

inductive EfiStatus where
  | success
  | invalidParameter
  | unsupported
  | bufferTooSmall
  | notReady
  | outOfResources
  | notFound
  | deviceError
  | accessDenied
  | warnStatusNotFound
  deriving DecidableEq, Repr

/-- `EFI_ERROR`. -/
def EfiStatus.isError : EfiStatus → Bool
  | .success | .warnStatusNotFound => false
  | _ => true

end Bemi
