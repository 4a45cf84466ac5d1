import Wiring.Category
import Wiring.Bytes
import Wiring.Text.Utf8

/-!
# Failures

Why an operation fails, as causes; the wording of each is a function of the cause. A link gives a
`Refusal`; wire-up gives a `WireupError`, which may be a refusal passed on; broken bytes give a
`MalformedBytes`. A `Violation` is a broken promise of the caller, which stops the operation that
met it.
-/
namespace Wiring

/-- Why a link does not do what it is asked. -/
inductive Refusal where
  | noResource
  | notConnected
  | unreachable
  | unsupported (operation : String)
  | messageTooLarge (length limit : Nat)
  | invalidAddress (reason : String)
  | canceled
  | closed
  deriving DecidableEq, Repr, Inhabited

namespace Refusal

/-- Running out of resources is the only refusal after which trying again can help. -/
def isNoResource : Refusal → Bool
  | .noResource => true
  | _ => false

def message : Refusal → String
  | .noResource => "no resources are available to initiate the operation"
  | .notConnected => "endpoint is not connected"
  | .unreachable => "destination is unreachable"
  | .unsupported operation => "operation not supported: " ++ operation
  | .messageTooLarge length limit =>
    "message of " ++ toString length ++ " bytes exceeds the limit of " ++ toString limit ++ " bytes"
  | .invalidAddress reason => "invalid address: " ++ reason
  | .canceled => "operation canceled"
  | .closed => "endpoint is closed"

end Refusal

instance instDecidableEqExcept {ε α : Type} [DecidableEq ε] [DecidableEq α] :
    DecidableEq (Except ε α)
  | .ok a, .ok b => decidable_of_decidable_of_iff (p := a = b) (by simp)
  | .error a, .error b => decidable_of_decidable_of_iff (p := a = b) (by simp)
  | .ok _, .error _ => isFalse (by simp)
  | .error _, .ok _ => isFalse (by simp)

/-- How an attempt ends that has no result of its own. -/
abbrev Outcome := Except Refusal Unit

/-- Whether an attempt has to be made again later. -/
def Outcome.isNoResource : Outcome → Bool
  | .error r => r.isNoResource
  | .ok _ => false

/-- Why bytes are not the written form of a value. -/
inductive MalformedBytes where
  | endOfInput
  | textTooLong
  | notText (fault : Text.Utf8Fault)
  | badTag (tag : Nat)
  | badVariant (variant limit : Nat)
  deriving DecidableEq, Repr

/-- A text that is longer than the bytes left has an empty reason. -/
def MalformedBytes.message : MalformedBytes → String
  | .endOfInput => "io error: unexpected end of file"
  | .textTooLong => "io error: "
  | .notText fault => "string is not valid utf8: " ++ fault.message
  | .badTag tag => "tag for enum is not valid, found " ++ toString tag
  | .badVariant variant limit =>
    "invalid value: integer `" ++ toString variant ++ "`, expected variant index 0 <= i < "
      ++ toString limit

inductive WireupError where
  | refused (why : Refusal)
  | noSuitableResource (purpose peer reasons : String)
  | notConfigured (category : Category)
  | unknownPeer (uuid : UInt64)
  | malformed (why : MalformedBytes)
  deriving DecidableEq, Repr

namespace WireupError

def message : WireupError → String
  | .refused why => why.message
  | .noSuitableResource purpose peer reasons =>
    "no suitable " ++ purpose ++ " transport to " ++ peer ++ ": " ++ reasons
  | .notConfigured category => "no transport resource configured for " ++ category.title
  | .unknownPeer uuid => "unknown peer " ++ hexWord uuid
  | .malformed why => "malformed wire-up message: " ++ why.message

/-- The refusal passed on, if the error is one. -/
def refusal? : WireupError → Option Refusal
  | .refused why => some why
  | _ => none

end WireupError

/-- A promise that the caller of an operation broke. -/
inductive Violation where
  | purgedWithParked (category : Category) (parked : Nat)
  | releasedWithParked (category : Category) (parked : Nat)
  | notAStub (slot : String)
  | noAuxiliary (category : Category)
  | endless
  deriving DecidableEq, Repr

def Violation.message : Violation → String
  | .purgedWithParked category parked =>
    "purge of stub ep for " ++ category.title ++ " with " ++ toString parked ++ " parked requests"
  | .releasedWithParked category parked =>
    "stub ep for " ++ category.title ++ " destroyed with " ++ toString parked ++ " parked requests"
  | .notAStub slot => "remote_connected on a non-stub endpoint: " ++ slot
  | .noAuxiliary category => "stub ep for " ++ category.title ++ " has no auxiliary endpoint"
  | .endless => "the operation does not end"

end Wiring
