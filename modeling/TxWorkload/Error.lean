/-!
# Error — what can go wrong, and what is said about it

An `Error` is a failure that the program reports. An `Abort` is a broken promise between its
parts, such as sampling from an empty range, which ends the task that meets it. A `Failure` is
either of the two.
-/

namespace TxWorkload

/-! ## Reported errors -/

/-- Failures by cause. -/
inductive Error
  | invalidConfiguration (reason : String)
  | invalidSetting (key value : String)
  | invalidPrivateKey (reason : String)
  | invalidAddress (address : String)
  | notEnoughAccounts (required actual : Nat)
  | invalidPattern (reason : String)
  | unreachable (reason : String)
  | httpStatus (status : Nat) (url : String)
  | rpc (reason : String)
  | malformedResponse (reason : String)
  | task (reason : String)
  deriving DecidableEq, Repr

/-- Where an error belongs. -/
inductive Category
  | configuration
  | accounts
  | patterns
  | network
  | system
  deriving DecidableEq, Repr

/-- The name of a category in reports. -/
def Category.name : Category → String
  | .configuration => "configuration"
  | .accounts => "accounts"
  | .patterns => "patterns"
  | .network => "network"
  | .system => "system"

namespace Error

/-- The wording of an error. -/
def message : Error → String
  | .invalidConfiguration reason => s!"Invalid configuration: {reason}"
  | .invalidSetting key value => s!"Invalid value for {key}: {value}"
  | .invalidPrivateKey reason => s!"Invalid private key: {reason}"
  | .invalidAddress address => s!"Invalid address: {address}"
  | .notEnoughAccounts required actual =>
      s!"Account pool needs at least {required} accounts, got {actual}"
  | .invalidPattern reason => s!"Invalid transaction pattern: {reason}"
  | .unreachable reason => s!"Network error: {reason}"
  | .httpStatus status url => s!"HTTP {status} from {url}"
  | .rpc reason => s!"RPC error: {reason}"
  | .malformedResponse reason => s!"Malformed response: {reason}"
  | .task reason => s!"Task failed: {reason}"

/-- The category of an error. -/
def category : Error → Category
  | .invalidConfiguration _ => .configuration
  | .invalidSetting _ _ => .configuration
  | .invalidPrivateKey _ => .accounts
  | .invalidAddress _ => .accounts
  | .notEnoughAccounts _ _ => .accounts
  | .invalidPattern _ => .patterns
  | .unreachable _ => .network
  | .httpStatus _ _ => .network
  | .rpc _ => .network
  | .malformedResponse _ => .network
  | .task _ => .system

/-- Only a failed exchange is worth waiting for before the next attempt. -/
def isRetryable : Error → Bool
  | .unreachable _ => true
  | _ => false

end Error

/-! ## Broken promises -/

/-- Why a task ends without a result. -/
inductive Abort
  | weightOverflow
  | emptyRange
  | badProbability
  deriving DecidableEq, Repr

/-- The wording of an abort. -/
def Abort.message : Abort → String
  | .weightOverflow => "the weights of the patterns do not add up to a 32-bit number"
  | .emptyRange => "cannot sample from an empty range"
  | .badProbability => "a probability lies outside [0, 1]"

/-- An error that is reported, or an abort. -/
inductive Failure
  | error (cause : Error)
  | abort (cause : Abort)
  deriving DecidableEq, Repr

end TxWorkload
