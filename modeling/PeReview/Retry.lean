import Mathlib.Data.List.Infix

/-!
# Exceptions

The exception classes of `retry.py` and `gerrit/client.py`, with the Python
built-ins the modelled code raises.  `databaseError` stands for whatever the
database driver raises when a transaction or its acknowledgement is lost.
-/

namespace PeReview

/-- Microseconds since the epoch. -/
abbrev Time := Nat

/-- One day of a `timedelta`. -/
def day : Time := 86400000000

inductive ErrorClass
  | transientError
  | providerUnavailableError
  | permanentError
  | supersededRevisionError
  | changeNotOpenError
  | diffOutputLimitExceeded
  | contextLengthError
  | leaseLostError
  | invalidJobTransition
  | runtimeError
  | keyError
  | typeError
  | valueError
  | assertionError
  | databaseError
  | overflowError
  deriving DecidableEq, Repr

/-- `error.__class__.__name__`. -/
def ErrorClass.name : ErrorClass → String
  | .transientError => "TransientError"
  | .providerUnavailableError => "ProviderUnavailableError"
  | .permanentError => "PermanentError"
  | .supersededRevisionError => "SupersededRevisionError"
  | .changeNotOpenError => "ChangeNotOpenError"
  | .diffOutputLimitExceeded => "DiffOutputLimitExceeded"
  | .contextLengthError => "ContextLengthError"
  | .leaseLostError => "LeaseLostError"
  | .invalidJobTransition => "InvalidJobTransition"
  | .runtimeError => "RuntimeError"
  | .keyError => "KeyError"
  | .typeError => "TypeError"
  | .valueError => "ValueError"
  | .assertionError => "AssertionError"
  | .databaseError => "DatabaseError"
  | .overflowError => "OverflowError"

/-- A raised exception with the attributes some handler reads. -/
structure PyError where
  cls : ErrorClass
  message : String
  retryAfterSeconds : Option Nat := none
  /-- `ChangeNotOpenError.status`. -/
  status : Option String := none
  inputTokens : Option Nat := none
  outputTokens : Option Nat := none
  deriving DecidableEq, Repr

namespace PyError

/-- `isinstance(error, TransientError)`. -/
def isTransient (error : PyError) : Bool :=
  match error.cls with
  | .transientError | .providerUnavailableError => true
  | _ => false

/-- `isinstance(error, PermanentError)`. -/
def isPermanent (error : PyError) : Bool :=
  match error.cls with
  | .permanentError | .supersededRevisionError | .changeNotOpenError
  | .diffOutputLimitExceeded => true
  | _ => false

/-- `isinstance(error, RuntimeError)`: the service's own exceptions derive from
it, those of the database driver do not. -/
def isRuntimeError (error : PyError) : Bool :=
  match error.cls with
  | .runtimeError | .leaseLostError | .contextLengthError => true
  | _ => error.isTransient || error.isPermanent

def transient (message : String) : PyError :=
  { cls := .transientError, message }

def permanent (message : String) : PyError :=
  { cls := .permanentError, message }

def runtime (message : String) : PyError :=
  { cls := .runtimeError, message }

def value (message : String) : PyError :=
  { cls := .valueError, message }

def type (message : String) : PyError :=
  { cls := .typeError, message }

def overflow (message : String) : PyError :=
  { cls := .overflowError, message }

/-- `KeyError(key)`. -/
def key (identity : Nat) : PyError :=
  { cls := .keyError, message := toString identity }

/-- A transaction whose outcome the caller did not learn. -/
def database : PyError :=
  { cls := .databaseError, message := "" }

end PyError

/-- `needle in haystack` for strings. -/
def pyContains (haystack needle : String) : Bool :=
  decide (needle.toList <:+: haystack.toList)

end PeReview
