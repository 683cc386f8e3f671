import FabricEvolution.Wire.Json

/-!
# Error codes, refusals and results

* `ErrorCode` : the refusal taxonomy, with its wire names and `isRetryable`;
* `Status` : a refusal, its code, message and detail; a success is the `ok` side of `Result`.
-/

namespace FabricEvolution

inductive ErrorCode where
  | ok | invalidArgument | malformed | boundsExceeded | notFound | alreadyExists | conflict
  | staleEpoch | staleGeneration | staleIncarnation | staleAuthority | notAuthoritative
  | authorityConflict | compatibilityInsufficient | irreversibleBoundary | unsupportedProtocol
  | featureNotNegotiated | migrationFailure | integrityFailure | ioFailure | cancelled
  | shuttingDown | deadlineExceeded | protocolViolation | duplicateFrame | notReady
  | illegalTransition | resourceExhausted | unsupported | internal
deriving DecidableEq

namespace ErrorCode

/-- The name of the code on the wire. -/
def name : ErrorCode → String
  | ok => "ok"
  | invalidArgument => "invalid_argument"
  | malformed => "malformed"
  | boundsExceeded => "bounds_exceeded"
  | notFound => "not_found"
  | alreadyExists => "already_exists"
  | conflict => "conflict"
  | staleEpoch => "stale_epoch"
  | staleGeneration => "stale_generation"
  | staleIncarnation => "stale_incarnation"
  | staleAuthority => "stale_authority"
  | notAuthoritative => "not_authoritative"
  | authorityConflict => "authority_conflict"
  | compatibilityInsufficient => "compatibility_insufficient"
  | irreversibleBoundary => "irreversible_boundary"
  | unsupportedProtocol => "unsupported_protocol"
  | featureNotNegotiated => "feature_not_negotiated"
  | migrationFailure => "migration_failure"
  | integrityFailure => "integrity_failure"
  | ioFailure => "io_failure"
  | cancelled => "cancelled"
  | shuttingDown => "shutting_down"
  | deadlineExceeded => "deadline_exceeded"
  | protocolViolation => "protocol_violation"
  | duplicateFrame => "duplicate_frame"
  | notReady => "not_ready"
  | illegalTransition => "illegal_transition"
  | resourceExhausted => "resource_exhausted"
  | unsupported => "unsupported"
  | internal => "internal"

/-- A refusal that a peer may retry after reconciling state. -/
def isRetryable : ErrorCode → Bool
  | notReady | conflict | deadlineExceeded | resourceExhausted | ioFailure => true
  | _ => false

end ErrorCode

/-- A refusal: why an operation did not succeed. -/
structure Status where
  code : ErrorCode
  message : String
  detail : Json := .null

/-- Either a value or a refusal. -/
abbrev Result (α : Type) := Except Status α

/-- A refusal without detail. -/
def Status.plain (code : ErrorCode) (message : String) : Status := ⟨code, message, .null⟩

def Status.toString (status : Status) : String :=
  if status.message = "" then status.code.name else status.code.name ++ ": " ++ status.message

def malformed (message : String) : Status := .plain .malformed message

def invalidArgument (message : String) : Status := .plain .invalidArgument message

def notFound (message : String) : Status := .plain .notFound message

/-- Whether a result carries a value. -/
def Result.isOk {α : Type} : Result α → Bool
  | .ok _ => true
  | .error _ => false

/-- The value, or the refusal where there is none. -/
def orRefuse {α : Type} (value : Option α) (refusal : Status) : Result α :=
  match value with
  | some a => .ok a
  | none => .error refusal

/-- Go on when `condition` holds, refuse otherwise. -/
def refuseUnless (condition : Bool) (refusal : Status) : Result Unit :=
  if condition then .ok () else .error refusal

section
variable {α β : Type}

theorem Result.bind_eq_ok {x : Result α} {f : α → Result β} {b : β} :
    (x >>= f) = .ok b ↔ ∃ a, x = .ok a ∧ f a = .ok b := by
  cases x with
  | error refusal => simp [bind, Except.bind]
  | ok a => simp [bind, Except.bind]

theorem Result.ite_error_eq_ok {c : Prop} [Decidable c] {refusal : Status} {x : Result α} {a : α} :
    (if c then .error refusal else x) = .ok a ↔ ¬ c ∧ x = .ok a := by
  split_ifs with h <;> simp [h]

@[simp] theorem orRefuse_eq_ok {value : Option α} {refusal : Status} {a : α} :
    orRefuse value refusal = .ok a ↔ value = some a := by
  cases value <;> simp [orRefuse]

@[simp] theorem refuseUnless_eq_ok {condition : Bool} {refusal : Status} {u : Unit} :
    refuseUnless condition refusal = .ok u ↔ condition = true := by
  cases condition <;> simp [refuseUnless]

end

end FabricEvolution
