import BulkTransfer.Failure.Cause

/-!
# Failures

A failure names the operation that failed and the kind of reason, both from vocabularies of the
caller's choice, and may carry a cause. Its text ends with the text of its cause in parentheses.
-/

namespace BulkTransfer

/-- Vocabularies of reasons in which any reason can be given in words. -/
class OpenKind (κ : Type) extends Worded κ where
  /-- The reason that a message describes. -/
  other : String → κ

/-- A failed operation, the kind of reason, and possibly what caused it. -/
structure Failure (ω κ : Type) where
  /-- Operation that failed. -/
  operation : ω
  /-- Kind of reason. -/
  kind : κ
  /-- Error behind the failure. -/
  cause : Option Cause
  deriving DecidableEq

namespace Failure

variable {ω κ : Type}

/-- A failure whose reason is given in words. -/
def other [OpenKind κ] (operation : ω) (message : String) (cause : Option Cause) : Failure ω κ :=
  ⟨operation, OpenKind.other message, cause⟩

/-- The same failure, attributed to another operation. -/
def during (failure : Failure ω κ) (operation : ω) : Failure ω κ :=
  { failure with operation }

/-- Text of a failure. -/
def message [Worded ω] [Worded κ] (failure : Failure ω κ) : String :=
  match failure.cause with
  | none => failureText failure.operation failure.kind
  | some cause => failureText failure.operation failure.kind ++ " (" ++ cause.message ++ ")"

/-- Causes behind a failure, nearest first. -/
def causes (failure : Failure ω κ) : List Cause :=
  match failure.cause with
  | none => []
  | some cause => cause :: cause.causes

/-- The failure as the cause of another one, where its words are all that is known of it. -/
def toCause [Worded ω] [Worded κ] (failure : Failure ω κ) : Cause :=
  match failure.cause with
  | none => .failure (wording failure.operation) (wording failure.kind)
  | some source => .failureCaused (wording failure.operation) (wording failure.kind) source

/-- The direct cause as an IO error, if it is one. -/
def ioCause? (failure : Failure ω κ) : Option IoError :=
  failure.cause.bind Cause.io?

/-- The direct cause as the details of a short read, if it holds them. -/
def shortReadCause? (failure : Failure ω κ) : Option ShortRead :=
  failure.cause.bind Cause.shortRead?

@[simp]
theorem message_toCause [Worded ω] [Worded κ] (failure : Failure ω κ) :
    failure.toCause.message = failure.message := by
  obtain ⟨operation, kind, _ | source⟩ := failure <;> rfl

@[simp]
theorem causes_toCause [Worded ω] [Worded κ] (failure : Failure ω κ) :
    failure.toCause.causes = failure.causes := by
  obtain ⟨operation, kind, _ | source⟩ := failure <;> rfl

@[simp]
theorem kind_during (failure : Failure ω κ) (operation : ω) :
    (failure.during operation).kind = failure.kind := rfl

@[simp]
theorem cause_during (failure : Failure ω κ) (operation : ω) :
    (failure.during operation).cause = failure.cause := rfl

@[simp]
theorem operation_during (failure : Failure ω κ) (operation : ω) :
    (failure.during operation).operation = operation := rfl

@[simp]
theorem causes_during (failure : Failure ω κ) (operation : ω) :
    (failure.during operation).causes = failure.causes := rfl

end Failure
end BulkTransfer
