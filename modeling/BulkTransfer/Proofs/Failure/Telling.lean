import BulkTransfer.Proofs.Failure.Conversion

/-!
# What the text of an error tells

The text of an error and the chain of causes behind it are made apart from each other, and an IO
error that wraps a payload passes over it in the chain. The two stay together because the text has
one headline for the error and one for each cause in the chain, each in parentheses at the end of
the one before, and a payload that is passed over in the chain lends its headline to the error that
wraps it. So the texts of all causes occur in the text, and no cause is lost from it when the error
is attributed to other operations or passed off as an IO error.
-/

namespace BulkTransfer

/-- A headline with further ones behind it, each in parentheses at the end of the one before. -/
def spell : String → List String → String
  | headline, [] => headline
  | headline, next :: rest => headline ++ " (" ++ spell next rest ++ ")"

mutual

/-- What an IO error says without its causes; a wrapped payload speaks for the error. -/
def IoError.headline : IoError → String
  | .plain _ text => text
  | .wrapping _ payload => payload.headline

/-- What a cause says without those behind it. -/
def Cause.headline : Cause → String
  | .text message => message
  | .shortRead details => wording details
  | .io error => error.headline
  | .chunk operation kind => failureText operation kind
  | .chunkCaused operation kind _ => failureText operation kind
  | .failure operation kind => failureText operation kind
  | .failureCaused operation kind _ => failureText operation kind

end

/-- The text of each cause occurs in the text in one piece. -/
def Tells (text : String) (causes : List Cause) : Prop :=
  ∀ cause ∈ causes, cause.message.toList <:+: text.toList

/-- Each cause in the list is followed by the causes behind it and by no others. -/
def Unbroken (causes : List Cause) : Prop :=
  ∀ cause rest, cause :: rest <:+ causes → rest = cause.causes

theorem spell_infix {headline next : String} {rest headlines : List String}
    (suffix : next :: rest <:+ headlines) :
    (spell next rest).toList <:+: (spell headline headlines).toList := by
  induction headlines generalizing headline with
  | nil => exact absurd (List.suffix_nil.mp suffix) (List.cons_ne_nil next rest)
  | cons first others ih =>
      have enclosed : (spell first others).toList <:+: (spell headline (first :: others)).toList :=
        ⟨(headline ++ " (").toList, ")".toList, by simp only [spell, String.toList_append]⟩
      obtain same | later := List.suffix_cons_iff.mp suffix
      · cases same
        exact enclosed
      · exact (ih later).trans enclosed

mutual

/-- The text of an error is spelled by its own headline and those of its causes. -/
theorem IoError.message_eq_spell : ∀ error : IoError,
    error.message = spell error.headline (error.causes.map Cause.headline)
  | .plain _ _ => rfl
  | .wrapping _ payload => payload.message_eq_spell

theorem Cause.message_eq_spell : ∀ cause : Cause,
    cause.message = spell cause.headline (cause.causes.map Cause.headline)
  | .text _ => rfl
  | .shortRead _ => rfl
  | .io error => error.message_eq_spell
  | .chunk _ _ => rfl
  | .chunkCaused operation kind source =>
      congrArg (failureText operation kind ++ " (" ++ · ++ ")") source.message_eq_spell
  | .failure _ _ => rfl
  | .failureCaused operation kind source =>
      congrArg (failureText operation kind ++ " (" ++ · ++ ")") source.message_eq_spell

end

theorem unbroken_nil : Unbroken [] :=
  fun cause rest suffix => absurd (List.suffix_nil.mp suffix) (List.cons_ne_nil cause rest)

theorem Unbroken.cons {cause : Cause} (unbroken : Unbroken cause.causes) :
    Unbroken (cause :: cause.causes) := by
  intro first rest suffix
  obtain same | later := List.suffix_cons_iff.mp suffix
  · cases same
    rfl
  · exact unbroken first rest later

mutual

/-- The chain behind an error is unbroken. -/
theorem IoError.unbroken_causes : ∀ error : IoError, Unbroken error.causes
  | .plain _ _ => unbroken_nil
  | .wrapping _ payload => payload.unbroken_causes

theorem Cause.unbroken_causes : ∀ cause : Cause, Unbroken cause.causes
  | .text _ => unbroken_nil
  | .shortRead _ => unbroken_nil
  | .io error => error.unbroken_causes
  | .chunk _ _ => unbroken_nil
  | .chunkCaused _ _ source => source.unbroken_causes.cons
  | .failure _ _ => unbroken_nil
  | .failureCaused _ _ source => source.unbroken_causes.cons

end

/-- The headlines of an unbroken chain spell the texts of all causes in it: each text is spelled by
the part of the chain that begins with its cause. -/
theorem Unbroken.tells {causes : List Cause} (unbroken : Unbroken causes) (headline : String) :
    Tells (spell headline (causes.map Cause.headline)) causes := by
  intro cause member
  obtain ⟨before, rest, split⟩ := List.append_of_mem member
  have suffix : cause :: rest <:+ causes := ⟨before, split.symm⟩
  rw [cause.message_eq_spell, ← unbroken cause rest suffix]
  exact spell_infix (suffix.map Cause.headline)

theorem IoError.tells_causes (error : IoError) : Tells error.message error.causes := by
  rw [error.message_eq_spell]
  exact error.unbroken_causes.tells error.headline

theorem Cause.tells_causes (cause : Cause) : Tells cause.message cause.causes := by
  rw [cause.message_eq_spell]
  exact cause.unbroken_causes.tells cause.headline

theorem Cause.tells_cons (cause : Cause) : Tells cause.message (cause :: cause.causes) :=
  List.forall_mem_cons.mpr ⟨List.infix_rfl, cause.tells_causes⟩

namespace Failure

variable {ω κ : Type}

theorem unbroken_causes (failure : Failure ω κ) : Unbroken failure.causes := by
  obtain ⟨operation, kind, _ | source⟩ := failure
  · exact unbroken_nil
  · exact source.unbroken_causes.cons

variable [Worded ω] [Worded κ] (failure : Failure ω κ)

theorem message_eq_spell :
    failure.message = spell (failureText failure.operation failure.kind)
      (failure.causes.map Cause.headline) := by
  obtain ⟨operation, kind, _ | source⟩ := failure
  · rfl
  · exact congrArg (failureText operation kind ++ " (" ++ · ++ ")") source.message_eq_spell

theorem tells_causes : Tells failure.message failure.causes := by
  rw [failure.message_eq_spell]
  exact failure.unbroken_causes.tells _

/-- The text of a failure ends with that of its direct cause. -/
theorem cause_suffix_message {source : Cause} (cause : failure.cause = some source) :
    ("(" ++ source.message ++ ")").toList <:+ failure.message.toList := by
  refine ⟨(failureText failure.operation failure.kind ++ " ").toList, ?_⟩
  rw [message, cause]
  simp only [String.toList_append, List.append_assoc]
  -- What is left cuts the separator between its blank and its parenthesis.
  rfl

end Failure

namespace ChunkError

/-- A chunk error of kind IO says as an IO error what its direct cause says. -/
theorem message_toIoError_of_io {error : ChunkError} {source : Cause} (kind : error.kind = .io)
    (cause : error.cause = some source) : error.toIoError.message = source.message := by
  rw [toIoError, kind, cause]
  cases source <;> rfl

/-- As an IO error a chunk error still tells all that stands behind it: what the IO error leaves out
is at most the headline of the chunk error itself. -/
theorem tells_toIoError (error : ChunkError) : Tells error.toIoError.message error.causes := by
  cases wrapper : error.kind.wrapper? with
  | some kind =>
      rw [toIoError_of_wrapper wrapper, IoError.message, message_toCause]
      exact error.tells_causes
  | none =>
      have kind := ChunkErrorKind.eq_io_of_wrapper wrapper
      rw [Failure.causes]
      cases cause : error.cause with
      | none => exact List.forall_mem_nil _
      | some source =>
          -- The IO error is the direct cause or wraps it, so it is told although the chain of
          -- the IO error has only what comes after it.
          rw [message_toIoError_of_io kind cause]
          exact source.tells_cons

end ChunkError

/-- The text of an error tells every cause in its chain. Attributing a failure to other operations
keeps the chain, and the text then ends with that of the direct cause, in parentheses. IO errors
tell their chains too, and the one that a chunk error becomes tells both its own chain and that of
the chunk error. -/
theorem message_tells_causes {ω κ : Type} [Worded ω] [Worded κ] (failure : Failure ω κ)
    (operations : List ω) (error : IoError) (chunkError : ChunkError)
    (attributions : List ChunkOperation) :
    let attributed := operations.foldl Failure.during failure
    let converted := ChunkError.toIoError (attributions.foldl Failure.during chunkError)
    attributed.causes = failure.causes ∧
    Tells attributed.message failure.causes ∧
    (∀ source, failure.cause = some source →
      ("(" ++ source.message ++ ")").toList <:+ attributed.message.toList) ∧
    Tells error.message error.causes ∧
    Tells converted.message chunkError.causes ∧
    Tells converted.message converted.causes := by
  intro attributed converted
  have kept : attributed.causes = failure.causes := failure.causes_foldl_during operations
  refine ⟨kept, ?_, fun source cause => ?_, error.tells_causes, ?_, converted.tells_causes⟩
  · rw [← kept]
    exact attributed.tells_causes
  · apply attributed.cause_suffix_message
    rw [Failure.cause_foldl_during, cause]
  · rw [← Failure.causes_foldl_during attributions chunkError]
    exact ChunkError.tells_toIoError _

/-- A short read that passed for an IO error stands behind a failure given in words. The chain
passes over the payload of the IO error, but the text has it. -/
theorem message_tells_causes_busy :
    let details : ShortRead := ⟨4, 5, 2⟩
    let short := (ChunkError.shortRead details).toIoError
    let busy : ChunkError := Failure.other .prefetch "busy" (some (.io short))
    let reading : ChunkError := busy.during .read
    reading.message = "read chunk failed; busy (prefetch chunk failed; short read " ++
      "(read 2 of 5 bytes at offset 4))" ∧
    reading.causes = [.io short, .shortRead details] ∧
    (wording details).toList <:+: reading.message.toList ∧
    ("(" ++ short.message ++ ")").toList <:+ reading.message.toList ∧
    (wording details).toList <:+: short.message.toList ∧
    short.message.toList <:+: reading.toIoError.message.toList ∧
    (wording details).toList <:+: reading.toIoError.message.toList := by
  intro details short busy reading
  obtain ⟨chain, told, ends, told_short, told_before, told_after⟩ :=
    message_tells_causes busy [.read] short busy [.read]
  refine ⟨by decide, chain, ?_, ends (.io short) rfl, ?_, ?_, ?_⟩
  · exact told (.shortRead details) (List.mem_cons_of_mem _ List.mem_cons_self)
  · exact told_short (.shortRead details) List.mem_cons_self
  · exact told_before (.io short) List.mem_cons_self
  · exact told_after (.shortRead details) (List.mem_cons_of_mem _ List.mem_cons_self)

end BulkTransfer
