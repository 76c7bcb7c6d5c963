import BulkTransfer.Failure.Chunk

/-!
# Passing chunk errors off as IO errors

Chunk errors are made by four constructors and may be attributed to other operations afterwards.
An error of kind IO that is made in this way has an IO error behind it and becomes that error again;
any other one is wrapped whole. So nothing that an error tells is lost, and what stands behind it
may be made of further errors to any depth.
-/

namespace BulkTransfer

mutual

/-- An IO error whose parts are made by constructors. -/
inductive IoError.Built : IoError → Prop where
  | plain (kind : IoKind) (text : String) : IoError.Built (.plain kind text)
  | wrapping (kind : IoKind) {payload : Cause} (inner : Cause.Built payload) :
      IoError.Built (.wrapping kind payload)

/-- A cause whose parts are made by constructors. -/
inductive Cause.Built : Cause → Prop where
  | text (message : String) : Cause.Built (.text message)
  | shortRead (details : ShortRead) : Cause.Built (.shortRead details)
  | io {error : IoError} (inner : IoError.Built error) : Cause.Built (.io error)
  | chunk {cause : Cause} {error : ChunkError} (holds : cause.chunk? = some error)
      (inner : ChunkError.Built error) : Cause.Built cause
  | failure (operation kind : String) : Cause.Built (.failure operation kind)
  | failureCaused (operation kind : String) {source : Cause} (inner : Cause.Built source) :
      Cause.Built (.failureCaused operation kind source)

/-- A chunk error that is made by a constructor, from parts that are. -/
inductive ChunkError.Built : ChunkError → Prop where
  | io (operation : ChunkOperation) {error : IoError} (inner : IoError.Built error) :
      ChunkError.Built (.io operation error)
  | shortRead (details : ShortRead) : ChunkError.Built (.shortRead details)
  | negativeSeek : ChunkError.Built .negativeSeek
  | other (operation : ChunkOperation) (message : String) :
      ChunkError.Built (Failure.other operation message none)
  | otherFrom (operation : ChunkOperation) (message : String) {source : Cause}
      (inner : Cause.Built source) :
      ChunkError.Built (Failure.other operation message (some source))
  | during (operation : ChunkOperation) {error : ChunkError} (inner : ChunkError.Built error) :
      ChunkError.Built (error.during operation)

end

/-- The kind of IO error that a chunk error of some kind is wrapped in, unless it stands for an IO
error itself. -/
def ChunkErrorKind.wrapper? : ChunkErrorKind → Option IoKind
  | .io => none
  | .shortRead => some .unexpectedEof
  | .negativeSeek => some .invalidInput
  | .other _ => some .other

theorem ChunkErrorKind.eq_io_of_wrapper {kind : ChunkErrorKind} (bare : kind.wrapper? = none) :
    kind = .io := by
  cases kind with
  | io => rfl
  | shortRead | negativeSeek | other => cases bare

/-- What stands behind a chunk error goes with its kind. -/
theorem ChunkError.Built.cause_of_kind {error : ChunkError} (built : error.Built) :
    match error.kind with
    | .io => ∃ source, error.cause = some (.io source) ∧ source.Built
    | .shortRead => ∃ details, error.cause = some (.shortRead details)
    | .negativeSeek => error.cause = none
    | .other _ => ∀ source, error.cause = some source → source.Built :=
  match error, built with
  | _, .io _ inner => ⟨_, rfl, inner⟩
  | _, .shortRead details => ⟨details, rfl⟩
  | _, .negativeSeek => rfl
  | _, .other _ _ => fun _ behind => nomatch behind
  | _, .otherFrom _ _ inner => fun _ behind => Option.some.inj behind ▸ inner
  | _, .during _ inner => inner.cause_of_kind

theorem Cause.causes_of_chunk {cause : Cause} {error : ChunkError}
    (holds : cause.chunk? = some error) : cause.causes = error.causes := by
  cases cause with
  | text | shortRead | io | failure | failureCaused => cases holds
  | chunk operation kind =>
      cases holds
      rfl
  | chunkCaused operation kind source =>
      cases holds
      rfl

mutual

/-- All that stands behind an error is made by constructors, to any depth. -/
theorem IoError.Built.of_mem_causes {error : IoError} (built : error.Built) :
    ∀ cause ∈ error.causes, cause.Built :=
  match error, built with
  | _, .plain _ _ => fun _ member => nomatch member
  | _, .wrapping _ inner => inner.of_mem_causes

theorem Cause.Built.of_mem_causes {source : Cause} (built : source.Built) :
    ∀ cause ∈ source.causes, cause.Built :=
  match source, built with
  | _, .text _ => fun _ member => nomatch member
  | _, .shortRead _ => fun _ member => nomatch member
  | _, .io inner => inner.of_mem_causes
  | _, .chunk holds inner => by
      rw [Cause.causes_of_chunk holds]
      exact inner.of_mem_causes
  | _, .failure _ _ => fun _ member => nomatch member
  | _, .failureCaused _ _ inner => List.forall_mem_cons.mpr ⟨inner, inner.of_mem_causes⟩

theorem ChunkError.Built.of_mem_causes {error : ChunkError} (built : error.Built) :
    ∀ cause ∈ error.causes, cause.Built :=
  match error, built with
  | _, .io _ inner => List.forall_mem_cons.mpr ⟨.io inner, inner.of_mem_causes⟩
  | _, .shortRead details => List.forall_mem_singleton.mpr (.shortRead details)
  | _, .negativeSeek => fun _ member => nomatch member
  | _, .other _ _ => fun _ member => nomatch member
  | _, .otherFrom _ _ inner => List.forall_mem_cons.mpr ⟨inner, inner.of_mem_causes⟩
  | _, .during _ inner => inner.of_mem_causes

end

theorem Cause.Built.chunk_of_holds {cause : Cause} (built : cause.Built) {error : ChunkError}
    (holds : cause.chunk? = some error) : error.Built := by
  cases built with
  | text | shortRead | io | failure | failureCaused => cases holds
  | chunk same inner =>
      cases same.symm.trans holds
      exact inner

namespace Failure

variable {ω κ : Type}

@[simp]
theorem kind_foldl_during (operations : List ω) (failure : Failure ω κ) :
    (operations.foldl Failure.during failure).kind = failure.kind := by
  induction operations generalizing failure with
  | nil => rfl
  | cons operation rest ih => exact ih (failure.during operation)

@[simp]
theorem cause_foldl_during (operations : List ω) (failure : Failure ω κ) :
    (operations.foldl Failure.during failure).cause = failure.cause := by
  induction operations generalizing failure with
  | nil => rfl
  | cons operation rest ih => exact ih (failure.during operation)

@[simp]
theorem causes_foldl_during (operations : List ω) (failure : Failure ω κ) :
    (operations.foldl Failure.during failure).causes = failure.causes := by
  rw [causes, cause_foldl_during, causes]

end Failure

namespace ChunkError

variable {error : ChunkError}

/-- An error of kind IO becomes the IO error behind it. -/
theorem Built.toIoError_of_io (built : error.Built) (kind : error.kind = .io) :
    error.cause = some (.io error.toIoError) := by
  have behind := built.cause_of_kind
  rw [kind] at behind
  obtain ⟨source, cause, _⟩ := behind
  rw [cause, toIoError, kind, cause]

/-- An error of any other kind is wrapped whole. -/
theorem toIoError_of_wrapper {kind : IoKind} (wrapper : error.kind.wrapper? = some kind) :
    error.toIoError = .wrapping kind error.toCause := by
  rw [toIoError]
  cases sort : error.kind with
  | io =>
      rw [sort] at wrapper
      cases wrapper
  | shortRead | negativeSeek | other =>
      rw [sort] at wrapper
      cases wrapper
      rfl

theorem Built.built_toIoError (built : error.Built) : error.toIoError.Built := by
  cases wrapper : error.kind.wrapper? with
  | some kind =>
      rw [toIoError_of_wrapper wrapper]
      exact .wrapping kind (.chunk (chunk?_toCause error) built)
  | none =>
      have kind := ChunkErrorKind.eq_io_of_wrapper wrapper
      have behind := built.cause_of_kind
      rw [kind] at behind
      obtain ⟨source, cause, inner⟩ := behind
      cases cause.symm.trans (built.toIoError_of_io kind)
      exact inner

/-- An IO error that becomes a chunk error is given back, whatever it was attributed to. -/
theorem toIoError_foldl_during_io (operation : ChunkOperation) (source : IoError)
    (operations : List ChunkOperation) :
    toIoError (operations.foldl Failure.during (.io operation source)) = source := by
  simp only [toIoError, Failure.kind_foldl_during, Failure.cause_foldl_during]
  rfl

/-- Take an IO error for a chunk error, attribute it to further operations, and pass it off as an IO
error again. -/
def rewrap (result : IoError) (operations : ChunkOperation × List ChunkOperation) : IoError :=
  toIoError (operations.2.foldl Failure.during (.io operations.1 result))

theorem foldl_rewrap (attributions : List (ChunkOperation × List ChunkOperation))
    (result : IoError) : attributions.foldl rewrap result = result := by
  induction attributions generalizing result with
  | nil => rfl
  | cons operations rest ih =>
      rw [List.foldl_cons, ih]
      exact toIoError_foldl_during_io _ _ _

/-- A chunk error made by constructors is of kind IO only if an IO error stands behind it, and then
becomes that one again. Any other one is wrapped whole, under a kind that goes with its own, and
its text and its causes are still told. Taking the result for a chunk error again changes nothing,
however often, and all chunk errors behind it are of the same making. -/
theorem toIoError_loses_nothing (built : error.Built) :
    (error.kind = .io → error.cause = some (.io error.toIoError) ∧
      error.causes = .io error.toIoError :: error.toIoError.causes) ∧
    (∀ operation source, ∀ operations : List ChunkOperation,
      operations.foldl Failure.during (ChunkError.io operation source) = error →
        error.toIoError = source) ∧
    (error.kind ≠ .io → ∃ kind, error.kind.wrapper? = some kind ∧
      error.toIoError = .wrapping kind error.toCause ∧
      error.toIoError.payload?.bind Cause.chunk? = some error ∧
      error.toIoError.message = error.message ∧ error.toIoError.causes = error.causes) ∧
    (∀ attributions : List (ChunkOperation × List ChunkOperation),
      attributions.foldl rewrap error.toIoError = error.toIoError) ∧
    error.toIoError.Built ∧
    ∀ cause ∈ error.causes, ∀ inner, cause.chunk? = some inner → inner.Built := by
  refine ⟨fun kind => ?_, ?_, fun other => ?_, ?_, built.built_toIoError, ?_⟩
  · have behind := built.toIoError_of_io kind
    refine ⟨behind, ?_⟩
    rw [Failure.causes, behind]
    rfl
  · rintro operation source operations rfl
    exact toIoError_foldl_during_io operation source operations
  · cases wrapper : error.kind.wrapper? with
    | none =>
        cases sort : error.kind with
        | io => exact absurd sort other
        | shortRead | negativeSeek | other =>
            rw [sort] at wrapper
            cases wrapper
    | some kind =>
        have wrapped := toIoError_of_wrapper wrapper
        refine ⟨kind, rfl, wrapped, ?_, ?_, ?_⟩
        · rw [wrapped]
          exact chunk?_toCause error
        · rw [wrapped]
          exact message_toCause error
        · rw [wrapped]
          exact causes_toCause error
  · exact fun attributions => foldl_rewrap attributions error.toIoError
  · exact fun cause member inner holds => (built.of_mem_causes cause member).chunk_of_holds holds

/-- A failed seek inside an IO error inside a failure given in words, which is not unwrapped
although an IO error stands behind it; and a short read that went through both layers twice. -/
theorem toIoError_loses_nothing_nested :
    let seeking : IoError := .wrapping .invalidInput negativeSeek.toCause
    let worded : ChunkError := (Failure.other .prefetch "busy" (some (.io seeking))).during .read
    let short := ChunkError.shortRead ⟨4, 5, 2⟩
    let again : ChunkError := (ChunkError.io .read short.toIoError).during .seek
    worded.Built ∧ again.Built ∧
      worded.toIoError = .wrapping .other worded.toCause ∧
      worded.toIoError.message = worded.message ∧
      worded.toIoError.causes = [.io seeking] ∧
      again.toIoError = .wrapping .unexpectedEof short.toCause ∧
      again.causes = .io again.toIoError :: [.shortRead ⟨4, 5, 2⟩] := by
  intro seeking worded short again
  have built : worded.Built :=
    .during .read (.otherFrom .prefetch "busy" (.io (.wrapping .invalidInput
      (.chunk (chunk?_toCause negativeSeek) .negativeSeek))))
  have built_again : again.Built :=
    .during .seek (.io .read (Built.shortRead ⟨4, 5, 2⟩).built_toIoError)
  obtain ⟨_, _, wraps, _⟩ := toIoError_loses_nothing built
  obtain ⟨kind, wrapper, wrapped, _, message, causes⟩ := wraps (by decide)
  cases wrapper
  obtain ⟨unwraps, gives_back, _⟩ := toIoError_loses_nothing built_again
  refine ⟨built, built_again, wrapped, message, causes, ?_, (unwraps rfl).2⟩
  exact gives_back .read short.toIoError [.seek] rfl

end ChunkError
end BulkTransfer
