import BulkTransfer.Bounds
import BulkTransfer.Step

/-!
# Files

A file answers positioned reads: reads of an absolute range that depend on no shared cursor. Each
read may deliver less than was asked for, fail, be interrupted, or claim more than it wrote. Every
file carries a bound on how often the same read can be interrupted in a row, its patience, so that
`File.fill`, which retries interrupted reads and goes on after partial ones, always ends.
-/

namespace BulkTransfer

/-- A file with state `σ`, seen through its positioned reads. -/
structure File (σ : Type) where
  /-- Read into a buffer from an offset; the outcome claims a number of bytes. -/
  readAt : Nat → Bytes → σ → Transfer σ IoError Nat
  /-- Bound on how often a read can be interrupted in a row. -/
  patience : Nat → Bytes → σ → Nat
  /-- A read never changes the length of the buffer. -/
  length_readAt : ∀ offset buffer state, (readAt offset buffer state).buffer.length = buffer.length
  /-- Each interruption uses up patience. -/
  patience_lt : ∀ offset buffer state, (readAt offset buffer state).isInterrupted = true →
    patience offset (readAt offset buffer state).buffer (readAt offset buffer state).state <
      patience offset buffer state

namespace File

variable {σ : Type}

/-- Read until the buffer is full, the file ends, or a read fails; interrupted reads are made again.
A claim that overruns the buffer or the last offset aborts. -/
def fill (file : File σ) (offset : Nat) (buffer : Bytes) (state : σ) : Transfer σ IoError Nat :=
  if buffer = [] then
    .leaving (.done 0) buffer state
  else
    let answer := file.readAt offset buffer state
    match outcome : answer.outcome with
    | .aborted _ => answer
    | .failed error =>
        if error.isInterrupted then
          (file.fill offset answer.buffer answer.state).after answer.events
        else
          answer
    | .done 0 => answer
    | .done (count + 1) =>
        if buffer.length < count + 1 then
          { answer with outcome := .aborted .overclaim }
        else if lastOffset < offset + (count + 1) then
          { answer with outcome := .aborted .pastLastOffset }
        else
          let rest :=
            file.fill (offset + (count + 1)) (answer.buffer.drop (count + 1)) answer.state
          { outcome := rest.outcome.map (count + 1 + ·)
            state := rest.state
            events := answer.events ++ rest.events
            buffer := answer.buffer.take (count + 1) ++ rest.buffer }
termination_by (buffer.length, file.patience offset buffer state)
decreasing_by
  · rw [file.length_readAt]
    refine Prod.Lex.right _ (file.patience_lt _ _ _ ?_)
    rw [Transfer.isInterrupted]
    simp_all [answer]
  · refine Prod.Lex.left _ _ ?_
    rw [List.length_drop, file.length_readAt]
    omega

/-- Filling never changes the length of the buffer. -/
@[simp]
theorem length_fill (file : File σ) (offset : Nat) (buffer : Bytes) (state : σ) :
    (file.fill offset buffer state).buffer.length = buffer.length := by
  fun_induction file.fill offset buffer state with
  | case1 => rfl
  | case3 _ _ _ _ _ _ _ _ ih => exact ih.trans (file.length_readAt _ _ _)
  | case8 offset buffer state _ answer _ _ _ _ rest ih =>
      have kept : answer.buffer.length = buffer.length := file.length_readAt _ _ _
      simp only [List.length_append, List.length_take, rest, ih, List.length_drop, kept]
      omega
  | _ => exact file.length_readAt _ _ _

/-- Filling makes interrupted reads again, so it is never interrupted itself. -/
@[simp]
theorem isInterrupted_fill (file : File σ) (offset : Nat) (buffer : Bytes) (state : σ) :
    (file.fill offset buffer state).isInterrupted = false := by
  fun_induction file.fill offset buffer state with
  | case1 => rfl
  | case2 => simp_all [Transfer.isInterrupted]
  | case3 _ _ _ _ _ _ _ _ ih => simpa using ih
  | case4 => simp_all [Transfer.isInterrupted]
  | case5 => simp_all [Transfer.isInterrupted]
  | case6 => simp_all [Transfer.isInterrupted]
  | case7 => simp_all [Transfer.isInterrupted]
  | case8 _ _ _ _ _ _ _ _ _ rest ih =>
      change rest.isInterrupted = false at ih
      rw [Transfer.isInterrupted] at ih ⊢
      cases ending : rest.outcome <;> simp_all

end File
end BulkTransfer
