import BulkTransfer.Proofs.ChunkReader.Calling
import BulkTransfer.Proofs.ChunkReader.Failing
import BulkTransfer.Proofs.ChunkReader.Tower

/-!
# Errors that surface

An error of the file under a tower of ranges is handed up from storey to storey: each one makes a
chunk error of it, attributes that to another operation, and makes an IO error again. What surfaces
is the error of the file itself. If the file ends, the lowest range comes up short, and what
surfaces is the short read of that range. Either way nothing is held afterwards that was not held
before.
-/

namespace BulkTransfer

variable {σ : Type}

namespace File

variable {file : File σ} {offset length : Nat} {source : σ}

theorem metIn_fill {mishap : Mishap}
    (met : mishap.MetIn (Event.calls (file.load offset length source).events)) :
    let zeros := List.replicate length 0
    length ≤ signedMax ∧ zeros ≠ [] ∧
      mishap.MetIn (Event.calls (file.fill offset zeros source).events) := by
  intro zeros
  suffices length ≤ signedMax ∧ mishap.MetIn (Event.calls (file.fill offset zeros source).events) by
    refine ⟨this.1, fun none_wanted => ?_, this.2⟩
    rw [none_wanted, File.fill, if_pos rfl] at this
    exact mishap.not_metIn_nil this.2
  rcases file.load_cases offset length source with
    ⟨_, load⟩ | ⟨fits, ⟨_, _, load⟩ | ⟨_, _, load⟩ | ⟨_, load⟩ | ⟨_, _, _, load⟩⟩ <;>
    rw [load] at met
  · exact absurd met mishap.not_metIn_nil
  · exact ⟨fits, met⟩
  · exact ⟨fits, met⟩
  · exact ⟨fits, met⟩
  · rw [Event.calls_append] at met
    exact ⟨fits, by simpa [Event.calls] using met⟩

end File

namespace ChunkReader

variable {file : File σ} {reader : ChunkReader} {source : σ}

/-- The same reader, moved towards an offset as far as its range goes. -/
def aimed (reader : ChunkReader) (offset : Nat) : ChunkReader :=
  { reader with position := min (min offset signedMax) reader.length }

theorem Sound.aimed (sound : reader.Sound) (offset : Nat) : (reader.aimed offset).Sound :=
  ⟨Nat.min_le_right _ _, sound.whole, sound.fits⟩

theorem readAt_aimed (file : File σ) (offset : Nat) (buffer : Bytes) (reader : ChunkReader)
    (source : σ) :
    file.nested.readAt offset buffer (reader, source) =
      (reader.aimed offset).streamRead file buffer source :=
  file.readAt_nested offset buffer reader source

theorem provided_of_readAt {offset : Nat} (sound : (reader.aimed offset).Sound)
    (fits : reader.length ≤ signedMax) {buffer : Bytes} {count : Nat}
    (done : (file.nested.readAt offset buffer (reader, source)).outcome = .done count) :
    let moved := (file.nested.readAt offset buffer (reader, source)).state.1
    (moved.aimed (offset + count)).Provided ∧ moved.Sound ∧ moved.length = reader.length := by
  rw [readAt_aimed] at done ⊢
  obtain ⟨provided, still_sound, same_length, moves⟩ := provided_of_streamRead sound done
  refine ⟨?_, still_sound, same_length⟩
  rcases provided with held | ended
  · exact .inl held
  · right
    rw [moves, same_length] at ended
    simp only [aimed] at ended same_length ⊢
    omega

theorem calls_readAt_of_provided {offset : Nat} {state : ChunkReader × σ}
    (provided : (state.1.aimed offset).Provided) (buffer : Bytes) :
    Event.calls (file.nested.readAt offset buffer state).events = [] := by
  rw [readAt_aimed, events_streamRead]
  exact calls_read_of_provided file provided state.2 buffer

theorem isInterrupted_readAt_nested (file : File σ) (offset : Nat) (buffer : Bytes)
    (state : ChunkReader × σ) : (file.nested.readAt offset buffer state).isInterrupted = false := by
  rw [readAt_aimed]
  exact isInterrupted_streamRead file buffer (state.1.aimed offset) state.2

/-- A reader that is provided at an offset can fill a buffer from there on without its file. -/
theorem calls_fill_of_provided {offset : Nat} {buffer : Bytes} {state : ChunkReader × σ}
    (sound : state.1.Sound) (fits : state.1.length ≤ signedMax)
    (provided : (state.1.aimed offset).Provided) :
    Event.calls (file.nested.fill offset buffer state).events = [] := by
  fun_induction file.nested.fill offset buffer state with
  | case1 => rfl
  | case2 | case4 | case5 | case6 | case7 => exact calls_readAt_of_provided provided _
  | case3 offset buffer state _ answer error outcome interrupted =>
      have calm : answer.isInterrupted = false := isInterrupted_readAt_nested file _ _ _
      rw [Transfer.isInterrupted, outcome] at calm
      exact absurd (calm.symm.trans interrupted) (by decide)
  | case8 offset buffer state _ answer count outcome _ _ rest ih =>
      obtain ⟨later, still_sound, same_length⟩ :=
        provided_of_readAt (sound.aimed offset) fits outcome
      have others : Event.calls rest.events = [] := ih still_sound (same_length ▸ fits) later
      rw [Event.calls_append, calls_readAt_of_provided provided, others]
      rfl

/-- All calls of filling from a range are made by the first read of it. -/
theorem calls_fill_nested {offset : Nat} (sound : (reader.aimed offset).Sound)
    (fits : reader.length ≤ signedMax) {buffer : Bytes} (wanted : buffer ≠ []) (source : σ) :
    Event.calls (file.nested.fill offset buffer (reader, source)).events =
      Event.calls ((reader.aimed offset).read file buffer source).events := by
  have calm := isInterrupted_readAt_nested file offset buffer (reader, source)
  rw [← events_streamRead, ← readAt_aimed, file.nested.fill_of_readAt wanted rfl]
  split
  · rfl
  · next failed =>
      rw [Transfer.isInterrupted, failed] at calm
      rw [if_neg (by simp [calm])]
  · rfl
  · next done =>
      obtain ⟨later, still_sound, same_length⟩ := provided_of_readAt sound fits done
      split
      · rfl
      · split
        · rfl
        · rw [Event.calls_append, calls_fill_of_provided still_sound (same_length ▸ fits) later,
            List.append_nil]

theorem read_of_load_failed (vacant : reader.loaded = none)
    (before : reader.position < reader.length) (buffer : Bytes) {error : ChunkError} :
    let loading := file.load reader.offset reader.length source
    loading.outcome = .failed error →
      reader.read file buffer source =
        ⟨⟨.failed (error.during .read), (reader, loading.state), loading.events⟩, buffer⟩ :=
  fun failed => read_of_refused before (ensureLoaded_of_load_failed vacant failed) buffer

/-- Filling from a range that is not held calls the file below in loading the range only, if at all,
and fails if loading fails. -/
theorem fill_nested_of_none (vacant : reader.loaded = none) (fits : reader.length ≤ signedMax)
    (offset : Nat) {buffer : Bytes} (wanted : buffer ≠ []) (source : σ) :
    let filling := file.nested.fill offset buffer (reader, source)
    let loading := file.load reader.offset reader.length source
    Event.calls filling.events = [] ∨
      Event.calls filling.events = Event.calls loading.events ∧
        ∀ error, loading.outcome = .failed error →
          filling = ⟨⟨.failed (ChunkError.toIoError (error.during .read)),
            (reader.aimed offset, loading.state), loading.events⟩, buffer⟩ := by
  intro filling loading
  have still_none : (reader.aimed offset).loaded = none := vacant
  have sound : (reader.aimed offset).Sound := sound_of_none still_none (Nat.min_le_right _ _)
  have first : Event.calls filling.events =
      Event.calls ((reader.aimed offset).read file buffer source).events :=
    calls_fill_nested sound fits wanted source
  rcases Nat.lt_or_ge (reader.aimed offset).position (reader.aimed offset).length with
    before | ended
  · right
    refine ⟨?_, fun error failed => ?_⟩
    · rw [first, calls_read_of_before file before]
      exact calls_ensureLoaded_of_none file still_none source
    · have reading := read_of_load_failed still_none before buffer failed
      have answer : file.nested.readAt offset buffer (reader, source) =
          ⟨⟨.failed (ChunkError.toIoError (error.during .read)),
            (reader.aimed offset, loading.state), loading.events⟩, buffer⟩ := by
        rw [readAt_aimed, streamRead, reading]
        rfl
      have calm := isInterrupted_readAt_nested file offset buffer (reader, source)
      rw [answer] at calm
      exact (file.nested.fill_of_readAt wanted answer).trans
        (if_neg (ne_true_of_eq_false calm))
  · left
    rw [first]
    exact calls_read_of_provided file (.inr ended) source buffer

end ChunkReader

namespace Mishap

/-- The IO error that a mishap of a file becomes when the range right above the file is read. -/
def ioError (mishap : Mishap) (lowest : Storey) : IoError :=
  match mishap with
  | failure error => error
  | ending given =>
      .wrapping .unexpectedEof
        (ChunkError.toCause
          ((ChunkError.shortRead ⟨lowest.offset, lowest.length, given⟩).during .read))

/-- The chunk error that a mishap of the file under a tower becomes in a range on top of it. -/
def chunkError (mishap : Mishap) (operation : ChunkOperation) (range : Storey)
    (storeys : List Storey) : ChunkError :=
  match mishap, storeys.getLast? with
  | ending given, none =>
      (ChunkError.shortRead ⟨range.offset, range.length, given⟩).during operation
  | mishap, lowest => .io operation (mishap.ioError (lowest.getD range))

theorem during_chunkError (mishap : Mishap) (first second : ChunkOperation) (range : Storey)
    (storeys : List Storey) :
    (mishap.chunkError first range storeys).during second =
      mishap.chunkError second range storeys := by
  cases mishap <;> cases found : storeys.getLast? <;> simp only [chunkError, found] <;> rfl

/-- As an IO error, a mishap is the same in all ranges above the lowest one. -/
theorem toIoError_chunkError (mishap : Mishap) (range : Storey) (storeys : List Storey) :
    (mishap.chunkError .read range storeys).toIoError =
      mishap.ioError (storeys.getLast?.getD range) := by
  cases mishap <;> cases found : storeys.getLast? <;> simp only [chunkError, found] <;> rfl

theorem chunkError_cons (mishap : Mishap) (operation : ChunkOperation) (range storey : Storey)
    (below : List Storey) :
    mishap.chunkError operation range (storey :: below) =
      .io operation (mishap.ioError (below.getLast?.getD storey)) := by
  have found : (storey :: below).getLast? = some (below.getLast?.getD storey) :=
    List.getLast?_cons
  cases mishap <;> simp only [chunkError, found] <;> rfl

end Mishap

namespace Tower

/-- No storey of a tower holds its range. -/
def Vacant : (storeys : List Storey) → State σ storeys → Prop
  | [], _ => True
  | storey :: below, ((reader, state) : ChunkReader × State σ below) =>
      (reader.offset = storey.offset ∧ reader.length = storey.length ∧ reader.loaded = none) ∧
        Vacant below state

/-- An operation of a reader on a tower leaves the reader as it was, the tower vacant, and the byte
counter alone. -/
def Spared {storeys : List Storey} {ε α : Type} (reader : ChunkReader)
    (step : Step (ChunkReader × State σ storeys) ε α) : Prop :=
  step.state.1 = reader ∧ Vacant storeys step.state.2 ∧ Event.deltas step.events = []

variable {base : File σ} (quiet : base.Quiet) (unwatched : base.Unwatched) {mishap : Mishap}

include quiet unwatched

/-- If the file under a tower meets with a mishap while a range on top is loaded, then loading fails
with what becomes of it there, and the tower is left as vacant as before. -/
theorem load_of_mishap {storeys : List Storey} {tower : State σ storeys}
    (fits : ∀ storey ∈ storeys, storey.length ≤ signedMax) (vacant : Vacant storeys tower)
    (range : Storey) :
    let loading := (file base.watched storeys).load range.offset range.length tower
    mishap.MetIn (Event.calls loading.events) →
      loading.outcome = .failed (mishap.chunkError .prefetch range storeys) ∧
        Vacant storeys loading.state ∧ Event.deltas loading.events = [] := by
  -- Each storey is filled from by loading the storey below it, which fails by the hypothesis of the
  -- induction; at the bottom the file itself is filled from.
  induction storeys generalizing range with
  | nil =>
      intro loading met
      obtain ⟨range_fits, _, met_below⟩ := File.metIn_fill met
      refine ⟨?_, trivial, ChunkReader.deltas_load quiet.watched _ _ _⟩
      cases mishap with
      | failure error =>
          have failed := File.fill_of_failure unwatched met_below
          exact congrArg Step.outcome (File.load_of_fill_failed range_fits failed)
      | ending given =>
          obtain ⟨stopped, short⟩ := File.fill_of_ending unwatched met_below
          rw [List.length_replicate] at short
          exact congrArg Step.outcome (File.load_of_fill_short range_fits short stopped)
  | cons storey below ih =>
      intro loading met
      obtain ⟨reader, state⟩ := tower
      obtain ⟨⟨same_offset, same_length, none_held⟩, vacant_below⟩ := vacant
      obtain ⟨range_fits, wanted, met_below⟩ := File.metIn_fill met
      have reader_fits : reader.length ≤ signedMax :=
        same_length ▸ fits storey List.mem_cons_self
      have fits_below : ∀ storey ∈ below, storey.length ≤ signedMax :=
        fun other member => fits other (List.mem_cons_of_mem _ member)
      rcases ChunkReader.fill_nested_of_none none_held reader_fits range.offset wanted state with
        silent | ⟨same_calls, filling_fails⟩
      · exact absurd (silent ▸ met_below) mishap.not_metIn_nil
      · have met_lower := same_calls ▸ met_below
        rw [same_offset, same_length] at met_lower filling_fails
        obtain ⟨failed, still_vacant, silent⟩ := ih fits_below vacant_below storey met_lower
        have filling : (file base.watched (storey :: below)).fill range.offset
            (List.replicate range.length 0) (reader, state) = _ := filling_fails _ failed
        have load : loading = _ :=
          File.load_of_fill_failed range_fits (congrArg (·.outcome) filling)
        rw [filling] at load
        rw [load, Mishap.during_chunkError, Mishap.toIoError_chunkError, ← Mishap.chunkError_cons]
        exact ⟨rfl, ⟨⟨same_offset, same_length, none_held⟩, still_vacant⟩, silent⟩

/-- Whatever the file at the bottom fails with, and wherever it ends, an operation of a reader on
top that meets with it fails with what becomes of it there: the same error at every height, or the
short read of the lowest range. Nothing is held afterwards, and nothing was charged. -/
theorem mishap_surfaces (mishap : Mishap) {storeys : List Storey} {tower : State σ storeys}
    (fits : ∀ storey ∈ storeys, storey.length ≤ signedMax) (vacant : Vacant storeys tower)
    {reader : ChunkReader} (unloaded : reader.loaded = none) (buffer : Bytes) :
    let below := file base.watched storeys
    let range : Storey := ⟨reader.offset, reader.length⟩
    let fetching := reader.prefetch below tower
    let reading := reader.read below buffer tower
    let streaming := reader.streamRead below buffer tower
    (mishap.MetIn (Event.calls fetching.events) →
      fetching.outcome = .failed (mishap.chunkError .prefetch range storeys) ∧
        Spared reader fetching) ∧
    (mishap.MetIn (Event.calls reading.events) →
      reading.outcome = .failed (mishap.chunkError .read range storeys) ∧
        reading.buffer = buffer ∧ Spared reader reading.toStep) ∧
    (mishap.MetIn (Event.calls streaming.events) →
      streaming.outcome = .failed (mishap.ioError (storeys.getLast?.getD range)) ∧
        streaming.buffer = buffer ∧ Spared reader streaming.toStep) := by
  intro below range fetching reading streaming
  have loading_fails : mishap.MetIn _ → _ := load_of_mishap quiet unwatched fits vacant range
  have read_fails : mishap.MetIn (Event.calls reading.events) →
      reading.outcome = .failed (mishap.chunkError .read range storeys) ∧
        reading.buffer = buffer ∧ Spared reader reading.toStep := by
    intro met
    rcases Nat.lt_or_ge reader.position reader.length with before | ended
    · rw [ChunkReader.calls_read_of_before below before,
        ChunkReader.calls_ensureLoaded_of_none below unloaded] at met
      obtain ⟨failed, still_vacant, silent⟩ := loading_fails met
      have step : reading = _ := ChunkReader.read_of_load_failed unloaded before buffer failed
      rw [step, Mishap.during_chunkError]
      exact ⟨rfl, rfl, rfl, still_vacant, silent⟩
    · have step : reading = _ := ChunkReader.read_of_end below reader tower buffer ended
      rw [step] at met
      exact absurd met mishap.not_metIn_nil
  refine ⟨fun met => ?_, read_fails, fun met => ?_⟩
  · have same_calls : Event.calls fetching.events = _ :=
      ChunkReader.calls_ensureLoaded_of_none below unloaded tower
    obtain ⟨failed, still_vacant, silent⟩ := loading_fails (same_calls ▸ met)
    have step := ChunkReader.ensureLoaded_of_load_failed unloaded failed
    have prefetching : fetching = _ := congrArg (Step.map fun _ => ()) step
    rw [prefetching]
    exact ⟨rfl, rfl, still_vacant, silent⟩
  · obtain ⟨failed, same_buffer, spared⟩ := read_fails met
    refine ⟨?_, same_buffer, spared⟩
    have outcome := reader.outcome_streamRead below tower buffer
    rw [show (reader.read below buffer tower).outcome = _ from failed] at outcome
    exact outcome.trans (congrArg Outcome.failed (mishap.toIoError_chunkError range storeys))

omit quiet unwatched in
/-- Under two storeys a file is interrupted, gives one byte, and then cannot be reached; what a
stream read on top fails with is what the file failed with. Another tower reaches past the end of
the file, and what a prefetch on top of it fails with tells of its lower storey. -/
theorem mishap_surfaces_twoStoreys :
    let base := sixBytes.scripted
    let reader : ChunkReader := ⟨0, 2, 1, none⟩
    let error := IoError.wrapping .timedOut (.chunkCaused .seek .io (.text "no answer"))
    let script := [.fail (.ofKind .interrupted), .atMost 1, .fail error]
    let tower : State (List Turn) twoStoreys := (⟨1, 2, 2, none⟩, ⟨1, 4, 0, none⟩, script)
    let streaming := reader.streamRead (file base.watched twoStoreys) [7] tower
    let high : List Storey := [⟨1, 2⟩, ⟨4, 4⟩]
    let high_tower : State (List Turn) high := (⟨1, 2, 2, none⟩, ⟨4, 4, 0, none⟩, [])
    let fetching := reader.prefetch (file base.watched high) high_tower
    base.Quiet ∧ base.Unwatched ∧ reader.loaded = none ∧
      ((∀ storey ∈ twoStoreys, storey.length ≤ signedMax) ∧ Vacant twoStoreys tower ∧
        (Mishap.failure error).MetIn (Event.calls streaming.events) ∧
        streaming.outcome = .failed error ∧ streaming.state.1 = reader) ∧
      (∀ storey ∈ high, storey.length ≤ signedMax) ∧ Vacant high high_tower ∧
        (Mishap.ending 2).MetIn (Event.calls fetching.events) ∧
        fetching.outcome = .failed (.io .prefetch
          (.wrapping .unexpectedEof (.chunkCaused .read .shortRead (.shortRead ⟨4, 4, 2⟩)))) ∧
        fetching.state.1 = reader := by
  intro base reader error script tower streaming high high_tower fetching
  have quiet := sixBytes.quiet_scripted
  have unwatched := sixBytes.unwatched_scripted
  have unloaded : reader.loaded = none := rfl
  refine ⟨quiet, unwatched, unloaded, ?_, ?_⟩
  · have fits : ∀ storey ∈ twoStoreys, storey.length ≤ signedMax := by decide
    have vacant : Vacant twoStoreys tower := ⟨⟨rfl, rfl, rfl⟩, ⟨rfl, rfl, rfl⟩, trivial⟩
    have calls : Event.calls streaming.events =
        [⟨1, 4, .failed (.ofKind .interrupted)⟩, ⟨1, 4, .done 1⟩, ⟨2, 3, .failed error⟩] := by
      cbv
    have met : (Mishap.failure error).MetIn (Event.calls streaming.events) := by
      rw [calls]
      exact ⟨rfl, ⟨2, 3, .failed error⟩, by simp, rfl⟩
    obtain ⟨_, _, surfaces⟩ :=
      mishap_surfaces quiet unwatched (.failure error) fits vacant unloaded [7]
    obtain ⟨failed, _, same, _⟩ := surfaces met
    exact ⟨fits, vacant, met, failed, same⟩
  · have fits : ∀ storey ∈ high, storey.length ≤ signedMax := by decide
    have vacant : Vacant high high_tower := ⟨⟨rfl, rfl, rfl⟩, ⟨rfl, rfl, rfl⟩, trivial⟩
    have calls : Event.calls fetching.events = [⟨4, 4, .done 2⟩, ⟨6, 2, .done 0⟩] := by cbv
    have met : (Mishap.ending 2).MetIn (Event.calls fetching.events) := by
      rw [calls]
      exact ⟨⟨⟨6, 2, .done 0⟩, by simp, rfl⟩, rfl⟩
    obtain ⟨surfaces, _, _⟩ := mishap_surfaces quiet unwatched (.ending 2) fits vacant unloaded []
    obtain ⟨failed, same, _⟩ := surfaces met
    exact ⟨fits, vacant, met, failed, same⟩

end Tower
end BulkTransfer
