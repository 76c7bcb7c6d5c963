import BulkTransfer.Proofs.ChunkReader.Steps
import BulkTransfer.Proofs.File.Tidy

/-!
# Loading from a file that shows contents

A file that shows fixed contents may deliver them in any pieces and be interrupted as often as it
likes: what a buffer is filled with depends on the contents alone, and so does whether a chunk can
be loaded. It can exactly if the contents reach to its end; a chunk that reaches further is refused
with the number of bytes that are there, and nothing is kept.
-/

namespace BulkTransfer

variable {σ : Type} {file : File σ} {contents : Contents}

/-- What becomes of filling a buffer: it depends on the contents alone. -/
structure File.FillsFrom (file : File σ) (contents : Contents) (offset : Nat) (buffer : Bytes)
    (state : σ) (count : Nat) : Prop where
  /-- Filling ends well, with a number of bytes. -/
  done : (file.fill offset buffer state).outcome = .done count
  /-- The bytes of the contents are at the front of the buffer. -/
  front : (file.fill offset buffer state).buffer.take count = contents.slice offset count
  /-- A tidy file leaves the rest of the buffer alone. -/
  rest : file.Tidy → (file.fill offset buffer state).buffer.drop count = buffer.drop count
  /-- Another file that shows the contents, in other pieces and with other interruptions, makes no
  difference. -/
  same : ∀ {τ : Type} (other : File τ) later, other.Shows contents →
    (other.fill offset buffer later).outcome = (file.fill offset buffer state).outcome ∧
    (other.fill offset buffer later).buffer.take count =
      (file.fill offset buffer state).buffer.take count ∧
    (file.Tidy → other.Tidy →
      (other.fill offset buffer later).buffer = (file.fill offset buffer state).buffer)
  /-- Of all reads that someone who watches the file gets to see, none begins or ends past the last
  offset, if the first one does not begin there. -/
  addressed : offset ≤ lastOffset → file.Unwatched →
    ∀ call ∈ Event.calls (file.watched.fill offset buffer state).events,
      call.offset + call.count ≤ lastOffset

/-- Filling a buffer from a file that shows contents gives as many bytes as fit and are there. -/
theorem File.fillsFrom_of_shows (shows : file.Shows contents)
    (addressable : contents.size ≤ lastOffset) (offset : Nat) (buffer : Bytes) (state : σ) :
    file.FillsFrom contents offset buffer state
      (min buffer.length (contents.size - min offset contents.size)) := by
  have available : contents.size - min offset contents.size = contents.size - offset := by omega
  rw [available]
  obtain ⟨done, front⟩ := fill_of_shows shows addressable offset buffer state
  have piece : contents.slice offset (min buffer.length (contents.size - offset)) =
      contents.slice offset buffer.length := by
    rw [← contents.length_slice, contents.slice_length_slice]
  constructor
  case done => exact done
  case front => exact front.trans piece.symm
  case rest => exact fun tidy => tidy.leavesRest_fill _ _ _ _ done
  case same =>
    intro τ other later shows_other
    obtain ⟨done_other, front_other⟩ := fill_of_shows shows_other addressable offset buffer later
    refine ⟨done_other.trans done.symm, front_other.trans front.symm, fun tidy tidy_other => ?_⟩
    rw [tidy_other.buffer_fill shows_other addressable, tidy.buffer_fill shows addressable]
  case addressed =>
    intro inside unwatched call called
    have reached := shows.offset_le_of_mem_calls unwatched called
    exact Nat.le_trans reached (Nat.max_le.mpr ⟨inside, addressable⟩)

theorem File.load_of_shows (shows : file.Shows contents) (addressable : contents.size ≤ lastOffset)
    (offset : Nat) {length : Nat} (nonempty : 0 < length) (fits : length ≤ signedMax)
    (source : σ) :
    let filling := file.fill offset (List.replicate length 0) source
    let details : ShortRead := ⟨offset, length, contents.size - offset⟩
    (offset + length ≤ contents.size ∧
      file.load offset length source =
        ⟨.done (contents.slice offset length), filling.state, filling.events⟩) ∨
    (contents.size < offset + length ∧
      file.load offset length source =
        ⟨.failed (.shortRead details), filling.state,
          filling.events ++ [.logged (.shortRead details)]⟩) := by
  intro filling details
  have filled := fill_of_shows shows addressable offset (List.replicate length 0) source
  rw [List.length_replicate] at filled
  obtain ⟨outcome, bytes⟩ := filled
  rcases Nat.lt_or_ge contents.size (offset + length) with beyond | stored
  · have short : contents.size - offset < length := by omega
    rw [Nat.min_eq_right (Nat.le_of_lt short)] at outcome
    exact .inr ⟨beyond, load_of_fill_short fits short outcome⟩
  · have all_there : min length (contents.size - offset) = length := by omega
    rw [all_there] at outcome bytes
    rw [List.take_of_length_le (by simp)] at bytes
    refine .inl ⟨stored, ?_⟩
    rw [load_of_fill_whole fits outcome, bytes]

namespace ChunkReader

variable {reader : ChunkReader}

/-- A reader that holds nothing takes hold of its range if the file has all of it, and otherwise is
left as it is by an operation that fails. -/
theorem ensureLoaded_of_shows (shows : file.Shows contents)
    (addressable : contents.size ≤ lastOffset) (vacant : reader.loaded = none)
    (nonempty : 0 < reader.length) (fits : reader.length ≤ signedMax) (source : σ) :
    let filling := file.fill reader.offset (List.replicate reader.length 0) source
    let bytes := contents.slice reader.offset reader.length
    let details : ShortRead := ⟨reader.offset, reader.length, contents.size - reader.offset⟩
    (reader.offset + reader.length ≤ contents.size ∧
      reader.ensureLoaded file source =
        ⟨.done bytes, ((reader.hold bytes).1, filling.state),
          filling.events ++ (reader.hold bytes).2⟩) ∨
    (contents.size < reader.offset + reader.length ∧
      reader.ensureLoaded file source =
        ⟨.failed (.shortRead details), (reader, filling.state),
          filling.events ++ [.logged (.shortRead details)]⟩) := by
  intro filling bytes details
  have loading := File.load_of_shows shows addressable reader.offset nonempty fits source
  rcases loading with ⟨stored, load⟩ | ⟨beyond, load⟩
  · refine .inl ⟨stored, ?_⟩
    rw [ensureLoaded_of_load_done vacant (congrArg Step.outcome load), load]
  · refine .inr ⟨beyond, ?_⟩
    rw [ensureLoaded_of_load_failed vacant (congrArg Step.outcome load), load]

/-- What becomes of a range that has to be loaded: it is held exactly if the file has all of it. -/
structure LoadsFrom (reader : ChunkReader) (file : File σ) (contents : Contents) (source : σ)
    (details : ShortRead) : Prop where
  /-- Loading ahead succeeds exactly if the contents reach to the end of the range. -/
  done_iff : (reader.prefetch file source).outcome = .done () ↔
    reader.offset + reader.length ≤ contents.size
  /-- Then the bytes of the range are held. -/
  held : reader.offset + reader.length ≤ contents.size →
    (reader.prefetch file source).state.1 =
      { reader with loaded := some (contents.slice reader.offset reader.length) }
  /-- Otherwise loading ahead fails with the details, and changes nothing but the file. -/
  refused : contents.size < reader.offset + reader.length →
    let filling := file.fill reader.offset (List.replicate reader.length 0) source
    reader.prefetch file source =
      ⟨.failed (.shortRead details), (reader, filling.state),
        filling.events ++ [.logged (.shortRead details)]⟩
  /-- Reading succeeds exactly if loading does. -/
  read_iff : ∀ buffer, reader.position < reader.length →
    ((∃ portion, (reader.read file buffer source).outcome = .done portion) ↔
      reader.offset + reader.length ≤ contents.size)
  /-- Otherwise it fails with the details too, and changes nothing but the file. -/
  read_refused : ∀ buffer, reader.position < reader.length →
    contents.size < reader.offset + reader.length →
    let filling := file.fill reader.offset (List.replicate reader.length 0) source
    reader.read file buffer source =
      ⟨⟨.failed ((ChunkError.shortRead details).during .read), (reader, filling.state),
        filling.events ++ [.logged (.shortRead details)]⟩, buffer⟩

/-- A reader that holds nothing loads its range from a file that shows contents, or is told how many
bytes are there. -/
theorem loadsFrom_of_shows (shows : file.Shows contents)
    (addressable : contents.size ≤ lastOffset) (vacant : reader.loaded = none)
    (nonempty : 0 < reader.length) (fits : reader.length ≤ signedMax) (source : σ) :
    reader.LoadsFrom file contents source
      ⟨reader.offset, reader.length, contents.size - min reader.offset contents.size⟩ := by
  have available : contents.size - min reader.offset contents.size =
      contents.size - reader.offset := by
    omega
  rw [available]
  rcases ensureLoaded_of_shows shows addressable vacant nonempty fits source with
    ⟨stored, loading⟩ | ⟨beyond, loading⟩
  · have not_beyond : ¬ contents.size < reader.offset + reader.length := Nat.not_lt.mpr stored
    constructor
    case done_iff =>
      rw [prefetch, loading]
      exact iff_of_true rfl stored
    case held =>
      rw [prefetch, loading]
      exact fun _ => rfl
    case refused => exact fun beyond => absurd beyond not_beyond
    case read_iff =>
      intro buffer before
      exact iff_of_true (exists_portion_of_loaded before loading buffer) stored
    case read_refused => exact fun _ _ beyond => absurd beyond not_beyond
  · have not_stored : ¬ reader.offset + reader.length ≤ contents.size := Nat.not_le.mpr beyond
    constructor
    case done_iff =>
      rw [prefetch, loading]
      exact iff_of_false (fun done => nomatch done) not_stored
    case held => exact fun stored => absurd stored not_stored
    case refused =>
      rw [prefetch, loading]
      exact fun _ => rfl
    case read_iff =>
      intro buffer before
      rw [read_of_refused before loading]
      exact iff_of_false (fun ⟨_, done⟩ => nomatch done) not_stored
    case read_refused => exact fun buffer before _ => read_of_refused before loading buffer

/-- Filling a buffer of any length at any offset from a file that shows contents ends well, with as
many bytes as fit and are there, however the file delivers them. So a chunk reader that holds
nothing loads its range exactly if the contents reach to its end. Otherwise it is told the range and
the number of bytes that are there, and is left as it was. -/
theorem loaded_iff_stored (shows : file.Shows contents)
    (addressable : contents.size ≤ lastOffset) :
    (∀ offset buffer state,
      file.FillsFrom contents offset buffer state
        (min buffer.length (contents.size - min offset contents.size))) ∧
    ∀ (reader : ChunkReader) source, reader.loaded = none → 0 < reader.length →
      reader.length ≤ signedMax →
        reader.LoadsFrom file contents source
          ⟨reader.offset, reader.length, contents.size - min reader.offset contents.size⟩ :=
  ⟨File.fillsFrom_of_shows shows addressable,
    fun _ source vacant nonempty fits =>
      loadsFrom_of_shows shows addressable vacant nonempty fits source⟩

/-- Contents that go on to the last offset there is. -/
def fullLength : Contents where
  size := lastOffset
  byte offset := UInt8.ofNat offset

/-- Two bytes before the end of contents that go on to the last offset, where the file gives one
byte at a time between interruptions: a longer buffer gets these two bytes by reads that all have
offsets, a chunk of five cannot be loaded from there, and a chunk of two can. -/
theorem loaded_iff_stored_fullLength :
    let file := fullLength.hesitant
    file.Shows fullLength ∧ fullLength.size ≤ lastOffset ∧
      (file.fill (lastOffset - 2) [7, 7, 7, 7] false).outcome = .done 2 ∧
      (file.fill (lastOffset - 2) [7, 7, 7, 7] false).buffer = [253, 254, 7, 7] ∧
      (∀ call ∈ Event.calls (file.watched.fill (lastOffset - 2) [7, 7, 7, 7] false).events,
        call.offset + call.count ≤ lastOffset) ∧
      (ChunkReader.prefetch file ⟨lastOffset - 2, 5, 0, none⟩ false).outcome =
        .failed (.shortRead ⟨lastOffset - 2, 5, 2⟩) ∧
      (ChunkReader.prefetch file ⟨lastOffset - 2, 2, 0, none⟩ false).state.1.loaded =
        some [253, 254] := by
  intro file
  have shows : file.Shows fullLength := fullLength.shows_hesitant
  have addressable : fullLength.size ≤ lastOffset := Nat.le_refl _
  have tidy : file.Tidy := fullLength.tidy_hesitant
  obtain ⟨fills, loads⟩ := loaded_iff_stored shows addressable
  have filling := fills (lastOffset - 2) [7, 7, 7, 7] false
  have long := loads ⟨lastOffset - 2, 5, 0, none⟩ false rfl (by decide) (by decide)
  have short := loads ⟨lastOffset - 2, 2, 0, none⟩ false rfl (by decide) (by decide)
  refine ⟨shows, addressable, filling.done, ?_, ?_, ?_, ?_⟩
  · have front : (file.fill (lastOffset - 2) [7, 7, 7, 7] false).buffer.take 2 = [253, 254] :=
      filling.front
    have rest : (file.fill (lastOffset - 2) [7, 7, 7, 7] false).buffer.drop 2 = [7, 7] :=
      filling.rest tidy
    rw [← List.take_append_drop 2 (file.fill (lastOffset - 2) [7, 7, 7, 7] false).buffer, front,
      rest]
    rfl
  · exact filling.addressed (Nat.sub_le _ _) fullLength.unwatched_hesitant
  · exact congrArg Step.outcome (long.refused (by decide))
  · exact congrArg ChunkReader.loaded (short.held (by decide))

end ChunkReader
end BulkTransfer
