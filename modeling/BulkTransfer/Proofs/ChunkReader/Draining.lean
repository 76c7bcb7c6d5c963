import BulkTransfer.Proofs.ChunkReader.Consuming
import BulkTransfer.Proofs.ChunkReader.Seeking
import BulkTransfer.Proofs.ChunkReader.Serving

/-!
# Draining a chunk

A consumer reads a chunk with one buffer after the other, through the reader's own interface until a
read tells that it met the end, or as a stream until a read gives nothing. Whatever buffers it
chooses, it gets all that is left of the chunk or nothing at all: the first read loads the chunk, or
fails and gives nothing, and all later ones take from what was loaded.
-/

namespace BulkTransfer

namespace ChunkReader

variable {σ : Type} (file : File σ)

/-- Read with one buffer after the other until a read tells that it met the end. -/
def portions : List Bytes → ChunkReader × σ → Drained (ChunkReader × σ) ChunkError :=
  readThrough fun buffer now => now.1.read file buffer now.2

/-- A read of a stream tells that it met the end by giving nothing. -/
def streamPortion (buffer : Bytes) (now : ChunkReader × σ) :
    Transfer (ChunkReader × σ) IoError Portion :=
  (now.1.streamRead file buffer now.2).mapOutcome (Outcome.map fun count => ⟨count, count = 0⟩)

/-- Read with one buffer after the other, as a stream, until a read gives nothing. -/
def streamed : List Bytes → ChunkReader × σ → Drained (ChunkReader × σ) IoError :=
  readThrough (streamPortion file)

variable {file} {reader : ChunkReader} {source : σ} {bytes : Bytes}

/-- Where amounts are only noted, the last read of a chunk that is held is not cut off. -/
theorem read_rest (held : reader.loaded = some bytes) (before : reader.position < reader.length)
    (whole : bytes.length = reader.length) {buffer : Bytes}
    (last : (bytes.drop reader.position).length ≤ buffer.length) :
    let left := bytes.drop reader.position
    let moving := reader.advance left.length
    reader.read file buffer source =
      { outcome := .done ⟨left.length, true⟩
        state := (moving.1, source)
        events := moving.2
        buffer := overlay left buffer } := by
  rw [read_last held before whole last]
  simp only [Tracker.hear_noting]

theorem advance_moved (reader : ChunkReader) (first second : Nat) :
    { reader with position := reader.position + first }.advance second =
      reader.advance (first + second) := by
  simp only [advance, Nat.add_assoc]

theorem advance_moved_min (reader : ChunkReader) {left : Bytes} {room : Nat}
    (more : ¬ left.length ≤ room) (others : Nat) :
    { reader with position := reader.position + room }.advance
        (min others (left.drop room).length) =
      reader.advance (min (room + others) left.length) := by
  have taken : room + min others (left.length - room) = min (room + others) left.length := by omega
  rw [advance_moved, List.length_drop, taken]

/-- A consumer of a reader that holds the chunk gets what is left of it, cut into pieces. -/
theorem portions_of_held (held : reader.loaded = some bytes) (whole : bytes.length = reader.length)
    (before : reader.position < reader.length) (buffers : List Bytes) :
    let left := bytes.drop reader.position
    let rooms := buffers.map List.length
    let moving := reader.advance (min rooms.sum left.length)
    portions file buffers (reader, source) =
      { outcome := .done (left.length ≤ rooms.sum)
        state := (moving.1, source)
        events := moving.2
        pieces := cut rooms left } := by
  induction buffers generalizing reader with
  | nil =>
      have some_left : ¬ (bytes.drop reader.position).length ≤ 0 := by
        rw [List.length_drop, whole]
        omega
      have stays : reader.advance 0 = (reader, []) := if_neg (Nat.not_le.mpr before)
      simp only [portions, readThrough, cut, List.map_nil, List.sum_nil, Nat.zero_min, stays,
        some_left, decide_false]
  | cons buffer rest ih =>
      intro left rooms moving
      have size : left.length = reader.length - reader.position := by
        rw [List.length_drop, whole]
      have total : rooms.sum = buffer.length + (rest.map List.length).sum := List.sum_cons
      by_cases last : left.length ≤ buffer.length
      · have reach : left.length ≤ rooms.sum := by omega
        have pieces : cut rooms left = [left] := if_pos last
        rw [portions, readThrough_last rest (read_rest held before whole last), pieces,
          take_overlay rfl last]
        simp only [moving, Nat.min_eq_right reach, reach, decide_true]
        rfl
      · have inside : reader.position + buffer.length < reader.length := by omega
        have pieces : cut rooms left =
            left.take buffer.length :: cut (rest.map List.length) (left.drop buffer.length) :=
          if_neg last
        have later := @ih { reader with position := reader.position + buffer.length }
          held whole inside
        rw [portions, readThrough_more rest (read_full held before whole (Nat.lt_of_not_le last)),
          show readThrough _ rest _ = _ from later, pieces]
        have rest_left : bytes.drop (reader.position + buffer.length) = left.drop buffer.length :=
          List.drop_drop.symm
        have rest_size : (left.drop buffer.length).length = left.length - buffer.length :=
          List.length_drop
        have reach : left.length ≤ rooms.sum ↔
            (left.drop buffer.length).length ≤ (rest.map List.length).sum := by omega
        have moved := reader.advance_moved_min last (rest.map List.length).sum
        rw [← total] at moved
        simp only [rest_left, reach, moved, moving, Drained.after, Drained.behind,
          List.take_take, Nat.min_self, List.nil_append]
        rfl

section Streaming

variable {buffer filled : Bytes} {state : ChunkReader × σ} {events : List Event}

theorem streamPortion_of_nothing {atEnd : Bool}
    (reads : reader.read file buffer source = ⟨⟨.done ⟨0, atEnd⟩, state, events⟩, filled⟩) :
    streamPortion file buffer (reader, source) = ⟨⟨.done ⟨0, true⟩, state, events⟩, filled⟩ := by
  simp only [streamPortion, streamRead, reads]
  rfl

theorem streamPortion_of_pos {count : Nat} {atEnd : Bool} (some_given : 0 < count)
    (reads : reader.read file buffer source = ⟨⟨.done ⟨count, atEnd⟩, state, events⟩, filled⟩) :
    streamPortion file buffer (reader, source) =
      ⟨⟨.done ⟨count, false⟩, state, events⟩, filled⟩ := by
  have more : decide (count = 0) = false := decide_eq_false (Nat.ne_of_gt some_given)
  simp only [streamPortion, streamRead, reads, ← more]
  rfl

theorem portions_of_end (ended : reader.length ≤ reader.position) (rest : List Bytes) :
    portions file (buffer :: rest) (reader, source) =
      ⟨⟨.done true, (reader, source), []⟩, [[]]⟩ := by
  have read := read_of_end file reader source buffer ended
  simp only [portions, readThrough, read]
  rfl

theorem streamed_of_end (ended : reader.length ≤ reader.position) (rest : List Bytes) :
    streamed file (buffer :: rest) (reader, source) =
      ⟨⟨.done true, (reader, source), []⟩, [[]]⟩ :=
  readThrough_last rest (streamPortion_of_nothing (read_of_end file reader source buffer ended))

end Streaming

/-- As a stream the consumer gets the same, and needs one more read to learn of the end. -/
theorem streamed_of_held (held : reader.loaded = some bytes) (whole : bytes.length = reader.length)
    (before : reader.position < reader.length) {buffers : List Bytes}
    (wanted : ∀ buffer ∈ buffers, buffer ≠ []) :
    let left := bytes.drop reader.position
    let rooms := buffers.map List.length
    let moving := reader.advance (min rooms.sum left.length)
    let met := decide ((cut rooms left).length < rooms.length)
    streamed file buffers (reader, source) =
      { outcome := .done met
        state := (moving.1, source)
        events := moving.2
        pieces := cut rooms left ++ if met then [[]] else [] } := by
  induction buffers generalizing reader with
  | nil =>
      have stays : reader.advance 0 = (reader, []) := if_neg (Nat.not_le.mpr before)
      simp [streamed, readThrough, cut, stays]
  | cons buffer rest ih =>
      intro left rooms moving met
      have size : left.length = reader.length - reader.position := by
        rw [List.length_drop, whole]
      have total : rooms.sum = buffer.length + (rest.map List.length).sum := List.sum_cons
      by_cases last : left.length ≤ buffer.length
      · have reach : left.length ≤ rooms.sum := by omega
        have some_left : 0 < left.length := by omega
        have reads : streamPortion file buffer (reader, source) = _ :=
          streamPortion_of_pos some_left (read_rest held before whole last)
        have pieces : cut rooms left = [left] := if_pos last
        have moves : moving = reader.advance left.length := by
          simp only [moving, Nat.min_eq_right reach]
        rw [streamed, readThrough_more rest reads, take_overlay rfl last, moves, pieces]
        cases rest with
        | nil =>
            have unmet : met = false := by
              simp only [met, pieces]
              rfl
            simp only [unmet, readThrough, Drained.after, Drained.behind, List.append_nil]
            rfl
        | cons next others =>
            have is_met : met = true := by
              simp only [met, pieces]
              exact decide_eq_true (Nat.lt_add_left_iff_pos.mpr (Nat.succ_pos _))
            have ended : (reader.advance left.length).1.length ≤
                (reader.advance left.length).1.position := by
              rw [length_advance, position_advance]
              omega
            rw [show readThrough (streamPortion file) _ _ = _ from streamed_of_end ended others]
            simp only [is_met, Drained.after, Drained.behind, List.append_nil]
            rfl
      · have reads : streamPortion file buffer (reader, source) = _ :=
          streamPortion_of_pos (List.length_pos_iff.mpr (wanted buffer List.mem_cons_self))
            (read_full held before whole (Nat.lt_of_not_le last))
        have inside : reader.position + buffer.length < reader.length := by omega
        have pieces : cut rooms left =
            left.take buffer.length :: cut (rest.map List.length) (left.drop buffer.length) :=
          if_neg last
        have later := @ih { reader with position := reader.position + buffer.length }
          held whole inside fun other listed => wanted other (.tail _ listed)
        have rest_left : bytes.drop (reader.position + buffer.length) = left.drop buffer.length :=
          List.drop_drop.symm
        have moved := reader.advance_moved_min last (rest.map List.length).sum
        rw [← total] at moved
        have same_met : met =
            decide ((cut (rest.map List.length) (left.drop buffer.length)).length <
              (rest.map List.length).length) := by
          simp only [met, pieces]
          exact decide_eq_decide.mpr Nat.succ_lt_succ_iff
        rw [streamed, readThrough_more rest reads, show readThrough _ rest _ = _ from later, pieces,
          same_met]
        simp only [rest_left, moved, moving, Drained.after, Drained.behind, List.take_take,
          Nat.min_self, List.nil_append, List.cons_append]
        rfl

variable (file reader source) in
/-- Reading a stream to its end is reading it with one block after the other. -/
theorem drain_of_streamed (block calls : Nat) :
    let drained := streamed file (List.replicate calls (List.replicate block 0)) (reader, source)
    drained.outcome ≠ .done false →
      reader.drain file block source =
        ⟨drained.outcome.map fun _ => drained.pieces.flatten, drained.state, drained.events⟩ := by
  have wanted := Demand.blocks_ne_zero block
  induction calls generalizing reader source with
  | zero => exact fun decided => absurd rfl decided
  | succ calls ih =>
      intro drained decided
      have goes_on := @gather_of_given σ file (.blocks block) reader source .noting
      have ends := @gather_of_ended σ file (.blocks block) reader source .noting wanted
      rw [Demand.room] at goes_on ends
      rcases answer : reader.streamRead file (List.replicate block 0) source with
        ⟨⟨count | error | cause, ⟨moved, reached⟩, events⟩, buffer⟩ <;> rw [answer] at goes_on ends
      · cases count with
        | zero =>
            have read : streamPortion file (List.replicate block 0) (reader, source) =
                ⟨⟨.done ⟨0, true⟩, (moved, reached), events⟩, buffer⟩ := by
              rw [streamPortion, answer]
              rfl
            have all : drained = _ := readThrough_last _ read
            rw [drain, ends (by simp), all]
            rfl
        | succ count =>
            have read : streamPortion file (List.replicate block 0) (reader, source) =
                ⟨⟨.done ⟨count + 1, false⟩, (moved, reached), events⟩, buffer⟩ := by
              rw [streamPortion, answer]
              rfl
            have all : drained = _ := readThrough_more _ read
            rw [all] at decided ⊢
            rw [drain, goes_on wanted rfl, Demand.past, ← drain, ih _ _ decided, streamed]
            generalize readThrough (streamPortion file) _ (moved, reached) = later
            obtain ⟨⟨outcome, state, reported⟩, pieces⟩ := later
            cases outcome <;> rfl
      · have read : streamPortion file (List.replicate block 0) (reader, source) =
            ⟨⟨.failed error, (moved, reached), events⟩, buffer⟩ := by
          rw [streamPortion, answer]
          rfl
        have all : drained = _ := readThrough_failed _ read
        rw [drain, ends (by simp), all]
        rfl
      · have read : streamPortion file (List.replicate block 0) (reader, source) =
            ⟨⟨.aborted cause, (moved, reached), events⟩, buffer⟩ := by
          rw [streamPortion, answer]
          rfl
        have all : drained = _ := readThrough_aborted _ read
        rw [drain, ends (by simp), all]
        rfl

section Loading

variable {holder : ChunkReader} {reached : σ} {state : ChunkReader × σ} {events : List Event}
  (before : reader.position < reader.length) (buffer : Bytes) (rest : List Bytes)

include before

/-- The first read loads the chunk, and the reads after it find it loaded. -/
theorem portions_of_loaded
    (loads : reader.ensureLoaded file source = ⟨.done bytes, (holder, reached), events⟩) :
    portions file (buffer :: rest) (reader, source) =
      (portions file (buffer :: rest) (holder, reached)).after events :=
  readThrough_after rest (read_of_loaded before loads buffer)

theorem streamed_of_loaded
    (loads : reader.ensureLoaded file source = ⟨.done bytes, (holder, reached), events⟩) :
    streamed file (buffer :: rest) (reader, source) =
      (streamed file (buffer :: rest) (holder, reached)).after events := by
  refine readThrough_after rest ?_
  simp only [streamPortion, streamRead, read_of_loaded before loads buffer]
  rfl

theorem portions_of_refused {error : ChunkError}
    (refused : reader.ensureLoaded file source = ⟨.failed error, state, events⟩) :
    portions file (buffer :: rest) (reader, source) =
      ⟨⟨.failed (error.during .read), state, events⟩, []⟩ :=
  readThrough_failed rest (read_of_refused before refused buffer)

theorem streamed_of_refused {error : ChunkError}
    (refused : reader.ensureLoaded file source = ⟨.failed error, state, events⟩) :
    streamed file (buffer :: rest) (reader, source) =
      ⟨⟨.failed (ChunkError.toIoError (error.during .read)), state, events⟩, []⟩ := by
  have read : streamPortion file buffer (reader, source) =
      ⟨⟨.failed (ChunkError.toIoError (error.during .read)), state, events⟩, buffer⟩ := by
    simp only [streamPortion, streamRead, read_of_refused before refused buffer]
    rfl
  exact readThrough_failed rest read

end Loading

/-- What is reported when a reader lets go of its chunk. -/
def discards (reader : ChunkReader) : List Event :=
  [.tracked (-reader.length), .logged (.discarded reader.length reader.offset)]

theorem advance_min (held : reader.loaded = some bytes) (whole : bytes.length = reader.length)
    (before : reader.position < reader.length) (room : Nat) :
    let left := bytes.drop reader.position
    let moving := reader.advance (min room left.length)
    (left.length ≤ room →
      moving = ({ reader with position := reader.length, loaded := none }, reader.discards)) ∧
    (room < left.length →
      moving = ({ reader with position := reader.position + room }, [])) := by
  intro left moving
  have size : left.length = reader.length - reader.position := by
    rw [List.length_drop, whole]
  constructor
  · intro enough
    have ends : reader.position + left.length = reader.length := by omega
    simp only [moving, Nat.min_eq_right enough, advance, ends, Nat.le_refl, if_true, release, held]
    rfl
  · intro short
    simp only [moving, Nat.min_eq_left (Nat.le_of_lt short)]
    exact if_neg (by simp only; omega)

section Done

variable (before : reader.position < reader.length) {buffers : List Bytes} (asked : buffers ≠ [])
  (sound : reader.Sound) (done : (reader.ensureLoaded file source).outcome = .done bytes)

include before asked sound done

/-- A consumer of a reader that can load its chunk gets what is left of it, cut into pieces. -/
theorem portions_of_done :
    let loading := reader.ensureLoaded file source
    let left := bytes.drop reader.position
    let rooms := buffers.map List.length
    let moving := { reader with loaded := some bytes }.advance (min rooms.sum left.length)
    portions file buffers (reader, source) =
      { outcome := .done (left.length ≤ rooms.sum)
        state := (moving.1, loading.state.2)
        events := loading.events ++ moving.2
        pieces := cut rooms left } := by
  obtain ⟨buffer, rest, rfl⟩ := List.exists_cons_of_ne_nil asked
  have holds := loaded_of_ensureLoaded file source done
  have whole := (serves_of_ensureLoaded sound done).whole
  rcases loads : reader.ensureLoaded file source with ⟨outcome, ⟨holder, reached⟩, events⟩
  rw [loads] at done holds
  cases done
  cases holds
  have held := @portions_of_held σ file { reader with loaded := some bytes } reached bytes rfl
    whole before (buffer :: rest)
  rw [portions_of_loaded before buffer rest loads, held]
  rfl

/-- As a stream the consumer gets the same, and may need one more read to learn of the end. -/
theorem streamed_of_done (wanted : ∀ buffer ∈ buffers, buffer ≠ []) :
    let chunk := portions file buffers (reader, source)
    streamed file buffers (reader, source) =
      { outcome := .done (chunk.pieces.length < buffers.length)
        state := chunk.state
        events := chunk.events
        pieces := chunk.pieces ++ if chunk.pieces.length < buffers.length then [[]] else [] } := by
  intro chunk
  have same : chunk = _ := portions_of_done before asked sound done
  rw [same]
  obtain ⟨buffer, rest, rfl⟩ := List.exists_cons_of_ne_nil asked
  have holds := loaded_of_ensureLoaded file source done
  have whole := (serves_of_ensureLoaded sound done).whole
  rcases loads : reader.ensureLoaded file source with ⟨outcome, ⟨holder, reached⟩, events⟩
  rw [loads] at done holds
  cases done
  cases holds
  have held := @streamed_of_held σ file { reader with loaded := some bytes } reached bytes rfl
    whole before (buffer :: rest) wanted
  rw [streamed_of_loaded before buffer rest loads, held]
  simp only [List.length_map, decide_eq_true_eq]
  rfl

theorem portions_of_enough
    (enough : (bytes.drop reader.position).length ≤ (buffers.map List.length).sum) :
    let loading := reader.ensureLoaded file source
    portions file buffers (reader, source) =
      { outcome := .done true
        state := ({ reader with position := reader.length, loaded := none }, loading.state.2)
        events := loading.events ++ reader.discards
        pieces := cut (buffers.map List.length) (bytes.drop reader.position) } := by
  have whole := (serves_of_ensureLoaded sound done).whole
  have moves := (@advance_min { reader with loaded := some bytes } bytes rfl whole before
    (buffers.map List.length).sum).1 enough
  rw [portions_of_done before asked sound done, show ChunkReader.advance _ _ = _ from moves,
    decide_eq_true enough]
  rfl

theorem portions_of_short
    (short : (buffers.map List.length).sum < (bytes.drop reader.position).length) :
    let loading := reader.ensureLoaded file source
    let room := (buffers.map List.length).sum
    portions file buffers (reader, source) =
      { outcome := .done false
        state := ({ reader with position := reader.position + room, loaded := some bytes },
          loading.state.2)
        events := loading.events
        pieces := cut (buffers.map List.length) (bytes.drop reader.position) } := by
  have whole := (serves_of_ensureLoaded sound done).whole
  have moves := (@advance_min { reader with loaded := some bytes } bytes rfl whole before
    (buffers.map List.length).sum).2 short
  rw [portions_of_done before asked sound done, show ChunkReader.advance _ _ = _ from moves,
    decide_eq_false (Nat.not_le.mpr short)]
  simp only [List.append_nil]

omit asked in
/-- With more buffers than bytes are left the consumer of a stream learns of the end. -/
theorem streamed_of_many (wanted : ∀ buffer ∈ buffers, buffer ≠ [])
    (many : (bytes.drop reader.position).length < buffers.length) :
    let loading := reader.ensureLoaded file source
    let left := bytes.drop reader.position
    streamed file buffers (reader, source) =
      { outcome := .done true
        state := ({ reader with position := reader.length, loaded := none }, loading.state.2)
        events := loading.events ++ reader.discards
        pieces := cut (buffers.map List.length) left ++ [[]] } := by
  intro loading left
  have whole := (serves_of_ensureLoaded sound done).whole
  have asked : buffers ≠ [] := List.length_pos_iff.mp (Nat.zero_lt_of_lt many)
  have some_left : left ≠ [] := by
    rw [← List.length_pos_iff, List.length_drop, whole]
    omega
  have enough : left.length ≤ (buffers.map List.length).sum :=
    Nat.le_trans (Nat.le_of_lt many) (length_le_sum wanted)
  have met : (cut (buffers.map List.length) left).length < buffers.length :=
    Nat.lt_of_le_of_lt (length_cut_le (rooms_pos wanted) some_left) many
  rw [streamed_of_done before asked sound done wanted,
    portions_of_enough before asked sound done enough]
  simp only [left] at met
  simp only [met, decide_true, if_true]
  rfl

omit asked in
theorem streamToEnd_of_done :
    let loading := reader.ensureLoaded file source
    reader.streamToEnd file source =
      { outcome := .done (bytes.drop reader.position)
        state := ({ reader with position := reader.length, loaded := none }, loading.state.2)
        events := loading.events ++ reader.discards } := by
  intro loading
  -- One block for each byte that is left, and one more to learn of the end, are enough.
  let blocks := List.replicate ((bytes.drop reader.position).length + 1)
    (List.replicate blockLength (0 : UInt8))
  have wanted : ∀ block ∈ blocks, block ≠ [] := by
    intro block member
    rw [List.eq_of_mem_replicate member]
    exact List.ne_nil_of_length_pos (by rw [List.length_replicate]; decide)
  have read := streamed_of_many before sound done wanted (by simp [blocks])
  have enough : (bytes.drop reader.position).length ≤ (blocks.map List.length).sum := by
    refine Nat.le_trans ?_ (length_le_sum wanted)
    simp [blocks]
  have all := drain_of_streamed file reader source blockLength
    ((bytes.drop reader.position).length + 1)
  rw [show streamed file (List.replicate _ (List.replicate blockLength 0)) _ = _ from read] at all
  rw [streamToEnd, all (by simp)]
  simp only [Outcome.map_done, List.flatten_append, flatten_cut, List.take_of_length_le enough,
    List.flatten_singleton, List.append_nil]
  rfl

end Done

theorem state_of_refused {error : ChunkError}
    (failed : (reader.ensureLoaded file source).outcome = .failed error) :
    (reader.ensureLoaded file source).state.1 = reader := by
  cases held : reader.loaded with
  | some bytes =>
      rw [ensureLoaded_of_some file reader source held] at failed
      cases failed
  | none =>
      rcases ensureLoaded_of_none file reader source held with
        ⟨_, _, step⟩ | ⟨_, _, step⟩ | ⟨_, _, step⟩ <;> rw [step] at failed ⊢
      cases failed

theorem streamToEnd_of_refused {error : ChunkError} {state : ChunkReader × σ} {events : List Event}
    (before : reader.position < reader.length)
    (refused : reader.ensureLoaded file source = ⟨.failed error, state, events⟩) :
    reader.streamToEnd file source =
      ⟨.failed (ChunkError.toIoError (error.during .read)), state, events⟩ := by
  have all := drain_of_streamed file reader source blockLength 1
  rw [show streamed file (List.replicate 1 (List.replicate blockLength 0)) _ = _ from
    streamed_of_refused before _ [] refused] at all
  exact all (by simp)

theorem streamToEnd_of_end (ended : reader.length ≤ reader.position) :
    reader.streamToEnd file source = ⟨.done [], (reader, source), []⟩ := by
  have all := drain_of_streamed file reader source blockLength 1
  rw [show streamed file (List.replicate 1 (List.replicate blockLength 0)) _ = _ from
    streamed_of_end ended []] at all
  exact all (by simp)

/-- The pieces that a consumer of these buffers gets of what is left of a chunk. -/
structure Portioned (buffers : List Bytes) (left : Bytes) (pieces : List Bytes) : Prop where
  /-- Together they are what is left, as far as there is room for it. -/
  joined : pieces.flatten = left.take (buffers.map List.length).sum
  /-- Each read gives something. -/
  something : ∀ piece ∈ pieces, piece ≠ []
  /-- Each read but the last fills its buffer. -/
  full : pieces.dropLast.map List.length <+: buffers.map List.length
  /-- The last read does so too if there is not room for all. -/
  unended : (buffers.map List.length).sum < left.length →
    pieces.map List.length = buffers.map List.length
  /-- Buffers of one length are used as often as it takes. -/
  calls : ∀ step count, 0 < step → buffers.map List.length = List.replicate count step →
    left.length ≤ count * step → pieces.length = (left.length + (step - 1)) / step

theorem portioned_cut {buffers : List Bytes} (wanted : ∀ buffer ∈ buffers, buffer ≠ [])
    {left : Bytes} (some_left : left ≠ []) :
    Portioned buffers left (cut (buffers.map List.length) left) := by
  constructor
  case joined => exact flatten_cut _ left
  case something => exact fun piece => ne_nil_of_mem_cut (rooms_pos wanted) some_left
  case full => exact lengths_dropLast_cut _ left
  case unended => exact lengths_cut_of_lt
  case calls =>
    intro step count positive same enough
    rw [same]
    exact length_cut_replicate positive some_left enough

/-- A consumer that reads a chunk with one buffer after the other gets all that is left of it or
nothing, wherever the reader stands and whatever was done with it before. -/
theorem drained_whole_or_not_at_all (file : File σ) {offset length : Nat} {fresh : ChunkReader}
    (created : create offset length = .ok fresh) (source : σ) (commands : List ReaderCommand)
    {buffers : List Bytes} (asked : buffers ≠ []) (wanted : ∀ buffer ∈ buffers, buffer ≠ []) :
    let now := fresh.afterAll file commands source
    let loading := now.1.ensureLoaded file now.2
    let chunk := portions file buffers now
    let stream := streamed file buffers now
    let whole := now.1.streamToEnd file now.2
    let room := (buffers.map List.length).sum
    (now.1.position = length →
      chunk = ⟨⟨.done true, now, []⟩, [[]]⟩ ∧ stream = ⟨⟨.done true, now, []⟩, [[]]⟩ ∧
        whole = ⟨.done [], now, []⟩) ∧
    (∀ bytes, now.1.loaded = some bytes → loading = ⟨.done bytes, now, []⟩) ∧
    (∀ bytes, now.1.position < length → loading.outcome = .done bytes →
      let left := bytes.drop now.1.position
      let ended := ({ now.1 with position := length, loaded := none }, loading.state.2)
      Portioned buffers left chunk.pieces ∧
        (left.length ≤ room →
          chunk.outcome = .done true ∧ chunk.state = ended ∧
            chunk.events = loading.events ++ now.1.discards) ∧
        (room < left.length →
          chunk.outcome = .done false ∧
            chunk.state = ({ now.1 with position := now.1.position + room, loaded := some bytes },
              loading.state.2) ∧
            chunk.events = loading.events) ∧
        (left.length ≤ buffers.length → left.length ≤ room) ∧
        stream = ⟨⟨.done (chunk.pieces.length < buffers.length), chunk.state, chunk.events⟩,
          chunk.pieces ++ if chunk.pieces.length < buffers.length then [[]] else []⟩ ∧
        whole = ⟨.done left, ended, loading.events ++ now.1.discards⟩) ∧
    (∀ error, now.1.position < length → loading.outcome = .failed error →
      loading.state.1 = now.1 ∧
        chunk = ⟨⟨.failed (error.during .read), loading.state, loading.events⟩, []⟩ ∧
        stream = ⟨⟨.failed (ChunkError.toIoError (error.during .read)), loading.state,
          loading.events⟩, []⟩ ∧
        whole = ⟨.failed (ChunkError.toIoError (error.during .read)), loading.state,
          loading.events⟩) := by
  intro now loading chunk stream whole room
  obtain ⟨sound, same_length⟩ : now.1.Sound ∧ now.1.length = length :=
    sound_afterAll file created source commands
  obtain ⟨buffer, rest, split⟩ := List.exists_cons_of_ne_nil asked
  subst same_length
  refine ⟨fun ended => ?_, fun bytes held => ?_, fun bytes before done => ?_,
    fun error before failed => ?_⟩
  · have stands : now.1.length ≤ now.1.position := Nat.le_of_eq ended.symm
    refine ⟨?_, ?_, streamToEnd_of_end stands⟩
    · simp only [chunk, split]
      exact portions_of_end stands rest
    · simp only [stream, split]
      exact streamed_of_end stands rest
  · exact ensureLoaded_of_some file now.1 now.2 held
  · have size := (serves_of_ensureLoaded sound done).whole
    have some_left : bytes.drop now.1.position ≠ [] := by
      rw [← List.length_pos_iff, List.length_drop, size]
      omega
    have pieces : chunk.pieces = _ :=
      congrArg Drained.pieces (portions_of_done before asked sound done)
    intro left ended
    refine ⟨?_, fun enough => ?_, fun short => ?_, fun many => ?_, ?_, ?_⟩
    · rw [pieces]
      exact portioned_cut wanted some_left
    · have all : chunk = _ := portions_of_enough before asked sound done enough
      rw [all]
      exact ⟨rfl, rfl, rfl⟩
    · have all : chunk = _ := portions_of_short before asked sound done short
      rw [all]
      exact ⟨rfl, rfl, rfl⟩
    · exact Nat.le_trans many (length_le_sum wanted)
    · exact streamed_of_done before asked sound done wanted
    · exact streamToEnd_of_done before sound done
  · have kept : loading.state.1 = now.1 := state_of_refused failed
    have refused : now.1.ensureLoaded file now.2 =
        ⟨.failed error, loading.state, loading.events⟩ := by
      rw [← failed]
    refine ⟨kept, ?_, ?_, streamToEnd_of_refused before refused⟩
    · simp only [chunk, split]
      exact portions_of_refused before buffer rest refused
    · simp only [stream, split]
      exact streamed_of_refused before buffer rest refused

/-- A reader that stands in the middle of its chunk and has let go of it is drained from a file that
hesitates, and one whose chunk reaches past the end of the file gives nothing. -/
theorem drained_whole_or_not_at_all_hesitant :
    let file := (Contents.ofArray #[10, 20, 30, 40, 50, 60]).hesitant
    let fresh : ChunkReader := ⟨1, 5, 0, none⟩
    let now := fresh.afterAll file [.read 2, .close] false
    let beyond : ChunkReader := ⟨4, 5, 0, none⟩
    let buffers : List Bytes := [[0, 0], [0, 0], [0, 0]]
    create 1 5 = .ok fresh ∧ create 4 5 = .ok beyond ∧ now = (⟨1, 5, 2, none⟩, false) ∧
      (portions file buffers now).outcome = .done true ∧
      (portions file buffers now).pieces = [[40, 50], [60]] ∧
      (streamed file buffers now).outcome = .done true ∧
      (streamed file buffers now).pieces = [[40, 50], [60], []] ∧
      (now.1.streamToEnd file now.2).outcome = .done [40, 50, 60] ∧
      (portions file buffers (beyond, false)).outcome =
        .failed ((ChunkError.shortRead ⟨4, 5, 2⟩).during .read) ∧
      (portions file buffers (beyond, false)).pieces = [] ∧
      (portions file buffers (beyond, false)).state.1 = beyond := by
  intro file fresh now beyond buffers
  have created : create 1 5 = .ok fresh := rfl
  have created_beyond : create 4 5 = .ok beyond := rfl
  have asked : buffers ≠ [] := by decide
  have wanted : ∀ buffer ∈ buffers, buffer ≠ [] := by decide
  have stands : now = (⟨1, 5, 2, none⟩, false) := by
    unfold now fresh file
    cbv
  have loads : (now.1.ensureLoaded file now.2).outcome = .done [20, 30, 40, 50, 60] := by
    rw [stands]
    unfold file
    cbv
  have refused : (beyond.ensureLoaded file false).outcome =
      .failed (ChunkError.shortRead ⟨4, 5, 2⟩) := by
    unfold file beyond
    cbv
  have pieces : (portions file buffers now).pieces = [[40, 50], [60]] := by
    rw [stands]
    unfold file buffers
    cbv
  obtain ⟨_, _, served, _⟩ :=
    drained_whole_or_not_at_all file created false [.read 2, .close] asked wanted
  obtain ⟨_, ended, _, _, streams, whole⟩ :=
    served [20, 30, 40, 50, 60] (by rw [show fresh.afterAll _ _ _ = _ from stands]; decide) loads
  obtain ⟨_, _, _, failing⟩ := drained_whole_or_not_at_all file created_beyond false [] asked wanted
  obtain ⟨kept, fails, _⟩ := failing (.shortRead ⟨4, 5, 2⟩) (by decide) refused
  have stream : streamed file buffers now = _ := streams
  refine ⟨created, created_beyond, stands, ?_, pieces, ?_, ?_, ?_, ?_, ?_, ?_⟩
  · refine (ended ?_).1
    rw [show fresh.afterAll _ _ _ = _ from stands]
    decide
  · rw [stream, show (portions file buffers _).pieces = _ from pieces]
    decide
  · rw [stream, show (portions file buffers _).pieces = _ from pieces]
    decide
  · rw [show now.1.streamToEnd file now.2 = _ from whole,
      show fresh.afterAll _ _ _ = _ from stands]
    decide
  · exact congrArg (·.outcome) fails
  · exact congrArg Drained.pieces fails
  · exact (congrArg (·.state.1) fails).trans kept

end ChunkReader
end BulkTransfer
