import BulkTransfer.File.Stored
import BulkTransfer.Proofs.ChunkReader.Following
import BulkTransfer.Proofs.ChunkReader.Likeness

/-!
# Ranges of files as files

A chunk reader under a lock is a file again. Each read moves the reader first, so it does not
matter where earlier reads have left it, what it holds, or what state the file below is in: the
range is read like a copy of its bytes in memory.
-/

namespace BulkTransfer

variable {σ : Type}

namespace Contents

/-- A range of contents, as contents of their own. -/
def range (contents : Contents) (offset length : Nat) : Contents where
  size := length
  byte position := contents.byte (offset + position)

theorem range_range (contents : Contents) (offset length inner count : Nat) :
    (contents.range offset length).range inner count = contents.range (offset + inner) count := by
  simp only [range, Nat.add_assoc]

theorem slice_range (contents : Contents) {offset length : Nat}
    (stored : offset + length ≤ contents.size) (position count : Nat) :
    (contents.range offset length).slice position count =
      contents.slice (offset + position) (min count (length - position)) := by
  have piece : min (min count (length - position)) (contents.size - (offset + position)) =
      min count (length - position) := by
    omega
  rw [slice, slice, piece, ← List.map_add_range', List.map_map]
  rfl

theorem readAt_inMemory (contents : Contents) (offset : Nat) (buffer : Bytes) (state : Unit) :
    contents.inMemory.readAt offset buffer state =
      .delivering (contents.slice offset buffer.length) buffer state := rfl

theorem shows_inMemory (contents : Contents) : contents.inMemory.Shows contents := by
  intro offset buffer state
  have size := contents.length_slice offset buffer.length
  refine .inr ⟨_, rfl, Nat.le_of_eq size, ?_, fun none_read => ?_⟩
  · rw [slice_length_slice]
    exact take_overlay rfl (contents.length_slice_le offset buffer.length)
  · rw [size] at none_read
    rcases Nat.min_eq_zero_iff.mp none_read with empty | past
    · exact .inl (List.length_eq_zero_iff.mp empty)
    · exact .inr (Nat.le_of_sub_eq_zero past)

end Contents

/-- The contents of a window. -/
def Window.range (window : Window) : Contents :=
  window.contents.range window.offset window.length

theorem Window.slice_range (window : Window) (offset room : Nat) :
    window.range.slice offset room =
      window.bytes (min (min offset signedMax) window.length) room := by
  have fits := window.fits
  have stops : min (min offset signedMax) window.length = min offset window.length := by omega
  rw [stops]
  rcases Nat.le_total offset window.length with inside | past
  · rw [Nat.min_eq_left inside]
    exact window.contents.slice_range window.stored offset room
  · have none_left : window.count window.length room = 0 := by
      rw [count, Nat.sub_self, Nat.min_zero]
    have no_bytes := window.length_bytes room (Nat.le_refl window.length)
    rw [none_left] at no_bytes
    rw [Nat.min_eq_right past, List.length_eq_zero_iff.mp no_bytes]
    exact window.range.slice_of_size_le room past

/-- As long as its state is sound, a file is read like contents in memory. -/
def File.Mirrors (file : File σ) (contents : Contents) (sound : σ → Prop) : Prop :=
  file.Alike (fun state (_ : Unit) => sound state) contents.inMemory

/-- A reader that stands somewhere in a window. -/
def ChunkReader.Within (reader : ChunkReader) (window : Window) : Prop :=
  ∃ position, reader.Follows window position

/-- A read of a range moves its reader and reads from there. -/
theorem File.readAt_nested (file : File σ) (offset : Nat) (buffer : Bytes) (reader : ChunkReader)
    (source : σ) (tracker : Tracker σ := .noting) :
    (file.nested tracker).readAt offset buffer (reader, source) =
      ChunkReader.streamRead file buffer
        { reader with position := min (min offset signedMax) reader.length } source tracker := by
  simp only [nested, Cursor.locked, seekThenRead, ChunkReader.cursor,
    ChunkReader.streamSeek_start]
  rfl

/-- A range of a file that shows contents is read like its bytes in memory, whatever the state of
the file below. -/
theorem File.Shows.nested {window : Window} {file : File σ} (shows : file.Shows window.contents) :
    file.nested.Mirrors window.range fun state => state.1.Within window := by
  rintro offset buffer ⟨reader, source⟩ _ ⟨position, follows⟩
  replace follows : reader.Follows window position := follows
  have lands : min (min offset signedMax) reader.length =
      min (min offset signedMax) window.length := by
    rw [follows.length_eq]
  have moved := follows.move (Nat.min_le_right (min offset signedMax) window.length)
  have outcome := ChunkReader.streamRead_done shows source moved buffer
  obtain ⟨_, delivered, moves⟩ := ChunkReader.read_window shows source moved buffer
  have delivers := window.length_bytes buffer.length moved.inside
  rw [File.readAt_nested, lands, Contents.readAt_inMemory, window.slice_range]
  refine ⟨⟨?_, _, moves⟩, delivered⟩
  rw [outcome, ← delivers]
  rfl

/-- A range of a file that is read like contents in memory is read like the bytes of the range. -/
theorem File.Mirrors.nested {window : Window} {file : File σ} {sound : σ → Prop}
    (mirrors : file.Mirrors window.contents sound) :
    file.nested.Mirrors window.range fun state => state.1.Within window ∧ sound state.2 := by
  rintro offset buffer ⟨reader, source⟩ other ⟨within, start⟩
  have reads := window.contents.shows_inMemory.nested offset buffer (reader, other) () within
  rw [File.readAt_nested] at reads ⊢
  generalize { reader with position := min (min offset signedMax) reader.length } = moved
    at reads ⊢
  have same : (moved.streamRead file buffer source).Alike _
      (moved.streamRead window.contents.inMemory buffer other) :=
    moved.streamRead_alike mirrors start buffer
  refine ⟨⟨same.outcome_eq.trans reads.outcome_eq, ?_, same.states.2⟩,
    same.buffer_eq.trans reads.buffer_eq⟩
  rw [same.states.1]
  exact reads.states

end BulkTransfer
