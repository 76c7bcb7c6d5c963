import BulkTransfer.Proofs.ChunkReader.Nesting
import BulkTransfer.Shared

/-!
# Towers of ranges

A tower is a range of a range, and so on down to a file. However high it is, and whatever state its
storeys are left in by earlier reads, it is read like the bytes of one range of that file, which
begins at the sum of all offsets.
-/

namespace BulkTransfer

/-- A range of whatever is below. -/
structure Storey where
  /-- Offset of the range. -/
  offset : Nat
  /-- Length of the range. -/
  length : Nat
  deriving DecidableEq

namespace Tower

variable {σ : Type}

/-- Type of the state of a tower; its highest storey comes first. -/
def State (σ : Type) : List Storey → Type
  | [] => σ
  | _ :: below => ChunkReader × State σ below

/-- Each storey of a tower is a locked chunk reader on the storeys below it. -/
def file (base : File σ) : (storeys : List Storey) → File (State σ storeys)
  | [] => base
  | _ :: below => (file base below).nested

/-- The same tower, whose storeys share the counter of the readers above it. -/
def fileBeside (base : File σ) : (storeys : List Storey) → File (Shared (State σ storeys))
  | [] => base.beside
  | _ :: below => (fileBeside base below).nestedBeside

/-- State in which a tower starts; no storey must be empty. -/
def start (source : σ) : (storeys : List Storey) → Except Abort (State σ storeys)
  | [] => .ok source
  | storey :: below =>
      match start source below, ChunkReader.create storey.offset storey.length with
      | .ok state, .ok reader => .ok (reader, state)
      | .error cause, _ => .error cause
      | _, .error cause => .error cause

/-- Offset of the highest storey in the file at the bottom. -/
def offset (storeys : List Storey) : Nat :=
  (storeys.map Storey.offset).sum

/-- Number of bytes of the highest storey, or of the file if there is none. -/
def extent (size : Nat) : List Storey → Nat
  | [] => size
  | storey :: _ => storey.length

/-- Each storey is a range of what is below it that is not empty and can be held. -/
inductive Stacked (size : Nat) : List Storey → Prop where
  /-- The file stands for itself. -/
  | ground : Stacked size []
  /-- A storey is put on top. -/
  | raise {storey : Storey} {below : List Storey} (nonempty : 0 < storey.length)
      (fits : storey.length ≤ signedMax)
      (stored : storey.offset + storey.length ≤ extent size below)
      (lower : Stacked size below) : Stacked size (storey :: below)

variable {base : File σ} {contents : Contents} {storey : Storey} {below : List Storey}

theorem Stacked.fits {size : Nat} (stacked : Stacked size (storey :: below)) :
    storey.length ≤ signedMax := by
  obtain _ | ⟨_, fits, _, _⟩ := stacked
  exact fits

theorem Stacked.stored {size : Nat} {storeys : List Storey} (stacked : Stacked size storeys) :
    offset storeys + extent size storeys ≤ size := by
  induction stacked with
  | ground => exact Nat.le_of_eq (Nat.zero_add size)
  | raise _ _ stored _ ih =>
      simp only [offset, extent, List.map_cons, List.sum_cons] at ih stored ⊢
      omega

/-- The range of the file at the bottom that the highest storey is. -/
def range (contents : Contents) (storeys : List Storey) : Contents :=
  contents.range (offset storeys) (extent contents.size storeys)

theorem range_cons (contents : Contents) (storey : Storey) (below : List Storey) :
    (range contents below).range storey.offset storey.length =
      range contents (storey :: below) := by
  rw [range, Contents.range_range, range, Nat.add_comm]
  rfl

/-- There are states, one of them the first, in which a tower is read like the bytes of its range
and which reading does not leave. -/
theorem exists_mirrors (shows : base.Shows contents) (addressable : contents.size ≤ lastOffset)
    (stacked : Stacked contents.size (storey :: below)) :
    ∃ sound, (file base (storey :: below)).Mirrors (range contents (storey :: below)) sound ∧
      ∀ source, ∃ state, start source (storey :: below) = .ok state ∧ sound state := by
  -- The lowest storey stands on a file that only shows its contents, in pieces of any size; every
  -- other one stands on a tower that is read like bytes in memory already.
  induction below generalizing storey with
  | nil =>
      obtain _ | ⟨nonempty, fits, stored, _⟩ := stacked
      let window : Window :=
        ⟨contents, storey.offset, storey.length, nonempty, fits, stored, addressable⟩
      have mirrors : base.nested.Mirrors window.range _ := shows.nested
      refine ⟨_, mirrors, fun source => ⟨(window.reader, source), ?_, 0, ?_⟩⟩
      · rw [start, start, window.create_reader]
      · exact ChunkReader.follows_reader window
  | cons next below ih =>
      obtain _ | ⟨nonempty, fits, stored, lower⟩ := stacked
      obtain ⟨sound, mirrors, starts⟩ := ih lower
      have reachable : next.length ≤ lastOffset := Nat.le_trans lower.fits (by decide)
      let window : Window := ⟨range contents (next :: below), storey.offset, storey.length,
        nonempty, fits, stored, reachable⟩
      have higher : (file base (next :: below)).nested.Mirrors window.range _ :=
        File.Mirrors.nested mirrors
      rw [← range_cons]
      refine ⟨_, higher, fun source => ?_⟩
      obtain ⟨state, begun, sound_state⟩ := starts source
      refine ⟨(window.reader, state), ?_, ⟨0, ChunkReader.follows_reader window⟩, sound_state⟩
      rw [start, begun, window.create_reader]

theorem slice_range (stacked : Stacked contents.size (storey :: below)) {offset length : Nat}
    (stored : offset + length ≤ storey.length) (position room : Nat) :
    (range contents (storey :: below)).slice (offset + position) (min room (length - position)) =
      contents.slice (Tower.offset (storey :: below) + offset + position)
        (min room (length - position)) := by
  have inside : min room (length - position) ≤ storey.length - (offset + position) := by omega
  rw [range, contents.slice_range stacked.stored, Nat.add_assoc]
  exact congrArg (contents.slice _) (Nat.min_eq_left inside)

/-- A chunk reader on a tower answers as one on the file at the bottom that has the tower's offset
added to its own. -/
theorem transcript_eq (shows : base.Shows contents) (addressable : contents.size ≤ lastOffset)
    (stacked : Stacked contents.size (storey :: below)) {sound : State σ (storey :: below) → Prop}
    (mirrors : (file base (storey :: below)).Mirrors (range contents (storey :: below)) sound)
    {state : State σ (storey :: below)} (sound_state : sound state) (source : σ)
    {offset length : Nat} (nonempty : 0 < length) (stored : offset + length ≤ storey.length)
    {commands : List ReaderCommand}
    (own : ∀ command ∈ commands, command.asksFile = false ∧ command ≠ .range) :
    ChunkReader.transcript (file base (storey :: below)) commands ⟨offset, length, 0, none⟩ state =
      ChunkReader.transcript base commands
        ⟨Tower.offset (storey :: below) + offset, length, 0, none⟩ source := by
  have fits := stacked.fits
  have inside : Tower.offset (storey :: below) + storey.length ≤ contents.size := stacked.stored
  let upper : Window := ⟨range contents (storey :: below), offset, length, nonempty,
    Nat.le_trans (Nat.le_of_add_left_le stored) fits, stored, Nat.le_trans fits (by decide)⟩
  let lower : Window := ⟨contents, Tower.offset (storey :: below) + offset, length, nonempty,
    upper.fits, by omega, addressable⟩
  have asks_none : ∀ command ∈ commands, command.asksFile = false :=
    fun command member => (own command member).1
  have placeless : ∀ command ∈ commands, command ≠ .range :=
    fun command member => (own command member).2
  have same_length : upper.length = lower.length := rfl
  have same_bytes : ∀ position room, upper.bytes position room = lower.bytes position room :=
    slice_range stacked stored
  calc ChunkReader.transcript (file base (storey :: below)) commands upper.reader state
    _ = ChunkReader.transcript upper.contents.inMemory commands upper.reader () :=
        upper.reader.transcript_alike mirrors commands sound_state
    _ = upper.transcript commands 0 :=
        ChunkReader.transcript_of_follows upper.contents.shows_inMemory ()
          (ChunkReader.follows_reader upper) asks_none
    _ = lower.transcript commands 0 :=
        Window.transcript_congr same_length same_bytes 0 placeless
    _ = ChunkReader.transcript base commands lower.reader source :=
        (ChunkReader.transcript_of_follows shows source
          (ChunkReader.follows_reader lower) asks_none).symm

/-- A tower of ranges on a file that shows contents, each range within what is below it, can be
started. Whatever reads are made of its top one after the other, each ends and leaves the buffer as
if it was made of the bytes of one range of the contents in memory; and at any time a chunk reader
on a range of the tower answers all that it is asked about the range as a reader of the same range
of the file does. -/
theorem reads_flat (shows : base.Shows contents) (addressable : contents.size ≤ lastOffset)
    (stacked : Stacked contents.size (storey :: below)) (source : σ) :
    ∃ tower, start source (storey :: below) = .ok tower ∧ ∀ requests,
      ((file base (storey :: below)).serveAll requests tower).map Transfer.result =
        ((contents.range (offset (storey :: below)) storey.length).inMemory.serveAll
          requests ()).map Transfer.result ∧
      ∀ inner length, 0 < length → inner + length ≤ storey.length →
        ∃ upper lower, ChunkReader.create inner length = .ok upper ∧
          ChunkReader.create (offset (storey :: below) + inner) length = .ok lower ∧
          ∀ commands later,
            (∀ command ∈ commands, command.asksFile = false ∧ command ≠ .range) →
            ChunkReader.transcript (file base (storey :: below)) commands upper
                ((file base (storey :: below)).afterAll requests tower) =
              ChunkReader.transcript base commands lower later := by
  obtain ⟨sound, mirrors, starts⟩ := exists_mirrors shows addressable stacked
  obtain ⟨tower, begun, sound_start⟩ := starts source
  refine ⟨tower, begun, fun requests => ⟨mirrors.serveAll requests tower () sound_start, ?_⟩⟩
  intro inner length nonempty stored
  refine ⟨⟨inner, length, 0, none⟩, _, if_neg (Nat.ne_of_gt nonempty),
    if_neg (Nat.ne_of_gt nonempty), fun commands later own => ?_⟩
  have sound_later := mirrors.afterAll requests tower () sound_start
  exact transcript_eq shows addressable stacked mirrors sound_later later nonempty stored own

/-- Six bytes. -/
def sixBytes : Contents :=
  .ofArray #[10, 20, 30, 40, 50, 60]

/-- Two storeys, of which the lower one has the four bytes in the middle and the upper one the two
bytes in the middle of those. -/
def twoStoreys : List Storey :=
  [⟨1, 2⟩, ⟨1, 4⟩]

theorem stacked_twoStoreys : Stacked sixBytes.size twoStoreys :=
  .raise (by decide) (by decide) (by decide) (.raise (by decide) (by decide) (by decide) .ground)

/-- Reads of two storeys from the start, up to the end and far past it, and then a chunk reader of
the last byte, above a file that is interrupted again and again. -/
theorem reads_flat_twoStoreys :
    sixBytes.hesitant.Shows sixBytes ∧ sixBytes.size ≤ lastOffset ∧
      Stacked sixBytes.size twoStoreys ∧
      ∃ tower, start false twoStoreys = .ok tower ∧
        ((file sixBytes.hesitant twoStoreys).serveAll
            [⟨false, 0, [7, 7, 7]⟩, ⟨true, 1, [7, 7]⟩, ⟨false, 99, [7]⟩] tower).map
            Transfer.result =
          [(.done 2, [30, 40, 7]), (.done 1, [40, 7]), (.done 0, [7])] ∧
        ChunkReader.transcript (file sixBytes.hesitant twoStoreys) [.read 5] ⟨1, 1, 0, none⟩
            tower =
          [(.read 5, .done (.portion [40] true))] := by
  have shows := sixBytes.shows_hesitant
  have addressable : sixBytes.size ≤ lastOffset := by decide
  obtain ⟨tower, begun, flat⟩ := reads_flat shows addressable stacked_twoStoreys false
  refine ⟨shows, addressable, stacked_twoStoreys, tower, begun, ?_, ?_⟩
  · exact (flat _).1.trans (by cbv)
  · obtain ⟨_, _, created, found, same⟩ := (flat []).2 1 1 (by decide) (by decide)
    cases created
    cases found
    have base := same [.read 5] false (by decide)
    exact base.trans (by cbv)

end Tower
end BulkTransfer
