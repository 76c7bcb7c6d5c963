import BulkTransfer.Proofs.ChunkReader.Turns
import BulkTransfer.Proofs.ChunkReader.Tower

/-!
# What is charged to the byte counter

A file may hold bytes of its own, if it is a range of another file, and may charge them to the byte
counter that its readers use as well. If each of its reads charges the counter by what it comes to
hold, then so does every operation of a reader on it, and the reader under a lock is such a file
again. Operations that fail or are aborted make no exception.
-/

namespace BulkTransfer

variable {σ τ : Type}

/-- Sum of the amounts that events add to the byte counter. -/
def Event.charge (events : List Event) : Int :=
  (deltas events).sum

@[simp]
theorem Event.charge_nil : charge [] = 0 := rfl

@[simp]
theorem Event.charge_append (earlier later : List Event) :
    charge (earlier ++ later) = charge earlier + charge later := by
  rw [charge, deltas_append, List.sum_append]
  rfl

/-- The events on the way from one state to another charge the counter by what comes to be held. -/
def Charges (held : τ → Nat) (before : τ) (events : List Event) (after : τ) : Prop :=
  Event.charge events = (held after : Int) - held before

namespace Charges

variable {held : τ → Nat} {first second third : τ} {earlier later : List Event}

theorem refl (held : τ → Nat) (state : τ) : Charges held state [] state :=
  (Int.sub_self _).symm

theorem append (before : Charges held first earlier second)
    (after : Charges held second later third) : Charges held first (earlier ++ later) third := by
  rw [Charges, Event.charge_append, before, after]
  omega

end Charges

/-- Every read of the file charges the counter by what the file comes to hold. -/
def File.Accounts (file : File σ) (held : σ → Nat) : Prop :=
  ∀ offset buffer state,
    Charges held state (file.readAt offset buffer state).events
      (file.readAt offset buffer state).state

/-- A file that leaves the counter alone holds nothing that is charged. -/
theorem File.Quiet.accounts {file : File σ} (quiet : file.Quiet) : file.Accounts fun _ => 0 := by
  intro offset buffer state
  rw [Charges, Event.charge, quiet]
  rfl

namespace File.Accounts

variable {file : File σ} {held : σ → Nat} (accounts : file.Accounts held)

include accounts

theorem fill (offset : Nat) (buffer : Bytes) (state : σ) :
    Charges held state (file.fill offset buffer state).events
      (file.fill offset buffer state).state := by
  fun_induction file.fill offset buffer state with
  | case1 => exact .refl held _
  | case2 | case4 | case5 | case6 | case7 => exact accounts _ _ _
  | case3 _ _ _ _ _ _ _ _ ih => exact (accounts _ _ _).append ih
  | case8 _ _ _ _ _ _ _ _ _ _ ih => exact (accounts _ _ _).append ih

theorem serve (request : FileRequest) (state : σ) :
    Charges held state (file.serve request state).events (file.serve request state).state := by
  rw [File.serve]
  split
  · exact accounts.fill _ _ _
  · exact accounts _ _ _

/-- Loading keeps nothing but what it returns, so it charges what the file comes to hold. -/
theorem load (offset length : Nat) (source : σ) :
    Charges held source (file.load offset length source).events
      (file.load offset length source).state := by
  have filling := accounts.fill offset (List.replicate length 0) source
  rcases file.load_cases offset length source with
    ⟨_, load⟩ | ⟨_, ⟨_, _, load⟩ | ⟨_, _, load⟩ | ⟨_, load⟩ | ⟨_, _, _, load⟩⟩ <;> rw [load]
  · exact .refl held source
  · exact filling
  · exact filling
  · exact filling
  · exact filling.append (.refl held _)

end File.Accounts

namespace ChunkReader

/-- Number of bytes that a reader and the file below it hold. -/
def heldWith (held : σ → Nat) (state : ChunkReader × σ) : Nat :=
  state.1.held + held state.2

@[simp]
theorem heldWith_mk (held : σ → Nat) (reader : ChunkReader) (source : σ) :
    heldWith held (reader, source) = reader.held + held source := rfl

theorem charge_release (reader : ChunkReader) :
    Event.charge reader.release.2 = -(reader.held : Int) :=
  reader.sum_deltas_release

theorem charges_release (held : σ → Nat) (reader : ChunkReader) (source : σ) :
    Charges (heldWith held) (reader, source) reader.release.2 (reader.release.1, source) := by
  rw [Charges, charge_release, heldWith_mk, heldWith_mk, held_release]
  omega

theorem charges_hold (held : σ → Nat) {reader : ChunkReader} (vacant : reader.loaded = none)
    (bytes : Bytes) (source : σ) :
    Charges (heldWith held) (reader, source) (reader.hold bytes).2
      ((reader.hold bytes).1, source) := by
  simp [Charges, heldWith, hold, ChunkReader.held, isLoaded, vacant, Event.charge, Event.deltas]

theorem charges_advance (held : σ → Nat) (reader : ChunkReader) (count : Nat) (source : σ) :
    Charges (heldWith held) (reader, source) (reader.advance count).2
      ((reader.advance count).1, source) := by
  have moved : Charges (heldWith held) (reader, source) []
      ({ reader with position := reader.position + count }, source) := .refl _ _
  rcases advance_cases reader count with ⟨_, step⟩ | ⟨_, step⟩ <;> rw [step]
  · exact moved.append (charges_release held _ source)
  · exact moved

variable {file : File σ} {held : σ → Nat} (accounts : file.Accounts held) (reader : ChunkReader)
  (source : σ)

/-- What the file below comes to hold is all that is charged while the reader stays as it is. -/
theorem charges_below {events : List Event} {reached : σ}
    (below : Charges held source events reached) :
    Charges (heldWith held) (reader, source) events (reader, reached) := by
  rw [Charges, below, heldWith_mk, heldWith_mk]
  omega

include accounts

theorem charges_ensureLoaded :
    Charges (heldWith held) (reader, source) (reader.ensureLoaded file source).events
      (reader.ensureLoaded file source).state := by
  cases loaded : reader.loaded with
  | some bytes =>
      rw [ensureLoaded_of_some file reader source loaded]
      exact .refl _ _
  | none =>
      have loading := charges_below reader source (accounts.load reader.offset reader.length source)
      rcases ensureLoaded_of_none file reader source loaded with
        ⟨bytes, _, step⟩ | ⟨_, _, step⟩ | ⟨_, _, step⟩ <;> rw [step]
      · exact loading.append (charges_hold held loaded bytes _)
      · exact loading
      · exact loading

theorem charges_read (buffer : Bytes) :
    Charges (heldWith held) (reader, source) (reader.read file buffer source).events
      (reader.read file buffer source).state := by
  rcases Nat.lt_or_ge reader.position reader.length with before | ended
  · have loading := charges_ensureLoaded accounts reader source
    rcases read_of_before file reader source buffer before with
      ⟨bytes, _, step⟩ | ⟨_, _, step⟩ | ⟨_, _, step⟩ <;> rw [step]
    · exact loading.append (charges_advance held _ _ _)
    · exact loading
    · exact loading
  · rw [read_of_end file reader source buffer ended]
    exact .refl _ _

theorem charges_gather (demand : Demand) :
    Charges (heldWith held) (reader, source) (reader.gather file demand source).events
      (reader.gather file demand source).state := by
  fun_induction ChunkReader.gather file demand reader source with
  | case1 => exact .refl _ _
  | case2 demand reader source _ reading _ _ ih =>
      have first := charges_read accounts reader source (List.replicate demand.room 0)
      exact first.append ih
  | case3 demand reader source =>
      exact charges_read accounts reader source (List.replicate demand.room 0)

/-- Every command charges the counter by what the reader and its file come to hold. -/
theorem charges_perform (sound : reader.Sound) (command : ReaderCommand) :
    Charges (heldWith held) (reader, source) (reader.perform file command source).events
      (reader.perform file command source).state := by
  cases moves : command.onlyMoves with
  | true =>
      obtain ⟨position, state, events⟩ :=
        perform_of_onlyMoves file source sound.position_le moves
      rw [state, events]
      exact .refl (heldWith held) (reader, source)
  | false =>
      cases command with
      | prefetch => exact charges_ensureLoaded accounts reader source
      | read room => exact charges_read accounts reader source _
      | streamRead room => exact charges_read accounts reader source _
      | streamExact wanted => exact charges_gather accounts reader source (.exactly wanted)
      | streamToEnd => exact charges_gather accounts reader source (.blocks blockLength)
      | file request => exact charges_below reader source (accounts.serve request source)
      | close =>
          rw [perform_close]
          exact charges_release held reader source
      | _ => cases moves

end ChunkReader

/-- A range of a file that accounts for what it holds accounts for what both hold. -/
theorem File.Accounts.nested {file : File σ} {held : σ → Nat} (accounts : file.Accounts held) :
    file.nested.Accounts (ChunkReader.heldWith held) := by
  rintro offset buffer ⟨reader, source⟩
  rw [File.readAt_nested]
  exact ChunkReader.charges_read accounts
    { reader with position := min (min offset signedMax) reader.length } source buffer

namespace Tower

/-- Number of bytes that the storeys of a tower hold. -/
def held : (storeys : List Storey) → State σ storeys → Nat
  | [], _ => 0
  | _ :: below, state => ChunkReader.heldWith (held below) state

/-- On a file that leaves the counter alone, a tower accounts for what its storeys hold. -/
theorem accounts {base : File σ} (quiet : base.Quiet) (storeys : List Storey) :
    (file base storeys).Accounts (held storeys) := by
  induction storeys with
  | nil => exact quiet.accounts
  | cons storey below ih => exact ih.nested

/-- A tower without empty storeys can be started, and holds nothing then. -/
theorem exists_start (source : σ) {storeys : List Storey}
    (nonempty : ∀ storey ∈ storeys, 0 < storey.length) :
    ∃ tower, start source storeys = .ok tower ∧ held storeys tower = 0 := by
  induction storeys with
  | nil => exact ⟨source, rfl, rfl⟩
  | cons storey below ih =>
      rw [List.forall_mem_cons] at nonempty
      obtain ⟨state, begun, nothing⟩ := ih nonempty.2
      have created : ChunkReader.create storey.offset storey.length =
          .ok ⟨storey.offset, storey.length, 0, none⟩ :=
        if_neg (Nat.ne_of_gt nonempty.1)
      refine ⟨(⟨storey.offset, storey.length, 0, none⟩, state), ?_, ?_⟩
      · rw [start, begun, created]
      · exact congrArg (0 + ·) nothing

end Tower
end BulkTransfer
