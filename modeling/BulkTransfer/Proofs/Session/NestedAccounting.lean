import BulkTransfer.Proofs.Session.Accounting

/-!
# The byte counter above nested ranges

The readers of a session may share their counter with the ranges that their file is made of. One
command then loads and releases on several storeys, and may fail halfway; still the counter has
moved by just what all storeys and all readers together hold.
-/

namespace BulkTransfer

variable {σ : Type}

/-- A tower whose storeys share the counter goes as one whose amounts are only noted, as long as the
counter takes them. -/
theorem Tower.counts {base : File σ} (quiet : base.Quiet) (storeys : List Storey) :
    (Tower.fileBeside base storeys).Counts (Tower.file base storeys) := by
  induction storeys with
  | nil => exact quiet.counts
  | cons storey below ih => exact ih.nested

namespace Session

/-- A tower of ranges of any kind, in or out of range, can be started if none of them is empty. On a
file that leaves the counter alone, whatever it does besides, any readers of the tower and any reads
of it directly, as long as the counter bears them, keep the counter at its initial value and what
readers and storeys hold, after each command; and once the readers are all dropped it is at its
initial value and what the storeys hold still. -/
theorem counter_eq_held_storeys (initial : Counter) {base : File σ} (quiet : base.Quiet)
    (source : σ) {storeys : List Storey} (nonempty : ∀ storey ∈ storeys, 0 < storey.length) :
    ∃ tower, Tower.start source storeys = .ok tower ∧
      let file := Tower.fileBeside base storeys
      let start := fresh (Shared.mk initial tower)
      (∀ commands, start.Bears file commands →
        ∀ done ∈ start.run file .counting commands,
          done.state.source.counter.value =
            initial.value + done.state.held + Tower.held storeys done.state.source.source) ∧
      ∀ commands, start.Bears file commands →
        let session := start.after file .counting commands
        let ending := session.finish .counting
        ending.outcome = .done () ∧
          ending.state = session.after file .counting
            (session.readers.entries.map fun entry => (entry.1, .drop)) ∧
          ending.state.source.source = session.source.source ∧
          ending.state.source.counter.value =
            initial.value + Tower.held storeys session.source.source := by
  obtain ⟨tower, begun, nothing⟩ := Tower.exists_start source nonempty
  have accounts := Tower.accounts quiet storeys
  have counts := Tower.counts quiet storeys
  have settled : (fresh (Shared.mk initial tower)).Settled (Tower.held storeys) initial :=
    settled_fresh initial nothing
  refine ⟨tower, begun, ?_, ?_⟩
  · intro commands bears done member
    have balance := (settled.of_mem_run counts accounts bears member).balance
    have parts : done.state.bare.heldWith (Tower.held storeys) =
        done.state.held + Tower.held storeys done.state.source.source := rfl
    omega
  · intro commands bears session ending
    exact (settled.after counts accounts bears).finish _

/-- A reader of one byte above two storeys is loaded at the third attempt, after an error and an
abort halfway through the lowest load. Another reader that asks for more than the upper storey has
makes that storey let go of its bytes, and then fails; a read of the storey itself loads it again,
and again up to its end. -/
theorem counter_eq_held_storeys_halfway :
    let base := Tower.sixBytes.scripted
    let script : List Turn := [.atMost 1, .fail (.ofKind .other), .abort]
    let commands : List (String × SessionCommand) :=
      [("r", .create 0 3), ("s", .create 0 1), ("s", .reader .prefetch), ("s", .reader .prefetch),
        ("s", .reader .prefetch), ("r", .reader .prefetch), ("", .file ⟨true, 0, [0, 0]⟩)]
    base.Quiet ∧ (∀ storey ∈ Tower.twoStoreys, 0 < storey.length) ∧
      ∃ tower, Tower.start script Tower.twoStoreys = .ok tower ∧
        let file := Tower.fileBeside base Tower.twoStoreys
        let start := fresh (Shared.mk (.startingAt 7) tower)
        start.Bears file commands ∧
          (∀ done ∈ start.run file .counting commands,
            done.state.source.counter.value =
              7 + done.state.held + Tower.held Tower.twoStoreys done.state.source.source) ∧
          (start.run file .counting commands).map (·.state.source.counter.value) =
            [7, 7, 7, 7, 14, 12, 12] ∧
          ((start.after file .counting commands).finish .counting).state.source.counter.value =
            11 := by
  intro base script commands
  have quiet : base.Quiet := Contents.quiet_scripted _
  have nonempty : ∀ storey ∈ Tower.twoStoreys, 0 < storey.length := by decide
  obtain ⟨tower, begun, balance, ending⟩ :=
    counter_eq_held_storeys (.startingAt 7) quiet script nonempty
  have seven : (Counter.startingAt 7).value = 7 := by decide
  rw [seven] at balance ending
  refine ⟨quiet, nonempty, tower, begun, ?_⟩
  intro file start
  cases begun
  have amounts : told file .counting commands start = [4, 2, 1, -2, 2, -2] := by
    unfold file commands start base script
    cbv
  have bears : start.Bears file commands := by
    rw [Bears, amounts]
    decide
  have ends := (ending commands bears).2.2.2
  subst start
  refine ⟨bears, balance commands bears, ?_, ?_⟩
  · unfold file commands base script
    cbv
  · rw [ends]
    unfold commands base script
    cbv

end Session
end BulkTransfer
