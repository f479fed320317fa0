import PartitionTable.Proofs.Chain.Warnings
import PartitionTable.Proofs.Opening
import PartitionTable.Store.Disk

/-! No failure is silent. Whoever opens a volume over one of the stores that come with the library, looks
at its first sector or reads in it finds a warning in the log when a read has failed. -/
namespace PartitionTable

namespace Volume

variable {store : Store σ}

theorem attach_outspoken (builtIn : store.BuiltIn) (ownership : Ownership) (openedHere : Bool) :
    Act.Outspoken Prod.snd Fault.Loud (attach store ownership openedHere) := by
  refine .bind (.view _) fun volume => ?_
  refine .bind (.beside (Reply.Vocal.asked builtIn.vocal.size)) fun bytes => ?_
  refine .bind (.beside (Walk.resolve_outspoken builtIn _)) fun chain => ?_
  exact .bind (.beside (.note _)) fun _ => .change fun _ => rfl

theorem attachOrRelease_outspoken (builtIn : store.BuiltIn) (ownership : Ownership) (openedHere : Bool) :
    Act.Outspoken Prod.snd Fault.Loud (attachOrRelease store ownership openedHere) := by
  refine .bindAttempt (attach_outspoken builtIn ownership openedHere) fun result => ?_
  cases result with
  | ok _ => exact .pure _
  | error fault =>
    have handed {loud : Fault → Prop} : ¬ (loud fault ∧ (.error fault : Except Fault Unit) ≠ .error fault) :=
      fun other => other.2 rfl
    have released := (Reply.Vocal.asked builtIn.vocal.release).grows
    dsimp only
    split
    · exact .bind (.beside (.attempt released)) fun _ => .fail handed
    · exact .fail handed

theorem openStore_outspoken (builtIn : store.BuiltIn) :
    Act.Outspoken Prod.snd Fault.Loud (openStore store) := by
  refine .bind (.view _) fun volume => ?_
  split
  · exact .fail (by decide)
  refine .bind (.view _) fun ready => ?_
  split
  · exact attachOrRelease_outspoken builtIn _ _
  · exact .bind (.beside (Reply.Vocal.asked builtIn.vocal.acquire)) fun _ => attachOrRelease_outspoken builtIn _ _

theorem openOwned_outspoken (builtIn : store.BuiltIn) :
    Act.Outspoken Prod.snd Fault.Loud (openOwned store) := by
  refine .bind (.view _) fun volume => ?_
  split
  · exact .fail (by decide)
  · exact .bind (.beside (Reply.Vocal.asked builtIn.vocal.acquire)) fun _ => attachOrRelease_outspoken builtIn _ _

end Volume

/-- Over each of the stores that come with the library, whatever it holds and whatever the system or the
device answers: a call that comes back with a failed read has left a warning in the log. So has a walk
that met a layout it cannot follow, and one that went out of bounds, unless it was for a place or a size
that is too large for a number. -/
theorem Store.BuiltIn.failures_warned {store : Store σ} (builtIn : store.BuiltIn) (world : World σ) :
    (∀ offset,
      let outcome := (BootRecord.readFrom store offset).run world
      outcome.1 = .error .readFailed → world.Warned outcome.2) ∧
    (((Probe.run store).run world).1 = .error .readFailed → world.Warned ((Probe.run store).run world).2) ∧
    (∀ reader : Reader σ, reader.store = store → ∀ reading : Act (Reader σ × World σ) (List UInt8),
      (∃ length, reading = Reader.read length) ∨ (∃ offset length, reading = Reader.readAt offset length) →
      let outcome := reading.run (reader, world)
      outcome.1 = .error .readFailed → world.Warned outcome.2.2) ∧
    (∀ (volume : Volume σ) (opening : Act (Volume σ × World σ) Unit),
      opening = Volume.openStore store ∨ opening = Volume.openOwned store →
      let outcome := opening.run (volume, world)
      outcome.1 = .error .readFailed → world.Warned outcome.2.2) ∧
    ∀ walk : Walk σ, walk.store = store → ∀ size,
      let outcome := (walk.resolve size).run world
      (outcome.1 = .error .readFailed → world.Warned outcome.2) ∧
      (outcome.1 = .error .unsupportedLayout → world.Warned outcome.2) ∧
      (outcome.1 = .error .outOfBounds → world.Warned outcome.2 ∨ walk.Overshoots size world outcome.2) := by
  have failedRead : Fault.readFailed.Loud := .inl rfl
  refine ⟨fun offset => ?_, ?_, ?_, ?_, ?_⟩
  · exact (BootRecord.readFrom_outspoken builtIn.vocal offset).warns world _ failedRead
  · exact (Probe.run_outspoken builtIn.vocal).warns world _ failedRead
  · rintro reader rfl reading (⟨length, rfl⟩ | ⟨offset, length, rfl⟩)
    · exact Reader.read_warns builtIn.vocal length world failedRead
    · exact Reader.readAt_warns builtIn.vocal offset length world failedRead
  · rintro volume opening (rfl | rfl)
    · exact (Volume.openStore_outspoken builtIn).warns (volume, world) _ failedRead
    · exact (Volume.openOwned_outspoken builtIn).warns (volume, world) _ failedRead
  · rintro walk rfl size
    refine ⟨fun failed => ?_, fun failed => ?_, fun failed => ?_⟩
    · exact (walk.resolve_reported builtIn size world failed).1 failedRead
    · exact (walk.resolve_reported builtIn size world failed).1 (.inr rfl)
    · exact (walk.resolve_reported builtIn size world failed).2 rfl

/-- A first record with two links, of which one can be read. -/
def Image.forked : Image where
  size := 1024
  byte offset := ([(450, 0x05), (454, 1), (466, 0x05), (510, 0x55), (511, 0xaa), (1022, 0x55), (1023, 0xaa)].lookup
    offset).getD 0

/-- A device with a bad first block, and two chains in memory that come to nothing. -/
theorem Store.BuiltIn.failures_warned_unreadable :
    let store := Block.store (Disk.device 512)
    let world : World (Block Disk) := .start ⟨{ image := Volume.knotted.image, badBlock := some 0 }, true⟩
    let reader : Reader (Block Disk) :=
      { store, token := ⟨0⟩, extent := ⟨⟨0x83⟩, 0, 0, 8⟩, bytesPerSector := 512, start := 0, size := 4096,
        cache := .ofCapacity 4 }
    let walk : Walk Memory := ⟨Memory.store, ⟨0⟩, 256⟩
    let knotted : World Memory := .start { Volume.knotted with isOpen := true }
    let forked : World Memory := .start ⟨.forked, true⟩
    (((BootRecord.readFrom store 0).run world).1 = .error .readFailed ∧
      world.Warned ((BootRecord.readFrom store 0).run world).2) ∧
    (((Probe.run store).run world).1 = .error .readFailed ∧ world.Warned ((Probe.run store).run world).2) ∧
    (((Reader.read 700).run (reader, world)).1 = .error .readFailed ∧
      world.Warned ((Reader.read 700).run (reader, world)).2.2) ∧
    (((Volume.openStore store).run ({ token := ⟨0⟩ }, world)).1 = .error .readFailed ∧
      world.Warned ((Volume.openStore store).run ({ token := ⟨0⟩ }, world)).2.2) ∧
    (((walk.resolve .of512).run forked).1 = .error .unsupportedLayout ∧
      forked.Warned ((walk.resolve .of512).run forked).2) ∧
    ((walk.resolve .of512).run knotted).1 = .error .outOfBounds ∧
      (knotted.Warned ((walk.resolve .of512).run knotted).2 ∨
        walk.Overshoots .of512 knotted ((walk.resolve .of512).run knotted).2) := by
  intro store world reader walk knotted forked
  obtain ⟨records, probes, reads, openings, -⟩ := failures_warned (.block (Disk.device 512)) world
  have unread : ((BootRecord.readFrom store 0).run world).1 = .error .readFailed := by decide +kernel
  have unseen : ((Probe.run store).run world).1 = .error .readFailed := by decide +kernel
  have missed : ((Reader.read 700).run (reader, world)).1 = .error .readFailed := by decide +kernel
  have unopened : ((Volume.openStore store).run ({ token := ⟨0⟩ }, world)).1 = .error .readFailed := by
    decide +kernel
  have several : ((walk.resolve .of512).run forked).1 = .error .unsupportedLayout := by decide +kernel
  have astray : ((walk.resolve .of512).run knotted).1 = .error .outOfBounds := by decide +kernel
  refine ⟨⟨unread, records 0 unread⟩, ⟨unseen, probes unseen⟩, ⟨missed, ?_⟩, ⟨unopened, ?_⟩,
    ⟨several, ?_⟩, astray, ?_⟩
  · exact reads reader rfl (Reader.read 700) (.inl ⟨700, rfl⟩) missed
  · exact openings { token := ⟨0⟩ } _ (.inl rfl) unopened
  · exact ((failures_warned .memory forked).2.2.2.2 walk rfl .of512).2.1 several
  · exact ((failures_warned .memory knotted).2.2.2.2 walk rfl .of512).2.2 astray

end PartitionTable
