import PartitionTable.Proofs.Ensemble
import PartitionTable.Proofs.Heed
import PartitionTable.Proofs.Reader.AtHand

/-! What a cancelled token does to a volume and to all its readers, in any order of events. Until
somebody lowers the flag no opening and no reader puts a read to any store. A read that needs none
is answered as ever, and every other one is told of the cancellation. -/
namespace PartitionTable

namespace Ensemble

/-- What was put to the stores from one state to a later one, newest first. -/
def since (before later : Ensemble ι σ) : List (ι × Exchange) :=
  later.world.stores.2.take (later.world.stores.2.length - before.world.stores.2.length)

theorem since_eq {before later : Ensemble ι σ} (grown : later.world.stores.2 = fresh ++ before.world.stores.2) :
    since before later = fresh := by
  simp [since, grown]

/-- Somebody raises the flag: by a cancellation from outside, or by telling the volume to abort. -/
def Raises (token : Token) (happening : Happening ι σ) (ensemble : Ensemble ι σ) : Prop :=
  happening = .signal (.cancel token) ∨ happening = .abort ∧ ensemble.volume.isSome = true

/-- Somebody lowers the flag: by a reset from outside, by closing or dropping a volume that is
open, or by a store that resets the token while it is asked for something. -/
def Lowers (stores : ι → Store σ) (token : Token) (happening : Happening ι σ) (ensemble : Ensemble ι σ) : Prop :=
  happening = .signal (.reset token) ∨
  happening ∈ [.close, .discard] ∧ (∃ volume, ensemble.volume = some volume ∧ volume.isOpen = true) ∨
  ∃ entry ∈ since ensemble (step stores happening ensemble), .reset token ∈ entry.2.signals

def Unbroken (stores : ι → Store σ) (token : Token) : List (Happening ι σ) → Ensemble ι σ → Prop
  | [], _ => True
  | happening :: rest, ensemble =>
    ¬ Lowers stores token happening ensemble ∧ Unbroken stores token rest (step stores happening ensemble)

/-- What one happening puts to the stores. No read is put while the flag is up, and if it is up
and nobody lowers it then it stays up. -/
def Hears (token : Token) (lowering : Prop) (before later : Ensemble ι σ) : Prop :=
  ∃ fresh, later.world.stores.2 = fresh ++ before.world.stores.2 ∧ Polled token before.world.signals fresh ∧
    (before.world.signals.raised token = true → (∀ entry ∈ fresh, .reset token ∉ entry.2.signals) → ¬ lowering →
      later.world.signals.raised token = true)

variable {stores : ι → Store σ} {token : Token} {ensemble later : Ensemble ι σ}

theorem Hears.of_heeds (heeds : ensemble.world.Heeds token later.world) (lowering : Prop) :
    Hears token lowering ensemble later := by
  obtain ⟨fresh, grown, sent, polled⟩ := heeds
  refine ⟨fresh, grown, polled, fun raised kept _ => ?_⟩
  rw [sent]
  exact Signals.raised_after kept raised

theorem Hears.unmoved (same : later.world = ensemble.world) (lowering : Prop) : Hears token lowering ensemble later :=
  .of_heeds (same ▸ .rest) lowering

theorem Hears.silent (same : later.world.stores.2 = ensemble.world.stores.2)
    (stays : ensemble.world.signals.raised token = true → ¬ lowering → later.world.signals.raised token = true) :
    Hears token lowering ensemble later :=
  ⟨[], same, trivial, fun raised _ => stays raised⟩

/-- A closing releases the store at most. -/
theorem close_unread {volume : Volume (Archive ι σ)} {mount : Mount (Archive ι σ)} {store : Store σ}
    (mounted : volume.mount = some mount) (known : mount.store = store.transcribed label)
    (world : World (Archive ι σ)) :
    ∃ fresh : List (ι × Exchange), (Volume.close.run (volume, world)).2.2.stores.2 = fresh ++ world.stores.2 ∧
      ∀ entry ∈ fresh, entry.2.call.isRead = false := by
  simp only [Volume.close, Act.run_bind, Volume.current, Act.run_view, mounted, Act.run_beside, Act.run_attempt,
    Act.run_change, Act.run_ofExcept]
  cases openedHere : mount.openedHere with
  | false =>
    simp only [Volume.releaseMount, openedHere, Bool.false_eq_true, ↓reduceIte, Act.run_pure]
    exact ⟨[], rfl, by simp⟩
  | true =>
    simp only [Volume.releaseMount, openedHere, ↓reduceIte, Act.run_bind, Act.run_attempt, run_ask, known]
    refine ⟨[(label, store.exchange .release world.stores.1)], ?_, by simp [Store.exchange, Call.isRead]⟩
    cases ((store.transcribed label).release world.stores).result <;> rfl

theorem setBytesPerSector_world (count : UInt32) (ensemble : Ensemble ι σ) :
    (operate (Volume.setBytesPerSector count) ensemble).world = ensemble.world := by
  rcases present : ensemble.volume with _ | volume
  · simp only [operate, present]
  · simp only [operate, present, Volume.setBytesPerSector, Act.run_bind, Volume.current, Act.run_view]
    cases volume.mount <;> cases SectorSize.ofBytes? count <;> rfl

theorem engage_world (index : Nat) (ensemble : Ensemble ι σ) : (engage index ensemble).world = ensemble.world := by
  rcases present : ensemble.volume with _ | volume
  · simp only [engage, present]
  · rcases made : volume.reader index with _ | _
    all_goals simp only [engage, present, made]

section Step

variable (sound : ensemble.Sound stores token)

include sound

theorem hears_opening {opening : Act (Volume (Archive ι σ) × World (Archive ι σ)) Unit} (label : ι)
    (either : opening = Volume.openStore ((stores label).transcribed label) ∨
      opening = Volume.openOwned ((stores label).transcribed label)) (lowering : Prop) :
    Hears token lowering ensemble (operate opening ensemble) := by
  rcases present : ensemble.volume with _ | volume
  · simp only [operate, present]
    exact .unmoved rfl lowering
  · obtain ⟨options, kept⟩ := (sound.volume volume present).kept
    simp only [operate, present]
    refine .of_heeds ?_ lowering
    rw [← kept.token]
    exact Volume.opening_heeds either

theorem hears_close {lowering : Prop}
    (ends : (∃ volume, ensemble.volume = some volume ∧ volume.isOpen = true) → lowering)
    (world : later.world = match ensemble.volume with
      | none => ensemble.world
      | some volume => (Volume.close.run (volume, ensemble.world)).2.2) : Hears token lowering ensemble later := by
  rcases present : ensemble.volume with _ | volume
  all_goals simp only [present] at world
  · exact .unmoved world lowering
  rcases mounted : volume.mount with _ | mount
  · have closed : volume.isOpen = false := by simp [Volume.isOpen, mounted]
    rw [Volume.close_closed closed] at world
    exact .unmoved world lowering
  · obtain ⟨label, known⟩ := (sound.volume volume present).store mount mounted
    obtain ⟨fresh, grown, unread⟩ := close_unread mounted known ensemble.world
    have isOpen : volume.isOpen = true := by simp [Volume.isOpen, mounted]
    refine ⟨fresh, by rw [world]; exact grown, .of_unread unread, fun _ _ stays => absurd ?_ stays⟩
    exact ends ⟨volume, present, isOpen⟩

theorem hears_serve (number : Nat) (request : Request) (lowering : Prop) :
    Hears token lowering ensemble (serve number request ensemble) := by
  rcases present : ensemble.readers[number]? with _ | reader
  · simp only [serve, present]
    exact .unmoved rfl lowering
  · have belongs := sound.readers reader (List.mem_of_getElem? present)
    obtain ⟨label, known⟩ := belongs.store
    simp only [serve, present]
    refine .of_heeds ?_ lowering
    rw [← belongs.token]
    exact Reader.respond_heeds known request ensemble.world

theorem raised_abort {volume : Volume (Archive ι σ)} (present : ensemble.volume = some volume) :
    (operate Volume.abort ensemble).world.signals.raised token = true := by
  obtain ⟨options, kept⟩ := (sound.volume volume present).kept
  simp [operate, present, Volume.abort, Act.run_change, kept.token]

theorem raised_step {happening : Happening ι σ} (raises : Raises token happening ensemble) :
    (step stores happening ensemble).world.signals.raised token = true := by
  rcases raises with rfl | ⟨rfl, present⟩
  · simp [step, Signals.apply]
  · obtain ⟨volume, present⟩ := Option.isSome_iff_exists.mp present
    exact raised_abort sound present

theorem hears_abort (lowering : Prop) : Hears token lowering ensemble (operate Volume.abort ensemble) := by
  rcases present : ensemble.volume with _ | volume
  · simp only [operate, present]
    exact .unmoved rfl lowering
  · refine .silent ?_ fun _ _ => raised_abort sound present
    simp only [operate, present, Volume.abort, Act.run_change]

theorem hears_step (happening : Happening ι σ) :
    Hears token (happening = .signal (.reset token) ∨
        happening ∈ [.close, .discard] ∧ ∃ volume, ensemble.volume = some volume ∧ volume.isOpen = true)
      ensemble (step stores happening ensemble) := by
  cases happening with
  | openOwned label => exact hears_opening sound label (.inr rfl) _
  | openStore label => exact hears_opening sound label (.inl rfl) _
  | close =>
    refine hears_close sound (fun isOpen => .inr ⟨by simp, isOpen⟩) ?_
    simp only [step, operate]
    cases ensemble.volume <;> rfl
  | discard =>
    refine hears_close sound (fun isOpen => .inr ⟨by simp, isOpen⟩) ?_
    simp only [step, discard]
    cases ensemble.volume <;> rfl
  | setBytesPerSector count => exact .unmoved (setBytesPerSector_world count ensemble) _
  | abort => exact hears_abort sound _
  | reader index => exact .unmoved (engage_world index ensemble) _
  | request number request => exact hears_serve sound number request _
  | signal signal =>
    refine .silent rfl fun raised other => ?_
    have apart : Signal.reset token ∉ [signal] := fun member =>
      other (.inl (congrArg Happening.signal (List.mem_singleton.mp member).symm))
    exact Signals.raised_foldl apart raised
  | outside change => exact .silent rfl fun raised _ => raised

/-- At every read that a happening puts to a store the flag was down. -/
theorem polled_since (happening : Happening ι σ) :
    Polled token ensemble.world.signals (since ensemble (step stores happening ensemble)) := by
  obtain ⟨fresh, grown, polled, _⟩ := hears_step sound happening
  rwa [since_eq grown]

/-- While the flag is up and nobody lowers it, whatever happens puts no read. -/
theorem unbroken_hushed (period : List (Happening ι σ)) (unbroken : Unbroken stores token period ensemble)
    (raised : ensemble.world.signals.raised token = true) :
    (after stores period ensemble).world.signals.raised token = true ∧
      ∃ fresh, (after stores period ensemble).world.stores.2 = fresh ++ ensemble.world.stores.2 ∧
        ∀ entry ∈ fresh, entry.2.call.isRead = false := by
  induction period generalizing ensemble with
  | nil => exact ⟨raised, [], rfl, nofun⟩
  | cons happening rest ih =>
    obtain ⟨stays, unbroken⟩ := unbroken
    obtain ⟨first, grown, polled, flag⟩ := hears_step sound happening
    simp only [Lowers, since_eq grown, not_or, not_exists, not_and] at stays
    obtain ⟨noReset, noEnd, kept⟩ := stays
    have still : (step stores happening ensemble).world.signals.raised token = true := by
      refine flag raised kept ?_
      rintro (reset | ⟨ends, volume, present, isOpen⟩)
      · exact noReset reset
      · exact noEnd ends volume present isOpen
    obtain ⟨raised', later, longer, unread⟩ := ih (sound.stepped happening) unbroken still
    refine ⟨raised', later ++ first, by rw [after, longer, grown, List.append_assoc], ?_⟩
    exact List.forall_mem_append.mpr ⟨unread, polled.unread raised kept⟩

end Step

end Ensemble

theorem Reader.barred_cancelled {reader : Reader σ} (raised : world.signals.raised reader.token = true) :
    reader.Barred .cancelled world := by
  intro sector notice
  simp [load, Act.run_bind, World.note, raised]

namespace Ensemble

/-- After any history a cancellation raises the flag, and every read that is put to a store is put
with the flag down, also in the middle of a walk or of a read. Once the flag is up it stays up until
somebody lowers it, and until then no read is put. A reader answers what it has at hand as it would in
any other world, and to everything else it says that it was cancelled, and leaves the cursor. -/
theorem cancelled_hushed (stores : ι → Store σ) (token : Token) (options : Options) (world : World (Archive ι σ))
    (history : List (Happening ι σ)) :
    let reached := after stores history (new token options world)
    (∀ happening, Raises token happening reached →
      (step stores happening reached).world.signals.raised token = true) ∧
    (∀ happening, Polled token reached.world.signals (since reached (step stores happening reached))) ∧
    (reached.world.signals.raised token = true →
      (∀ period, Unbroken stores token period reached →
        (after stores period reached).world.signals.raised token = true ∧
          ∀ entry ∈ since reached (after stores period reached), entry.2.call.isRead = false) ∧
      ∀ reader ∈ reached.readers, ∀ (request : Request) (offset length : Nat),
        request.range? reader.cursor = some (offset, length) → length ≤ Offset.maximum →
        (reader.AtHand offset length → ∃ bytes later, ∀ world,
          Reader.respond request (reader, world) = (.bytes (.ok bytes), later, world)) ∧
        (¬ reader.AtHand offset length →
          (Reader.respond request (reader, reached.world)).1 = .bytes (.error .cancelled) ∧
            (Reader.respond request (reader, reached.world)).2.1.cursor = reader.cursor)) := by
  intro reached
  have sound := (new_sound stores token options world).after history
  refine ⟨fun _ => raised_step sound, polled_since sound, fun raised => ⟨fun period unbroken => ?_, ?_⟩⟩
  · obtain ⟨stays, fresh, grown, unread⟩ := unbroken_hushed sound period unbroken raised
    rw [since_eq grown]
    exact ⟨stays, unread⟩
  · intro reader member request offset length range short
    have belongs := sound.readers reader member
    constructor
    · intro atHand
      obtain ⟨bytes, kept, run⟩ := Reader.respond_atHand range belongs.positive short atHand
      exact ⟨bytes, _, run⟩
    · intro apart
      rw [← belongs.token] at raised
      exact Reader.respond_barred range belongs.positive short apart (Reader.barred_cancelled raised)

/-- Two readers are made, the first one reads, and the volume is aborted. -/
def errands : List (Happening Unit Memory) :=
  [.openOwned (), .reader 0, .reader 1, .request 0 (.read 4), .abort]

def aborted : Ensemble Unit Memory :=
  after (fun _ => Memory.store) errands (new ⟨0⟩ {} (.start (Volume.chained, [])))

/-- The first reader still answers. The second one does not, and asks for nothing. -/
theorem cancelled_hushed_chained :
    (∃ reader ∈ aborted.readers, ∃ bytes,
      (Reader.respond (.readAt 0 4) (reader, aborted.world)).1 = .bytes (.ok bytes)) ∧
    (∃ reader ∈ aborted.readers,
      (Reader.respond (.readAt 0 4) (reader, aborted.world)).1 = .bytes (.error .cancelled)) ∧
    ∀ entry ∈ since aborted (after (fun _ => Memory.store) [.request 1 (.read 4)] aborted),
      entry.2.call.isRead = false := by
  have raised : aborted.world.signals.raised ⟨0⟩ = true := by decide +kernel
  have first : aborted.readers.any (fun reader => decide (reader.AtHand 0 4)) = true := by decide +kernel
  have second : aborted.readers.any (fun reader => !decide (reader.AtHand 0 4)) = true := by decide +kernel
  have nothing : (since aborted (step (fun _ => Memory.store) (.request 1 (.read 4)) aborted)).isEmpty = true := by
    decide +kernel
  have unbroken : Unbroken (fun _ => Memory.store) ⟨0⟩ [.request 1 (.read 4)] aborted :=
    ⟨by simp [Lowers, List.isEmpty_iff.mp nothing], trivial⟩
  unfold aborted at *
  obtain ⟨_, _, hushed⟩ := cancelled_hushed (fun _ : Unit => Memory.store) ⟨0⟩ {} (.start (Volume.chained, [])) errands
  obtain ⟨silent, answers⟩ := hushed raised
  simp only [List.any_eq_true, Bool.not_eq_true', decide_eq_true_eq, decide_eq_false_iff_not] at first second
  obtain ⟨reader, member, atHand⟩ := first
  obtain ⟨other, among, apart⟩ := second
  obtain ⟨bytes, _, run⟩ := (answers reader member (.readAt 0 4) 0 4 rfl (by decide)).1 atHand
  refine ⟨⟨reader, member, bytes, by rw [run]⟩, ⟨other, among, ?_⟩, (silent _ unbroken).2⟩
  exact ((answers other among (.readAt 0 4) 0 4 rfl (by decide)).2 apart).1

end Ensemble
end PartitionTable
