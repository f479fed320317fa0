import PartitionTable.Proofs.Chain.Faults
import PartitionTable.Proofs.Chain.Layout
import PartitionTable.Proofs.Opening.Depth
import PartitionTable.Proofs.Probe.Visit

/-! The quick look beside the real opening. Both read the first sector, each in its own way, and the
look stops there. On a disk that can be read at all they tell the same of that sector: whether it is
there, and whether it ends in the trailer. Nothing behind it can make an opening say that the trailer
is missing. -/
namespace PartitionTable

/-- A store over a disk that stays as it is, and that never fails: it can be opened when it is closed,
and closed when it is open. -/
structure Store.Obliges (store : Store σ) (image : Image) (token : Token) (known steady : σ → Prop) : Prop extends
    store.Presents image token known steady where
  opens : ∀ s, known s → store.isOpen s = false → (store.acquire s).result = .ok ()
  closes : ∀ s, steady s → (store.release s).result = .ok ()

namespace Bytes

theorem contains_iff (bytes pattern : List UInt8) : contains bytes pattern = true ↔ pattern <:+: bytes := by
  simp only [contains, List.any_eq_true, List.mem_range, beq_iff_eq]
  constructor
  · rintro ⟨offset, _, same⟩
    rw [← same]
    exact (List.take_prefix _ _).isInfix.trans (List.drop_suffix _ _).isInfix
  · rintro ⟨front, rest, rfl⟩
    refine ⟨front.length, by simp; omega, ?_⟩
    simp [slice]

end Bytes

namespace Image

/-- The bytes before the table name a file system: NTFS or FAT. -/
def NamesFileSystem (image : Image) : Prop :=
  [0x4e, 0x54, 0x46, 0x53] <:+: image.slice 0 446 ∨ [0x46, 0x41, 0x54] <:+: image.slice 0 446

theorem namesFileSystem_iff (image : Image) :
    Probe.namesFileSystem (image.slice 0 BootRecord.size) = true ↔ image.NamesFileSystem := by
  have front : (image.slice 0 BootRecord.size).take BootRecord.tableOffset = image.slice 0 446 := by
    have cut : Bytes.slice (image.slice 0 BootRecord.size) 0 446 = image.slice 0 446 :=
      image.slice_slice (by decide)
    simpa [Bytes.slice, BootRecord.tableOffset] using cut
  simp [Probe.namesFileSystem, Probe.fileSystemNames, front, Bytes.contains_iff, NamesFileSystem]

def look (image : Image) : Except Fault Bool :=
  let sector := image.slice 0 BootRecord.size
  if sector.length = BootRecord.size then .ok (BootRecord.hasSignature sector && !Probe.namesFileSystem sector)
  else .error .readFailed

variable {image : Image}

theorem look_short (short : image.size < 512) : image.look = .error .readFailed := by
  apply if_neg
  rw [full_iff]
  omega

theorem look_unsigned (inside : 512 ≤ image.size) (unsigned : ¬ (image.byte 510 = 0x55 ∧ image.byte 511 = 0xaa)) :
    image.look = .ok false := by
  have there : 0 + 512 ≤ image.size := by omega
  have missing : ¬ BootRecord.hasSignature (image.slice 0 BootRecord.size) = true := by
    apply mt (hasSignature_slice there).mp
    simpa using unsigned
  rw [look, if_pos (full_iff.mpr there), Bool.eq_false_iff.mpr missing, Bool.false_and]

/-- A sector with a table is denied only for the name of a file system. -/
theorem look_signed (table : image.HasTable 0) :
    ∃ answer, image.look = .ok answer ∧ (answer = false ↔ image.NamesFileSystem) := by
  obtain ⟨inside, signed⟩ := table
  have there := (hasSignature_slice inside).mpr signed
  refine ⟨!Probe.namesFileSystem (image.slice 0 BootRecord.size), ?_, ?_⟩
  · rw [look, if_pos (full_iff.mpr inside), there, Bool.true_and]
  · rw [Bool.not_eq_false', namesFileSystem_iff]

end Image

namespace Probe

theorem finds_look (image : Image) : Finds (.ok (.ofBytes (image.slice 0 512))) image.look := by
  rw [Image.look]
  split
  case isTrue full =>
    have whole : (Reading.ofBytes (image.slice 0 512)).buffer 512 = image.slice 0 512 := Reading.buffer_ofBytes full
    have long : 446 ≤ (image.slice 0 512).length := full ▸ by decide
    apply Finds.told full
    rw [whole, beginsTable_iff long]
    simp [BootRecord.size]
  case isFalse short => exact .short ((Reading.count_ofBytes _).trans_ne short)

theorem Visits.look {store : Store σ} {image : Image} {token : Token} {known steady : σ → Prop}
    (obliges : store.Obliges image token known steady) (holds : known s)
    (visits : Visits store s calls found later) : found = image.look := by
  have near := Nat.zero_le Offset.maximum
  have looked (t : σ) (held : steady t) {answer : Except Fault Bool}
      (finds : Finds (store.read 512 0 t).result answer) : answer = image.look := by
    rcases obliges.delivers.answers t held 512 0 near with given | ⟨short, refused⟩
    · exact finds.unique (given ▸ finds_look image)
    · rw [refused] at finds
      rw [Image.look_short (by omega)]
      exact finds.unique .failed
  cases visits with
  | ready isOpen finds => exact looked s (obliges.opened s holds isOpen) finds
  | refused closed failed => cases (obliges.opens s holds closed).symm.trans failed
  | failed _ opened finds | told _ opened finds => exact looked _ (obliges.acquired s holds opened).1 finds
  | unreleased _ opened _ failed =>
    have held := (obliges.acquired s holds opened).1
    cases (obliges.closes _ (obliges.delivers.stays _ held 512 0 near)).symm.trans failed

theorem run_look {store : Store σ} {image : Image} {token : Token} {known steady : σ → Prop} {world : World σ}
    (obliges : store.Obliges image token known steady) (holds : known world.stores) :
    ((run store).run world).1 = image.look := by
  obtain ⟨_, visits⟩ := run_visits store world
  exact visits.look obliges holds

end Probe

namespace Volume

variable {store : Store σ} {image : Image} {known steady : σ → Prop} {volume : Volume σ} {world : World σ}

/-- Mounting ends as the walk does, and closing a store again does not change the end. -/
theorem attach_walks (presents : store.Presents image volume.token known steady)
    (ready : world.Ready volume.token steady) (ownership : Ownership) (openedHere : Bool) :
    ∃ start : World σ, start.Ready volume.token steady ∧
      ((attachOrRelease store ownership openedHere).run (volume, world)).1 =
        (((volume.walk store).resolve volume.sectorSize).run start).1.map fun _ => () := by
  obtain ⟨sized, held, quiet⟩ := presents.sized _ ready.steady
  refine ⟨world.absorb (store.size world.stores), ⟨held, Signals.lowered_foldl quiet ready.lowered⟩, ?_⟩
  have attached : (attach store ownership openedHere).run (volume, world) = _ := attach_sized sized
  rcases run : ((volume.walk store).resolve volume.sectorSize).run (world.absorb (store.size world.stores)) with
    ⟨fault | chain, later⟩
  all_goals rw [run] at attached
  · rw [attachOrRelease_failed attached]
    rfl
  · rw [attachOrRelease_done attached]
    rfl

theorem acquireAndAttach_walks (presents : store.Presents image volume.token known steady)
    (ready : world.Ready volume.token known) (opened : (store.acquire world.stores).result = .ok ())
    (ownership : Ownership) :
    ∃ start : World σ, start.Ready volume.token steady ∧
      ((acquireAndAttach store ownership).run (volume, world)).1 =
        (((volume.walk store).resolve volume.sectorSize).run start).1.map fun _ => () := by
  have starts : Starts store world (world.absorb (store.acquire world.stores)) := .inr ⟨opened, rfl⟩
  simp only [acquireAndAttach, Act.run_bind, Act.run_beside, run_ask, opened]
  exact attach_walks presents (starts.ready presents ready.steady ready.lowered) ownership true

/-- A store that obliges can be opened, so an opening ends as the walk does. -/
theorem opening_walks (obliges : store.Obliges image volume.token known steady) (closed : volume.isOpen = false)
    (ready : world.Ready volume.token known) {opening : Act (Volume σ × World σ) Unit}
    (either : opening = openStore store ∨ opening = openOwned store ∧ (store.acquire world.stores).result = .ok ()) :
    ∃ start : World σ, start.Ready volume.token steady ∧ (opening.run (volume, world)).1 =
      (((volume.walk store).resolve volume.sectorSize).run start).1.map fun _ => () := by
  rcases either with rfl | ⟨rfl, opened⟩
  · cases isOpen : store.isOpen world.stores with
    | true =>
      have starts : Starts store world world := .inl ⟨isOpen, rfl⟩
      rw [openStore_ready closed isOpen]
      exact attach_walks obliges.toPresents (starts.ready obliges.toPresents ready.steady ready.lowered) _ _
    | false =>
      rw [openStore_unready closed isOpen]
      exact acquireAndAttach_walks obliges.toPresents ready (obliges.opens _ ready.steady isOpen) _
  · rw [openOwned_closed closed]
    exact acquireAndAttach_walks obliges.toPresents ready opened _

/-- It ends as a walk does that finds the first record of the image. -/
theorem opening_reads (obliges : store.Obliges image volume.token known steady) (closed : volume.isOpen = false)
    (ready : world.Ready volume.token known) {opening : Act (Volume σ × World σ) Unit}
    (either : opening = openStore store ∨ opening = openOwned store ∧ (store.acquire world.stores).result = .ok ()) :
    ∃ start : World σ, (((volume.walk store).readRecord 0).run start).1 = image.recordAt 0 ∧
      (opening.run (volume, world)).1 =
        (((volume.walk store).resolve volume.sectorSize).run start).1.map fun _ => () := by
  obtain ⟨start, ready, walked⟩ := opening_walks obliges closed ready either
  have delivers : (volume.walk store).store.Delivers image volume.token steady := obliges.delivers
  exact ⟨start, (Walk.readRecord_records delivers.records (Nat.zero_le Offset.maximum)).result_eq ready, walked⟩

/-- What an opening fails with for the first record is told by the bytes of the first sector. -/
theorem opening_unread (obliges : store.Obliges image volume.token known steady) (closed : volume.isOpen = false)
    (ready : world.Ready volume.token known) {opening : Act (Volume σ × World σ) Unit}
    (either : opening = openStore store ∨ opening = openOwned store ∧ (store.acquire world.stores).result = .ok ())
    (unread : image.recordAt 0 = .error fault) : (opening.run (volume, world)).1 = .error fault := by
  obtain ⟨start, first, walked⟩ := opening_reads obliges closed ready either
  have failed : ((volume.walk store).readRecord 0).run start = (.error fault, _) :=
    Prod.ext (first.trans unread) rfl
  rw [walked, Walk.resolve_unread failed]
  rfl

/-- With a table in the first sector no opening says that the trailer is missing, whatever is wrong
with the rest of the chain. -/
theorem opening_signed (obliges : store.Obliges image volume.token known steady) (closed : volume.isOpen = false)
    (ready : world.Ready volume.token known) {opening : Act (Volume σ × World σ) Unit}
    (either : opening = openStore store ∨ opening = openOwned store ∧ (store.acquire world.stores).result = .ok ())
    (table : image.HasTable 0) : (opening.run (volume, world)).1 ≠ .error .invalidSignature := by
  obtain ⟨start, first, walked⟩ := opening_reads obliges closed ready either
  rw [walked]
  intro failed
  rcases outcome : ((volume.walk store).resolve volume.sectorSize |>.run start).1 with fault | chain
  all_goals rw [outcome] at failed
  · obtain rfl := Except.error.inj failed
    rcases Walk.resolve_faults outcome with unread | ⟨_, among⟩
    · cases (Image.recordAt_ok table).symm.trans (first.symm.trans unread)
    · exact absurd among (by decide)
  · cases failed

end Volume

/-- The quick look and an opening of the same disk, put to it in any two worlds; a store that the volume
alone is to know has to be one that can be opened. An opening misses the trailer exactly if the first
sector is there and does not end in it, and then the look says no. Where the look fails an opening fails
alike. After an opening that succeeds the look does not fail, and it says no exactly if the bytes before
the table name a file system. Where it says yes, no opening misses the trailer, however the chain behind
the first record looks. -/
theorem Probe.foretells_opening {store : Store σ} {image : Image} {known steady : σ → Prop} {volume : Volume σ}
    (obliges : store.Obliges image volume.token known steady) (closed : volume.isOpen = false) {world sight : World σ}
    (ready : world.Ready volume.token known) (seen : known sight.stores) {opening : Act (Volume σ × World σ) Unit}
    (either : opening = Volume.openStore store ∨
      opening = Volume.openOwned store ∧ (store.acquire world.stores).result = .ok ()) :
    let opened := (opening.run (volume, world)).1
    let found := ((run store).run sight).1
    (opened = .error .invalidSignature ↔
      512 ≤ image.size ∧ ¬ (image.byte 510 = 0x55 ∧ image.byte 511 = 0xaa)) ∧
    (opened = .error .invalidSignature → found = .ok false) ∧
    (∀ fault, found = .error fault → opened = .error fault) ∧
    (opened = .ok () → ∃ answer, found = .ok answer ∧ (answer = false ↔ image.NamesFileSystem)) ∧
    (found = .ok true → opened ≠ .error .invalidSignature) := by
  intro opened found
  have look : found = image.look := run_look obliges seen
  have unread (fault : Fault) : image.recordAt 0 = .error fault → opened = .error fault :=
    Volume.opening_unread obliges closed ready either
  have signed : image.HasTable 0 → opened ≠ .error .invalidSignature :=
    Volume.opening_signed obliges closed ready either
  rw [look]
  by_cases inside : 512 ≤ image.size
  · by_cases trailer : image.byte 510 = 0x55 ∧ image.byte 511 = 0xaa
    · have table : image.HasTable 0 := by simpa [Image.HasTable] using And.intro inside trailer
      obtain ⟨answer, looked, denied⟩ := Image.look_signed table
      have never : opened ≠ .error .invalidSignature := signed table
      refine ⟨iff_of_false never (mt And.right (not_not_intro trailer)), (absurd · never), ?_, ?_, fun _ => never⟩
      · intro fault failed
        rw [looked] at failed
        cases failed
      · exact fun _ => ⟨answer, looked, denied⟩
    · have missed : opened = .error .invalidSignature :=
        unread _ (Image.recordAt_unsigned (by simpa using inside) (by simpa using trailer))
      have looked := Image.look_unsigned inside trailer
      rw [missed, looked]
      exact ⟨iff_of_true rfl ⟨inside, trailer⟩, fun _ => rfl, nofun, nofun, nofun⟩
  · have short := Nat.not_le.mp inside
    have missed : opened = .error .readFailed := unread _ (Image.recordAt_short (by simpa using short))
    have looked := Image.look_short short
    rw [missed, looked]
    refine ⟨iff_of_false nofun (mt And.left inside), nofun, ?_, nofun, nofun⟩
    intro fault failed
    cases failed
    rfl

theorem Memory.obliges (image : Image) (token : Token) :
    Memory.store.Obliges image token (·.image = image) (· = ⟨image, true⟩) where
  toPresents := Memory.presents image token
  opens := fun _ _ _ => rfl
  closes := fun _ _ => rfl

theorem File.obliges {host : Host η} {path : String} {image : Image} {idle : η → Prop} {held : Nat → η → Prop}
    (offers : host.Offers path image idle held) (small : image.size ≤ Offset.maximum) (token : Token) :
    (store host).Obliges image token (Offered path idle held) (Holding held) where
  toPresents := presents offers small token
  opens := fun _ offered => (acquire_eq_ok_iff offers offered).mpr
  closes := fun _ _ => rfl

/-- A sector of zeros is denied and misses the trailer. The knotted disk is told to have a table, and
an opening of it fails for the knot and not for a trailer, though the smallest sectors meet none. -/
theorem Probe.foretells_opening_memory :
    let blank : Image := ⟨512, fun _ => 0⟩
    let opening (memory : Memory) := ((Volume.openStore Memory.store).run ({ token := ⟨0⟩ }, .start memory)).1
    let found (memory : Memory) := ((run Memory.store).run (.start memory)).1
    opening ⟨blank, false⟩ = .error .invalidSignature ∧ found ⟨blank, false⟩ = .ok false ∧
      found Volume.knotted = .ok true ∧ opening Volume.knotted ≠ .error .invalidSignature := by
  intro blank opening found
  have closed : ({ token := ⟨0⟩ } : Volume Memory).isOpen = false := rfl
  have ready (memory : Memory) : (World.start memory).Ready ⟨0⟩ (·.image = memory.image) := ⟨rfl, rfl⟩
  have seen (memory : Memory) : (World.start memory).stores.image = memory.image := rfl
  have told (memory : Memory) := foretells_opening (Memory.obliges memory.image ⟨0⟩) closed (ready memory)
    (seen memory) (.inl rfl)
  obtain ⟨missed, denied, _⟩ := told ⟨blank, false⟩
  obtain ⟨_, _, _, _, never⟩ := told Volume.knotted
  have without : opening ⟨blank, false⟩ = .error .invalidSignature := missed.mpr (by decide)
  have looked : found Volume.knotted = Volume.knotted.image.look := run_look (Memory.obliges _ ⟨0⟩) rfl
  have zeros : ∀ byte ∈ Volume.knotted.image.slice 0 446, byte = 0 := by decide +kernel
  have unnamed : ¬ Volume.knotted.image.NamesFileSystem := by
    rintro (name | name)
    · exact absurd (zeros _ (name.subset (List.mem_cons_self ..))) (by decide)
    · exact absurd (zeros _ (name.subset (List.mem_cons_self ..))) (by decide)
  have table : Volume.knotted.image.HasTable 0 := by decide
  obtain ⟨answer, promised, names⟩ := Image.look_signed table
  obtain rfl : answer = true := by simpa using mt names.mp unnamed
  exact ⟨without, denied without, looked.trans promised, never (looked.trans promised)⟩

end PartitionTable
