import PartitionTable.Proofs.Reader.Reads
import PartitionTable.Store.Scripted

/-! A reader over a store that is honest but not reliable. Any read may fail or come back short,
flags may be raised and lowered, the store may be closed and opened again. What a failed request
leaves behind is more or fewer sectors in the cache, and all of them are right: nothing of it is
seen later, so the requests that succeed are answered as if they had been the only ones. -/
namespace PartitionTable

/-- As long as its state is sound, a store that reports a read in full has filled the buffer with
the bytes of an image. It may as well fail, or report anything else. -/
structure Store.Honest (store : Store σ) (image : Image) (sound : σ → Prop) : Prop where
  truthful : ∀ s, sound s → ∀ length offset reading, (store.read length offset s).result = .ok reading →
    reading.count = length → reading.buffer length = image.slice offset length
  stays : ∀ s, sound s → ∀ length offset, sound (store.read length offset s).state

/-- A read that was reported in full brought the bytes of an image. -/
def Exchange.Truthful (exchange : Exchange) (image : Image) : Prop :=
  ∀ length offset reading, exchange.call = .read length offset → exchange.answer = .ok (.reading reading) →
    reading.count = length → reading.buffer length = image.slice offset length

theorem Store.answer_read {store : Store σ}
    (answer : (store.exchange (.read length offset) s).answer = .ok (.reading reading)) :
    (store.read length offset s).result = .ok reading := by
  rcases result : (store.read length offset s).result with fault | given
  all_goals simp only [Store.exchange, Store.reply, Reply.map, result, Except.map] at answer
  · cases answer
  · cases answer
    rfl

theorem Served.truthful {store : Store σ} {sound : σ → Prop} (served : Served store world trace last)
    (honest : store.Honest image sound) (initially : sound world.stores)
    (reads : ∀ exchange ∈ trace, ∃ length offset, exchange.call = .read length offset) :
    sound last.stores ∧ ∀ exchange ∈ trace, exchange.Truthful image := by
  induction served with
  | rest => exact ⟨initially, nofun⟩
  | note _ ih => exact ih initially reads
  | call _ ih =>
    obtain ⟨⟨length, offset, rfl⟩, others⟩ := List.forall_mem_cons.mp reads
    obtain ⟨later, rest⟩ := ih (honest.stays _ initially length offset) others
    refine ⟨later, List.forall_mem_cons.mpr ⟨?_, rest⟩⟩
    intro asked place reading same answer full
    cases same
    exact honest.truthful _ initially _ _ _ (Store.answer_read answer) full

namespace Reader

variable {reader : Reader σ} {image : Image} {sound : σ → Prop} {world : World σ}

/-- What a sector has to be for a reader of an image. -/
def Genuine (reader : Reader σ) (image : Image) (key : Int) (bytes : List UInt8) : Prop :=
  image.sectorAt reader.bytesPerSector.toNat key = .ok bytes

theorem genuine_iff : reader.Genuine image key bytes ↔
    image.HasSector reader.bytesPerSector.toNat key ∧ bytes = image.slice key.toNat reader.bytesPerSector.toNat := by
  rw [Genuine, Image.sectorAt]
  by_cases present : image.HasSector reader.bytesPerSector.toNat key
  · rw [if_pos present, Except.ok.injEq, and_iff_right present, eq_comm]
  · rw [if_neg present]
    refine ⟨fun brought => ?_, fun both => absurd both.1 present⟩
    cases brought

/-- A full sector lies in the image: past its end there are not as many bytes. -/
theorem brings_genuine {exchange : Exchange} (positive : 0 < reader.bytesPerSector.toNat)
    (truthful : exchange.Truthful image) : exchange.Brings reader (reader.Genuine image) := by
  intro sector reading reads answer full
  have true := truthful _ _ _ reads.call answer full
  have whole := congrArg List.length true
  rw [Reading.length_buffer, Image.length_slice] at whole
  have nonnegative := reads.nonnegative
  exact genuine_iff.mpr ⟨⟨nonnegative, by omega⟩, true⟩

/-- Sectors of the image one after the other are a range of it. -/
theorem consists_genuine (consists : reader.Consists (reader.Genuine image) sector count bytes) :
    (∀ further < count, image.HasSector reader.bytesPerSector.toNat (reader.sectorStart (sector + further))) ∧
    bytes = image.slice (reader.sectorStart sector).toNat (count * reader.bytesPerSector.toNat) := by
  induction count generalizing sector bytes with
  | zero =>
    refine ⟨nofun, consists.trans ?_⟩
    simp [Image.slice_eq_map]
  | succ count ih =>
    obtain ⟨first, rest, fit, consists, rfl⟩ := consists
    obtain ⟨present, rfl⟩ := genuine_iff.mp fit
    obtain ⟨others, rfl⟩ := ih consists
    constructor
    · intro further below
      rcases further with _ | further
      · exact present
      · rw [← Nat.add_assoc, Nat.add_right_comm]
        exact others further (Nat.lt_of_succ_lt_succ below)
    · obtain ⟨nonnegative, within⟩ := present
      have next : (reader.sectorStart (sector + 1)).toNat =
          (reader.sectorStart sector).toNat + reader.bytesPerSector.toNat := by
        rw [sectorStart_succ, Int.toNat_add nonnegative (Int.natCast_nonneg _), Int.toNat_natCast]
      rw [next, image.slice_append (by omega), Nat.add_mul, Nat.one_mul, Nat.add_comm (count * _)]

theorem cuts_genuine (positive : 0 < reader.bytesPerSector.toNat) (some : 0 < count)
    (cuts : reader.Cuts (reader.Genuine image) offset count bytes) :
    (reader.plain image).Inside offset count ∧ bytes = image.slice (reader.start + offset).toNat count ∧
      bytes.length = count := by
  rw [Cuts, if_neg (Nat.ne_of_gt some)] at cuts
  obtain ⟨whole, consists, rfl⟩ := cuts
  obtain ⟨sectors, rfl⟩ := consists_genuine consists
  have inside := (inside_iff_touched positive some).mpr sectors
  have range := range_of_inside positive some inside
  have place := reader.sectorStart_sectorOf offset
  obtain ⟨first, _⟩ := sectors 0 (reader.sectorsTouched_pos offset some)
  rw [Nat.add_zero] at first
  have start : (reader.sectorStart (reader.sectorOf offset)).toNat + offset % reader.bytesPerSector.toNat =
      (reader.start + offset).toNat := by omega
  have cut : Bytes.slice (image.slice (reader.sectorStart (reader.sectorOf offset)).toNat
      (reader.sectorsTouched offset count * reader.bytesPerSector.toNat)) (offset % reader.bytesPerSector.toNat) count =
      image.slice (reader.start + offset).toNat count := by
    rw [image.slice_slice (touched_covers reader offset positive some), start]
  refine ⟨inside, cut, ?_⟩
  rw [cut, Image.length_slice]
  omega

/-- A read that gives genuine bytes gives those that the plain reader gives. -/
theorem readFrom_plain (positive : 0 < reader.bytesPerSector.toNat) (short : length ≤ Offset.maximum)
    (cuts : reader.Cuts (reader.Genuine image) offset (reader.covered offset length) bytes) (cursor : Nat) :
    (reader.plain image).readFrom cursor offset length = (.bytes (.ok bytes), offset + bytes.length) := by
  rw [Plain.readFrom, if_neg (by omega)]
  have count : min length ((reader.plain image).size - offset) = reader.covered offset length := rfl
  have empty : (length = 0 ∨ (reader.plain image).size ≤ offset) ↔ reader.covered offset length = 0 := by
    rw [← count]
    omega
  rcases Nat.eq_zero_or_pos (reader.covered offset length) with none | some
  · rw [Cuts, if_pos none] at cuts
    rw [if_pos (empty.mpr none), cuts]
    rfl
  · obtain ⟨inside, range, whole⟩ := cuts_genuine positive some cuts
    rw [if_neg (mt empty.mp (by omega)), count, if_pos inside, whole, range]
    rfl

/-- A reader over an honest store, with nothing in its cache but sectors of the image. -/
structure Trusts (reader : Reader σ) (image : Image) (sound : σ → Prop) (world : World σ) : Prop where
  honest : reader.store.Honest image sound
  positive : 0 < reader.bytesPerSector.toNat
  genuine : reader.cache.Holds (reader.Genuine image)
  sound : sound world.stores

/-- A request is answered as expected, or fails and leaves the cursor; the reader can be trusted
afterwards either way. -/
structure Excused (reader : Reader σ) (image : Image) (sound : σ → Prop) (expected : Response × Nat)
    (given : Response × Reader σ × World σ) : Prop where
  range : given.2.1.plain image = reader.plain image
  trusts : given.2.1.Trusts image sound given.2.2
  failure : given.1.failed = true → given.2.1.cursor = reader.cursor
  success : given.1.failed = false → (given.1, given.2.1.cursor) = expected

theorem readFrom_excused (trusts : reader.Trusts image sound world) (offset length : Nat) :
    reader.Excused image sound ((reader.plain image).readFrom reader.cursor offset length)
      (.bytes ((readFrom offset length).run (reader, world)).1,
        ((readFrom offset length).run (reader, world)).2) := by
  obtain ⟨result, cache, later, run, short, trace, served, reads, holds⟩ :=
    reader.readFrom_draws (reader.Genuine image) offset length world
  have calls : ∀ exchange ∈ trace, ∃ length offset, exchange.call = .read length offset := by
    intro exchange member
    obtain ⟨_, _, read⟩ := reads exchange member
    exact ⟨_, _, read.call⟩
  obtain ⟨sound, truthful⟩ := served.truthful trusts.honest trusts.sound calls
  obtain ⟨genuine, good⟩ := holds trusts.genuine fun exchange member =>
    brings_genuine trusts.positive (truthful exchange member)
  rw [run]
  refine ⟨rfl, ⟨trusts.honest, trusts.positive, genuine, sound⟩, ?_, ?_⟩
  · intro failed
    cases result with
    | error fault => rfl
    | ok bytes => cases failed
  · intro succeeded
    cases result with
    | error fault => cases succeeded
    | ok bytes => exact (readFrom_plain trusts.positive (short bytes rfl) (good bytes rfl) reader.cursor).symm

theorem respond_excused (trusts : reader.Trusts image sound world) (request : Request) :
    reader.Excused image sound ((reader.plain image).respond reader.cursor request)
      (respond request (reader, world)) := by
  rcases range : request.range? reader.cursor with _ | ⟨offset, length⟩
  · rw [respond_resting range image]
    refine ⟨rfl, ⟨trusts.honest, trusts.positive, trusts.genuine, trusts.sound⟩, fun failed => ?_, fun _ => rfl⟩
    rcases (reader.plain image).respond_resting range with ⟨_, stays⟩ | ⟨succeeded, _⟩
    · exact stays
    · cases failed.symm.trans succeeded
  · rw [respond_reading range, Plain.respond_reading _ range]
    exact readFrom_excused trusts offset length

end Reader

structure Turn where
  request : Request
  before : Nat
  response : Response
  after : Nat

namespace Reader

def turns : List (Event σ) → Reader σ × World σ → List Turn
  | [], _ => []
  | .request request :: rest, state =>
    let given := respond request state
    ⟨request, state.1.cursor, given.1, given.2.1.cursor⟩ :: turns rest given.2
  | .meanwhile change :: rest, (reader, world) => turns rest (reader, change world)

variable {reader : Reader σ} {image : Image} {sound : σ → Prop} {world : World σ}

/-- Failed requests can be struck out of a session: its other answers stay what they are. -/
theorem turns_trusts (trusts : reader.Trusts image sound world) (events : List (Event σ))
    (keeps : ∀ change, .meanwhile change ∈ events → ∀ world, sound world.stores → sound (change world).stores) :
    (∀ turn ∈ turns events (reader, world), turn.response.failed = true → turn.after = turn.before) ∧
    ((turns events (reader, world)).filter (!·.response.failed)).map (fun turn => (turn.response, turn.after)) =
      (reader.plain image).session reader.cursor
        (((turns events (reader, world)).filter (!·.response.failed)).map (·.request)) := by
  induction events generalizing reader world with
  | nil => exact ⟨nofun, rfl⟩
  | cons event rest ih =>
    obtain ⟨now, later⟩ : (∀ change, .meanwhile change = event → ∀ world, sound world.stores →
        sound (change world).stores) ∧ ∀ change, .meanwhile change ∈ rest → ∀ world, sound world.stores →
        sound (change world).stores :=
      ⟨fun change same => keeps change (same ▸ List.mem_cons_self),
        fun change member => keeps change (List.mem_cons_of_mem _ member)⟩
    cases event with
    | meanwhile change =>
      exact ih ⟨trusts.honest, trusts.positive, trusts.genuine, now change rfl world trusts.sound⟩ later
    | request request =>
      have excused := respond_excused trusts request
      obtain ⟨kept, same⟩ := ih excused.trusts later
      simp only [turns]
      refine ⟨List.forall_mem_cons.mpr ⟨excused.failure, kept⟩, ?_⟩
      rw [excused.range] at same
      cases failed : (respond request (reader, world)).1.failed with
      | true =>
        rw [excused.failure failed] at same
        simpa [failed] using same
      | false =>
        have answer := excused.success failed
        simp only [failed, Bool.not_false, List.filter_cons_of_pos, List.map_cons, Plain.session, answer.symm]
        exact congrArg (_ :: ·) same

/-- Over an honest store that may fail at any read, with anything that keeps it honest happening
between the requests: a request that fails leaves the cursor where it was, and the others are
answered, with the same bytes and the same cursor after each, as the plain reader answers them
when it is asked for nothing else. -/
theorem faults_invisible {store : Store σ} (honest : store.Honest image sound) (initially : sound world.stores)
    {extent : Extent} {token : Token} {bytesPerSector : UInt32} {capacity : Nat}
    (made : ofExtent extent store token bytesPerSector capacity = .ok reader) (events : List (Event σ))
    (keeps : ∀ change, .meanwhile change ∈ events → ∀ world, sound world.stores → sound (change world).stores) :
    let plain : Plain :=
      { image
        start := extent.table + extent.firstSector.toNat * bytesPerSector.toNat
        size := extent.sectorCount.toNat * bytesPerSector.toNat
        width := bytesPerSector.toNat }
    let succeeded := (turns events (reader, world)).filter (!·.response.failed)
    (∀ turn ∈ turns events (reader, world), turn.response.failed = true → turn.after = turn.before) ∧
    succeeded.map (fun turn => (turn.response, turn.after)) = plain.session 0 (succeeded.map (·.request)) := by
  have positive := ofExtent_positive made
  obtain ⟨_, rfl⟩ := ofExtent_ok made
  exact turns_trusts ⟨honest, positive, .empty capacity _, initially⟩ events keeps

end Reader

namespace Scripted

theorem play_state (reply : Reply Scripted Reading) (mishaps : List Mishap) :
    (play reply mishaps).state = reply.state := by
  induction mishaps generalizing reply with
  | nil => rfl
  | cons mishap rest ih => cases mishap <;> simp [play, ih]

/-- Mishaps do not make a true answer false, as long as the only count that they make up is zero. -/
theorem play_truthful {reply : Reply Scripted Reading} {mishaps : List Mishap} {bytes : List UInt8}
    (empty : ∀ count, .report count ∈ mishaps → count = 0)
    (truthful : ∀ reading, reply.result = .ok reading → reading.count = length → reading.buffer length = bytes)
    (short : length = 0 → bytes = []) (reading : Reading) (played : (play reply mishaps).result = .ok reading)
    (full : reading.count = length) : reading.buffer length = bytes := by
  induction mishaps generalizing reply with
  | nil => exact truthful reading played full
  | cons mishap rest ih =>
    have others : ∀ count, .report count ∈ rest → count = 0 :=
      fun count member => empty count (List.mem_cons_of_mem _ member)
    cases mishap with
    | fail fault => cases played
    | cancel token =>
      refine ih others (fun given same => ?_) played
      exact truthful given same
    | report count =>
      obtain rfl := empty count List.mem_cons_self
      refine ih others (fun given same none => ?_) played
      obtain rfl : 0 = length := by
        rcases result : reply.result with fault | first
        all_goals simp only [result, Except.map] at same
        · cases same
        · cases same
          exact none
      rw [short rfl]
      exact List.length_eq_zero_iff.mp (given.length_buffer 0)

theorem honest (image : Image) {script : List (Nat × Mishap)}
    (empty : ∀ read count, (read, .report count) ∈ script → count = 0) :
    store.Honest image fun s => s.image = image ∧ s.script = script := by
  constructor
  · rintro s ⟨rfl, rfl⟩ length offset reading given full
    simp only [store, read] at given
    by_cases ready : s.isOpen = true
    · rw [if_pos ready] at given
      refine play_truthful (fun count member => ?_) (fun first same none => ?_) (fun none => ?_) reading given full
      · obtain ⟨⟨index, mishap⟩, listed, chosen⟩ := List.mem_filterMap.mp member
        by_cases now : index = s.reads
        · simp only [now, ↓reduceIte, Option.some.injEq] at chosen
          exact empty index count (chosen ▸ listed)
        · simp [now] at chosen
      · cases same
        exact Reading.buffer_ofBytes none
      · simp [none, Image.slice_eq_map]
    · rw [if_neg ready] at given
      cases given
  · rintro s ⟨rfl, rfl⟩ length offset
    simp only [store, read]
    by_cases ready : s.isOpen = true
    · rw [if_pos ready, play_state]
      exact ⟨rfl, rfl⟩
    · rw [if_neg ready]
      exact ⟨rfl, rfl⟩

end Scripted

namespace Reader

/-- Ten bytes, of which a partition of two sectors with four bytes each has all but the first and
the last. The second read fails and the fourth reports that nothing was read. -/
def brittle : Scripted where
  image := ⟨10, fun offset => .ofNat offset⟩
  isOpen := true
  script := [(1, .fail .readFailed), (3, .report 0)]

/-- A read fails half way, the store is closed, opened again and read under a raised flag. -/
def ordeal : List (Event Scripted) := [
  .request (.read 7),
  .meanwhile fun world => { world with stores := { world.stores with isOpen := false } },
  .request (.readAt 0 2),
  .request (.read 4),
  .meanwhile fun world => ⟨{ world.stores with isOpen := true }, world.signals.cancel ⟨0⟩, world.notices⟩,
  .request (.read 4),
  .meanwhile fun world => { world with signals := world.signals.reset ⟨0⟩ },
  .request (.read 4),
  .request (.readAt 0 8),
  .request (.seek (-1) .cursor)]

theorem faults_invisible_ordeal : ∃ reader, ofExtent ⟨⟨0x83⟩, 1, 0, 2⟩ Scripted.store ⟨0⟩ 4 1 = .ok reader ∧
    (turns ordeal (reader, .start brittle)).map (·.response.failed) = [true, false, true, true, false, true, false] ∧
    ((turns ordeal (reader, .start brittle)).filter (!·.response.failed)).map
        (fun turn => (turn.response, turn.after)) =
      [(.bytes (.ok [1, 2]), 2), (.bytes (.ok [3, 4, 5, 6]), 6), (.position (.ok 5), 5)] := by
  obtain ⟨reader, made⟩ : ∃ reader, ofExtent ⟨⟨0x83⟩, 1, 0, 2⟩ Scripted.store ⟨0⟩ 4 1 = .ok reader := ⟨_, rfl⟩
  have empty (read count : Nat) (member : (read, .report count) ∈ brittle.script) : count = 0 := by
    simp only [brittle, List.mem_cons, Prod.mk.injEq, reduceCtorEq, and_false, Mishap.report.injEq,
      List.not_mem_nil, or_false, false_or] at member
    exact member.2
  have honest := Scripted.honest brittle.image empty
  have keeps : ∀ change, .meanwhile change ∈ ordeal → ∀ world : World Scripted,
      world.stores.image = brittle.image ∧ world.stores.script = brittle.script →
      (change world).stores.image = brittle.image ∧ (change world).stores.script = brittle.script := by
    intro change member world
    simp only [ordeal, List.mem_cons, reduceCtorEq, Event.meanwhile.injEq, List.not_mem_nil, or_false,
      false_or] at member
    rcases member with rfl | rfl | rfl <;> exact id
  have initially : (World.start brittle).stores.image = brittle.image ∧
      (World.start brittle).stores.script = brittle.script := ⟨rfl, rfl⟩
  obtain ⟨_, session⟩ := faults_invisible honest initially made ordeal keeps
  refine ⟨reader, made, ?_, session.trans ?_⟩
  all_goals
    cases made
    rfl

end Reader
end PartitionTable
