import PartitionTable.Proofs.Reader.Sectors

/-! A reader beside a plain one that has no cache and no store: a range of an image, a cursor,
and a slice for every read. Over a store that delivers the image both give the same answers
and stand at the same place after any requests, wherever the range lies. -/
namespace PartitionTable

inductive Request where
  | read (length : Nat)
  | readAt (offset : Int) (length : Nat)
  | seek (offset : Int) (origin : Origin)
  deriving DecidableEq, Repr

inductive Response where
  | bytes (result : Except Fault (List UInt8))
  | position (result : Except Fault Nat)

/-- A partition as a range of an image, in sectors of a width. -/
structure Plain where
  image : Image
  start : Int
  size : Nat
  width : Nat

namespace Plain

/-- Every sector that a range of the partition touches lies in the image. -/
def Inside (plain : Plain) (offset count : Nat) : Prop :=
  ∀ sector : Nat, sector * plain.width < offset + count → offset < (sector + 1) * plain.width →
    plain.image.HasSector plain.width (plain.start + sector * plain.width)

theorem inside_iff (plain : Plain) (offset count : Nat) : plain.Inside offset count ↔
    ∀ sector < offset + count, sector * plain.width < offset + count → offset < (sector + 1) * plain.width →
      plain.image.HasSector plain.width (plain.start + sector * plain.width) := by
  constructor
  · exact fun inside sector _ => inside sector
  · intro inside sector before behind
    have positive : 0 < plain.width := Nat.pos_of_lt_mul_left (Nat.lt_of_le_of_lt (Nat.zero_le _) behind)
    exact inside sector (Nat.lt_of_le_of_lt (Nat.le_mul_of_pos_right sector positive) before) before behind

instance (plain : Plain) (offset count : Nat) : Decidable (plain.Inside offset count) :=
  decidable_of_iff _ (plain.inside_iff offset count).symm

/-- A read from an offset, for a cursor that stands anywhere. A failure leaves the cursor. There
is no buffer longer than the largest position. -/
def readFrom (plain : Plain) (cursor offset length : Nat) : Response × Nat :=
  if Offset.maximum < length then (.bytes (.error .valueExceedsMaximum), cursor)
  else if length = 0 ∨ plain.size ≤ offset then (.bytes (.ok []), offset)
  else
    let count := min length (plain.size - offset)
    if plain.Inside offset count then
      (.bytes (.ok (plain.image.slice (plain.start + offset).toNat count)), offset + count)
    else if plain.start + (offset / plain.width * plain.width : Nat) < 0 then (.bytes (.error .outOfBounds), cursor)
    else (.bytes (.error .readFailed), cursor)

def base (plain : Plain) (cursor : Nat) : Origin → Nat
  | .start => 0
  | .cursor => cursor
  | .finish => plain.size

def respond (plain : Plain) (cursor : Nat) : Request → Response × Nat
  | .read length => plain.readFrom cursor cursor length
  | .readAt offset length =>
    if offset < 0 then (.bytes (.error .outOfBounds), cursor) else plain.readFrom cursor offset.toNat length
  | .seek offset origin =>
    let target := plain.base cursor origin + offset
    if 0 ≤ target ∧ target ≤ Offset.maximum then (.position (.ok target.toNat), target.toNat)
    else (.position (.error .outOfBounds), cursor)

def session (plain : Plain) (cursor : Nat) : List Request → List (Response × Nat)
  | [] => []
  | request :: rest =>
    let answer := plain.respond cursor request
    answer :: plain.session answer.2 rest

end Plain

namespace Reader

def respond (request : Request) (state : Reader σ × World σ) : Response × Reader σ × World σ :=
  match request with
  | .read length =>
    let (result, state) := (read length).run state
    (.bytes result, state)
  | .readAt offset length =>
    let (result, state) := (readAt offset length).run state
    (.bytes result, state)
  | .seek offset origin =>
    let (result, state) := (seek offset origin).run state
    (.position result, state)

def session : List Request → Reader σ × World σ → List (Response × Nat)
  | [], _ => []
  | request :: rest, state =>
    let (response, state) := respond request state
    (response, state.1.cursor) :: session rest state

def plain (reader : Reader σ) (image : Image) : Plain :=
  ⟨image, reader.start, reader.size, reader.bytesPerSector.toNat⟩

section Bytes

variable {reader : Reader σ} {image : Image} {steady : σ → Prop}

/-- The sectors that are gathered for a range are those that it touches. -/
theorem inside_iff_touched (positive : 0 < reader.bytesPerSector.toNat) (some : 0 < count) :
    (reader.plain image).Inside offset count ↔ ∀ further < reader.sectorsTouched offset count,
      image.HasSector reader.bytesPerSector.toNat (reader.sectorStart (reader.sectorOf offset + further)) := by
  have before (sector : Nat) : sector * reader.bytesPerSector.toNat < offset + count ↔
      sector ≤ reader.sectorOf (offset + count - 1) := by
    rw [sectorOf, Nat.le_div_iff_mul_le positive]
    omega
  have behind (sector : Nat) : offset < (sector + 1) * reader.bytesPerSector.toNat ↔
      reader.sectorOf offset ≤ sector := by
    rw [sectorOf, ← Nat.div_lt_iff_lt_mul positive, Nat.lt_succ_iff]
  simp only [Plain.Inside, plain, before, behind, sectorsTouched]
  constructor
  · intro inside further below
    exact inside _ (by omega) (Nat.le_add_right _ _)
  · intro inside sector early late
    obtain ⟨further, rfl⟩ := Nat.exists_eq_add_of_le late
    exact inside further (by omega)

theorem touched_covers (reader : Reader σ) (offset : Nat) (positive : 0 < reader.bytesPerSector.toNat)
    (some : 0 < count) :
    offset % reader.bytesPerSector.toNat + count ≤
      reader.sectorsTouched offset count * reader.bytesPerSector.toNat := by
  have last := Nat.lt_div_mul_add (a := offset + count - 1) positive
  have split := Nat.div_add_mod offset reader.bytesPerSector.toNat
  have ordered : offset / reader.bytesPerSector.toNat ≤ (offset + count - 1) / reader.bytesPerSector.toNat :=
    Nat.div_le_div_right (by omega)
  rw [Nat.mul_comm] at split
  rw [sectorsTouched, sectorOf, sectorOf, Nat.sub_mul, Nat.add_mul, Nat.one_mul]
  have := Nat.mul_le_mul_right reader.bytesPerSector.toNat ordered
  omega

theorem sectorsTouched_pos (reader : Reader σ) (offset : Nat) (some : 0 < count) :
    0 < reader.sectorsTouched offset count := by
  have ordered : reader.sectorOf offset ≤ reader.sectorOf (offset + count - 1) := Nat.div_le_div_right (by omega)
  rw [sectorsTouched]
  omega

theorem sectorStart_sectorOf (reader : Reader σ) (offset : Nat) :
    reader.sectorStart (reader.sectorOf offset) + (offset % reader.bytesPerSector.toNat : Nat) =
      reader.start + offset := by
  have split := Nat.div_add_mod offset reader.bytesPerSector.toNat
  rw [Nat.mul_comm] at split
  rw [sectorStart, sectorOf, ← Int.natCast_mul]
  omega

/-- A range whose sectors lie in the image lies there itself. -/
theorem range_of_inside (positive : 0 < reader.bytesPerSector.toNat) (some : 0 < count)
    (inside : (reader.plain image).Inside offset count) :
    0 ≤ reader.start + offset ∧ reader.start + offset + count ≤ image.size := by
  have sectors := (inside_iff_touched positive some).mp inside
  have covers := touched_covers reader offset positive some
  have place := reader.sectorStart_sectorOf offset
  obtain ⟨further, last⟩ := Nat.exists_eq_add_of_lt (reader.sectorsTouched_pos offset some)
  rw [Nat.zero_add] at last
  rw [last] at sectors covers
  obtain ⟨first, _⟩ := sectors 0 (Nat.succ_pos _)
  obtain ⟨_, within⟩ := sectors further (Nat.lt_succ_self _)
  rw [Nat.add_zero] at first
  rw [sectorStart_add] at within
  rw [Nat.add_mul, Nat.one_mul] at covers
  constructor
  · omega
  · omega

/-- The sectors that a range within the partition touches start before its end. -/
theorem touched_near (near : reader.start + reader.size ≤ Offset.maximum)
    (positive : 0 < reader.bytesPerSector.toNat) (some : 0 < reader.covered offset length) :
    ∀ further < reader.sectorsTouched offset (reader.covered offset length),
      reader.sectorStart (reader.sectorOf offset + further) ≤ Offset.maximum := by
  intro further below
  have last : reader.sectorOf offset + further ≤ reader.sectorOf (offset + reader.covered offset length - 1) := by
    rw [sectorsTouched] at below
    omega
  have begins : (reader.sectorOf offset + further) * reader.bytesPerSector.toNat ≤
      offset + reader.covered offset length - 1 := (Nat.le_div_iff_mul_le positive).mp last
  have within : offset + reader.covered offset length ≤ reader.size := by
    rw [covered] at some ⊢
    omega
  rw [sectorStart, ← Int.natCast_mul]
  omega

theorem bytesAt_yields (delivers : reader.store.Delivers image reader.token steady)
    (positive : 0 < reader.bytesPerSector.toNat) (near : reader.start + reader.size ≤ Offset.maximum)
    (offset length : Nat) (some : 0 < reader.covered offset length) :
    (reader.bytesAt offset length).Yields (reader.Undisturbed image steady)
      (if (reader.plain image).Inside offset (reader.covered offset length)
        then .ok (image.slice (reader.start + offset).toNat (reader.covered offset length))
        else .error (Image.sectorFault (reader.sectorStart (reader.sectorOf offset)))) := by
  intro state holds
  simp only [bytesAt, Nat.ne_of_gt some, ↓reduceIte, Act.run_bind]
  have covers := touched_covers reader offset positive some
  have near := touched_near near positive some
  by_cases inside : (reader.plain image).Inside offset (reader.covered offset length)
  · rw [if_pos inside]
    have sectors := (inside_iff_touched positive some).mp inside
    obtain ⟨same, after⟩ := gather_inside delivers positive _ _ [] near sectors state holds
    obtain ⟨first, _⟩ := sectors 0 (reader.sectorsTouched_pos offset some)
    have place := reader.sectorStart_sectorOf offset
    rw [Nat.add_zero] at first
    rcases run : reader.gather (reader.sectorOf offset) (reader.sectorsTouched offset (reader.covered offset length)) []
      state with ⟨fault | bytes, later⟩
    all_goals rw [run] at same after
    · cases same
    · cases same
      refine ⟨congrArg Except.ok ?_, after⟩
      rw [List.reverse_nil, List.flatten_nil, List.nil_append, image.slice_slice covers]
      congr 1
      omega
  · rw [if_neg inside]
    have missing := mt (inside_iff_touched positive some).mpr inside
    simp only [Classical.not_forall, exists_prop] at missing
    obtain ⟨failed, after⟩ := gather_outside delivers positive _ _ [] near missing state holds
    rcases run : reader.gather (reader.sectorOf offset) (reader.sectorsTouched offset (reader.covered offset length)) []
      state with ⟨fault | bytes, later⟩
    all_goals rw [run] at failed after
    · exact ⟨failed, after⟩
    · cases failed

end Bytes

structure Mirrors (reader : Reader σ) (image : Image) (steady : σ → Prop) (world : World σ) : Prop where
  delivers : reader.store.Delivers image reader.token steady
  positive : 0 < reader.bytesPerSector.toNat
  near : reader.start + reader.size ≤ Offset.maximum
  undisturbed : reader.Undisturbed image steady (reader.cache, world)

/-- A reader gave the answer of the plain one, stands where that one stands, and stays like it. -/
structure Kept (reader : Reader σ) (image : Image) (steady : σ → Prop) (expected : Response × Nat)
    (given : Response × Reader σ × World σ) : Prop where
  answer : (given.1, given.2.1.cursor) = expected
  range : given.2.1.plain image = reader.plain image
  mirrors : given.2.1.Mirrors image steady given.2.2

variable {reader : Reader σ} {image : Image} {steady : σ → Prop} {world : World σ}

theorem Mirrors.moved (mirrors : reader.Mirrors image steady world) {kept : Cache} {later : World σ}
    (undisturbed : reader.Undisturbed image steady (kept, later)) (response : Response) (place : Nat) :
    reader.Kept image steady (response, place) (response, { reader with cursor := place, cache := kept }, later) :=
  ⟨rfl, rfl, mirrors.delivers, mirrors.positive, mirrors.near, undisturbed⟩

theorem readFrom_kept (mirrors : reader.Mirrors image steady world) (offset length : Nat) :
    reader.Kept image steady ((reader.plain image).readFrom reader.cursor offset length)
      (.bytes ((readFrom offset length).run (reader, world)).1,
        ((readFrom offset length).run (reader, world)).2) := by
  simp only [readFrom, Plain.readFrom]
  by_cases long : Offset.maximum < length
  · simp only [long, ↓reduceIte]
    exact mirrors.moved mirrors.undisturbed _ _
  simp only [long, ↓reduceIte]
  by_cases empty : length = 0 ∨ (reader.plain image).size ≤ offset
  · have none : reader.covered offset length = 0 := by
      simp only [plain] at empty
      rw [covered]
      omega
    simp only [bytesAt, none, ↓reduceIte, Act.run_pure, empty, List.length_nil, Nat.add_zero]
    exact mirrors.moved mirrors.undisturbed _ _
  have some : 0 < reader.covered offset length := by
    simp only [plain] at empty
    rw [covered]
    omega
  have count : min length ((reader.plain image).size - offset) = reader.covered offset length := rfl
  simp only [empty, ↓reduceIte, count]
  obtain ⟨same, after⟩ :=
    bytesAt_yields mirrors.delivers mirrors.positive mirrors.near offset length some _ mirrors.undisturbed
  rcases run : (reader.bytesAt offset length).run (reader.cache, world) with ⟨fault | bytes, kept, later⟩
  all_goals
    rw [run] at same after
    by_cases inside : (reader.plain image).Inside offset (reader.covered offset length)
    all_goals simp only [inside, ↓reduceIte] at same ⊢
  · cases same
  · cases same
    have place : (reader.plain image).start +
        (offset / (reader.plain image).width * (reader.plain image).width : Nat) =
        reader.sectorStart (reader.sectorOf offset) := rfl
    rw [place, Image.sectorFault]
    by_cases negative : reader.sectorStart (reader.sectorOf offset) < 0
    · rw [if_pos negative, if_pos negative]
      exact mirrors.moved after _ _
    · rw [if_neg negative, if_neg negative]
      exact mirrors.moved after _ _
  · cases same
    have range := range_of_inside mirrors.positive some inside
    have whole : (image.slice (reader.start + offset).toNat (reader.covered offset length)).length =
        reader.covered offset length := by
      rw [Image.length_slice]
      omega
    rw [whole]
    exact mirrors.moved after _ _
  · cases same

theorem run_seek (reader : Reader σ) (image : Image) (offset : Int) (origin : Origin) (world : World σ) :
    (seek offset origin).run (reader, world) =
      let target := (reader.plain image).base reader.cursor origin + offset
      if 0 ≤ target ∧ target ≤ Offset.maximum then
        (.ok target.toNat, { reader with cursor := target.toNat }, world)
      else (.error .outOfBounds, reader, world) := by
  cases origin <;> rfl

theorem respond_kept (mirrors : reader.Mirrors image steady world) (request : Request) :
    reader.Kept image steady ((reader.plain image).respond reader.cursor request)
      (respond request (reader, world)) := by
  cases request with
  | read length => exact readFrom_kept mirrors reader.cursor length
  | readAt offset length =>
    simp only [respond, Plain.respond, readAt]
    by_cases negative : offset < 0
    · simp only [negative, ↓reduceIte, Act.run_fail]
      exact mirrors.moved mirrors.undisturbed _ _
    · simp only [negative, ↓reduceIte]
      exact readFrom_kept mirrors offset.toNat length
  | seek offset origin =>
    simp only [respond, Plain.respond, run_seek reader image]
    by_cases inside : 0 ≤ ((reader.plain image).base reader.cursor origin : Int) + offset ∧
        ((reader.plain image).base reader.cursor origin : Int) + offset ≤ Offset.maximum
    · simp only [inside, and_self, ↓reduceIte]
      exact mirrors.moved mirrors.undisturbed _ _
    · simp only [inside, ↓reduceIte]
      exact mirrors.moved mirrors.undisturbed _ _

theorem session_mirrors (mirrors : reader.Mirrors image steady world) (requests : List Request) :
    session requests (reader, world) = (reader.plain image).session reader.cursor requests := by
  induction requests generalizing reader world with
  | nil => rfl
  | cons request rest ih =>
    obtain ⟨answer, range, mirrors⟩ := respond_kept mirrors request
    rw [session, Plain.session, ← answer, ← range]
    exact congrArg (_ :: ·) (ih mirrors)

/-- A reader is made if its whole range has positions, with that range and with nothing in its cache. -/
theorem ofExtent_eq_ok {store : Store σ} {extent : Extent} {token : Token} {bytesPerSector : UInt32} :
    ofExtent extent store token bytesPerSector capacity = .ok reader ↔
      let start := extent.table + extent.firstSector.toNat * bytesPerSector.toNat
      let size := extent.sectorCount.toNat * bytesPerSector.toNat
      bytesPerSector ≠ 0 ∧ Offset.Fits (extent.firstSector.toNat * bytesPerSector.toNat) ∧ Offset.Fits start ∧
        Offset.Fits size ∧ Offset.Fits (start + size) ∧
        reader = { store, token, extent, bytesPerSector, start, size, cache := .ofCapacity capacity } := by
  by_cases zero : bytesPerSector = 0
  · simp [ofExtent, zero]
  simp only [ofExtent, if_neg zero, Offset.bind_eq_ok, Offset.checked_eq_ok, Extent.start, Offset.ofSector_eq_ok,
    Extent.size, Offset.sectorBytes]
  constructor
  · rintro ⟨start, ⟨near, place, rfl⟩, _, ⟨size, rfl⟩, _, ⟨finish, rfl⟩, made⟩
    exact ⟨zero, near, place, size, finish, (Except.ok.inj made).symm⟩
  · rintro ⟨_, near, place, size, finish, rfl⟩
    exact ⟨_, ⟨near, place, rfl⟩, _, ⟨size, rfl⟩, _, ⟨finish, rfl⟩, rfl⟩

theorem ofExtent_ok {store : Store σ} {extent : Extent} {token : Token} {bytesPerSector : UInt32}
    (made : ofExtent extent store token bytesPerSector capacity = .ok reader) :
    bytesPerSector ≠ 0 ∧ reader = {
      store, token, extent, bytesPerSector
      start := extent.table + extent.firstSector.toNat * bytesPerSector.toNat
      size := extent.sectorCount.toNat * bytesPerSector.toNat
      cache := .ofCapacity capacity } := by
  obtain ⟨nonzero, _, _, _, _, same⟩ := ofExtent_eq_ok.mp made
  exact ⟨nonzero, same⟩

/-- Over any steady store that delivers an image, a reader that was made answers any requests
as the plain one does, with the same bytes, the same faults and the same cursor after each. -/
theorem session_eq_plain {store : Store σ} {token : Token} (delivers : store.Delivers image token steady)
    (ready : world.Ready token steady) {extent : Extent} {bytesPerSector : UInt32} {capacity : Nat}
    (made : ofExtent extent store token bytesPerSector capacity = .ok reader) (requests : List Request) :
    session requests (reader, world) = Plain.session
      { image
        start := extent.table + extent.firstSector.toNat * bytesPerSector.toNat
        size := extent.sectorCount.toNat * bytesPerSector.toNat
        width := bytesPerSector.toNat } 0 requests := by
  obtain ⟨nonzero, _, _, _, finish, rfl⟩ := ofExtent_eq_ok.mp made
  have positive : 0 < bytesPerSector.toNat := by
    refine Nat.pos_of_ne_zero fun none => nonzero ?_
    exact UInt32.toNat_inj.mp none
  exact session_mirrors ⟨delivers, positive, finish.2, .empty capacity _, ready⟩ requests

/-- Ten bytes, of which a partition of four sectors with four bytes each has the last nine. -/
def ruler : Memory where
  image := ⟨10, fun offset => .ofNat offset⟩
  isOpen := true

theorem session_eq_plain_ruler : ∃ reader,
    ofExtent ⟨⟨0x83⟩, 1, 0, 4⟩ Memory.store ⟨0⟩ 4 0 = .ok reader ∧
    session [.read 3, .read 4, .readAt 7 2, .seek (-3) .finish, .readAt (-1) 1, .readAt 20 1]
        (reader, .start ruler) =
      [(.bytes (.ok [1, 2, 3]), 3), (.bytes (.ok [4, 5, 6, 7]), 7), (.bytes (.error .readFailed), 7),
        (.position (.ok 13), 13), (.bytes (.error .outOfBounds), 13), (.bytes (.ok []), 20)] := by
  have delivers := Memory.delivers ruler.image ⟨0⟩
  have ready : (World.start ruler).Ready ⟨0⟩ (· = ⟨ruler.image, true⟩) := ⟨rfl, rfl⟩
  obtain ⟨reader, made⟩ : ∃ reader, ofExtent ⟨⟨0x83⟩, 1, 0, 4⟩ Memory.store ⟨0⟩ 4 0 = .ok reader := ⟨_, rfl⟩
  refine ⟨reader, made, ?_⟩
  rw [session_eq_plain delivers ready made]
  rfl

end Reader
end PartitionTable
