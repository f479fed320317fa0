import PartitionTable.Proofs.Reader.Reads
import PartitionTable.Proofs.Words

/-! A read as a loop over numbers of 64 bits. Each round aims at one sector, has it fetched and
copies what is wanted of it behind what was copied before. Every number that is made on the way
is checked to be one, every place in a buffer to lie in it, and every round to copy something:
the loop gives nothing at all if one of them is not so. It never gives nothing, and what it
gives is the read. -/
namespace PartitionTable

namespace Bytes

theorem slice_append_inside {front rest : List UInt8} (inside : offset + width ≤ front.length) :
    slice (front ++ rest) offset width = slice front offset width := by
  rw [slice, slice, List.drop_append_of_le_length (by omega),
    List.take_append_of_le_length (by rw [List.length_drop]; omega)]

end Bytes

namespace Reader

open Offset

/-- What a round copies from: the range of a sector, and how much of it is left out in front. -/
structure Aim where
  key : Int
  length : Nat
  skip : Nat

def aim? (reader : Reader σ) (position : Int) : Option Aim :=
  if reader.bytesPerSector = 0 then none
  else do
    let place ← unsigned? position
    let first ← signed? (Offset.alignDown place reader.bytesPerSector : Nat)
    let left ← signed? (reader.size - first)
    let length ← unsigned? (min reader.bytesPerSector.toNat left)
    let before ← signed? (position - first)
    let skip ← unsigned? before
    let key ← signed? (reader.start + first)
    return { key, length, skip }

/-- Where a read goes on, and the bytes in front of the buffer that it has filled. -/
structure Registers where
  position : Int
  copied : List UInt8

/-- Copies out of the bytes of a sector until the read is complete or the sector is used up. -/
def copy? (room length : Nat) (aim : Aim) (data : List UInt8) (registers : Registers) : Option Registers := do
  let behind ← unsigned? (data.length - aim.skip)
  let missing ← unsigned? (length - registers.copied.length)
  let count := min behind missing
  let finish ← unsigned? (aim.skip + count : Nat)
  let filled ← unsigned? (registers.copied.length + count : Nat)
  let further ← signed? count
  let position ← signed? (registers.position + further)
  -- A round that copies nothing would be followed by the same round.
  if 0 < count ∧ finish ≤ data.length ∧ filled ≤ room then
    return { position, copied := registers.copied ++ Bytes.slice data aim.skip count }
  else none

def loadRange (reader : Reader σ) (offset : Int) (length : Nat) : Act (World σ) (List UInt8) := do
  if ← isCancelled reader.token then .fail .cancelled
  else if offset < 0 then .fail .outOfBounds
  else do
    note (.readingSector offset.toNat length)
    let reading ← ask (reader.store.read length offset.toNat)
    if reading.count = length then return reading.buffer length
    else refuse (.shortSector offset.toNat reading.count length) .readFailed

def copyLoop? (reader : Reader σ) (room length : Nat) :
    Nat → Registers → Cache × World σ → Option (Except Fault Registers × Cache × World σ)
  | 0, registers, state => if length ≤ registers.copied.length then some (.ok registers, state) else none
  | rounds + 1, registers, state =>
    if length ≤ registers.copied.length then some (.ok registers, state)
    else do
      let aim ← reader.aim? registers.position
      match (Cache.getOrLoad aim.key (reader.loadRange aim.key aim.length)).run state with
      | (.error fault, later) => some (.error fault, later)
      | (.ok data, later) => do
        let next ← copy? room length aim data registers
        reader.copyLoop? room length rounds next later

/-- A read into a buffer. There are as many rounds as bytes. -/
def readFrom? (reader : Reader σ) (offset : Int) (room : Nat) (world : World σ) :
    Option (Except Fault (List UInt8) × Reader σ × World σ) :=
  match signed? room with
  | none => some (.error .valueExceedsMaximum, reader, world)
  | some requested =>
    if requested = 0 ∨ reader.size ≤ offset then do
      let cursor ← unsigned? offset
      return (.ok [], { reader with cursor }, world)
    else do
      let left ← signed? (reader.size - offset)
      let length ← unsigned? (min requested left)
      let (result, cache, world) ← reader.copyLoop? room length length ⟨offset, []⟩ (reader.cache, world)
      match result with
      | .error fault => return (.error fault, { reader with cache }, world)
      | .ok registers =>
        let cursor ← unsigned? registers.position
        return (.ok registers.copied, { reader with cache, cursor }, world)

def seek? (reader : Reader σ) (base : Nat) (offset : Int) (world : World σ) : Except Fault Nat × Reader σ × World σ :=
  match signed? (base + offset) with
  | none => (.error .outOfBounds, reader, world)
  | some target =>
    if target < 0 then (.error .outOfBounds, reader, world)
    else (.ok target.toNat, { reader with cursor := target.toNat }, world)

def respond? (request : Request) (reader : Reader σ) (world : World σ) : Option (Response × Reader σ × World σ) :=
  match request with
  | .read room => (reader.readFrom? reader.cursor room world).map fun given => (.bytes given.1, given.2)
  | .readAt offset room =>
    if offset < 0 then some (.bytes (.error .outOfBounds), reader, world)
    else (reader.readFrom? offset room world).map fun given => (.bytes given.1, given.2)
  | .seek offset origin =>
    let base := match origin with
      | .start => 0
      | .cursor => reader.cursor
      | .finish => reader.size
    let given := reader.seek? base offset world
    some (.position given.1, given.2)

/-- What the making of a reader has checked, and what stays so: the partition consists of whole
sectors and of positions, and so do the cursor and the cache. -/
structure Framed (reader : Reader σ) : Prop where
  positive : 0 < reader.bytesPerSector.toNat
  whole : reader.size = reader.extent.sectorCount.toNat * reader.bytesPerSector.toNat
  start : Fits reader.start
  size : reader.size ≤ maximum
  finish : Fits (reader.start + reader.size)
  cursor : reader.cursor ≤ maximum
  cache : reader.cache.Holds reader.Whole

variable {reader : Reader σ}

theorem Framed.sector_end (framed : reader.Framed) (inside : position < reader.size) :
    (reader.sectorOf position + 1) * reader.bytesPerSector.toNat ≤ reader.size := by
  rw [framed.whole] at inside ⊢
  exact Nat.mul_le_mul_right _ ((Nat.div_lt_iff_lt_mul framed.positive).mpr inside)

theorem Framed.aim (framed : reader.Framed) (inside : position < reader.size) :
    reader.aim? position = some {
      key := reader.sectorStart (reader.sectorOf position)
      length := reader.bytesPerSector.toNat
      skip := position % reader.bytesPerSector.toNat } := by
  have nonzero : reader.bytesPerSector ≠ 0 := by
    intro zero
    have := framed.positive
    simp [zero] at this
  let first := reader.sectorOf position * reader.bytesPerSector.toNat
  have size := framed.size
  have start := framed.start
  have finish := framed.finish
  have sector : first + reader.bytesPerSector.toNat ≤ reader.size := by
    rw [← Nat.add_one_mul]
    exact framed.sector_end inside
  have split : first + position % reader.bytesPerSector.toNat = position := Nat.div_add_mod' position _
  have limit : maximum ≤ addressLimit := by decide
  simp only [Fits] at start finish
  have place : unsigned? (position : Int) = some position := unsigned?_eq (by omega)
  have aligned : Offset.alignDown position reader.bytesPerSector = first := by
    rw [Offset.alignDown_eq, Nat.mul_comm]
    rfl
  have before : signed? (first : Int) = some (first : Int) := signed?_eq (fits_natCast (by omega))
  have left : signed? (reader.size - first : Int) = some (reader.size - first : Int) :=
    signed?_eq (by rw [Fits]; omega)
  have width : unsigned? (min (reader.bytesPerSector.toNat : Int) (reader.size - first)) =
      some reader.bytesPerSector.toNat := by
    rw [Int.min_eq_left (by omega)]
    exact unsigned?_eq (by omega)
  have apart : (position - first : Int) = (position % reader.bytesPerSector.toNat : Nat) := by omega
  have skipped : signed? (position % reader.bytesPerSector.toNat : Nat) =
      some ((position % reader.bytesPerSector.toNat : Nat) : Int) := signed?_eq (fits_natCast (by omega))
  have skip : unsigned? (position % reader.bytesPerSector.toNat : Nat) =
      some (position % reader.bytesPerSector.toNat) := unsigned?_eq (by omega)
  have key : signed? (reader.start + first) = some (reader.start + first) := signed?_eq (by rw [Fits]; omega)
  rw [aim?, if_neg nonzero]
  simp only [place, aligned, before, left, width, apart, skipped, skip, key, Option.bind_eq_bind, Option.bind_some,
    Option.pure_def]
  rw [sectorStart, Int.natCast_mul]

/-- A round copies what there is behind the skipped bytes, up to what is missing. -/
theorem copy_some {data front : List UInt8} (whole : data.length ≤ addressLimit) (rest : skip < data.length)
    (total : front.length + missing = length) (wanted : 0 < missing) (fitting : length ≤ room)
    (small : room ≤ maximum) (inside : position + missing ≤ maximum)
    (least : min (data.length - skip) missing = count) :
    copy? room length ⟨key, width, skip⟩ data ⟨(position : Nat), front⟩ =
      some ⟨(position + count : Nat), front ++ Bytes.slice data skip count⟩ := by
  have limit : maximum ≤ addressLimit := by decide
  have behind : unsigned? (data.length - skip) = some (data.length - skip) := by
    rw [← Int.ofNat_sub (Nat.le_of_lt rest)]
    exact unsigned?_eq (by omega)
  have left : unsigned? (length - front.length) = some missing := by
    rw [← Int.ofNat_sub (by omega), ← total, Nat.add_sub_cancel_left]
    exact unsigned?_eq (by omega)
  have finish : unsigned? (skip + count : Nat) = some (skip + count) := unsigned?_eq (by omega)
  have filled : unsigned? (front.length + count : Nat) = some (front.length + count) := unsigned?_eq (by omega)
  have further : signed? (count : Int) = some (count : Int) := signed?_eq (fits_natCast (by omega))
  have moved : signed? ((position : Nat) + count : Int) = some ((position + count : Nat) : Int) :=
    signed?_eq (fits_natCast (by omega))
  simp only [copy?, behind, left, least, finish, filled, further, moved, Option.bind_eq_bind, Option.bind_some,
    Option.pure_def]
  exact if_pos (by omega)

theorem sectorsTouched_one (some : 0 < count)
    (near : position % reader.bytesPerSector.toNat + count ≤ reader.bytesPerSector.toNat) :
    reader.sectorsTouched position count = 1 := by
  have split := Nat.div_add_mod' position reader.bytesPerSector.toNat
  have same : (position + count - 1) / reader.bytesPerSector.toNat = position / reader.bytesPerSector.toNat := by
    refine Nat.div_eq_of_lt_le (by omega) ?_
    rw [Nat.add_mul, Nat.one_mul]
    omega
  rw [sectorsTouched, sectorOf, sectorOf, same]
  omega

/-- A range that goes on behind its first sector touches one sector more than the rest of it. -/
theorem sectorsTouched_next (positive : 0 < reader.bytesPerSector.toNat)
    (rest : position + more = (reader.sectorOf position + 1) * reader.bytesPerSector.toNat) (some : 0 < count) :
    reader.sectorsTouched position (more + count) = reader.sectorsTouched (position + more) count + 1 := by
  have next : reader.sectorOf (position + more) = reader.sectorOf position + 1 := by
    rw [rest]
    exact Nat.mul_div_cancel _ positive
  have ordered : reader.sectorOf (position + more) ≤ reader.sectorOf (position + more + count - 1) :=
    Nat.div_le_div_right (by omega)
  rw [sectorsTouched, sectorsTouched, ← Nat.add_assoc]
  omega

theorem gather_pieces (reader : Reader σ) (sector count : Nat) (pieces : List (List UInt8)) (state : Cache × World σ) :
    reader.gather sector count pieces state =
      ((reader.gather sector count [] state).1.map (pieces.reverse.flatten ++ ·),
        (reader.gather sector count [] state).2) := by
  induction count generalizing sector pieces state with
  | zero => simp [gather, Except.map]
  | succ count ih =>
    simp only [gather]
    rcases (reader.fetch sector).run state with ⟨fault | piece, later⟩
    · rfl
    · simp only
      rw [ih (sector + 1) (piece :: pieces), ih (sector + 1) [piece]]
      rcases (reader.gather (sector + 1) count [] later).1 with fault | bytes
      · rfl
      · simp [Except.map]

/-- What was missing of a read is copied by the loop as it is cut from the gathered sectors. -/
def copied (position : Nat) (front : List UInt8) (skip missing : Nat)
    (gathered : Except Fault (List UInt8) × Cache × World σ) : Except Fault Registers × Cache × World σ :=
  (gathered.1.map fun bytes => ⟨(position + missing : Nat), front ++ Bytes.slice bytes skip missing⟩, gathered.2)

theorem copyLoop_done (reader : Reader σ) (rounds : Nat) (state : Cache × World σ)
    (complete : length ≤ registers.copied.length) :
    reader.copyLoop? room length rounds registers state = some (.ok registers, state) := by
  cases rounds <;> rw [copyLoop?, if_pos complete]

/-- What is copied after one whole sector is copied behind its bytes. -/
theorem copied_next {piece : List UInt8} (used : skip + more = piece.length) (front : List UInt8)
    (position missing : Nat) (gathered : Except Fault (List UInt8) × Cache × World σ) :
    copied (position + more) (front ++ Bytes.slice piece skip more) 0 missing gathered =
      copied position front skip (more + missing) (gathered.1.map (piece ++ ·), gathered.2) := by
  obtain ⟨fault | bytes, later⟩ := gathered
  · rfl
  · have cut : Bytes.slice (piece ++ bytes) skip (more + missing) =
        Bytes.slice piece skip more ++ Bytes.slice bytes 0 missing := by
      rw [← Bytes.slice_append_slice, Bytes.slice_append_inside (Nat.le_of_eq used), used,
        ← Nat.add_zero piece.length, Bytes.slice_append_right]
    simp only [copied, Except.map]
    rw [cut, Nat.add_assoc, List.append_assoc]

/-- The loop copies what the gathering of the sectors gives. Each round copies something, so there
are rounds enough if there are as many as bytes are missing. -/
theorem copyLoop_some (framed : reader.Framed) (rounds : Nat) (fitting : length ≤ room) (small : room ≤ maximum)
    (state : Cache × World σ) (holds : state.1.Holds reader.Whole)
    (front : List UInt8) (position missing : Nat) (total : front.length + missing = length) (wanted : 0 < missing)
    (enough : missing ≤ rounds) (inside : position + missing ≤ reader.size) :
    reader.copyLoop? room length rounds ⟨(position : Nat), front⟩ state =
      some (copied position front (position % reader.bytesPerSector.toNat) missing
        (reader.gather (reader.sectorOf position) (reader.sectorsTouched position missing) [] state)) := by
  induction rounds generalizing state front position missing with
  | zero => omega
  | succ rounds ih =>
    have size := framed.size
    have skip := Nat.mod_lt position framed.positive
    have incomplete : ¬ length ≤ front.length := by omega
    have fetch : Cache.getOrLoad (reader.sectorStart (reader.sectorOf position))
        (reader.loadRange (reader.sectorStart (reader.sectorOf position)) reader.bytesPerSector.toNat) =
        reader.fetch (reader.sectorOf position) := rfl
    obtain ⟨further, touched⟩ := Nat.exists_eq_add_of_lt (reader.sectorsTouched_pos position wanted)
    rw [Nat.zero_add] at touched
    rw [copyLoop?, if_neg incomplete, framed.aim (by omega), touched]
    simp only [Option.bind_eq_bind, Option.bind_some, fetch, gather]
    obtain ⟨_, _, _, draws⟩ := reader.fetch_draws reader.Whole (reader.sectorOf position) state
    obtain ⟨kept, whole⟩ := draws holds fun exchange _ => brings_whole exchange
    rcases run : (reader.fetch (reader.sectorOf position)).run state with ⟨fault | piece, later⟩
    all_goals rw [run] at kept whole
    · rfl
    have whole : piece.length = reader.bytesPerSector.toNat := whole piece rfl
    have bounded : piece.length ≤ addressLimit := by
      have width := reader.bytesPerSector.toNat_lt
      rw [whole, addressLimit]
      omega
    simp only
    by_cases near : position % reader.bytesPerSector.toNat + missing ≤ reader.bytesPerSector.toNat
    · have last : further = 0 := by
        rw [sectorsTouched_one wanted near] at touched
        omega
      have complete : length ≤
          (front ++ Bytes.slice piece (position % reader.bytesPerSector.toNat) missing).length := by
        rw [List.length_append, Bytes.length_slice (by omega)]
        omega
      rw [copy_some bounded (by omega) total wanted fitting small (by omega) (Nat.min_eq_right (by omega)),
        Option.bind_some, copyLoop_done reader rounds later complete, last]
      simp [gather, copied, Except.map]
    · obtain ⟨more, used⟩ := Nat.exists_eq_add_of_le (Nat.le_of_lt skip)
      obtain ⟨rest, rfl⟩ := Nat.exists_eq_add_of_le (show more ≤ missing by omega)
      have remaining : 0 < rest := by omega
      have split := Nat.div_add_mod' position reader.bytesPerSector.toNat
      have next : position + more = (reader.sectorOf position + 1) * reader.bytesPerSector.toNat := by
        rw [Nat.add_mul, Nat.one_mul, sectorOf]
        omega
      have sector : reader.sectorOf (position + more) = reader.sectorOf position + 1 := by
        rw [next]
        exact Nat.mul_div_cancel _ framed.positive
      have aligned : (position + more) % reader.bytesPerSector.toNat = 0 := by
        rw [next]
        exact Nat.mul_mod_left _ _
      rw [sectorsTouched_next framed.positive next remaining] at touched
      have copies : (front ++ Bytes.slice piece (position % reader.bytesPerSector.toNat) more).length =
          front.length + more := by
        rw [List.length_append, Bytes.length_slice (by omega)]
      rw [copy_some bounded (by omega) total wanted fitting small (by omega) (Nat.min_eq_left (by omega)),
        show piece.length - position % reader.bytesPerSector.toNat = more by omega, Option.bind_some,
        ih later kept _ (position + more) rest (by omega) remaining (by omega) (by omega),
        aligned, sector, Nat.succ.inj touched, copied_next (by omega), gather_pieces reader _ _ [piece]]
      simp

theorem readFrom_some (framed : reader.Framed) (place : offset ≤ maximum) (room : Nat) (world : World σ) :
    reader.readFrom? offset room world = some ((readFrom offset room).run (reader, world)) := by
  have limit : maximum ≤ addressLimit := by decide
  have cursor : unsigned? (offset : Nat) = some offset := unsigned?_eq (by omega)
  by_cases long : maximum < room
  · have large : signed? room = none := if_neg fun fits => by
      have := Int.ofNat_le.mp fits.2
      omega
    simp only [readFrom?, readFrom, large, long, ↓reduceIte]
  have small : room ≤ maximum := Nat.le_of_not_lt long
  have requested : signed? room = some (room : Int) := signed?_eq (fits_natCast small)
  simp only [readFrom?, readFrom, requested, long, ↓reduceIte]
  by_cases empty : (room : Int) = 0 ∨ (reader.size : Int) ≤ offset
  · have none : reader.covered offset room = 0 := by
      rw [covered]
      omega
    simp only [empty, ↓reduceIte, cursor, Option.bind_eq_bind, Option.bind_some, Option.pure_def, bytesAt, none,
      Act.run_pure, List.length_nil, Nat.add_zero]
  have size := framed.size
  have wanted : 0 < reader.covered offset room := by
    rw [covered]
    omega
  have inside : offset + reader.covered offset room ≤ reader.size := by
    rw [covered] at wanted ⊢
    omega
  have fitting : reader.covered offset room ≤ room := Nat.min_le_left _ _
  have left : signed? (reader.size - offset : Int) = some (reader.size - offset : Int) :=
    signed?_eq (by rw [Fits]; omega)
  have least : min (room : Int) (reader.size - offset) = (reader.covered offset room : Nat) := by
    rw [covered]
    omega
  have length : unsigned? (reader.covered offset room : Nat) = some (reader.covered offset room) :=
    unsigned?_eq (by omega)
  have finish : unsigned? (offset + reader.covered offset room : Nat) = some (offset + reader.covered offset room) :=
    unsigned?_eq (by omega)
  have copies := copyLoop_some framed (reader.covered offset room) fitting small (reader.cache, world) framed.cache []
    offset (reader.covered offset room) (Nat.zero_add _) wanted (Nat.le_refl _) inside
  simp only [empty, ↓reduceIte, left, least, length, copies, copied, Option.bind_eq_bind, Option.bind_some,
    Option.pure_def, bytesAt, Nat.ne_of_gt wanted, Act.run_bind]
  obtain ⟨_, _, _, draws⟩ := reader.gather_draws reader.Whole (reader.sectorOf offset)
    (reader.sectorsTouched offset (reader.covered offset room)) [] (reader.cache, world)
  obtain ⟨_, good⟩ := draws framed.cache fun exchange _ => brings_whole exchange
  rcases run : reader.gather (reader.sectorOf offset) (reader.sectorsTouched offset (reader.covered offset room)) []
    (reader.cache, world) with ⟨fault | bytes, later⟩
  all_goals rw [run] at good
  · rfl
  obtain ⟨_, consists, rfl⟩ := good bytes rfl
  have whole : (Bytes.slice bytes (offset % reader.bytesPerSector.toNat) (reader.covered offset room)).length =
      reader.covered offset room := by
    refine Bytes.length_slice ?_
    rw [consists_whole consists]
    exact touched_covers reader offset framed.positive wanted
  simp only [Except.map, finish, Option.bind_some, Act.run_pure, whole, List.nil_append]

theorem seek?_eq (reader : Reader σ) (base : Nat) (offset : Int) (world : World σ) :
    reader.seek? base offset world =
      if 0 ≤ base + offset ∧ base + offset ≤ maximum then
        (.ok (base + offset).toNat, { reader with cursor := (base + offset).toNat }, world)
      else (.error .outOfBounds, reader, world) := by
  rw [seek?]
  by_cases fits : Fits (base + offset)
  · rw [signed?_eq fits]
    simp only
    by_cases negative : base + offset < 0
    · rw [if_pos negative, if_neg (by omega)]
    · rw [if_neg negative, if_pos ⟨by omega, fits.2⟩]
  · rw [signed?, if_neg fits]
    rw [Fits] at fits
    rw [if_neg (by omega)]

theorem respond_some (framed : reader.Framed) (request : Request)
    (typed : ∀ offset length, request.range? reader.cursor = some (offset, length) → offset ≤ maximum)
    (world : World σ) : respond? request reader world = some (respond request (reader, world)) := by
  rcases range : request.range? reader.cursor with _ | ⟨offset, length⟩
  · rcases Request.range?_none range with ⟨offset, length, rfl, negative⟩ | ⟨offset, origin, rfl⟩
    · simp only [respond?, negative, ↓reduceIte, respond, readAt, Act.run_fail]
    · simp only [respond?, seek?_eq]
      rfl
  · have place := typed offset length range
    rw [respond_reading range]
    rcases Request.range?_some range with ⟨rfl, rfl⟩ | rfl
    · rw [respond?, readFrom_some framed place]
      rfl
    · rw [respond?, if_neg (Int.not_ofNat_neg offset), readFrom_some framed place]
      rfl

end Reader
end PartitionTable
