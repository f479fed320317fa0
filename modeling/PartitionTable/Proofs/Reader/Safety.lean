import PartitionTable.Proofs.Reader.Copy

/-! A reader never leaves its partition and never its numbers. What its making has checked holds
after any requests over any store, and from it follows for the next request where it reads, that
no number and no place on the way is out of range, and how many bytes it gives. -/
namespace PartitionTable

/-- Offsets come as signed numbers of 64 bits. -/
def Request.Typed : Request → Prop
  | .read _ => True
  | .readAt offset _ | .seek offset _ => Offset.Fits offset

instance (request : Request) : Decidable request.Typed :=
  match request with
  | .read _ => inferInstanceAs (Decidable True)
  | .readAt offset _ => inferInstanceAs (Decidable (Offset.Fits offset))
  | .seek offset _ => inferInstanceAs (Decidable (Offset.Fits offset))

theorem Request.Typed.range_le {request : Request} (typed : request.Typed) (small : cursor ≤ Offset.maximum)
    (range : request.range? cursor = some (offset, length)) : offset ≤ Offset.maximum := by
  rcases range?_some range with ⟨rfl, rfl⟩ | rfl
  · exact small
  · exact Int.ofNat_le.mp typed.2

namespace Reader

open Offset

variable {reader : Reader σ} {request : Request} {cursor : Nat} {cache : Cache}

theorem ofExtent_fits {store : Store σ} {extent : Extent} {token : Token} {bytesPerSector : UInt32}
    (made : ofExtent extent store token bytesPerSector capacity = .ok reader) :
    Fits reader.start ∧ Fits reader.size ∧ Fits (reader.start + reader.size) := by
  obtain ⟨_, _, start, size, finish, rfl⟩ := ofExtent_eq_ok.mp made
  exact ⟨start, size, finish⟩

theorem ofExtent_succeeds_iff {extent : Extent} {bytesPerSector : UInt32} (nonzero : bytesPerSector ≠ 0)
    (origin : 0 ≤ extent.table) (store : Store σ) (token : Token) (capacity : Nat) :
    (∃ reader, ofExtent extent store token bytesPerSector capacity = .ok reader) ↔
      extent.table + extent.firstSector.toNat * bytesPerSector.toNat +
        extent.sectorCount.toNat * bytesPerSector.toNat ≤ maximum := by
  constructor
  · rintro ⟨reader, made⟩
    obtain ⟨_, _, _, _, finish, _⟩ := ofExtent_eq_ok.mp made
    exact finish.2
  · intro inside
    have forward (sectors : UInt32) : (0 : Int) ≤ (sectors.toNat * bytesPerSector.toNat : Nat) := Int.natCast_nonneg _
    have first := forward extent.firstSector
    have count := forward extent.sectorCount
    refine ⟨_, ofExtent_eq_ok.mpr ⟨nonzero, ?_, ?_, ?_, ?_, rfl⟩⟩
    all_goals
      rw [Fits]
      omega

theorem ofExtent_framed {store : Store σ} {extent : Extent} {token : Token} {bytesPerSector : UInt32}
    (made : ofExtent extent store token bytesPerSector capacity = .ok reader) : reader.Framed := by
  obtain ⟨start, size, finish⟩ := ofExtent_fits made
  have positive := ofExtent_positive made
  obtain ⟨_, rfl⟩ := ofExtent_ok made
  exact ⟨positive, rfl, start, Int.ofNat_le.mp size.2, finish, Nat.zero_le _, .empty capacity _⟩

/-- All that one request can do, whatever the store answers. -/
structure Contained (reader : Reader σ) (request : Request) (world : World σ)
    (given : Response × Reader σ × World σ) : Prop where
  same : given.2.1 = { reader with cursor := given.2.1.cursor, cache := given.2.1.cache }
  framed : given.2.1.Framed
  reads : ∃ trace, Served reader.store world trace given.2.2 ∧
    ∀ exchange ∈ trace, ∃ sector < reader.extent.sectorCount.toNat, exchange.ReadsSector reader sector
  count : ∀ offset length bytes, request.range? reader.cursor = some (offset, length) →
    given.1 = .bytes (.ok bytes) → bytes.length = min length (reader.size - offset)

theorem Framed.moved (framed : reader.Framed) (place : cursor ≤ maximum) (whole : cache.Holds reader.Whole) :
    Framed { reader with cursor, cache } :=
  ⟨framed.positive, framed.whole, framed.start, framed.size, framed.finish, place, whole⟩

theorem Framed.within (framed : reader.Framed) (within : reader.Within sector) :
    sector < reader.extent.sectorCount.toNat := by
  rw [Within, framed.whole] at within
  exact Nat.lt_of_mul_lt_mul_right within

theorem Framed.sector_inside (framed : reader.Framed) (below : sector < reader.extent.sectorCount.toNat) :
    reader.sectorStart sector + reader.bytesPerSector.toNat ≤ reader.start + reader.size := by
  have finish := Nat.mul_le_mul_right reader.bytesPerSector.toNat (Nat.succ_le_of_lt below)
  rw [Nat.succ_mul, ← framed.whole] at finish
  rw [sectorStart, ← Int.natCast_mul]
  omega

theorem readFrom_contained (framed : reader.Framed) (range : request.range? reader.cursor = some (offset, length))
    (place : offset ≤ maximum) (world : World σ) :
    reader.Contained request world (respond request (reader, world)) := by
  obtain ⟨result, cache, later, run, _, trace, served, reads, holds⟩ :=
    reader.readFrom_draws reader.Whole offset length world
  obtain ⟨whole, good⟩ := holds framed.cache fun exchange _ => brings_whole exchange
  rw [respond_reading range, run]
  have size := framed.size
  have count (bytes : List UInt8) (success : result = .ok bytes) : bytes.length = reader.covered offset length :=
    cuts_whole framed.positive (good bytes success)
  refine ⟨rfl, framed.moved ?_ whole, ⟨trace, served, ?_⟩, ?_⟩
  · cases result with
    | error fault => exact framed.cursor
    | ok bytes =>
      have covers := count bytes rfl
      rw [covered] at covers
      simp only
      omega
  · intro exchange member
    obtain ⟨sector, within, read⟩ := reads exchange member
    exact ⟨sector, framed.within within, read⟩
  · intro place room bytes same success
    cases range.symm.trans same
    cases success
    exact count bytes rfl

theorem respond_contained (framed : reader.Framed) (typed : request.Typed) (world : World σ) :
    reader.Contained request world (respond request (reader, world)) := by
  rcases range : request.range? reader.cursor with _ | ⟨offset, length⟩
  · let empty : Image := ⟨0, fun _ => 0⟩
    rw [respond_resting range empty]
    have place : ((reader.plain empty).respond reader.cursor request).2 ≤ maximum := by
      rcases (reader.plain empty).respond_resting range with ⟨_, stays⟩ | ⟨_, moves⟩
      · rw [stays]
        exact framed.cursor
      · exact moves
    refine ⟨rfl, framed.moved place framed.cache, ⟨[], .rest, nofun⟩, ?_⟩
    intro offset length bytes same
    cases range.symm.trans same
  · exact readFrom_contained framed range (typed.range_le framed.cursor range) world

theorem after_framed (framed : reader.Framed) (events : List (Event σ))
    (typed : ∀ request, .request request ∈ events → request.Typed) (world : World σ)
    (reached : after events (reader, world) = (held, later)) :
    held = { reader with cursor := held.cursor, cache := held.cache } ∧ held.Framed := by
  induction events generalizing reader world with
  | nil =>
    cases reached
    exact ⟨rfl, framed⟩
  | cons event rest ih =>
    have others : ∀ request, .request request ∈ rest → request.Typed :=
      fun request member => typed request (List.mem_cons_of_mem _ member)
    cases event with
    | meanwhile change => exact ih framed others (change world) reached
    | request request =>
      have contained := respond_contained framed (typed request List.mem_cons_self) world
      obtain ⟨same, kept⟩ := ih contained.framed others _ reached
      rw [contained.same] at same
      exact ⟨same, kept⟩

/-- After any requests, over a store that may answer anything, a reader puts only calls that read
one whole sector of its partition; it is served by the loop over numbers of 64 bits, so none of
those is out of range and every round copies something; a success gives what there is between
the offset and the end of the partition, up to what was asked for; and the cursor is a position. -/
theorem requests_safe {store : Store σ} {extent : Extent} {token : Token} {bytesPerSector : UInt32} {capacity : Nat}
    (made : ofExtent extent store token bytesPerSector capacity = .ok reader) (events : List (Event σ))
    (typed : ∀ request, .request request ∈ events → request.Typed) (world : World σ)
    (reached : after events (reader, world) = (held, later)) (request : Request) (own : request.Typed) :
    (∃ trace, Served store later trace (respond request (held, later)).2.2 ∧
      ∀ exchange ∈ trace, ∃ sector < extent.sectorCount.toNat,
        let place := reader.start + sector * bytesPerSector.toNat
        0 ≤ place ∧ place + bytesPerSector.toNat ≤ reader.start + reader.size ∧
          exchange.call = .read bytesPerSector.toNat place.toNat) ∧
    respond? request held later = some (respond request (held, later)) ∧
    (∀ offset length bytes, request.range? held.cursor = some (offset, length) →
      (respond request (held, later)).1 = .bytes (.ok bytes) → bytes.length = min length (reader.size - offset)) ∧
    (respond request (held, later)).2.1.cursor ≤ maximum := by
  obtain ⟨same, framed⟩ := after_framed (ofExtent_framed made) events typed world reached
  obtain ⟨cursor, cache, rfl⟩ : ∃ cursor cache, held = { reader with cursor, cache } := ⟨_, _, same⟩
  obtain ⟨_, rfl⟩ := ofExtent_ok made
  obtain ⟨_, kept, ⟨trace, served, reads⟩, count⟩ := respond_contained framed own later
  have machine := respond_some framed request (fun _ _ => own.range_le framed.cursor) later
  refine ⟨⟨trace, served, fun exchange member => ?_⟩, machine, count, kept.cursor⟩
  obtain ⟨sector, below, read⟩ := reads exchange member
  exact ⟨sector, below, read.nonnegative, framed.sector_inside below, read.call⟩

/-- A store that answers what it was told to, whatever it is asked. -/
def told : Store (List (Except Fault Reading)) where
  isOpen _ := true
  acquire answers := .ok () answers
  release answers := .ok () answers
  size answers := .ok 0 answers
  read _ _
    | [] => .error .readFailed []
    | answer :: rest => { result := answer, state := rest }

def lies : World (List (Except Fault Reading)) := .start [.ok ⟨4, [7]⟩, .ok ⟨4, [1, 2, 3, 4, 5, 6]⟩]

def wandering : List (Event (List (Except Fault Reading))) := [.request (.seek 4 .start), .request (.read 3)]

/-- Three sectors, of which the first begins before the store does. -/
theorem requests_safe_told : ∃ reader held later, ofExtent ⟨⟨0x83⟩, -6, 1, 3⟩ told ⟨0⟩ 4 1 = .ok reader ∧
    after wandering (reader, lies) = (held, later) ∧
    respond? (.readAt 4 99) held later = some (respond (.readAt 4 99) (held, later)) ∧
    (respond (.readAt 4 99) (held, later)).1 = .bytes (.ok [7, 0, 0, 0, 1, 2, 3, 4]) ∧
    (respond (.readAt 4 99) (held, later)).2.1.cursor = 12 := by
  have typed : ∀ request, .request request ∈ wandering → request.Typed := by
    intro request member
    simp only [wandering, List.mem_cons, Event.request.injEq, List.not_mem_nil, or_false] at member
    rcases member with rfl | rfl <;> decide
  obtain ⟨reader, made⟩ : ∃ reader, ofExtent ⟨⟨0x83⟩, -6, 1, 3⟩ told ⟨0⟩ 4 1 = .ok reader := ⟨_, rfl⟩
  have given : (respond (.readAt 4 99) (after wandering (reader, lies))).1 = .bytes (.ok [7, 0, 0, 0, 1, 2, 3, 4]) ∧
      (respond (.readAt 4 99) (after wandering (reader, lies))).2.1.cursor = 12 := by
    cases made
    constructor <;> rfl
  rcases reached : after wandering (reader, lies) with ⟨held, later⟩
  rw [reached] at given
  obtain ⟨_, machine, _, _⟩ := requests_safe made wandering typed lies reached (.readAt 4 99) (by decide)
  exact ⟨reader, held, later, made, reached, machine, given⟩

end Reader
end PartitionTable
