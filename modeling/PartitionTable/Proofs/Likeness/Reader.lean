import PartitionTable.Proofs.Likeness.Volume
import PartitionTable.Proofs.Reader.Reads

/-! Two readers that differ only in the store and in the token. Over stores that cannot be told apart
they answer every request alike, keep the same sectors and stand at the same place. -/
namespace PartitionTable.Reader

variable {left : Store σ} {right : Store τ} {token other : Token} {alike : World σ → World τ → Prop}
  {reader : Reader σ} {twin : Reader τ}

theorem load_agrees (stores : left.Alike right token other alike)
    (twins : reader.Twins left right token other twin) (sector : Nat) :
    Act.Agrees alike (reader.load sector) (twin.load sector) := by
  obtain ⟨rfl, rfl, rfl⟩ := twins
  have place : (reader.moved right other).sectorStart sector = reader.sectorStart sector := rfl
  have width : (reader.moved right other).bytesPerSector = reader.bytesPerSector := rfl
  simp only [load, place, width]
  refine .bind (.isCancelled stores) fun raised => ?_
  split
  · exact .fail _
  split
  · exact .fail _
  refine .bind (.note stores _) fun _ => .bind (.read stores _ _) fun reading => ?_
  split
  · exact .pure _
  · exact .refuse stores _ _

theorem fetch_agrees (stores : left.Alike right token other alike)
    (twins : reader.Twins left right token other twin) (sector : Nat) :
    Act.Agrees (Both Eq alike) (reader.fetch sector) (twin.fetch sector) := by
  rintro ⟨cache, w⟩ ⟨_, u⟩ ⟨rfl, related⟩
  have place : twin.sectorStart sector = reader.sectorStart sector := by rw [twins.same]; rfl
  simp only [fetch, place]
  rcases hit : cache.find? (reader.sectorStart sector) with _ | bytes
  · have missed := stores.noted w u (.cacheMiss (reader.sectorStart sector)) related
    obtain ⟨fault | bytes, w', u', run, ran, later⟩ := (load_agrees stores twins sector).runs missed
    · rw [Cache.run_failed hit run, Cache.run_failed hit ran]
      exact ⟨rfl, rfl, later⟩
    · rw [Cache.run_loaded hit run, Cache.run_loaded hit ran]
      refine ⟨rfl, rfl, ?_⟩
      cases cache.oldest? with
      | none => exact later
      | some => exact stores.noted _ _ _ later
  · rw [Cache.run_hit hit, Cache.run_hit hit]
    exact ⟨rfl, rfl, related⟩

theorem gather_agrees (stores : left.Alike right token other alike)
    (twins : reader.Twins left right token other twin) (sector count : Nat) (pieces : List (List UInt8)) :
    Act.Agrees (Both Eq alike) ⟨reader.gather sector count pieces⟩ ⟨twin.gather sector count pieces⟩ := by
  induction count generalizing sector pieces with
  | zero => exact fun one two both => ⟨rfl, both⟩
  | succ count ih =>
    intro one two both
    obtain ⟨fault | piece, later, later', run, ran, after⟩ := (fetch_agrees stores twins sector).runs both
    · simp only [gather, run, ran]
      exact ⟨trivial, after⟩
    · simp only [gather, run, ran]
      exact ih (sector + 1) (piece :: pieces) later later' after

theorem bytesAt_agrees (stores : left.Alike right token other alike)
    (twins : reader.Twins left right token other twin) (offset length : Nat) :
    Act.Agrees (Both Eq alike) (reader.bytesAt offset length) (twin.bytesAt offset length) := by
  have gathered := gather_agrees stores twins
  obtain ⟨_, _, rfl⟩ := twins
  have covered : (reader.moved right other).covered offset length = reader.covered offset length := rfl
  simp only [bytesAt, covered]
  split
  · exact .pure _
  · exact .bind (gathered _ _ []) fun bytes => .pure _

theorem readFrom_agrees (stores : left.Alike right token other alike) (offset length : Nat) :
    Act.Agrees (Both (Twins left right token other) alike) (readFrom offset length) (readFrom offset length) := by
  rintro ⟨reader, w⟩ ⟨twin, u⟩ ⟨twins, related⟩
  have twins : reader.Twins left right token other twin := twins
  have same : twin.cache = reader.cache := by rw [twins.same, moved]
  have both : Both Eq alike (reader.cache, w) (twin.cache, u) := ⟨same.symm, related⟩
  obtain ⟨result, ⟨cache, w'⟩, ⟨_, u'⟩, run, ran, rfl, later⟩ :=
    (bytesAt_agrees stores twins offset length).runs both
  obtain ⟨rfl, rfl, rfl⟩ := twins
  simp only [readFrom]
  split
  · exact ⟨rfl, ⟨rfl, rfl, rfl⟩, related⟩
  rw [run, ran]
  cases result with
  | error fault => exact ⟨rfl, ⟨rfl, rfl, rfl⟩, later⟩
  | ok bytes => exact ⟨rfl, ⟨rfl, rfl, rfl⟩, later⟩

theorem respond_agrees (stores : left.Alike right token other alike) (request : Request) {one : Reader σ × World σ}
    {two : Reader τ × World τ} (both : Both (Twins left right token other) alike one two) :
    (respond request one).1 = (respond request two).1 ∧
      Both (Twins left right token other) alike (respond request one).2 (respond request two).2 := by
  obtain ⟨reader, w⟩ := one
  obtain ⟨twin, u⟩ := two
  have twins : reader.Twins left right token other twin := both.1
  have cursor : twin.cursor = reader.cursor := by rw [twins.same, moved]
  rcases range : request.range? reader.cursor with _ | ⟨offset, length⟩
  all_goals have also := cursor ▸ range
  · rw [respond_resting range ⟨0, fun _ => 0⟩, respond_resting also ⟨0, fun _ => 0⟩]
    obtain ⟨⟨rfl, rfl, rfl⟩, related⟩ := both
    exact ⟨rfl, ⟨rfl, rfl, rfl⟩, related⟩
  · rw [respond_reading range, respond_reading also]
    obtain ⟨same, later⟩ := readFrom_agrees stores offset length _ _ both
    exact ⟨congrArg Response.bytes same, later⟩

end PartitionTable.Reader
