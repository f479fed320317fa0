import PartitionTable.Proofs.Cache.Recency
import PartitionTable.Proofs.Reader.Reads

/-! What a reader can do without its store. A read whose sectors are all in the cache asks for
nothing: it is answered in every world alike. A read that misses a sector comes to the store, and
where the store is out of reach it fails in the way in which every load does. -/
namespace PartitionTable

theorem Cache.contains_touch {cache : Cache} (hit : cache.find? key = some bytes) (other : Int) :
    (cache.touch key bytes).contains other = cache.contains other := by
  rw [Bool.eq_iff_iff, contains_iff, contains_iff, keys_touch]
  by_cases same : other = key
  · simp [same, mem_keys hit]
  · simp [same]

namespace Reader

/-- Every sector in which a byte lies that a read covers is in the cache. -/
def AtHand (reader : Reader σ) (offset length : Nat) : Prop :=
  ∀ place < reader.covered offset length,
    reader.cache.contains (reader.sectorStart (reader.sectorOf (offset + place))) = true

instance (reader : Reader σ) (offset length : Nat) : Decidable (reader.AtHand offset length) :=
  inferInstanceAs (Decidable (∀ _ < _, _))

/-- Whatever was reported before, a load fails in one way. -/
def Barred (reader : Reader σ) (fault : Fault) (world : World σ) : Prop :=
  ∀ sector notice, ((reader.load sector).run (world.note notice)).1 = .error fault

variable {reader : Reader σ} {world : World σ} {cache : Cache}

theorem atHand_iff (positive : 0 < reader.bytesPerSector.toNat) (some : 0 < reader.covered offset length) :
    reader.AtHand offset length ↔ ∀ further < reader.sectorsTouched offset (reader.covered offset length),
      reader.cache.contains (reader.sectorStart (reader.sectorOf offset + further)) = true := by
  have ordered (place : Nat) : reader.sectorOf offset ≤ reader.sectorOf (offset + place) :=
    Nat.div_le_div_right (Nat.le_add_right _ _)
  have last : reader.sectorOf (offset + reader.covered offset length - 1) * reader.bytesPerSector.toNat ≤
      offset + reader.covered offset length - 1 := Nat.div_mul_le_self _ _
  constructor
  · intro atHand further touched
    rcases Nat.eq_zero_or_pos further with rfl | beyond
    · exact atHand 0 some
    rw [sectorsTouched] at touched
    have before : (reader.sectorOf offset + further) * reader.bytesPerSector.toNat ≤
        offset + reader.covered offset length - 1 :=
      Nat.le_trans (Nat.mul_le_mul_right _ (by omega)) last
    have behind : offset < (reader.sectorOf offset + further) * reader.bytesPerSector.toNat :=
      (Nat.div_lt_iff_lt_mul positive).mp (Nat.lt_add_of_pos_right beyond)
    have place := atHand ((reader.sectorOf offset + further) * reader.bytesPerSector.toNat - offset) (by omega)
    rw [Nat.add_sub_cancel' (Nat.le_of_lt behind)] at place
    rwa [sectorOf, Nat.mul_div_cancel _ positive] at place
  · intro touched place below
    obtain ⟨further, same⟩ := Nat.exists_eq_add_of_le (ordered place)
    have inside : reader.sectorOf (offset + place) ≤ reader.sectorOf (offset + reader.covered offset length - 1) :=
      Nat.div_le_div_right (by omega)
    rw [same]
    exact touched further (by rw [sectorsTouched]; omega)

theorem fetch_held (held : cache.contains (reader.sectorStart sector) = true) :
    ∃ piece kept, (∀ other, kept.contains other = cache.contains other) ∧
      ∀ world, (reader.fetch sector).run (cache, world) = (.ok piece, kept, world) := by
  obtain ⟨piece, hit⟩ := Option.isSome_iff_exists.mp held
  exact ⟨piece, _, Cache.contains_touch hit, fun world => Cache.run_hit hit _ world⟩

theorem gather_held (count sector : Nat) (pieces : List (List UInt8)) (cache : Cache)
    (held : ∀ further < count, cache.contains (reader.sectorStart (sector + further)) = true) :
    ∃ bytes kept, ∀ world, reader.gather sector count pieces (cache, world) = (.ok bytes, kept, world) := by
  induction count generalizing sector pieces cache with
  | zero => exact ⟨_, _, fun _ => rfl⟩
  | succ count ih =>
    have first : cache.contains (reader.sectorStart sector) = true := held 0 (Nat.succ_pos _)
    obtain ⟨piece, kept, same, run⟩ := fetch_held first
    have rest : ∀ further < count, kept.contains (reader.sectorStart (sector + 1 + further)) = true := by
      intro further below
      rw [same, Nat.add_right_comm]
      exact held (further + 1) (Nat.succ_lt_succ below)
    obtain ⟨bytes, last, gathered⟩ := ih (sector + 1) (piece :: pieces) kept rest
    refine ⟨bytes, last, fun world => ?_⟩
    simp only [gather, run]
    exact gathered world

/-- The first sector that is not held has to be loaded, and that fails. -/
theorem gather_barred (barred : reader.Barred fault world) (count sector : Nat) (pieces : List (List UInt8))
    (cache : Cache) (missing : ∃ further < count, cache.contains (reader.sectorStart (sector + further)) = false) :
    (reader.gather sector count pieces (cache, world)).1 = .error fault := by
  induction count generalizing sector pieces cache with
  | zero =>
    obtain ⟨_, below, _⟩ := missing
    cases below
  | succ count ih =>
    cases first : cache.contains (reader.sectorStart sector) with
    | false =>
      have miss : cache.find? (reader.sectorStart sector) = none := by simpa [Cache.contains] using first
      have failed := Cache.run_failed miss (Prod.ext (barred sector _) rfl)
      simp only [gather, fetch, failed]
    | true =>
      obtain ⟨piece, kept, same, run⟩ := fetch_held first
      simp only [gather, run]
      apply ih
      obtain ⟨further, below, absent⟩ := missing
      obtain ⟨fewer, rfl⟩ : ∃ fewer, further = fewer + 1 :=
        Nat.exists_eq_succ_of_ne_zero fun zero => by simp [zero, first] at absent
      refine ⟨fewer, Nat.lt_of_succ_lt_succ below, ?_⟩
      rw [same, Nat.add_right_comm]
      exact absent

theorem bytesAt_atHand (positive : 0 < reader.bytesPerSector.toNat) (atHand : reader.AtHand offset length) :
    ∃ bytes kept, ∀ world, (reader.bytesAt offset length).run (reader.cache, world) = (.ok bytes, kept, world) := by
  rcases Nat.eq_zero_or_pos (reader.covered offset length) with none | some
  · refine ⟨[], reader.cache, fun world => ?_⟩
    simp [bytesAt, none]
  · obtain ⟨bytes, kept, gathered⟩ := reader.gather_held (reader.sectorsTouched offset (reader.covered offset length))
      (reader.sectorOf offset) [] reader.cache ((atHand_iff positive some).mp atHand)
    refine ⟨Bytes.slice bytes (offset % reader.bytesPerSector.toNat) (reader.covered offset length), kept, ?_⟩
    intro world
    simp only [bytesAt, Nat.ne_of_gt some, ↓reduceIte, Act.run_bind, gathered, Act.run_pure]

theorem bytesAt_barred (positive : 0 < reader.bytesPerSector.toNat) (apart : ¬ reader.AtHand offset length)
    (barred : reader.Barred fault world) :
    ((reader.bytesAt offset length).run (reader.cache, world)).1 = .error fault := by
  have some : 0 < reader.covered offset length := by
    refine Nat.pos_of_ne_zero fun none => apart fun place below => ?_
    omega
  have missing := mt (atHand_iff positive some).mpr apart
  simp only [Classical.not_forall, Bool.not_eq_true, exists_prop] at missing
  have failed := gather_barred barred _ _ [] reader.cache missing
  simp only [bytesAt, Nat.ne_of_gt some, ↓reduceIte, Act.run_bind]
  rcases gathered : reader.gather (reader.sectorOf offset)
    (reader.sectorsTouched offset (reader.covered offset length)) [] (reader.cache, world) with ⟨fault | bytes, later⟩
  all_goals rw [gathered] at failed
  · exact failed
  · cases failed

/-- A read whose sectors are at hand is answered in every world alike, and changes none. -/
theorem respond_atHand (range : request.range? reader.cursor = some (offset, length))
    (positive : 0 < reader.bytesPerSector.toNat) (short : length ≤ Offset.maximum)
    (atHand : reader.AtHand offset length) :
    ∃ bytes kept, ∀ world, respond request (reader, world) =
      (.bytes (.ok bytes), { reader with cache := kept, cursor := offset + bytes.length }, world) := by
  obtain ⟨bytes, kept, run⟩ := bytesAt_atHand positive atHand
  refine ⟨bytes, kept, fun world => ?_⟩
  rw [respond_reading range]
  simp only [readFrom, Nat.not_lt.mpr short, ↓reduceIte, run]

/-- Any other read fails with the fault of its first load, and leaves the cursor. -/
theorem respond_barred (range : request.range? reader.cursor = some (offset, length))
    (positive : 0 < reader.bytesPerSector.toNat) (short : length ≤ Offset.maximum)
    (apart : ¬ reader.AtHand offset length) (barred : reader.Barred fault world) :
    (respond request (reader, world)).1 = .bytes (.error fault) ∧
      (respond request (reader, world)).2.1.cursor = reader.cursor := by
  have failed := bytesAt_barred positive apart barred
  rw [respond_reading range]
  simp only [readFrom, Nat.not_lt.mpr short, ↓reduceIte]
  rcases run : (reader.bytesAt offset length).run (reader.cache, world) with ⟨other | bytes, kept, later⟩
  all_goals rw [run] at failed
  · cases failed
    exact ⟨rfl, rfl⟩
  · cases failed

end Reader
end PartitionTable
