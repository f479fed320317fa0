import PartitionTable.Probe
import PartitionTable.Proofs.BootRecord

/-! The quick look as a visit to a store that may answer anything. A visit opens and closes the store
only if it found it closed, asks it for the first sector once, and ends with the first failure that it
meets, that of the closing last. What it says of a sector is told by the places in it. -/
namespace PartitionTable

namespace Bytes

theorem contains_take_iff (pattern : List UInt8) (long : width ≤ bytes.length) :
    contains (bytes.take width) pattern = true ↔
      ∃ position, position + pattern.length ≤ width ∧ slice bytes position pattern.length = pattern := by
  have front (position : Nat) (inside : position + pattern.length ≤ width) :
      slice (bytes.take width) position pattern.length = slice bytes position pattern.length := by
    have cut : slice (slice bytes 0 width) position pattern.length = slice bytes (0 + position) pattern.length :=
      slice_slice inside
    rwa [Nat.zero_add] at cut
  simp only [contains, List.any_eq_true, List.mem_range, List.length_take, Nat.min_eq_left long, beq_iff_eq]
  constructor
  · rintro ⟨position, early, same⟩
    have inside : position + pattern.length ≤ width := by omega
    exact ⟨position, inside, front position inside ▸ same⟩
  · rintro ⟨position, inside, same⟩
    exact ⟨position, by omega, (front position inside).trans same⟩

end Bytes

namespace Probe

def ntfs : List UInt8 := ['N', 'T', 'F', 'S'].map fun letter => .ofNat letter.toNat

def fat : List UInt8 := ['F', 'A', 'T'].map fun letter => .ofNat letter.toNat

theorem fileSystemNames_eq : fileSystemNames = [ntfs, fat] := by decide

def NamedAt (sector name : List UInt8) (position : Nat) : Prop :=
  position + name.length ≤ 446 ∧ Bytes.slice sector position name.length = name

def BeginsTable (sector : List UInt8) : Prop :=
  Bytes.slice sector 510 2 = [0x55, 0xaa] ∧ ∀ position,
    ¬ NamedAt sector ntfs position ∧ ¬ NamedAt sector fat position

/-- What is said of the first sector, from what the read of it brings. -/
inductive Finds : Except Fault Reading → Except Fault Bool → Prop where
  | failed : Finds (.error fault) (.error fault)
  | short : reading.count ≠ 512 → Finds (.ok reading) (.error .readFailed)
  | told : reading.count = 512 → (found = true ↔ BeginsTable (reading.buffer 512)) →
    Finds (.ok reading) (.ok found)

/-- The calls of a visit to a store, how it ends and how it leaves the store. -/
inductive Visits (store : Store σ) (s : σ) : List Call → Except Fault Bool → σ → Prop where
  | ready : store.isOpen s = true → Finds (store.read 512 0 s).result found →
    Visits store s [.read 512 0] found (store.read 512 0 s).state
  | refused : store.isOpen s = false → (store.acquire s).result = .error fault →
    Visits store s [.acquire] (.error fault) (store.acquire s).state
  | failed : store.isOpen s = false → (store.acquire s).result = .ok () →
    Finds (store.read 512 0 (store.acquire s).state).result (.error fault) →
    Visits store s [.acquire, .read 512 0, .release] (.error fault)
      (store.release (store.read 512 0 (store.acquire s).state).state).state
  | unreleased : store.isOpen s = false → (store.acquire s).result = .ok () →
    Finds (store.read 512 0 (store.acquire s).state).result (.ok found) →
    (store.release (store.read 512 0 (store.acquire s).state).state).result = .error fault →
    Visits store s [.acquire, .read 512 0, .release] (.error fault)
      (store.release (store.read 512 0 (store.acquire s).state).state).state
  | told : store.isOpen s = false → (store.acquire s).result = .ok () →
    Finds (store.read 512 0 (store.acquire s).state).result (.ok found) →
    (store.release (store.read 512 0 (store.acquire s).state).state).result = .ok () →
    Visits store s [.acquire, .read 512 0, .release] (.ok found)
      (store.release (store.read 512 0 (store.acquire s).state).state).state

theorem namesFileSystem_iff_namedAt {sector : List UInt8} (long : 446 ≤ sector.length) :
    namesFileSystem sector = true ↔ ∃ position,
      NamedAt sector ntfs position ∨ NamedAt sector fat position := by
  simp only [namesFileSystem, fileSystemNames_eq, BootRecord.tableOffset, List.any_cons, List.any_nil, Bool.or_false,
    Bool.or_eq_true, Bytes.contains_take_iff _ long, exists_or, NamedAt]

theorem beginsTable_iff {sector : List UInt8} (long : 446 ≤ sector.length) :
    BeginsTable sector ↔ BootRecord.hasSignature sector = true ∧ namesFileSystem sector = false := by
  have unnamed : namesFileSystem sector = false ↔ ∀ position,
      ¬ NamedAt sector ntfs position ∧ ¬ NamedAt sector fat position := by
    rw [Bool.eq_false_iff, Ne, namesFileSystem_iff_namedAt long]
    simp only [not_exists, not_or]
  rw [unnamed]
  exact and_congr_left' beq_iff_eq.symm

theorem Finds.unique (finds : Finds answer found) (again : Finds answer other) : found = other := by
  cases finds with
  | failed =>
    cases again
    rfl
  | short short =>
    cases again with
    | short => rfl
    | told full => exact absurd full short
  | told full told =>
    cases again with
    | short short => exact absurd full short
    | told _ same => rw [Bool.eq_iff_iff.mpr (told.trans same.symm)]

theorem firstSector_finds (store : Store σ) (world : World σ) :
    Finds (store.read 512 0 world.stores).result ((firstSector store).run world).1 ∧
      ((firstSector store).run world).2.stores = (store.read 512 0 world.stores).state := by
  rcases answered : (store.read BootRecord.size 0 world.stores).result with fault | reading
  all_goals
    rw [show (store.read 512 0 world.stores).result = _ from answered]
    simp only [firstSector, Act.run_bind, run_ask, answered]
  · exact ⟨.failed, rfl⟩
  by_cases full : reading.count = BootRecord.size
  case neg =>
    simp only [ne_eq, full, not_false_eq_true, ↓reduceIte]
    exact ⟨.short full, rfl⟩
  have told (found : Bool) (same : found = true ↔ BootRecord.hasSignature (reading.buffer BootRecord.size) = true ∧
      namesFileSystem (reading.buffer BootRecord.size) = false) : Finds (.ok reading) (.ok found) :=
    .told full (same.trans (beginsTable_iff (by simp [BootRecord.size])).symm)
  simp only [ne_eq, full, not_true_eq_false, ↓reduceIte]
  cases signed : BootRecord.hasSignature (reading.buffer BootRecord.size) with
  | false => exact ⟨told false (by simp [signed]), rfl⟩
  | true =>
    cases named : namesFileSystem (reading.buffer BootRecord.size) with
    | false => exact ⟨told true (by simp [signed, named]), rfl⟩
    | true => exact ⟨told false (by simp [named]), rfl⟩

/-- A visit goes on only as far as nothing failed, but a store that was opened is closed in any case. -/
theorem run_visits (store : Store σ) (world : World σ) : ∃ calls,
    Visits store world.stores calls ((run store).run world).1 ((run store).run world).2.stores := by
  simp only [run, Act.run_bind, Act.run_view]
  cases ready : store.isOpen world.stores with
  | true =>
    obtain ⟨finds, left⟩ := firstSector_finds store world
    simp only [↓reduceIte, left]
    exact ⟨_, .ready ready finds⟩
  | false =>
    simp only [Bool.false_eq_true, ↓reduceIte, Act.run_bind, run_ask]
    rcases acquired : (store.acquire world.stores).result with fault | done
    · exact ⟨_, .refused ready acquired⟩
    obtain ⟨finds, left⟩ := firstSector_finds store (world.absorb (store.acquire world.stores))
    rcases looked : (firstSector store).run (world.absorb (store.acquire world.stores)) with ⟨fault | found, later⟩
    all_goals
      rw [looked] at finds left
      change later.stores = (store.read 512 0 (store.acquire world.stores).state).state at left
      simp only [Act.run_attempt, run_ask, looked, Act.run_ofExcept, left]
    · exact ⟨_, .failed ready acquired finds⟩
    rcases released : (store.release (store.read 512 0 (store.acquire world.stores).state).state).result with
      fault | done
    · exact ⟨_, .unreleased ready acquired finds released⟩
    · exact ⟨_, .told ready acquired finds released⟩

namespace Visits

variable {store : Store σ} {s later : σ} {calls : List Call} {found : Except Fault Bool}

/-- A record of a store gains the calls of a visit, and nothing else. -/
theorem of_recorded {label : ι} {s later : σ × List (ι × Call)}
    (visits : Visits (store.recorded label) s calls found later) :
    Visits store s.1 calls found later.1 ∧ later.2 = (calls.map (label, ·)).reverse ++ s.2 := by
  cases visits with
  | ready isOpen finds => exact ⟨.ready isOpen finds, rfl⟩
  | refused closed failed => exact ⟨.refused closed failed, rfl⟩
  | failed closed acquired finds => exact ⟨.failed closed acquired finds, rfl⟩
  | unreleased closed acquired finds failed => exact ⟨.unreleased closed acquired finds failed, rfl⟩
  | told closed acquired finds released => exact ⟨.told closed acquired finds released, rfl⟩

theorem sparing (visits : Visits store s calls found later) : calls.Nodup ∧
    ∀ call ∈ calls, call = .read 512 0 ∨ store.isOpen s = false ∧ (call = .acquire ∨ call = .release) := by
  cases visits with
  | ready => exact ⟨by decide, by simp⟩
  | refused closed | failed closed | unreleased closed | told closed => exact ⟨by decide, by simp [closed]⟩

theorem keeps (visits : Visits store s calls found later)
    (refused : ∀ fault, (store.acquire s).result = .error fault → store.isOpen (store.acquire s).state = false)
    (released : ∀ t, store.isOpen (store.release t).state = false)
    (looked : store.isOpen s = true → store.isOpen (store.read 512 0 s).state = true) :
    store.isOpen later = store.isOpen s := by
  cases visits with
  | ready isOpen => exact (looked isOpen).trans isOpen.symm
  | refused closed failed => exact (refused _ failed).trans closed.symm
  | failed closed | unreleased closed | told closed => exact (released _).trans closed.symm

end Visits

/-- The quick look at a store that may answer anything: which calls it puts, how it ends and how it
leaves the store. The store is open afterwards if it was before, unless it opens or closes by itself;
and the names are searched for exactly, up to the last byte before the table. -/
theorem visit_restores (store : Store σ) (label : ι) (world : World (σ × List (ι × Call))) :
    let ended := (run (store.recorded label)).run world
    (∃ calls, ended.2.stores.2 = (calls.map (label, ·)).reverse ++ world.stores.2 ∧
      Visits store world.stores.1 calls ended.1 ended.2.stores.1 ∧ calls.Nodup ∧
      ∀ call ∈ calls, call = .read 512 0 ∨
        store.isOpen world.stores.1 = false ∧ (call = .acquire ∨ call = .release)) ∧
    ((∀ fault, (store.acquire world.stores.1).result = .error fault →
        store.isOpen (store.acquire world.stores.1).state = false) →
      (∀ s, store.isOpen (store.release s).state = false) →
      (store.isOpen world.stores.1 = true → store.isOpen (store.read 512 0 world.stores.1).state = true) →
      store.isOpen ended.2.stores.1 = store.isOpen world.stores.1) ∧
    ∀ sector name : List UInt8, sector.length = 512 →
      (Bytes.contains (sector.take 446) name = true ↔ ∃ position, NamedAt sector name position) := by
  intro ended
  obtain ⟨calls, recorded⟩ := run_visits (store.recorded label) world
  obtain ⟨visits, log⟩ := recorded.of_recorded
  refine ⟨⟨calls, log, visits, visits.sparing⟩, visits.keeps, ?_⟩
  intro sector name long
  exact Bytes.contains_take_iff name (by omega)

/-- A store that has half a sector and fails to be closed. -/
def grudging : Store Bool where
  isOpen s := s
  acquire _ := .ok () true
  release _ := .error .outOfBounds false
  size s := .ok 0 s
  read _ _ s := .ok ⟨256, []⟩ s

/-- The last three bytes before the table are FAT. -/
def brink : List UInt8 := List.replicate 443 0 ++ fat ++ List.replicate 66 0

theorem visit_restores_grudging :
    let ended := (run (grudging.recorded ())).run (.start (false, []))
    ended.1 = .error .readFailed ∧ ended.2.stores = (false, [((), .release), ((), .read 512 0), ((), .acquire)]) ∧
      grudging.isOpen ended.2.stores.1 = false ∧ Bytes.contains (brink.take 446) fat = true := by
  intro ended
  obtain ⟨_, kept, searched⟩ := visit_restores grudging () (.start (false, []))
  have same : grudging.isOpen ended.2.stores.1 = grudging.isOpen false := kept nofun (fun _ => rfl) nofun
  exact ⟨rfl, rfl, same, (searched brink _ (by decide +kernel)).mpr ⟨443, by decide, by decide +kernel⟩⟩

end Probe
end PartitionTable
