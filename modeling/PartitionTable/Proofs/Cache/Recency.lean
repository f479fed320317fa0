import PartitionTable.Proofs.Cache

/-! A cache beside the log of its uses. The log forgets nothing, so what a cache ought to hold
can be read off it: the keys that were used last, each with the bytes of its last load. One
call keeps the two together, and with it any number of calls. -/
namespace PartitionTable

/-- A call for the bytes under a key, with the way to load them. -/
structure Query (σ : Type) where
  key : Int
  load : Act (World σ) (List UInt8)

/-- A call that brought bytes, and whether it had to load them. -/
structure Use where
  key : Int
  bytes : List UInt8
  loaded : Bool
  deriving DecidableEq, Repr

abbrev UseLog := List Use

namespace UseLog

/-- The keys in the order of their last use, most recent first. -/
def recent (log : UseLog) : List Int := (log.map (·.key)).eraseDups

def residents (log : UseLog) (capacity : Nat) : List Int := log.recent.take capacity

def lastLoad? (log : UseLog) (key : Int) : Option (List UInt8) :=
  (log.find? fun use => use.loaded && use.key == key).map (·.bytes)

def held? (log : UseLog) (capacity : Nat) (key : Int) : Option (List UInt8) :=
  if key ∈ log.residents capacity then log.lastLoad? key else none

def leaving? (log : UseLog) (capacity : Nat) : Option Int := (log.residents capacity)[capacity - 1]?

/-- One call. The load runs only for a key that is not resident, and a load that fails is not
written down. -/
def answer (capacity : Nat) (query : Query σ) (log : UseLog) (world : World σ) :
    Except Fault (List UInt8) × UseLog × World σ :=
  match log.held? capacity query.key with
  | some bytes => (.ok bytes, ⟨query.key, bytes, false⟩ :: log, world)
  | none =>
    match query.load.run (world.note (.cacheMiss query.key)) with
    | (.error fault, later) => (.error fault, log, later)
    | (.ok bytes, later) =>
      (.ok bytes, ⟨query.key, bytes, true⟩ :: log, later.evicted (log.leaving? capacity))

def serve (capacity : Nat) : List (Query σ) → UseLog × World σ →
    List (Except Fault (List UInt8)) × UseLog × World σ
  | [], state => ([], state)
  | query :: rest, (log, world) =>
    let (result, state) := answer capacity query log world
    let (results, state) := serve capacity rest state
    (result :: results, state)

end UseLog

section EraseDups

variable [BEq α] [LawfulBEq α]

theorem eraseDups_filter (keep : α → Bool) : ∀ l : List α, (l.filter keep).eraseDups = l.eraseDups.filter keep
  | [] => rfl
  | a :: rest => by
    have shorter := eraseDups_filter keep (rest.filter fun b => !b == a)
    rw [List.filter_filter] at shorter
    rw [List.eraseDups_cons]
    by_cases kept : keep a = true
    · rw [List.filter_cons_of_pos kept, List.filter_cons_of_pos kept, List.eraseDups_cons, List.filter_filter,
        ← shorter]
      simp only [Bool.and_comm]
    · have same : (rest.filter fun b => keep b && !b == a) = rest.filter keep := by
        refine List.filter_congr fun b _ => ?_
        by_cases equal : b = a
        · simp [equal, kept]
        · simp [equal]
      rw [List.filter_cons_of_neg kept, List.filter_cons_of_neg kept, ← shorter, same]
termination_by l => l.length
decreasing_by exact Nat.lt_succ_of_le (List.length_filter_le ..)

theorem nodup_eraseDups : ∀ l : List α, l.eraseDups.Nodup
  | [] => List.nodup_nil
  | a :: rest => by
    rw [List.eraseDups_cons, List.nodup_cons]
    exact ⟨by simp, nodup_eraseDups _⟩
termination_by l => l.length
decreasing_by exact Nat.lt_succ_of_le (List.length_filter_le ..)

end EraseDups

section TakeFilter

variable [BEq α] [LawfulBEq α] {a : α}

theorem take_filter_of_mem {l : List α} (distinct : l.Nodup) (member : a ∈ l.take (n + 1)) :
    (l.filter (· != a)).take n = (l.take (n + 1)).filter (· != a) := by
  induction l generalizing n with
  | nil => simp
  | cons b rest ih =>
    obtain ⟨fresh, distinct⟩ := List.nodup_cons.mp distinct
    by_cases same : b = a
    · subst same
      have whole (part : List α) (inside : part ⊆ rest) : part.filter (· != b) = part := by
        refine List.filter_eq_self.mpr fun c member => ?_
        have apart : c ≠ b := fun equal => fresh (equal ▸ inside member)
        simpa using apart
      simp [whole rest (List.Subset.refl rest), whole _ (List.take_subset n rest)]
    · have later : a ∈ rest.take n := by simpa [Ne.symm same] using member
      cases n with
      | zero => simp at later
      | succ n => simp [same, ih distinct later]

theorem take_filter_of_not_mem {l : List α} (absent : a ∉ l.take n) : (l.filter (· != a)).take n = l.take n := by
  induction l generalizing n with
  | nil => simp
  | cons b rest ih =>
    cases n with
    | zero => simp
    | succ n =>
      rw [List.take_succ_cons, List.mem_cons, not_or] at absent
      simp [Ne.symm absent.1, ih absent.2]

end TakeFilter

namespace UseLog

theorem recent_cons (use : Use) (log : UseLog) :
    recent (use :: log) = use.key :: (recent log).filter (· != use.key) := by
  rw [recent, List.map_cons, List.eraseDups_cons, eraseDups_filter]
  rfl

theorem residents_cons (use : Use) (log : UseLog) (places : Nat) : residents (use :: log) (places + 1) =
    use.key :: ((recent log).filter (· != use.key)).take places := by
  rw [residents, recent_cons, List.take_succ_cons]

theorem lastLoad?_loaded (key : Int) (bytes : List UInt8) (log : UseLog) (other : Int) :
    lastLoad? (⟨key, bytes, true⟩ :: log) other = if key = other then some bytes else lastLoad? log other := by
  by_cases same : key = other
  · simp [lastLoad?, same]
  · simp [lastLoad?, same]

theorem lastLoad?_used (key : Int) (bytes : List UInt8) (log : UseLog) (other : Int) :
    lastLoad? (⟨key, bytes, false⟩ :: log) other = lastLoad? log other := by
  simp [lastLoad?]

end UseLog

namespace Cache

def serve : List (Query σ) → Cache × World σ → List (Except Fault (List UInt8)) × Cache × World σ
  | [], state => ([], state)
  | query :: rest, state =>
    let (result, state) := (getOrLoad query.key query.load).run state
    let (results, state) := serve rest state
    (result :: results, state)

/-- A cache holds what its log says, in the order of the log. -/
structure Remembers (cache : Cache) (log : UseLog) (places : Nat) : Prop where
  capacity : cache.capacity = places
  positive : 0 < places
  keys : cache.keys = log.residents places
  loads : cache.Holds fun key bytes => log.lastLoad? key = some bytes

theorem contains_iff (cache : Cache) (key : Int) : cache.contains key = true ↔ key ∈ cache.keys := by
  rw [contains, find?, List.lookup_isSome_iff, keys, List.mem_map]
  simp only [beq_iff_eq, @eq_comm _ key]

theorem mem_keys {cache : Cache} (hit : cache.find? key = some bytes) : key ∈ cache.keys :=
  (cache.contains_iff key).mp (by rw [contains, hit, Option.isSome_some])

theorem not_mem_keys {cache : Cache} (miss : cache.find? key = none) : key ∉ cache.keys := by
  rw [← contains_iff, contains, miss]
  exact Bool.false_ne_true

theorem keys_touch (cache : Cache) (key : Int) (bytes : List UInt8) :
    (cache.touch key bytes).keys = key :: cache.keys.filter (· != key) := by
  simp [keys, touch, List.filter_map, Function.comp_def]

theorem keys_insert_evict (cache : Cache) (key : Int) (bytes : List UInt8) :
    (cache.evict.insert key bytes).keys = key :: cache.keys.take (cache.capacity - 1) := by
  simp [keys, evict, insert]

namespace Remembers

variable {cache : Cache} {log : UseLog}

theorem empty (requested : Nat) : (ofCapacity requested).Remembers [] (max requested 1) where
  capacity := rfl
  positive := by omega
  keys := by simp [Cache.keys, ofCapacity, UseLog.residents, UseLog.recent]
  loads := Holds.empty requested _

theorem held? (remembers : cache.Remembers log places) (key : Int) : log.held? places key = cache.find? key := by
  rw [UseLog.held?, ← remembers.keys]
  rcases hit : cache.find? key with _ | bytes
  · rw [if_neg (not_mem_keys hit)]
  · rw [if_pos (mem_keys hit)]
    exact remembers.loads.found hit

theorem oldest? (remembers : cache.Remembers log places) : cache.oldest? = log.leaving? places := by
  have few : cache.size ≤ places := by
    have := congrArg List.length remembers.keys
    rw [Cache.keys, List.length_map, UseLog.residents, List.length_take] at this
    rw [size]
    omega
  have positive := remembers.positive
  rw [UseLog.leaving?, ← remembers.keys, Cache.oldest?, remembers.capacity, Cache.keys, List.getElem?_map]
  by_cases full : places ≤ cache.size
  · have last : places - 1 = cache.sectors.length - 1 := by
      rw [size] at full few
      omega
    rw [if_pos full, List.getLast?_eq_getElem?, last]
  · rw [if_neg full, List.getElem?_eq_none (by rw [size] at full; omega)]
    rfl

theorem touch (remembers : cache.Remembers log places) (hit : cache.find? key = some bytes) :
    (cache.touch key bytes).Remembers (⟨key, bytes, false⟩ :: log) places where
  capacity := remembers.capacity
  positive := remembers.positive
  keys := by
    obtain ⟨others, rfl⟩ := Nat.exists_eq_succ_of_ne_zero (Nat.ne_of_gt remembers.positive)
    have resident : key ∈ log.residents (others + 1) := remembers.keys ▸ mem_keys hit
    rw [keys_touch, remembers.keys, UseLog.residents_cons, UseLog.recent,
      take_filter_of_mem (nodup_eraseDups _) resident]
    rfl
  loads := by
    have known : cache.Holds fun other given => UseLog.lastLoad? (⟨key, bytes, false⟩ :: log) other = some given := by
      intro sector member
      rw [UseLog.lastLoad?_used]
      exact remembers.loads sector member
    exact known.touch (known.found hit)

theorem insert (remembers : cache.Remembers log places) (miss : cache.find? key = none) (bytes : List UInt8) :
    (cache.evict.insert key bytes).Remembers (⟨key, bytes, true⟩ :: log) places where
  capacity := remembers.capacity
  positive := remembers.positive
  keys := by
    obtain ⟨others, rfl⟩ := Nat.exists_eq_succ_of_ne_zero (Nat.ne_of_gt remembers.positive)
    have absent : key ∉ log.residents (others + 1) := remembers.keys ▸ not_mem_keys miss
    have fewer : key ∉ log.recent.take others := fun member =>
      absent (List.take_subset_take_left _ (Nat.le_succ others) member)
    rw [keys_insert_evict, remembers.keys, remembers.capacity, UseLog.residents_cons,
      take_filter_of_not_mem fewer, UseLog.residents, List.take_take, Nat.succ_sub_one,
      Nat.min_eq_left (Nat.le_succ others)]
  loads := by
    have absent := not_mem_keys miss
    have known : cache.Holds fun other given => UseLog.lastLoad? (⟨key, bytes, true⟩ :: log) other = some given := by
      intro sector member
      have apart : key ≠ sector.1 := fun same => absent (same ▸ List.mem_map_of_mem member)
      rw [UseLog.lastLoad?_loaded, if_neg apart]
      exact remembers.loads sector member
    refine known.evict.insert ?_
    rw [UseLog.lastLoad?_loaded, if_pos rfl]

/-- A call is answered as the log says, and the cache goes on like the log. -/
theorem answer (remembers : cache.Remembers log places) (query : Query σ) (world : World σ) :
    ∃ kept : Cache, (getOrLoad query.key query.load).run (cache, world) =
        ((log.answer places query world).1, kept, (log.answer places query world).2.2) ∧
      kept.Remembers (log.answer places query world).2.1 places := by
  rw [UseLog.answer, remembers.held?]
  rcases hit : cache.find? query.key with _ | bytes
  · rcases run : query.load.run (world.note (.cacheMiss query.key)) with ⟨fault | bytes, later⟩
    · exact ⟨cache, run_failed hit run, remembers⟩
    · refine ⟨_, ?_, remembers.insert hit bytes⟩
      rw [run_loaded hit run, remembers.oldest?]
  · exact ⟨_, run_hit hit query.load world, remembers.touch hit⟩

theorem serve (remembers : cache.Remembers log places) (queries : List (Query σ)) (world : World σ) :
    ∃ kept : Cache, Cache.serve queries (cache, world) =
        ((UseLog.serve places queries (log, world)).1, kept, (UseLog.serve places queries (log, world)).2.2) ∧
      kept.Remembers (UseLog.serve places queries (log, world)).2.1 places := by
  induction queries generalizing cache log world with
  | nil => exact ⟨cache, rfl, remembers⟩
  | cons query rest ih =>
    obtain ⟨middle, run, later⟩ := remembers.answer query world
    obtain ⟨kept, runs, last⟩ := ih later (log.answer places query world).2.2
    refine ⟨kept, ?_, last⟩
    simp only [Cache.serve, UseLog.serve, run, runs]

end Remembers
end Cache
end PartitionTable
