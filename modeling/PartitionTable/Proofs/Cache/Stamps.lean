import Mathlib.Algebra.Group.Nat.Defs
import Mathlib.Data.List.MinMax
import Mathlib.Data.List.Sort
import PartitionTable.Proofs.Cache.Recency

/-! The cache as a machine keeps it: a map in the order of the keys, and beside each sector the
stamp of its last use, taken from a clock that counts the calls. Who has to leave is found by
looking for the smallest stamp. The stamps fall in the order in which the sectors were used, so
the map answers like the cache, as long as the clock has numbers left. A load that fails uses
up a stamp, which nobody can notice. -/
namespace PartitionTable.Cache

structure Slot where
  bytes : List UInt8
  stamp : Nat
  deriving DecidableEq, Repr

structure Stamped where
  capacity : Nat
  slots : List (Int × Slot) := []
  clock : Nat := 0
  deriving DecidableEq, Repr

namespace Stamped

def ofCapacity (requested : Nat) : Stamped := { capacity := max requested 1 }

def find? (stamped : Stamped) (key : Int) : Option (List UInt8) := (stamped.slots.lookup key).map (·.bytes)

def put (stamped : Stamped) (key : Int) (bytes : List UInt8) (time : Nat) : Stamped where
  capacity := stamped.capacity
  slots := (stamped.slots.filter (·.1 != key)).orderedInsert (fun first second => first.1 ≤ second.1)
    (key, ⟨bytes, time⟩)
  clock := time

def oldest? (stamped : Stamped) : Option (Int × Slot) := stamped.slots.argmin (·.2.stamp)

def leaving? (stamped : Stamped) : Option Int :=
  if stamped.capacity ≤ stamped.slots.length then stamped.oldest?.map (·.1) else none

def without (stamped : Stamped) : Option Int → Stamped
  | none => stamped
  | some key => { stamped with slots := stamped.slots.filter (·.1 != key) }

@[simp] theorem capacity_without (stamped : Stamped) (leaving : Option Int) :
    (stamped.without leaving).capacity = stamped.capacity := by cases leaving <;> rfl

@[simp] theorem clock_without (stamped : Stamped) (leaving : Option Int) :
    (stamped.without leaving).clock = stamped.clock := by cases leaving <;> rfl

/-- One call, unless the clock has run out of numbers. -/
def answer (query : Query σ) (stamped : Stamped) (world : World σ) :
    Option (Except Fault (List UInt8) × Stamped × World σ) :=
  if Offset.addressLimit < stamped.clock + 1 then none
  else
    let time := stamped.clock + 1
    match stamped.find? query.key with
    | some bytes => some (.ok bytes, stamped.put query.key bytes time, world)
    | none =>
      match query.load.run (world.note (.cacheMiss query.key)) with
      | (.error fault, later) => some (.error fault, { stamped with clock := time }, later)
      | (.ok bytes, later) =>
        let leaving := stamped.leaving?
        some (.ok bytes, (stamped.without leaving).put query.key bytes time, later.evicted leaving)

def serve : List (Query σ) → Stamped × World σ →
    Option (List (Except Fault (List UInt8)) × Stamped × World σ)
  | [], state => some ([], state)
  | query :: rest, (stamped, world) => do
    let (result, state) ← answer query stamped world
    let (results, state) ← serve rest state
    return (result :: results, state)

theorem lookup_eq_some_iff_mem {slots : List (Int × Slot)} (distinct : (slots.map (·.1)).Nodup) :
    slots.lookup key = some slot ↔ (key, slot) ∈ slots := by
  induction slots with
  | nil => simp
  | cons first rest ih =>
    obtain ⟨other, held⟩ := first
    obtain ⟨fresh, distinct⟩ := List.nodup_cons.mp distinct
    by_cases same : key = other
    · subst same
      have absent : (key, slot) ∉ rest := fun member => fresh (List.mem_map_of_mem (f := (·.1)) member)
      simp [absent, eq_comm]
    · have beside : (key == other) = false := by simpa using same
      simp [List.lookup_cons, beside, same, ih distinct]

theorem lookup_bytes (slots : List (Int × Slot)) (key : Int) :
    (slots.map fun (key, slot) => (key, slot.bytes)).lookup key = (slots.lookup key).map (·.bytes) := by
  induction slots with
  | nil => rfl
  | cons first rest ih =>
    rw [List.map_cons, List.lookup_cons, List.lookup_cons, ih]
    cases key == first.1 <;> rfl

theorem lookup_perm {slots marked : List (Int × Slot)} (same : slots.Perm marked)
    (distinct : (marked.map (·.1)).Nodup) (key : Int) : slots.lookup key = marked.lookup key := by
  have distinct' : (slots.map (·.1)).Nodup := (same.map _).nodup_iff.mpr distinct
  refine Option.ext fun slot => ?_
  rw [lookup_eq_some_iff_mem distinct, lookup_eq_some_iff_mem distinct', same.mem_iff]

/-- The slots in the order in which a cache holds the sectors: that order is the order of the
stamps, the latest first. -/
structure Ranks (marked : List (Int × Slot)) (stamped : Stamped) (cache : Cache) : Prop where
  slots : stamped.slots.Perm marked
  sectors : cache.sectors = marked.map fun (key, slot) => (key, slot.bytes)
  falling : marked.Pairwise fun newer older => older.2.stamp < newer.2.stamp
  past : ∀ entry ∈ marked, entry.2.stamp ≤ stamped.clock
  distinct : (marked.map (·.1)).Nodup
  capacity : stamped.capacity = cache.capacity
  within : marked.length ≤ cache.capacity
  positive : 0 < cache.capacity

namespace Ranks

variable {marked : List (Int × Slot)} {stamped : Stamped} {cache : Cache}

theorem empty (requested : Nat) : Ranks [] (.ofCapacity requested) (Cache.ofCapacity requested) where
  slots := .nil
  sectors := rfl
  falling := .nil
  past := nofun
  distinct := List.nodup_nil
  capacity := rfl
  within := Nat.zero_le _
  positive := Nat.lt_of_lt_of_le Nat.zero_lt_one (Nat.le_max_right requested 1)

theorem keys (ranks : Ranks marked stamped cache) : cache.keys = marked.map (·.1) := by
  simp [Cache.keys, ranks.sectors]

theorem find? (ranks : Ranks marked stamped cache) (key : Int) : stamped.find? key = cache.find? key := by
  rw [Stamped.find?, Cache.find?, ranks.sectors, lookup_bytes, lookup_perm ranks.slots ranks.distinct]

/-- A sector that is used gets the latest stamp and comes to the front. -/
theorem put (ranks : Ranks marked stamped cache) (key : Int) (bytes : List UInt8)
    (room : (marked.filter (·.1 != key)).length < cache.capacity) :
    Ranks ((key, ⟨bytes, stamped.clock + 1⟩) :: marked.filter (·.1 != key))
      (stamped.put key bytes (stamped.clock + 1)) (cache.touch key bytes) where
  slots := (List.perm_orderedInsert ..).trans ((ranks.slots.filter _).cons _)
  sectors := by simp [touch, ranks.sectors, List.filter_map, Function.comp_def]
  falling := by
    refine List.pairwise_cons.mpr ⟨fun entry member => ?_, ranks.falling.filter _⟩
    exact Nat.lt_succ_of_le (ranks.past entry (List.mem_filter.mp member).1)
  past entry member := by
    rcases List.mem_cons.mp member with rfl | member
    · exact Nat.le_refl _
    · exact Nat.le_succ_of_le (ranks.past entry (List.mem_filter.mp member).1)
  distinct := by
    refine List.nodup_cons.mpr ⟨?_, (List.filter_sublist.map _).nodup ranks.distinct⟩
    simp
  capacity := ranks.capacity
  within := room
  positive := ranks.positive

theorem ticked (ranks : Ranks marked stamped cache) :
    Ranks marked { stamped with clock := stamped.clock + 1 } cache :=
  { ranks with past := fun entry member => Nat.le_succ_of_le (ranks.past entry member) }

theorem oldest? (ranks : Ranks (before ++ [last]) stamped cache) : stamped.oldest? = some last := by
  have present : last ∈ stamped.slots := ranks.slots.mem_iff.mpr (List.mem_append_right _ List.mem_cons_self)
  obtain ⟨_, _, later⟩ := List.pairwise_append.mp ranks.falling
  rcases found : stamped.oldest? with _ | entry
  · rw [List.argmin_eq_none.mp found] at present
    cases present
  · have smallest : entry.2.stamp ≤ last.2.stamp :=
      List.le_of_mem_argmin (f := fun entry : Int × Slot => entry.2.stamp) present found
    rcases List.mem_append.mp (ranks.slots.mem_iff.mp (List.argmin_mem found)) with member | member
    · exact absurd (later entry member last List.mem_cons_self) (Nat.not_lt.mpr smallest)
    · rw [List.mem_singleton.mp member]

theorem last (ranks : Ranks marked stamped cache) (full : cache.capacity ≤ marked.length) :
    ∃ before last, marked = before ++ [last] ∧ before.length = cache.capacity - 1 := by
  have positive := ranks.positive
  have within := ranks.within
  rcases List.eq_nil_or_concat' marked with rfl | ⟨before, last, rfl⟩
  · rw [List.length_nil] at full
    omega
  · rw [List.length_append, List.length_singleton] at full within
    exact ⟨before, last, rfl, by omega⟩

theorem leaving? (ranks : Ranks marked stamped cache) : stamped.leaving? = cache.oldest? := by
  have size : cache.size = marked.length := by rw [Cache.size, ranks.sectors, List.length_map]
  rw [Stamped.leaving?, Cache.oldest?, ranks.slots.length_eq, ranks.capacity, size]
  by_cases full : cache.capacity ≤ marked.length
  · obtain ⟨before, last, rfl, _⟩ := ranks.last full
    rw [if_pos full, if_pos full, ranks.oldest?, ranks.sectors]
    simp
  · rw [if_neg full, if_neg full]

theorem slots_without (ranks : Ranks marked stamped cache) :
    (stamped.without stamped.leaving?).slots.Perm (marked.take (cache.capacity - 1)) := by
  rw [Stamped.leaving?, ranks.slots.length_eq, ranks.capacity]
  by_cases full : cache.capacity ≤ marked.length
  · obtain ⟨before, last, rfl, length⟩ := ranks.last full
    have distinct := ranks.distinct
    rw [List.map_append, List.nodup_append] at distinct
    obtain ⟨_, _, apart⟩ := distinct
    have others : before.filter (·.1 != last.1) = before := by
      refine List.filter_eq_self.mpr fun entry member => ?_
      have other := apart entry.1 (List.mem_map_of_mem member) last.1 List.mem_cons_self
      simpa using other
    rw [if_pos full, ranks.oldest?, ← length, List.take_left]
    have same := ranks.slots.filter (·.1 != last.1)
    rw [List.filter_append, others, List.filter_cons_of_neg (by simp), List.filter_nil, List.append_nil] at same
    exact same
  · rw [if_neg full, List.take_of_length_le (by omega)]
    exact ranks.slots

theorem without (ranks : Ranks marked stamped cache) :
    Ranks (marked.take (cache.capacity - 1)) (stamped.without stamped.leaving?) cache.evict := by
  constructor
  case slots => exact ranks.slots_without
  case sectors => rw [evict, ranks.sectors, List.map_take]
  case falling => exact ranks.falling.sublist (List.take_sublist ..)
  case past =>
    intro entry member
    rw [clock_without]
    exact ranks.past entry (List.mem_of_mem_take member)
  case distinct => exact ((List.take_sublist ..).map _).nodup ranks.distinct
  case capacity => rw [capacity_without, ranks.capacity, evict]
  case within => exact Nat.le_trans (List.length_take_le ..) (Nat.sub_le ..)
  case positive => exact ranks.positive

end Ranks

def Represents (stamped : Stamped) (cache : Cache) : Prop := ∃ marked, Ranks marked stamped cache

/-- A key that is not held comes to the front of the others, as one that is used again does. -/
theorem insert_eq_touch {cache : Cache} (absent : key ∉ cache.keys) (bytes : List UInt8) :
    cache.insert key bytes = cache.touch key bytes := by
  have others : cache.sectors.filter (·.1 != key) = cache.sectors := by
    refine List.filter_eq_self.mpr fun sector member => ?_
    have apart : sector.1 ≠ key := fun same => absent (same ▸ List.mem_map_of_mem member)
    simpa using apart
  rw [insert, touch, others]

theorem not_mem_keys_evict {cache : Cache} (miss : cache.find? key = none) : key ∉ cache.evict.keys := by
  rw [keys, evict, List.map_take]
  exact fun member => not_mem_keys miss (List.mem_of_mem_take member)

/-- As long as the clock goes on, one call on the map is one on the cache. -/
theorem answer_represents {stamped : Stamped} {cache : Cache} (represents : stamped.Represents cache)
    (early : stamped.clock + 1 ≤ Offset.addressLimit) (query : Query σ) (world : World σ) :
    ∃ later : Stamped, later.clock = stamped.clock + 1 ∧
      answer query stamped world = some (((getOrLoad query.key query.load).run (cache, world)).1, later,
        ((getOrLoad query.key query.load).run (cache, world)).2.2) ∧
      later.Represents ((getOrLoad query.key query.load).run (cache, world)).2.1 := by
  obtain ⟨marked, ranks⟩ := represents
  rw [answer, if_neg (Nat.not_lt.mpr early), ranks.find?]
  rcases hit : cache.find? query.key with _ | bytes
  · rcases run : query.load.run (world.note (.cacheMiss query.key)) with ⟨fault | bytes, later⟩
    · rw [run_failed hit run]
      exact ⟨_, rfl, rfl, marked, ranks.ticked⟩
    · rw [run_loaded hit run, ← ranks.leaving?, insert_eq_touch (not_mem_keys_evict hit)]
      have room : ((marked.take (cache.capacity - 1)).filter (·.1 != query.key)).length < cache.capacity := by
        have kept := List.length_filter_le (·.1 != query.key) (marked.take (cache.capacity - 1))
        have taken := List.length_take_le (cache.capacity - 1) marked
        have := ranks.positive
        omega
      have entered := ranks.without.put query.key bytes room
      rw [clock_without] at entered
      exact ⟨_, rfl, rfl, _, entered⟩
  · rw [run_hit hit]
    have room : (marked.filter (·.1 != query.key)).length < cache.capacity := by
      obtain ⟨entry, member, same⟩ := List.mem_map.mp (ranks.keys ▸ mem_keys hit)
      have used : ¬ (entry.1 != query.key) = true := by simpa using same
      have fewer : (marked.filter (·.1 != query.key)).length < marked.length :=
        List.length_filter_lt_length_iff_exists.mpr ⟨entry, member, used⟩
      exact Nat.lt_of_lt_of_le fewer ranks.within
    exact ⟨_, rfl, rfl, _, ranks.put query.key bytes room⟩

theorem serve_represents {stamped : Stamped} {cache : Cache} (represents : stamped.Represents cache)
    (queries : List (Query σ)) (early : stamped.clock + queries.length ≤ Offset.addressLimit) (world : World σ) :
    ∃ later : Stamped, later.clock = stamped.clock + queries.length ∧
      serve queries (stamped, world) = some ((Cache.serve queries (cache, world)).1, later,
        (Cache.serve queries (cache, world)).2.2) ∧
      later.Represents (Cache.serve queries (cache, world)).2.1 := by
  induction queries generalizing stamped cache world with
  | nil => exact ⟨stamped, rfl, rfl, represents⟩
  | cons query rest ih =>
    rw [List.length_cons] at early
    obtain ⟨middle, clock, once, between⟩ := answer_represents represents (by omega) query world
    obtain ⟨later, ends, runs, last⟩ := ih between (by omega) ((getOrLoad query.key query.load).run (cache, world)).2.2
    refine ⟨later, ?_, ?_, last⟩
    · rw [ends, clock, List.length_cons]
      omega
    · simp only [serve, once, Option.bind_eq_bind, Option.bind_some, runs, Option.pure_def]
      rfl

theorem Represents.find? {stamped : Stamped} {cache : Cache} (represents : stamped.Represents cache) (key : Int) :
    stamped.find? key = cache.find? key := by
  obtain ⟨_, ranks⟩ := represents
  exact ranks.find? key

/-- What the caller of a run of calls can see: the answers, and what happened to the world. -/
def visible (run : List (Except Fault (List UInt8)) × Stamped × World σ) :
    List (Except Fault (List UInt8)) × World σ := (run.1, run.2.2)

/-- Two maps that stand for one cache cannot be told apart by calls. -/
theorem visible_serve_eq {first second : Stamped} {cache : Cache} (one : first.Represents cache)
    (other : second.Represents cache) (queries : List (Query σ))
    (early : first.clock + queries.length ≤ Offset.addressLimit)
    (early' : second.clock + queries.length ≤ Offset.addressLimit) (world : World σ) :
    (serve queries (first, world)).map visible = (serve queries (second, world)).map visible := by
  obtain ⟨_, _, run, _⟩ := serve_represents one queries early world
  obtain ⟨_, _, run', _⟩ := serve_represents other queries early' world
  rw [run, run']
  rfl

/-- A call that fails was a miss, its fault is the fault of the load, and what it leaves stands
for the same cache. -/
theorem answer_error {stamped ticked : Stamped} {cache : Cache} (represents : stamped.Represents cache)
    {query : Query σ} {world later : World σ}
    (failed : answer query stamped world = some (.error fault, ticked, later)) :
    stamped.find? query.key = none ∧
      query.load.run (world.note (.cacheMiss query.key)) = (.error fault, later) ∧
      ticked.clock = stamped.clock + 1 ∧ ticked.Represents cache := by
  obtain ⟨marked, ranks⟩ := represents
  by_cases late : Offset.addressLimit < stamped.clock + 1
  · rw [answer, if_pos late] at failed
    cases failed
  rw [answer, if_neg late] at failed
  rcases hit : stamped.find? query.key with _ | bytes
  · simp only [hit] at failed
    rcases run : query.load.run (world.note (.cacheMiss query.key)) with ⟨fault | bytes, last⟩
    all_goals
      rw [run] at failed
      cases failed
    exact ⟨rfl, rfl, rfl, marked, ranks.ticked⟩
  · simp only [hit] at failed
    cases failed

end Stamped

/-- What a cache of a number of places holds after some uses, in both forms. -/
structure Settled (cache : Cache) (stamped : Stamped) (log : UseLog) (places : Nat) : Prop where
  keys : cache.keys = log.residents places
  contains : ∀ key, (stamped.find? key).isSome = true ↔ key ∈ log.residents places
  bytes : ∀ key ∈ log.residents places, ∃ bytes, log.lastLoad? key = some bytes ∧
    cache.find? key = some bytes ∧ stamped.find? key = some bytes

theorem Remembers.settled {cache : Cache} {stamped : Stamped} {log : UseLog} (remembers : cache.Remembers log places)
    (represents : stamped.Represents cache) : Settled cache stamped log places where
  keys := remembers.keys
  contains key := by
    rw [represents.find?, ← remembers.keys, ← contains_iff]
    rfl
  bytes key resident := by
    rw [← remembers.keys, ← contains_iff, contains, Option.isSome_iff_exists] at resident
    obtain ⟨bytes, hit⟩ := resident
    exact ⟨bytes, remembers.loads.found hit, hit, by rw [represents.find?, hit]⟩

/-- Through any calls that the clock has numbers for, the cache and the map answer as the log
does: they hold the keys used last, a load runs exactly for a key that is not among them, and a
call that fails cannot be told from one that was never made. -/
theorem least_recently_used (requested : Nat) (queries : List (Query σ)) (few : queries.length < 2 ^ 64)
    (world : World σ) : ∃ (cache : Cache) (stamped : Stamped) (log : UseLog)
      (answers : List (Except Fault (List UInt8))) (later : World σ),
      UseLog.serve (max requested 1) queries ([], world) = (answers, log, later) ∧
      Cache.serve queries (ofCapacity requested, world) = (answers, cache, later) ∧
      Stamped.serve queries (.ofCapacity requested, world) = some (answers, stamped, later) ∧
      Settled cache stamped log (max requested 1) ∧
      ∀ (query : Query σ) (fault : Fault) (ticked : Stamped) (between after : World σ),
        Stamped.answer query stamped between = some (.error fault, ticked, after) →
        query.key ∉ log.residents (max requested 1) ∧
        query.load.run (between.note (.cacheMiss query.key)) = (.error fault, after) ∧
        (getOrLoad query.key query.load).run (cache, between) = (.error fault, cache, after) ∧
        (∀ key, ticked.find? key = stamped.find? key) ∧
        ∀ (more : List (Query σ)) (last : World σ), queries.length + 1 + more.length < 2 ^ 64 →
          (Stamped.serve more (ticked, last)).map Stamped.visible =
            (Stamped.serve more (stamped, last)).map Stamped.visible := by
  obtain ⟨cache, plain, remembers⟩ := (Remembers.empty requested).serve queries world
  have fresh : (Stamped.ofCapacity requested).Represents (Cache.ofCapacity requested) := ⟨[], .empty requested⟩
  have early : 0 + queries.length ≤ Offset.addressLimit := by
    rw [Offset.addressLimit]
    omega
  obtain ⟨stamped, clock, run, represents⟩ := Stamped.serve_represents fresh queries early world
  rw [plain] at run represents
  have settled := remembers.settled represents
  refine ⟨cache, stamped, _, _, _, rfl, plain, run, settled, ?_⟩
  intro query fault ticked between after failed
  obtain ⟨miss, loaded, ticks, same⟩ := Stamped.answer_error represents failed
  have held : cache.find? query.key = none := by rw [← represents.find?, miss]
  refine ⟨?_, loaded, run_failed held loaded, ?_, ?_⟩
  · rw [← settled.contains, miss]
    exact Bool.false_ne_true
  · exact fun key => by rw [same.find?, represents.find?]
  · intro more last few'
    have start : (Stamped.ofCapacity requested).clock = 0 := rfl
    refine Stamped.visible_serve_eq same represents more ?_ ?_ last
    · rw [Offset.addressLimit]
      omega
    · rw [Offset.addressLimit]
      omega

/-- Three keys in a cache for two. The second use of the first key keeps it. -/
def rota : List (Query Unit) :=
  [⟨0, .ofExcept (.ok [0])⟩, ⟨512, .ofExcept (.ok [1])⟩, ⟨0, .fail .readFailed⟩, ⟨1024, .ofExcept (.ok [2])⟩]

theorem least_recently_used_rota : rota.length < 2 ^ 64 ∧ ∃ (cache : Cache) (stamped : Stamped) (later : World Unit),
    Stamped.serve rota (.ofCapacity 2, .start ()) = some ([.ok [0], .ok [1], .ok [0], .ok [2]], stamped, later) ∧
    cache.keys = [1024, 0] ∧ stamped.find? 0 = some [0] ∧ stamped.find? 512 = none := by
  refine ⟨by decide, ?_⟩
  obtain ⟨cache, stamped, log, answers, later, plain, _, run, settled, _⟩ :=
    least_recently_used 2 rota (by decide) (.start ())
  cases plain
  refine ⟨cache, stamped, _, run, settled.keys, ?_, ?_⟩
  · obtain ⟨_, load, _, held⟩ := settled.bytes 0 (by decide)
    cases load
    exact held
  · have gone := mt (settled.contains 512).mp (by decide)
    simpa using gone

end PartitionTable.Cache
