import PartitionTable.Proofs.Cache.Misses
import PartitionTable.Proofs.Reader.Faults
import PartitionTable.Proofs.Reader.Safety

/-! Which sectors a reader asks its store for. Every read uses the sectors that its bytes lie in,
each once and in ascending order, and the cache keeps the sectors that were used last. What comes
to the store are the misses, whatever was read before. -/
namespace PartitionTable

structure Reply.Full (reply : Reply σ Reading) (length : Nat) (token : Token) (steady : σ → Prop) : Prop where
  answer : ∃ reading, reply.result = .ok reading ∧ reading.count = length
  stays : steady reply.state
  quiet : .cancel token ∉ reply.signals

/-- A store has a range of bytes, and never fails to bring what lies in it. What the bytes are is
left open, and they may change. -/
structure Store.Furnishes (store : Store σ) (start : Int) (size : Nat) (token : Token) (steady : σ → Prop) : Prop where
  begins : 0 < size → 0 ≤ start
  serves : ∀ s, steady s → ∀ length offset : Nat, start ≤ offset → offset + length ≤ start + size →
    (store.read length offset s).Full length token steady

theorem Store.Delivers.furnishes {store : Store σ} {steady : σ → Prop} (delivers : store.Delivers image token steady)
    {start : Int} {size : Nat} (begins : 0 ≤ start) (ends : start + size ≤ image.size)
    (small : image.size ≤ Offset.maximum) : store.Furnishes start size token steady := by
  refine ⟨fun _ => begins, fun s holds length offset _ inside => ?_⟩
  have near : offset ≤ Offset.maximum := by omega
  rcases delivers.answers s holds length offset near with given | ⟨beyond, _⟩
  · refine ⟨⟨_, given, ?_⟩, delivers.stays s holds _ _ near, delivers.quiet s holds _ _ near⟩
    rw [Reading.count_ofBytes, Image.length_slice]
    omega
  · omega

theorem Store.Furnishes.recorded {store : Store σ} {start : Int} {size : Nat} {steady : σ → Prop}
    (furnishes : store.Furnishes start size token steady) (label : ι) :
    (store.recorded label).Furnishes start size token fun s => steady s.1 := by
  refine ⟨furnishes.begins, fun s holds length offset before inside => ?_⟩
  obtain ⟨answer, stays, quiet⟩ := furnishes.serves s.1 holds length offset before inside
  exact ⟨answer, stays, quiet⟩

theorem Store.reply_recorded (label : ι) (store : Store σ) (call : Call) (s : σ × List (ι × Call)) :
    (store.recorded label).reply call s = (store.reply call s.1).mapState (·, (label, call) :: s.2) := by
  cases call <;> rfl

theorem Served.recorded {store : Store σ} {world last : World (σ × List (ι × Call))}
    (served : Served (store.recorded label) world trace last) :
    last.stores.2 = ((trace.map (·.call)).map (label, ·)).reverse ++ world.stores.2 := by
  induction served with
  | rest => rfl
  | note _ ih => exact ih
  | call _ ih =>
    rw [ih, World.absorb, Store.reply_recorded]
    simp [Reply.mapState, Store.exchange]

/-- A request that reads is answered with the bytes that there are, unless its buffer is longer than
the largest position. -/
def Turn.Answered (size : Nat) (turn : Turn) : Prop :=
  ∀ start length, turn.request.range? turn.before = some (start, length) → length ≤ Offset.maximum →
    ∃ bytes, turn.response = .bytes (.ok bytes) ∧ bytes.length = min length (size - start)

/-- The sectors in which the bytes lie that a request was answered with, in ascending order. -/
def Turn.sectors (width : Nat) (turn : Turn) : List Nat :=
  match turn.request.range? turn.before, turn.response with
  | some (start, _), .bytes (.ok bytes) =>
    if bytes.length = 0 then []
    else List.range' (start / width) ((start + bytes.length - 1) / width + 1 - start / width)
  | _, _ => []

namespace Reader

def sectorCall (reader : Reader σ) (sector : Nat) : Call :=
  .read reader.bytesPerSector.toNat (reader.sectorStart sector).toNat

/-- A cache of some places holds some sectors, the one that was used last in front. -/
structure Keeps (reader : Reader σ) (places : Nat) (steady : σ → Prop) (resident : List Nat)
    (state : Cache × World σ) : Prop where
  capacity : state.1.capacity = places
  keys : state.1.keys = resident.map reader.sectorStart
  ready : state.2.Ready reader.token steady

/-- From one state to another some sectors were used, and those that were missed were loaded. -/
structure Pages (reader : Reader σ) (places : Nat) (steady : σ → Prop) (resident accesses : List Nat)
    (state later : Cache × World σ) : Prop where
  keeps : reader.Keeps places steady (accesses.foldl (Lru.use places) resident) later
  loads : ∃ trace, Served reader.store state.2 trace later.2 ∧
    trace.map (·.call) = (Lru.misses places resident accesses).map reader.sectorCall

variable {reader : Reader σ} {steady : σ → Prop} {resident : List Nat} {state middle later : Cache × World σ}

theorem Keeps.start {world : World σ} (ready : world.Ready reader.token steady) (capacity : Nat) :
    reader.Keeps (max capacity 1) steady [] (.ofCapacity capacity, world) :=
  ⟨rfl, rfl, ready⟩

theorem Pages.rest (keeps : reader.Keeps places steady resident state) :
    reader.Pages places steady resident [] state state :=
  ⟨keeps, [], .rest, rfl⟩

theorem Pages.append (first : reader.Pages places steady resident before state middle)
    (rest : reader.Pages places steady (before.foldl (Lru.use places) resident) behind middle later) :
    reader.Pages places steady resident (before ++ behind) state later := by
  obtain ⟨trace, served, calls⟩ := first.loads
  obtain ⟨more, others, further⟩ := rest.loads
  refine ⟨?_, trace ++ more, served.append others, ?_⟩
  · rw [List.foldl_append]
    exact rest.keeps
  · rw [List.map_append, calls, further, Lru.misses_append, List.map_append]

theorem sectorStart_injective (positive : 0 < reader.bytesPerSector.toNat) :
    Function.Injective reader.sectorStart := by
  intro first second same
  have same : first * reader.bytesPerSector.toNat = second * reader.bytesPerSector.toNat := by
    simp only [sectorStart, ← Int.natCast_mul] at same
    omega
  exact Nat.eq_of_mul_eq_mul_right positive same

theorem load_full (framed : reader.Framed)
    (furnishes : reader.store.Furnishes reader.start reader.size reader.token steady)
    (below : sector < reader.extent.sectorCount.toNat) {world : World σ} (ready : world.Ready reader.token steady) :
    ∃ bytes exchange later, (reader.load sector).run world = (.ok bytes, later) ∧
      Served reader.store world [exchange] later ∧ exchange.call = reader.sectorCall sector ∧
      later.Ready reader.token steady := by
  have inside := framed.sector_inside below
  have some : 0 < reader.size := by
    rw [framed.whole]
    exact Nat.mul_pos (Nat.zero_lt_of_lt below) framed.positive
  have begins := furnishes.begins some
  have place : reader.start ≤ reader.sectorStart sector := by
    rw [sectorStart, ← Int.natCast_mul]
    omega
  let noted := world.note (.readingSector (reader.sectorStart sector).toNat reader.bytesPerSector.toNat)
  obtain ⟨⟨reading, answer, full⟩, stays, quiet⟩ := furnishes.serves noted.stores ready.steady
    reader.bytesPerSector.toNat (reader.sectorStart sector).toNat (by omega) (by omega)
  refine ⟨reading.buffer reader.bytesPerSector.toNat, reader.store.exchange (reader.sectorCall sector) noted.stores, _,
    ?_, .note (.call .rest), rfl, ⟨stays, Signals.lowered_foldl quiet ready.lowered⟩⟩
  simp only [load, Act.run_bind, run_isCancelled, ready.lowered, Bool.false_eq_true, ↓reduceIte, run_note, run_ask,
    show ¬ reader.sectorStart sector < 0 by omega]
  rw [answer]
  simp only [full, ↓reduceIte, Act.run_pure]
  rfl

theorem Keeps.mem_keys (keeps : reader.Keeps places steady resident state)
    (positive : 0 < reader.bytesPerSector.toNat) : reader.sectorStart sector ∈ state.1.keys ↔ sector ∈ resident := by
  rw [keeps.keys, List.mem_map]
  constructor
  · rintro ⟨other, member, same⟩
    exact sectorStart_injective positive same ▸ member
  · exact fun member => ⟨sector, member, rfl⟩

/-- One sector is used: it comes to the front, from the cache or from the store. -/
theorem fetch_pages (framed : reader.Framed)
    (furnishes : reader.store.Furnishes reader.start reader.size reader.token steady)
    (below : sector < reader.extent.sectorCount.toNat) (keeps : reader.Keeps places steady resident state) :
    ∃ bytes later, (reader.fetch sector).run state = (.ok bytes, later) ∧
      reader.Pages places steady resident [sector] state later := by
  obtain ⟨cache, world⟩ := state
  have injective := sectorStart_injective framed.positive
  rcases find : cache.find? (reader.sectorStart sector) with _ | bytes
  · have miss : sector ∉ resident := mt (keeps.mem_keys framed.positive).mpr (Cache.not_mem_keys find)
    obtain ⟨bytes, exchange, later, run, served, call, ready⟩ := load_full framed furnishes below keeps.ready.note
    have evicted : Served reader.store world [exchange] (later.evicted cache.oldest?) := by
      cases cache.oldest? with
      | none => exact .note served
      | some key => exact .note served.noted
    refine ⟨bytes, _, Cache.run_loaded find run, ⟨keeps.capacity, ?_, ready.evicted _⟩, [exchange], evicted, ?_⟩
    · have held : cache.keys = resident.map reader.sectorStart := keeps.keys
      have room : cache.capacity = places := keeps.capacity
      rw [Cache.keys_insert_evict, held, room, List.foldl_cons, List.foldl_nil, Lru.use, if_neg miss, List.map_cons,
        List.map_take]
    · rw [Lru.misses, if_neg miss, Lru.misses, List.map_singleton, call, List.map_singleton]
  · have hit : sector ∈ resident := (keeps.mem_keys framed.positive).mp (Cache.mem_keys find)
    refine ⟨bytes, _, Cache.run_hit find _ world, ⟨keeps.capacity, ?_, keeps.ready⟩, [], .rest, ?_⟩
    · have held : cache.keys = resident.map reader.sectorStart := keeps.keys
      have others : (resident.map reader.sectorStart).filter (· != reader.sectorStart sector) =
          (resident.filter (· != sector)).map reader.sectorStart := by
        rw [List.filter_map]
        congr 2
        funext other
        exact Bool.eq_iff_iff.mpr (by simp [injective.eq_iff])
      rw [Cache.keys_touch, held, others, List.foldl_cons, List.foldl_nil, Lru.use_hit places hit, List.map_cons]
    · rw [Lru.misses, if_pos hit, Lru.misses]
      rfl

theorem gather_pages (framed : reader.Framed)
    (furnishes : reader.store.Furnishes reader.start reader.size reader.token steady)
    (sector count : Nat) (below : sector + count ≤ reader.extent.sectorCount.toNat)
    (pieces : List (List UInt8)) (keeps : reader.Keeps places steady resident state) :
    ∃ bytes later, reader.gather sector count pieces state = (.ok bytes, later) ∧
      reader.Pages places steady resident (List.range' sector count) state later := by
  induction count generalizing sector pieces resident state with
  | zero => exact ⟨_, _, rfl, .rest keeps⟩
  | succ count ih =>
    have inside : sector < reader.extent.sectorCount.toNat := by omega
    obtain ⟨piece, middle, run, first⟩ := fetch_pages framed furnishes inside keeps
    obtain ⟨bytes, later, gathered, rest⟩ := ih (sector + 1) (by omega) (piece :: pieces) first.keeps
    refine ⟨bytes, later, ?_, first.append rest⟩
    simp only [gather, run]
    exact gathered

/-- The sectors of a range are used in ascending order, each once. -/
theorem bytesAt_pages (framed : reader.Framed)
    (furnishes : reader.store.Furnishes reader.start reader.size reader.token steady)
    (offset length : Nat) (keeps : reader.Keeps places steady resident state) :
    ∃ bytes later, (reader.bytesAt offset length).run state = (.ok bytes, later) ∧
      reader.Pages places steady resident
        (if reader.covered offset length = 0 then []
          else List.range' (reader.sectorOf offset) (reader.sectorsTouched offset (reader.covered offset length)))
        state later := by
  by_cases none : reader.covered offset length = 0
  · refine ⟨[], state, ?_, ?_⟩
    · simp only [bytesAt, none, ↓reduceIte, Act.run_pure]
    · rw [if_pos none]
      exact .rest keeps
  · have touched := reader.sectorsTouched_pos offset (Nat.pos_of_ne_zero none)
    have below := framed.within (touched_within none (reader.sectorOf offset +
      reader.sectorsTouched offset (reader.covered offset length) - 1) (by omega))
    obtain ⟨bytes, later, run, pages⟩ := gather_pages framed furnishes (reader.sectorOf offset)
      (reader.sectorsTouched offset (reader.covered offset length)) (by omega) [] keeps
    rw [if_neg none]
    refine ⟨Bytes.slice bytes (offset % reader.bytesPerSector.toNat) (reader.covered offset length), later, ?_, pages⟩
    simp only [bytesAt, none, ↓reduceIte, Act.run_bind, run, Act.run_pure]

section Moved

variable {cursor : Nat} {cache : Cache}

theorem Keeps.moved (keeps : reader.Keeps places steady resident state) :
    Keeps { reader with cursor, cache } places steady resident state :=
  ⟨keeps.capacity, keeps.keys, keeps.ready⟩

theorem Pages.moved (pages : Pages { reader with cursor, cache } places steady resident accesses state later) :
    reader.Pages places steady resident accesses state later :=
  ⟨⟨pages.keeps.capacity, pages.keeps.keys, pages.keeps.ready⟩, pages.loads⟩

end Moved

variable {world : World σ}

def turn (request : Request) (reader : Reader σ) (world : World σ) : Turn :=
  ⟨request, reader.cursor, (respond request (reader, world)).1, (respond request (reader, world)).2.1.cursor⟩

/-- One request uses the sectors of the bytes that it is answered with. -/
theorem respond_pages (framed : reader.Framed)
    (furnishes : reader.store.Furnishes reader.start reader.size reader.token steady)
    {request : Request} (typed : request.Typed) (keeps : reader.Keeps places steady resident (reader.cache, world)) :
    reader.Pages places steady resident ((turn request reader world).sectors reader.bytesPerSector.toNat)
        (reader.cache, world) ((respond request (reader, world)).2.1.cache, (respond request (reader, world)).2.2) ∧
      (turn request reader world).Answered reader.size := by
  have count := (respond_contained framed typed world).count
  rcases range : request.range? reader.cursor with _ | ⟨start, length⟩
  · have idle : (turn request reader world).sectors reader.bytesPerSector.toNat = [] := by
      simp only [Turn.sectors, turn, range]
    rw [idle, respond_resting range ⟨0, fun _ => 0⟩]
    refine ⟨.rest keeps, fun start length other => ?_⟩
    cases range.symm.trans other
  · have same := respond_reading range world
    by_cases long : Offset.maximum < length
    · simp only [readFrom, long, ↓reduceIte] at same
      have idle : (turn request reader world).sectors reader.bytesPerSector.toNat = [] := by
        simp only [Turn.sectors, turn, range, same]
      rw [idle, same]
      refine ⟨.rest keeps, fun start length other short => ?_⟩
      cases range.symm.trans other
      omega
    · obtain ⟨bytes, ⟨cache, later⟩, run, pages⟩ := bytesAt_pages framed furnishes start length keeps
      simp only [readFrom, long, ↓reduceIte, run] at same
      have full : bytes.length = reader.covered start length := count start length bytes range (congrArg Prod.fst same)
      have used : (turn request reader world).sectors reader.bytesPerSector.toNat =
          if reader.covered start length = 0 then []
          else List.range' (reader.sectorOf start) (reader.sectorsTouched start (reader.covered start length)) := by
        simp only [Turn.sectors, turn, range, same, full]
        rfl
      rw [used, same]
      refine ⟨pages, fun start length other _ => ?_⟩
      cases range.symm.trans other
      exact ⟨bytes, congrArg Prod.fst same, full⟩

theorem turns_pages (framed : reader.Framed)
    (furnishes : reader.store.Furnishes reader.start reader.size reader.token steady)
    {requests : List Request} (typed : ∀ request ∈ requests, request.Typed)
    (keeps : reader.Keeps places steady resident (reader.cache, world)) :
    reader.Pages places steady resident
        ((turns (requests.map .request) (reader, world)).flatMap (·.sectors reader.bytesPerSector.toNat))
        (reader.cache, world) ((after (requests.map .request) (reader, world)).1.cache,
          (after (requests.map .request) (reader, world)).2) ∧
      ∀ turn ∈ turns (requests.map .request) (reader, world), turn.Answered reader.size := by
  induction requests generalizing reader resident world with
  | nil => exact ⟨.rest keeps, nofun⟩
  | cons request rest ih =>
    obtain ⟨own, others⟩ := List.forall_mem_cons.mp typed
    obtain ⟨same, kept, _, _⟩ := respond_contained framed own world
    obtain ⟨first, answered⟩ := respond_pages framed furnishes own keeps
    obtain ⟨cursor, cache, later, next⟩ : ∃ cursor cache later,
        (respond request (reader, world)).2 = ({ reader with cursor, cache }, later) := ⟨_, _, _, Prod.ext same rfl⟩
    rw [next] at kept first
    obtain ⟨pages, more⟩ := ih kept furnishes others first.keeps.moved
    simp only [List.map_cons, turns, after, step, next, List.flatMap_cons, List.forall_mem_cons]
    refine ⟨first.append pages.moved, ?_, more⟩
    simpa only [turn, next] using answered

/-- Over a store that has the whole partition, what comes to the store are the misses of a cache that
keeps the sectors used last, for any requests. The sectors used are those in which the bytes of each
answer lie, in ascending order, and every request that reads is answered. While there are no more
sectors than places each sector is loaded once, where it is used first. -/
theorem loads_misses {store : Store σ} {extent : Extent} {token : Token} {bytesPerSector : UInt32} {capacity : Nat}
    {label : ι} {reader : Reader (σ × List (ι × Call))}
    (made : ofExtent extent (store.recorded label) token bytesPerSector capacity = .ok reader)
    {steady : σ → Prop} (furnishes : store.Furnishes reader.start reader.size token steady)
    {world : World (σ × List (ι × Call))} (ready : world.Ready token fun s => steady s.1)
    {requests : List Request} (typed : ∀ request ∈ requests, request.Typed) :
    let session := turns (requests.map .request) (reader, world)
    let reached := after (requests.map .request) (reader, world)
    let accesses := session.flatMap (·.sectors bytesPerSector.toNat)
    let misses := Lru.misses (max capacity 1) [] accesses
    (∀ turn ∈ session, turn.Answered reader.size) ∧
    reached.2.stores.2 = (misses.map fun sector =>
      (label, .read bytesPerSector.toNat (reader.start + sector * bytesPerSector.toNat).toNat)).reverse ++
        world.stores.2 ∧
    (accesses.eraseDups.length ≤ max capacity 1 → misses = accesses.eraseDups) := by
  have framed := ofExtent_framed made
  obtain ⟨_, rfl⟩ := ofExtent_ok made
  obtain ⟨⟨_, trace, served, calls⟩, answered⟩ := turns_pages framed (furnishes.recorded label) typed
    (.start ready capacity)
  refine ⟨answered, ?_, Lru.misses_few⟩
  rw [served.recorded, calls, List.map_map]
  rfl

def errand : List Request := [.read 3, .read 4, .seek 2 .start, .read 1, .readAt 20 1]

/-- With one place the first sector is loaded twice, with two places it is not. -/
theorem loads_misses_ruler :
    (∃ reader, ofExtent ⟨⟨0x83⟩, 1, 0, 2⟩ (Memory.store.recorded ()) ⟨0⟩ 4 0 = .ok reader ∧
      (after (errand.map .request) (reader, .start (ruler, []))).2.stores.2 =
        [((), .read 4 1), ((), .read 4 5), ((), .read 4 1)]) ∧
    ∃ reader, ofExtent ⟨⟨0x83⟩, 1, 0, 2⟩ (Memory.store.recorded ()) ⟨0⟩ 4 2 = .ok reader ∧
      Lru.misses 2 [] ((turns (errand.map .request) (reader, .start (ruler, []))).flatMap (·.sectors 4)) = [0, 1] ∧
      (after (errand.map .request) (reader, .start (ruler, []))).2.stores.2 = [((), .read 4 5), ((), .read 4 1)] := by
  have furnishes : Memory.store.Furnishes 1 8 ⟨0⟩ (· = ⟨ruler.image, true⟩) :=
    (Memory.delivers ruler.image ⟨0⟩).furnishes (by decide) (by decide) (by decide)
  have ready : (World.start (ruler, ([] : List (Unit × Call)))).Ready ⟨0⟩ fun s => s.1 = ⟨ruler.image, true⟩ :=
    ⟨rfl, rfl⟩
  have typed : ∀ request ∈ errand, request.Typed := by decide
  have makes (capacity : Nat) : ∃ reader,
      ofExtent ⟨⟨0x83⟩, 1, 0, 2⟩ (Memory.store.recorded ()) ⟨0⟩ 4 capacity = .ok reader := ⟨_, rfl⟩
  obtain ⟨narrow, made⟩ := makes 0
  obtain ⟨wide, bigger⟩ := makes 2
  have start : narrow.start = 1 ∧ narrow.size = 8 ∧ wide.start = 1 ∧ wide.size = 8 := by
    cases made
    cases bigger
    decide
  obtain ⟨_, first, _⟩ := loads_misses made (by rwa [start.1, start.2.1]) ready typed
  obtain ⟨_, second, few⟩ := loads_misses bigger (by rwa [start.2.2.1, start.2.2.2]) ready typed
  refine ⟨⟨narrow, made, first.trans ?_⟩, wide, bigger, (few ?_).trans ?_, second.trans ?_⟩
  all_goals
    cases made
    cases bigger
    decide

end Reader
end PartitionTable
