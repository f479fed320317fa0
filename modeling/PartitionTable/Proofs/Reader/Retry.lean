import PartitionTable.Stream
import PartitionTable.Proofs.BuiltIn
import PartitionTable.Proofs.Ensemble.Hush
import PartitionTable.Proofs.Reader.Safety

/-! A reader in a loop that fills a buffer. Such a loop reads on after every interruption, and so
it stops unless reads are interrupted again and again. Every store that comes with the library
leaves that to the token: with the flag down the loop stops. With the flag up a read that needs the
store is interrupted and leaves all as it was, and the next one is interrupted in the same way. -/
namespace PartitionTable

/-- A loop that reads until its buffer is full. An interruption is tried again, any other fault and
the end of the stream leave the loop. -/
inductive Stream.Stops : Nat → Reader σ × World σ → Prop where
  | full : Stops 0 state
  | finished (read : (Stream.read missing).run state = (.ok [], later)) : Stops missing state
  | failed (read : (Stream.read missing).run state = (.error fault, later))
      (other : fault.streamClass ≠ .interrupted) : Stops missing state
  | again (read : (Stream.read missing).run state = (.ok bytes, later)) (some : bytes ≠ [])
      (rest : Stops (missing - bytes.length) later) : Stops missing state
  | retried (read : (Stream.read missing).run state = (.error fault, later))
      (interrupted : fault.streamClass = .interrupted) (rest : Stops missing later) : Stops missing state

theorem Fault.interrupted_iff (fault : Fault) : fault.streamClass = .interrupted ↔ fault = .cancelled := by
  cases fault <;> simp [streamClass]

namespace Reader

variable {reader : Reader σ} {world : World σ}

def Calm (token : Token) (outcome : Except Fault α × World σ) : Prop :=
  outcome.1 ≠ .error .cancelled ∧ outcome.2.signals.raised token = false

theorem Calm.ok {token : Token} (a : α) (lowered : world.signals.raised token = false) : Calm token (.ok a, world) := by
  refine ⟨fun same => ?_, lowered⟩
  cases same

theorem Calm.error {token : Token} {fault : Fault} (other : fault ≠ .cancelled)
    (lowered : world.signals.raised token = false) : Calm token ((.error fault : Except Fault α), world) :=
  ⟨fun same => other (Except.error.inj same), lowered⟩

theorem load_calm (neutral : ∀ length offset s, (reader.store.read length offset s).Neutral) (sector : Nat)
    (lowered : world.signals.raised reader.token = false) : Calm reader.token ((reader.load sector).run world) := by
  simp only [load, Act.run_bind, run_isCancelled, lowered, Bool.false_eq_true, ↓reduceIte]
  by_cases negative : reader.sectorStart sector < 0
  · simp only [negative, ↓reduceIte, Act.run_fail]
    exact .error (by decide) lowered
  simp only [negative, ↓reduceIte, Act.run_bind, run_note, run_ask]
  generalize (reader.sectorStart sector).toNat = place
  generalize reader.bytesPerSector.toNat = width
  have noted : (world.note (.readingSector place width)).signals.raised reader.token = false := lowered
  generalize world.note (.readingSector place width) = world at noted ⊢
  obtain ⟨other, quiet⟩ := neutral width place world.stores
  generalize reader.store.read width place world.stores = reply at other quiet ⊢
  have still : (world.absorb reply).signals.raised reader.token = false := by
    rw [World.absorb, quiet]
    exact noted
  rcases answer : reply.result with fault | reading
  all_goals rw [answer] at other
  · exact Calm.error (fun same => other (congrArg Except.error same)) still
  · by_cases full : reading.count = width
    · simp only [full, ↓reduceIte, Act.run_pure]
      exact .ok _ still
    · simp only [full, ↓reduceIte, run_refuse]
      exact .error (by decide) still

theorem fetch_calm (neutral : ∀ length offset s, (reader.store.read length offset s).Neutral) (sector : Nat)
    (cache : Cache) (lowered : world.signals.raised reader.token = false) :
    Calm reader.token (((reader.fetch sector).run (cache, world)).1,
      ((reader.fetch sector).run (cache, world)).2.2) := by
  rcases find : cache.find? (reader.sectorStart sector) with _ | bytes
  · have noted : (world.note (.cacheMiss (reader.sectorStart sector))).signals.raised reader.token = false := lowered
    obtain ⟨other, still⟩ := load_calm neutral sector noted
    rcases run : (reader.load sector).run (world.note (.cacheMiss (reader.sectorStart sector))) with
      ⟨fault | bytes, later⟩
    all_goals rw [run] at other still
    · rw [fetch, Cache.run_failed find run]
      exact ⟨other, still⟩
    · rw [fetch, Cache.run_loaded find run]
      refine .ok _ ?_
      cases cache.oldest? <;> exact still
  · rw [fetch, Cache.run_hit find]
    exact .ok _ lowered

theorem gather_calm (neutral : ∀ length offset s, (reader.store.read length offset s).Neutral) (count sector : Nat)
    (pieces : List (List UInt8)) (cache : Cache) (lowered : world.signals.raised reader.token = false) :
    Calm reader.token ((reader.gather sector count pieces (cache, world)).1,
      (reader.gather sector count pieces (cache, world)).2.2) := by
  induction count generalizing sector pieces cache world with
  | zero => exact .ok _ lowered
  | succ count ih =>
    have first := fetch_calm neutral sector cache lowered
    simp only [gather]
    rcases run : (reader.fetch sector).run (cache, world) with ⟨fault | piece, kept, later⟩
    all_goals rw [run] at first
    · exact first
    · exact ih (sector + 1) (piece :: pieces) kept first.2

/-- With the flag down no read is interrupted, whatever the state of the store. -/
theorem read_calm (neutral : ∀ length offset s, (reader.store.read length offset s).Neutral) (length : Nat)
    (lowered : world.signals.raised reader.token = false) :
    Calm reader.token (((Stream.read length).run (reader, world)).1,
      ((Stream.read length).run (reader, world)).2.2) := by
  show Calm reader.token (((readFrom reader.cursor length).run (reader, world)).1,
    ((readFrom reader.cursor length).run (reader, world)).2.2)
  simp only [readFrom]
  by_cases long : Offset.maximum < length
  · simp only [long, ↓reduceIte]
    exact .error (by decide) lowered
  simp only [long, ↓reduceIte, bytesAt]
  by_cases none : reader.covered reader.cursor length = 0
  · simp only [none, ↓reduceIte, Act.run_pure]
    exact .ok _ lowered
  · simp only [none, ↓reduceIte, Act.run_bind]
    have gathered := gather_calm neutral (reader.sectorsTouched reader.cursor (reader.covered reader.cursor length))
      (reader.sectorOf reader.cursor) [] reader.cache lowered
    rcases run : reader.gather (reader.sectorOf reader.cursor)
      (reader.sectorsTouched reader.cursor (reader.covered reader.cursor length)) [] (reader.cache, world) with
      ⟨fault | bytes, later⟩
    all_goals rw [run] at gathered
    · exact gathered
    · exact .ok _ gathered.2

theorem gather_raised (raised : world.signals.raised reader.token = true) (count sector : Nat)
    (pieces : List (List UInt8)) (cache : Cache) :
    (∀ key, (reader.gather sector count pieces (cache, world)).2.1.contains key = cache.contains key) ∧
      (reader.gather sector count pieces (cache, world)).2.2.signals = world.signals := by
  induction count generalizing sector pieces cache with
  | zero => exact ⟨fun _ => rfl, rfl⟩
  | succ count ih =>
    simp only [gather]
    cases first : cache.contains (reader.sectorStart sector) with
    | false =>
      have miss : cache.find? (reader.sectorStart sector) = none := by simpa [Cache.contains] using first
      have failed : (reader.load sector).run (world.note (.cacheMiss (reader.sectorStart sector))) =
          (.error .cancelled, world.note (.cacheMiss (reader.sectorStart sector))) := by
        simp [load, Act.run_bind, World.note, raised]
      simp only [fetch, Cache.run_failed miss failed]
      exact ⟨fun _ => trivial, rfl⟩
    | true =>
      obtain ⟨piece, kept, same, run⟩ := fetch_held first
      obtain ⟨still, signals⟩ := ih (sector + 1) (piece :: pieces) kept
      simp only [run]
      exact ⟨fun key => (still key).trans (same key), signals⟩

/-- With the flag up a read that needs a sector from the store is interrupted, and nothing has
changed when it is tried again. -/
theorem read_interrupted (raised : world.signals.raised reader.token = true)
    (positive : 0 < reader.bytesPerSector.toNat) (short : length ≤ Offset.maximum)
    (apart : ¬ reader.AtHand reader.cursor length) :
    ∃ kept later, (Stream.read length).run (reader, world) = (.error .cancelled, { reader with cache := kept }, later) ∧
      (∀ key, kept.contains key = reader.cache.contains key) ∧ later.signals = world.signals := by
  have some : reader.covered reader.cursor length ≠ 0 := fun none => apart fun place below => by omega
  have missing := mt (atHand_iff positive (Nat.pos_of_ne_zero some)).mpr apart
  simp only [Classical.not_forall, Bool.not_eq_true, exists_prop] at missing
  have failed := gather_barred (barred_cancelled raised) _ _ [] reader.cache missing
  obtain ⟨same, signals⟩ := gather_raised raised (reader.sectorsTouched reader.cursor
    (reader.covered reader.cursor length)) (reader.sectorOf reader.cursor) [] reader.cache
  rcases run : reader.gather (reader.sectorOf reader.cursor)
    (reader.sectorsTouched reader.cursor (reader.covered reader.cursor length)) [] (reader.cache, world) with
    ⟨fault | bytes, kept, later⟩
  all_goals rw [run] at failed same signals
  · cases failed
    refine ⟨kept, later, ?_, same, signals⟩
    show (readFrom reader.cursor length).run (reader, world) = _
    simp only [readFrom, Nat.not_lt.mpr short, ↓reduceIte, bytesAt, some, Act.run_bind, run]
  · cases failed

theorem run_read (given : respond (.read length) state = (.bytes result, later)) :
    (Stream.read length).run state = (result, later) := by
  cases given
  rfl

theorem read_nothing (none : reader.covered reader.cursor length = 0) (short : length ≤ Offset.maximum)
    (world : World σ) : ∃ later, (Stream.read length).run (reader, world) = (.ok [], later) := by
  refine ⟨(reader, world), ?_⟩
  show (readFrom reader.cursor length).run (reader, world) = _
  simp only [readFrom, Nat.not_lt.mpr short, ↓reduceIte, bytesAt, none, Act.run_pure, List.length_nil, Nat.add_zero]

end Reader

namespace Stream

open Reader

variable {reader : Reader σ} {world : World σ}

/-- With the flag down a loop gets on with every read or leaves. -/
theorem stops_lowered (neutral : ∀ length offset s, (reader.store.read length offset s).Neutral) (missing : Nat)
    (lowered : world.signals.raised reader.token = false) : Stops missing (reader, world) := by
  induction missing using Nat.strongRecOn generalizing reader world with
  | ind missing ih =>
    rcases Nat.eq_zero_or_pos missing with rfl | wanted
    · exact .full
    have calm := read_calm neutral missing lowered
    obtain ⟨result, cache, later, run, _⟩ := reader.readFrom_draws reader.Whole reader.cursor missing world
    have run : (Stream.read missing).run (reader, world) = (result, reader.settled reader.cursor result cache, later) :=
      run
    rw [run] at calm
    cases result with
    | error fault =>
      refine .failed run fun interrupted => calm.1 ?_
      rw [fault.interrupted_iff.mp interrupted]
    | ok bytes =>
      by_cases none : bytes = []
      · subst none
        exact .finished run
      · have fewer := List.length_pos_iff.mpr none
        exact .again run none (ih _ (by omega) neutral calm.2)

/-- A loop over what is at hand reads it and then comes to the end. -/
theorem stops_atHand (framed : reader.Framed) (short : length ≤ Offset.maximum)
    (atHand : reader.AtHand reader.cursor length) (world : World σ) : Stops length (reader, world) := by
  have range : (Request.read length).range? reader.cursor = some (reader.cursor, length) := rfl
  have typed : (Request.read length).Typed := trivial
  obtain ⟨bytes, kept, given⟩ := respond_atHand range framed.positive short atHand
  have count := (respond_contained framed typed world).count _ _ bytes range (congrArg Prod.fst (given world))
  have run := run_read (given world)
  by_cases none : bytes = []
  · subst none
    exact .finished run
  · refine .again run none ?_
    have used : covered { reader with cache := kept, cursor := reader.cursor + bytes.length }
        (reader.cursor + bytes.length) (length - bytes.length) = 0 := by
      show min (length - bytes.length) (reader.size - (reader.cursor + bytes.length)) = 0
      omega
    obtain ⟨later, rest⟩ := read_nothing used (Nat.le_trans (Nat.sub_le _ _) short) world
    exact .finished rest

/-- With the flag up a loop stops only if all that it reads is at hand. -/
theorem Stops.atHand (stops : Stops length state) (raised : state.2.signals.raised state.1.token = true)
    (positive : 0 < state.1.bytesPerSector.toNat) (short : length ≤ Offset.maximum) :
    state.1.AtHand state.1.cursor length := by
  apply Classical.byContradiction
  intro apart
  induction stops with
  | full => exact apart fun place below => by simp [covered] at below
  | finished read =>
    obtain ⟨_, _, run, _⟩ := read_interrupted raised positive short apart
    cases read.symm.trans run
  | failed read other =>
    obtain ⟨_, _, run, _⟩ := read_interrupted raised positive short apart
    cases read.symm.trans run
    exact other rfl
  | again read =>
    obtain ⟨_, _, run, _⟩ := read_interrupted raised positive short apart
    cases read.symm.trans run
  | retried read _ _ ih =>
    obtain ⟨kept, later, run, same, signals⟩ := read_interrupted raised positive short apart
    cases read.symm.trans run
    refine ih (signals ▸ raised) positive short fun atHand => apart fun place below => ?_
    rw [← same]
    exact atHand place below

/-- After any events, over a store of the library, a loop stops exactly if the flag is down or all that
it would read is at hand. Whether the store is open, closed or fails makes no difference to that. -/
theorem stops_iff {store : Store σ} (builtIn : store.BuiltIn) {extent : Extent} {token : Token}
    {bytesPerSector : UInt32} {capacity : Nat}
    (made : ofExtent extent store token bytesPerSector capacity = .ok reader) (events : List (Event σ))
    (typed : ∀ request, .request request ∈ events → request.Typed)
    (reached : after events (reader, world) = (held, later)) (short : length ≤ Offset.maximum) :
    Stops length (held, later) ↔ later.signals.raised token = false ∨ held.AtHand held.cursor length := by
  obtain ⟨same, framed⟩ := after_framed (ofExtent_framed made) events typed world reached
  obtain ⟨cursor, cache, rfl⟩ : ∃ cursor cache, held = { reader with cursor, cache } := ⟨_, _, same⟩
  obtain ⟨_, rfl⟩ := ofExtent_ok made
  constructor
  · intro stops
    rcases flag : later.signals.raised token with _ | _
    · exact .inl rfl
    · exact .inr (stops.atHand flag framed.positive short)
  · rintro (lowered | atHand)
    · exact stops_lowered builtIn.neutral length lowered
    · exact stops_atHand framed short atHand later

def raise : Event Memory := .meanwhile fun world => { world with signals := world.signals.cancel ⟨0⟩ }

/-- The rest of a sector that was read from is at hand, and the next sector is not. -/
theorem stops_iff_ruler : ∃ reader held later, ofExtent ⟨⟨0x83⟩, 1, 0, 2⟩ Memory.store ⟨0⟩ 4 1 = .ok reader ∧
    after [.request (.read 3), raise] (reader, .start ruler) = (held, later) ∧
    Stops 1 (held, later) ∧ ¬ Stops 4 (held, later) := by
  have typed : ∀ request, .request request ∈ [.request (.read 3), raise] → request.Typed := by
    intro request member
    simp only [raise, List.mem_cons, Event.request.injEq, reduceCtorEq, List.not_mem_nil, or_false] at member
    subst member
    trivial
  obtain ⟨reader, made⟩ : ∃ reader, ofExtent ⟨⟨0x83⟩, 1, 0, 2⟩ Memory.store ⟨0⟩ 4 1 = .ok reader := ⟨_, rfl⟩
  obtain ⟨held, later, reached⟩ : ∃ held later,
    after [.request (.read 3), raise] (reader, .start ruler) = (held, later) := ⟨_, _, rfl⟩
  have stops (length : Nat) (short : length ≤ Offset.maximum) :=
    stops_iff .memory made [.request (.read 3), raise] typed reached short
  refine ⟨reader, held, later, made, reached, (stops 1 (by decide)).mpr (.inr ?_),
    mt (stops 4 (by decide)).mp (not_or.mpr ⟨?_, ?_⟩)⟩
  all_goals
    cases made
    cases reached
    decide

/-- A reader that was cancelled keeps a loop busy for ever, although its store is open and has all the
bytes. -/
theorem cancelled_never_stops : ∃ reader held later,
    ofExtent ⟨⟨0x83⟩, 1, 0, 2⟩ Memory.store ⟨0⟩ 4 1 = .ok reader ∧ Memory.store.BuiltIn ∧
    after [raise] (reader, .start ruler) = (held, later) ∧ ¬ Stops 4 (held, later) := by
  obtain ⟨reader, made⟩ : ∃ reader, ofExtent ⟨⟨0x83⟩, 1, 0, 2⟩ Memory.store ⟨0⟩ 4 1 = .ok reader := ⟨_, rfl⟩
  refine ⟨reader, _, _, made, .memory, rfl, fun stops => ?_⟩
  cases made
  exact absurd (stops.atHand (by decide) (by decide) (by decide)) (by decide)

end Stream
end PartitionTable
