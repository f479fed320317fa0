import PartitionTable.Proofs.Likeness.Reader

/-! Everything that can be done with one store: by itself, through a volume, and through the readers
of that volume, in any order. Over two stores that cannot be told apart the same moves have the same
outcomes, and what is reached differs in nothing but the store. -/
namespace PartitionTable

/-- What a caller can do. The readers go by the order in which they were made. -/
inductive Move where
  | isOpen
  | call (call : Call)
  | probe
  | openStore
  | openOwned
  | close
  | setBytesPerSector (count : UInt32)
  | abort
  | signal (signal : Signal)
  | reader (index : Nat)
  | request (number : Nat) (request : Request)

/-- What a caller is told. There is no response if there is no such reader. -/
inductive Outcome where
  | flag (raised : Bool)
  | answer (result : Except Fault Answer)
  | found (result : Except Fault Bool)
  | done (result : Except Fault Unit)
  | response (response : Option Response)

structure Bench (σ : Type) where
  volume : Volume σ
  readers : List (Reader σ)
  world : World σ

namespace Bench

def observe (act : Act (World σ) α) (told : Except Fault α → Outcome) (bench : Bench σ) : Outcome × Bench σ :=
  let (result, world) := act.run bench.world
  (told result, { bench with world })

def operate (act : Act (Volume σ × World σ) Unit) (bench : Bench σ) : Outcome × Bench σ :=
  let (result, volume, world) := act.run (bench.volume, bench.world)
  (.done result, { bench with volume, world })

def engage (index : Nat) (bench : Bench σ) : Outcome × Bench σ :=
  match bench.volume.reader index with
  | .ok reader => (.done (.ok ()), { bench with readers := bench.readers ++ [reader] })
  | .error fault => (.done (.error fault), bench)

def serve (number : Nat) (request : Request) (bench : Bench σ) : Outcome × Bench σ :=
  match bench.readers[number]? with
  | none => (.response none, bench)
  | some reader =>
    let (response, reader, world) := Reader.respond request (reader, bench.world)
    (.response (some response), { bench with readers := bench.readers.set number reader, world })

def move (store : Store σ) : Move → Bench σ → Outcome × Bench σ
  | .isOpen => fun bench => (.flag (store.isOpen bench.world.stores), bench)
  | .call call => observe (ask (store.reply call)) .answer
  | .probe => observe (Probe.run store) .found
  | .openStore => operate (Volume.openStore store)
  | .openOwned => operate (Volume.openOwned store)
  | .close => operate Volume.close
  | .setBytesPerSector count => operate (Volume.setBytesPerSector count)
  | .abort => operate Volume.abort
  | .signal signal => fun bench =>
    (.done (.ok ()), { bench with world := { bench.world with signals := bench.world.signals.apply signal } })
  | .reader index => engage index
  | .request number request => serve number request

def play (store : Store σ) : List Move → Bench σ → List Outcome × Bench σ
  | [], bench => ([], bench)
  | next :: rest, bench =>
    let (outcome, bench) := bench.move store next
    let (outcomes, bench) := bench.play store rest
    (outcome :: outcomes, bench)

/-- Two benches that differ only in the store. -/
structure Twins (left : Store σ) (right : Store τ) (token : Token) (alike : World σ → World τ → Prop) (one : Bench σ)
    (two : Bench τ) : Prop where
  volume : one.volume.Twins left right token token two.volume
  readers : ∀ reader ∈ one.readers, reader.Twins left right token token (reader.moved right token)
  same : two.readers = one.readers.map (·.moved right token)
  worlds : alike one.world two.world

section Twins

variable {left : Store σ} {right : Store τ} {token : Token} {alike : World σ → World τ → Prop}
  (stores : left.Alike right token token alike) {one : Bench σ} {two : Bench τ}
  (twins : one.Twins left right token alike two)

include twins

theorem observe_twins {act : Act (World σ) α} {other : Act (World τ) α} (agrees : Act.Agrees alike act other)
    (told : Except Fault α → Outcome) :
    (one.observe act told).1 = (two.observe other told).1 ∧
      (one.observe act told).2.Twins left right token alike (two.observe other told).2 := by
  obtain ⟨same, later⟩ := agrees _ _ twins.worlds
  exact ⟨congrArg told same, twins.volume, twins.readers, twins.same, later⟩

theorem operate_twins {act : Act (Volume σ × World σ) Unit} {other : Act (Volume τ × World τ) Unit}
    (agrees : Act.Agrees (Both (Volume.Twins left right token token) alike) act other) :
    (one.operate act).1 = (two.operate other).1 ∧
      (one.operate act).2.Twins left right token alike (two.operate other).2 := by
  obtain ⟨same, volume, later⟩ := agrees (one.volume, one.world) (two.volume, two.world) ⟨twins.volume, twins.worlds⟩
  exact ⟨congrArg Outcome.done same, volume, twins.readers, twins.same, later⟩

theorem engage_twins (index : Nat) : (one.engage index).1 = (two.engage index).1 ∧
    (one.engage index).2.Twins left right token alike (two.engage index).2 := by
  have also := one.volume.reader_moved right token index
  rw [← twins.volume.same] at also
  rcases made : one.volume.reader index with fault | reader
  all_goals
    rw [made] at also
    simp only [engage, made, also, Except.map]
  · exact ⟨trivial, twins⟩
  · refine ⟨trivial, twins.volume, fun other member => ?_, by simp [twins.same], twins.worlds⟩
    rcases List.mem_append.mp member with before | last
    · exact twins.readers other before
    · rw [List.mem_singleton.mp last]
      exact twins.volume.made made

include stores

theorem serve_twins (number : Nat) (request : Request) :
    (one.serve number request).1 = (two.serve number request).1 ∧
      (one.serve number request).2.Twins left right token alike (two.serve number request).2 := by
  have also : two.readers[number]? = one.readers[number]?.map (·.moved right token) := by
    rw [twins.same, List.getElem?_map]
  rcases present : one.readers[number]? with _ | reader
  all_goals
    rw [present] at also
    simp only [serve, present, also, Option.map_none, Option.map_some]
  · exact ⟨trivial, twins⟩
  · have both : Both (Reader.Twins left right token token) alike (reader, one.world)
        (reader.moved right token, two.world) :=
      ⟨twins.readers reader (List.mem_of_getElem? present), twins.worlds⟩
    obtain ⟨same, later, worlds⟩ := Reader.respond_agrees stores request both
    refine ⟨congrArg (Outcome.response ∘ some) same, twins.volume, fun other member => ?_, ?_, worlds⟩
    · rcases List.mem_or_eq_of_mem_set member with before | rfl
      · exact twins.readers other before
      · exact ⟨later.token, later.store, rfl⟩
    · rw [twins.same, later.same, List.map_set]

theorem move_twins (signalled : ∀ w u signal, alike w u →
      alike { w with signals := w.signals.apply signal } { u with signals := u.signals.apply signal }) (next : Move) :
    (one.move left next).1 = (two.move right next).1 ∧
      (one.move left next).2.Twins left right token alike (two.move right next).2 := by
  cases next with
  | isOpen => exact ⟨congrArg Outcome.flag (stores.isOpen _ _ twins.worlds), twins⟩
  | call call =>
    refine observe_twins twins ?_ Outcome.answer
    exact fun w u related => ⟨stores.answers w u call related, stores.stays w u call related⟩
  | probe => exact observe_twins twins (Probe.run_agrees stores) Outcome.found
  | openStore => exact (operate_twins twins (Volume.openStore_agrees stores) :)
  | openOwned => exact (operate_twins twins (Volume.openOwned_agrees stores) :)
  | close => exact (operate_twins twins (Volume.close_agrees stores fun w u => signalled w u (.reset token)) :)
  | setBytesPerSector count => exact (operate_twins twins (Volume.setBytesPerSector_agrees count) :)
  | abort =>
    have agrees : Act.Agrees (Both (Volume.Twins left right token token) alike) Volume.abort Volume.abort := by
      rintro ⟨volume, w⟩ ⟨twin, u⟩ ⟨⟨rfl, known, rfl⟩, related⟩
      exact ⟨rfl, ⟨rfl, known, rfl⟩, signalled w u (.cancel volume.token) related⟩
    exact operate_twins twins agrees
  | signal signal =>
    exact ⟨rfl, twins.volume, twins.readers, twins.same, signalled _ _ signal twins.worlds⟩
  | reader index => exact engage_twins twins index
  | request number request => exact serve_twins stores twins number request

theorem play_twins (signalled : ∀ w u signal, alike w u →
      alike { w with signals := w.signals.apply signal } { u with signals := u.signals.apply signal })
    (moves : List Move) :
    (one.play left moves).1 = (two.play right moves).1 ∧
      (one.play left moves).2.Twins left right token alike (two.play right moves).2 := by
  induction moves generalizing one two with
  | nil => exact ⟨rfl, twins⟩
  | cons next rest ih =>
    obtain ⟨same, later⟩ := move_twins stores twins signalled next
    obtain ⟨others, last⟩ := ih later
    exact ⟨List.cons_eq_cons.mpr ⟨same, others⟩, last⟩

end Twins
end Bench
end PartitionTable
