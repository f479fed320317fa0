import PartitionTable.Proofs.Chain.InStep
import PartitionTable.Proofs.Opening.Run
import PartitionTable.Proofs.Reader.Reads
import PartitionTable.Proofs.Transcript

/-! Whoever holds a token that is cancelled puts no further read. The flag is asked for before
every single read, so a step that is on its way when it goes up stops before its next one. The
transcript shows it: to each of its reads belongs a moment, and in that moment the flag was down. -/
namespace PartitionTable

def Call.isRead : Call → Bool
  | .read .. => true
  | .acquire | .release | .size => false

namespace Signals

/-- The flags after what was written down. The newest entry comes last. -/
def after (signals : Signals) (log : List (ι × Exchange)) : Signals :=
  log.foldr (fun entry signals => entry.2.signals.foldl apply signals) signals

theorem after_append (signals : Signals) (before later : List (ι × Exchange)) :
    signals.after (later ++ before) = (signals.after before).after later := List.foldr_append

theorem raised_foldl {sent : List Signal} (kept : Signal.reset token ∉ sent) {signals : Signals}
    (raised : signals.raised token = true) : (sent.foldl apply signals).raised token = true := by
  induction sent generalizing signals with
  | nil => exact raised
  | cons signal rest ih =>
    obtain ⟨apart, kept⟩ := not_or.mp (mt List.mem_cons.mpr kept)
    refine ih kept ?_
    cases signal with
    | reset other =>
      have other : token ≠ other := fun same => apart (same ▸ rfl)
      simpa [apply, reset, write, other] using raised
    | cancel other =>
      by_cases same : token = other
      · simp [apply, cancel, write, same]
      · simpa [apply, cancel, write, same] using raised

/-- Only a reset lowers a flag. -/
theorem raised_after {log : List (ι × Exchange)} (kept : ∀ entry ∈ log, .reset token ∉ entry.2.signals)
    {signals : Signals} (raised : signals.raised token = true) : (signals.after log).raised token = true := by
  induction log with
  | nil => exact raised
  | cons entry earlier ih =>
    obtain ⟨own, others⟩ := List.forall_mem_cons.mp kept
    exact raised_foldl own (ih others)

end Signals

/-- At every read of a log the flag was down. -/
def Polled (token : Token) (signals : Signals) : List (ι × Exchange) → Prop
  | [] => True
  | entry :: earlier =>
    (entry.2.call.isRead = true → (signals.after earlier).raised token = false) ∧ Polled token signals earlier

namespace Polled

variable {token : Token} {signals : Signals} {before later : List (ι × Exchange)}

theorem append (first : Polled token signals before) (second : Polled token (signals.after before) later) :
    Polled token signals (later ++ before) := by
  induction later with
  | nil => exact first
  | cons entry earlier ih =>
    obtain ⟨lowered, rest⟩ := second
    rw [← Signals.after_append] at lowered
    exact ⟨lowered, ih rest⟩

theorem of_unread (unread : ∀ entry ∈ later, entry.2.call.isRead = false) : Polled token signals later := by
  induction later with
  | nil => trivial
  | cons entry earlier ih =>
    obtain ⟨own, others⟩ := List.forall_mem_cons.mp unread
    exact ⟨fun read => absurd read (by simp [own]), ih others⟩

/-- With the flag up, and nobody to lower it, there is no read. -/
theorem unread (polled : Polled token signals later) (raised : signals.raised token = true)
    (kept : ∀ entry ∈ later, .reset token ∉ entry.2.signals) : ∀ entry ∈ later, entry.2.call.isRead = false := by
  induction later with
  | nil => nofun
  | cons entry earlier ih =>
    obtain ⟨lowered, rest⟩ := polled
    obtain ⟨_, others⟩ := List.forall_mem_cons.mp kept
    refine List.forall_mem_cons.mpr ⟨?_, ih rest others⟩
    refine Bool.eq_false_iff.mpr fun read => ?_
    exact Bool.false_ne_true ((lowered read).symm.trans (Signals.raised_after others raised))

end Polled

/-- From one world to another, flags changed only with the calls that were put, and no read was
put while the flag was up. -/
def World.Heeds (token : Token) (world later : World (Archive ι σ)) : Prop :=
  ∃ fresh, later.stores.2 = fresh ++ world.stores.2 ∧ later.signals = world.signals.after fresh ∧
    Polled token world.signals fresh

namespace World.Heeds

variable {token : Token} {world middle later : World (Archive ι σ)}

theorem rest : world.Heeds token world := ⟨[], rfl, rfl, trivial⟩

theorem trans (first : world.Heeds token middle) (second : middle.Heeds token later) : world.Heeds token later := by
  obtain ⟨before, early, sent, polled⟩ := first
  obtain ⟨fresh, late, further, asked⟩ := second
  rw [sent] at further asked
  refine ⟨fresh ++ before, ?_, ?_, polled.append asked⟩
  · rw [late, early, List.append_assoc]
  · rw [further, Signals.after_append]

theorem reported (heeds : world.Heeds token later) (notices : List Notice) :
    world.Heeds token { later with notices } := heeds

theorem noted (heeds : world.Heeds token later) (notice : Notice) : world.Heeds token (later.note notice) := heeds

theorem asked (world : World (Archive ι σ)) (label : ι) (store : Store σ) (call : Call)
    (lowered : call.isRead = true → world.signals.raised token = false) :
    world.Heeds token (world.absorb ((store.transcribed label).reply call world.stores)) := by
  refine ⟨[(label, store.exchange call world.stores.1)], ?_, ?_, lowered, trivial⟩
  all_goals
    rw [Store.reply_transcribed]
    rfl

end World.Heeds

section Steps

variable {store : Store σ} {label : ι} {world : World (Archive ι σ)}

namespace Walk

variable {walk : Walk (Archive ι σ)}

theorem readRecord_heeds (known : walk.store = store.transcribed label) (offset : Int) (world : World (Archive ι σ))
    (origin : 0 ≤ offset) : world.Heeds walk.token ((walk.readRecord offset).run world).2 := by
  cases flag : world.signals.raised walk.token with
  | true =>
    rw [walk.readRecord_raised flag]
    exact .rest
  | false =>
    obtain ⟨notices, _, run⟩ := walk.readRecord_lowered flag origin
    rw [run, known]
    exact (World.Heeds.asked world label store (.read BootRecord.size offset.toNat) fun _ => flag).reported notices

theorem resolve_heeds (walk : Walk (Archive ι σ)) (known : walk.store = store.transcribed label) (size : SectorSize) :
    world.Heeds walk.token ((walk.resolve size).run world).2 :=
  (resolve_inStep walk walk rfl size).keeps (World.Heeds walk.token) (fun _ => .rest) (fun _ _ _ => .trans)
    (fun _ _ => World.Heeds.rest.noted _) (readRecord_heeds known) world

end Walk

namespace Volume

theorem opening_heeds {opening : Act (Volume (Archive ι σ) × World (Archive ι σ)) Unit}
    {volume : Volume (Archive ι σ)}
    (either : opening = openStore (store.transcribed label) ∨ opening = openOwned (store.transcribed label)) :
    world.Heeds volume.token (opening.run (volume, world)).2.2 := by
  let kept (later : Volume (Archive ι σ)) (last : World (Archive ι σ)) : Prop :=
    later.token = volume.token ∧ world.Heeds volume.token last
  have invariant : OpeningInvariant (store.transcribed label) kept := by
    constructor
    · rintro later last call other ⟨token, heeds⟩
      have unread : call.isRead ≠ true := by
        rintro read
        cases call <;> simp [Call.isRead] at read other
      exact ⟨token, heeds.trans (.asked last label store call fun read => absurd read unread)⟩
    · rintro later last ⟨token, heeds⟩
      refine ⟨token, heeds.trans ?_⟩
      rw [← token]
      exact (later.walk (store.transcribed label)).resolve_heeds rfl later.sectorSize
    · rintro later last _ _ _ _ ⟨token, heeds⟩
      exact ⟨token, heeds.noted _⟩
  have holds : kept volume world := ⟨rfl, .rest⟩
  exact (invariant.opening holds either).2

end Volume

namespace Reader

variable {reader : Reader (Archive ι σ)}

theorem load_heeds (known : reader.store = store.transcribed label) (sector : Nat) (world : World (Archive ι σ)) :
    world.Heeds reader.token ((reader.load sector).run world).2 := by
  simp only [load, Act.run_bind, run_isCancelled]
  cases flag : world.signals.raised reader.token with
  | true => exact .rest
  | false =>
    simp only [Bool.false_eq_true, ↓reduceIte]
    by_cases negative : reader.sectorStart sector < 0
    · simp only [negative, ↓reduceIte, Act.run_fail]
      exact .rest
    simp only [negative, ↓reduceIte, Act.run_bind, run_note, run_ask, known]
    let noted := world.note (.readingSector (reader.sectorStart sector).toNat reader.bytesPerSector.toNat)
    let call : Call := .read reader.bytesPerSector.toNat (reader.sectorStart sector).toNat
    have put : world.Heeds reader.token (noted.absorb ((store.transcribed label).reply call noted.stores)) :=
      World.Heeds.asked noted label store call fun _ => flag
    rcases ((store.transcribed label).read reader.bytesPerSector.toNat (reader.sectorStart sector).toNat
      noted.stores).result with fault | reading
    · exact put
    · by_cases full : reading.count = reader.bytesPerSector.toNat
      · simp only [full, ↓reduceIte]
        exact put
      · simp only [full, ↓reduceIte, run_refuse]
        exact put.noted _

theorem fetch_heeds (known : reader.store = store.transcribed label) (sector : Nat) (cache : Cache)
    (world : World (Archive ι σ)) : world.Heeds reader.token ((reader.fetch sector).run (cache, world)).2.2 := by
  rw [fetch]
  rcases hit : cache.find? (reader.sectorStart sector) with _ | bytes
  · let noted := world.note (.cacheMiss (reader.sectorStart sector))
    have loaded : world.Heeds reader.token ((reader.load sector).run noted).2 := load_heeds known sector noted
    rcases run : (reader.load sector).run noted with ⟨fault | bytes, later⟩
    all_goals rw [run] at loaded
    · rw [Cache.run_failed hit run]
      exact loaded
    · rw [Cache.run_loaded hit run]
      cases cache.oldest? with
      | none => exact loaded
      | some key => exact loaded.noted _
  · rw [Cache.run_hit hit]
    exact .rest

theorem gather_heeds (known : reader.store = store.transcribed label) (count sector : Nat) (pieces : List (List UInt8))
    (cache : Cache) (world : World (Archive ι σ)) :
    world.Heeds reader.token (reader.gather sector count pieces (cache, world)).2.2 := by
  induction count generalizing sector pieces cache world with
  | zero => exact .rest
  | succ count ih =>
    have fetched := fetch_heeds known sector cache world
    simp only [gather]
    rcases run : (reader.fetch sector).run (cache, world) with ⟨fault | piece, later⟩
    all_goals rw [run] at fetched
    · exact fetched
    · exact fetched.trans (ih _ _ _ _)

theorem respond_heeds (known : reader.store = store.transcribed label) (request : Request)
    (world : World (Archive ι σ)) : world.Heeds reader.token (respond request (reader, world)).2.2 := by
  rcases range : request.range? reader.cursor with _ | ⟨offset, length⟩
  · rw [respond_resting range ⟨0, fun _ => 0⟩]
    exact .rest
  rw [respond_reading range]
  simp only [readFrom]
  by_cases long : Offset.maximum < length
  · simp only [long, ↓reduceIte]
    exact .rest
  simp only [long, ↓reduceIte, bytesAt]
  by_cases none : reader.covered offset length = 0
  · simp only [none, ↓reduceIte, Act.run_pure]
    exact .rest
  simp only [none, ↓reduceIte, Act.run_bind]
  have gathered := gather_heeds known (reader.sectorsTouched offset (reader.covered offset length))
    (reader.sectorOf offset) [] reader.cache world
  rcases run : reader.gather (reader.sectorOf offset) (reader.sectorsTouched offset (reader.covered offset length)) []
    (reader.cache, world) with ⟨fault | bytes, later⟩
  all_goals
    rw [run] at gathered
    exact gathered

end Reader
end Steps
end PartitionTable
