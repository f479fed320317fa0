import PartitionTable.Proofs.Chain.Faults
import PartitionTable.Proofs.Chain.Loop
import PartitionTable.Proofs.Host
import PartitionTable.Proofs.Warnings

/-! What a walk leaves in the log when it fails. It makes up faults of its own, and it takes other faults
for a failed read; all of that is reported. What it hands on without a word are overflows: a place that is
no position, and a device with more bytes than can be counted. -/
namespace PartitionTable

/-- A device that counts more bytes than an unsigned 64-bit number can tell. -/
inductive Store.Oversized : {σ : Type} → Store σ → σ → Prop where
  | block {device : Device δ} {block : Block δ} : device.blockCount block.device = (.ok count, later) →
    Offset.addressLimit < count.toNat * device.blockSize.toNat → Oversized (Block.store device) block

theorem Block.size_oversized {device : Device δ} {block : Block δ}
    (failed : (size device block).result = .error .outOfBounds) : (store device).Oversized block := by
  simp only [size] at failed
  split at failed
  · cases failed
  next count later counted =>
    split at failed
    · cases failed
    next huge => exact .block counted (Nat.lt_of_not_le huge)

theorem Store.BuiltIn.oversized {store : Store σ} (builtIn : store.BuiltIn)
    (near : offset + length ≤ Offset.addressLimit + 1)
    (failed : (store.read length offset s).result = .error .outOfBounds) : store.Oversized s := by
  cases builtIn with
  | memory =>
    simp only [Memory.store, Memory.read] at failed
    split at failed <;> cases failed
  | file host =>
    simp only [File.store, File.read] at failed
    split at failed
    · cases failed
    split at failed
    · cases failed
    next run => exact absurd (congrArg Prod.fst run) (host.fill_ne_beyond near _)
    · cases failed
  | block device =>
    simp only [Block.store, Block.read, Block.readCovering] at failed
    split at failed
    · cases failed
    split at failed
    · cases failed
    split at failed
    next fault refused =>
      cases failed
      exact Block.size_oversized refused
    split at failed
    · cases failed
    split at failed <;> cases failed

theorem Fault.withdrawal_quiet {fault : Fault} (withdrawn : fault.isWithdrawal = true) :
    ¬ fault.Loud ∧ fault ≠ .outOfBounds := by
  cases fault with
  | cancelled | notOpen => decide
  | _ => cases withdrawn

namespace Walk

variable {walk : Walk σ} {loud : Fault → Prop}

theorem readRecord_outspoken (vocal : walk.store.Vocal Fault.Loud) (offset : Int) :
    Act.Outspoken id Fault.Loud (walk.readRecord offset) := by
  refine .bind (.isCancelled _) fun raised => ?_
  split
  · exact .fail (by decide)
  · exact BootRecord.readFrom_outspoken vocal offset

theorem readRecord_oversized (builtIn : walk.store.BuiltIn)
    (failed : ((walk.readRecord 0).run world).1 = .error .outOfBounds) : walk.store.Oversized world.stores := by
  cases flag : world.signals.raised walk.token with
  | true =>
    rw [walk.readRecord_raised flag] at failed
    cases failed
  | false =>
    obtain ⟨_, _, run⟩ := walk.readRecord_lowered flag (Int.le_refl 0)
    rw [run] at failed
    rcases answered : (walk.store.read BootRecord.size 0 world.stores).result with fault | reading
    all_goals
      simp only [Exchange.record, Store.exchange, Store.reply, Reply.map, Int.toNat_zero, answered,
        Except.map] at failed
    · cases failed
      exact builtIn.oversized (by decide) answered
    · split at failed
      · rcases BootRecord.decode_faults failed with same | same <;> cases same
      · cases failed

theorem abandonLink_outspoken (quiet : ∀ fault, fault.isWithdrawal = true → ¬ loud fault) (offset : Int)
    (fault : Fault) : Act.Outspoken id loud (abandonLink offset fault : Act (World σ) α) := by
  rw [abandonLink]
  split
  next withdrawn => exact .fail (quiet fault withdrawn)
  next => exact .refuse rfl _

end Walk

namespace Loop

variable {walk : Walk σ} {loud : Fault → Prop} {world last : World σ}

/-- A round in which a number outgrows its range: the bytes of the device, or the place of a link. -/
def State.Overshoots (store : Store σ) (s : σ) : State → Prop
  | .start _ => store.Oversized s
  | .link entry _ registers =>
    let distance := entry.firstSector.toNat * registers.bytesPerSector.toNat
    ¬ (Offset.Fits distance ∧ Offset.Fits (registers.table.toInt + distance))
  | _ => False

/-- Whatever a round fails with it reports, as far as its first read and the place of its link allow. -/
theorem advance_outspoken (vocal : walk.store.Vocal Fault.Loud)
    (quiet : ∀ fault, fault.isWithdrawal = true → ¬ loud fault) (state : State)
    (starts : ∀ bytes, state = .start bytes → Act.Outspoken id loud (walk.readRecord 0))
    (places : ∀ entry rest registers fault, state = .link entry rest registers →
      Offset.ofSector registers.table.toInt entry.firstSector registers.bytesPerSector = .error fault →
      ¬ loud fault) :
    Act.Outspoken id loud (advance walk state) := by
  cases state with
  | start bytes => exact .bind (starts bytes rfl) fun record => .bind (.note _) fun _ => .pure _
  | table record registers =>
    rw [advance]
    split
    · exact .refuse rfl _
    · exact .pure _
  | entries rest pending registers =>
    rcases rest with _ | ⟨entry, rest⟩
    · rcases pending with _ | ⟨next, record⟩ <;> simp only [advance]
      · split
        · exact .pure _
        · exact .bind (.note _) fun _ => .pure _
      · split
        · exact .refuse rfl _
        split
        · exact .pure _
        · exact .pure _
    · simp only [advance]
      split
      · split
        · exact .refuse rfl _
        · exact .pure _
      · exact .bind (.note _) fun _ => .pure _
  | link entry rest registers =>
    have tried (offset : Int) : Act.Outspoken id loud (walk.readRecord offset).attempt :=
      .attempt (walk.readRecord_outspoken vocal offset).grows
    refine .bind (.ofExcept (places entry rest registers · rfl)) fun offset => .bind (.note _) fun _ => ?_
    refine .bind (tried offset) fun result => ?_
    cases result with
    | ok record => exact .pure _
    | error fault =>
      dsimp only
      split
      · split
        · exact .pure _
        · exact .bind (.note _) fun _ => .pure _
      · exact Walk.abandonLink_outspoken quiet _ _
  | finished resolved => exact .pure _
  | overflow => exact .pure _

theorem advance_loud (vocal : walk.store.Vocal Fault.Loud) (state : State) :
    Act.Outspoken id Fault.Loud (advance walk state) := by
  apply advance_outspoken vocal
  · exact fun _ withdrawn => (Fault.withdrawal_quiet withdrawn).1
  · exact fun _ _ => walk.readRecord_outspoken vocal 0
  · intro entry rest registers fault _ astray
    rw [Offset.ofSector_faults astray]
    decide

/-- A round that fails out of bounds has reported it, or a number has outgrown its range. -/
theorem advance_bounds (builtIn : walk.store.BuiltIn) {state : State}
    (inside : ¬ state.Overshoots walk.store world.stores)
    (failed : (advance walk state).run world = (.error .outOfBounds, last)) :
    world.Warned last := by
  by_cases begins : ∃ bytes, state = .start bytes
  · obtain ⟨bytes, rfl⟩ := begins
    rcases Act.run_bind_eq_error.mp failed with unread | ⟨_, _, _, later⟩
    · exact absurd (walk.readRecord_oversized builtIn (congrArg Prod.fst unread)) inside
    · cases later
  have outspoken : Act.Outspoken id (· = .outOfBounds) (advance walk state) := by
    apply advance_outspoken builtIn.vocal
    · exact fun _ withdrawn => (Fault.withdrawal_quiet withdrawn).2
    · exact fun bytes same => absurd ⟨bytes, same⟩ begins
    · rintro entry rest registers fault rfl astray
      obtain ⟨near, fits⟩ := not_not.mp inside
      have placed := Offset.ofSector_eq_ok.mpr ⟨near, fits, rfl⟩
      cases placed.symm.trans astray
  have warned := outspoken.warns world .outOfBounds rfl
  rw [failed] at warned
  exact warned rfl

/-- Where a run ends with a fault, the round that ended it has reported the fault or gone out of range. -/
theorem Runs.reported (builtIn : walk.store.BuiltIn) (runs : Runs walk state world outcome last)
    (failed : outcome = .error fault) :
    (fault.Loud → world.Warned last) ∧
    (fault = .outOfBounds → world.Warned last ∨
      ∃ final middle, Reaches walk state world final middle ∧ final.Overshoots walk.store middle.stores ∧
        (advance walk final).run middle = (.error .outOfBounds, last)) := by
  induction runs with
  | finished => cases failed
  | @failed state world _ last step =>
    cases failed
    have warned := (advance_loud builtIn.vocal state).warns world fault
    rw [step] at warned
    refine ⟨fun isLoud => warned isLoud rfl, ?_⟩
    rintro rfl
    by_cases beyond : state.Overshoots walk.store world.stores
    · exact .inr ⟨state, world, .here, beyond, step⟩
    · exact .inl (advance_bounds builtIn beyond step)
  | @next state world following middle _ last step _ ih =>
    have grows := (advance_loud builtIn.vocal state).grows world
    rw [step] at grows
    obtain ⟨loud, bounds⟩ := ih failed
    refine ⟨fun isLoud => (loud isLoud).before grows, fun same => ?_⟩
    rcases bounds same with warned | ⟨final, later, reaches, beyond⟩
    · exact .inl (warned.before grows)
    · exact .inr ⟨final, later, .next step reaches, beyond⟩

end Loop

/-- The last round of a walk is one in which a number outgrows its range. -/
def Walk.Overshoots (walk : Walk σ) (size : SectorSize) (world last : World σ) : Prop :=
  ∃ state middle, Loop.Reaches walk (.start size.bytes) world state middle ∧
    state.Overshoots walk.store middle.stores ∧
    (Loop.advance walk state).run middle = (.error .outOfBounds, last)

theorem Walk.resolve_reported {walk : Walk σ} (builtIn : walk.store.BuiltIn) (size : SectorSize) (world : World σ)
    (failed : ((walk.resolve size).run world).1 = .error fault) :
    (fault.Loud → world.Warned ((walk.resolve size).run world).2) ∧
    (fault = .outOfBounds → world.Warned ((walk.resolve size).run world).2 ∨
      walk.Overshoots size world ((walk.resolve size).run world).2) := by
  have runs := Loop.resolve_runs walk size world
  rw [failed] at runs
  exact runs.reported builtIn rfl

theorem Walk.resolve_outspoken {walk : Walk σ} (builtIn : walk.store.BuiltIn) (size : SectorSize) :
    Act.Outspoken id Fault.Loud (walk.resolve size) := by
  constructor
  · exact (resolve_inStep walk walk rfl size).keeps Grows (fun _ => List.suffix_refl _)
      (fun _ _ _ => List.IsSuffix.trans) (fun _ _ => List.suffix_cons _ _) walk.readRecord_grows
  · exact fun world fault isLoud failed => (resolve_reported builtIn size world failed).1 isLoud

end PartitionTable
