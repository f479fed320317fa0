import PartitionTable.Probe
import PartitionTable.Proofs.Cache
import PartitionTable.Proofs.Chain.Depth
import PartitionTable.Proofs.Reader.Retry

/-! Warnings. Where something goes wrong is where it is reported: in a store that the system or a device
refuses, or where a read comes back short. The fault is then handed on, and on the way it may be taken
for another; but the warning stays in the log. So it is enough that each step which hands a fault on
takes nothing back, and that each step which makes up a fault of its own writes a warning with it. -/
namespace PartitionTable

/-- Faults that nobody comes to see without a warning. -/
def Fault.Loud (fault : Fault) : Prop := fault = .readFailed ∨ fault = .unsupportedLayout

instance (fault : Fault) : Decidable fault.Loud := inferInstanceAs (Decidable (_ ∨ _))

def World.Warned (world later : World σ) : Prop :=
  ∃ notice, notice.isWarning = true ∧ world.Reports notice later

namespace World.Warned

variable {world middle later : World σ}

theorem before (warned : middle.Warned later) (earlier : world.notices <:+ middle.notices) :
    world.Warned later := by
  obtain ⟨notice, warning, reports⟩ := warned
  exact ⟨notice, warning, reports.before earlier⟩

theorem after (warned : world.Warned middle) (onward : middle.notices <:+ later.notices) :
    world.Warned later := by
  obtain ⟨notice, warning, reports⟩ := warned
  exact ⟨notice, warning, reports.after onward⟩

theorem note {notice : Notice} (warning : notice.isWarning = true) (world : World σ) :
    world.Warned (world.note notice) :=
  ⟨notice, warning, [notice], rfl, List.mem_singleton_self _⟩

end World.Warned

/-- A step that takes nothing back from the log of a world, and that writes a warning before it fails with
a fault of a kind. -/
structure Act.Outspoken (world : ω → World σ) (loud : Fault → Prop) (act : Act ω α) : Prop where
  grows : ∀ w, (world w).notices <:+ (world (act.run w).2).notices
  warns : ∀ w fault, loud fault → (act.run w).1 = .error fault → (world w).Warned (world (act.run w).2)

namespace Act.Outspoken

variable {world : ω → World σ} {loud : Fault → Prop}

theorem mono {act : Act ω α} {louder : Fault → Prop} (outspoken : Outspoken world louder act)
    (among : ∀ fault, loud fault → louder fault) : Outspoken world loud act :=
  ⟨outspoken.grows, fun w fault isLoud => outspoken.warns w fault (among fault isLoud)⟩

theorem ofExcept {result : Except Fault α} (quiet : ∀ fault, result = .error fault → ¬ loud fault) :
    Outspoken world loud (.ofExcept result) :=
  ⟨fun _ => List.suffix_refl _, fun _ fault isLoud failed => absurd isLoud (quiet fault failed)⟩

theorem pure (a : α) : Outspoken world loud (Pure.pure a) := .ofExcept nofun

theorem fail (quiet : ¬ loud fault) : Outspoken world loud (.fail fault : Act ω α) :=
  .ofExcept fun _ same => Except.error.inj same ▸ quiet

theorem view (read : ω → α) : Outspoken world loud (.view read) := ⟨fun _ => List.suffix_refl _, nofun⟩

theorem change {write : ω → ω} (keeps : ∀ w, (world (write w)).notices = (world w).notices) :
    Outspoken world loud (.change write) :=
  ⟨fun w => (keeps w).symm ▸ List.suffix_refl _, nofun⟩

theorem attempt {act : Act ω α} (grows : ∀ w, (world w).notices <:+ (world (act.run w).2).notices) :
    Outspoken world loud act.attempt :=
  ⟨grows, nofun⟩

theorem bind {first : Act ω α} {next : α → Act ω β} (head : Outspoken world loud first)
    (tail : ∀ a, Outspoken world loud (next a)) : Outspoken world loud (first >>= next) := by
  constructor
  · intro w
    have more := head.grows w
    rcases run : first.run w with ⟨fault | a, later⟩ <;> rw [run] at more
    · rwa [run_bind_error run]
    · rw [run_bind_ok run]
      exact more.trans ((tail a).grows later)
  · intro w fault isLoud failed
    have more := head.grows w
    have warned := head.warns w fault isLoud
    rcases run : first.run w with ⟨early | a, later⟩ <;> rw [run] at more warned
    · rw [run_bind_error run] at failed ⊢
      exact warned (congrArg Except.error (Except.error.inj failed))
    · rw [run_bind_ok run] at failed ⊢
      exact ((tail a).warns later fault isLoud failed).before more

/-- What was taken as a value can be handed on after all. Then the warning stands already. -/
theorem bindAttempt {first : Act ω α} {next : Except Fault α → Act ω β} (head : Outspoken world loud first)
    (tail : ∀ result, Outspoken world (fun fault => loud fault ∧ result ≠ .error fault) (next result)) :
    Outspoken world loud (first.attempt >>= next) := by
  constructor
  · intro w
    exact (head.grows w).trans ((tail (first.run w).1).grows (first.run w).2)
  · intro w fault isLoud failed
    have onward := tail (first.run w).1
    by_cases early : (first.run w).1 = .error fault
    · exact (head.warns w fault isLoud early).after (onward.grows (first.run w).2)
    · exact (onward.warns (first.run w).2 fault ⟨isLoud, early⟩ failed).before (head.grows w)

section World

theorem note (notice : Notice) : Outspoken id loud (PartitionTable.note notice : Act (World σ) Unit) :=
  ⟨fun _ => List.suffix_cons _ _, nofun⟩

theorem refuse {notice : Notice} (warning : notice.isWarning = true) (fault : Fault) :
    Outspoken id loud (PartitionTable.refuse notice fault : Act (World σ) α) :=
  ⟨fun _ => List.suffix_cons _ _, fun world _ _ _ => .note warning world⟩

theorem beside {act : Act (World σ) α} (outspoken : Outspoken id loud act) :
    Outspoken Prod.snd loud (act.beside : Act (ρ × World σ) α) :=
  ⟨fun state => outspoken.grows state.2, fun state => outspoken.warns state.2⟩

theorem isCancelled (token : Token) :
    Outspoken id loud (PartitionTable.isCancelled token : Act (World σ) Bool) := .view _

end World

end Act.Outspoken

def Reply.Vocal (loud : Fault → Prop) (reply : Reply σ α) : Prop :=
  ∀ fault, loud fault → reply.result = .error fault → ∃ notice ∈ reply.notices, notice.isWarning = true

namespace Reply.Vocal

variable {loud : Fault → Prop}

theorem ok (a : α) (state : σ) : (Reply.ok a state).Vocal loud := nofun

theorem error_quiet (quiet : ¬ loud fault) (state : σ) (notices : List Notice) :
    (Reply.error fault state notices : Reply σ α).Vocal loud :=
  fun _ isLoud same => absurd (Except.error.inj same ▸ isLoud) quiet

theorem error_warned {notice : Notice} (warning : notice.isWarning = true) (fault : Fault) (state : σ) :
    (Reply.error fault state [notice] : Reply σ α).Vocal loud :=
  fun _ _ _ => ⟨notice, List.mem_singleton_self _, warning⟩

theorem asked {call : σ → Reply σ α} (vocal : ∀ s, (call s).Vocal loud) :
    Act.Outspoken id loud (ask call) := by
  constructor
  · exact fun world => List.suffix_append _ _
  · intro world fault isLoud failed
    obtain ⟨notice, member, warning⟩ := vocal world.stores fault isLoud failed
    exact ⟨notice, warning, _, rfl, List.mem_reverse.mpr member⟩

end Reply.Vocal

namespace Store

structure Vocal (store : Store σ) (loud : Fault → Prop) : Prop where
  acquire : ∀ s, (store.acquire s).Vocal loud
  release : ∀ s, (store.release s).Vocal loud
  size : ∀ s, (store.size s).Vocal loud
  read : ∀ length offset s, (store.read length offset s).Vocal loud

end Store

section BuiltIn

variable {loud : Fault → Prop}

theorem Memory.vocal : Memory.store.Vocal Fault.Loud where
  acquire _ := .ok () _
  release _ := .ok () _
  size memory := .ok memory.image.size _
  read length offset memory := by
    simp only [store, read]
    split
    · exact .ok _ _
    · exact .error_quiet (by decide) _ _

theorem File.vocal (host : Host η) : (File.store host).Vocal Fault.Loud where
  acquire state := by
    simp only [store, acquire]
    split
    · exact .error_quiet (by decide) _ _
    · split
      · exact .ok _ _
      · exact .error_warned rfl _ _
  release _ := .ok () _
  size state := by
    simp only [store, size]
    split
    · exact .error_quiet (by decide) _ _
    · split
      · exact .ok _ _
      · exact .error_warned rfl _ _
  read length offset state := by
    simp only [store, read]
    split
    · exact .error_quiet (by decide) _ _
    · split
      · exact .ok _ _
      · exact .error_quiet (by decide) _ _
      · exact .error_warned rfl _ _

theorem Block.size_vocal (device : Device δ) (block : Block δ) : (size device block).Vocal Fault.Loud := by
  simp only [size]
  split
  · exact .error_warned rfl _ _
  · split
    · exact .ok _ _
    · exact .error_quiet (by decide) _ _

theorem Block.vocal (device : Device δ) : (Block.store device).Vocal Fault.Loud where
  acquire _ := .ok () _
  release _ := .ok () _
  size := size_vocal device
  read length offset block := by
    have sized := size_vocal device block
    simp only [store, read]
    split
    · exact .error_quiet (by decide) _ _
    split
    · exact .ok _ _
    split
    next fault refused =>
      intro other isLoud same
      cases same
      exact sized fault isLoud refused
    split
    · exact .ok _ _
    simp only [readCovering]
    split
    · exact .error_warned rfl _ _
    · exact .ok _ _

theorem Store.BuiltIn.vocal {store : Store σ} (builtIn : store.BuiltIn) : store.Vocal Fault.Loud := by
  cases builtIn with
  | memory => exact Memory.vocal
  | file host => exact File.vocal host
  | block device => exact Block.vocal device

end BuiltIn

section Reads

variable {store : Store σ}

theorem BootRecord.decode_faults (failed : decode bytes = .error fault) :
    fault = .sizeMismatch ∨ fault = .invalidSignature := by
  rw [decode] at failed
  split at failed
  · exact .inl (Except.error.inj failed).symm
  split at failed
  · cases failed
  · exact .inr (Except.error.inj failed).symm

theorem BootRecord.readFrom_outspoken (vocal : store.Vocal Fault.Loud) (offset : Int) :
    Act.Outspoken id Fault.Loud (readFrom store offset) := by
  rw [readFrom]
  split
  · exact .fail (by decide)
  refine .bind (.note _) fun _ => .bind (Reply.Vocal.asked (vocal.read _ _)) fun reading => ?_
  split
  · refine .ofExcept fun fault failed => ?_
    rcases decode_faults failed with rfl | rfl <;> decide
  · exact .refuse rfl _

theorem Probe.firstSector_outspoken (vocal : store.Vocal Fault.Loud) :
    Act.Outspoken id Fault.Loud (firstSector store) := by
  refine .bind (Reply.Vocal.asked (vocal.read _ _)) fun reading => ?_
  split
  · exact .refuse rfl _
  dsimp only
  split
  · exact .pure _
  split
  · exact .bind (.note _) fun _ => .pure _
  · exact .pure _

theorem Probe.run_outspoken (vocal : store.Vocal Fault.Loud) :
    Act.Outspoken id Fault.Loud (run store) := by
  refine .bind (.view _) fun ready => ?_
  split
  · exact firstSector_outspoken vocal
  refine .bind (Reply.Vocal.asked vocal.acquire) fun _ => ?_
  refine .bindAttempt (firstSector_outspoken vocal) fun found => ?_
  have closing : Act.Outspoken id (fun fault => fault.Loud ∧ found ≠ .error fault) (ask store.release) :=
    (Reply.Vocal.asked vocal.release).mono fun _ => And.left
  refine .bindAttempt closing fun closed => ?_
  refine .bind (.ofExcept fun fault same => ?_) fun _ => .bind (.ofExcept fun fault same => ?_) fun _ => .pure _
  · exact fun loud => loud.1.2 same
  · exact fun loud => loud.2 same

end Reads

section Reader

variable {loud : Fault → Prop}

theorem World.grows_note (world : World σ) (notice : Notice) : world.notices <:+ (world.note notice).notices :=
  List.suffix_cons _ _

theorem World.grows_evicted (world : World σ) (leaving : Option Int) :
    world.notices <:+ (world.evicted leaving).notices := by
  cases leaving with
  | none => exact List.suffix_refl _
  | some key => exact List.suffix_cons _ _

theorem Cache.getOrLoad_outspoken {load : Act (World σ) (List UInt8)} (outspoken : Act.Outspoken id loud load)
    (key : Int) : Act.Outspoken Prod.snd loud (getOrLoad key load) := by
  constructor
  · rintro ⟨cache, world⟩
    rcases found : cache.find? key with _ | bytes
    · have missed := (world.grows_note (.cacheMiss key)).trans (outspoken.grows (world.note (.cacheMiss key)))
      rcases loaded : load.run (world.note (.cacheMiss key)) with ⟨fault | bytes, later⟩ <;> rw [loaded] at missed
      · rw [run_failed found loaded]
        exact missed
      · rw [run_loaded found loaded]
        exact missed.trans (later.grows_evicted _)
    · simpa only [run_hit found] using List.suffix_refl world.notices
  · rintro ⟨cache, world⟩ fault isLoud failed
    rcases found : cache.find? key with _ | bytes
    · have warned := outspoken.warns (world.note (.cacheMiss key)) fault isLoud
      rcases loaded : load.run (world.note (.cacheMiss key)) with ⟨early | bytes, later⟩ <;> rw [loaded] at warned
      · rw [run_failed found loaded] at failed ⊢
        exact (warned failed).before (world.grows_note _)
      · rw [run_loaded found loaded] at failed
        cases failed
    · rw [run_hit found] at failed
      cases failed

namespace Reader

variable {reader : Reader σ}

theorem load_outspoken (vocal : reader.store.Vocal Fault.Loud) (sector : Nat) :
    Act.Outspoken id Fault.Loud (reader.load sector) := by
  refine .bind (.isCancelled _) fun raised => ?_
  split
  · exact .fail (by decide)
  split
  · exact .fail (by decide)
  refine .bind (.note _) fun _ => .bind (Reply.Vocal.asked (vocal.read _ _)) fun reading => ?_
  split
  · exact .pure _
  · exact .refuse rfl _

theorem gather_outspoken (vocal : reader.store.Vocal Fault.Loud) (sector count : Nat)
    (pieces : List (List UInt8)) :
    Act.Outspoken Prod.snd Fault.Loud ⟨reader.gather sector count pieces⟩ := by
  induction count generalizing sector pieces with
  | zero => exact .pure _
  | succ count ih =>
    have fetched := Cache.getOrLoad_outspoken (load_outspoken vocal sector) (reader.sectorStart sector)
    -- The loop is written out over its state; as a step it is a load and the loop behind it.
    have onward : (⟨reader.gather sector (count + 1) pieces⟩ : Act (Cache × World σ) (List UInt8)) =
        reader.fetch sector >>= fun piece => ⟨reader.gather (sector + 1) count (piece :: pieces)⟩ := by
      refine Act.ext fun state => ?_
      simp only [gather, Act.run_bind]
      rcases (reader.fetch sector).run state with ⟨_ | _, _⟩ <;> rfl
    rw [onward]
    exact .bind fetched fun piece => ih (sector + 1) (piece :: pieces)

theorem bytesAt_outspoken (vocal : reader.store.Vocal Fault.Loud) (offset length : Nat) :
    Act.Outspoken Prod.snd Fault.Loud (reader.bytesAt offset length) := by
  rw [bytesAt]
  split
  · exact .pure _
  · exact .bind (gather_outspoken vocal _ _ _) fun _ => .pure _

theorem readFrom_warns (vocal : reader.store.Vocal Fault.Loud) (offset length : Nat) (world : World σ)
    (isLoud : fault.Loud) (failed : ((readFrom offset length).run (reader, world)).1 = .error fault) :
    world.Warned ((readFrom offset length).run (reader, world)).2.2 := by
  have warned := (bytesAt_outspoken vocal offset length).warns (reader.cache, world) fault isLoud
  simp only [readFrom] at failed ⊢
  split at failed
  · cases failed
    exact absurd isLoud (by decide)
  next room =>
    rw [if_neg room]
    rcases ran : (reader.bytesAt offset length).run (reader.cache, world) with ⟨early | bytes, cache, later⟩
    all_goals simp only [ran] at failed warned ⊢
    · exact warned failed
    · cases failed

theorem read_warns (vocal : reader.store.Vocal Fault.Loud) (length : Nat) (world : World σ)
    (isLoud : fault.Loud) (failed : ((read length).run (reader, world)).1 = .error fault) :
    world.Warned ((read length).run (reader, world)).2.2 :=
  readFrom_warns vocal reader.cursor length world isLoud failed

theorem readAt_warns (vocal : reader.store.Vocal Fault.Loud) (offset : Int) (length : Nat) (world : World σ)
    (isLoud : fault.Loud) (failed : ((readAt offset length).run (reader, world)).1 = .error fault) :
    world.Warned ((readAt offset length).run (reader, world)).2.2 := by
  rw [readAt] at failed ⊢
  split at failed
  · cases failed
    exact absurd isLoud (by decide)
  next inside =>
    rw [if_neg inside]
    exact readFrom_warns vocal offset.toNat length world isLoud failed

end Reader
end Reader

end PartitionTable
