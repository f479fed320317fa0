import PartitionTable.Volume
import PartitionTable.Proofs.Chain.Trail
import PartitionTable.Store.Memory

/-! An opening that fails leaves no mark on the volume. Whatever the store answers, all that
happens on the way is told by the calls that it was put; the volume itself is written in the
last step only, and that step cannot fail. -/
namespace PartitionTable.Volume

/-- A step over a volume and a world that puts calls to one store, and changes the volume only
if it succeeds. -/
def Clean (store : Store σ) (act : Act (Volume σ × World σ) Unit) : Prop :=
  ∀ volume world, ∃ trace, Served store world trace (act.run (volume, world)).2.2 ∧
    ∀ fault, (act.run (volume, world)).1 = .error fault → (act.run (volume, world)).2.1 = volume

theorem current_clean {store : Store σ} {next : Volume σ → Act (Volume σ × World σ) Unit}
    (rest : ∀ volume, Clean store (next volume)) : Clean store (current >>= next) :=
  fun volume world => rest volume volume world

theorem fail_clean (store : Store σ) (fault : Fault) : Clean store (.fail fault) :=
  fun _ _ => ⟨[], .rest, fun _ _ => rfl⟩

theorem replace_clean (store : Store σ) (volume : Volume σ) : Clean store (replace volume) :=
  fun _ _ => ⟨[], .rest, nofun⟩

theorem beside_clean {store : Store σ} {act : Act (World σ) α} {next : α → Act (Volume σ × World σ) Unit}
    (traced : act.Traced store post) (rest : ∀ a, Clean store (next a)) :
    Clean store (act.beside >>= next) := by
  intro volume world
  obtain ⟨before, served, _⟩ := traced world
  simp only [Act.run_bind, Act.run_beside]
  rcases run : act.run world with ⟨fault | a, middle⟩ <;> rw [run] at served
  · exact ⟨before, served, fun _ _ => rfl⟩
  · obtain ⟨after, more, holds⟩ := rest a volume middle
    exact ⟨before ++ after, served.append more, holds⟩

theorem ask_traced {store : Store σ} {request : σ → Reply σ α} {answer : α → Answer} (call : Call)
    (same : ∀ s, store.reply call s = (request s).map answer) :
    (ask request).Traced store fun _ _ => True := .ask same fun _ => trivial

theorem attach_clean (store : Store σ) (ownership : Ownership) (openedHere : Bool) :
    Clean store (attach store ownership openedHere) := by
  refine current_clean fun volume => ?_
  have size : (ask store.size).Traced store fun _ _ => True := ask_traced .size fun _ => rfl
  refine beside_clean size fun size => ?_
  let walk : Walk σ := ⟨store, volume.token, volume.options.depthLimit⟩
  refine beside_clean (walk.resolve_traced volume.sectorSize) fun chain => ?_
  have noted : (note (.volumeOpened size chain.partitions.length)).Traced store fun _ _ => True := .note trivial
  exact beside_clean noted fun _ => replace_clean store _

theorem attachOrRelease_clean (store : Store σ) (ownership : Ownership) (openedHere : Bool) :
    Clean store (attachOrRelease store ownership openedHere) := by
  intro volume world
  obtain ⟨trace, served, holds⟩ := attach_clean store ownership openedHere volume world
  simp only [attachOrRelease, Act.run_bind, Act.run_attempt]
  rcases run : (attach store ownership openedHere).run (volume, world) with ⟨fault | done, after, later⟩
  all_goals rw [run] at served holds
  · cases holds fault rfl
    cases openedHere with
    | false => exact ⟨trace, served, fun _ _ => rfl⟩
    | true =>
      have released : (ask store.release).Traced store fun _ _ => True := ask_traced .release fun _ => rfl
      obtain ⟨last, more, _⟩ := released later
      exact ⟨trace ++ last, served.append more, fun _ _ => rfl⟩
  · exact ⟨trace, served, nofun⟩

theorem acquire_clean (store : Store σ) (ownership : Ownership) :
    Clean store ((ask store.acquire).beside >>= fun _ => attachOrRelease store ownership true) := by
  have acquired : (ask store.acquire).Traced store fun _ _ => True := ask_traced .acquire fun _ => rfl
  exact beside_clean acquired fun _ => attachOrRelease_clean store ownership true

theorem openOwned_clean (store : Store σ) : Clean store (openOwned store) := by
  refine current_clean fun volume => ?_
  by_cases isOpen : volume.isOpen = true
  · rw [if_pos isOpen]
    exact fail_clean store .alreadyOpen
  · rw [if_neg isOpen]
    exact acquire_clean store .ownedByVolume

theorem openStore_clean (store : Store σ) : Clean store (openStore store) := by
  refine current_clean fun volume => ?_
  by_cases isOpen : volume.isOpen = true
  · rw [if_pos isOpen]
    exact fail_clean store .alreadyOpen
  rw [if_neg isOpen]
  intro before world
  simp only [Act.run_bind, Act.run_view]
  by_cases ready : store.isOpen world.stores = true
  · rw [if_pos ready]
    exact attachOrRelease_clean store .borrowedByCaller false before world
  · rw [if_neg ready]
    exact acquire_clean store .borrowedByCaller before world

/-- An open volume refuses to open anything else. -/
theorem opening_refused {store : Store σ} {opening : Act (Volume σ × World σ) Unit}
    (either : opening = openStore store ∨ opening = openOwned store) {volume : Volume σ}
    (isOpen : volume.isOpen = true) (world : World σ) :
    opening.run (volume, world) = (.error .alreadyOpen, volume, world) := by
  rcases either with rfl | rfl
  · simp [openStore, Act.run_bind, current, isOpen]
  · simp [openOwned, Act.run_bind, current, isOpen]

/-- Whether a volume opens a store of its own or one that the caller keeps, and whatever the
store answers: a failure leaves the volume as it was, and an open volume puts no call at all.
Flags change only if the store itself signals. -/
theorem opening_atomic (store : Store σ) (opening : Act (Volume σ × World σ) Unit)
    (either : opening = openStore store ∨ opening = openOwned store) (volume : Volume σ) (world : World σ) :
    (∀ fault, (opening.run (volume, world)).1 = .error fault → (opening.run (volume, world)).2.1 = volume) ∧
    (volume.isOpen = true → opening.run (volume, world) = (.error .alreadyOpen, volume, world)) ∧
    ∃ trace, Served store world trace (opening.run (volume, world)).2.2 ∧
      (opening.run (volume, world)).2.2.signals =
        (trace.flatMap (·.signals)).foldl Signals.apply world.signals := by
  have clean : Clean store opening := by
    rcases either with rfl | rfl
    · exact openStore_clean store
    · exact openOwned_clean store
  obtain ⟨trace, served, unchanged⟩ := clean volume world
  exact ⟨unchanged, fun isOpen => opening_refused either isOpen world, trace, served, served.signals⟩

/-- A disk with a partition and a link that only the largest sectors bring to a table. The
link of that table leads back to itself. -/
def knotted : Memory where
  image.size := 8192
  image.byte offset := ([(450, 0x05), (454, 1), (466, 0x83), (470, 2), (474, 3), (510, 0x55), (511, 0xaa),
    (4546, 0x0f), (4606, 0x55), (4607, 0xaa)].lookup offset).getD 0

theorem opening_atomic_knotted :
    ((openStore Memory.store).run ({ token := ⟨0⟩ }, .start knotted)).1 = .error .outOfBounds ∧
    ((openStore Memory.store).run ({ token := ⟨0⟩ }, .start knotted)).2.1 = { token := ⟨0⟩ } := by
  have atomic := opening_atomic Memory.store (openStore Memory.store) (.inl rfl) { token := ⟨0⟩ } (.start knotted)
  have failed : (match ((openStore Memory.store).run ({ token := ⟨0⟩ }, .start knotted)).1 with
    | .ok _ => none
    | .error fault => some fault) = some .outOfBounds := by decide +kernel
  rcases outcome : ((openStore Memory.store).run ({ token := ⟨0⟩ }, .start knotted)).1 with fault | done
  all_goals rw [outcome] at failed
  · cases failed
    exact ⟨rfl, atomic.1 _ outcome⟩
  · cases failed

end PartitionTable.Volume
