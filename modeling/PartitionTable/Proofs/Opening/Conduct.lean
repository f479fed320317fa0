import PartitionTable.Proofs.Lifetime
import PartitionTable.Proofs.Opening.Run

/-! How an opening and a closing treat a store, told by the calls that they put. A store that is
open already is only looked at. One that is opened for the volume is closed again at once if it
cannot be mounted, and if it is mounted then the mount remembers that it has to be closed. -/
namespace PartitionTable

def Call.isLook : Call → Bool
  | .size | .read .. => true
  | .acquire | .release => false

/-- What changes whether a store is open: only opening and closing. An opening that fails leaves
it closed, and so does every closing. -/
structure Store.Shuts (store : Store σ) : Prop where
  refused : ∀ s fault, (store.acquire s).result = .error fault → store.isOpen (store.acquire s).state = false
  released : ∀ s, store.isOpen (store.release s).state = false
  looked : ∀ s call, call.isLook = true → store.isOpen (store.reply call s).state = store.isOpen s

theorem Memory.shuts : Memory.store.Shuts where
  refused := nofun
  released _ := rfl
  looked s call look := by
    cases call with
    | acquire => cases look
    | release => cases look
    | size => rfl
    | read length offset =>
      simp only [Store.reply, Memory.store, Memory.read, Reply.map]
      split <;> rfl

def Looks (trace : List Exchange) : Prop := ∀ exchange ∈ trace, exchange.call.isLook = true

namespace Looks

theorem nil : Looks [] := nofun

theorem single (look : exchange.call.isLook = true) : Looks [exchange] := by simpa [Looks] using look

theorem append (first : Looks before) (second : Looks after) : Looks (before ++ after) :=
  List.forall_mem_append.mpr ⟨first, second⟩

end Looks

namespace Served

variable {store : Store σ} {world last : World σ}

theorem looked (served : Served store world trace last) (shuts : store.Shuts) (looks : Looks trace) :
    store.isOpen last.stores = store.isOpen world.stores := by
  induction served with
  | rest => rfl
  | note _ ih => exact ih looks
  | call _ ih =>
    obtain ⟨look, others⟩ := List.forall_mem_cons.mp looks
    exact (ih others).trans (shuts.looked _ _ look)

end Served

namespace Volume

/-- What an opening leaves: the volume as it was, or the store mounted on it. -/
inductive Settled (store : Store σ) (openedHere : Bool) (volume : Volume σ) : Except Fault Unit → Volume σ → Prop where
  | failed : Settled store openedHere volume (.error fault) volume
  | mounted : later.mount = some found → found.store = store → found.openedHere = openedHere →
      Settled store openedHere volume (.ok ()) later

theorem attach_settled (store : Store σ) (ownership : Ownership) (openedHere : Bool) (volume : Volume σ)
    (world : World σ) :
    Settled store openedHere volume ((attach store ownership openedHere).run (volume, world)).1
      ((attach store ownership openedHere).run (volume, world)).2.1 := by
  rcases sized : (store.size world.stores).result with fault | bytes
  · rw [attach_unsized sized]
    exact .failed
  rw [attach_sized sized]
  rcases ((volume.walk store).resolve volume.sectorSize).run (world.absorb (store.size world.stores)) with
    ⟨fault | chain, later⟩
  · exact .failed
  · exact .mounted rfl rfl rfl

theorem attach_looks (store : Store σ) (ownership : Ownership) (openedHere : Bool) (volume : Volume σ)
    (world : World σ) :
    ∃ looks, Looks looks ∧ Served store world looks ((attach store ownership openedHere).run (volume, world)).2.2 := by
  have asked : Served store world [store.exchange .size world.stores] (world.absorb (store.size world.stores)) :=
    .call .rest
  have look : Looks [store.exchange .size world.stores] := .single rfl
  rcases sized : (store.size world.stores).result with fault | bytes
  · rw [attach_unsized sized]
    exact ⟨_, look, asked⟩
  rw [attach_sized sized]
  obtain ⟨trace, served, sparing, _⟩ :=
    (volume.walk store).resolve_traced volume.sectorSize (world.absorb (store.size world.stores))
  have reads : Looks trace := by
    intro exchange member
    obtain ⟨_, read⟩ := sparing.reads exchange member
    simp [read.call, Call.isLook]
  refine ⟨_, look.append reads, asked.append ?_⟩
  rcases run : ((volume.walk store).resolve volume.sectorSize).run (world.absorb (store.size world.stores)) with
    ⟨fault | chain, later⟩
  all_goals rw [run] at served
  · exact served
  · exact served.noted

/-- How an opening treats a store that it has to open first. -/
inductive Borrowed (store : Store σ) (volume : Volume σ) (world : World σ) :
    List Exchange → Volume σ → World σ → Prop where
  | refused : (store.acquire world.stores).result = .error fault →
      Borrowed store volume world [store.exchange .acquire world.stores] volume
        (world.absorb (store.acquire world.stores))
  | kept : (store.acquire world.stores).result = .ok () → Looks looks →
      later.mount = some found → found.store = store → found.openedHere = true →
      Borrowed store volume world (store.exchange .acquire world.stores :: looks) later last
  | returned {middle : World σ} : (store.acquire world.stores).result = .ok () → Looks looks →
      Borrowed store volume world
        (store.exchange .acquire world.stores :: looks ++ [store.exchange .release middle.stores]) volume
        (middle.absorb (store.release middle.stores))

theorem acquireAndAttach_borrowed (store : Store σ) (ownership : Ownership) (volume : Volume σ) (world : World σ) :
    ∃ trace, Served store world trace ((acquireAndAttach store ownership).run (volume, world)).2.2 ∧
      Borrowed store volume world trace ((acquireAndAttach store ownership).run (volume, world)).2.1
        ((acquireAndAttach store ownership).run (volume, world)).2.2 := by
  have acquired : Served store world [store.exchange .acquire world.stores]
      (world.absorb (store.acquire world.stores)) := .call .rest
  simp only [acquireAndAttach, Act.run_bind, Act.run_beside, run_ask]
  rcases opened : (store.acquire world.stores).result with fault | done
  · exact ⟨_, acquired, .refused opened⟩
  obtain ⟨looks, look, served⟩ :=
    attach_looks store ownership true volume (world.absorb (store.acquire world.stores))
  have settled := attach_settled store ownership true volume (world.absorb (store.acquire world.stores))
  rcases run : (attach store ownership true).run (volume, world.absorb (store.acquire world.stores)) with
    ⟨fault | done, later, middle⟩
  all_goals rw [run] at served settled
  · cases settled
    have released : Served store middle [store.exchange .release middle.stores]
        (middle.absorb (store.release middle.stores)) := .call .rest
    simp only [attachOrRelease_failed run, ↓reduceIte]
    exact ⟨_, acquired.append (served.append released), .returned opened look⟩
  · cases settled with
    | mounted mount same here =>
      simp only [attachOrRelease_done run]
      exact ⟨_, acquired.append served, .kept opened look mount same here⟩

theorem attachOrRelease_visited (store : Store σ) (ownership : Ownership) (volume : Volume σ) (world : World σ) :
    ∃ looks, Looks looks ∧
      Served store world looks ((attachOrRelease store ownership false).run (volume, world)).2.2 ∧
      Settled store false volume ((attachOrRelease store ownership false).run (volume, world)).1
        ((attachOrRelease store ownership false).run (volume, world)).2.1 := by
  obtain ⟨looks, look, served⟩ := attach_looks store ownership false volume world
  have settled := attach_settled store ownership false volume world
  rcases run : (attach store ownership false).run (volume, world) with ⟨fault | done, later, last⟩
  all_goals rw [run] at served settled
  · rw [attachOrRelease_failed run]
    exact ⟨looks, look, served, settled⟩
  · rw [attachOrRelease_done run]
    exact ⟨looks, look, served, settled⟩

/-- An opening that fails leaves the store open or closed, as it found it. -/
theorem openStore_failed {store : Store σ} {volume : Volume σ} {world : World σ} (shuts : store.Shuts)
    (failed : ((openStore store).run (volume, world)).1 = .error fault) :
    store.isOpen ((openStore store).run (volume, world)).2.2.stores = store.isOpen world.stores := by
  obtain ⟨_, _, unchanged⟩ := openStore_clean store volume world
  cases isOpen : volume.isOpen with
  | true => rw [opening_refused (.inl rfl) isOpen]
  | false =>
    cases ready : store.isOpen world.stores with
    | true =>
      obtain ⟨looks, look, served, _⟩ := attachOrRelease_visited store .borrowedByCaller volume world
      rw [openStore_ready isOpen ready, served.looked shuts look, ready]
    | false =>
      have same := unchanged fault failed
      obtain ⟨trace, _, borrowed⟩ := acquireAndAttach_borrowed store .borrowedByCaller volume world
      rw [openStore_unready isOpen ready] at same ⊢
      rw [same] at borrowed
      generalize ((acquireAndAttach store .borrowedByCaller).run (volume, world)).2.2 = last at borrowed ⊢
      cases borrowed with
      | refused fault => exact shuts.refused _ _ fault
      | kept _ _ mounted => simp [Volume.isOpen, mounted] at isOpen
      | returned => exact shuts.released _

theorem close_stores {volume : Volume σ} {mount : Mount σ} (mounted : volume.mount = some mount) (world : World σ) :
    (close.run (volume, world)).2.2.stores =
      if mount.openedHere then (mount.store.release world.stores).state else world.stores := by
  simp only [close, Act.run_bind, current, Act.run_view, mounted, Act.run_beside, Act.run_attempt,
    Act.run_change, Act.run_ofExcept]
  cases openedHere : mount.openedHere with
  | false => simp [releaseMount, openedHere]
  | true =>
    simp only [releaseMount, openedHere, ↓reduceIte, Act.run_bind, Act.run_attempt, run_ask]
    cases (mount.store.release world.stores).result <;> rfl

theorem close_served {volume : Volume σ} {mount : Mount σ} (mounted : volume.mount = some mount) (world : World σ) :
    ∃ last, Served mount.store world
        (if mount.openedHere then [mount.store.exchange .release world.stores] else []) last ∧
      (close.run (volume, world)).2.2.stores = last.stores := by
  rw [close_stores mounted]
  cases mount.openedHere with
  | false => exact ⟨world, .rest, rfl⟩
  | true => exact ⟨world.absorb (mount.store.release world.stores), .call .rest, rfl⟩

/-- A mount knows whether its store was closed. If it was not, it was only looked at. -/
theorem openStore_mounts {store : Store σ} {volume later : Volume σ} {world last : World σ}
    (closed : volume.isOpen = false) (opened : (openStore store).run (volume, world) = (.ok (), later, last)) :
    ∃ found, later.mount = some found ∧ found.store = store ∧ found.openedHere = !store.isOpen world.stores ∧
      (store.isOpen world.stores = true → ∃ looks, Looks looks ∧ Served store world looks last) := by
  obtain ⟨_, _, found, _, same⟩ := openStore_ok opened
  have mounted : later.mount = some found := congrArg mount same
  cases ready : store.isOpen world.stores with
  | true =>
    rw [openStore_ready closed ready] at opened
    obtain ⟨looks, look, served, settled⟩ := attachOrRelease_visited store .borrowedByCaller volume world
    rw [opened] at served settled
    cases settled with
    | mounted mount known here => exact ⟨_, mount, known, here, fun _ => ⟨looks, look, served⟩⟩
  | false =>
    rw [openStore_unready closed ready] at opened
    obtain ⟨trace, _, borrowed⟩ := acquireAndAttach_borrowed store .borrowedByCaller volume world
    rw [opened] at borrowed
    have empty : volume.mount = none := by simpa [isOpen] using closed
    cases borrowed with
    | refused => cases empty.symm.trans mounted
    | kept _ _ mount known here => exact ⟨_, mount, known, here, fun isOpen => absurd isOpen Bool.false_ne_true⟩
    | returned => cases empty.symm.trans mounted

/-- An opening and a closing, whatever came of them, leave the volume closed and the store as it was. -/
theorem openStore_close {store : Store σ} {volume : Volume σ} (shuts : store.Shuts) (closed : volume.isOpen = false)
    (world : World σ) :
    let ended := close.run ((openStore store).run (volume, world)).2
    ended.2.1.isOpen = false ∧ store.isOpen ended.2.2.stores = store.isOpen world.stores := by
  obtain ⟨_, _, unchanged⟩ := openStore_clean store volume world
  rcases run : (openStore store).run (volume, world) with ⟨fault | done, later, last⟩
  · have same := openStore_failed shuts (congrArg (·.1) run)
    rw [run] at unchanged same
    obtain rfl := unchanged fault rfl
    simp only [close_closed closed]
    exact ⟨closed, same⟩
  obtain ⟨found, mounted, rfl, here, looked⟩ := openStore_mounts closed run
  simp only [close_stores mounted, (close_run mounted last).2.1]
  refine ⟨rfl, ?_⟩
  cases ready : found.store.isOpen world.stores with
  | true =>
    obtain ⟨looks, look, served⟩ := looked ready
    rw [here, ready]
    exact (served.looked shuts look).trans ready
  | false =>
    rw [here, ready]
    exact shuts.released last.stores

end Volume
end PartitionTable
