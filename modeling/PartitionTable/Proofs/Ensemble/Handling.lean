import PartitionTable.Proofs.Ensemble.Hush
import PartitionTable.Proofs.Opening.Conduct

/-! What one happening does about the stores: whether it opens or closes one, told from the transcript,
and which store is mounted before and behind it. Everything else that is put to a store is a look. -/
namespace PartitionTable

/-- What is done to keep a store open and to let it go. -/
inductive Dealing where
  | acquired
  | released
  deriving DecidableEq, Repr

/-- An opening that fails opens nothing. A closing counts also when it reports a fault. -/
def Exchange.dealing? (exchange : Exchange) : Option Dealing :=
  match exchange.call, exchange.answer with
  | .acquire, .ok _ => some .acquired
  | .release, _ => some .released
  | _, _ => none

def dealings (log : List (ι × Exchange)) : List (ι × Dealing) :=
  log.reverse.filterMap fun entry => entry.2.dealing?.map (entry.1, ·)

theorem dealings_append (later before : List (ι × Exchange)) :
    dealings (later ++ before) = dealings before ++ dealings later := by
  rw [dealings, List.reverse_append, List.filterMap_append]
  rfl

/-- What was put to one store goes by its label. -/
theorem dealings_trace (label : ι) (trace : List Exchange) :
    dealings (trace.map (label, ·)).reverse = (trace.filterMap Exchange.dealing?).map (label, ·) := by
  rw [dealings, List.reverse_reverse, List.filterMap_map, List.map_filterMap]
  rfl

theorem Looks.dealing? (looks : Looks trace) : trace.filterMap Exchange.dealing? = [] := by
  refine List.filterMap_eq_nil_iff.mpr fun exchange member => ?_
  have look := looks exchange member
  unfold Exchange.dealing?
  split <;> simp_all [Call.isLook]

theorem Looks.dealings {log : List (ι × Exchange)} (looks : Looks (log.map (·.2))) : dealings log = [] := by
  refine List.filterMap_eq_nil_iff.mpr fun entry member => ?_
  have none := List.filterMap_eq_nil_iff.mp looks.dealing? entry.2
    (List.mem_map_of_mem (List.mem_reverse.mp member))
  rw [none]
  rfl

theorem dealing?_acquired {store : Store σ} (acquired : (store.acquire s).result = .ok ()) :
    (store.exchange .acquire s).dealing? = some .acquired := by
  simp [Exchange.dealing?, Store.exchange, Store.reply, Reply.map, acquired, Except.map]

theorem dealing?_refused {store : Store σ} (refused : (store.acquire s).result = .error fault) :
    (store.exchange .acquire s).dealing? = none := by
  simp [Exchange.dealing?, Store.exchange, Store.reply, Reply.map, refused, Except.map]

theorem Volume.Borrowed.dealings {store : Store σ} {volume next : Volume σ} {world last : World σ}
    (borrowed : Borrowed store volume world trace next last) :
    (next = volume ∧
      (trace.filterMap Exchange.dealing? = [] ∨ trace.filterMap Exchange.dealing? = [.acquired, .released])) ∨
    ∃ found, next.mount = some found ∧ found.store = store ∧ found.openedHere = true ∧
      trace.filterMap Exchange.dealing? = [.acquired] := by
  cases borrowed with
  | refused failed =>
    refine .inl ⟨rfl, .inl ?_⟩
    rw [List.filterMap_cons_none (dealing?_refused failed), List.filterMap_nil]
  | kept acquired looks mounted known here =>
    refine .inr ⟨_, mounted, known, here, ?_⟩
    rw [List.filterMap_cons_some (dealing?_acquired acquired), looks.dealing?]
  | returned acquired looks =>
    refine .inl ⟨rfl, .inr ?_⟩
    rw [List.cons_append, List.filterMap_cons_some (dealing?_acquired acquired), List.filterMap_append,
      looks.dealing?]
    rfl

theorem Store.Shuts.transcribed {store : Store σ} (shuts : store.Shuts) (label : ι) :
    (store.transcribed label).Shuts where
  refused s fault failed := shuts.refused s.1 fault failed
  released s := shuts.released s.1
  looked s call look := by
    rw [reply_transcribed]
    exact shuts.looked s.1 call look

namespace Ensemble

def mount (ensemble : Ensemble ι σ) : Option (Mount (Archive ι σ)) := ensemble.volume.bind (·.mount)

/-- A happening opens a store for the volume: one that nobody else knows, or one that is closed. -/
def Opens (stores : ι → Store σ) (ensemble : Ensemble ι σ) (label : ι) (happening : Happening ι σ) : Prop :=
  happening = .openOwned label ∨
    happening = .openStore label ∧ (stores label).isOpen ensemble.world.stores.1 = false

theorem opens_openStore {stores : ι → Store σ} {ensemble : Ensemble ι σ} {label other : ι} :
    ensemble.Opens stores other (.openStore label) ↔
      label = other ∧ (stores other).isOpen ensemble.world.stores.1 = false := by
  simp [Opens]

/-- What one happening does about the stores, and about the mount. -/
inductive Handled (stores : ι → Store σ) (before later : Ensemble ι σ) :
    Happening ι σ → List (ι × Exchange) → Prop where
  | idle : Looks (log.map (·.2)) → later.mount = before.mount →
      (happening ∈ [.close, .discard] → before.mount = none) → Handled stores before later happening log
  | visited : (stores label).isOpen before.world.stores.1 = true → Looks (log.map (·.2)) → before.mount = none →
      later.mount = some found → found.store = (stores label).transcribed label → found.openedHere = false →
      Handled stores before later (.openStore label) log
  | borrowed {volume next : Volume (Archive ι σ)} {world : World (Archive ι σ)} :
      before.Opens stores label happening → before.mount = none → before.volume = some volume →
      Volume.Borrowed ((stores label).transcribed label) volume before.world trace next world →
      later.volume = some next → Handled stores before later happening (trace.map (label, ·)).reverse
  | ended : happening ∈ [.close, .discard] → before.mount = some found →
      found.store = (stores label).transcribed label → later.mount = none →
      Handled stores before later happening
        (if found.openedHere then [(label, (stores label).exchange .release before.world.stores.1)] else [])

variable {stores : ι → Store σ} {token : Token} {ensemble later : Ensemble ι σ}

def Handles (stores : ι → Store σ) (before later : Ensemble ι σ) (happening : Happening ι σ) : Prop :=
  ∃ log, later.world.stores.2 = log ++ before.world.stores.2 ∧ Handled stores before later happening log

theorem Handles.silent {happening : Happening ι σ} (log : later.world.stores.2 = ensemble.world.stores.2)
    (mount : later.mount = ensemble.mount)
    (ends : happening ∈ [.close, .discard] → ensemble.mount = none) : Handles stores ensemble later happening :=
  ⟨[], log, .idle .nil mount ends⟩

theorem mount_eq {volume : Volume (Archive ι σ)} (present : ensemble.volume = some volume) :
    ensemble.mount = volume.mount := by
  rw [mount, present, Option.bind_some]

theorem isOpen_iff {volume : Volume σ} : volume.isOpen = false ↔ volume.mount = none := by
  simp [Volume.isOpen]

section Openings

variable {volume : Volume (Archive ι σ)}

theorem handles_refused (present : ensemble.volume = some volume) (isOpen : volume.isOpen = true)
    {opening : Act (Volume (Archive ι σ) × World (Archive ι σ)) Unit} (store : Store (Archive ι σ))
    (either : opening = Volume.openStore store ∨ opening = Volume.openOwned store) :
    operate opening ensemble = ensemble := by
  have refused := Volume.opening_refused either isOpen ensemble.world
  obtain ⟨_, readers, world⟩ := ensemble
  cases present
  simp only [operate, refused]

theorem handles_borrowed {label : ι} {happening : Happening ι σ} {ownership : Ownership}
    {opening : Act (Volume (Archive ι σ) × World (Archive ι σ)) Unit}
    (opens : ensemble.Opens stores label happening) (present : ensemble.volume = some volume)
    (empty : volume.mount = none)
    (same : opening.run (volume, ensemble.world) =
      (Volume.acquireAndAttach ((stores label).transcribed label) ownership).run (volume, ensemble.world)) :
    Handles stores ensemble (operate opening ensemble) happening := by
  obtain ⟨trace, served, borrowed⟩ :=
    Volume.acquireAndAttach_borrowed ((stores label).transcribed label) ownership volume ensemble.world
  rw [← same] at served borrowed
  simp only [operate, present]
  exact ⟨_, served.transcribed, .borrowed opens ((mount_eq present).trans empty) present borrowed rfl⟩

theorem handles_openOwned (label : ι) : Handles stores ensemble
    (operate (Volume.openOwned ((stores label).transcribed label)) ensemble) (.openOwned label) := by
  rcases present : ensemble.volume with _ | volume
  · simp only [operate, present]
    exact .silent rfl rfl (by simp)
  cases isOpen : volume.isOpen with
  | true =>
    rw [handles_refused present isOpen _ (.inr rfl)]
    exact .silent rfl rfl (by simp)
  | false =>
    exact handles_borrowed (.inl rfl) present (isOpen_iff.mp isOpen) (Volume.openOwned_closed isOpen)

theorem handles_openStore (label : ι) : Handles stores ensemble
    (operate (Volume.openStore ((stores label).transcribed label)) ensemble) (.openStore label) := by
  rcases present : ensemble.volume with _ | volume
  · simp only [operate, present]
    exact .silent rfl rfl (by simp)
  cases isOpen : volume.isOpen with
  | true =>
    rw [handles_refused present isOpen _ (.inl rfl)]
    exact .silent rfl rfl (by simp)
  | false =>
    have empty := isOpen_iff.mp isOpen
    cases ready : (stores label).isOpen ensemble.world.stores.1 with
    | false =>
      have unready : ((stores label).transcribed label).isOpen ensemble.world.stores = false := ready
      exact handles_borrowed (.inr ⟨rfl, ready⟩) present empty (Volume.openStore_unready isOpen unready)
    | true =>
      have same : (Volume.openStore ((stores label).transcribed label)).run (volume, ensemble.world) = _ :=
        Volume.openStore_ready isOpen ready
      obtain ⟨looks, look, served, settled⟩ := Volume.attachOrRelease_visited ((stores label).transcribed label)
        .borrowedByCaller volume ensemble.world
      simp only [operate, present, same]
      have only : Looks ((looks.map (label, ·)).reverse.map (·.2)) := by
        simpa [Looks] using look
      refine ⟨_, served.transcribed, ?_⟩
      rcases run : (Volume.attachOrRelease ((stores label).transcribed label) .borrowedByCaller false).run
        (volume, ensemble.world) with ⟨result, next, world⟩
      rw [run] at settled
      cases settled with
      | failed => exact .idle only (by simp [mount, present]) (by simp)
      | mounted found store here => exact .visited ready only ((mount_eq present).trans empty) found store here

end Openings

section Step

variable (sound : ensemble.Sound stores token)

include sound

theorem handles_end {happening : Happening ι σ} (ends : happening ∈ [.close, .discard]) (empty : later.mount = none)
    (world : later.world = match ensemble.volume with
      | none => ensemble.world
      | some volume => (Volume.close.run (volume, ensemble.world)).2.2) : Handles stores ensemble later happening := by
  rcases present : ensemble.volume with _ | volume
  all_goals simp only [present] at world
  · have none : ensemble.mount = none := by simp [mount, present]
    exact .silent (by rw [world]) (empty.trans none.symm) fun _ => none
  rcases mounted : volume.mount with _ | found
  · have none := (mount_eq present).trans mounted
    rw [Volume.close_closed (isOpen_iff.mpr mounted)] at world
    exact .silent (by rw [world]) (empty.trans none.symm) fun _ => none
  obtain ⟨label, known⟩ := (sound.volume volume present).store found mounted
  have before := (mount_eq present).trans mounted
  obtain ⟨last, served, same⟩ := Volume.close_served mounted ensemble.world
  rw [known, Store.exchange_transcribed] at served
  have grown : later.world.stores.2 =
      (if found.openedHere then [(label, (stores label).exchange .release ensemble.world.stores.1)] else []) ++
        ensemble.world.stores.2 := by
    rw [world, same, served.transcribed]
    cases found.openedHere <;> rfl
  exact ⟨_, grown, .ended ends before known empty⟩

theorem handles_serve (number : Nat) (request : Request) :
    Handles stores ensemble (serve number request ensemble) (.request number request) := by
  rcases present : ensemble.readers[number]? with _ | reader
  · simp only [serve, present]
    exact .silent rfl rfl (by simp)
  obtain ⟨label, known⟩ := (sound.readers reader (List.mem_of_getElem? present)).store
  simp only [serve, present]
  rcases range : request.range? reader.cursor with _ | ⟨offset, length⟩
  · rw [Reader.respond_resting range ⟨0, fun _ => 0⟩]
    exact .silent rfl rfl (by simp)
  obtain ⟨result, cache, world, run, _, trace, served, reads, _⟩ :=
    reader.readFrom_draws (fun _ _ => True) offset length ensemble.world
  rw [Reader.respond_reading range, run]
  rw [known] at served
  refine ⟨_, served.transcribed, .idle ?_ rfl (by simp)⟩
  simp only [Looks, List.map_reverse, List.map_map, List.mem_reverse, List.mem_map, Function.comp_apply]
  rintro _ ⟨exchange, member, rfl⟩
  obtain ⟨_, _, read⟩ := reads exchange member
  simp [read.call, Call.isLook]

theorem handles_step (happening : Happening ι σ) :
    Handles stores ensemble (step stores happening ensemble) happening := by
  cases happening with
  | openOwned label => exact handles_openOwned label
  | openStore label => exact handles_openStore label
  | close =>
    have empty : (step stores .close ensemble).mount = none := by
      rcases present : ensemble.volume with _ | volume
      · simp [step, operate, mount, present]
      rcases mounted : volume.mount with _ | found
      · simp [step, operate, mount, present, Volume.close_closed (isOpen_iff.mpr mounted), mounted]
      · simp [step, operate, mount, present, (Volume.close_run mounted ensemble.world).2.1]
    refine handles_end sound (by simp) empty ?_
    simp only [step, operate]
    cases ensemble.volume <;> rfl
  | discard =>
    have empty : (step stores .discard ensemble).mount = none := by
      cases present : ensemble.volume <;> simp [step, discard, mount, present]
    refine handles_end sound (by simp) empty ?_
    simp only [step, discard]
    cases ensemble.volume <;> rfl
  | setBytesPerSector count =>
    refine .silent (congrArg (·.stores.2) (setBytesPerSector_world count ensemble)) ?_ (by simp)
    rcases present : ensemble.volume with _ | volume
    · simp only [step, operate, present]
    · simp only [step, operate, mount, present, Option.bind_some, Volume.setBytesPerSector, Act.run_bind,
        Volume.current, Act.run_view]
      rcases mounted : volume.mount with _ | found
      · cases SectorSize.ofBytes? count with
        | none => exact mounted
        | some size => rfl
      · exact mounted
  | abort =>
    rcases present : ensemble.volume with _ | volume
    · simp only [step, operate, present]
      exact .silent rfl rfl (by simp)
    · simp only [step, operate, present, Volume.abort, Act.run_change]
      exact .silent rfl (by simp [mount, present]) (by simp)
  | reader index =>
    refine .silent (congrArg (·.stores.2) (engage_world index ensemble)) ?_ (by simp)
    rcases present : ensemble.volume with _ | volume
    · simp only [step, engage, present]
    · rcases made : volume.reader index with _ | _
      all_goals simp only [step, engage, present, made, mount]
  | request number request => exact handles_serve sound number request
  | signal => exact .silent rfl rfl (by simp)
  | outside => exact .silent rfl rfl (by simp)

end Step

end Ensemble
end PartitionTable
