import PartitionTable.Proofs.Ensemble.Handling

/-! Who closes a store. A volume opens a store only if it has to, and what it opened it closes
again, once: at once if the store cannot be mounted, and otherwise when the mount ends. A store that
was open already is never closed by it. One happening keeps the balance of openings and closings, and
a whole history follows by induction. -/
namespace PartitionTable

namespace Ensemble

variable {stores : ι → Store σ} {token : Token} {ensemble later : Ensemble ι σ}

/-- What a volume opened and has not closed yet. -/
inductive Charge (stores : ι → Store σ) (ensemble : Ensemble ι σ) : Option ι → Prop where
  | free : (∀ found, ensemble.mount = some found → found.openedHere = false) → Charge stores ensemble none
  | holding : ensemble.mount = some found → found.openedHere = true → found.store = (stores label).transcribed label →
      Charge stores ensemble (some label)

/-- Every opening is followed by one closing of the same store, but for the last one if the store
is still held. -/
def Balanced (deals : List (ι × Dealing)) (charge : Option ι) : Prop :=
  ∃ ended : List ι, deals = ended.flatMap (fun label => [(label, .acquired), (label, .released)]) ++
    charge.toList.map (·, .acquired)

namespace Balanced

variable {deals : List (ι × Dealing)}

theorem acquired (balanced : Balanced deals none) (label : ι) :
    Balanced (deals ++ [(label, .acquired)]) (some label) := by
  obtain ⟨ended, rfl⟩ := balanced
  exact ⟨ended, by simp⟩

theorem released {label : ι} (balanced : Balanced deals (some label)) :
    Balanced (deals ++ [(label, .released)]) none := by
  obtain ⟨ended, rfl⟩ := balanced
  exact ⟨ended ++ [label], by simp⟩

end Balanced

theorem transcribed_label {first second : ι} (s : Archive ι σ)
    (same : (stores first).transcribed first = (stores second).transcribed second) : first = second := by
  have noted := congrArg (fun store : Store (Archive ι σ) => (store.acquire s).state.2.head?.map (·.1)) same
  simpa [Store.transcribed, Reply.mapState] using noted

theorem Charge.eq_none (charge : Charge stores ensemble held) (empty : ensemble.mount = none) : held = none := by
  cases charge with
  | free => rfl
  | holding mounted => cases empty.symm.trans mounted

theorem Charge.eq_some (charge : Charge stores ensemble held) (mounted : ensemble.mount = some found)
    (known : found.store = (stores label).transcribed label) :
    held = if found.openedHere then some label else none := by
  cases charge with
  | free none => rw [if_neg (by simp [none found mounted])]
  | holding other here named =>
    obtain rfl := Option.some.inj (mounted.symm.trans other)
    rw [if_pos here, transcribed_label ensemble.world.stores (named.symm.trans known)]

theorem Charge.congr (charge : Charge stores ensemble held) (same : later.mount = ensemble.mount) :
    Charge stores later held := by
  cases charge with
  | free none => exact .free (by rwa [same])
  | holding mounted here known => exact .holding (same.trans mounted) here known

theorem Charge.of_empty (empty : ensemble.mount = none) : Charge stores ensemble none :=
  .free (by simp [empty])

theorem Charge.of_unmounted {volume : Volume (Archive ι σ)} (present : ensemble.volume = some volume)
    (empty : volume.mount = none) : Charge stores ensemble none := .of_empty ((mount_eq present).trans empty)

/-- A store that is opened for the volume is held, or it is closed again already. -/
theorem balanced_borrowed {label : ι} {volume next : Volume (Archive ι σ)}
    {world last : World (Archive ι σ)}
    (borrowed : Volume.Borrowed ((stores label).transcribed label) volume world trace next last)
    (empty : volume.mount = none) (present : ensemble.volume = some next) (balanced : Balanced deals none) :
    ∃ held, Charge stores ensemble held ∧
      Balanced (deals ++ dealings (trace.map (label, ·)).reverse) held := by
  rw [dealings_trace]
  rcases borrowed.dealings with ⟨rfl, nothing | both⟩ | ⟨found, mounted, known, here, kept⟩
  · exact ⟨none, .of_unmounted present empty, by simpa [nothing] using balanced⟩
  · exact ⟨none, .of_unmounted present empty, by simpa [both] using (balanced.acquired label).released⟩
  · have held := (mount_eq present).trans mounted
    exact ⟨some label, .holding held here known, by simpa [kept] using balanced.acquired label⟩

theorem Handled.balanced {happening : Happening ι σ} (handled : Handled stores ensemble later happening log)
    (charge : Charge stores ensemble held) (balanced : Balanced deals held) :
    ∃ next, Charge stores later next ∧ Balanced (deals ++ dealings log) next := by
  cases handled with
  | idle looks same => exact ⟨held, charge.congr same, by rwa [looks.dealings, List.append_nil]⟩
  | visited _ looks empty mounted _ here =>
    obtain rfl := charge.eq_none empty
    refine ⟨none, .free fun found same => ?_, by rwa [looks.dealings, List.append_nil]⟩
    rw [mounted] at same
    exact Option.some.inj same ▸ here
  | borrowed _ empty present borrowed next =>
    obtain rfl := charge.eq_none empty
    exact balanced_borrowed borrowed (by simpa [mount, present] using empty) next balanced
  | @ended _ found label _ mounted known empty =>
    obtain rfl := charge.eq_some mounted known
    refine ⟨none, .of_empty empty, ?_⟩
    cases here : found.openedHere with
    | false => simpa [here, dealings] using balanced
    | true =>
      simp only [here, ↓reduceIte] at balanced
      exact balanced.released

/-- Any history keeps the balance. -/
theorem after_balanced (history : List (Happening ι σ)) (sound : ensemble.Sound stores token)
    (charge : Charge stores ensemble held) (balanced : Balanced deals held) :
    ∃ log next, (after stores history ensemble).world.stores.2 = log ++ ensemble.world.stores.2 ∧
      Charge stores (after stores history ensemble) next ∧ Balanced (deals ++ dealings log) next := by
  induction history generalizing ensemble held deals with
  | nil => exact ⟨[], held, rfl, charge, by simpa [dealings] using balanced⟩
  | cons happening rest ih =>
    obtain ⟨first, grown, handled⟩ := handles_step sound happening
    obtain ⟨middle, charge, balanced⟩ := handled.balanced charge balanced
    obtain ⟨second, last, longer, charge, balanced⟩ := ih (sound.stepped happening) charge balanced
    refine ⟨second ++ first, last, ?_, charge, ?_⟩
    · rw [after, longer, grown, List.append_assoc]
    · rwa [dealings_append, ← List.append_assoc]

section Attachment

variable {label : ι} {happening : Happening ι σ} {found : Mount (Archive ι σ)}

/-- What a store is opened for is the opening of a volume, and then the store was closed. -/
theorem Handled.acquire (handled : Handled stores ensemble later happening log) (member : entry ∈ log)
    (acquired : entry.2.call = .acquire) : ensemble.Opens stores entry.1 happening := by
  have apart {log : List (ι × Exchange)} (looks : Looks (log.map (·.2))) (member : entry ∈ log) : False := by
    have look := looks entry.2 (List.mem_map_of_mem member)
    rw [acquired] at look
    cases look
  cases handled with
  | idle looks => exact (apart looks member).elim
  | visited _ looks => exact (apart looks member).elim
  | borrowed opens =>
    obtain ⟨_, _, rfl⟩ := List.mem_map.mp (List.mem_reverse.mp member)
    exact opens
  | @ended _ found =>
    cases here : found.openedHere <;> rw [here] at member
    · cases member
    · obtain rfl := List.mem_singleton.mp member
      cases acquired

/-- A mount stays as long as it is not ended, and nothing is opened or closed meanwhile. -/
theorem Handled.stays (handled : Handled stores ensemble later happening log) (mounted : ensemble.mount = some found)
    (other : happening ∉ [.close, .discard]) : later.mount = some found ∧ dealings log = [] := by
  cases handled with
  | idle looks same => exact ⟨same.trans mounted, looks.dealings⟩
  | visited _ _ empty => cases empty.symm.trans mounted
  | borrowed _ empty => cases empty.symm.trans mounted
  | ended ends => exact absurd ends other

theorem Handled.ends (handled : Handled stores ensemble later happening log) (mounted : ensemble.mount = some found)
    (known : found.store = (stores label).transcribed label) (ends : happening ∈ [.close, .discard]) :
    later.mount = none ∧ dealings log = if found.openedHere then [(label, .released)] else [] := by
  cases handled with
  | idle _ _ none => cases (none ends).symm.trans mounted
  | visited _ _ empty => cases empty.symm.trans mounted
  | borrowed _ empty => cases empty.symm.trans mounted
  | ended _ other named empty =>
    obtain rfl := Option.some.inj (mounted.symm.trans other)
    obtain rfl := transcribed_label ensemble.world.stores (known.symm.trans named)
    refine ⟨empty, ?_⟩
    cases found.openedHere <;> rfl

/-- An opening that mounts nothing gives back what it opened, and it opens only a closed store. -/
theorem Handled.failed (handled : Handled stores ensemble later (.openStore label) log)
    (same : later.mount = ensemble.mount) :
    dealings log = [] ∨ (stores label).isOpen ensemble.world.stores.1 = false ∧
      dealings log = [(label, .acquired), (label, .released)] := by
  cases handled with
  | idle looks => exact .inl looks.dealings
  | visited _ _ empty mounted => cases empty.symm.trans (same.symm.trans mounted)
  | @borrowed other trace _ volume next world opens empty present borrowed after =>
    obtain ⟨rfl, closed⟩ := opens_openStore.mp opens
    rw [dealings_trace]
    rcases borrowed.dealings with ⟨rfl, nothing | both⟩ | ⟨found, mounted, _⟩
    · exact .inl (by rw [nothing, List.map_nil])
    · exact .inr ⟨closed, by rw [both]; rfl⟩
    · cases (empty.symm.trans same.symm).trans ((mount_eq after).trans mounted)
  | ended ends => simp at ends

/-- An opening that mounts the store opened it if it was closed, and knows it. -/
theorem Handled.mounts (handled : Handled stores ensemble later (.openStore label) log)
    (empty : ensemble.mount = none) (mounted : later.mount = some found) :
    found.store = (stores label).transcribed label ∧
    found.openedHere = !(stores label).isOpen ensemble.world.stores.1 ∧
    dealings log = if found.openedHere then [(label, .acquired)] else [] := by
  cases handled with
  | idle _ same => cases empty.symm.trans (same.symm.trans mounted)
  | visited ready looks _ other store here =>
    obtain rfl := Option.some.inj (mounted.symm.trans other)
    simp [store, here, ready, looks.dealings]
  | @borrowed other trace _ volume next world opens _ present borrowed after =>
    obtain ⟨rfl, closed⟩ := opens_openStore.mp opens
    have next := (mount_eq after).symm.trans mounted
    rcases borrowed.dealings with ⟨rfl, _⟩ | ⟨found, other, known, here, kept⟩
    · cases empty.symm.trans ((mount_eq present).trans next)
    · obtain rfl := Option.some.inj (next.symm.trans other)
      rw [dealings_trace, kept]
      simp [known, here, closed]
  | ended ends => simp at ends

theorem after_stays (period : List (Happening ι σ)) (sound : ensemble.Sound stores token)
    (mounted : ensemble.mount = some found) (others : ∀ happening ∈ period, happening ∉ [.close, .discard]) :
    ∃ log, (after stores period ensemble).world.stores.2 = log ++ ensemble.world.stores.2 ∧
      (after stores period ensemble).mount = some found ∧ dealings log = [] := by
  induction period generalizing ensemble with
  | nil => exact ⟨[], rfl, mounted, rfl⟩
  | cons happening rest ih =>
    obtain ⟨other, others⟩ := List.forall_mem_cons.mp others
    obtain ⟨first, grown, handled⟩ := handles_step sound happening
    obtain ⟨stays, nothing⟩ := handled.stays mounted other
    obtain ⟨second, longer, last, none⟩ := ih (sound.stepped happening) stays others
    refine ⟨second ++ first, by rw [after, longer, grown, List.append_assoc], last, ?_⟩
    rw [dealings_append, nothing, none, List.append_nil]

end Attachment

def opening (stores : ι → Store σ) (label : ι) (ensemble : Ensemble ι σ) : Option (Except Fault Unit) :=
  ensemble.volume.map fun volume =>
    ((Volume.openStore ((stores label).transcribed label)).run (volume, ensemble.world)).1

theorem opening_ok {label : ι} (opened : opening stores label ensemble = some (.ok ())) :
    ensemble.mount = none ∧ ∃ found, (step stores (.openStore label) ensemble).mount = some found := by
  obtain ⟨volume, present, success⟩ := Option.map_eq_some_iff.mp opened
  obtain ⟨empty, _, found, _, same⟩ := Volume.openStore_ok (Prod.ext success rfl)
  refine ⟨(mount_eq present).trans empty, found, ?_⟩
  simp [mount, step, operate, present, same]

theorem opening_error {label : ι} (failed : opening stores label ensemble = some (.error fault)) :
    (step stores (.openStore label) ensemble).mount = ensemble.mount ∧
    ((stores label).Shuts → (stores label).isOpen (step stores (.openStore label) ensemble).world.stores.1 =
      (stores label).isOpen ensemble.world.stores.1) := by
  obtain ⟨volume, present, failure⟩ := Option.map_eq_some_iff.mp failed
  obtain ⟨_, _, unchanged⟩ := Volume.openStore_clean ((stores label).transcribed label) volume ensemble.world
  constructor
  · simp [mount, step, operate, present, unchanged fault failure]
  · intro shuts
    simp only [step, operate, present]
    exact Volume.openStore_failed (shuts.transcribed label) failure

/-- After any history: a volume has a store opened only if the store is closed, or is its own. What
it had opened so far it had closed again, each time once, but for the store of its present mount if
that is one it had to open. An opening that fails has closed the store again already, so the store
is as it was. From one that succeeds on, nothing is opened or closed until the mount is ended, and
then the store is closed if it was closed before. A store that was open is never closed. -/
theorem custody (stores : ι → Store σ) (token : Token) (options : Options) (world : World (Archive ι σ))
    (history : List (Happening ι σ)) :
    let start := new token options world
    let reached := after stores history start
    (∀ happening, ∀ entry ∈ since reached (step stores happening reached), entry.2.call = .acquire →
      reached.Opens stores entry.1 happening) ∧
    (∃ charge, Charge stores reached charge ∧ Balanced (dealings (since start reached)) charge) ∧
    ∀ label,
      let wasOpen := (stores label).isOpen reached.world.stores.1
      let opened := step stores (.openStore label) reached
      (∀ fault, opening stores label reached = some (.error fault) →
        opened.mount = reached.mount ∧
        (dealings (since reached opened) = [] ∨
          wasOpen = false ∧ dealings (since reached opened) = [(label, .acquired), (label, .released)]) ∧
        ((stores label).Shuts → (stores label).isOpen opened.world.stores.1 = wasOpen)) ∧
      (opening stores label reached = some (.ok ()) → opened.mount.isSome = true ∧
        ∀ period, (∀ happening ∈ period, happening ∉ [.close, .discard]) → ∀ ending ∈ [.close, .discard],
          let held := after stores period opened
          let ended := step stores ending held
          held.mount = opened.mount ∧ ended.mount = none ∧
          dealings (since reached held) = (if wasOpen then [] else [(label, .acquired)]) ∧
          dealings (since reached ended) =
            if wasOpen then [] else [(label, .acquired), (label, .released)]) := by
  intro start reached
  have sound : reached.Sound stores token := (new_sound stores token options world).after history
  refine ⟨fun happening entry member acquired => ?_, ?_, fun label => ⟨fun fault failed => ?_, fun success => ?_⟩⟩
  · obtain ⟨log, grown, handled⟩ := handles_step sound happening
    rw [since_eq grown] at member
    exact handled.acquire member acquired
  · obtain ⟨log, charge, grown, charged, balanced⟩ := after_balanced history
      (new_sound stores token options world) (.of_empty rfl) (⟨[], rfl⟩ : Balanced [] none)
    exact ⟨charge, charged, by rwa [since_eq grown]⟩
  · obtain ⟨same, kept⟩ := opening_error failed
    obtain ⟨log, grown, handled⟩ := handles_step sound (.openStore label)
    rw [since_eq grown]
    exact ⟨same, handled.failed same, kept⟩
  · obtain ⟨empty, found, mounted⟩ := opening_ok success
    obtain ⟨first, grown, handled⟩ := handles_step sound (.openStore label)
    obtain ⟨known, here, acquired⟩ := handled.mounts empty mounted
    refine ⟨by simp [mounted], fun period others ending ends => ?_⟩
    obtain ⟨second, longer, stays, nothing⟩ := after_stays period (sound.stepped _) mounted others
    obtain ⟨third, last, finish⟩ := handles_step ((sound.stepped _).after period) ending
    obtain ⟨gone, released⟩ := finish.ends stays known ends
    rw [grown, ← List.append_assoc] at longer
    rw [longer, ← List.append_assoc] at last
    refine ⟨stays.trans mounted.symm, gone, ?_, ?_⟩
    · rw [since_eq longer, dealings_append, nothing, acquired, here]
      cases (stores label).isOpen reached.world.stores.1 <;> rfl
    · rw [since_eq last, dealings_append, dealings_append, nothing, acquired, released, here]
      cases (stores label).isOpen reached.world.stores.1 <;> rfl

def ofMemory (memory : Memory) : Ensemble Unit Memory := new ⟨0⟩ {} (.start (memory, []))

def opened (memory : Memory) : Ensemble Unit Memory :=
  step (fun _ => Memory.store) (.openStore ()) (ofMemory memory)

/-- The knotted disk is given back at once, and the chained one when the volume is dropped. -/
theorem custody_memory :
    dealings (since (ofMemory Volume.knotted) (opened Volume.knotted)) = [((), .acquired), ((), .released)] ∧
    Memory.store.isOpen (opened Volume.knotted).world.stores.1 = false ∧
    let held := step (fun _ => Memory.store) .abort (opened Volume.chained)
    dealings (since (ofMemory Volume.chained) held) = [((), .acquired)] ∧
    dealings (since (ofMemory Volume.chained) (step (fun _ => Memory.store) .discard held)) =
      [((), .acquired), ((), .released)] := by
  have failed : opening (fun _ => Memory.store) () (ofMemory Volume.knotted) = some (.error .outOfBounds) := by
    decide +kernel
  have success : opening (fun _ => Memory.store) () (ofMemory Volume.chained) = some (.ok ()) := by decide +kernel
  have put : dealings (since (ofMemory Volume.knotted) (opened Volume.knotted)) ≠ [] := by decide +kernel
  obtain ⟨_, _, ends⟩ := custody (fun _ : Unit => Memory.store) ⟨0⟩ {} (.start (Volume.knotted, [])) []
  obtain ⟨_, _, holds⟩ := custody (fun _ : Unit => Memory.store) ⟨0⟩ {} (.start (Volume.chained, [])) []
  simp only [after] at ends
  obtain ⟨_, nothing | ⟨_, both⟩, kept⟩ := (ends ()).1 _ failed
  · exact absurd nothing put
  obtain ⟨_, held⟩ := (holds ()).2 success
  obtain ⟨_, _, acquired, released⟩ := held [.abort] (by simp) .discard (by simp)
  refine ⟨both, ?_, acquired, released⟩
  rw [opened, ofMemory, kept Memory.shuts]
  rfl

end Ensemble
end PartitionTable
