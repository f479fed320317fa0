import PartitionTable.Proofs.Chain.Resolution
import PartitionTable.Proofs.Ensemble.Handling
import PartitionTable.Proofs.Likeness.Volume
import PartitionTable.Proofs.Opening.Conduct

/-! Opening again. A closing leaves nothing of what was found or set before it, so a volume that was
closed opens a disk as a new one does. That is said of two runs: one goes on after any history, and
the other one starts with a new volume, another token and another world. The disk must not have
changed meanwhile; all that has to agree is whether the store is open already. -/
namespace PartitionTable

/-- A store over contents that stay. In all states that it is known in, what it answers and whether
it is open afterwards depend on nothing but whether it is open. -/
structure Store.Unchanging (store : Store σ) (known : σ → Prop) : Prop where
  stays : ∀ s call, known s → known (store.reply call s).state
  answers : ∀ s t call, known s → known t → store.isOpen s = store.isOpen t →
    (store.reply call s).result = (store.reply call t).result
  turns : ∀ s t call, known s → known t → store.isOpen s = store.isOpen t →
    store.isOpen (store.reply call s).state = store.isOpen (store.reply call t).state

/-- A store that raises no flag of a user while it serves a call. -/
def Store.Quiet (store : Store σ) (known : σ → Prop) (user : Token) : Prop :=
  ∀ s call, known s → .cancel user ∉ (store.reply call s).signals

/-- Two worlds in which an unchanging store shows the same, to users who were not cancelled. -/
structure World.Same (store : Store σ) (known : σ → Prop) (token other : Token) (w u : World σ) : Prop where
  left : w.Ready token known
  right : u.Ready other known
  isOpen : store.isOpen w.stores = store.isOpen u.stores

section Unchanging

variable {store : Store σ} {known : σ → Prop} {token other : Token}

theorem World.Ready.asked {world : World σ} (ready : world.Ready token known) (unchanging : store.Unchanging known)
    (quiet : store.Quiet known token) (call : Call) :
    (world.absorb (store.reply call world.stores)).Ready token known :=
  ⟨unchanging.stays _ call ready.steady, Signals.lowered_foldl (quiet _ call ready.steady) ready.lowered⟩

theorem Store.Unchanging.alike (unchanging : store.Unchanging known) (quiet : store.Quiet known token)
    (still : store.Quiet known other) : store.Alike store token other (World.Same store known token other) where
  isOpen _ _ same := same.isOpen
  raised _ _ same := same.left.lowered.trans same.right.lowered.symm
  noted _ _ _ same := ⟨same.left.note, same.right.note, same.isOpen⟩
  answers _ _ call same := unchanging.answers _ _ call same.left.steady same.right.steady same.isOpen
  stays _ _ call same :=
    ⟨same.left.asked unchanging quiet call, same.right.asked unchanging still call,
      unchanging.turns _ _ call same.left.steady same.right.steady same.isOpen⟩

theorem Store.Unchanging.transcribed (unchanging : store.Unchanging known) (label : ι) :
    (store.transcribed label).Unchanging fun s => known s.1 where
  stays s call holds := by
    rw [reply_transcribed]
    exact unchanging.stays s.1 call holds
  answers s t call holds also same := by
    rw [reply_transcribed, reply_transcribed]
    exact unchanging.answers s.1 t.1 call holds also same
  turns s t call holds also same := by
    rw [reply_transcribed, reply_transcribed]
    exact unchanging.turns s.1 t.1 call holds also same

theorem Store.Quiet.transcribed (quiet : store.Quiet known token) (label : ι) :
    (store.transcribed label).Quiet (fun s => known s.1) token := by
  intro s call holds
  rw [reply_transcribed]
  exact quiet s.1 call holds

end Unchanging

namespace Volume

variable {store : Store σ} {known : σ → Prop} {token other : Token}

/-- Two new volumes open an unchanging store alike, whoever may cancel them. -/
theorem new_opening (options : Options) (unchanging : store.Unchanging known) (quiet : store.Quiet known token)
    (still : store.Quiet known other) {opening : Act (Volume σ × World σ) Unit}
    (either : opening ∈ [openStore store, openOwned store]) {w u : World σ}
    (same : World.Same store known token other w u) :
    (opening.run ({ token, options }, w)).1 = (opening.run ({ token := other, options }, u)).1 ∧
      Both (Twins store store token other) (World.Same store known token other)
        (opening.run ({ token, options }, w)).2 (opening.run ({ token := other, options }, u)).2 := by
  have alike := unchanging.alike quiet still
  have both : Both (Twins store store token other) (World.Same store known token other)
      ({ token, options }, w) ({ token := other, options }, u) := ⟨new_twins _ _ _ _ options, same⟩
  rcases List.mem_pair.mp either with rfl | rfl
  · exact openStore_agrees alike _ _ both
  · exact openOwned_agrees alike _ _ both

/-- An opening and a closing of an unchanging store lead back to what it showed before. -/
theorem openStore_close_same (options : Options) (unchanging : store.Unchanging known) (quiet : store.Quiet known token)
    (shuts : store.Shuts) {world : World σ} (ready : world.Ready token known) :
    World.Same store known token token (close.run ((openStore store).run ({ token, options }, world)).2).2.2
      world := by
  have alike := unchanging.alike quiet quiet
  have both : Both (Twins store store token token) (World.Same store known token token)
      ({ token, options }, world) ({ token, options }, world) := ⟨new_twins _ _ _ _ options, ready, ready, rfl⟩
  obtain ⟨_, opened⟩ := openStore_agrees alike _ _ both
  have lowered (w u : World σ) (same : World.Same store known token token w u) :
      World.Same store known token token { w with signals := w.signals.reset token }
        { u with signals := u.signals.reset token } :=
    ⟨⟨same.left.steady, Signals.raised_reset_same _ _⟩, ⟨same.right.steady, Signals.raised_reset_same _ _⟩,
      same.isOpen⟩
  obtain ⟨_, _, ended⟩ := close_agrees alike lowered _ _ opened
  exact ⟨ended.left, ready, (openStore_close shuts rfl world).2⟩

end Volume

namespace Ensemble

def Tells (happening : Happening ι σ) (ensemble : Ensemble ι σ) : Prop :=
  ∃ count volume, happening = .setBytesPerSector count ∧ ensemble.volume = some volume ∧
    ((Volume.setBytesPerSector count).run (volume, ensemble.world)).1 = .ok ()

def Ends (happening : Happening ι σ) (ensemble : Ensemble ι σ) : Prop :=
  happening = .close ∧ ensemble.mount.isSome = true

/-- Whether a sector size that was accepted from outside still stands: no open volume was closed
since. The first argument says whether one stood before. -/
def Told (stores : ι → Store σ) : Prop → List (Happening ι σ) → Ensemble ι σ → Prop
  | told, [], _ => told
  | told, happening :: rest, ensemble =>
    Told stores ((told ∨ Tells happening ensemble) ∧ ¬ Ends happening ensemble) rest (step stores happening ensemble)

/-- What is known of a volume at any time. While it is closed it has the first sector size, if it was
not told another one. -/
def Untouched (token : Token) (options : Options) (told : Prop) (ensemble : Ensemble ι σ) : Prop :=
  ∀ volume, ensemble.volume = some volume → volume.token = token ∧ volume.options = options ∧
    (volume.isOpen = false → volume.sectorSize = .smallest ∨ told)

variable {stores : ι → Store σ} {token : Token} {options : Options} {told : Prop} {ensemble later : Ensemble ι σ}

theorem not_ends {happening : Happening ι σ} {volume : Volume (Archive ι σ)} (present : ensemble.volume = some volume)
    (closed : volume.isOpen = false) : ¬ Ends happening ensemble := by
  rintro ⟨_, mounted⟩
  rw [mount_eq present] at mounted
  exact Bool.noConfusion (closed.symm.trans mounted)

theorem Untouched.same (holds : ensemble.Untouched token options told) (happening : Happening ι σ)
    (same : later.volume = ensemble.volume) :
    later.Untouched token options ((told ∨ Tells happening ensemble) ∧ ¬ Ends happening ensemble) := by
  intro volume present
  rw [same] at present
  obtain ⟨named, chosen, size⟩ := holds volume present
  refine ⟨named, chosen, fun closed => (size closed).imp_right fun told => ?_⟩
  exact ⟨.inl told, not_ends present closed⟩

theorem Untouched.operated (holds : ensemble.Untouched token options told)
    (operation : Volume.Operation (Archive ι σ)) (happening : Happening ι σ)
    (tells : ∀ count, operation = .setBytesPerSector count → happening = .setBytesPerSector count) :
    (operate (Volume.perform operation) ensemble).Untouched token options
      ((told ∨ Tells happening ensemble) ∧ ¬ Ends happening ensemble) := by
  rcases present : ensemble.volume with _ | volume
  · exact holds.same happening (by simp only [operate, present])
  obtain ⟨named, chosen, size⟩ := holds volume present
  have step := Volume.perform_step operation volume ensemble.world
  have moved : (operate (Volume.perform operation) ensemble).volume =
      some ((Volume.perform operation).run (volume, ensemble.world)).2.1 := by simp only [operate, present]
  intro later same
  obtain rfl := Option.some.inj (moved.symm.trans same)
  generalize ((Volume.perform operation).run (volume, ensemble.world)).2.1 = later at step
  cases step with
  | same =>
    refine ⟨named, chosen, fun closed => (size closed).imp_right fun told => ?_⟩
    exact ⟨.inl told, not_ends present closed⟩
  | mounted _ mounted =>
    obtain ⟨_, _, found, _, rfl⟩ := mounted
    refine ⟨named, chosen, fun closed => ?_⟩
    cases closed
  | sized supported empty =>
    obtain rfl := tells _ rfl
    have closed := isOpen_iff.mpr empty
    refine ⟨named, chosen, fun _ => .inr ⟨.inr ⟨_, volume, rfl, present, ?_⟩, not_ends present closed⟩⟩
    simp [Volume.setBytesPerSector, Act.run_bind, Volume.current, empty, supported, Volume.replace]
  | closed => exact ⟨named, chosen, fun _ => .inl rfl⟩

theorem Untouched.stepped (holds : ensemble.Untouched token options told) (happening : Happening ι σ) :
    (step stores happening ensemble).Untouched token options
      ((told ∨ Tells happening ensemble) ∧ ¬ Ends happening ensemble) := by
  cases happening with
  | openOwned label => exact holds.operated (.openOwned _) _ nofun
  | openStore label => exact holds.operated (.openStore _) _ nofun
  | close => exact holds.operated .close _ nofun
  | setBytesPerSector count => exact holds.operated (.setBytesPerSector count) _ (by simp)
  | abort => exact holds.operated .abort _ nofun
  | discard =>
    cases present : ensemble.volume with
    | none => exact holds.same _ (by simp only [step, discard, present])
    | some => simp [Untouched, step, discard, present]
  | reader index =>
    refine holds.same _ ?_
    rcases present : ensemble.volume with _ | volume
    · simp only [step, engage, present]
    · rcases made : volume.reader index with _ | _
      all_goals simp only [step, engage, present, made]
  | request number request =>
    refine holds.same _ ?_
    rcases present : ensemble.readers[number]? with _ | reader
    all_goals simp only [step, serve, present]
  | signal => exact holds.same _ rfl
  | outside => exact holds.same _ rfl

theorem Untouched.after (history : List (Happening ι σ)) (holds : ensemble.Untouched token options told) :
    (after stores history ensemble).Untouched token options (Told stores told history ensemble) := by
  induction history generalizing ensemble told with
  | nil => exact holds
  | cons happening rest ih => exact ih (holds.stepped happening)

theorem new_untouched (token : Token) (options : Options) (world : World (Archive ι σ)) :
    (new token options world).Untouched token options False := by
  intro volume present
  obtain rfl := Option.some.inj present
  exact ⟨rfl, rfl, fun _ => .inl rfl⟩

theorem Untouched.eq_new (holds : ensemble.Untouched token options told) {volume : Volume (Archive ι σ)}
    (present : ensemble.volume = some volume) (closed : volume.isOpen = false) (untold : ¬ told) :
    volume = { token, options } := by
  obtain ⟨rfl, rfl, size⟩ := holds volume present
  obtain ⟨_, _, _, mount⟩ := volume
  obtain rfl := (size closed).resolve_right untold
  obtain rfl : mount = none := by simpa [Volume.isOpen] using closed
  rfl

theorem after_openStore_close (stores : ι → Store σ) (label : ι) (options : Options) {known : σ → Prop}
    (unchanging : (stores label).Unchanging known)
    (quiet : (stores label).Quiet known token) (shuts : (stores label).Shuts) {world : World (Archive ι σ)}
    (ready : world.Ready token fun s => known s.1) :
    World.Same ((stores label).transcribed label) (fun s => known s.1) token token
      (after stores [.openStore label, .close] (new token options world)).world world :=
  Volume.openStore_close_same options (unchanging.transcribed label) (quiet.transcribed label)
    (shuts.transcribed label) ready

/-- After any history: a volume that is closed, that was told no sector size since the last time that
an open volume was closed, and whose flag is down opens an unchanging store with the result of a new
volume that has another token and lives in another world. A failure is the same failure. After a
success the two volumes are one but for the token: the same partitions in the same order, the same
sector size, found or not, the same identity and size. So they make the same readers. To open a store,
close it and open it again therefore leads to where the first opening led, whatever it found. -/
theorem reopening (stores : ι → Store σ) (token other : Token) (options : Options) (world : World (Archive ι σ))
    (label : ι) {known : σ → Prop} (unchanging : (stores label).Unchanging known)
    (quiet : ∀ user ∈ [token, other], (stores label).Quiet known user) :
    let store := (stores label).transcribed label
    let start := new token options world
    (∀ (history : List (Happening ι σ)) (volume : Volume (Archive ι σ)),
      let reached := after stores history start
      reached.volume = some volume → volume.isOpen = false → ¬ Told stores False history start →
      ∀ fresh : World (Archive ι σ), World.Same store (fun s => known s.1) token other reached.world fresh →
      ∀ opening ∈ [Volume.openStore store, Volume.openOwned store],
        let again := opening.run (volume, reached.world)
        let first := opening.run ({ token := other, options }, fresh)
        again.1 = first.1 ∧ first.2.1 = { again.2.1 with token := other } ∧
        ∀ index, first.2.1.reader index = (again.2.1.reader index).map ({ · with token := other })) ∧
    ((stores label).Shuts → world.Ready token (fun s => known s.1) →
      (after stores [.openStore label, .close, .openStore label] start).volume =
        (after stores [.openStore label] start).volume) := by
  intro store start
  have lasting := unchanging.transcribed label
  have quieter (user : Token) (member : user ∈ [token, other]) := (quiet user member).transcribed label
  have untouched (history : List (Happening ι σ)) :
      (after stores history start).Untouched token options (Told stores False history start) :=
    .after history (new_untouched token options world)
  constructor
  · intro history volume reached present closed untold fresh same opening either
    obtain rfl := (untouched history).eq_new present closed untold
    obtain ⟨result, twins, _⟩ := Volume.new_opening options lasting (quieter token (by simp)) (quieter other (by simp))
      either same
    exact ⟨result, twins.renamed, twins.readers⟩
  · intro shuts ready
    have untold : ¬ Told stores False [.openStore label, .close] start := by simp [Told, Tells]
    obtain ⟨closed, _⟩ :=
      Volume.openStore_close (shuts.transcribed label) (rfl : Volume.isOpen { token, options } = false) world
    have same := after_openStore_close stores label options unchanging (quiet token (by simp)) shuts ready
    have new : (Volume.close.run ((Volume.openStore store).run ({ token, options }, world)).2).2.1 = _ :=
      (untouched [.openStore label, .close]).eq_new rfl closed untold
    obtain ⟨_, twins, _⟩ := Volume.new_opening options lasting (quieter token (by simp))
      (quieter token (by simp)) (List.mem_cons_self ..) same
    refine congrArg some (Eq.trans ?_ twins.eq.symm)
    exact congrArg (fun volume => ((Volume.openStore store).run (volume, _)).2.1) new

end Ensemble

theorem Memory.unchanging (image : Image) : Memory.store.Unchanging (·.image = image) where
  stays s call holds := by
    cases call with
    | read length offset =>
      simp only [Store.reply, Memory.store, Memory.read, Reply.map]
      split <;> exact holds
    | _ => exact holds
  answers := by
    rintro ⟨_, first⟩ ⟨_, second⟩ call rfl rfl (rfl : first = second)
    rfl
  turns := by
    rintro ⟨_, first⟩ ⟨_, second⟩ call rfl rfl (rfl : first = second)
    rfl

theorem Memory.quiet (known : Memory → Prop) (user : Token) : Memory.store.Quiet known user := by
  intro s call _
  cases call with
  | read length offset =>
    simp only [Store.reply, Memory.store, Memory.read, Reply.map]
    split <;> simp [Reply.ok, Reply.error]
  | _ => simp [Store.reply, Memory.store, Reply.map, Reply.ok]

namespace Ensemble

def laddered : Ensemble Unit Memory := new ⟨0⟩ {} (.start (⟨.laddered, false⟩, []))

/-- The first opening finds sectors of 4096 bytes. The second one finds them again, as a new volume does. -/
theorem reopening_laddered :
    let reached := after (fun _ => Memory.store) [.openStore (), .close] laddered
    (∃ volume, reached.volume = some volume ∧
      let again := (Volume.openStore (Memory.store.transcribed ())).run (volume, reached.world)
      again.1 = .ok () ∧ again.2.1.sectorSize = .of4096) ∧
    (after (fun _ => Memory.store) [.openStore (), .close, .openStore ()] laddered).volume.map (·.partitions) =
      some [⟨⟨0x83⟩, 0, 2, 3⟩, ⟨⟨0x07⟩, 4096, 1, 4⟩] := by
  intro reached
  have quiet (user : Token) : Memory.store.Quiet (·.image = .laddered) user := Memory.quiet _ user
  have closed : reached.volume.map (·.isOpen) = some false := by decide +kernel
  obtain ⟨volume, present, shut⟩ := Option.map_eq_some_iff.mp closed
  have untold : ¬ Told (fun _ => Memory.store) False [.openStore (), .close] laddered := by simp [Told, Tells]
  have ready : laddered.world.Ready ⟨0⟩ (fun s => s.1.image = .laddered) := ⟨rfl, rfl⟩
  have fresh : laddered.world.Ready ⟨1⟩ (fun s => s.1.image = .laddered) := ⟨rfl, rfl⟩
  have back : World.Same _ _ ⟨0⟩ ⟨0⟩ reached.world laddered.world :=
    after_openStore_close (fun _ => Memory.store) () {} (Memory.unchanging .laddered) (quiet ⟨0⟩) Memory.shuts ready
  have same : World.Same _ _ ⟨0⟩ ⟨1⟩ reached.world laddered.world := ⟨back.left, fresh, back.isOpen⟩
  obtain ⟨rerun, again⟩ := reopening (fun _ : Unit => Memory.store) ⟨0⟩ ⟨1⟩ {}
    (.start (⟨.laddered, false⟩, [])) () (Memory.unchanging .laddered) (fun user _ => quiet user)
  obtain ⟨result, twin, _⟩ := rerun [.openStore (), .close] volume present shut untold _ same _
    (List.mem_cons_self ..)
  have first : ((Volume.openStore (Memory.store.transcribed ())).run ({ token := ⟨1⟩ }, laddered.world)).1 = .ok () ∧
      ((Volume.openStore (Memory.store.transcribed ())).run ({ token := ⟨1⟩ }, laddered.world)).2.1.sectorSize =
        .of4096 := by decide +kernel
  refine ⟨⟨volume, present, result.trans first.1, ?_⟩, ?_⟩
  · exact (congrArg (·.sectorSize) twin).symm.trans first.2
  · rw [laddered, again Memory.shuts ready]
    decide +kernel

end Ensemble
end PartitionTable
