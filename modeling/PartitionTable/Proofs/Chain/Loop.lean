import PartitionTable.Proofs.Chain.Order

/-! The walk as a machine runs it: a loop over the tables of a chain around a loop over the
sector sizes of a link, with positions, sizes and the depth in machine words. A number that
outgrows its word leads to `overflow`, which is no end of a run. So a run that ends has met
no overflow, and both loops have been left. -/
namespace PartitionTable.Loop

/-- What the two loops keep between their rounds. -/
structure Registers where
  identity : UInt32
  table : Int64 := 0
  depth : UInt64 := 0
  bytesPerSector : UInt32
  latched : Bool := false
  partitions : List Extent := []

structure Resolved where
  identity : UInt32
  bytesPerSector : UInt32
  latched : Bool
  partitions : List Extent
  deriving DecidableEq, Repr

/-- A link that was read waits for the rest of its table as a position with a record. -/
abbrev Pending := Option (Int64 × BootRecord)

inductive State where
  | start (bytesPerSector : UInt32)
  | table (record : BootRecord) (registers : Registers)
  | entries (rest : List Entry) (pending : Pending) (registers : Registers)
  | link (entry : Entry) (rest : List Entry) (registers : Registers)
  | finished (resolved : Resolved)
  | overflow

def increment? (n : UInt64) : Option UInt64 := if n.toNat + 1 < UInt64.size then some (n + 1) else none

def double? (n : UInt32) : Option UInt32 := if n.toNat * 2 < UInt32.size then some (n * 2) else none

/-- One round of whichever loop the state is in. -/
def advance (walk : Walk σ) : State → Act (World σ) State
  | .start bytesPerSector => do
    let record ← walk.readRecord 0
    note (.masterRecord record.identity)
    return .table record { identity := record.identity, bytesPerSector }
  | .table record registers =>
    if walk.depthLimit < registers.depth.toNat then refuse (.chainTooLong walk.depthLimit) .outOfBounds
    else return .entries record.used none registers
  | .entries [] none registers =>
    match increment? registers.depth with
    | none => return .overflow
    | some records => do
      note (.chainResolved registers.partitions.length records.toNat registers.bytesPerSector)
      return .finished ⟨registers.identity, registers.bytesPerSector, registers.latched, registers.partitions⟩
  | .entries [] (some (next, record)) registers =>
    if next = 0 ∨ next = registers.table then refuse (.linkUnsupported next.toInt) .outOfBounds
    else match increment? registers.depth with
      | none => return .overflow
      | some depth => return .table record { registers with table := next, depth }
  | .entries (entry :: rest) pending registers =>
    if entry.isExtended then
      match pending with
      | some _ => refuse (.severalExtended registers.table.toInt) .unsupportedLayout
      | none => return .link entry rest registers
    else do
      note (.entryFound entry)
      return .entries rest pending
        { registers with partitions := registers.partitions ++ [Extent.ofEntry entry registers.table.toInt] }
  | .link entry rest registers => do
    let offset ← .ofExcept (Offset.ofSector registers.table.toInt entry.firstSector registers.bytesPerSector)
    note (.readingLink offset)
    match ← (walk.readRecord offset).attempt with
    | .ok record => return .entries rest (some (Int64.ofInt offset, record)) { registers with latched := true }
    | .error fault =>
      if fault.suggestsLargerSectors ∧ registers.depth = 0 ∧
          registers.bytesPerSector < SectorSize.largest.bytes then
        match double? registers.bytesPerSector with
        | none => return .overflow
        | some bytesPerSector => do
          note (.retrying bytesPerSector)
          return .link entry rest { registers with bytesPerSector }
      else Walk.abandonLink offset fault
  | .finished resolved => return .finished resolved
  | .overflow => return .overflow

/-- The loops run from a state and a world to an outcome and the last world. -/
inductive Runs (walk : Walk σ) : State → World σ → Except Fault Resolved → World σ → Prop where
  | finished : Runs walk (.finished resolved) world (.ok resolved) world
  | failed : (advance walk state).run world = (.error fault, last) →
      Runs walk state world (.error fault) last
  | next : (advance walk state).run world = (.ok following, middle) →
      Runs walk following middle outcome last → Runs walk state world outcome last

theorem Runs.not_overflow (runs : Runs walk .overflow world outcome last) : False := by
  generalize overflown : State.overflow = state at runs
  induction runs with
  | finished => cases overflown
  | failed step =>
    subst overflown
    simp [advance] at step
  | next step _ ih =>
    subst overflown
    simp only [advance, Act.run_pure, Prod.mk.injEq, Except.ok.injEq] at step
    exact ih step.1

theorem Runs.of_finished (runs : Runs walk (.finished resolved) world outcome last) :
    outcome = .ok resolved ∧ last = world := by
  generalize ended : State.finished resolved = state at runs
  induction runs with
  | finished =>
    cases ended
    exact ⟨rfl, rfl⟩
  | failed step =>
    subst ended
    cases step
  | next step _ ih =>
    subst ended
    cases step
    exact ih rfl

theorem Runs.unique (runs : Runs walk state world outcome last) (other : Runs walk state world ending final) :
    outcome = ending ∧ last = final := by
  induction runs with
  | finished =>
    obtain ⟨rfl, rfl⟩ := other.of_finished
    exact ⟨rfl, rfl⟩
  | failed failed =>
    cases other with
    | finished => cases failed
    | failed same =>
      cases failed.symm.trans same
      exact ⟨rfl, rfl⟩
    | next step => cases failed.symm.trans step
  | next step rest ih =>
    cases other with
    | finished =>
      cases step
      exact rest.of_finished
    | failed same => cases step.symm.trans same
    | next same onward =>
      cases step.symm.trans same
      exact ih onward

inductive Reaches (walk : Walk σ) : State → World σ → State → World σ → Prop where
  | here : Reaches walk state world state world
  | next : (advance walk state).run world = (.ok following, middle) →
      Reaches walk following middle final last → Reaches walk state world final last

theorem Runs.apart_from_overflow (runs : Runs walk state world outcome last)
    (reaches : Reaches walk state world final later) : final ≠ .overflow := by
  induction reaches with
  | here =>
    rintro rfl
    exact runs.not_overflow
  | next step _ ih =>
    cases runs with
    | finished =>
      cases step
      exact ih .finished
    | failed failed =>
      rw [step] at failed
      cases failed
    | next same rest =>
      rw [step] at same
      cases same
      exact ih rest

/-- From a state the loops do what a step of the walk did, and go on in the state behind it. -/
def Follows (walk : Walk σ) (state : State) (world : World σ) (after : α → State) :
    Except Fault α × World σ → Prop
  | (.error fault, last) => Runs walk state world (.error fault) last
  | (.ok a, middle) => ∀ outcome last, Runs walk (after a) middle outcome last →
      Runs walk state world outcome last

theorem follows_error {run : Except Fault α × World σ} {after : α → State}
    (failed : (advance walk state).run world = (.error fault, last)) (same : run = (.error fault, last)) :
    Follows walk state world after run := by
  subst same
  exact .failed failed

theorem follows_ok {after : α → State} (round : (advance walk state).run world = (.ok following, middle))
    (same : following = after a) : Follows walk state world after (.ok a, middle) := by
  subst same
  exact fun outcome last runs => .next round runs

theorem Follows.before {run : Except Fault α × World σ} {after : α → State}
    (round : (advance walk state).run world = (.ok following, middle))
    (follows : Follows walk following middle after run) : Follows walk state world after run := by
  rcases run with ⟨fault | a, later⟩
  · exact .next round follows
  · exact fun outcome last runs => .next round (follows outcome last runs)

theorem Follows.bind {first : Act (World σ) α} {next : α → Act (World σ) β} {between : α → State}
    {after : β → State} (head : Follows walk state world between (first.run world))
    (tail : ∀ a middle, first.run world = (.ok a, middle) →
      Follows walk (between a) middle after ((next a).run middle)) :
    Follows walk state world after ((first >>= next).run world) := by
  rw [Act.run_bind]
  rcases run : first.run world with ⟨fault | a, middle⟩ <;> rw [run] at head
  · exact head
  · have rest := tail a middle run
    rcases ends : (next a).run middle with ⟨fault | b, last⟩ <;> simp only [ends] at rest ⊢
    · exact head _ _ rest
    · exact fun outcome final runs => head _ _ (rest _ _ runs)

theorem Follows.congr {run : Except Fault α × World σ} {after wanted : α → State}
    (follows : Follows walk state world after run) (same : ∀ a, run.1 = .ok a → after a = wanted a) :
    Follows walk state world wanted run := by
  rcases run with ⟨fault | a, middle⟩
  · exact follows
  · intro outcome last runs
    rw [← same a rfl] at runs
    exact follows outcome last runs

def pending (link : Table) : Int64 × BootRecord := (Int64.ofInt link.offset, link.record)

theorem toInt_ofInt (fits : Offset.Fits n) : (Int64.ofInt n).toInt = n := by
  obtain ⟨low, high⟩ := fits
  exact Int64.toInt_ofInt_of_le low (by simp only [Offset.maximum] at high; omega)

/-- The round for a link tries it with the size that the registers hold. -/
theorem advance_link (walk : Walk σ) (entry : Entry) (rest : List Entry) (registers : Registers)
    (size : SectorSize) (bytes : registers.bytesPerSector = size.bytes) (world : World σ) :
    (advance walk (.link entry rest registers)).run world =
      match (walk.tryLink registers.table.toInt entry.firstSector size).run world with
      | (.error fault, later) => (.error fault, later)
      | (.ok (.ok link), later) =>
        (.ok (.entries rest (some (pending link)) { registers with latched := true }), later)
      | (.ok (.error (offset, fault)), later) =>
        if fault.suggestsLargerSectors ∧ registers.depth = 0 ∧ size.bytes < SectorSize.largest.bytes then
          match double? size.bytes with
          | none => (.ok .overflow, later)
          | some bytesPerSector =>
            (.ok (.link entry rest { registers with bytesPerSector }), later.note (.retrying bytesPerSector))
        else (Walk.abandonLink offset fault).run later := by
  simp only [advance, Walk.tryLink, Act.run_bind, Act.run_ofExcept, bytes]
  rcases Offset.ofSector registers.table.toInt entry.firstSector size.bytes with fault | offset
  · rfl
  simp only [run_note, Act.run_attempt]
  rcases (walk.readRecord offset).run (world.note (.readingLink offset)) with ⟨fault | record, later⟩
  · simp only [Act.run_pure]
    split
    · rename_i again
      simp only [again]
      rcases double? size.bytes with _ | doubled <;> rfl
    · rfl
  · rfl

theorem double?_larger {size next : SectorSize} (ladder : size.larger = next :: rest) :
    double? size.bytes = some next.bytes := by
  cases size <;> cases ladder <;> rfl

theorem lt_largest_iff (size : SectorSize) : size.bytes < SectorSize.largest.bytes ↔ size.larger ≠ [] := by
  cases size <;> decide

theorem follows_abandoned {after : α → State}
    (round : (advance walk state).run world = (Walk.abandonLink offset fault).run later) :
    Follows walk state world after ((Walk.abandonLink offset fault).run later) := by
  rw [Walk.abandonLink] at round ⊢
  by_cases withdrawn : fault.isWithdrawal = true
  · rw [if_pos withdrawn] at round ⊢
    exact .failed round
  · rw [if_neg withdrawn] at round ⊢
    exact .failed round

theorem tryLink_sectorSize {walk : Walk σ}
    (found : (walk.tryLink table sector size).run world = (.ok (.ok link), later)) : link.sectorSize = size := by
  obtain ⟨_, _, met⟩ := walk.tryLink_traced table sector size world
  rw [found] at met
  cases met with
  | found => rfl

/-- The inner loop climbs the sizes that the walk tries for a link. -/
theorem readLink_follows (walk : Walk σ) (entry : Entry) (rest : List Entry) (size : SectorSize)
    (larger : List SectorSize) (registers : Registers) (bytes : registers.bytesPerSector = size.bytes)
    (ladder : larger = if registers.depth = 0 then size.larger else []) (world : World σ) :
    Follows walk (.link entry rest registers) world
      (fun link => .entries rest (some (pending link))
        { registers with latched := true, bytesPerSector := link.sectorSize.bytes })
      ((walk.readLink registers.table.toInt entry.firstSector size larger).run world) := by
  induction larger generalizing size registers world with
  | nil =>
    have round := advance_link walk entry rest registers size bytes world
    have last : ¬ (registers.depth = 0 ∧ size.bytes < SectorSize.largest.bytes) := by
      rintro ⟨first, below⟩
      rw [if_pos first] at ladder
      exact (lt_largest_iff size).mp below ladder.symm
    rcases attempt : (walk.tryLink registers.table.toInt entry.firstSector size).run world with
      ⟨fault | ⟨offset, fault⟩ | link, later⟩
    all_goals
      simp only [attempt] at round
      simp only [Walk.readLink, Act.run_bind, attempt]
    · exact follows_error round rfl
    · rw [if_neg fun again => last again.2] at round
      exact follows_abandoned round
    · exact follows_ok round (by simp only [tryLink_sectorSize attempt, bytes])
  | cons next larger ih =>
    have round := advance_link walk entry rest registers size bytes world
    have first : registers.depth = 0 := by
      by_contra deeper
      rw [if_neg deeper] at ladder
      cases ladder
    rw [if_pos first] at ladder
    have below := (lt_largest_iff size).mpr (ladder ▸ List.cons_ne_nil next larger)
    rcases attempt : (walk.tryLink registers.table.toInt entry.firstSector size).run world with
      ⟨fault | ⟨offset, fault⟩ | link, later⟩
    all_goals
      simp only [attempt] at round
      simp only [Walk.readLink, Act.run_bind, attempt]
    · exact follows_error round rfl
    · by_cases again : fault.suggestsLargerSectors = true
      · rw [if_pos ⟨again, first, below⟩, double?_larger ladder.symm] at round
        simp only [again, ↓reduceIte, Act.run_bind, run_note]
        refine .before round (ih next { registers with bytesPerSector := next.bytes } rfl ?_ _)
        rw [if_pos first]
        exact (SectorSize.bytes_larger size next larger ladder.symm).2.symm
      · rw [if_neg fun climb => again climb.1] at round
        simp only [again, Bool.false_eq_true, ↓reduceIte]
        exact follows_abandoned round
    · exact follows_ok round (by simp only [tryLink_sectorSize attempt, bytes])

/-- The registers keep what the walk knows of the table that it goes through. -/
structure Holds (registers : Registers) (table : Table) (larger : List SectorSize) (link : Option Table) :
    Prop where
  place : registers.table.toInt = table.offset
  bytes : registers.bytesPerSector = (link.getD table).sectorSize.bytes
  latched : link.isSome = true → registers.latched = true
  ladder : larger = if registers.depth = 0 then table.sectorSize.larger else []

def Registers.after (registers : Registers) (table : Table) (next : Option Table) (found : List Extent) :
    Registers :=
  { registers with
    bytesPerSector := (next.getD table).sectorSize.bytes
    latched := registers.latched || next.isSome
    partitions := registers.partitions ++ found }

theorem Holds.after_nil (holds : Holds registers table larger link) :
    registers.after table link [] = registers := by
  rcases registers with ⟨identity, place, depth, bytes, latched, partitions⟩
  cases link with
  | none => simpa [Registers.after] using holds.bytes.symm
  | some known => simpa [Registers.after] using ⟨holds.bytes.symm, holds.latched rfl⟩

theorem scan_known {walk : Walk σ}
    (run : ((walk.scan table larger entries (some known)).run world).1 = .ok listed) : listed.1 = some known := by
  obtain ⟨_, _, _, holds⟩ := walk.scan_traced table larger entries (some known) world
  obtain ⟨next, found⟩ := listed
  obtain ⟨_, scanned⟩ := holds next found run
  cases scanned with
  | plain => rfl
  | linked unknown => cases unknown

/-- The rounds for the entries of a table do what the walk does with them. -/
theorem scan_follows (walk : Walk σ) (table : Table) (larger : List SectorSize) (entries : List Entry)
    (link : Option Table) (registers : Registers) (holds : Holds registers table larger link) (world : World σ) :
    Follows walk (.entries entries (link.map pending) registers) world
      (fun listed => .entries [] (listed.1.map pending) (registers.after table listed.1 listed.2))
      ((walk.scan table larger entries link).run world) := by
  induction entries generalizing link registers world with
  | nil =>
    intro outcome last runs
    simpa only [holds.after_nil] using runs
  | cons entry rest ih =>
    unfold Walk.scan
    by_cases extended : entry.isExtended = true
    · simp only [extended, ↓reduceIte]
      cases link with
      | some known =>
        refine follows_error ?_ rfl
        simp only [advance, extended, ↓reduceIte, Option.map_some, holds.place]
        rfl
      | none =>
        have round : (advance walk (.entries (entry :: rest) none registers)).run world =
            (.ok (.link entry rest registers), world) := by
          simp [advance, extended]
        refine .before round ?_
        rw [← holds.place]
        have read := readLink_follows walk entry rest table.sectorSize larger registers holds.bytes holds.ladder world
        refine .bind read fun onward middle _ => ?_
        have held : Holds { registers with latched := true, bytesPerSector := onward.sectorSize.bytes } table
            larger (some onward) := ⟨holds.place, rfl, fun _ => rfl, holds.ladder⟩
        refine (ih (some onward) _ held middle).congr fun listed run => ?_
        simp [Registers.after, scan_known run]
    · simp only [extended, Bool.false_eq_true, ↓reduceIte]
      let listed := Extent.ofEntry entry table.offset
      have round : (advance walk (.entries (entry :: rest) (link.map pending) registers)).run world =
          (.ok (.entries rest (link.map pending)
            { registers with partitions := registers.partitions ++ [listed] }), world.note (.entryFound entry)) := by
        simp only [advance, extended, Bool.false_eq_true, ↓reduceIte, holds.place]
        rfl
      refine .before round ?_
      have held : Holds { registers with partitions := registers.partitions ++ [listed] } table larger link :=
        ⟨holds.place, holds.bytes, holds.latched, holds.ladder⟩
      refine .bind (ih link _ held (world.note (.entryFound entry))) fun found middle _ => ?_
      intro outcome last runs
      simpa [Registers.after] using runs

def Registers.onward (registers : Registers) (table next : Table) (found : List Extent) : Registers :=
  { registers.after table (some next) found with
    table := Int64.ofInt next.offset, depth := registers.depth + 1 }

def visited (registers : Registers) (table : Table) : Option Table × List Extent → State
  | (none, found) => .entries [] none (registers.after table none found)
  | (some next, found) => .table next.record (registers.onward table next found)

theorem increment?_some (room : n.toNat + 1 < UInt64.size) : increment? n = some (n + 1) := by
  rw [increment?, if_pos room]

theorem visit_follows (walk : Walk σ) (table : Table) (larger : List SectorSize) (registers : Registers)
    (holds : Holds registers table larger none) (shallow : registers.depth.toNat ≤ walk.depthLimit)
    (room : registers.depth.toNat + 1 < UInt64.size) (world : World σ) :
    Follows walk (.table table.record registers) world (visited registers table)
      ((walk.visit table larger).run world) := by
  have round : (advance walk (.table table.record registers)).run world =
      (.ok (.entries table.record.used none registers), world) := by
    simp [advance, Nat.not_lt.mpr shallow]
  refine .before round (.bind (scan_follows walk table larger table.record.used none registers holds world) ?_)
  rintro ⟨_ | next, found⟩ middle run
  · exact fun outcome last runs => runs
  have fits : Offset.Fits next.offset := by
    obtain ⟨_, _, _, known⟩ := walk.scan_traced table larger table.record.used none world
    rw [run] at known
    obtain ⟨_, scanned⟩ := known (some next) found rfl
    cases scanned with
    | linked _ _ rungs => exact (Offset.ofSector_eq_ok.mp rungs.position).2.1
  have nowhere : (Int64.ofInt next.offset = 0 ∨ Int64.ofInt next.offset = registers.table) ↔
      (next.offset = 0 ∨ next.offset = table.offset) := by
    rw [← holds.place, ← Int64.toInt_inj, ← Int64.toInt_inj, toInt_ofInt fits]
    rfl
  by_cases refused : next.offset = 0 ∨ next.offset = table.offset
  · simp only [Walk.checkLink, refused, ↓reduceIte]
    refine follows_error ?_ rfl
    simp only [advance, Option.map_some, pending, Registers.after, nowhere.mpr refused, ↓reduceIte,
      toInt_ofInt fits, run_refuse]
  · simp only [Walk.checkLink, refused, ↓reduceIte]
    refine follows_ok ?_ rfl
    simp only [advance, Option.map_some, pending, Registers.after, mt nowhere.mp refused, ↓reduceIte,
      increment?_some room, Act.run_pure]
    rfl

def Registers.ended (registers : Registers) (table : Table) (linked : List Table) (found : List Extent) :
    Registers :=
  let last := linked.getLast?.getD table
  { registers with
    table := Int64.ofInt last.offset
    depth := registers.depth + UInt64.ofNat linked.length
    bytesPerSector := last.sectorSize.bytes
    latched := registers.latched || !linked.isEmpty
    partitions := registers.partitions ++ found }

theorem Holds.ended_nil (holds : Holds registers table larger none) (found : List Extent) :
    registers.ended table [] found = registers.after table none found := by
  simp [Registers.ended, Registers.after, ← holds.place]

theorem Registers.ended_cons (registers : Registers) (table next : Table) (linked : List Table)
    (found more : List Extent) :
    (registers.onward table next found).ended next linked more =
      registers.ended table (next :: linked) (found ++ more) := by
  simp [ended, onward, after, List.getLast?_cons, UInt64.ofNat_add, UInt64.add_assoc, UInt64.add_comm]

/-- A table that the loop reaches stands as many sectors behind the first one as the depth says. -/
structure Reached (depth : UInt64) (table : Table) : Prop where
  aligned : (512 : Int) ∣ table.offset
  inRange : table.offset ≤ Offset.maximum
  distance : 512 * depth.toNat ≤ table.offset

namespace Reached

theorem room (reached : Reached depth table) : depth.toNat + 1 < UInt64.size := by
  have far := reached.distance
  have near := reached.inRange
  simp only [Offset.maximum] at near
  simp only [UInt64.size]
  omega

theorem depth_succ (reached : Reached depth table) : (depth + 1).toNat = depth.toNat + 1 := by
  rw [UInt64.toNat_add]
  exact Nat.mod_eq_of_lt reached.room

theorem next (reached : Reached depth table) (rungs : Rungs table.offset sector sizes link trace)
    (self : link.offset ≠ table.offset) : Reached (depth + 1) link := by
  obtain ⟨further, whole⟩ := rungs.ascends self reached.aligned
  have := reached.distance
  exact ⟨whole, rungs.inRange, by rw [reached.depth_succ]; omega⟩

end Reached

/-- The outer loop goes through the tables that the walk follows. -/
theorem follow_follows (walk : Walk σ) (allowed : Nat) (table : Table) (larger : List SectorSize)
    (registers : Registers) (holds : Holds registers table larger none) (reached : Reached registers.depth table)
    (depth : registers.depth.toNat + allowed = walk.depthLimit) (world : World σ) :
    Follows walk (.table table.record registers) world
      (fun (linked, found) => .entries [] none (registers.ended table linked found))
      ((walk.follow allowed table larger).run world) := by
  induction allowed generalizing table larger registers world with
  | zero =>
    refine .bind (visit_follows walk table larger registers holds (by omega) reached.room world) ?_
    rintro ⟨_ | next, found⟩ middle run
    · simp only [visited, ← holds.ended_nil]
      exact fun outcome last runs => runs
    · refine follows_error ?_ rfl
      have deep : walk.depthLimit < (registers.depth + 1).toNat := by rw [reached.depth_succ]; omega
      simp only [visited, advance, Registers.onward, deep, ↓reduceIte, run_refuse]
  | succ allowed ih =>
    refine .bind (visit_follows walk table larger registers holds (by omega) reached.room world) ?_
    rintro ⟨_ | next, found⟩ middle run
    · simp only [visited, ← holds.ended_nil]
      exact fun outcome last runs => runs
    obtain ⟨_, _, _, known⟩ := walk.visit_traced table larger world
    rw [run] at known
    obtain ⟨_, _ | ⟨_, rungs, _, self⟩⟩ := known (some next) found rfl
    have deeper : (registers.onward table next found).depth.toNat = registers.depth.toNat + 1 :=
      reached.depth_succ
    have held : Holds (registers.onward table next found) next [] none := by
      refine ⟨toInt_ofInt (Offset.ofSector_eq_ok.mp rungs.position).2.1, rfl, nofun, ?_⟩
      rw [if_neg]
      intro zero
      rw [zero] at deeper
      exact Nat.succ_ne_zero _ deeper.symm
    have rest := ih next [] _ held (reached.next rungs self) (by omega) middle
    refine .bind rest fun ⟨linked, more⟩ later _ outcome last runs => ?_
    simpa only [Registers.ended_cons] using runs

def Resolved.ofChain (chain : Chain) : Resolved :=
  ⟨chain.identity, chain.sectorSize.bytes, chain.sizeIsKnown, chain.partitions⟩

def Registers.atStart (chain : Chain) : Registers :=
  { identity := chain.identity, bytesPerSector := chain.first.sectorSize.bytes }

/-- Behind the last table the depth still counts, and the registers hold the chain. -/
theorem runs_ended (walk : Walk σ) (chain : Chain) (short : chain.linked.length + 1 < UInt64.size)
    (world : World σ) :
    Runs walk (.entries [] none ((Registers.atStart chain).ended chain.first chain.linked chain.partitions)) world
      (.ok (.ofChain chain))
      (world.note (.chainResolved chain.partitions.length chain.tables.length chain.sectorSize.bytes)) := by
  have depth : (0 + UInt64.ofNat chain.linked.length).toNat = chain.linked.length := by
    rw [UInt64.zero_add, UInt64.toNat_ofNat']
    exact Nat.mod_eq_of_lt (Nat.lt_of_succ_lt short)
  have records : (0 + UInt64.ofNat chain.linked.length + 1).toNat = chain.tables.length := by
    rw [UInt64.toNat_add, depth]
    exact Nat.mod_eq_of_lt short
  have round : increment? (0 + UInt64.ofNat chain.linked.length) =
      some (0 + UInt64.ofNat chain.linked.length + 1) := increment?_some (by rwa [depth])
  refine .next ?_ .finished
  simp only [advance, Registers.ended, Registers.atStart, round, Act.run_bind, run_note, Act.run_pure, records]
  rfl

/-- In every world the loops end, without an overflow, as the walk does. -/
theorem resolve_runs (walk : Walk σ) (size : SectorSize) (world : World σ) :
    Runs walk (.start size.bytes) world (((walk.resolve size).run world).1.map .ofChain)
      ((walk.resolve size).run world).2 := by
  simp only [Walk.resolve, Act.run_bind]
  rcases run : (walk.readRecord 0).run world with ⟨fault | record, later⟩
  · exact .failed (by simp only [advance, Act.run_bind, run])
  have round : (advance walk (.start size.bytes)).run world =
      (.ok (.table record { identity := record.identity, bytesPerSector := size.bytes }),
        later.note (.masterRecord record.identity)) := by
    simp only [advance, Act.run_bind, run, run_note, Act.run_pure]
  refine .next round ?_
  simp only [run_note]
  have reached : Reached 0 ⟨0, size, record⟩ := ⟨Int.dvd_zero _, Int.natCast_nonneg _, Int.le_refl 0⟩
  have follows := follow_follows walk walk.depthLimit ⟨0, size, record⟩ size.larger
    { identity := record.identity, bytesPerSector := size.bytes } ⟨rfl, rfl, by simp, rfl⟩ reached (Nat.zero_add _)
    (later.note (.masterRecord record.identity))
  obtain ⟨_, _, _, known⟩ := walk.follow_traced walk.depthLimit ⟨0, size, record⟩ size.larger
    (later.note (.masterRecord record.identity))
  rcases ends : (walk.follow walk.depthLimit ⟨0, size, record⟩ size.larger).run
      (later.note (.masterRecord record.identity)) with ⟨fault | ⟨linked, found⟩, last⟩
  all_goals rw [ends] at follows known
  · exact follows
  · obtain ⟨_, _, trail⟩ := known linked found rfl
    have far := trail.room reached.aligned reached.inRange
    have short : linked.length + 1 < UInt64.size := by
      simp only [Offset.maximum] at far
      simp only [UInt64.size]
      omega
    exact follows _ _ (runs_ended walk ⟨⟨0, size, record⟩, linked, found⟩ short last)

end PartitionTable.Loop
