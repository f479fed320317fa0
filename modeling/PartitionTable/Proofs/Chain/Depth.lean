import PartitionTable.Proofs.Chain.Resolution

/-! How far a walk may go. The limit is looked at only where one more table was found and would
have to be visited. So a walk with a limit ends as a walk without one does, or it is refused
there, and a larger limit can change nothing but that. On an image every table takes a sector of
its own, and no walk is refused whose limit is the number of sectors. -/
namespace PartitionTable

def World.Reports (world : World σ) (notice : Notice) (later : World σ) : Prop :=
  ∃ fresh, later.notices = fresh ++ world.notices ∧ notice ∈ fresh

namespace World.Reports

variable {world middle later : World σ}

theorem before (reports : middle.Reports notice later) (earlier : world.notices <:+ middle.notices) :
    world.Reports notice later := by
  obtain ⟨fresh, whole, member⟩ := reports
  obtain ⟨first, split⟩ := earlier
  exact ⟨fresh ++ first, by rw [whole, ← split, List.append_assoc], List.mem_append_left _ member⟩

theorem after (reports : world.Reports notice middle) (onward : middle.notices <:+ later.notices) :
    world.Reports notice later := by
  obtain ⟨fresh, whole, member⟩ := reports
  obtain ⟨last, split⟩ := onward
  exact ⟨last ++ fresh, by rw [← split, whole, List.append_assoc], List.mem_append_right _ member⟩

end World.Reports

namespace Walk

def limited (walk : Walk σ) (limit : Nat) : Walk σ := { walk with depthLimit := limit }

/-- A walk from a table on that goes as far as there are tables, and how it ends. -/
inductive Explores (walk : Walk σ) :
    Table → List SectorSize → World σ → Except Fault (List Table × List Extent) × World σ → Prop where
  | failed : (walk.visit table larger).run world = (.error fault, later) →
      Explores walk table larger world (.error fault, later)
  | last : (walk.visit table larger).run world = (.ok (none, found), later) →
      Explores walk table larger world (.ok ([], found), later)
  | link : (walk.visit table larger).run world = (.ok (some next, found), middle) →
      Explores walk next [] middle outcome →
      Explores walk table larger world
        (outcome.1.map fun (linked, more) => (next :: linked, found ++ more), outcome.2)

inductive Resolves (walk : Walk σ) (size : SectorSize) (world : World σ) : Except Fault Chain × World σ → Prop where
  | unread : (walk.readRecord 0).run world = (.error fault, later) → Resolves walk size world (.error fault, later)
  | failed : (walk.readRecord 0).run world = (.ok record, middle) →
      walk.Explores ⟨0, size, record⟩ size.larger (middle.note (.masterRecord record.identity))
        (.error fault, later) →
      Resolves walk size world (.error fault, later)
  | read {chain : Chain} : (walk.readRecord 0).run world = (.ok record, middle) → chain.first = ⟨0, size, record⟩ →
      walk.Explores ⟨0, size, record⟩ size.larger (middle.note (.masterRecord record.identity))
        (.ok (chain.linked, chain.partitions), later) →
      Resolves walk size world (.ok chain,
        later.note (.chainResolved chain.partitions.length chain.tables.length chain.sectorSize.bytes))

/-- So many tables can be visited behind a table, each found in the one before. -/
inductive Reaches (walk : Walk σ) : Nat → Table → List SectorSize → World σ → Prop where
  | here : Reaches walk 0 table larger world
  | onward : (walk.visit table larger).run world = (.ok (some next, found), middle) →
      Reaches walk count next [] middle → Reaches walk (count + 1) table larger world

/-- The chain has more tables behind the first one than a limit allows. -/
def Overflows (walk : Walk σ) (limit : Nat) (size : SectorSize) (world : World σ) : Prop :=
  ∃ record middle, (walk.readRecord 0).run world = (.ok record, middle) ∧
    walk.Reaches (limit + 1) ⟨0, size, record⟩ size.larger (middle.note (.masterRecord record.identity))

def Refused (limit : Nat) (world : World σ) (outcome : Except Fault α × World σ) : Prop :=
  outcome.1 = .error .outOfBounds ∧ world.Reports (.chainTooLong limit) outcome.2

section Notices

def Grows (world later : World σ) : Prop := world.notices <:+ later.notices

theorem readRecord_grows (walk : Walk σ) (offset : Int) (world : World σ) (origin : 0 ≤ offset) :
    Grows world ((walk.readRecord offset).run world).2 := by
  cases flag : world.signals.raised walk.token with
  | true =>
    rw [walk.readRecord_raised flag]
    exact List.suffix_refl _
  | false =>
    obtain ⟨notices, more, run⟩ := walk.readRecord_lowered flag origin
    rw [run]
    exact more

theorem visit_grows (walk : Walk σ) (table : Table) (larger : List SectorSize) (origin : 0 ≤ table.offset)
    (world : World σ) : Grows world ((walk.visit table larger).run world).2 :=
  (visit_inStep walk walk table larger origin).keeps Grows (fun _ => List.suffix_refl _)
    (fun _ _ _ => List.IsSuffix.trans) (fun _ _ => List.suffix_cons _ _) walk.readRecord_grows world

end Notices

section Limit

variable {walk : Walk σ} {table : Table} {larger : List SectorSize} {world later : World σ}

theorem visit_limited (walk : Walk σ) (limit : Nat) (larger : List SectorSize) (origin : 0 ≤ table.offset) :
    (walk.limited limit).visit table larger = walk.visit table larger :=
  (visit_inStep (walk.limited limit) walk table larger origin).eq

/-- A table that leads nowhere ends a walk, whatever the limit. -/
theorem follow_failed (visit : (walk.visit table larger).run world = (.error fault, later)) (allowed : Nat) :
    (walk.follow allowed table larger).run world = (.error fault, later) := by
  cases allowed with
  | zero => exact Act.run_bind_error visit
  | succ allowed => exact Act.run_bind_error visit

theorem follow_last (visit : (walk.visit table larger).run world = (.ok (none, found), later)) (allowed : Nat) :
    (walk.follow allowed table larger).run world = (.ok ([], found), later) := by
  cases allowed with
  | zero => exact Act.run_bind_ok visit
  | succ allowed => exact Act.run_bind_ok visit

theorem follow_link (visit : (walk.visit table larger).run world = (.ok (some next, found), later))
    (allowed : Nat) :
    (walk.follow (allowed + 1) table larger).run world =
      (((walk.follow allowed next []).run later).1.map fun (linked, more) => (next :: linked, found ++ more),
        ((walk.follow allowed next []).run later).2) := by
  rw [follow, Act.run_bind_ok visit]
  simp only [Act.run_bind]
  rcases (walk.follow allowed next []).run later with ⟨_ | _, _⟩ <;> rfl

theorem follow_refused (visit : (walk.visit table larger).run world = (.ok (some next, found), later)) :
    (walk.follow 0 table larger).run world = (.error .outOfBounds, later.note (.chainTooLong walk.depthLimit)) := by
  rw [follow, Act.run_bind_ok visit]
  rfl

/-- A walk with a limit ends as one without, and so does every walk with a larger limit; or
there is one more table than the limit allows, and then it is refused. -/
theorem follow_settles (walk : Walk σ) (allowed : Nat) (table : Table) (larger : List SectorSize) (world : World σ)
    (origin : 0 ≤ table.offset) :
    (∃ outcome, walk.Explores table larger world outcome ∧ ∀ limit more, allowed ≤ more →
      ((walk.limited limit).follow more table larger).run world = outcome) ∨
    walk.Reaches (allowed + 1) table larger world ∧ ∀ limit,
      Refused limit world (((walk.limited limit).follow allowed table larger).run world) := by
  have grown := walk.visit_grows table larger origin world
  have onward := (visit_inStep walk walk table larger origin).holds world
  have limited (limit : Nat) :
      ((walk.limited limit).visit table larger).run world = (walk.visit table larger).run world := by
    rw [visit_limited walk limit larger origin]
  rcases visit : (walk.visit table larger).run world with ⟨fault | ⟨_ | next, found⟩, later⟩
  all_goals simp only [visit] at grown onward limited
  · exact .inl ⟨_, .failed visit, fun limit more _ => follow_failed (limited limit) more⟩
  · exact .inl ⟨_, .last visit, fun limit more _ => follow_last (limited limit) more⟩
  cases allowed with
  | zero =>
    refine .inr ⟨.onward visit .here, fun limit => ?_⟩
    rw [follow_refused (limited limit)]
    exact ⟨rfl, .before ⟨[_], rfl, List.mem_singleton_self _⟩ grown⟩
  | succ allowed =>
    have behind := follow_settles walk allowed next [] later (onward _ rfl next rfl)
    rcases behind with ⟨outcome, explores, settled⟩ | ⟨reaches, refused⟩
    · refine .inl ⟨_, .link visit explores, fun limit more enough => ?_⟩
      obtain ⟨more, rfl⟩ := Nat.exists_eq_add_of_le' enough
      rw [← Nat.add_assoc, follow_link (limited limit), settled limit (more + allowed) (Nat.le_add_left ..)]
    · refine .inr ⟨.onward visit reaches, fun limit => ?_⟩
      obtain ⟨outOfBounds, reports⟩ := refused limit
      rw [follow_link (limited limit), Refused, outOfBounds]
      exact ⟨rfl, reports.before grown⟩

section Resolve

variable {record : BootRecord} {size : SectorSize} {middle : World σ}

theorem resolve_unread (read : (walk.readRecord 0).run world = (.error fault, later)) :
    (walk.resolve size).run world = (.error fault, later) := by
  rw [resolve, Act.run_bind_error read]

theorem resolve_failed (read : (walk.readRecord 0).run world = (.ok record, middle))
    (behind : (walk.follow walk.depthLimit ⟨0, size, record⟩ size.larger).run
      (middle.note (.masterRecord record.identity)) = (.error fault, later)) :
    (walk.resolve size).run world = (.error fault, later) := by
  rw [resolve, Act.run_bind_ok read, Act.run_bind_ok (run_note _ _), Act.run_bind_error behind]

theorem resolve_read {chain : Chain} (read : (walk.readRecord 0).run world = (.ok record, middle))
    (first : chain.first = ⟨0, size, record⟩)
    (behind : (walk.follow walk.depthLimit ⟨0, size, record⟩ size.larger).run
      (middle.note (.masterRecord record.identity)) = (.ok (chain.linked, chain.partitions), later)) :
    (walk.resolve size).run world = (.ok chain,
      later.note (.chainResolved chain.partitions.length chain.tables.length chain.sectorSize.bytes)) := by
  rw [resolve, Act.run_bind_ok read, Act.run_bind_ok (run_note _ _), Act.run_bind_ok behind, ← first]
  rfl

theorem resolve_settles (walk : Walk σ) (limit : Nat) (size : SectorSize) (world : World σ) :
    (∃ outcome, walk.Resolves size world outcome ∧ ∀ more, limit ≤ more →
      ((walk.limited more).resolve size).run world = outcome) ∨
    walk.Overflows limit size world ∧ Refused limit world (((walk.limited limit).resolve size).run world) := by
  have grown := walk.readRecord_grows 0 world (Int.le_refl 0)
  rcases read : (walk.readRecord 0).run world with ⟨fault | record, middle⟩
  all_goals rw [read] at grown
  · exact .inl ⟨_, .unread read, fun more _ => resolve_unread read⟩
  have noted : Grows world (middle.note (.masterRecord record.identity)) := grown.trans (List.suffix_cons _ _)
  rcases walk.follow_settles limit ⟨0, size, record⟩ size.larger (middle.note (.masterRecord record.identity))
    (Int.le_refl 0) with ⟨⟨fault | ⟨linked, partitions⟩, later⟩, explores, settled⟩ | ⟨reaches, refused⟩
  · exact .inl ⟨_, .failed read explores, fun more enough => resolve_failed read (settled more more enough)⟩
  · let chain : Chain := ⟨⟨0, size, record⟩, linked, partitions⟩
    have first : chain.first = ⟨0, size, record⟩ := rfl
    exact .inl ⟨_, .read read first explores, fun more enough => resolve_read read first (settled more more enough)⟩
  · obtain ⟨outOfBounds, reports⟩ := refused limit
    have run : ((walk.limited limit).resolve size).run world = (.error .outOfBounds, _) :=
      resolve_failed read (Prod.ext outOfBounds rfl)
    rw [run]
    exact .inr ⟨⟨record, middle, read, reaches⟩, rfl, reports.before noted⟩

end Resolve
end Limit

/-- Without a limit there is one way to go. -/
theorem Explores.unique {walk : Walk σ} (one : walk.Explores table larger world outcome)
    (other : walk.Explores table larger world another) : another = outcome := by
  induction one generalizing another with
  | failed visit =>
    cases other with
    | failed same =>
      cases visit.symm.trans same
      rfl
    | last same => cases visit.symm.trans same
    | link same => cases visit.symm.trans same
  | last visit =>
    cases other with
    | failed same => cases visit.symm.trans same
    | last same =>
      cases visit.symm.trans same
      rfl
    | link same => cases visit.symm.trans same
  | link visit _ ih =>
    cases other with
    | failed same => cases visit.symm.trans same
    | last same => cases visit.symm.trans same
    | link same explores =>
      cases visit.symm.trans same
      rw [ih explores]

theorem Resolves.unique {walk : Walk σ} (one : walk.Resolves size world outcome)
    (other : walk.Resolves size world another) : another = outcome := by
  cases one with
  | unread read =>
    cases other with
    | unread same =>
      cases read.symm.trans same
      rfl
    | failed same => cases read.symm.trans same
    | read same => cases read.symm.trans same
  | failed read behind =>
    cases other with
    | unread same => cases read.symm.trans same
    | failed same explores =>
      cases read.symm.trans same
      cases behind.unique explores
      rfl
    | read same _ explores =>
      cases read.symm.trans same
      cases behind.unique explores
  | @read _ _ _ chain read first behind =>
    cases other with
    | unread same => cases read.symm.trans same
    | failed same explores =>
      cases read.symm.trans same
      cases behind.unique explores
    | @read _ _ _ other same again explores =>
      cases read.symm.trans same
      obtain ⟨_, _, _⟩ := chain
      obtain ⟨_, _, _⟩ := other
      cases first
      cases again
      cases behind.unique explores
      rfl

end Walk

/-- As long as nothing but reads is put to it, a store goes on to deliver. -/
theorem Served.ready {store : Store σ} (delivers : store.Delivers image token steady)
    (served : Served store world trace last) (ready : world.Ready token steady)
    (reads : ∀ exchange ∈ trace, ∃ offset, exchange.ReadsRecord offset) : last.Ready token steady := by
  induction served with
  | rest => exact ready
  | note _ ih => exact ih ready.note reads
  | call _ ih =>
    obtain ⟨⟨offset, read⟩, others⟩ := List.forall_mem_cons.mp reads
    have near := read.inRange
    have same := read.call
    simp only [Store.exchange] at same
    subst same
    exact ih (ready.read delivers BootRecord.size (by omega)) others

namespace Walk

section Room

variable {walk : Walk σ} {table next : Table} {larger : List SectorSize} {world later : World σ} {image : Image}
  {steady : σ → Prop} {place : Nat}

/-- A table that is found on an image takes a sector of it behind the one that led there. -/
theorem visit_room (delivers : walk.store.Delivers image walk.token steady) (ready : world.Ready walk.token steady)
    (visit : (walk.visit table larger).run world = (.ok (some next, found), later)) (offset : table.offset = place)
    (aligned : 512 ∣ place) : ∃ onward : Nat, next.offset = onward ∧ 512 ∣ onward ∧ place / 512 < onward / 512 ∧
      onward / 512 < image.size / 512 ∧ later.Ready walk.token steady := by
  obtain ⟨trace, served, sparing, holds⟩ := walk.visit_traced table larger world
  rw [visit] at served holds
  obtain ⟨_, visited⟩ := holds (some next) found rfl
  cases visited with
  | link _ rungs _ self =>
    rw [offset] at rungs self
    have delivered := served.delivered delivers.records ready sparing.reads
    obtain ⟨further, whole⟩ := rungs.ascends self (Int.natCast_dvd_natCast.mpr aligned)
    obtain ⟨onward, spot, present, _⟩ := rungs.shows delivered
    have same : next.offset = onward := by
      rw [spot]
      rfl
    rw [same] at further whole
    have inside := present.1
    have ready := served.ready delivers ready sparing.reads
    exact ⟨onward, same, Int.natCast_dvd_natCast.mp whole, by omega, by omega, ready⟩

/-- So many tables behind a table need so many sectors behind it. -/
theorem Reaches.room (delivers : walk.store.Delivers image walk.token steady)
    (reaches : walk.Reaches (count + 1) table larger world) (ready : world.Ready walk.token steady)
    (offset : table.offset = place) (aligned : 512 ∣ place) : place / 512 + (count + 2) ≤ image.size / 512 := by
  induction count generalizing table larger world place with
  | zero =>
    cases reaches with
    | onward visit =>
      obtain ⟨onward, _, _, further, inside, _⟩ := visit_room delivers ready visit offset aligned
      omega
  | succ count ih =>
    cases reaches with
    | onward visit rest =>
      obtain ⟨onward, same, whole, further, _, later⟩ := visit_room delivers ready visit offset aligned
      have room := ih rest later same whole
      omega

/-- There is no room on an image for more tables than it has sectors. -/
theorem not_overflows (delivers : walk.store.Delivers image walk.token steady)
    (ready : world.Ready walk.token steady) (size : SectorSize) (enough : image.size / 512 ≤ limit) :
    ¬ walk.Overflows limit size world := by
  rintro ⟨record, middle, read, reaches⟩
  have later : ((walk.readRecord 0).run world).2.Ready walk.token steady :=
    (readRecord_records delivers.records (Nat.zero_le Offset.maximum) world ready).2
  rw [read] at later
  have room := reaches.room delivers later.note Int.natCast_zero.symm (Nat.dvd_zero 512)
  omega

end Room
end Walk
end PartitionTable
