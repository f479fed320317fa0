import PartitionTable.Chain

/-! What a walk can fail with. The first record fails a walk with whatever is wrong with it. Behind
it there are five faults only: a record that stays unreadable is a failed read, also where it is a
sector without a trailer or a store that words its errors in another way. -/
namespace PartitionTable

/-- In whatever state, a step fails with one of some faults, if it fails. -/
def Act.FailsWith (faults : List Fault) (act : Act ω α) : Prop :=
  ∀ w fault, (act.run w).1 = .error fault → fault ∈ faults

namespace Act.FailsWith

variable {faults : List Fault}

theorem ofExcept {result : Except Fault α} (among : ∀ fault, result = .error fault → fault ∈ faults) :
    FailsWith faults (.ofExcept result : Act ω α) :=
  fun _ => among

theorem pure (a : α) : FailsWith faults (Pure.pure a : Act ω α) := nofun

theorem fail (among : fault ∈ faults) : FailsWith faults (.fail fault : Act ω α) :=
  .ofExcept fun _ same => Except.error.inj same ▸ among

theorem note (notice : Notice) : FailsWith faults (PartitionTable.note notice : Act (World σ) Unit) := nofun

theorem attempt (act : Act ω α) : FailsWith faults act.attempt := nofun

theorem bind {first : Act ω α} {next : α → Act ω β} (head : FailsWith faults first)
    (tail : ∀ a, FailsWith faults (next a)) : FailsWith faults (first >>= next) := by
  intro w fault failed
  rcases run_bind_eq_error.mp (Prod.ext failed rfl) with early | ⟨a, later, _, late⟩
  · exact head w fault (congrArg Prod.fst early)
  · exact tail a later fault (congrArg Prod.fst late)

theorem refuse (notice : Notice) (among : fault ∈ faults) :
    FailsWith faults (PartitionTable.refuse notice fault : Act (World σ) α) :=
  .bind (.note notice) fun _ => .fail among

end Act.FailsWith

theorem Offset.checked_faults (failed : checked n = .error fault) : fault = .outOfBounds := by
  by_cases fits : Fits n
  · rw [checked_ok fits] at failed
    cases failed
  · rw [checked_error fits] at failed
    exact (Except.error.inj failed).symm

theorem Offset.ofSector_faults (failed : ofSector table sector bytesPerSector = .error fault) :
    fault = .outOfBounds := by
  rcases near : checked (sector.toNat * bytesPerSector.toNat) with other | distance
  · simp only [ofSector, near, bind, Except.bind] at failed
    cases failed
    exact checked_faults near
  · simp only [ofSector, near, bind, Except.bind] at failed
    exact checked_faults failed

namespace Walk

variable {walk : Walk σ}

/-- What can be wrong with a chain behind its first record. -/
def chainFaults : List Fault := [.readFailed, .unsupportedLayout, .outOfBounds, .cancelled, .notOpen]

theorem tryLink_faults (table : Int) (sector : UInt32) (size : SectorSize) :
    (walk.tryLink table sector size).FailsWith chainFaults := by
  refine .bind (.ofExcept fun fault failed => ?_) fun offset => .bind (.note _) fun _ => ?_
  · rw [Offset.ofSector_faults failed]
    decide
  · refine .bind (.attempt _) fun outcome => ?_
    cases outcome with
    | ok => exact .pure _
    | error => exact .pure _

theorem abandonLink_faults (offset : Int) (fault : Fault) :
    (abandonLink offset fault : Act (World σ) α).FailsWith chainFaults := by
  cases withdrawn : fault.isWithdrawal with
  | false =>
    simp only [abandonLink, withdrawn, Bool.false_eq_true, ↓reduceIte]
    exact .refuse _ (by decide)
  | true =>
    simp only [abandonLink, withdrawn, ↓reduceIte]
    apply Act.FailsWith.fail
    cases fault <;> simp_all [Fault.isWithdrawal, chainFaults]

theorem readLink_faults (table : Int) (sector : UInt32) (size : SectorSize) (larger : List SectorSize) :
    (walk.readLink table sector size larger).FailsWith chainFaults := by
  induction larger generalizing size with
  | nil =>
    refine .bind (tryLink_faults table sector size) fun outcome => ?_
    rcases outcome with ⟨offset, fault⟩ | link
    · exact abandonLink_faults offset fault
    · exact .pure _
  | cons next larger ih =>
    refine .bind (tryLink_faults table sector size) fun outcome => ?_
    rcases outcome with ⟨offset, fault⟩ | link
    · dsimp only
      split
      · exact .bind (.note _) fun _ => ih next
      · exact abandonLink_faults offset fault
    · exact .pure _

theorem scan_faults (table : Table) (larger : List SectorSize) (entries : List Entry) (link : Option Table) :
    (walk.scan table larger entries link).FailsWith chainFaults := by
  induction entries generalizing link with
  | nil => exact .pure _
  | cons entry rest ih =>
    unfold scan
    split
    · cases link with
      | some => exact .refuse _ (by decide)
      | none => exact .bind (readLink_faults _ _ _ _) fun found => ih (some found)
    · exact .bind (.note _) fun _ => .bind (ih link) fun _ => .pure _

theorem visit_faults (table : Table) (larger : List SectorSize) :
    (walk.visit table larger).FailsWith chainFaults := by
  refine .bind (scan_faults table larger _ none) fun ⟨link, found⟩ => .bind ?_ fun _ => .pure _
  cases link with
  | none => exact .pure _
  | some next =>
    simp only [checkLink]
    split
    · exact .refuse _ (by decide)
    · exact .pure _

/-- A chain fails with one of five faults behind its first record, over whatever store. -/
theorem follow_faults (allowed : Nat) (table : Table) (larger : List SectorSize) :
    (walk.follow allowed table larger).FailsWith chainFaults := by
  induction allowed generalizing table larger with
  | zero =>
    refine .bind (visit_faults table larger) fun ⟨link, found⟩ => ?_
    cases link with
    | none => exact .pure _
    | some => exact .refuse _ (by decide)
  | succ allowed ih =>
    refine .bind (visit_faults table larger) fun ⟨link, found⟩ => ?_
    cases link with
    | none => exact .pure _
    | some next => exact .bind (ih next []) fun _ => .pure _

/-- A walk fails with the fault of its first record, or it got that record and fails behind it. -/
theorem resolve_faults {size : SectorSize} (failed : ((walk.resolve size).run world).1 = .error fault) :
    ((walk.readRecord 0).run world).1 = .error fault ∨
      (∃ record, ((walk.readRecord 0).run world).1 = .ok record) ∧ fault ∈ chainFaults := by
  rcases Act.run_bind_eq_error.mp (Prod.ext failed rfl) with early | ⟨record, later, first, late⟩
  · exact .inl (congrArg Prod.fst early)
  · refine .inr ⟨⟨record, congrArg Prod.fst first⟩, ?_⟩
    refine Act.FailsWith.bind (.note _) (fun _ => ?_) later fault (congrArg Prod.fst late)
    refine .bind (follow_faults walk.depthLimit ⟨0, size, record⟩ size.larger) fun ⟨linked, partitions⟩ => ?_
    exact .bind (.note _) fun _ => .pure _

end Walk
end PartitionTable
