import PartitionTable.Proofs.Chain.Trail

/-! Two walks side by side. A walk touches the world only by reading records, and it sees of a
read nothing but what came of it; between two reads it does the same in every world. What holds
of two ways to read a record therefore holds of two walks that read in these ways: it is proved
once for a read and once for each way to go on, and not for every part of the walk.

All tables that are met stand at no negative offset, so no read is put in step that would fail
before it asks the store. -/
namespace PartitionTable

namespace Act

theorem run_attempt_bind (first : Act ω α) (next : Except Fault α → Act ω β) (w : ω) :
    (first.attempt >>= next).run w = (next (first.run w).1).run (first.run w).2 := rfl

def onSuccess (next : α → Act ω β) : Except Fault α → Act ω β
  | .ok a => next a
  | .error fault => .fail fault

theorem bind_eq_attempt_bind (first : Act ω α) (next : α → Act ω β) :
    first >>= next = first.attempt >>= onSuccess next := by
  refine Act.ext fun w => ?_
  rw [run_attempt_bind, run_bind]
  rcases first.run w with ⟨_ | _, _⟩ <;> rfl

end Act

/-- Two steps that read their records in two ways, and otherwise do the same. A success is
good, and a cancellation is handed on by whoever could go on after it. -/
inductive Act.InStep (left : Int → Act (World σ) BootRecord) (right : Int → Act (World τ) BootRecord) :
    {α : Type} → (α → Prop) → Act (World σ) α → Act (World τ) α → Prop where
  | ofExcept {result : Except Fault α} {good : α → Prop} : (∀ a, result = .ok a → good a) →
      InStep left right good (.ofExcept result) (.ofExcept result)
  | note {good : Unit → Prop} : good () →
      InStep left right good (PartitionTable.note notice) (PartitionTable.note notice)
  | read {good : BootRecord → Prop} : 0 ≤ offset → (∀ record, good record) →
      InStep left right good (left offset) (right offset)
  | attempt {early : α → Prop} {good : β → Prop} {first : Act (World σ) α} {second : Act (World τ) α}
      {next : Except Fault α → Act (World σ) β} {after : Except Fault α → Act (World τ) β} :
      InStep left right early first second →
      (∀ result, (∀ a, result = .ok a → early a) → InStep left right good (next result) (after result)) →
      next (.error .cancelled) = .fail .cancelled → after (.error .cancelled) = .fail .cancelled →
      InStep left right good (first.attempt >>= next) (second.attempt >>= after)

namespace Act.InStep

variable {left : Int → Act (World σ) BootRecord} {right : Int → Act (World τ) BootRecord} {good : α → Prop}

theorem pure {a : α} (holds : good a) : InStep left right good (Pure.pure a) (Pure.pure a) :=
  .ofExcept fun _ same => Except.ok.inj same ▸ holds

theorem fail (fault : Fault) : InStep left right good (.fail fault) (.fail fault) := .ofExcept nofun

theorem bind {early : α → Prop} {good : β → Prop} {first : Act (World σ) α} {second : Act (World τ) α}
    {next : α → Act (World σ) β} {after : α → Act (World τ) β} (head : InStep left right early first second)
    (tail : ∀ a, early a → InStep left right good (next a) (after a)) :
    InStep left right good (first >>= next) (second >>= after) := by
  have any (result : Except Fault α) (holds : ∀ a, result = .ok a → early a) :
      InStep left right good (onSuccess next result) (onSuccess after result) := by
    cases result with
    | ok a => exact tail a (holds a rfl)
    | error fault => exact .fail fault
  rw [bind_eq_attempt_bind first, bind_eq_attempt_bind second]
  exact .attempt head any rfl rfl

theorem afterNote {act : Act (World σ) α} {other : Act (World τ) α} (inStep : InStep left right good act other) :
    InStep left right good (PartitionTable.note notice >>= fun _ => act)
      (PartitionTable.note notice >>= fun _ => other) := by
  have noted : InStep left right (fun _ => True) (PartitionTable.note notice) (PartitionTable.note notice) :=
    .note trivial
  exact .bind noted fun _ _ => inStep

theorem refuse (notice : Notice) (fault : Fault) :
    InStep left right good (PartitionTable.refuse notice fault) (PartitionTable.refuse notice fault) :=
  afterNote (.fail fault)

theorem anyRecord (origin : 0 ≤ offset) : InStep left right (fun _ => True) (left offset) (right offset) :=
  .read origin fun _ => trivial

theorem holds {act : Act (World σ) α} {other : Act (World τ) α} (inStep : InStep left right good act other) :
    ∀ world, ∀ a, (act.run world).1 = .ok a → good a := by
  induction inStep with
  | ofExcept holds => exact fun _ => holds
  | note holds => exact fun _ _ _ => holds
  | read _ holds => exact fun _ record _ => holds record
  | attempt _ _ _ _ before after => exact fun world => after _ (before world) _

/-- Steps that read in one and the same way are one and the same step. -/
theorem eq {read : Int → Act (World σ) BootRecord} {act other : Act (World σ) α}
    (inStep : InStep read read good act other) : act = other := by
  induction inStep with
  | ofExcept => rfl
  | note => rfl
  | read => rfl
  | attempt head _ _ _ same after =>
    subst same
    refine Act.ext fun world => ?_
    rw [run_attempt_bind, run_attempt_bind, after _ (head.holds world)]

/-- What notices and reads keep, and one after the other keep, is kept by a whole step. -/
theorem keeps (kept : World σ → World σ → Prop) (rest : ∀ world, kept world world)
    (onward : ∀ world middle last, kept world middle → kept middle last → kept world last)
    (noted : ∀ world notice, kept world (world.note notice))
    (reads : ∀ offset world, 0 ≤ offset → kept world ((left offset).run world).2)
    {act : Act (World σ) α} {other : Act (World τ) α} (inStep : InStep left right good act other) :
    ∀ world, kept world (act.run world).2 := by
  induction inStep with
  | ofExcept => exact rest
  | note => exact fun world => noted world _
  | read origin => exact fun world => reads _ world origin
  | attempt head _ _ _ before after =>
    exact fun world => onward _ _ _ (before world) (after _ (head.holds world) _)

end Act.InStep

namespace Walk

section Read

variable (walk : Walk σ) {world : World σ}

theorem readRecord_raised (raised : world.signals.raised walk.token = true) (offset : Int) :
    (walk.readRecord offset).run world = (.error .cancelled, world) := by
  simp [readRecord, Act.run_bind, raised]

/-- With the flag down the store is asked, and some notices are all that comes on top. -/
theorem readRecord_lowered (lowered : world.signals.raised walk.token = false) (origin : 0 ≤ offset) :
    ∃ notices, world.notices <:+ notices ∧ (walk.readRecord offset).run world =
      ((walk.store.exchange (.read BootRecord.size offset.toNat) world.stores).record,
        { world.absorb (walk.store.read BootRecord.size offset.toNat world.stores) with notices }) := by
  simp only [readRecord, Act.run_bind, run_isCancelled, lowered, Bool.false_eq_true, ↓reduceIte, BootRecord.readFrom,
    Int.not_lt.mpr origin, run_note, run_ask]
  have noted (notices : List Notice) : world.notices <:+ notices ++ .readingRecord offset.toNat :: world.notices :=
    (List.suffix_cons _ _).trans (List.suffix_append _ _)
  rcases answered : (walk.store.read BootRecord.size offset.toNat world.stores).result with fault | reading
  all_goals simp only [World.note, answered, Exchange.record, Store.exchange, Store.reply, Reply.map, Except.map]
  · exact ⟨_, noted _, rfl⟩
  · by_cases full : reading.count = BootRecord.size
    · simp only [full, ↓reduceIte]
      exact ⟨_, noted _, rfl⟩
    · simp only [full, ↓reduceIte, run_refuse]
      exact ⟨_, (noted _).trans (List.suffix_cons _ _), rfl⟩

end Read

section Parts

variable {walk : Walk σ} {other : Walk τ} {good : α → Prop}

/-- Whoever goes on after an attempt at a link has to hand on a cancellation. -/
theorem tryLink_inStep {table : Int} (sector : UInt32) (size : SectorSize) (origin : 0 ≤ table)
    {next : Except (Int × Fault) Table → Act (World σ) α} {after : Except (Int × Fault) Table → Act (World τ) α}
    (found : ∀ link, 0 ≤ link.offset →
      Act.InStep walk.readRecord other.readRecord good (next (.ok link)) (after (.ok link)))
    (missed : ∀ offset fault, Act.InStep walk.readRecord other.readRecord good
      (next (.error (offset, fault))) (after (.error (offset, fault))))
    (withdrawn : ∀ offset, next (.error (offset, .cancelled)) = .fail .cancelled)
    (left : ∀ offset, after (.error (offset, .cancelled)) = .fail .cancelled) :
    Act.InStep walk.readRecord other.readRecord good (walk.tryLink table sector size >>= next)
      (other.tryLink table sector size >>= after) := by
  have position : Act.InStep walk.readRecord other.readRecord (fun offset : Int => 0 ≤ offset)
      (.ofExcept (Offset.ofSector table sector size.bytes))
      (.ofExcept (Offset.ofSector table sector size.bytes)) := by
    refine .ofExcept fun offset position => ?_
    have place := (Offset.ofSector_eq_ok.mp position).2.2
    have distance : (0 : Int) ≤ sector.toNat * size.bytes.toNat :=
      Int.mul_nonneg (Int.natCast_nonneg _) (Int.natCast_nonneg _)
    omega
  simp only [tryLink, Act.bind_assoc]
  refine .bind position fun offset onward => .afterNote ?_
  refine .attempt (.anyRecord onward) ?_ (withdrawn offset) (left offset)
  rintro (fault | record) _
  · exact missed offset fault
  · exact found ⟨offset, size, record⟩ onward

theorem abandonLink_inStep (offset : Int) (fault : Fault) :
    Act.InStep walk.readRecord other.readRecord good (abandonLink offset fault) (abandonLink offset fault) := by
  simp only [abandonLink]
  split
  · exact .fail fault
  · exact .refuse _ _

theorem readLink_inStep (table : Int) (sector : UInt32) (size : SectorSize) (larger : List SectorSize)
    (origin : 0 ≤ table) :
    Act.InStep walk.readRecord other.readRecord (fun link : Table => 0 ≤ link.offset)
      (walk.readLink table sector size larger) (other.readLink table sector size larger) := by
  induction larger generalizing size with
  | nil =>
    simp only [readLink]
    refine tryLink_inStep sector size origin ?_ ?_ (fun _ => rfl) (fun _ => rfl)
    · exact fun link onward => .pure onward
    · exact fun offset fault => abandonLink_inStep offset fault
  | cons next larger ih =>
    simp only [readLink]
    refine tryLink_inStep sector size origin ?_ ?_ (fun _ => rfl) (fun _ => rfl)
    · exact fun link onward => .pure onward
    · intro offset fault
      by_cases again : fault.suggestsLargerSectors = true
      · simp only [again, ↓reduceIte]
        exact .afterNote (ih next)
      · simp only [again, Bool.false_eq_true, ↓reduceIte]
        exact abandonLink_inStep offset fault

/-- A table that may have been found stands at no negative offset. -/
def Onward (link : Option Table) : Prop := ∀ next, link = some next → 0 ≤ next.offset

theorem scan_inStep (table : Table) (larger : List SectorSize) (entries : List Entry) (link : Option Table)
    (origin : 0 ≤ table.offset) (onward : Onward link) :
    Act.InStep walk.readRecord other.readRecord (fun out : Option Table × List Extent => Onward out.1)
      (walk.scan table larger entries link) (other.scan table larger entries link) := by
  induction entries generalizing link with
  | nil => exact .pure onward
  | cons entry rest ih =>
    unfold scan
    by_cases extended : entry.isExtended = true
    · simp only [extended, ↓reduceIte]
      cases link with
      | some => exact .refuse _ _
      | none =>
        refine .bind (readLink_inStep _ _ _ _ origin) fun found place => ih (some found) ?_
        exact fun next same => Option.some.inj same ▸ place
    · simp only [extended, Bool.false_eq_true, ↓reduceIte]
      exact .afterNote (.bind (ih link onward) fun _ place => .pure place)

theorem checkLink_inStep (table : Table) (link : Option Table) :
    Act.InStep walk.readRecord other.readRecord (fun _ => True) (checkLink table link) (checkLink table link) := by
  cases link with
  | none => exact .pure trivial
  | some next =>
    simp only [checkLink]
    split
    · exact .refuse _ _
    · exact .pure trivial

theorem visit_inStep (walk : Walk σ) (other : Walk τ) (table : Table) (larger : List SectorSize)
    (origin : 0 ≤ table.offset) :
    Act.InStep walk.readRecord other.readRecord (fun out : Option Table × List Extent => Onward out.1)
      (walk.visit table larger) (other.visit table larger) := by
  refine .bind (scan_inStep _ _ _ none origin nofun) ?_
  rintro ⟨link, found⟩ onward
  exact .bind (checkLink_inStep table link) fun _ _ => .pure onward

theorem follow_inStep (same : other.depthLimit = walk.depthLimit) (allowed : Nat) (table : Table)
    (larger : List SectorSize) (origin : 0 ≤ table.offset) :
    Act.InStep walk.readRecord other.readRecord (fun _ => True) (walk.follow allowed table larger)
      (other.follow allowed table larger) := by
  induction allowed generalizing table larger with
  | zero =>
    simp only [follow, same]
    refine .bind (visit_inStep walk other table larger origin) ?_
    rintro ⟨link, found⟩ _
    cases link with
    | none => exact .pure trivial
    | some => exact .refuse _ _
  | succ allowed ih =>
    simp only [follow]
    refine .bind (visit_inStep walk other table larger origin) ?_
    rintro ⟨link, found⟩ onward
    cases link with
    | none => exact .pure trivial
    | some next => exact .bind (ih next [] (onward next rfl)) fun _ _ => .pure trivial

theorem resolve_inStep (walk : Walk σ) (other : Walk τ) (same : other.depthLimit = walk.depthLimit)
    (size : SectorSize) :
    Act.InStep walk.readRecord other.readRecord (fun _ => True) (walk.resolve size) (other.resolve size) := by
  simp only [resolve, same]
  refine .bind (.anyRecord (Int.le_refl 0)) fun record _ => .afterNote ?_
  refine .bind (follow_inStep same walk.depthLimit ⟨0, size, record⟩ size.larger (Int.le_refl 0)) fun _ _ => ?_
  exact .afterNote (.pure trivial)

end Parts
end Walk
end PartitionTable
