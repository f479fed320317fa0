import PartitionTable.Proofs.Likeness
import PartitionTable.Proofs.Opening.Run
import PartitionTable.Proofs.Reader.Session

/-! Two volumes that differ only in the store and in the token. Over stores that cannot be told apart
they open alike: with the same fault, or with the same mount. -/
namespace PartitionTable

/-- What was found on one store, said of another one. -/
def Mount.moved (store : Store τ) (mount : Mount σ) : Mount τ := { mount with store }

def Volume.moved (store : Store τ) (token : Token) (volume : Volume σ) : Volume τ :=
  { volume with token, mount := volume.mount.map (·.moved store) }

def Reader.moved (store : Store τ) (token : Token) (reader : Reader σ) : Reader τ := { reader with store, token }

def Both (first : ρ → π → Prop) (alike : ω → υ → Prop) (one : ρ × ω) (two : π × υ) : Prop :=
  first one.1 two.1 ∧ alike one.2 two.2

namespace Reader

/-- A reader over the left store, and the same reader over the right one. -/
structure Twins (left : Store σ) (right : Store τ) (token other : Token) (reader : Reader σ) (twin : Reader τ) :
    Prop where
  token : reader.token = token
  store : reader.store = left
  same : twin = reader.moved right other

theorem ofExtent_moved (extent : Extent) (store : Store σ) (token : Token) (right : Store τ) (other : Token)
    (bytesPerSector : UInt32) (capacity : Nat) : ofExtent extent right other bytesPerSector capacity =
      (ofExtent extent store token bytesPerSector capacity).map (·.moved right other) := by
  unfold ofExtent
  split
  · rfl
  simp only [bind, Except.bind]
  rcases extent.start bytesPerSector with _ | start
  · rfl
  rcases Offset.checked (extent.size bytesPerSector) with _ | _
  · rfl
  dsimp only
  rcases Offset.checked (start + extent.size bytesPerSector) with _ | _ <;> rfl

end Reader

namespace Volume

structure Twins (left : Store σ) (right : Store τ) (token other : Token) (volume : Volume σ) (twin : Volume τ) :
    Prop where
  token : volume.token = token
  store : ∀ mount, volume.mount = some mount → mount.store = left
  same : twin = volume.moved right other

variable {left : Store σ} {right : Store τ} {token other : Token} {alike : World σ → World τ → Prop}
  {volume : Volume σ} {twin : Volume τ}

theorem isOpen_moved (store : Store τ) (token : Token) (volume : Volume σ) :
    (volume.moved store token).isOpen = volume.isOpen := by
  simp [isOpen, moved]

theorem partitions_moved (store : Store τ) (token : Token) (volume : Volume σ) :
    (volume.moved store token).partitions = volume.partitions := by
  cases mounted : volume.mount <;> simp [partitions, moved, mounted, Mount.moved]

theorem Twins.isOpen (twins : volume.Twins left right token other twin) : twin.isOpen = volume.isOpen := by
  rw [twins.same, isOpen_moved]

theorem Twins.sectorSize (twins : volume.Twins left right token other twin) :
    twin.sectorSize = volume.sectorSize := by
  rw [twins.same, moved]

theorem unmounted_twins (left : Store σ) (right : Store τ) (token other : Token) (options : Options)
    (sectorSize : SectorSize) :
    Twins left right token other { token, options, sectorSize } { token := other, options, sectorSize } where
  token := rfl
  store _ mounted := by cases mounted
  same := rfl

theorem new_twins (left : Store σ) (right : Store τ) (token other : Token) (options : Options) :
    Twins left right token other { token, options } { token := other, options } :=
  unmounted_twins left right token other options .smallest

theorem attached_twins (stores : left.Alike right token other alike) (twins : volume.Twins left right token other twin)
    (ownership : Ownership) (openedHere : Bool) (bytes : Nat) (result : Except Fault Chain) {w : World σ}
    {u : World τ} (related : alike w u) :
    (volume.attached left ownership openedHere bytes (result, w)).1 =
        (twin.attached right ownership openedHere bytes (result, u)).1 ∧
      Both (Twins left right token other) alike (volume.attached left ownership openedHere bytes (result, w)).2
        (twin.attached right ownership openedHere bytes (result, u)).2 := by
  cases result with
  | error fault => exact ⟨rfl, twins, related⟩
  | ok chain =>
    obtain ⟨rfl, _, rfl⟩ := twins
    refine ⟨rfl, ⟨rfl, ?_, rfl⟩, stores.noted _ _ _ related⟩
    exact fun mount same => Option.some.inj same ▸ rfl

theorem attach_agrees (stores : left.Alike right token other alike) (ownership : Ownership) (openedHere : Bool) :
    Act.Agrees (Both (Twins left right token other) alike) (attach left ownership openedHere)
      (attach right ownership openedHere) := by
  rintro ⟨volume, w⟩ ⟨twin, u⟩ ⟨twins, related⟩
  have twins : volume.Twins left right token other twin := twins
  have asked := Act.Agrees.size stores w u related
  have answer : (left.size w.stores).result = (right.size u.stores).result := asked.1
  have sized : alike (w.absorb (left.size w.stores)) (u.absorb (right.size u.stores)) := asked.2
  obtain ⟨_, _, _, run, ran, later⟩ :=
    (Walk.resolve_agrees stores volume.options.depthLimit volume.sectorSize).runs sized
  have first : volume.walk left = ⟨left, token, volume.options.depthLimit⟩ := by rw [walk, twins.token]
  have second : twin.walk right = ⟨right, other, volume.options.depthLimit⟩ := by
    rw [twins.same]
    rfl
  rcases told : (left.size w.stores).result with fault | bytes
  · rw [attach_unsized told, attach_unsized (answer.symm.trans told)]
    exact ⟨rfl, twins, sized⟩
  · rw [attach_sized told, attach_sized (answer.symm.trans told), first, second, twins.sectorSize]
    rw [run, ran]
    exact attached_twins stores twins _ _ _ _ later

theorem attachOrRelease_agrees (stores : left.Alike right token other alike) (ownership : Ownership)
    (openedHere : Bool) :
    Act.Agrees (Both (Twins left right token other) alike) (attachOrRelease left ownership openedHere)
      (attachOrRelease right ownership openedHere) := by
  intro one two both
  obtain ⟨fault | done, ⟨volume, w⟩, ⟨twin, u⟩, run, ran, later⟩ :=
    (attach_agrees stores ownership openedHere).runs both
  · rw [attachOrRelease_failed run, attachOrRelease_failed ran]
    cases openedHere with
    | false => exact ⟨rfl, later⟩
    | true => exact ⟨rfl, later.1, stores.stays _ _ .release later.2⟩
  · rw [attachOrRelease_done run, attachOrRelease_done ran]
    exact ⟨rfl, later⟩

theorem acquireAndAttach_agrees (stores : left.Alike right token other alike) (ownership : Ownership) :
    Act.Agrees (Both (Twins left right token other) alike) (acquireAndAttach left ownership)
      (acquireAndAttach right ownership) := by
  have acquired : Act.Agrees (Both (Twins left right token other) alike)
      (ask left.acquire).beside (ask right.acquire).beside := by
    rintro ⟨volume, w⟩ ⟨twin, u⟩ ⟨twins, related⟩
    obtain ⟨same, later⟩ := Act.Agrees.acquire stores w u related
    exact ⟨same, twins, later⟩
  exact .bind acquired fun _ => attachOrRelease_agrees stores ownership true

theorem openOwned_agrees (stores : left.Alike right token other alike) :
    Act.Agrees (Both (Twins left right token other) alike) (openOwned left) (openOwned right) := by
  rintro ⟨volume, w⟩ ⟨twin, u⟩ both
  have twins := both.1.isOpen
  cases isOpen : volume.isOpen <;> rw [isOpen] at twins
  · rw [openOwned_closed isOpen, openOwned_closed twins]
    exact acquireAndAttach_agrees stores _ _ _ both
  · rw [opening_refused (.inr rfl) isOpen, opening_refused (.inr rfl) twins]
    exact ⟨rfl, both⟩

theorem openStore_agrees (stores : left.Alike right token other alike) :
    Act.Agrees (Both (Twins left right token other) alike) (openStore left) (openStore right) := by
  rintro ⟨volume, w⟩ ⟨twin, u⟩ both
  have twins := both.1.isOpen
  have ready := stores.isOpen w u both.2
  cases isOpen : volume.isOpen <;> rw [isOpen] at twins
  · cases opened : left.isOpen w.stores <;> rw [opened] at ready
    · rw [openStore_unready isOpen opened, openStore_unready twins ready.symm]
      exact acquireAndAttach_agrees stores _ _ _ both
    · rw [openStore_ready isOpen opened, openStore_ready twins ready.symm]
      exact attachOrRelease_agrees stores _ _ _ _ both
  · rw [opening_refused (.inl rfl) isOpen, opening_refused (.inl rfl) twins]
    exact ⟨rfl, both⟩

/-- A closing lowers the flags of both, and that has to keep the worlds related. -/
theorem close_agrees (stores : left.Alike right token other alike)
    (lowered : ∀ w u, alike w u → alike { w with signals := w.signals.reset token }
      { u with signals := u.signals.reset other }) :
    Act.Agrees (Both (Twins left right token other) alike) close close := by
  rintro ⟨volume, w⟩ ⟨twin, u⟩ ⟨⟨rfl, store, rfl⟩, related⟩
  simp only [close, Act.run_bind, current, Act.run_view]
  rcases mounted : volume.mount with _ | mount
  · simp only [moved, mounted, Option.map_none]
    exact ⟨rfl, ⟨rfl, store, by simp [moved, mounted]⟩, related⟩
  obtain rfl := store mount mounted
  have released : Act.Agrees alike (releaseMount mount) (releaseMount (mount.moved right)) := by
    cases openedHere : mount.openedHere with
    | false =>
      simp only [releaseMount, Mount.moved, openedHere, Bool.false_eq_true, ↓reduceIte]
      exact .pure _
    | true =>
      simp only [releaseMount, Mount.moved, openedHere, ↓reduceIte]
      refine .bind (Act.Agrees.release stores).attempt fun result => ?_
      cases result with
      | ok => exact .pure _
      | error => exact .refuse stores _ _
  obtain ⟨same, later⟩ := released w u related
  simp only [moved, mounted, Option.map_some, Act.run_bind, Act.run_beside, Act.run_attempt, Act.run_change,
    Act.run_ofExcept]
  exact ⟨same, new_twins _ _ _ _ _, lowered _ _ later⟩

theorem setBytesPerSector_agrees (count : UInt32) :
    Act.Agrees (Both (Twins left right token other) alike) (setBytesPerSector count) (setBytesPerSector count) := by
  rintro ⟨volume, w⟩ ⟨twin, u⟩ ⟨⟨rfl, store, rfl⟩, related⟩
  simp only [setBytesPerSector, Act.run_bind, current, Act.run_view]
  rcases mounted : volume.mount with _ | mount
  all_goals simp only [moved, mounted, Option.map_none, Option.map_some, replace]
  · cases SectorSize.ofBytes? count with
    | none => exact ⟨rfl, ⟨rfl, store, by simp [moved, mounted]⟩, related⟩
    | some size => exact ⟨rfl, unmounted_twins _ _ _ _ _ size, related⟩
  · exact ⟨rfl, ⟨rfl, store, by simp [moved, mounted]⟩, related⟩

theorem reader_moved (volume : Volume σ) (store : Store τ) (token : Token) (index : Nat) :
    (volume.moved store token).reader index = (volume.reader index).map (·.moved store token) := by
  rcases mounted : volume.mount with _ | mount
  · simp [reader, moved, mounted, Except.map]
  rcases listed : mount.partitions[index]? with _ | extent
  · simp [reader, moved, mounted, Mount.moved, listed, Except.map]
  · simp only [reader, moved, mounted, Mount.moved, listed, Option.map_some]
    exact Reader.ofExtent_moved extent mount.store volume.token store token _ _

/-- On one and the same store twins differ in their tokens only. -/
theorem Twins.renamed {store : Store σ} {twin : Volume σ} (twins : volume.Twins store store token other twin) :
    twin = { volume with token := other } := by
  obtain ⟨_, known, rfl⟩ := twins
  rcases mounted : volume.mount with _ | mount
  · simp [moved, mounted]
  · obtain rfl := known mount mounted
    simp [moved, mounted, Mount.moved]

theorem Twins.eq {store : Store σ} {twin : Volume σ} (twins : volume.Twins store store token token twin) :
    twin = volume := by
  obtain rfl := twins.token
  exact twins.renamed

end Volume

theorem Volume.Twins.made {left : Store σ} {right : Store τ} {token other : Token} {volume : Volume σ} {twin : Volume τ}
    {reader : Reader σ} (twins : volume.Twins left right token other twin) (made : volume.reader index = .ok reader) :
    reader.Twins left right token other (reader.moved right other) := by
  rcases mounted : volume.mount with _ | mount
  · simp [Volume.reader, mounted] at made
  rcases listed : mount.partitions[index]? with _ | extent
  · simp [Volume.reader, mounted, listed] at made
  simp only [Volume.reader, mounted, listed] at made
  obtain ⟨_, rfl⟩ := Reader.ofExtent_ok made
  exact ⟨twins.token, twins.store mount mounted, rfl⟩

theorem Volume.Twins.readers {store : Store σ} {token other : Token} {volume twin : Volume σ}
    (twins : volume.Twins store store token other twin) (index : Nat) :
    twin.reader index = (volume.reader index).map ({ · with token := other }) := by
  rw [twins.same, reader_moved]
  rcases made : volume.reader index with fault | reader
  · rfl
  · obtain ⟨_, rfl, _⟩ := twins.made made
    rfl

end PartitionTable
