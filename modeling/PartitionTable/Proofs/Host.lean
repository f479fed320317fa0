import PartitionTable.Preloaded
import PartitionTable.Store.File
import PartitionTable.Proofs.Chain.Route

/-! A host that has a regular file. It may deliver a read in pieces of any length and interrupt it any
number of times that ends; all of that is put together again before anybody sees it. So a store over
the file has the boot records of its contents. -/
namespace PartitionTable

/-- An answer to one positioned read of a file: some of the bytes that are wanted, one at least unless
the file ends before them, or an interruption. A read that goes on behind the last position may be
refused in any way. -/
inductive Image.Serves (image : Image) (position wanted : Nat) : Except HostError (List UInt8) → Prop where
  | part : 0 < count → count ≤ wanted → Serves image position wanted (.ok (image.slice position count))
  | interrupted : Serves image position wanted (.error .interrupted)
  | beyond : Offset.maximum < position + wanted → Serves image position wanted (.error error)

/-- A host has a regular file at a path. As long as it is idle the path can be opened, and from then
on the file is held under its number and stays as it is. -/
structure Host.Offers (host : Host η) (path : String) (image : Image) (idle : η → Prop) (held : Nat → η → Prop) :
    Prop where
  opens : ∀ s, idle s → ∃ number later, host.openPath path s = (.ok number, later) ∧ held number later
  measures : ∀ number s, held number s →
    ∃ later, host.size number s = (.ok image.size, later) ∧ held number later
  reads : ∀ number position wanted s, held number s → 0 < wanted →
    ∃ answer later, host.readAt number position wanted s = (answer, later) ∧ held number later ∧
      image.Serves position wanted answer

namespace Image.Serves

variable {image : Image} {piece : List UInt8}

/-- A piece that is not empty is what stands at its place, and there the file goes at least as far. -/
theorem piece_eq (serves : image.Serves position wanted (.ok piece)) (some : piece ≠ []) :
    piece = image.slice position piece.length ∧ piece.length ≤ wanted ∧ position + piece.length ≤ image.size := by
  cases serves with
  | @part count positive short =>
    rw [ne_eq, ← List.length_eq_zero_iff, length_slice] at some
    refine ⟨?_, ?_, ?_⟩
    · rw [length_slice, slice_eq_map, slice_eq_map, Nat.min_assoc, Nat.min_self]
    · rw [length_slice]
      omega
    · rw [length_slice]
      omega

theorem slice_eq_nil (serves : image.Serves position wanted (.ok [])) : image.slice position wanted = [] := by
  generalize none : [] = piece at serves
  cases serves with
  | @part count positive short =>
    have short := congrArg List.length none
    rw [List.length_nil, length_slice] at short
    rw [← none]
    exact image.slice_past (by omega)

end Image.Serves

namespace Host

variable {host : Host η} {path : String} {image : Image} {idle : η → Prop} {held : Nat → η → Prop}

theorem Offers.answered (offers : host.Offers path image idle held) (holds : held number s) (some : wanted ≠ 0)
    (answer : host.readAt number position wanted s = (given, later)) :
    held number later ∧ image.Serves position wanted given := by
  obtain ⟨_, _, same, stays, serves⟩ := offers.reads number position wanted s holds (Nat.pos_of_ne_zero some)
  cases answer.symm.trans same
  exact ⟨stays, serves⟩

theorem fill_ne_beyond (host : Host η) (near : position + wanted ≤ Offset.addressLimit + 1) (s : η) :
    (host.fill number position wanted s).1 ≠ .error .beyond := by
  fun_induction fill host number position wanted s with
  | case1 | case4 | case5 => exact nofun
  | case2 position wanted s missing far => omega
  | case3 position wanted s missing _ later answer ih => exact ih near
  | case6 => exact nofun
  | case7 position wanted s missing _ first more later answer bytes gap last run ih =>
    have short : bytes.length ≤ wanted := List.length_take_le _ _
    have rest := ih (by omega)
    rw [run] at rest
    exact rest

/-- A request is served in full, or it goes on behind the last position and is refused. -/
def Fills (image : Image) (position wanted : Nat) (answer : Except Gap (List UInt8)) : Prop :=
  answer = .ok (image.slice position wanted) ∨
    Offset.maximum < position + wanted ∧ ∃ stop error, answer = .error (.refused stop error)

/-- A piece and what is then read on from its end come to the whole request. -/
theorem Fills.behind {piece : List UInt8}
    (rest : Fills image (position + piece.length) (wanted - piece.length) answer)
    (same : piece = image.slice position piece.length) (short : piece.length ≤ wanted)
    (inside : position + piece.length ≤ image.size) : Fills image position wanted (answer.map (piece ++ ·)) := by
  rcases rest with rfl | ⟨far, stop, error, rfl⟩
  · have joined := image.slice_append inside (wanted - piece.length)
    rw [← same, Nat.add_sub_cancel' short] at joined
    exact .inl (congrArg Except.ok joined)
  · exact .inr ⟨by omega, stop, error, rfl⟩

/-- However a read is split and interrupted, it comes to the bytes of the file. -/
theorem fill_offers (offers : host.Offers path image idle held) (small : image.size ≤ Offset.maximum)
    (place : position ≤ Offset.maximum) (wanted : Nat) (holds : held number s) :
    held number (host.fill number position wanted s).2 ∧
      Fills image position wanted (host.fill number position wanted s).1 := by
  fun_induction fill host number position wanted s with
  | case1 =>
    refine ⟨holds, .inl ?_⟩
    simp [Image.slice_eq_map]
  | case2 position wanted s some far =>
    have limit : Offset.maximum ≤ Offset.addressLimit := by decide
    omega
  | case3 position wanted s some near later answer ih => exact ih place (offers.answered holds some answer).1
  | case4 position wanted s some near error later other answer =>
    obtain ⟨stays, serves⟩ := offers.answered holds some answer
    cases serves with
    | interrupted => exact absurd rfl other
    | beyond far => exact ⟨stays, .inr ⟨far, position, error, rfl⟩⟩
  | case5 position wanted s some near later answer =>
    obtain ⟨stays, serves⟩ := offers.answered holds some answer
    exact ⟨stays, .inl (congrArg Except.ok (serves.slice_eq_nil).symm)⟩
  | case6 position wanted s some near first more later answer bytes rest last run ih
  | case7 position wanted s some near first more later answer bytes gap last run ih =>
    obtain ⟨stays, serves⟩ := offers.answered holds some answer
    obtain ⟨same, short, inside⟩ := serves.piece_eq (List.cons_ne_nil _ _)
    have whole : bytes = first :: more := List.take_of_length_le short
    rw [← whole] at same short inside
    obtain ⟨kept, filled⟩ := ih (by omega) stays
    rw [run] at kept filled
    exact ⟨kept, filled.behind same short inside⟩

end Host

namespace File

variable {host : Host η} {source : String} {image : Image} {system : η} {state : File × η}
  {idle : η → Prop} {held : Nat → η → Prop}

def Holding (held : Nat → η → Prop) (state : File × η) : Prop :=
  ∃ number, state.1.number = some number ∧ held number state.2

/-- The path names the file and was not opened yet, or the file is held. -/
def Offered (path : String) (idle : η → Prop) (held : Nat → η → Prop) (state : File × η) : Prop :=
  (state.1 = { path } ∧ idle state.2) ∨ Holding held state

theorem Holding.isOpen (holding : Holding held state) : (store host).isOpen state = true := by
  obtain ⟨number, known, _⟩ := holding
  simp [store, known]

theorem acquire_offers (offers : host.Offers source image idle held) (isIdle : idle system) :
    ∃ number later, held number later ∧
      acquire host ({ path := source }, system) = .ok () ({ path := source, number := some number }, later) := by
  obtain ⟨number, later, opened, holds⟩ := offers.opens system isIdle
  refine ⟨number, later, holds, ?_⟩
  simp only [acquire, opened]

theorem size_offers (offers : host.Offers source image idle held) (holding : Holding held state) :
    ∃ later, Holding held later ∧ size host state = .ok image.size later := by
  obtain ⟨⟨path, _⟩, system⟩ := state
  obtain ⟨number, rfl, holds⟩ := holding
  obtain ⟨later, measured, stays⟩ := offers.measures number system holds
  refine ⟨(⟨path, some number⟩, later), ⟨number, rfl, stays⟩, ?_⟩
  simp only [size, measured]

theorem read_offers (offers : host.Offers source image idle held) (small : image.size ≤ Offset.maximum)
    (place : offset ≤ Offset.maximum) (length : Nat) (holding : Holding held state) :
    Holding held (read host length offset state).state ∧ (read host length offset state).signals = [] ∧
      ((read host length offset state).result = .ok (.ofBytes (image.slice offset length)) ∨
        Offset.maximum < offset + length ∧ (read host length offset state).result = .error .readFailed) := by
  obtain ⟨⟨path, _⟩, system⟩ := state
  obtain ⟨number, rfl, holds⟩ := holding
  obtain ⟨stays, fills⟩ := Host.fill_offers offers small place length holds
  rcases run : host.fill number offset length system with ⟨answer, later⟩
  rw [run] at stays fills
  rcases fills with rfl | ⟨far, stop, error, rfl⟩
  · simp only [read, run]
    exact ⟨⟨number, rfl, stays⟩, rfl, .inl rfl⟩
  · simp only [read, run]
    exact ⟨⟨number, rfl, stays⟩, rfl, .inr ⟨far, rfl⟩⟩

/-- A store over a file of a host delivers the file. A read that the host refuses went on behind its end. -/
theorem delivers (offers : host.Offers source image idle held) (small : image.size ≤ Offset.maximum) (token : Token) :
    (store host).Delivers image token (Holding held) := by
  constructor
  · intro state holding length offset place
    obtain ⟨_, _, given | ⟨far, refused⟩⟩ := read_offers offers small place length holding
    · exact .inl given
    · exact .inr ⟨by omega, refused⟩
  · intro state holding length offset place
    exact (read_offers offers small place length holding).1
  · intro state holding length offset place sent
    have silent : ((store host).read length offset state).signals = [] :=
      (read_offers offers small place length holding).2.1
    rw [silent] at sent
    cases sent

end File

theorem Preloaded.offers (path : String) (image : Image) :
    Preloaded.host.Offers path image (· = ⟨path, .ok (.file image)⟩) fun _ s => s = ⟨path, .ok (.file image)⟩ := by
  constructor
  · rintro _ rfl
    refine ⟨0, _, ?_, rfl⟩
    simp [Preloaded.host, Preloaded.openPath, Except.map]
  · rintro number _ rfl
    exact ⟨_, rfl, rfl⟩
  · rintro number position wanted _ rfl some
    refine ⟨_, _, rfl, rfl, ?_⟩
    simp only [Preloaded.node, Node.read]
    split
    next far => exact .beyond far
    next => exact .part some (Nat.le_refl wanted)

end PartitionTable
