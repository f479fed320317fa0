import PartitionTable.Proofs.BuiltIn
import PartitionTable.Proofs.Ensemble
import PartitionTable.Proofs.Reader.AtHand

/-! Readers over a store that was closed. A reader does not look whether its store is open: only
a read that comes to the store is told so. What it keeps in its cache it gives out as before, so
after any history it is the sectors at hand that decide which reads fail. -/
namespace PartitionTable

namespace Reader

variable {stores : ι → Store σ} {token : Token} {reader : Reader (Archive ι σ)} {world : World (Archive ι σ)}

/-- With the flag down every load comes to the store, and finds it closed. -/
theorem Belongs.barred_closed (belongs : reader.Belongs stores token)
    (refuses : ∀ label, (stores label).RefusesWhenClosed) (closed : reader.store.isOpen world.stores = false)
    (lowered : world.signals.raised token = false) :
    reader.Barred .notOpen world := by
  intro sector notice
  obtain ⟨label, known⟩ := belongs.store
  have inside : ¬ reader.sectorStart sector < 0 := by
    have start := belongs.start
    have distance : (0 : Int) ≤ sector * reader.bytesPerSector.toNat :=
      Int.mul_nonneg (Int.natCast_nonneg _) (Int.natCast_nonneg _)
    rw [sectorStart]
    omega
  have refused (length offset : Nat) : (reader.store.read length offset world.stores).result = .error .notOpen := by
    rw [known] at closed ⊢
    exact refuses label world.stores.1 closed length offset
  simp [load, Act.run_bind, belongs.token, World.note, lowered, inside, refused]

end Reader

namespace Ensemble

/-- After any history, a read through a reader whose store is closed fails as it should exactly
if it needs a sector that the reader does not keep. -/
theorem closed_reader_refuses (stores : ι → Store σ) (refuses : ∀ label, (stores label).RefusesWhenClosed)
    (token : Token) (options : Options) (world : World (Archive ι σ)) (history : List (Happening ι σ)) :
    let reached := after stores history (new token options world)
    ∀ reader ∈ reached.readers, reader.store.isOpen reached.world.stores = false →
      reached.world.signals.raised token = false → ∀ (request : Request) (offset length : Nat),
      request.range? reader.cursor = some (offset, length) → length ≤ Offset.maximum →
      ((Reader.respond request (reader, reached.world)).1 = .bytes (.error .notOpen) ∧
        (Reader.respond request (reader, reached.world)).2.1.cursor = reader.cursor ↔
          ¬ reader.AtHand offset length) := by
  intro reached reader member closed lowered request offset length range short
  have belongs := ((new_sound stores token options world).after history).readers reader member
  constructor
  · rintro ⟨failed, _⟩ atHand
    obtain ⟨bytes, kept, run⟩ := Reader.respond_atHand range belongs.positive short atHand
    rw [run] at failed
    cases failed
  · intro apart
    exact Reader.respond_barred range belongs.positive short apart (belongs.barred_closed refuses closed lowered)

def errand (before : List Request) : List (Happening Unit Memory) :=
  [.openStore (), .reader 0] ++ before.map (.request 0) ++ [.close]

def abandoned (before : List Request) : Ensemble Unit Memory :=
  after (fun _ => Memory.store) (errand before) (new ⟨0⟩ {} (.start (Volume.chained, [])))

theorem closed_reader_refuses_unread : ∃ reader ∈ (abandoned []).readers,
    (Reader.respond (.readAt 0 4) (reader, (abandoned []).world)).1 = .bytes (.error .notOpen) := by
  have facts : (abandoned []).readers.any (fun reader => !reader.store.isOpen (abandoned []).world.stores &&
      !(abandoned []).world.signals.raised ⟨0⟩ && !decide (reader.AtHand 0 4)) = true := by decide +kernel
  unfold abandoned at facts ⊢
  simp only [List.any_eq_true, Bool.and_eq_true, Bool.not_eq_true', decide_eq_false_iff_not] at facts
  obtain ⟨reader, member, ⟨closed, lowered⟩, apart⟩ := facts
  have refuses := closed_reader_refuses (fun _ : Unit => Memory.store) (fun _ => Memory.refusesWhenClosed) ⟨0⟩ {}
    (.start (Volume.chained, [])) (errand []) reader member closed lowered (.readAt 0 4) 0 4 rfl (by decide)
  exact ⟨reader, member, (refuses.mpr apart).1⟩

/-- A reader that has read a sector goes on to give it out. -/
theorem closed_reader_answers : ∃ reader ∈ (abandoned [.read 4]).readers,
    reader.store.isOpen (abandoned [.read 4]).world.stores = false ∧
    (abandoned [.read 4]).world.signals.raised ⟨0⟩ = false ∧ reader.size = 512 ∧
    ∃ bytes, (Reader.respond (.readAt 0 4) (reader, (abandoned [.read 4]).world)).1 = .bytes (.ok bytes) := by
  have facts : (abandoned [.read 4]).readers.any (fun reader =>
      !reader.store.isOpen (abandoned [.read 4]).world.stores && !(abandoned [.read 4]).world.signals.raised ⟨0⟩ &&
      decide (reader.size = 512) && decide (reader.AtHand 0 4)) = true := by decide +kernel
  simp only [List.any_eq_true, Bool.and_eq_true, Bool.not_eq_true', decide_eq_true_eq] at facts
  obtain ⟨reader, member, ⟨⟨closed, lowered⟩, size⟩, atHand⟩ := facts
  have sound := (new_sound (fun _ : Unit => Memory.store) ⟨0⟩ {} (.start (Volume.chained, []))).after (errand [.read 4])
  have positive := (sound.readers reader member).positive
  have range : Request.range? reader.cursor (.readAt 0 4) = some (0, 4) := rfl
  obtain ⟨bytes, _, run⟩ := Reader.respond_atHand range positive (by decide) atHand
  exact ⟨reader, member, closed, lowered, size, bytes, by rw [run]⟩

end Ensemble
end PartitionTable
