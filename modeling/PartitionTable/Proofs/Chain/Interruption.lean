import PartitionTable.Proofs.Chain.InStep
import PartitionTable.Proofs.Chain.Resolution
import PartitionTable.Proofs.Transcript

/-! A walk that is cancelled on its way, beside the same walk left alone. The flag is asked for
before every read and nowhere else, so both do the same up to the read during which the flag
goes up. If the walk that is left alone reads no more after that one, neither notices. If it
does read more, the other one stops there: it puts no further read, and nothing that would be
made of a failed read is made of the cancellation. -/
namespace PartitionTable

/-- The same store, but somebody raises the flag during the read that makes the transcript so
long. The answer is the same. -/
def Store.interrupting (store : Store (Archive ι σ)) (token : Token) (count : Nat) : Store (Archive ι σ) :=
  { store with
    read := fun length offset s =>
      let reply := store.read length offset s
      if reply.state.2.length = count then { reply with signals := reply.signals ++ [.cancel token] } else reply }

namespace Store

variable (store : Store (Archive ι σ)) (token : Token) (count length offset : Nat) (s : Archive ι σ)

@[simp] theorem result_interrupting :
    ((store.interrupting token count).read length offset s).result = (store.read length offset s).result := by
  simp only [interrupting]
  split <;> rfl

@[simp] theorem state_interrupting :
    ((store.interrupting token count).read length offset s).state = (store.read length offset s).state := by
  simp only [interrupting]
  split <;> rfl

/-- After a read that nobody cancels by himself the flag is up exactly if the time had come. -/
theorem raised_interrupting (quiet : .cancel token ∉ (store.read length offset s).signals) {signals : Signals}
    (lowered : signals.raised token = false) :
    (((store.interrupting token count).read length offset s).signals.foldl Signals.apply signals).raised token =
      decide ((store.read length offset s).state.2.length = count) := by
  simp only [interrupting]
  by_cases due : (store.read length offset s).state.2.length = count
  · simp [due, Signals.apply]
  · simp [due, Signals.lowered_foldl quiet lowered]

end Store

def Quiet (token : Token) (log : List (ι × Exchange)) : Prop := ∀ entry ∈ log, .cancel token ∉ entry.2.signals

theorem Quiet.earlier {before after : List (ι × Exchange)} (quiet : Quiet token after) (grown : before <:+ after) :
    Quiet token before := fun entry member => quiet entry (grown.mem member)

instance (token : Token) (log : List (ι × Exchange)) : Decidable (Quiet token log) :=
  inferInstanceAs (Decidable (∀ entry ∈ log, _))

/-- Two worlds that differ in the flag alone, and only once the transcript is so long. -/
structure World.Alike (token : Token) (count : Nat) (calm cut : World (Archive ι σ)) : Prop where
  stores : cut.stores = calm.stores
  few : calm.stores.2.length ≤ count
  lowered : calm.signals.raised token = false
  flag : cut.signals.raised token = decide (calm.stores.2.length = count)

/-- What becomes of a step that is cut, beside one that is left alone. -/
inductive Act.Cut (token : Token) (count : Nat) (calm cut : Except Fault α × World (Archive ι σ)) : Prop where
  | unnoticed : cut.1 = calm.1 → calm.2.Alike token count cut.2 → Cut token count calm cut
  | stopped : cut.1 = .error .cancelled → cut.2.stores.2.length = count → cut.2.stores.2 <:+ calm.2.stores.2 →
      count < calm.2.stores.2.length → Cut token count calm cut

namespace Walk

section Cut

variable {store : Store σ} {token : Token} {limit count : Nat} {label : ι} {calm cut : World (Archive ι σ)}

def calmly (store : Store σ) (label : ι) (token : Token) (limit : Nat) : Walk (Archive ι σ) :=
  ⟨store.transcribed label, token, limit⟩

/-- The walk during whose read of a number the flag goes up. -/
def interrupted (store : Store σ) (label : ι) (token : Token) (limit count : Nat) : Walk (Archive ι σ) :=
  ⟨(store.transcribed label).interrupting token count, token, limit⟩

theorem readRecord_cut (alike : calm.Alike token count cut) (origin : 0 ≤ offset)
    (quiet : Quiet token (((calmly store label token limit).readRecord offset).run calm).2.stores.2) :
    Act.Cut token count (((calmly store label token limit).readRecord offset).run calm)
      (((interrupted store label token limit count).readRecord offset).run cut) := by
  obtain ⟨notices, _, left⟩ := (calmly store label token limit).readRecord_lowered alike.lowered origin
  rw [left] at quiet ⊢
  by_cases last : calm.stores.2.length = count
  · have raised : cut.signals.raised token = true := by rw [alike.flag, decide_eq_true last]
    rw [readRecord_raised _ raised]
    refine .stopped rfl ?_ ?_ ?_
    · rw [alike.stores, last]
    · rw [alike.stores]
      exact List.suffix_cons _ _
    · rw [← last]
      exact Nat.lt_succ_self _
  · have lowered : cut.signals.raised token = false := by rw [alike.flag, decide_eq_false last]
    obtain ⟨others, _, right⟩ := (interrupted store label token limit count).readRecord_lowered lowered origin
    have quiet : .cancel token ∉ (store.read BootRecord.size offset.toNat calm.stores.1).signals :=
      quiet _ List.mem_cons_self
    have longer : calm.stores.2.length + 1 ≤ count := Nat.lt_of_le_of_ne alike.few last
    rw [right, alike.stores]
    refine .unnoticed ?_ ⟨?_, longer, Signals.lowered_foldl quiet alike.lowered, ?_⟩
    · simp [interrupted, calmly, Exchange.record, Store.exchange, Store.reply, Reply.map]
    · simp [interrupted, calmly, World.absorb]
    · exact Store.raised_interrupting _ token count _ _ _ quiet lowered

variable {good : α → Prop} {act other : Act (World (Archive ι σ)) α}

def Longer (world later : World (Archive ι σ)) : Prop := world.stores.2 <:+ later.stores.2

theorem readRecord_longer (offset : Int) (world : World (Archive ι σ)) (origin : 0 ≤ offset) :
    Longer world (((calmly store label token limit).readRecord offset).run world).2 := by
  cases flag : world.signals.raised token with
  | true =>
    rw [readRecord_raised _ flag]
    exact List.suffix_refl _
  | false =>
    obtain ⟨_, _, run⟩ := (calmly store label token limit).readRecord_lowered flag origin
    rw [run]
    exact List.suffix_cons _ _

theorem run_longer (inStep : Act.InStep (calmly store label token limit).readRecord
    (interrupted store label token limit count).readRecord good act other) (world : World (Archive ι σ)) :
    Longer world (act.run world).2 :=
  inStep.keeps Longer (fun _ => List.suffix_refl _) (fun _ _ _ => List.IsSuffix.trans)
    (fun _ _ => List.suffix_refl _) readRecord_longer world

/-- What holds of a read holds of every step that is made of reads: it goes on as if nothing
had happened, or it was stopped and the other one went further. -/
theorem run_cut (inStep : Act.InStep (calmly store label token limit).readRecord
    (interrupted store label token limit count).readRecord good act other) :
    ∀ calm cut, calm.Alike token count cut → Quiet token (act.run calm).2.stores.2 →
      Act.Cut token count (act.run calm) (other.run cut) := by
  induction inStep with
  | ofExcept => exact fun calm cut alike _ => .unnoticed rfl alike
  | note => exact fun calm cut alike _ => .unnoticed rfl ⟨alike.stores, alike.few, alike.lowered, alike.flag⟩
  | read origin => exact fun calm cut alike quiet => readRecord_cut alike origin quiet
  | @attempt _ _ _ _ first _ _ _ head tail _ withdrawn before rest =>
    intro calm cut alike quiet
    rw [Act.run_attempt_bind] at quiet
    have grown := run_longer (tail _ (head.holds calm)) (first.run calm).2
    rw [Act.run_attempt_bind, Act.run_attempt_bind]
    cases before calm cut alike (quiet.earlier grown) with
    | unnoticed same alike =>
      rw [same]
      exact rest _ (head.holds calm) _ _ alike quiet
    | stopped same count behind more =>
      rw [same, withdrawn]
      exact .stopped rfl count (behind.trans grown) (Nat.lt_of_lt_of_le more grown.length_le)

/-- A walk during whose read of a number the flag goes up -- or before it, if the number is
nought -- beside the walk over the same store in which nobody raises the flag. -/
theorem resolve_interrupted (store : Store σ) (token : Token) (limit : Nat) (size : SectorSize) (count : Nat) (s : σ)
    (signals : Signals) (notices : List Notice) (lowered : signals.raised token = false) :
    let calm := ((calmly store () token limit).resolve size).run ⟨(s, []), signals, notices⟩
    let cut := ((interrupted store () token limit count).resolve size).run
      ⟨(s, []), if count = 0 then signals.cancel token else signals, notices⟩
    Quiet token calm.2.stores.2 →
      (calm.2.stores.2.length ≤ count → cut.1 = calm.1 ∧ cut.2.stores = calm.2.stores) ∧
      (count < calm.2.stores.2.length →
        cut.1 = .error .cancelled ∧ cut.2.stores.2.length = count ∧ cut.2.stores.2 <:+ calm.2.stores.2) ∧
      ∀ entry ∈ calm.2.stores.2, ∃ offset, entry.2.ReadsRecord offset := by
  intro calm cut quiet
  let before : World (Archive Unit σ) := ⟨(s, []), signals, notices⟩
  have alike : before.Alike token count
      { before with signals := if count = 0 then signals.cancel token else signals } := by
    refine ⟨rfl, Nat.zero_le _, lowered, ?_⟩
    by_cases early : count = 0
    · simp [before, early]
    · simp [before, early, lowered, Ne.symm early]
  have inStep := resolve_inStep (calmly store () token limit) (interrupted store () token limit count) rfl size
  have outcome : Act.Cut token count calm cut := run_cut inStep before _ alike quiet
  obtain ⟨trace, served, sparing, _⟩ := (calmly store () token limit).resolve_traced size before
  have log : calm.2.stores.2 = (trace.map ((), ·)).reverse ++ [] := served.transcribed
  have reads : ∀ entry ∈ calm.2.stores.2, ∃ offset, entry.2.ReadsRecord offset := by
    simpa [log] using sparing.reads
  cases outcome with
  | unnoticed same alike =>
    exact ⟨fun _ => ⟨same, alike.stores⟩, fun more => absurd alike.few (Nat.not_le.mpr more), reads⟩
  | stopped same length behind more =>
    exact ⟨fun few => absurd more (Nat.not_lt.mpr few), fun _ => ⟨same, length, behind⟩, reads⟩

/-- The first link of the disk takes four attempts. The flag goes up during the second of them. -/
theorem resolve_interrupted_laddered :
    let cut := ((interrupted Memory.store () ⟨0⟩ 1 3).resolve .of512).run ⟨(⟨.laddered, true⟩, []), .calm, []⟩
    cut.1 = .error .cancelled ∧ cut.2.stores.2.length = 3 := by
  have quiet : Quiet ⟨0⟩ (((calmly Memory.store () ⟨0⟩ 1).resolve .of512).run
      ⟨(⟨.laddered, true⟩, []), .calm, []⟩).2.stores.2 := by decide +kernel
  have more : 3 < (((calmly Memory.store () ⟨0⟩ 1).resolve .of512).run
      ⟨(⟨.laddered, true⟩, []), .calm, []⟩).2.stores.2.length := by decide +kernel
  have told := resolve_interrupted Memory.store ⟨0⟩ 1 .of512 3 ⟨.laddered, true⟩ .calm [] rfl quiet
  rw [if_neg (show 3 ≠ 0 by decide)] at told
  obtain ⟨_, stopped, _⟩ := told
  exact ⟨(stopped more).1, (stopped more).2.1⟩

end Cut
end Walk
end PartitionTable
