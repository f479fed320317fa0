import PartitionTable.Probe
import PartitionTable.Proofs.Chain.InStep
import PartitionTable.Proofs.Exchange

/-! Two stores that cannot be told apart. Their worlds are related, and whatever call is put to both
of them, the answers are one and the worlds stay related. What is done by calls and notices only then
has one result over both: that is proved once for each way to go on, and for a walk along the reads
that it puts in step with another one. -/
namespace PartitionTable

/-- In any two related states two steps have one result, and lead to related states. -/
def Act.Agrees (alike : ω → υ → Prop) (act : Act ω α) (other : Act υ α) : Prop :=
  ∀ w u, alike w u → (act.run w).1 = (other.run u).1 ∧ alike (act.run w).2 (other.run u).2

/-- A relation of worlds that no call to the two stores brings to an end, and no notice. The tokens
are those of their users, who may be different ones. -/
structure Store.Alike (left : Store σ) (right : Store τ) (token other : Token)
    (alike : World σ → World τ → Prop) : Prop where
  isOpen : ∀ w u, alike w u → left.isOpen w.stores = right.isOpen u.stores
  raised : ∀ w u, alike w u → w.signals.raised token = u.signals.raised other
  noted : ∀ w u notice, alike w u → alike (w.note notice) (u.note notice)
  answers : ∀ w u call, alike w u → (left.reply call w.stores).result = (right.reply call u.stores).result
  stays : ∀ w u call, alike w u →
    alike (w.absorb (left.reply call w.stores)) (u.absorb (right.reply call u.stores))

theorem Reply.map_result_inj {form : α → β} (injective : ∀ a b, form a = form b → a = b) {reply : Reply σ α}
    {other : Reply τ α} (same : (reply.map form).result = (other.map form).result) :
    reply.result = other.result := by
  obtain ⟨result, _⟩ := reply
  obtain ⟨given, _⟩ := other
  cases result <;> cases given
  · exact congrArg Except.error (Except.error.inj same)
  · cases same
  · cases same
  · exact congrArg Except.ok (injective _ _ (Except.ok.inj same))

namespace Act.Agrees

section General

variable {alike : ω → υ → Prop}

theorem runs {act : Act ω α} {other : Act υ α} (agrees : Act.Agrees alike act other) {w : ω} {u : υ}
    (related : alike w u) :
    ∃ result w' u', act.run w = (result, w') ∧ other.run u = (result, u') ∧ alike w' u' := by
  obtain ⟨same, later⟩ := agrees w u related
  exact ⟨_, _, _, rfl, Prod.ext same.symm rfl, later⟩

theorem ofExcept (result : Except Fault α) : Act.Agrees alike (.ofExcept result) (.ofExcept result) :=
  fun _ _ related => ⟨rfl, related⟩

theorem pure (a : α) : Act.Agrees alike (Pure.pure a) (Pure.pure a) := ofExcept (.ok a)

theorem fail (fault : Fault) : Act.Agrees alike (.fail fault : Act ω α) (.fail fault) := ofExcept (.error fault)

theorem view {read : ω → α} {sight : υ → α} (same : ∀ w u, alike w u → read w = sight u) :
    Act.Agrees alike (.view read) (.view sight) :=
  fun w u related => ⟨congrArg Except.ok (same w u related), related⟩

theorem attempt {act : Act ω α} {other : Act υ α} (agrees : Act.Agrees alike act other) :
    Act.Agrees alike act.attempt other.attempt := by
  intro w u related
  obtain ⟨same, later⟩ := agrees w u related
  exact ⟨congrArg Except.ok same, later⟩

theorem bind {first : Act ω α} {second : Act υ α} {next : α → Act ω β} {after : α → Act υ β}
    (head : Act.Agrees alike first second) (tail : ∀ a, Act.Agrees alike (next a) (after a)) :
    Act.Agrees alike (first >>= next) (second >>= after) := by
  intro w u related
  obtain ⟨fault | a, w', u', run, ran, middle⟩ := head.runs related
  · rw [run_bind_error run, run_bind_error ran]
    exact ⟨rfl, middle⟩
  · rw [run_bind_ok run, run_bind_ok ran]
    exact tail a w' u' middle

end General

section Stores

variable {left : Store σ} {right : Store τ} {token other : Token} {alike : World σ → World τ → Prop}

theorem note (stores : left.Alike right token other alike) (notice : Notice) :
    Act.Agrees alike (PartitionTable.note notice) (PartitionTable.note notice) :=
  fun w u related => ⟨rfl, stores.noted w u notice related⟩

theorem refuse (stores : left.Alike right token other alike) (notice : Notice) (fault : Fault) :
    Act.Agrees alike (PartitionTable.refuse notice fault : Act (World σ) α) (PartitionTable.refuse notice fault) :=
  .bind (.note stores notice) fun _ => .fail fault

theorem isCancelled (stores : left.Alike right token other alike) :
    Act.Agrees alike (PartitionTable.isCancelled token) (PartitionTable.isCancelled other) :=
  .view stores.raised

theorem ask {request : σ → Reply σ α} {query : τ → Reply τ α} {answer : α → Answer}
    (stores : left.Alike right token other alike) (call : Call) (injective : ∀ a b, answer a = answer b → a = b)
    (same : ∀ s, left.reply call s = (request s).map answer) (also : ∀ t, right.reply call t = (query t).map answer) :
    Act.Agrees alike (PartitionTable.ask request) (PartitionTable.ask query) := by
  intro w u related
  have answers := stores.answers w u call related
  have stays := stores.stays w u call related
  rw [same, also] at answers stays
  exact ⟨Reply.map_result_inj injective answers, stays⟩

theorem acquire (stores : left.Alike right token other alike) :
    Act.Agrees alike (PartitionTable.ask left.acquire) (PartitionTable.ask right.acquire) :=
  .ask stores .acquire (fun _ _ _ => rfl) (fun _ => rfl) fun _ => rfl

theorem release (stores : left.Alike right token other alike) :
    Act.Agrees alike (PartitionTable.ask left.release) (PartitionTable.ask right.release) :=
  .ask stores .release (fun _ _ _ => rfl) (fun _ => rfl) fun _ => rfl

theorem size (stores : left.Alike right token other alike) :
    Act.Agrees alike (PartitionTable.ask left.size) (PartitionTable.ask right.size) :=
  .ask stores .size (fun _ _ => Answer.size.inj) (fun _ => rfl) fun _ => rfl

theorem read (stores : left.Alike right token other alike) (length offset : Nat) :
    Act.Agrees alike (PartitionTable.ask (left.read length offset)) (PartitionTable.ask (right.read length offset)) :=
  .ask stores (.read length offset) (fun _ _ => Answer.reading.inj) (fun _ => rfl) fun _ => rfl

end Stores
end Act.Agrees

section Walks

variable {left : Store σ} {right : Store τ} {token other : Token} {alike : World σ → World τ → Prop}

theorem BootRecord.readFrom_agrees (stores : left.Alike right token other alike) (offset : Int) :
    Act.Agrees alike (readFrom left offset) (readFrom right offset) := by
  unfold readFrom
  split
  · exact .fail _
  refine .bind (.note stores _) fun _ => .bind (.read stores _ _) fun reading => ?_
  split
  · exact .ofExcept _
  · exact .refuse stores _ _

theorem Walk.readRecord_agrees (stores : left.Alike right token other alike) (limit : Nat) (offset : Int) :
    Act.Agrees alike (readRecord ⟨left, token, limit⟩ offset) (readRecord ⟨right, other, limit⟩ offset) := by
  refine .bind (.isCancelled stores) fun raised => ?_
  split
  · exact .fail _
  · exact BootRecord.readFrom_agrees stores offset

/-- Steps that read in two ways with one result have one result themselves. -/
theorem Act.InStep.agrees {first : Int → Act (World σ) BootRecord} {second : Int → Act (World τ) BootRecord}
    {good : α → Prop} {act : Act (World σ) α} {parallel : Act (World τ) α}
    (reads : ∀ offset, Act.Agrees alike (first offset) (second offset))
    (notes : ∀ notice, Act.Agrees alike (PartitionTable.note notice) (PartitionTable.note notice))
    (inStep : InStep first second good act parallel) : Act.Agrees alike act parallel := by
  induction inStep with
  | ofExcept => exact .ofExcept _
  | note => exact notes _
  | read => exact reads _
  | attempt head _ _ _ before after =>
    intro w u related
    obtain ⟨same, middle⟩ := before w u related
    rw [run_attempt_bind, run_attempt_bind, ← same]
    exact after _ (head.holds w) _ _ middle

theorem Walk.resolve_agrees (stores : left.Alike right token other alike) (limit : Nat) (size : SectorSize) :
    Act.Agrees alike (resolve ⟨left, token, limit⟩ size) (resolve ⟨right, other, limit⟩ size) :=
  (resolve_inStep ⟨left, token, limit⟩ ⟨right, other, limit⟩ rfl size).agrees
    (readRecord_agrees stores limit) (.note stores)

theorem Probe.run_agrees (stores : left.Alike right token other alike) : Act.Agrees alike (run left) (run right) := by
  have first : Act.Agrees alike (firstSector left) (firstSector right) := by
    refine .bind (.read stores _ _) fun reading => ?_
    split
    · exact .refuse stores _ _
    dsimp only
    split
    · exact .pure _
    split
    · exact .bind (.note stores _) fun _ => .pure _
    · exact .pure _
  refine .bind (.view stores.isOpen) fun isOpen => ?_
  split
  · exact first
  refine .bind (.acquire stores) fun _ => .bind first.attempt fun found => ?_
  refine .bind (Act.Agrees.release stores).attempt fun closed => ?_
  exact .bind (.ofExcept _) fun _ => .bind (.ofExcept _) fun _ => .pure _

end Walks
end PartitionTable
