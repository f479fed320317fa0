import PartitionTable.Fault

/-! Steps over a state that may fail. The state survives a fault: what a step had already
done when it failed stays done, and the caller sees it. -/
namespace PartitionTable

structure Act (ω α : Type) where
  run : ω → Except Fault α × ω

namespace Act

@[inline] def pure (a : α) : Act ω α := ⟨fun w => (.ok a, w)⟩

@[inline] def bind (first : Act ω α) (next : α → Act ω β) : Act ω β := ⟨fun w =>
  match first.run w with
  | (.ok a, w) => (next a).run w
  | (.error fault, w) => (.error fault, w)⟩

instance : Monad (Act ω) where
  pure := pure
  bind := bind

@[inline] def fail (fault : Fault) : Act ω α := ⟨fun w => (.error fault, w)⟩

@[inline] def ofExcept (result : Except Fault α) : Act ω α := ⟨fun w => (result, w)⟩

/-- The outcome as a value: this step itself never fails. -/
@[inline] def attempt (act : Act ω α) : Act ω (Except Fault α) := ⟨fun w =>
  match act.run w with
  | (result, w) => (.ok result, w)⟩

@[inline] def view (read : ω → α) : Act ω α := ⟨fun w => (.ok (read w), w)⟩

@[inline] def change (write : ω → ω) : Act ω Unit := ⟨fun w => (.ok (), write w)⟩

/-- A step over the second half of a state leaves the first half alone. -/
@[inline] def beside (act : Act ω α) : Act (ρ × ω) α := ⟨fun w =>
  match act.run w.2 with
  | (result, second) => (result, w.1, second)⟩

@[ext] theorem ext {left right : Act ω α} (same : ∀ w, left.run w = right.run w) : left = right := by
  cases left
  cases right
  simpa using funext same

@[simp] theorem run_pure (a : α) (w : ω) : (Pure.pure a : Act ω α).run w = (.ok a, w) := rfl

theorem run_bind (first : Act ω α) (next : α → Act ω β) (w : ω) :
    (first >>= next).run w = match first.run w with
      | (.ok a, w) => (next a).run w
      | (.error fault, w) => (.error fault, w) := rfl

theorem run_bind_ok {first : Act ω α} (success : first.run w = (.ok a, later)) :
    (first >>= next).run w = (next a).run later := by
  rw [run_bind, success]

theorem run_bind_error {first : Act ω α} (failure : first.run w = (.error fault, later)) :
    (first >>= next).run w = (.error fault, later) := by
  rw [run_bind, failure]

/-- A sequence succeeds exactly when its first step does and the rest succeeds after it. -/
theorem run_bind_eq_ok {first : Act ω α} {next : α → Act ω β} :
    (first >>= next).run w = (.ok b, last) ↔
      ∃ a later, first.run w = (.ok a, later) ∧ (next a).run later = (.ok b, last) := by
  rw [run_bind]
  rcases first.run w with ⟨_ | a, later⟩
  · simp
  · exact ⟨fun run => ⟨a, later, rfl, run⟩, fun ⟨_, _, same, run⟩ => by cases same; exact run⟩

/-- A sequence fails exactly when one of its steps does, and later steps do not run. -/
theorem run_bind_eq_error {first : Act ω α} {next : α → Act ω β} :
    (first >>= next).run w = (.error fault, last) ↔
      first.run w = (.error fault, last) ∨
      ∃ a later, first.run w = (.ok a, later) ∧ (next a).run later = (.error fault, last) := by
  rw [run_bind]
  rcases first.run w with ⟨_ | a, later⟩
  · simp
  · constructor
    · exact fun run => .inr ⟨a, later, rfl, run⟩
    · rintro (same | ⟨_, _, same, run⟩) <;> cases same
      exact run

@[simp] theorem run_fail (fault : Fault) (w : ω) :
    (fail fault : Act ω α).run w = (.error fault, w) := rfl

@[simp] theorem run_ofExcept (result : Except Fault α) (w : ω) :
    (ofExcept result : Act ω α).run w = (result, w) := rfl

@[simp] theorem run_attempt (act : Act ω α) (w : ω) :
    act.attempt.run w = (.ok (act.run w).1, (act.run w).2) := rfl

@[simp] theorem run_view (read : ω → α) (w : ω) : (view read).run w = (.ok (read w), w) := rfl

@[simp] theorem run_change (write : ω → ω) (w : ω) : (change write).run w = (.ok (), write w) := rfl

@[simp] theorem run_beside (act : Act ω α) (w : ρ × ω) :
    (act.beside : Act (ρ × ω) α).run w = ((act.run w.2).1, w.1, (act.run w.2).2) := rfl

theorem id_map (act : Act ω α) : id <$> act = act := by
  refine Act.ext fun w => ?_
  show (act >>= fun a => Pure.pure (id a)).run w = _
  rw [run_bind]
  rcases act.run w with ⟨_ | _, _⟩ <;> rfl

theorem bind_assoc (act : Act ω α) (f : α → Act ω β) (g : β → Act ω γ) :
    act >>= f >>= g = act >>= fun a => f a >>= g := by
  refine Act.ext fun w => ?_
  simp only [run_bind]
  rcases act.run w with ⟨_ | _, _⟩ <;> rfl

instance : LawfulMonad (Act ω) := LawfulMonad.mk' _ id_map (fun _ _ => rfl) bind_assoc

end Act
end PartitionTable
