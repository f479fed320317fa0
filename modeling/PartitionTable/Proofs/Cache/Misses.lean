import PartitionTable.Proofs.Cache.Recency

/-! The misses of a list of keys that is kept in the order of their last use. A key that is used
stands in front afterwards; a new one is a miss, and without a place left for it the last key leaves.
As long as there are no more keys than places nothing ever leaves, so each key is missed once. -/
namespace PartitionTable

namespace Lru

variable [DecidableEq α]

/-- The keys after one more use, most recent first. -/
def use (places : Nat) (resident : List α) (key : α) : List α :=
  key :: if key ∈ resident then resident.filter (· != key) else resident.take (places - 1)

/-- The keys that are not there when they are used, in the order of their uses. -/
def misses (places : Nat) : List α → List α → List α
  | _, [] => []
  | resident, key :: rest =>
    if key ∈ resident then misses places (use places resident key) rest
    else key :: misses places (use places resident key) rest

theorem misses_append (places : Nat) (resident first second : List α) :
    misses places resident (first ++ second) =
      misses places resident first ++ misses places (first.foldl (use places) resident) second := by
  induction first generalizing resident with
  | nil => rfl
  | cons key rest ih =>
    simp only [List.cons_append, misses, List.foldl_cons, ih]
    split
    · rfl
    · rfl

theorem use_hit (places : Nat) {resident : List α} (hit : key ∈ resident) :
    use places resident key = key :: resident.filter (· != key) := by
  rw [use, if_pos hit]

theorem use_room {resident : List α} (miss : key ∉ resident) (room : resident.length < places) :
    use places resident key = key :: resident := by
  rw [use, if_neg miss, List.take_of_length_le (by omega)]

def fresh (resident accesses : List α) : List α := (accesses.filter (· ∉ resident)).eraseDups

theorem fresh_hit {resident : List α} (hit : key ∈ resident) (rest : List α) :
    fresh resident (key :: rest) = fresh resident rest := by
  rw [fresh, List.filter_cons_of_neg (by simpa using hit), fresh]

theorem fresh_miss {resident : List α} (miss : key ∉ resident) (rest : List α) :
    fresh resident (key :: rest) = key :: fresh (key :: resident) rest := by
  rw [fresh, List.filter_cons_of_pos (by simpa using miss), List.eraseDups_cons, List.filter_filter, fresh]
  congr 3
  funext other
  by_cases same : other = key
  · simp [same]
  · simp [same]

theorem fresh_congr {resident others : List α} (same : ∀ key, key ∈ resident ↔ key ∈ others) (accesses : List α) :
    fresh resident accesses = fresh others accesses := by
  simp only [fresh, same]

/-- While there is room for all the new keys, they are the misses. -/
theorem misses_eq_fresh {resident : List α} (distinct : resident.Nodup) (accesses : List α)
    (room : resident.length + (fresh resident accesses).length ≤ places) :
    misses places resident accesses = fresh resident accesses := by
  induction accesses generalizing resident with
  | nil => rfl
  | cons key rest ih =>
    by_cases hit : key ∈ resident
    · have moved : (key :: resident.filter (· != key)).Perm resident := by
        rw [← distinct.erase_eq_filter]
        exact (List.perm_cons_erase hit).symm
      have same := fresh_congr (fun other => moved.mem_iff (a := other)) rest
      rw [fresh_hit hit] at room ⊢
      rw [misses, if_pos hit, use_hit places hit, ih (moved.nodup_iff.mpr distinct), same]
      rwa [moved.length_eq, same]
    · rw [fresh_miss hit, List.length_cons] at room
      rw [fresh_miss hit, misses, if_neg hit, use_room hit (by omega), ih (List.nodup_cons.mpr ⟨hit, distinct⟩)]
      rw [List.length_cons]
      omega

/-- No more keys than places: each one is missed where it is used first, and never again. -/
theorem misses_few {accesses : List α} (few : accesses.eraseDups.length ≤ places) :
    misses places [] accesses = accesses.eraseDups := by
  have all : fresh [] accesses = accesses.eraseDups := by
    rw [fresh, List.filter_eq_self.mpr fun _ _ => by simp]
  rw [← all] at few ⊢
  exact misses_eq_fresh List.nodup_nil accesses (by simpa using few)

end Lru
end PartitionTable
