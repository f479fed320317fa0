import PartitionTable.Proofs.Host
import PartitionTable.Store.Memory

/-! A file that is read in pieces. A host may deliver less than it was asked for, and it may interrupt a
read; a store over a file puts together what comes. The reading is told here as a loop: it fills a buffer
from the front, and each round asks for all that is missing. The loop ends, and unless the host refuses a
round it leaves what a store has that holds the same bytes in memory. -/
namespace PartitionTable

/-- What one positioned read of a file may be answered: an interruption, some of the bytes that stand
there and are wanted, nothing where the file has ended, or a refusal. -/
inductive Image.Answers (image : Image) (position wanted : Nat) : Except HostError (List UInt8) → Prop where
  | interrupted : Answers image position wanted (.error .interrupted)
  | piece : 0 < count → count ≤ wanted → position + count ≤ image.size →
    Answers image position wanted (.ok (image.slice position count))
  | ended : image.size ≤ position → Answers image position wanted (.ok [])
  | refused : error ≠ .interrupted → Answers image position wanted (.error error)

/-- As far as it delivers, a host that may refuse is one that may not. -/
theorem Image.Answers.serves {image : Image} {bytes : List UInt8}
    (answers : image.Answers position wanted (.ok bytes)) (missing : wanted ≠ 0) :
    image.Serves position wanted (.ok bytes) := by
  cases answers with
  | piece positive short => exact .part positive short
  | ended past =>
    rw [← image.slice_past past]
    exact .part (Nat.pos_of_ne_zero missing) (Nat.le_refl wanted)

theorem Image.answers_slice (image : Image) (positive : 0 < count) (short : count ≤ wanted) :
    image.Answers position wanted (.ok (image.slice position count)) := by
  by_cases past : image.size ≤ position
  · rw [image.slice_past past]
    exact .ended past
  · have whole : image.slice position count = image.slice position (min count (image.size - position)) := by
      rw [slice_eq_map, slice_eq_map, Nat.min_assoc, Nat.min_self]
    rw [whole]
    exact .piece (by omega) (by omega) (by omega)

namespace Host

/-- A host has a file under a number. While the file is held it is answered from its bytes, and reading
it changes none of them. -/
structure Provides (host : Host η) (number : Nat) (image : Image) (held : η → Prop) : Prop where
  answers : ∀ s, held s → ∀ position wanted, 0 < wanted →
    image.Answers position wanted (host.readAt number position wanted s).1
  stays : ∀ s, held s → ∀ position wanted, 0 < wanted → held (host.readAt number position wanted s).2

structure Round where
  position : Nat
  wanted : Nat
  answer : Except HostError (List UInt8)

/-- The host did not serve the read, and not because it was interrupted. -/
def Round.Refused (round : Round) : Prop := ∃ error ≠ HostError.interrupted, round.answer = .error error

instance (round : Round) : Decidable round.Refused :=
  match given : round.answer with
  | .ok _ => .isFalse fun ⟨_, _, same⟩ => nomatch given.symm.trans same
  | .error error =>
    if other : error = .interrupted then
      .isFalse fun ⟨_, differs, same⟩ => differs (Except.error.inj (same.symm.trans given) ▸ other)
    else .isTrue ⟨error, other, given⟩

theorem Round.served_ok (position wanted : Nat) (bytes : List UInt8) :
    ¬ Round.Refused ⟨position, wanted, .ok bytes⟩ := by
  rintro ⟨_, _, same⟩
  cases same

theorem Round.served_interrupted (position wanted : Nat) :
    ¬ Round.Refused ⟨position, wanted, .error .interrupted⟩ := by
  rintro ⟨_, other, same⟩
  cases same
  exact other rfl

inductive Turn where
  | onward (filled : List UInt8)
  | done (outcome : Except Gap (List UInt8))

/-- What the answer to a read at a position makes of a buffer that was filled so far. -/
def Turn.after (filled : List UInt8) (position : Nat) : Except HostError (List UInt8) → Turn
  | .ok [] => .done (.ok filled)
  | .ok piece => .onward (filled ++ piece)
  | .error .interrupted => .onward filled
  | .error error => .done (.error (.refused position error))

theorem Turn.after_piece {bytes : List UInt8} (some : bytes ≠ []) :
    Turn.after filled position (.ok bytes) = .onward (filled ++ bytes) := by
  cases bytes with
  | nil => exact absurd rfl some
  | cons first more => rfl

theorem Turn.after_refused (other : error ≠ HostError.interrupted) :
    Turn.after filled position (.error error) = .done (.error (.refused position error)) := by
  cases error with
  | interrupted => exact absurd rfl other
  | _ => rfl

/-- One round of a loop that fills a buffer from an offset on, behind what is filled already. -/
def advance (host : Host η) (number offset room : Nat) (filled : List UInt8) (s : η) : List Round × Turn × η :=
  let position := offset + filled.length
  let wanted := room - filled.length
  if room ≤ filled.length then ([], .done (.ok filled), s)
  else if Offset.addressLimit < position then ([], .done (.error .beyond), s)
  else
    let (given, later) := host.readAt number position wanted s
    ([⟨position, wanted, given⟩], .after filled position given, later)

/-- A loop that ends: the rounds it makes, what it comes to, and the host after it. -/
inductive Runs (host : Host η) (number offset room : Nat) :
    List UInt8 → η → List Round → Except Gap (List UInt8) → η → Prop where
  | done : host.advance number offset room filled s = (made, .done outcome, last) →
    Runs host number offset room filled s made outcome last
  | onward {round : Round} : host.advance number offset room filled s = ([round], .onward more, later) →
    Runs host number offset room more later rounds outcome last →
    Runs host number offset room filled s (round :: rounds) outcome last

theorem Runs.unique {host : Host η} (one : host.Runs number offset room filled s rounds outcome last)
    (other : host.Runs number offset room filled s made ending final) :
    made = rounds ∧ ending = outcome ∧ final = last := by
  induction one generalizing made with
  | done stop =>
    cases other with
    | done same =>
      cases stop.symm.trans same
      exact ⟨rfl, rfl, rfl⟩
    | onward same => cases stop.symm.trans same
  | onward turn _ ih =>
    cases other with
    | done same => cases turn.symm.trans same
    | onward same rest =>
      cases turn.symm.trans same
      obtain ⟨rfl, rfl, rfl⟩ := ih rest
      exact ⟨rfl, rfl, rfl⟩

/-- What is made of the rounds of a loop: all that is wanted and there, unless one was refused. -/
inductive Fulfils (image : Image) (position wanted : Nat) : List Round → Except Gap (List UInt8) → Prop where
  | served : (∀ round ∈ rounds, ¬ round.Refused) →
    Fulfils image position wanted rounds (.ok (image.slice position wanted))
  | refused : (∃ round ∈ rounds, round.Refused) →
    Fulfils image position wanted rounds (.error (.refused stop error))

namespace Fulfils

variable {image : Image} {round : Round} {rounds : List Round} {outcome : Except Gap (List UInt8)}

theorem cons (fulfils : Fulfils image position wanted rounds outcome) (served : ¬ round.Refused) :
    Fulfils image position wanted (round :: rounds) outcome := by
  cases fulfils with
  | served others => exact .served (List.forall_mem_cons.mpr ⟨served, others⟩)
  | refused among =>
    obtain ⟨round, member, refused⟩ := among
    exact .refused ⟨round, List.mem_cons_of_mem _ member, refused⟩

theorem behind {piece : List UInt8}
    (rest : Fulfils image (position + piece.length) (wanted - piece.length) rounds outcome)
    (same : piece = image.slice position piece.length) (short : piece.length ≤ wanted)
    (inside : position + piece.length ≤ image.size) :
    Fulfils image position wanted rounds (outcome.map (piece ++ ·)) := by
  cases rest with
  | served served =>
    have joined := image.slice_append inside (wanted - piece.length)
    rw [← same, Nat.add_sub_cancel' short] at joined
    rw [Except.map, joined]
    exact .served served
  | refused refused => exact .refused refused

end Fulfils

section Fill

variable {host : Host η} {image : Image} {held : η → Prop} {number offset position wanted : Nat}
  {filled : List UInt8} {s later : η}

theorem Provides.answered (provides : host.Provides number image held) (holds : held s) (missing : wanted ≠ 0)
    (answer : host.readAt number position wanted s = (given, later)) :
    image.Answers position wanted given ∧ held later := by
  have answers := provides.answers s holds position wanted (Nat.pos_of_ne_zero missing)
  have stays := provides.stays s holds position wanted (Nat.pos_of_ne_zero missing)
  rw [answer] at answers stays
  exact ⟨answers, stays⟩

/-- A round with room in the buffer puts one read, for all that is missing. -/
theorem advance_due (missing : wanted ≠ 0) (near : ¬ Offset.addressLimit < offset + filled.length)
    (answer : host.readAt number (offset + filled.length) wanted s = (given, later)) :
    host.advance number offset (filled.length + wanted) filled s =
      ([⟨offset + filled.length, wanted, given⟩], .after filled (offset + filled.length) given, later) := by
  have room : ¬ filled.length + wanted ≤ filled.length := by omega
  simp only [advance, room, near, ↓reduceIte, Nat.add_sub_cancel_left, answer]

theorem map_append_append (filled bytes : List UInt8) (outcome : Except Gap (List UInt8)) :
    outcome.map (filled ++ bytes ++ ·) = (outcome.map (bytes ++ ·)).map (filled ++ ·) := by
  cases outcome with
  | ok rest => exact congrArg Except.ok (List.append_assoc filled bytes rest)
  | error gap => rfl

/-- However the host splits and interrupts a request, the loop ends, as the recursion over the request
does, and it comes to what is wanted and there. -/
theorem fill_runs (provides : host.Provides number image held)
    (fits : image.size ≤ Offset.addressLimit ∨ position + wanted ≤ Offset.addressLimit + 1)
    (place : wanted ≠ 0 → position ≤ Offset.addressLimit) (holds : held s) :
    held (host.fill number position wanted s).2 ∧ ∃ rounds,
      Fulfils image position wanted rounds (host.fill number position wanted s).1 ∧
      ∀ filled, offset + filled.length = position →
        host.Runs number offset (filled.length + wanted) filled s rounds
          ((host.fill number position wanted s).1.map (filled ++ ·)) (host.fill number position wanted s).2 := by
  -- What the buffer holds so far is left open, for the recursion knows nothing of it: it starts anew behind
  -- each piece, and the loop goes on with the buffer that has this piece at its end.
  fun_induction fill host number position wanted s with
  | case1 position s =>
    have nothing : image.slice position 0 = [] := by simp [Image.slice_eq_map]
    refine ⟨holds, [], nothing ▸ .served (List.forall_mem_nil _), fun filled _ => .done ?_⟩
    have all : filled.length + 0 ≤ filled.length := Nat.le_refl _
    simp only [advance, all, ↓reduceIte, Except.map, List.append_nil]
  | case2 position wanted s missing far => exact absurd (place missing) (Nat.not_le_of_lt far)
  | case3 position wanted s missing near later answer ih =>
    obtain ⟨_, stays⟩ := provides.answered holds missing answer
    obtain ⟨kept, rounds, fulfils, runs⟩ := ih fits place stays
    have served := Round.served_interrupted position wanted
    refine ⟨kept, ⟨position, wanted, .error .interrupted⟩ :: rounds, fulfils.cons served, ?_⟩
    rintro filled rfl
    exact .onward (advance_due missing near answer) (runs filled rfl)
  | case4 position wanted s missing near error later other answer =>
    obtain ⟨_, stays⟩ := provides.answered holds missing answer
    let round : Round := ⟨position, wanted, .error error⟩
    refine ⟨stays, [round], .refused ⟨round, List.mem_singleton_self _, error, other, rfl⟩, ?_⟩
    rintro filled rfl
    refine .done ?_
    rw [advance_due missing near answer, Turn.after_refused other]
    rfl
  | case5 position wanted s missing near later answer =>
    obtain ⟨answers, stays⟩ := provides.answered holds missing answer
    have nothing := (answers.serves missing).slice_eq_nil
    have fulfils : Fulfils image position wanted [⟨position, wanted, .ok []⟩] (.ok []) := by
      rw [← nothing]
      exact .served (List.forall_mem_singleton.mpr (Round.served_ok position wanted _))
    refine ⟨stays, [⟨position, wanted, .ok []⟩], fulfils, ?_⟩
    rintro filled rfl
    refine .done ?_
    rw [advance_due missing near answer, Except.map, List.append_nil]
    rfl
  | case6 position wanted s missing near first more later answer bytes rest last run ih
  | case7 position wanted s missing near first more later answer bytes gap last run ih =>
    obtain ⟨answers, stays⟩ := provides.answered holds missing answer
    obtain ⟨same, short, inside⟩ := (answers.serves missing).piece_eq (List.cons_ne_nil _ _)
    have whole : bytes = first :: more := List.take_of_length_le short
    rw [← whole] at same short inside
    obtain ⟨kept, rounds, fulfils, runs⟩ := ih (by omega) (by omega) stays
    rw [run] at kept fulfils runs
    have served := Round.served_ok position wanted bytes
    refine ⟨kept, ⟨position, wanted, .ok bytes⟩ :: rounds, (fulfils.behind same short inside).cons served, ?_⟩
    rintro filled rfl
    have onward := runs (filled ++ bytes) (by rw [List.length_append, Nat.add_assoc])
    rw [List.length_append, Nat.add_assoc, Nat.add_sub_cancel' short, map_append_append] at onward
    have turn := advance_due missing near answer
    rw [← whole, Turn.after_piece (whole ▸ List.cons_ne_nil _ _)] at turn
    exact .onward turn onward

end Fill
end Host

namespace File

variable {host : Host η} {image : Image} {held : η → Prop} {number offset : Nat} {system : η}

/-- However a host splits and interrupts the reads of a file, a store over the file delivers what a store
delivers that holds the same bytes in memory, and it fails only where the host refuses a read. The loop
that fills the buffer ends, and it never comes to a position behind the last address. -/
theorem read_eq_memory (provides : host.Provides number image held) (place : offset ≤ Offset.maximum)
    (fits : image.size ≤ Offset.addressLimit ∨ room ≤ Offset.maximum) {file : File}
    (isOpen : file.number = some number) (holds : held system) :
    let reply := (store host).read room offset (file, system)
    (∃ rounds outcome last, host.Runs number offset room [] system rounds outcome last) ∧
      ∀ rounds outcome last, host.Runs number offset room [] system rounds outcome last →
        reply.state = (file, last) ∧ held last ∧ outcome ≠ .error .beyond ∧
        (∀ bytes, outcome = .ok bytes → reply.result = .ok (.ofBytes bytes)) ∧
        ((∀ round ∈ rounds, ¬ round.Refused) →
          reply.result = (Memory.store.read room offset ⟨image, true⟩).result) ∧
        ((∃ round ∈ rounds, round.Refused) → reply.result = .error .readFailed) := by
  obtain ⟨path, _⟩ := file
  cases isOpen
  have near : image.size ≤ Offset.addressLimit ∨ offset + room ≤ Offset.addressLimit + 1 := by
    unfold Offset.maximum Offset.addressLimit at *
    omega
  have start : room ≠ 0 → offset ≤ Offset.addressLimit := fun _ => Nat.le_trans place (by decide)
  obtain ⟨kept, rounds, fulfils, runs⟩ := Host.fill_runs provides near start holds
  have runs := runs [] rfl
  rw [List.length_nil, Nat.zero_add] at runs
  rcases run : host.fill number offset room system with ⟨outcome, last⟩
  rw [run] at kept fulfils runs
  refine ⟨⟨rounds, _, last, runs⟩, fun made ending final same => ?_⟩
  obtain ⟨rfl, rfl, rfl⟩ := same.unique runs
  cases fulfils with
  | served served =>
    have given : (store host).read room offset (⟨path, some number⟩, system) =
        .ok (.ofBytes (image.slice offset room)) (⟨path, some number⟩, last) := by
      simp only [store, read, run]
    rw [given]
    refine ⟨rfl, kept, ?_, ?_, fun _ => rfl, ?_⟩
    · rintro ⟨⟩
    · rintro _ ⟨⟩
      rfl
    · rintro ⟨round, member, refused⟩
      exact absurd refused (served round member)
  | @refused stop error refused =>
    have given : (store host).read room offset (⟨path, some number⟩, system) =
        .error .readFailed (⟨path, some number⟩, last) [.fileNotRead path stop error] := by
      simp only [store, read, run]
    rw [given]
    refine ⟨rfl, kept, ?_, ?_, fun served => ?_, fun _ => rfl⟩
    · rintro ⟨⟩
    · rintro _ ⟨⟩
    · obtain ⟨round, member, refused⟩ := refused
      exact absurd refused (served round member)

end File

/-- A host with one file and a plan for the reads to come: each delivers so many bytes after the first, or
fails. When the plan is at its end the host delivers all that is wanted. -/
structure Fitful where
  image : Image
  plan : List (Except HostError Nat)

namespace Fitful

def readAt (position wanted : Nat) (s : Fitful) : Except HostError (List UInt8) × Fitful :=
  match s.plan with
  | [] => (.ok (s.image.slice position wanted), s)
  | .ok more :: plan => (.ok (s.image.slice position (min (more + 1) wanted)), { s with plan })
  | .error error :: plan => (.error error, { s with plan })

theorem length_plan (s : Fitful) : (readAt position wanted s).2.plan.length = s.plan.length - 1 := by
  rcases s with ⟨image, _ | ⟨_ | _, plan⟩⟩ <;> rfl

theorem plan_ne_nil {s : Fitful} (answer : (readAt position wanted s).1 = .error error) : s.plan ≠ [] := by
  intro spent
  rw [readAt, spent] at answer
  cases answer

def host : Host Fitful where
  openPath _ s := (.ok 0, s)
  size _ s := (.ok s.image.size, s)
  readAt _ := readAt
  interruptions s := s.plan.length
  interruptions_le {_ position wanted s _ later} answer := by
    cases congrArg Prod.snd answer
    rw [length_plan]
    exact Nat.sub_le ..
  interruptions_lt {_ position wanted s later} answer := by
    have some := List.length_pos_of_ne_nil (plan_ne_nil (congrArg Prod.fst answer))
    cases congrArg Prod.snd answer
    rw [length_plan]
    exact Nat.sub_one_lt_of_lt some

theorem provides (number : Nat) (image : Image) : host.Provides number image (·.image = image) := by
  constructor
  · rintro ⟨_, _ | ⟨error | more, plan⟩⟩ rfl position wanted positive
    · exact Image.answers_slice _ positive (Nat.le_refl wanted)
    · by_cases interrupted : error = .interrupted
      · exact interrupted ▸ .interrupted
      · exact .refused interrupted
    · exact Image.answers_slice _ (by omega) (Nat.min_le_right ..)
  · rintro ⟨_, _ | ⟨_ | _, plan⟩⟩ rfl position wanted _ <;> rfl

end Fitful

/-- Seven bytes from the fifth on of a file with ten: two interruptions and a piece of two bytes do no
harm, and a refusal does. -/
theorem File.read_eq_memory_fitful :
    let image : Image := ⟨10, .ofNat⟩
    let patient : Fitful := ⟨image, [.error .interrupted, .ok 1, .error .interrupted, .ok 0]⟩
    let broken : Fitful := ⟨image, [.ok 2, .error .isDirectory]⟩
    let file : File := ⟨"disk", some 0⟩
    Fitful.host.Provides 0 image (·.image = image) ∧ 5 ≤ Offset.maximum ∧ image.size ≤ Offset.addressLimit ∧
      ((store Fitful.host).read 7 5 (file, patient)).result = .ok (.ofBytes [5, 6, 7, 8, 9]) ∧
      ((store Fitful.host).read 7 5 (file, broken)).result = .error .readFailed := by
  intro image patient broken file
  have provides := Fitful.provides 0 image
  have place : 5 ≤ Offset.maximum := by decide
  have small : image.size ≤ Offset.addressLimit := by decide
  have isOpen : file.number = some 0 := rfl
  refine ⟨provides, place, small, ?_, ?_⟩
  · have ended : Fitful.host.Runs 0 5 7 [5, 6, 7, 8, 9] ⟨image, []⟩ [⟨10, 2, .ok []⟩] _ _ := .done rfl
    have second : Fitful.host.Runs 0 5 7 [5, 6] ⟨image, [.error .interrupted, .ok 0]⟩
        [⟨7, 5, .error .interrupted⟩, ⟨7, 5, .ok [7]⟩, ⟨8, 4, .ok [8, 9]⟩, ⟨10, 2, .ok []⟩] _ _ :=
      .onward rfl (.onward rfl (.onward rfl ended))
    have runs : Fitful.host.Runs 0 5 7 [] patient
        (⟨5, 7, .error .interrupted⟩ :: ⟨5, 7, .ok [5, 6]⟩ :: _) _ _ := .onward rfl (.onward rfl second)
    obtain ⟨-, -, -, -, served, -⟩ := (read_eq_memory provides place (.inl small) isOpen rfl).2 _ _ _ runs
    exact served (by decide)
  · have runs : Fitful.host.Runs 0 5 7 [] broken
       [⟨5, 7, .ok [5, 6, 7]⟩, ⟨8, 4, .error .isDirectory⟩] (.error (.refused 8 .isDirectory)) ⟨image, []⟩ :=
      .onward rfl (.done rfl)
    obtain ⟨-, -, -, -, -, refused⟩ := (read_eq_memory provides place (.inl small) isOpen rfl).2 _ _ _ runs
    exact refused ⟨_, List.mem_cons_of_mem _ (List.mem_singleton_self _), by decide⟩

end PartitionTable
