import Mathlib.Data.List.Perm.Basic
import Mathlib.Logic.Function.Basic
import AlloyStack.Library.Rust
import AlloyStack.Library.Text

/-! User functions that hand data on through named slots. A slot holds the value of its data buffer,
and `from_buffer_slot` takes it out. -/
namespace AlloyStack.User
open Rust

abbrev Slots (V : Type) := String → Option V

/-- `DataBuffer::with_slot`, and what the function leaves in the buffer. -/
def Slots.put (s : Slots V) (slot : String) (value : V) : Slots V :=
  Function.update s slot (some value)

def Slots.clear (s : Slots V) (slot : String) : Slots V := Function.update s slot none

section Folds
variable {α V : Type} (key : α → String) (value : α → V) {y : String} {v : V}

theorem Slots.foldl_put_other (l : List α) (s : Slots V) (other : ∀ a ∈ l, y ≠ key a) :
    l.foldl (fun s a => s.put (key a) (value a)) s y = s y := by
  induction l generalizing s with
  | nil => rfl
  | cons a l ih =>
    rw [List.foldl_cons, ih _ fun b member => other b (by simp [member])]
    exact Function.update_of_ne (other a (by simp)) ..

theorem Slots.foldl_put_mem (l : List α) (s : Slots V) (same : ∀ a ∈ l, key a = y → value a = v)
    (present : ∃ a ∈ l, key a = y) : l.foldl (fun s a => s.put (key a) (value a)) s y = some v := by
  induction l generalizing s with
  | nil => simp at present
  | cons c l ih =>
    rw [List.foldl_cons]
    by_cases later : ∃ a ∈ l, key a = y
    · exact ih _ (fun a member => same a (by simp [member])) later
    · obtain ⟨a, member, found⟩ := present
      have first : key c = y := by
        rcases List.mem_cons.mp member with rfl | member
        · exact found
        · exact absurd ⟨a, member, found⟩ later
      rw [foldl_put_other key value l _ fun a member eq => later ⟨a, member, eq.symm⟩, ← first,
        ← same c (by simp) first]
      exact Function.update_self ..

end Folds

section Stage
variable {S : Type} (f : Nat → S → Outcome S)

/-- A group of functions that differ in their ids, in the order in which they run. -/
def stage : List Nat → S → Outcome S
  | [], s => .ok s
  | id :: ids, s => (f id s).bind (stage ids)

variable (All Good : Nat → Prop) (I : List Nat → S → Prop)

/-- A function that runs after some of the group extends what holds of them. -/
def Grows : Prop :=
  ∀ done id s, I done s → id ∉ done → All id → Good id → ∃ t, f id s = .ok t ∧ I (done ++ [id]) t

variable {f All Good I}

theorem not_mem_of_nodup {id : Nat} {done ids : List Nat} (fresh : (done ++ id :: ids).Nodup) :
    id ∉ done := by
  intro member
  exact (List.nodup_append.mp fresh).2.2 id member id (by simp) rfl

theorem stage_ok_from (grows : Grows f All Good I) {ids done : List Nat} {s : S}
    (all : ∀ id ∈ ids, All id) (good : ∀ id ∈ ids, Good id) (fresh : (done ++ ids).Nodup)
    (holds : I done s) :
    ∃ t, stage f ids s = .ok t ∧ I (done ++ ids) t := by
  induction ids generalizing s done with
  | nil => exact ⟨s, rfl, by simpa using holds⟩
  | cons id ids ih =>
    obtain ⟨t, ran, kept⟩ :=
      grows done id s holds (not_mem_of_nodup fresh) (all id (by simp)) (good id (by simp))
    obtain ⟨u, rest, last⟩ :=
      ih (fun i member => all i (by simp [member])) (fun i member => good i (by simp [member]))
      (by simpa using fresh) kept
    exact ⟨u, by simp [stage, ran, Outcome.bind, rest], by simpa using last⟩

theorem stage_ok (grows : Grows f All Good I) {ids : List Nat} {s : S} (all : ∀ id ∈ ids, All id)
    (good : ∀ id ∈ ids, Good id) (nodup : ids.Nodup) (holds : I [] s) :
    ∃ t, stage f ids s = .ok t ∧ I ids t := by
  have fresh : ([] ++ ids).Nodup := nodup
  exact stage_ok_from grows all good fresh holds

theorem stage_panic_from (grows : Grows f All Good I)
    (panics : ∀ done id s, I done s → id ∉ done → All id → ¬ Good id → f id s = .panic)
    {ids done : List Nat} {s : S} (all : ∀ id ∈ ids, All id) (fresh : (done ++ ids).Nodup)
    (holds : I done s) (bad : ∃ id ∈ ids, ¬ Good id) :
    stage f ids s = .panic := by
  induction ids generalizing s done with
  | nil => simp at bad
  | cons id ids ih =>
    have apart := not_mem_of_nodup fresh
    by_cases good : Good id
    · obtain ⟨t, ran, kept⟩ := grows done id s holds apart (all id (by simp)) good
      obtain ⟨i, member, broken⟩ := bad
      rcases List.mem_cons.mp member with rfl | later
      · exact absurd good broken
      · have rest :=
          ih (fun i member => all i (by simp [member])) (by simpa using fresh) kept
            ⟨i, later, broken⟩
        simp [stage, ran, Outcome.bind, rest]
    · simp [stage, panics done id s holds apart (all id (by simp)) good, Outcome.bind]

/-- A function that panics wherever it runs ends the group, if the functions before it do not. -/
theorem stage_panic (grows : Grows f All Good I)
    (panics : ∀ done id s, I done s → id ∉ done → All id → ¬ Good id → f id s = .panic)
    {ids : List Nat} {s : S} (all : ∀ id ∈ ids, All id) (nodup : ids.Nodup) (holds : I [] s)
    (bad : ∃ id ∈ ids, ¬ Good id) :
    stage f ids s = .panic := by
  have fresh : ([] ++ ids).Nodup := nodup
  exact stage_panic_from grows panics all fresh holds bad

/-- In a group that ends, every function has run and ended. -/
theorem stage_ran {id : Nat} {ids : List Nat} {s t : S} (done : stage f ids s = .ok t)
    (member : id ∈ ids) :
    ∃ before after, f id before = .ok after := by
  induction ids generalizing s with
  | nil => cases member
  | cons first ids ih =>
    obtain ⟨next, ran, rest⟩ := Outcome.bind_eq_ok.mp done
    rcases List.mem_cons.mp member with rfl | later
    · exact ⟨s, next, ran⟩
    · exact ih rest later

theorem stage_all_panic {ids : List Nat} {s : S} (panics : ∀ id s, f id s = .panic)
    (nonempty : ids ≠ []) :
    stage f ids s = .panic := by
  cases ids with
  | nil => exact absurd rfl nonempty
  | cons id ids => simp [stage, panics, Outcome.bind]

end Stage
end AlloyStack.User
