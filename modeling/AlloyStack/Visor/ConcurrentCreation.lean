import Mathlib.Logic.Function.Basic
import AlloyStack.Visor.IsolationTable

/-! Concurrent calls of `Isolation::new`. The id is drawn under the lock of `ID_KEEPER` and
the table entry appended later under the lock of `ISOL_TABLE`; between the two any other
call may run. -/
namespace AlloyStack.Visor
open Rust Transition

inductive Phase where
  | start
  | drawn (id : Nat)
  | returned (isol : Isolation)
  | panicked
  deriving DecidableEq, Repr

/-- The statics together with the progress of each call, for any set of calls. -/
structure Calls (τ : Type) where
  tables : Tables := {}
  phase : τ → Phase := fun _ => .start

inductive CallEvent (τ : Type) where
  | draw (call : τ)
  | push (call : τ)

variable {τ : Type} [DecidableEq τ]

def Calls.draw (b : Build) (s : Calls τ) (call : τ) : Calls τ :=
  match genNewId b s.tables with
  | (some id, tables) => ⟨tables, Function.update s.phase call (.drawn id)⟩
  | (none, tables) => ⟨tables, Function.update s.phase call .panicked⟩

def Calls.push (s : Calls τ) (call : τ) (id : Nat) : Calls τ :=
  match pushIsol s.tables id with
  | (some isol, tables) => ⟨tables, Function.update s.phase call (.returned isol)⟩
  | (none, tables) => ⟨tables, Function.update s.phase call .panicked⟩

inductive CallStep (b : Build) : Calls τ → CallEvent τ → Calls τ → Prop where
  | draw (idle : s.phase call = .start) : CallStep b s (.draw call) (s.draw b call)
  | push (held : s.phase call = .drawn newId) : CallStep b s (.push call) (s.push call newId)

/-- Every isolation returned so far is found under its id. -/
def Found (b : Build) (s : Calls τ) : Prop :=
  ∀ call isol, s.phase call = .returned isol → (getIsol b s.tables isol.id).1 = .ok isol

/-- A push is made only by the call whose id is one more than the number of entries, that
is, in the order in which the ids were drawn. -/
def DrawOrder (s : Calls τ) (event : CallEvent τ) (_ : Calls τ) : Prop :=
  match event with
  | .draw _ => True
  | .push call => s.tables.isolTable.length < word ∧
      s.phase call = .drawn ((s.tables.isolTable.length + 1) % word)

/-- Without drops the object number of an entry is its position. -/
structure Calls.Sound (b : Build) (s : Calls τ) : Prop where
  table : s.tables.isolTable = s.tables.alive
  objects : s.tables.objects = s.tables.isolTable.length
  numbered : ∀ (i : Nat) isol, s.tables.isolTable[i]? = some isol → isol.object = i
  tableSound : s.tables.tablePoisoned = false
  ids : ∀ isol ∈ s.tables.isolTable, isol.id < word ∧ (b.overflowChecks = true → 1 ≤ isol.id)
  drawn : ∀ call id, s.phase call = .drawn id → id < word ∧ (b.overflowChecks = true → 1 ≤ id)
  keeper : s.tables.idKeeper < word ∧ (b.overflowChecks = true → 1 ≤ s.tables.idKeeper)
  returned : ∀ call isol, s.phase call = .returned isol → isol ∈ s.tables.isolTable
  owned : ∀ isol ∈ s.tables.isolTable, ∃ call, s.phase call = .returned isol

def Calls.Ordered (s : Calls τ) : Prop :=
  ∀ (i : Nat) isol, s.tables.isolTable[i]? = some isol → i < word ∧ isol.id = (i + 1) % word

omit [DecidableEq τ] in
theorem calls_sound_initial : Calls.Sound b ({} : Calls τ) where
  table := rfl
  objects := rfl
  numbered := by simp
  tableSound := rfl
  ids := by simp
  drawn := by simp
  keeper := ⟨show 1 < word by decide, fun _ => Nat.le_refl 1⟩
  returned := by simp
  owned := by simp

namespace Calls.Sound
variable {b : Build} {s : Calls τ}

omit [DecidableEq τ] in
/-- An entry is found under its id exactly when the id is that of its position. -/
theorem found_at (sound : s.Sound b) (entry : s.tables.isolTable[i]? = some isol) :
    (getIsol b s.tables isol.id).1 = .ok isol ↔ i < word ∧ isol.id = (i + 1) % word := by
  obtain ⟨small, positive⟩ := sound.ids isol (List.mem_of_getElem? entry)
  have alive : isol ∈ s.tables.alive := sound.table ▸ List.mem_of_getElem? entry
  have index : b.sub isol.id 1 = some ((isol.id + word - 1) % word) := by
    simp only [Build.sub]
    split
    · rename_i below
      have := positive below.1
      omega
    · rfl
  constructor
  · intro found
    simp only [getIsol, sound.tableSound, index, Bool.false_eq_true, if_false] at found
    split at found
    · cases found
    · rename_i other entry'
      split at found
      · cases found
        have same := (sound.numbered _ _ entry).symm.trans (sound.numbered _ _ entry')
        unfold word at *
        omega
      · cases found
  · rintro ⟨room, own⟩
    have same : (isol.id + word - 1) % word = i := by
      rw [own]
      unfold word at *
      omega
    simp [getIsol, sound.tableSound, index, same, entry, alive]

omit [DecidableEq τ] in
theorem found_iff (sound : s.Sound b) : Found b s ↔ s.Ordered := by
  constructor
  · intro found i isol entry
    obtain ⟨call, returned⟩ := sound.owned isol (List.mem_of_getElem? entry)
    exact (sound.found_at entry).mp (found call isol returned)
  · intro ordered call isol returned
    obtain ⟨i, entry⟩ := List.mem_iff_getElem?.mp (sound.returned call isol returned)
    exact (sound.found_at entry).mpr (ordered i isol entry)

/-- A step that leaves the table alone and moves a call that had not returned. -/
theorem reframe (sound : s.Sound b) (idle : s.phase call = .start)
    (bound : next < word ∧ (b.overflowChecks = true → 1 ≤ next))
    (unreturned : ∀ isol, after ≠ .returned isol)
    (valid : ∀ newId, after = .drawn newId → newId < word ∧ (b.overflowChecks = true → 1 ≤ newId)) :
    Calls.Sound b ⟨{ s.tables with idKeeper := next, keeperPoisoned := poison },
      Function.update s.phase call after⟩ where
  table := sound.table
  objects := sound.objects
  numbered := sound.numbered
  tableSound := sound.tableSound
  ids := sound.ids
  keeper := bound
  drawn other newId phase := by
    by_cases same : other = call
    · subst same
      exact valid newId (by simpa using phase)
    · exact sound.drawn other newId (by simpa [same] using phase)
  returned other isol phase := by
    by_cases same : other = call
    · subst same
      exact absurd (by simpa using phase) (unreturned isol)
    · exact sound.returned other isol (by simpa [same] using phase)
  owned isol member := by
    obtain ⟨other, phase⟩ := sound.owned isol member
    have differs : other ≠ call := by
      rintro rfl
      rw [idle] at phase
      cases phase
    exact ⟨other, by simpa [differs] using phase⟩

theorem draw (sound : s.Sound b) (idle : s.phase call = .start) : (s.draw b call).Sound b := by
  unfold Calls.draw genNewId
  split
  · rename_i newId tables drawn
    split at drawn
    · cases drawn
    · split at drawn
      · rename_i next added
        cases drawn
        refine sound.reframe idle ?_ (by simp) (by rintro _ ⟨⟩; exact sound.keeper)
        simp only [Build.add, Option.ite_none_left_eq_some, Option.some.injEq] at added
        obtain ⟨fits, rfl⟩ := added
        refine ⟨Nat.mod_lt _ (by decide), fun checks => ?_⟩
        simp only [checks, true_and, not_le] at fits
        rw [Nat.mod_eq_of_lt fits]
        omega
      · cases drawn
  · rename_i tables drawn
    split at drawn
    · cases drawn
      exact sound.reframe idle sound.keeper (by simp) (by simp)
    · split at drawn
      · cases drawn
      · cases drawn
        exact sound.reframe idle sound.keeper (by simp) (by simp)

theorem push_eq (sound : s.Sound b) (call : τ) (newId : Nat) :
    s.push call newId = {
      tables := { s.tables with
        isolTable := s.tables.isolTable ++ [⟨s.tables.isolTable.length, newId⟩]
        alive := s.tables.isolTable ++ [⟨s.tables.isolTable.length, newId⟩]
        objects := s.tables.isolTable.length + 1 }
      phase := Function.update s.phase call (.returned ⟨s.tables.isolTable.length, newId⟩) } := by
  simp only [Calls.push, pushIsol, sound.tableSound, sound.objects, ← sound.table,
    Bool.false_eq_true, if_false]

theorem push (sound : s.Sound b) (held : s.phase call = .drawn newId) :
    (s.push call newId).Sound b := by
  rw [sound.push_eq]
  have valid := sound.drawn call newId held
  constructor
  case table => rfl
  case objects => simp
  case numbered =>
    intro i isol entry
    rcases Sequence.getElem?_snoc_iff.mp entry with old | ⟨rfl, rfl⟩
    · exact sound.numbered i isol old
    · rfl
  case tableSound => exact sound.tableSound
  case ids =>
    intro isol member
    rcases List.mem_append.mp member with old | last
    · exact sound.ids isol old
    · rw [List.mem_singleton.mp last]
      exact valid
  case drawn =>
    intro other otherId phase
    have differs : other ≠ call := by rintro rfl; simp at phase
    exact sound.drawn other otherId (by simpa [differs] using phase)
  case keeper => exact sound.keeper
  case returned =>
    intro other isol phase
    by_cases same : other = call
    · subst same
      obtain rfl : (⟨s.tables.isolTable.length, newId⟩ : Isolation) = isol := by simpa using phase
      simp
    · exact List.mem_append_left _ (sound.returned other isol (by simpa [same] using phase))
  case owned =>
    intro isol member
    rcases List.mem_append.mp member with old | last
    · obtain ⟨other, phase⟩ := sound.owned isol old
      have differs : other ≠ call := by
        rintro rfl
        rw [held] at phase
        cases phase
      exact ⟨other, by simpa [differs] using phase⟩
    · exact ⟨call, by simp [List.mem_singleton.mp last]⟩

theorem step (sound : s.Sound b) (stepped : CallStep b s event t) : t.Sound b := by
  cases stepped with
  | draw idle => exact sound.draw idle
  | push held => exact sound.push held

theorem run (sound : s.Sound b) (path : Run (CallStep b) s events t) : t.Sound b :=
  path.stable (fun sound stepped => sound.step stepped) sound

end Calls.Sound

theorem draw_table (b : Build) (s : Calls τ) (call : τ) :
    (s.draw b call).tables.isolTable = s.tables.isolTable := by
  have drawn : (s.draw b call).tables = (genNewId b s.tables).2 := by
    unfold Calls.draw
    split <;> rename_i step <;> rw [step]
  rw [drawn, genNewId]
  split
  · rfl
  · split <;> rfl

variable {b : Build} {s t : Calls τ}

theorem table_grows (sound : s.Sound b) (path : Run (CallStep b) s events t) :
    s.tables.isolTable <+: t.tables.isolTable := by
  induction path with
  | nil => exact List.prefix_rfl
  | cons head _ ih =>
    refine List.IsPrefix.trans ?_ (ih (sound.step head))
    cases head with
    | draw idle => simp only [draw_table, List.prefix_rfl]
    | push held =>
      rw [sound.push_eq]
      exact List.prefix_append _ _

theorem ordered_push (sound : s.Sound b) (ordered : s.Ordered)
    (room : s.tables.isolTable.length < word)
    (own : newId = (s.tables.isolTable.length + 1) % word) : (s.push call newId).Ordered := by
  rw [sound.push_eq]
  intro i isol entry
  rcases Sequence.getElem?_snoc_iff.mp entry with old | ⟨rfl, rfl⟩
  · exact ordered i isol old
  · exact ⟨room, own⟩

/-- The table only grows, so the order at the end of a run is the order of every push. -/
theorem ordered_run (sound : s.Sound b) (ordered : s.Ordered) :
    Run (CallStep b) s events t ∧ t.Ordered ↔ Run (Where (CallStep b) DrawOrder) s events t := by
  constructor
  · rintro ⟨path, final⟩
    induction path with
    | nil => exact .nil _
    | @cons s event next events t head rest ih =>
      have grown := table_grows (sound.step head) rest
      cases head with
      | draw idle =>
        refine .cons ⟨.draw idle, trivial⟩ (ih (sound.draw idle) ?_ final)
        simpa only [Calls.Ordered, draw_table] using ordered
      | @push call newId held =>
        have entry : (s.push call newId).tables.isolTable[s.tables.isolTable.length]? =
            some ⟨s.tables.isolTable.length, newId⟩ := by
          rw [sound.push_eq]
          simp
        obtain ⟨room, own⟩ := final _ _ (Sequence.getElem?_of_prefix grown entry)
        dsimp only at own
        subst own
        exact .cons ⟨.push held, room, held⟩
          (ih (sound.push held) (ordered_push sound ordered room rfl) final)
  · intro path
    induction path with
    | nil => exact ⟨.nil _, ordered⟩
    | cons head _ ih =>
      obtain ⟨stepped, order⟩ := head
      have following := sound.step stepped
      cases stepped with
      | draw idle =>
        obtain ⟨path, final⟩ :=
          ih following (by simpa only [Calls.Ordered, draw_table] using ordered)
        exact ⟨.cons (.draw idle) path, final⟩
      | push held =>
        obtain ⟨room, own⟩ := order
        have same := Phase.drawn.inj (held.symm.trans own)
        obtain ⟨path, final⟩ := ih following (ordered_push sound ordered room same)
        exact ⟨.cons (.push held) path, final⟩

/-- In any interleaving of any number of calls, the isolations returned are all found under
their ids exactly when every push was made in the order of the ids. -/
theorem concurrent_new_found_iff (b : Build) (events : List (CallEvent τ)) (s : Calls τ) :
    Run (CallStep b) {} events s ∧ Found b s ↔ Run (Where (CallStep b) DrawOrder) {} events s := by
  rw [← ordered_run calls_sound_initial (by simp [Calls.Ordered])]
  exact and_congr_right fun path => (calls_sound_initial.run path).found_iff

/-- Two calls, the second overtaking the first between its two steps. -/
theorem concurrent_new_overtaking :
    ∃ s : Calls Bool, Run (CallStep release) {}
      [.draw false, .draw true, .push true, .push false] s ∧
      s.phase false = .returned ⟨1, 1⟩ ∧ s.phase true = .returned ⟨0, 2⟩ ∧
      (getIsol release s.tables 1).1 = .ok ⟨0, 2⟩ ∧ ¬ Found release s := by
  let s : Calls Bool :=
    ((({} : Calls Bool).draw release false).draw release true |>.push true 2).push false 1
  refine ⟨s, ?_, by decide, by decide, by decide, ?_⟩
  · refine .cons (.draw rfl) (.cons (.draw rfl) (.cons (.push ?_) (.cons (.push ?_) (.nil _))))
    · decide
    · decide
  · intro found
    have first := found false ⟨1, 1⟩ (by decide)
    revert first
    decide

end AlloyStack.Visor
