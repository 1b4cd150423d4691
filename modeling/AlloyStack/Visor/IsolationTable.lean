import Mathlib.Data.List.Nodup
import AlloyStack.Library.Transition
import AlloyStack.Library.Rust
import AlloyStack.Library.Sequence

/-! The visor's table of isolations. `ID_KEEPER` hands out ids that only grow, while
`ISOL_TABLE` is a vector addressed by `id - 1` from which a dropped isolation removes the
entry at that position. The lookup is right exactly as long as both agree. -/
namespace AlloyStack.Visor
open Rust Transition

/-- An `Arc<Isolation>`. The object number stands for the allocation, which no two
isolations share; the id is the field. -/
structure Isolation where
  object : Nat
  id : Nat
  deriving DecidableEq, Repr

/-- The two statics, each with the poison flag of its mutex, and the isolations that still
have a strong reference. An entry of the table is a `Weak` pointer to its isolation. -/
structure Tables where
  idKeeper : Nat := 1
  keeperPoisoned : Bool := false
  isolTable : List Isolation := []
  tablePoisoned : Bool := false
  alive : List Isolation := []
  objects : Nat := 0
  deriving DecidableEq, Repr

/-- `gen_new_id`. An overflow panics while the guard is held, which poisons the mutex. -/
def genNewId (b : Build) (v : Tables) : Option Nat × Tables :=
  if v.keeperPoisoned then (none, v)
  else match b.add v.idKeeper 1 with
    | some next => (some v.idKeeper, { v with idKeeper := next })
    | none => (none, { v with keeperPoisoned := true })

/-- The end of `Isolation::new`: the isolation is built and its weak pointer pushed. -/
def pushIsol (v : Tables) (id : Nat) : Option Isolation × Tables :=
  if v.tablePoisoned then (none, v)
  else
    let isol : Isolation := ⟨v.objects, id⟩
    (some isol, { v with
      isolTable := v.isolTable ++ [isol]
      alive := v.alive ++ [isol]
      objects := v.objects + 1 })

/-- `Isolation::new`, as far as the two statics are concerned. -/
def newIsol (b : Build) (v : Tables) : Option Isolation × Tables :=
  match genNewId b v with
  | (none, v) => (none, v)
  | (some id, v) => pushIsol v id

def getIsol (b : Build) (v : Tables) (handle : Nat) : Outcome Isolation × Tables :=
  if v.tablePoisoned then (.panic, v)
  else match b.sub handle 1 with
    | none => (.panic, { v with tablePoisoned := true })
    | some index =>
      match v.isolTable[index]? with
      | none => (.err s!"isol don't exsit. handle={handle}", v)
      | some weak =>
        if weak ∈ v.alive then (.ok weak, v)
        else (.err s!"upgrade failed. isolation already stopped? handle={handle}", v)

/-- `Drop for Isolation`, run when the last strong reference is gone. `Vec::remove` returns
the removed entry and panics, under the lock, on an index out of range. -/
def dropIsol (b : Build) (v : Tables) (isol : Isolation) : Outcome Isolation × Tables :=
  let v := { v with alive := v.alive.erase isol }
  if v.tablePoisoned then (.panic, v)
  else match b.sub isol.id 1 with
    | none => (.panic, { v with tablePoisoned := true })
    | some index =>
      match v.isolTable[index]? with
      | none => (.panic, { v with tablePoisoned := true })
      | some removed => (.ok removed, { v with isolTable := v.isolTable.eraseIdx index })

inductive Op where
  | new
  | drop (isol : Isolation)
  deriving DecidableEq, Repr

/-- Sequential use of the table: only an isolation that is alive can be dropped. -/
inductive Step (b : Build) : Tables → Op → Tables → Prop where
  | new : Step b v .new (newIsol b v).2
  | drop (alive : isol ∈ v.alive) : Step b v (.drop isol) (dropIsol b v isol).2

/-- Every handle of type `u64` finds the isolation with that id if it is alive, and an
ordinary error otherwise. -/
def Correct (b : Build) (v : Tables) : Prop :=
  ∀ handle < word,
    (∀ isol ∈ v.alive, isol.id = handle → (getIsol b v handle).1 = .ok isol) ∧
    ((∀ isol ∈ v.alive, isol.id ≠ handle) → ∃ message, (getIsol b v handle).1 = .err message)

/-- A step leads to a correct table, and a drop removed the entry of its own isolation. -/
def StepCorrect (b : Build) (v : Tables) (op : Op) (next : Tables) : Prop :=
  Correct b next ∧ ∀ isol, op = .drop isol → (dropIsol b v isol).1 = .ok isol

/-- Stack discipline: an isolation is created only while the next id is one more than the
number of isolations alive, and only the newest isolation alive is dropped. -/
def StackOrder (v : Tables) (op : Op) (_ : Tables) : Prop :=
  match op with
  | .new => v.alive.length < word ∧ v.idKeeper = (v.alive.length + 1) % word
  | .drop isol => v.alive.getLast? = some isol

/-- The entry at position `i` belongs to the isolation with id `i + 1`, for every entry, and
the entries are the isolations alive. -/
structure Aligned (v : Tables) : Prop where
  table : v.isolTable = v.alive
  bound : v.alive.length ≤ word
  ids : ∀ i isol, v.alive[i]? = some isol → isol.id = (i + 1) % word
  objects : ∀ isol ∈ v.alive, isol.object < v.objects
  keeper : v.idKeeper < word
  keeperSound : v.keeperPoisoned = false
  tableSound : v.tablePoisoned = false

theorem aligned_initial : Aligned {} where
  table := rfl
  bound := Nat.zero_le _
  ids := by simp
  objects := by simp
  keeper := by decide
  keeperSound := rfl
  tableSound := rfl

theorem getIsol_release {v : Tables} (sound : v.tablePoisoned = false) (handle : Nat) :
    (getIsol release v handle).1 =
      match v.isolTable[(handle + word - 1) % word]? with
      | none => .err s!"isol don't exsit. handle={handle}"
      | some weak => if weak ∈ v.alive then .ok weak
        else .err s!"upgrade failed. isolation already stopped? handle={handle}" := by
  simp only [getIsol, sound, release_sub, Bool.false_eq_true, if_false]
  cases v.isolTable[(handle + word - 1) % word]? with
  | none => rfl
  | some weak => dsimp only; split <;> rfl

/-- A lookup that lands on a living isolation with another id breaks the table. -/
theorem not_correct_of_foreign {v : Tables} (sound : v.tablePoisoned = false)
    (small : handle < word) (entry : v.isolTable[(handle + word - 1) % word]? = some isol)
    (alive : isol ∈ v.alive) (foreign : isol.id ≠ handle) : ¬ Correct release v := by
  intro correct
  have found : (getIsol release v handle).1 = .ok isol := by
    rw [getIsol_release sound, entry]
    simp [alive]
  obtain ⟨present, absent⟩ := correct handle small
  by_cases owner : ∃ other ∈ v.alive, other.id = handle
  · obtain ⟨other, member, same⟩ := owner
    have equal := (present other member same).symm.trans found
    cases equal
    exact foreign same
  · obtain ⟨message, failed⟩ := absent (fun other member same => owner ⟨other, member, same⟩)
    rw [found] at failed
    cases failed

namespace Aligned
variable {v : Tables}

/-- In an aligned table an id determines the position. -/
theorem position (aligned : Aligned v) (entry : v.alive[i]? = some isol) :
    (isol.id + word - 1) % word = i := by
  have small := (List.getElem?_eq_some_iff.mp entry).1
  have bound := aligned.bound
  rw [aligned.ids i isol entry]
  unfold word at *
  omega

theorem correct (aligned : Aligned v) : Correct release v := by
  intro handle small
  rw [getIsol_release aligned.tableSound, aligned.table]
  constructor
  · intro isol member same
    obtain ⟨i, entry⟩ := List.mem_iff_getElem?.mp member
    have index := aligned.position entry
    rw [same] at index
    simp [index, entry, member]
  · intro absent
    cases entry : v.alive[(handle + word - 1) % word]? with
    | none => exact ⟨_, rfl⟩
    | some isol =>
      have own := aligned.ids _ _ entry
      have : isol.id = handle := by
        rw [own]
        unfold word at *
        omega
      exact False.elim (absent isol (List.mem_of_getElem? entry) this)

theorem new_tables (aligned : Aligned v) :
    (newIsol release v).2 = { v with
      idKeeper := (v.idKeeper + 1) % word
      isolTable := v.alive ++ [⟨v.objects, v.idKeeper⟩]
      alive := v.alive ++ [⟨v.objects, v.idKeeper⟩]
      objects := v.objects + 1 } := by
  simp [newIsol, genNewId, pushIsol, Build.add, release, aligned.keeperSound, aligned.tableSound,
    aligned.table]

theorem new_aligned (aligned : Aligned v) (room : v.alive.length < word)
    (next : v.idKeeper = (v.alive.length + 1) % word) : Aligned (newIsol release v).2 := by
  rw [aligned.new_tables]
  constructor
  case table => rfl
  case bound => simpa [Nat.succ_le_iff] using room
  case ids =>
    intro i isol entry
    rcases Sequence.getElem?_snoc_iff.mp entry with old | ⟨rfl, rfl⟩
    · exact aligned.ids i isol old
    · exact next
  case objects =>
    intro isol member
    rcases List.mem_append.mp member with old | last
    · exact (aligned.objects isol old).trans (Nat.lt_succ_self _)
    · rw [List.mem_singleton.mp last]
      exact Nat.lt_succ_self _
  case keeper => exact Nat.mod_lt _ (by decide)
  case keeperSound => exact aligned.keeperSound
  case tableSound => exact aligned.tableSound

/-- Creation out of order puts the new entry where another id is looked up, and a creation
with all ids in use repeats one. -/
theorem new_iff (aligned : Aligned v) :
    Correct release (newIsol release v).2 ↔
      v.alive.length < word ∧ v.idKeeper = (v.alive.length + 1) % word := by
  refine ⟨fun correct => ?_, fun met => (aligned.new_aligned met.1 met.2).correct⟩
  rw [aligned.new_tables] at correct
  have fresh : (⟨v.objects, v.idKeeper⟩ : Isolation) ∈ v.alive ++ [⟨v.objects, v.idKeeper⟩] := by
    simp
  have room : v.alive.length < word := by
    by_contra full
    have keeper := aligned.keeper
    have inside : (v.idKeeper + word - 1) % word < v.alive.length := by
      have : (v.idKeeper + word - 1) % word < word := Nat.mod_lt _ (by decide)
      omega
    have entry := List.getElem?_eq_getElem inside
    have found := (getIsol_release (by exact aligned.tableSound) _).symm.trans
      ((correct v.idKeeper keeper).1 _ fresh rfl)
    simp only [List.getElem?_append_left inside, entry] at found
    rw [if_pos (List.mem_append_left _ (List.getElem_mem inside))] at found
    have same := Outcome.ok.inj found
    have old := aligned.objects _ (List.getElem_mem inside)
    rw [same] at old
    exact Nat.lt_irrefl _ old
  refine ⟨room, ?_⟩
  by_contra wrong
  have small : (v.alive.length + 1) % word < word := Nat.mod_lt _ (by decide)
  have index : ((v.alive.length + 1) % word + word - 1) % word = v.alive.length := by
    unfold word at *
    omega
  exact absurd correct (not_correct_of_foreign aligned.tableSound small
    (by simp [index]) fresh wrong)

theorem drop_tables (aligned : Aligned v) (older newer : List Isolation)
    (split : v.alive = older ++ isol :: newer) :
    (dropIsol release v isol).1 = .ok isol ∧
    (dropIsol release v isol).2 =
      { v with isolTable := older ++ newer, alive := older ++ newer } := by
  have entry : v.alive[older.length]? = some isol := by simp [split]
  have index := aligned.position entry
  have first : isol ∉ older := by
    intro member
    obtain ⟨i, old⟩ := List.mem_iff_getElem?.mp member
    have small := (List.getElem?_eq_some_iff.mp old).1
    have earlier : v.alive[i]? = some isol := by rw [split, List.getElem?_append_left small, old]
    have repeated := aligned.position earlier
    omega
  have erased : v.alive.erase isol = older ++ newer := by
    rw [split, List.erase_append_right _ first, List.erase_cons_head]
  have removed : v.alive.eraseIdx older.length = older ++ newer := by
    rw [split, List.eraseIdx_append_of_length_le (Nat.le_refl _)]
    simp
  simp only [dropIsol, release_sub, aligned.tableSound, aligned.table, index, entry, erased,
    removed, Bool.false_eq_true, if_false, true_and]

theorem drop_aligned (aligned : Aligned v) (newest : v.alive.getLast? = some isol) :
    (dropIsol release v isol).1 = .ok isol ∧ Aligned (dropIsol release v isol).2 := by
  obtain ⟨older, split⟩ := List.getLast?_eq_some_iff.mp newest
  obtain ⟨own, tables⟩ := aligned.drop_tables older [] split
  refine ⟨own, ?_⟩
  have bound := aligned.bound
  have covers : ∀ (i : Nat) other, older[i]? = some other → v.alive[i]? = some other := by
    intro i other entry
    rw [split, List.getElem?_append_left (List.getElem?_eq_some_iff.mp entry).1, entry]
  rw [tables, List.append_nil]
  constructor
  case table => rfl
  case bound =>
    rw [split, List.length_append] at bound
    dsimp only
    omega
  case ids => exact fun i other entry => aligned.ids i other (covers i other entry)
  case objects =>
    intro other member
    exact aligned.objects other (by rw [split]; exact List.mem_append_left _ member)
  case keeper => exact aligned.keeper
  case keeperSound => exact aligned.keeperSound
  case tableSound => exact aligned.tableSound

/-- Dropping an older isolation shifts the entries of the newer ones under smaller ids. -/
theorem drop_newest (aligned : Aligned v) (member : isol ∈ v.alive)
    (correct : Correct release (dropIsol release v isol).2) : v.alive.getLast? = some isol := by
  obtain ⟨older, newer, split⟩ := List.mem_iff_append.mp member
  obtain ⟨_, tables⟩ := aligned.drop_tables older newer split
  rw [tables] at correct
  have entry : v.alive[older.length]? = some isol := by simp [split]
  cases newer with
  | nil => exact List.getLast?_eq_some_iff.mpr ⟨older, split⟩
  | cons next rest =>
    have following : v.alive[older.length + 1]? = some next := by simp [split]
    have index := aligned.position entry
    have own := aligned.ids _ _ entry
    have shifted := aligned.ids _ _ following
    have small : isol.id < word := by rw [own]; exact Nat.mod_lt _ (by decide)
    have bound := (List.getElem?_eq_some_iff.mp following).1.trans_le aligned.bound
    have foreign : next.id ≠ isol.id := by
      rw [own, shifted]
      unfold word at *
      omega
    exact absurd correct (not_correct_of_foreign aligned.tableSound small
      (by simp [index]) (by simp) foreign)

theorem step_iff (aligned : Aligned v) (step : Step release v op next) :
    StepCorrect release v op next ↔ StackOrder v op next := by
  cases step with
  | new =>
    simp only [StepCorrect, reduceCtorEq, false_implies, implies_true, and_true]
    exact aligned.new_iff
  | @drop isol _ alive =>
    constructor
    · exact fun correct => aligned.drop_newest alive correct.1
    · intro newest
      obtain ⟨own, following⟩ := aligned.drop_aligned newest
      refine ⟨following.correct, ?_⟩
      rintro _ ⟨⟩
      exact own

theorem step_aligned (aligned : Aligned v) (step : Step release v op next)
    (order : StackOrder v op next) : Aligned next := by
  cases step with
  | new => exact aligned.new_aligned order.1 order.2
  | drop alive => exact (aligned.drop_aligned order).2

end Aligned

/-- With overflow checks the lookup of handle 0 panics, whatever the table holds. -/
theorem not_correct_of_checks (checks : b.overflowChecks = true) (v : Tables) : ¬ Correct b v := by
  intro correct
  have panics : (getIsol b v 0).1 = .panic := by
    simp only [getIsol, Build.sub, checks]
    split <;> rfl
  obtain ⟨present, absent⟩ := correct 0 (by decide)
  rw [panics] at present absent
  by_cases owner : ∃ isol ∈ v.alive, isol.id = 0
  · obtain ⟨isol, member, zero⟩ := owner
    cases present isol member zero
  · obtain ⟨message, failed⟩ := absent (fun isol member zero => owner ⟨isol, member, zero⟩)
    cases failed

/-- Every state of a run is correct, and every drop removes its own entry, exactly in builds
without overflow checks and along runs that respect the stack discipline throughout. -/
theorem isol_table_correct_iff (b : Build) (ops : List Op) (v : Tables) :
    Correct b {} ∧ Run (Where (Step b) (StepCorrect b)) {} ops v ↔
      b.overflowChecks = false ∧ Run (Where (Step b) StackOrder) {} ops v := by
  cases checks : b.overflowChecks with
  | true => simp [not_correct_of_checks checks]
  | false =>
    obtain rfl : b = release := by cases b; exact congrArg Build.mk checks
    simp only [aligned_initial.correct, true_and]
    exact Run.where_iff (fun aligned step order => aligned.step_aligned step order)
      (fun aligned step => aligned.step_iff step) aligned_initial

/-- One isolation is created and dropped, then another is created. The second has id 2 and
is alive, but its entry is the first of the table, so its lookup fails and its drop indexes
out of range. -/
theorem isol_table_reuse_fails :
    ∃ v, Run (Step release) {} [.new, .drop ⟨0, 1⟩, .new] v ∧ v.alive = [⟨1, 2⟩] ∧
      (getIsol release v 2).1 = .err "isol don't exsit. handle=2" ∧
      (getIsol release v 1).1 = .ok ⟨1, 2⟩ ∧
      (dropIsol release v ⟨1, 2⟩).1 = .panic ∧ ¬ Correct release v := by
  refine ⟨{ idKeeper := 3, isolTable := [⟨1, 2⟩], alive := [⟨1, 2⟩], objects := 2 }, ?_, rfl,
    by decide, by decide, by decide, ?_⟩
  · exact .cons .new (.cons (.drop (by decide)) (.cons .new (.nil _)))
  · exact not_correct_of_foreign rfl (show 1 < word by decide) rfl (by decide) (by decide)

end AlloyStack.Visor
