import Mathlib.Algebra.BigOperators.Group.List.Basic
import Mathlib.Data.List.AList

/-! Lists of counts under keys: what a key adds up to, in a list with repeated keys and in a map. -/
namespace Tally
variable {K V : Type} [DecidableEq K]

abbrev Entry (K V : Type) := (_ : K) × V

abbrev Map (K V : Type) := AList fun _ : K => V

/-- An order in which the entries of a map are visited. -/
structure Iteration (K V : Type) where
  iter : Map K V → List (Entry K V)
  perm : ∀ m, (iter m).Perm m.entries

def inOrder : Iteration K V := ⟨fun m => m.entries, fun _ => .refl _⟩

section Sums
variable [AddCommMonoid V] {entries entries' : List (Entry K V)} {key : K}

/-- The counts of a key in a list of entries, added up. -/
def occurs (entries : List (Entry K V)) (key : K) : V :=
  ((entries.filter (·.1 = key)).map fun entry => entry.2).sum

theorem occurs_cons (other : K) (count : V) (entries : List (Entry K V)) (key : K) :
    occurs (⟨other, count⟩ :: entries) key =
      (if other = key then count else 0) + occurs entries key := by
  by_cases same : other = key <;> simp [occurs, same]

theorem occurs_append (entries entries' : List (Entry K V)) (key : K) :
    occurs (entries ++ entries') key = occurs entries key + occurs entries' key := by
  simp [occurs]

theorem occurs_eq_zero (absent : key ∉ entries.keys) : occurs entries key = 0 := by
  induction entries with
  | nil => rfl
  | cons entry entries ih =>
    obtain ⟨other, count⟩ := entry
    simp only [List.keys_cons, List.mem_cons, not_or] at absent
    rw [occurs_cons, if_neg (Ne.symm absent.1), ih absent.2, zero_add]

theorem occurs_filter (entries : List (Entry K V)) (q : K → Bool) (key : K) :
    occurs (entries.filter fun entry => q entry.1) key = if q key then occurs entries key
      else 0 := by
  induction entries with
  | nil => simp [occurs]
  | cons entry entries ih =>
    obtain ⟨other, count⟩ := entry
    rw [List.filter_cons, occurs_cons]
    by_cases same : other = key
    · subst same
      by_cases chosen : q other <;> simp [chosen, occurs_cons, ih]
    · by_cases chosen : q other <;> simp [chosen, occurs_cons, ih, same]

theorem occurs_perm (perm : entries.Perm entries') (key : K) :
    occurs entries key = occurs entries' key :=
  ((perm.filter _).map _).sum_eq

/-- In a map every key has one count. -/
theorem occurs_dlookup (unique : entries.NodupKeys) (key : K) :
    occurs entries key = (entries.dlookup key).getD 0 := by
  induction entries with
  | nil => rfl
  | cons entry entries ih =>
    obtain ⟨other, count⟩ := entry
    have apart := List.nodupKeys_cons.mp unique
    rw [occurs_cons]
    by_cases same : other = key
    · subst same
      rw [if_pos rfl, occurs_eq_zero apart.1, List.dlookup_cons_eq, add_zero]
      rfl
    · rw [if_neg same, ih apart.2, List.dlookup_cons_ne _ _ (Ne.symm same), zero_add]

theorem occurs_iter (order : Iteration K V) (m : Map K V) (key : K) :
    occurs (order.iter m) key = (m.lookup key).getD 0 := by
  rw [occurs_perm (order.perm m), occurs_dlookup m.nodupKeys]
  rfl

end Sums

theorem keys_insert_length (m : Map K V) (key : K) (value : V) :
    (m.insert key value).keys.length = if key ∈ m then m.keys.length else m.keys.length + 1 := by
  rw [AList.keys_insert, List.length_cons]
  split
  next member =>
    have inside : key ∈ m.keys := member
    have := List.length_pos_of_mem inside
    rw [List.length_erase_of_mem inside]
    omega
  next absent => rw [List.erase_of_not_mem absent]

omit [DecidableEq K] in
theorem mem_keys_filter (entries : List (Entry K V)) (q : K → Bool) (key : K) :
    key ∈ (entries.filter fun entry => q entry.1).keys ↔ q key = true ∧ key ∈ entries.keys := by
  simp only [List.keys, List.mem_map, List.mem_filter]
  constructor
  · rintro ⟨entry, ⟨member, chosen⟩, rfl⟩
    exact ⟨chosen, entry, member, rfl⟩
  · rintro ⟨chosen, entry, member, rfl⟩
    exact ⟨entry, ⟨member, chosen⟩, rfl⟩

theorem mem_keys_iter (order : Iteration K V) (m : Map K V) (key : K) :
    key ∈ (order.iter m).keys ↔ (m.lookup key).isSome := by
  rw [AList.lookup_isSome, AList.mem_keys]
  exact ((order.perm m).map _).mem_iff

omit [DecidableEq K] in
theorem iter_nodupKeys (order : Iteration K V) (m : Map K V) : (order.iter m).NodupKeys :=
  (List.perm_nodupKeys (order.perm m)).mpr m.nodupKeys

end Tally
