import Mathlib.Logic.Function.Basic

/-! Exclusive ownership of resources. `Sole` says that no resource has two owners, `Exclusive`
also that the owned resources are the live ones. -/
namespace Ownership
variable {O H : Type} {owner : O → Option H} {live : H → Prop}

def Sole (owner : O → Option H) : Prop := ∀ o o' h, owner o = some h → owner o' = some h → o = o'

structure Exclusive (owner : O → Option H) (live : H → Prop) : Prop where
  live_iff : ∀ h, live h ↔ ∃ o, owner o = some h
  sole : Sole owner

theorem Exclusive.congr_live (held : Exclusive owner live) (same : ∀ h, live' h ↔ live h) :
    Exclusive owner live' where
  live_iff h := (same h).trans (held.live_iff h)
  sole := held.sole

variable [DecidableEq O]

namespace Sole

/-- An owner takes a resource that nobody has. -/
theorem acquire (held : Sole owner) (fresh : ∀ o, owner o ≠ some h) (o : O) :
    Sole (Function.update owner o (some h)) := by
  intro a b x first second
  rw [Function.update_apply] at first second
  split at first <;> split at second
  · simp_all
  · exact absurd (second.trans first.symm) (fresh b)
  · exact absurd (first.trans second.symm) (fresh a)
  · exact held a b x first second

theorem release (held : Sole owner) (o : O) : Sole (Function.update owner o none) := by
  intro a b x first second
  rw [Function.update_apply] at first second
  split at first
  · nomatch first
  · split at second
    · nomatch second
    · exact held a b x first second

theorem unowned_of_release (held : Sole owner) (owns : owner o = some h) (a : O) :
    Function.update owner o none a ≠ some h := by
  intro still
  rw [Function.update_apply] at still
  split at still
  · nomatch still
  · rename_i other
    exact other (held a o h still owns)

/-- A resource changes hands; what the new owner had before is given up. -/
theorem move (held : Sole owner) (owns : owner o = some h) (o' : O) :
    Sole (Function.update (Function.update owner o none) o' (some h)) :=
  (held.release o).acquire (held.unowned_of_release owns) o'

end Sole

namespace Exclusive

theorem acquire (held : Exclusive owner live) (free : owner o = none) (fresh : ¬ live h) :
    Exclusive (Function.update owner o (some h)) fun x => live x ∨ x = h where
  live_iff x := by
    constructor
    · rintro (alive | rfl)
      · obtain ⟨o', owns⟩ := (held.live_iff x).mp alive
        have other : o' ≠ o := by
          rintro rfl
          simp [free] at owns
        exact ⟨o', by rwa [Function.update_of_ne other]⟩
      · exact ⟨o, Function.update_self ..⟩
    · rintro ⟨o', owns⟩
      by_cases same : o' = o
      · subst same
        rw [Function.update_self] at owns
        exact .inr (Option.some.inj owns).symm
      · rw [Function.update_of_ne same] at owns
        exact .inl ((held.live_iff x).mpr ⟨o', owns⟩)
  sole := held.sole.acquire (fun a owns => fresh ((held.live_iff h).mpr ⟨a, owns⟩)) o

theorem release (held : Exclusive owner live) (owns : owner o = some h) :
    Exclusive (Function.update owner o none) fun x => live x ∧ x ≠ h where
  live_iff x := by
    constructor
    · rintro ⟨alive, other⟩
      obtain ⟨o', owns'⟩ := (held.live_iff x).mp alive
      have apart : o' ≠ o := by
        rintro rfl
        exact other (Option.some.inj (owns'.symm.trans owns))
      exact ⟨o', by rwa [Function.update_of_ne apart]⟩
    · rintro ⟨o', owns'⟩
      have other : x ≠ h := by
        rintro rfl
        exact held.sole.unowned_of_release owns o' owns'
      rw [Function.update_apply] at owns'
      split at owns'
      · nomatch owns'
      · exact ⟨(held.live_iff x).mpr ⟨o', owns'⟩, other⟩
  sole := held.sole.release o

theorem move (held : Exclusive owner live) (owns : owner o = some h) (free : owner o' = none) :
    Exclusive (Function.update (Function.update owner o none) o' (some h)) live := by
  have distinct : o' ≠ o := by
    rintro rfl
    simp [free] at owns
  have unowned : Function.update owner o none o' = none := by rwa [Function.update_of_ne distinct]
  refine ((held.release owns).acquire unowned (h := h) (by simp)).congr_live fun x => ?_
  constructor
  · intro alive
    by_cases same : x = h
    · exact .inr same
    · exact .inl ⟨alive, same⟩
  · rintro (⟨alive, _⟩ | rfl)
    · exact alive
    · exact (held.live_iff x).mpr ⟨o, owns⟩

end Exclusive

end Ownership
