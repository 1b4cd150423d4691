import Mathlib.Data.List.Basic

/-! Labelled transition systems and their finite runs. The label of a step carries every
choice of the environment, so a run is fixed by its labels when the step relation is
functional. Nothing here refers to a particular program. -/
namespace Transition
variable {S E : Type}

/-- A finite run, read from its first step. -/
inductive Run (step : S → E → S → Prop) : S → List E → S → Prop where
  | nil (s) : Run step s [] s
  | cons : step s e t → Run step t es u → Run step s (e :: es) u

/-- Steps of `step` that also satisfy a condition on their two states and label. -/
def Where (step check : S → E → S → Prop) (s : S) (e : E) (t : S) : Prop :=
  step s e t ∧ check s e t

namespace Run
variable {step check guard : S → E → S → Prop}

theorem append (first : Run step s es t) (second : Run step t fs u) : Run step s (es ++ fs) u := by
  induction first with
  | nil => exact second
  | cons head _ ih => exact .cons head (ih second)

theorem snoc (run : Run step s es t) (last : step t e u) : Run step s (es ++ [e]) u :=
  run.append (.cons last (.nil _))

theorem uncons (run : Run step s (e :: es) u) : ∃ t, step s e t ∧ Run step t es u := by
  cases run with
  | cons head rest => exact ⟨_, head, rest⟩

theorem split (run : Run step s (es ++ fs) u) : ∃ t, Run step s es t ∧ Run step t fs u := by
  induction es generalizing s with
  | nil => exact ⟨s, .nil s, run⟩
  | cons e es ih =>
    cases run with
    | cons head rest =>
      obtain ⟨t, first, second⟩ := ih rest
      exact ⟨t, .cons head first, second⟩

theorem stable {P : S → Prop} (keeps : ∀ {before label after}, P before →
    step before label after → P after) (path : Run step s es t) : P s → P t := by
  induction path with
  | nil => exact id
  | cons head _ ih => exact fun holds => ih (keeps holds head)

/-- An invariant that also speaks of the labels seen so far. -/
theorem history {P : List E → S → Prop} (keeps : ∀ {past before label after}, P past before →
    step before label after → P (past ++ [label]) after) (path : Run step s es t) :
    P past s → P (past ++ es) t := by
  induction path generalizing past with
  | nil => simp
  | cons head _ ih =>
    intro holds
    have rest := ih (keeps holds head)
    simpa using rest

/-- A rank that every step from an invariant state lowers bounds the length of a run. -/
theorem bounded {P : S → Prop} {rank : S → Nat} (keeps : ∀ {before label after}, P before →
    step before label after → P after) (falls : ∀ {before label after}, P before →
    step before label after → rank after < rank before) (path : Run step s es t) (initial : P s) :
    es.length + rank t ≤ rank s := by
  induction path with
  | nil => simp
  | cons head _ ih =>
    have rest := ih (keeps initial head)
    have first := falls initial head
    simp only [List.length_cons]
    omega

/-- What every step from an invariant state has for its label. -/
theorem labels {P : S → Prop} {Q : E → Prop}
    (keeps : ∀ {before label after}, P before → step before label after → P after)
    (each : ∀ {before label after}, P before → step before label after → Q label)
    (path : Run step s es t) (initial : P s) : ∀ e ∈ es, Q e := by
  induction path with
  | nil => simp
  | cons head _ ih => exact List.forall_mem_cons.mpr ⟨each initial head, ih (keeps initial head)⟩

theorem unguarded (run : Run (Where step guard) s es t) : Run step s es t := by
  induction run with
  | nil => exact .nil _
  | cons head _ ih => exact .cons head.1 ih

/-- An invariant kept by guarded steps, under which they are correct, makes the runs with all
steps guarded runs with all steps correct. -/
theorem where_of {P : S → Prop} (keeps : ∀ {s e t}, P s → step s e t → guard s e t → P t)
    (correct : ∀ {s e t}, P s → step s e t → guard s e t → check s e t) (initial : P s)
    (run : Run (Where step guard) s es t) : Run (Where step check) s es t := by
  induction run with
  | nil => exact .nil _
  | cons head _ ih =>
    exact .cons ⟨head.1, correct initial head.1 head.2⟩ (ih (keeps initial head.1 head.2))

/-- The converse rule for a defect that nothing repairs: a run that ends without the defect has all
its steps guarded. -/
theorem where_of_lasting {P Q : S → Prop} (keeps : ∀ {s e t}, P s → step s e t → P t)
    (breaks : ∀ {s e t}, P s → step s e t → ¬ guard s e t → Q t)
    (lasts : ∀ {s e t}, P s → Q s → step s e t → Q t) (initial : P s) (run : Run step s es t)
    (sound : ¬ Q t) : Run (Where step guard) s es t := by
  induction run with
  | nil => exact .nil _
  | @cons _ e m _ u first rest ih =>
    have next := keeps initial first
    refine .cons ⟨first, ?_⟩ (ih next sound)
    by_contra unguarded
    have worse := rest.stable (P := fun s => P s ∧ Q s)
      (fun held stepped => ⟨keeps held.1 stepped, lasts held.1 held.2 stepped⟩)
        ⟨next, breaks initial first unguarded⟩
    exact sound worse.2

/-- The rule for a property of single steps that a guard characterises exactly: the runs with all
steps guarded and the runs with all steps correct are the same runs. -/
theorem where_iff {P : S → Prop}
    (keeps : ∀ {s e t}, P s → step s e t → guard s e t → P t)
    (exact : ∀ {s e t}, P s → step s e t → (check s e t ↔ guard s e t))
    (initial : P s) : Run (Where step check) s es t ↔ Run (Where step guard) s es t := by
  constructor
  · refine where_of (fun holds stepped correct => ?_)
      (fun holds stepped => (exact holds stepped).mp) initial
    exact keeps holds stepped ((exact holds stepped).mp correct)
  · exact where_of keeps (fun holds stepped => (exact holds stepped).mpr) initial

end Run
end Transition
