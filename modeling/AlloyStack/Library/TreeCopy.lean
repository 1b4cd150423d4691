import AlloyStack.Library.DirectoryTree

/-! Copying a listing into a tree, one entry after the other, by way of handles for its directories.
What the two sides do is given by functions on one state; without fuel there is no result. -/
namespace TreeCopy
open DirectoryTree

/-- The items of a directory by their positions, with `Except.error` for those that cannot be
read. -/
abbrev Source (ν D F : Type) := D → Nat → Option (Except Unit (ν × (D ⊕ F)))

/-- The items, the names that are passed over, and what is done for a subdirectory and for a file. A
subdirectory without a handle is left out. -/
structure Copier (S H ν D F : Type) where
  next : S → Source ν D F
  skips : ν → Bool
  makeDir : H → ν → S → Option (Option H × S)
  copyFile : H → ν → F → S → Option S

section Definitions
variable {S H ν α D F : Type}

/-- The directory from a position on. -/
def Copier.copy (c : Copier S H ν D F) : (fuel : Nat) → H → D → Nat → S → Option S
  | 0, _, _, _, _ => none
  | fuel + 1, h, d, k, s =>
    match c.next s d k with
    | none => some s
    | some (.error _) => c.copy fuel h d (k + 1) s
    | some (.ok (name, node)) =>
      if c.skips name then c.copy fuel h d (k + 1) s
      else match node with
        | .inl sub => (c.makeDir h name s).bind fun
          | (some h', s) => (c.copy fuel h' sub 0 s).bind (c.copy fuel h d (k + 1))
          | (none, s) => c.copy fuel h d (k + 1) s
        | .inr file => (c.copyFile h name file s).bind (c.copy fuel h d (k + 1))

/-- The directory from a position on holds this listing, with other items in between. -/
inductive Lists (next : Source ν D F) (skips : ν → Bool) (content : F → Option (List α)) :
    D → Nat → Listing ν α → Prop where
  | done (ends : next d k = none) : Lists next skips content d k .nil
  | failed (fails : next d k = some (.error ()))
    (rest : Lists next skips content d (k + 1) c) : Lists next skips content d k c
  | skipped (found : next d k = some (.ok (name, node))) (skip : skips name = true)
    (rest : Lists next skips content d (k + 1) c) : Lists next skips content d k c
  | file (found : next d k = some (.ok (name, .inr file))) (reads : content file = some data)
    (rest : Lists next skips content d (k + 1) c) : Lists next skips content d k (.file name data c)
  | dir (found : next d k = some (.ok (name, .inl sub)))
    (entries : Lists next skips content sub 0 c)
    (rest : Lists next skips content d (k + 1) c') : Lists next skips content d k (.dir name c c')

/-- What a state stands for: a tree, and the path that a handle leads to. -/
structure View (S H ν α : Type) where
  tree : S → Tree ν α
  leads : S → H → List ν → Prop

/-- A later state with this tree. -/
structure View.Becomes (v : View S H ν α) (s s' : S) (t : Tree ν α) : Prop where
  tree : v.tree s' = t
  handles : ∀ h path, v.leads s h path → v.leads s' h path

/-- The result of enough fuel. -/
def Copier.Ends (c : Copier S H ν D F) (h : H) (d : D) (k : Nat) (s s' : S) : Prop :=
  ∃ enough, ∀ fuel, enough ≤ fuel → c.copy fuel h d k s = some s'

variable {c : Copier S H ν D F} {v : View S H ν α} {s s' s'' : S} {t t' : Tree ν α}

theorem View.Becomes.refl (v : View S H ν α) (s : S) : v.Becomes s s (v.tree s) :=
  ⟨rfl, fun _ _ leads => leads⟩

theorem View.Becomes.trans (first : v.Becomes s s' t) (second : v.Becomes s' s'' t') :
    v.Becomes s s'' t' :=
  ⟨second.tree, fun h path leads => second.handles h path (first.handles h path leads)⟩

theorem Copier.copy_done (ends : c.next s d k = none) (fuel : Nat) :
    c.copy (fuel + 1) h d k s = some s := by
  simp only [Copier.copy, ends]

theorem Copier.copy_failed (fails : c.next s d k = some (.error ())) (fuel : Nat) :
    c.copy (fuel + 1) h d k s = c.copy fuel h d (k + 1) s := by
  simp only [Copier.copy, fails]

theorem Copier.copy_skipped (found : c.next s d k = some (.ok (name, node)))
    (skip : c.skips name = true) (fuel : Nat) :
    c.copy (fuel + 1) h d k s = c.copy fuel h d (k + 1) s := by
  simp only [Copier.copy, found, skip, if_true]

theorem Copier.copy_file (found : c.next s d k = some (.ok (name, .inr file)))
    (named : c.skips name = false) (copied : c.copyFile h name file s = some s') (fuel : Nat) :
    c.copy (fuel + 1) h d k s = c.copy fuel h d (k + 1) s' := by
  simp only [Copier.copy, found, named, Bool.false_eq_true, if_false, copied, Option.bind_some]

theorem Copier.copy_dir (found : c.next s d k = some (.ok (name, .inl sub)))
    (named : c.skips name = false) (made : c.makeDir h name s = some (some h', s')) (fuel : Nat) :
    c.copy (fuel + 1) h d k s = (c.copy fuel h' sub 0 s').bind (c.copy fuel h d (k + 1)) := by
  simp only [Copier.copy, found, named, Bool.false_eq_true, if_false, made, Option.bind_some]

/-- One item, and then the rest. -/
theorem Copier.Ends.step (later : c.Ends h d (k + 1) s' s'')
    (item : ∀ fuel, c.copy (fuel + 1) h d k s = c.copy fuel h d (k + 1) s') :
    c.Ends h d k s s'' := by
  obtain ⟨enough, copies⟩ := later
  refine ⟨enough + 1, fun fuel more => ?_⟩
  obtain ⟨fuel, rfl⟩ : ∃ n, fuel = n + 1 := ⟨fuel - 1, by omega⟩
  rw [item, copies fuel (by omega)]

/-- A subdirectory, and then the rest. -/
theorem Copier.Ends.enter (inner : c.Ends h' sub 0 s₁ s₂) (later : c.Ends h d (k + 1) s₂ s'')
    (item : ∀ fuel, c.copy (fuel + 1) h d k s =
      (c.copy fuel h' sub 0 s₁).bind (c.copy fuel h d (k + 1))) :
    c.Ends h d k s s'' := by
  obtain ⟨enough, copies⟩ := inner
  obtain ⟨enough', copies'⟩ := later
  refine ⟨max enough enough' + 1, fun fuel more => ?_⟩
  obtain ⟨fuel, rfl⟩ : ∃ n, fuel = n + 1 := ⟨fuel - 1, by omega⟩
  rw [item, copies fuel (by omega), Option.bind_some, copies' fuel (by omega)]

end Definitions

section Copying
variable {S H ν α D F : Type} [DecidableEq ν]

/-- What is asked of the two sides, in the states where `holds`: the items do not change, and where
the tree that a call would leave `fits`, the call makes that tree. Files whose data is not kept are
left out. -/
structure Copier.Faithful (c : Copier S H ν D F) (v : View S H ν α) (holds : S → Prop)
    (next : Source ν D F) (content : F → Option (List α)) (keeps : List α → Bool)
    (valid : ν → Prop) (fits : Tree ν α → Prop) : Prop where
  next : holds s → c.next s = next
  named : valid name → c.skips name = false
  smaller : fits t' → t.Le t' → fits t
  makeDir : holds s → v.leads s h path → v.tree s path = some .dir → valid name →
    v.tree s (path ++ [name]) = none →
    fits (Function.update (v.tree s) (path ++ [name]) (some .dir)) →
      ∃ h' s', c.makeDir h name s = some (some h', s') ∧ holds s' ∧
      v.Becomes s s' (Function.update (v.tree s) (path ++ [name]) (some .dir)) ∧
        v.leads s' h' (path ++ [name])
  copyFile : holds s → v.leads s h path → v.tree s path = some .dir → valid name →
    v.tree s (path ++ [name]) = none →
    content file = some data → keeps data = true →
    fits (Function.update (v.tree s) (path ++ [name]) (some (.file data))) →
      ∃ s', c.copyFile h name file s = some s' ∧
      holds s' ∧ v.Becomes s s' (Function.update (v.tree s) (path ++ [name]) (some (.file data)))
  leaveFile : holds s → content file = some data → keeps data = false →
    c.copyFile h name file s = some s

variable {c : Copier S H ν D F} {v : View S H ν α} {holds : S → Prop} {next : Source ν D F}
  {content : F → Option (List α)}
  {keeps : List α → Bool} {valid : ν → Prop} {fits : Tree ν α → Prop} {s : S} {h : H}
    {path : List ν}

/-- Enough fuel copies the whole directory. -/
theorem Copier.Faithful.copy (faithful : c.Faithful v holds next content keeps valid fits)
    (lists : Lists next c.skips content d k l) (start : holds s) (leads : v.leads s h path)
    (isDir : v.tree s path = some .dir) (proper : l.Proper valid)
    (fresh : l.Fresh path (v.tree s)) (room : fits ((l.only keeps).onto path (v.tree s))) :
    ∃ s', c.Ends h d k s s' ∧ holds s' ∧ v.Becomes s s' ((l.only keeps).onto path (v.tree s)) := by
  induction lists generalizing s h path with
  | done ends =>
    refine ⟨s, ⟨1, fun fuel more => ?_⟩, start, .refl v s⟩
    obtain ⟨fuel, rfl⟩ : ∃ n, fuel = n + 1 := ⟨fuel - 1, by omega⟩
    exact Copier.copy_done (by rw [faithful.next start, ends]) fuel
  | failed fails rest ih =>
    obtain ⟨s', ends, rest⟩ := ih start leads isDir proper fresh room
    exact ⟨s', ends.step (Copier.copy_failed (by rw [faithful.next start, fails])), rest⟩
  | skipped found skip rest ih =>
    obtain ⟨s', ends, rest⟩ := ih start leads isDir proper fresh room
    exact ⟨s', ends.step (Copier.copy_skipped (by rw [faithful.next start, found]) skip), rest⟩
  | @file d k name file data l found reads rest ih =>
    obtain ⟨ok, distinct, proper⟩ := proper
    rw [← faithful.next start] at found
    simp only [Listing.Fresh, Listing.names, List.forall_mem_cons] at fresh
    by_cases kept : keeps data = true
    · rw [Listing.only, if_pos kept] at room ⊢
      have later : l.Fresh path (Function.update (v.tree s) (path ++ [name]) (some (.file data))) :=
        .update fresh.2 distinct _
      obtain ⟨s₁, copied, start₁, becomes⟩ :=
        faithful.copyFile start leads isDir ok (fresh.1 _ List.prefix_rfl) reads kept
        (faithful.smaller room (Listing.le_onto (proper.only keeps) (later.only keeps)))
      have above : path ≠ path ++ [name] := by simp
      obtain ⟨s', ends, start', becomes'⟩ := ih start₁ (becomes.handles _ _ leads)
        (by rw [becomes.tree, Function.update_of_ne above, isDir]) proper (becomes.tree ▸ later)
          (by rwa [becomes.tree])
      rw [becomes.tree] at becomes'
      exact ⟨s', ends.step (Copier.copy_file found (faithful.named ok) copied), start',
        becomes.trans becomes'⟩
    · rw [Listing.only, if_neg kept] at room ⊢
      obtain ⟨s', ends, rest⟩ := ih start leads isDir proper fresh.2 room
      have left : c.copyFile h name file s = some s :=
        faithful.leaveFile start reads (by simpa using kept)
      exact ⟨s', ends.step (Copier.copy_file found (faithful.named ok) left), rest⟩
  | @dir d k name sub entries l found inside rest below after =>
    obtain ⟨ok, distinct, properInside, proper⟩ := proper
    simp only [Listing.Fresh, Listing.names, List.forall_mem_cons] at fresh
    rw [Listing.only, Listing.onto] at room ⊢
    have freshInside : entries.Fresh (path ++ [name])
        (Function.update (v.tree s) (path ++ [name]) (some .dir)) :=
      .inside fresh.1 _
    have later : l.Fresh path
        ((entries.only keeps).onto (path ++ [name])
          (Function.update (v.tree s) (path ++ [name]) (some .dir))) :=
      .onto (.update fresh.2 distinct _) distinct
    have room₂ := faithful.smaller room (Listing.le_onto (proper.only keeps) (later.only keeps))
    have room₁ :=
      faithful.smaller room₂ (Listing.le_onto (properInside.only keeps) (freshInside.only keeps))
    obtain ⟨h', s₁, made, start₁, becomes₁, leads₁⟩ :=
      faithful.makeDir start leads isDir ok (fresh.1 _ List.prefix_rfl) room₁
    obtain ⟨s₂, ends₂, start₂, becomes₂⟩ :=
      below start₁ leads₁ (by rw [becomes₁.tree, Function.update_self]) properInside
      (becomes₁.tree ▸ freshInside) (by rwa [becomes₁.tree])
    rw [becomes₁.tree] at becomes₂
    have becomes := becomes₁.trans becomes₂
    have above : path ≠ path ++ [name] := by simp
    obtain ⟨s', ends, start', becomes'⟩ := after start₂ (becomes.handles _ _ leads)
      (by rw [becomes.tree, Listing.onto_above (List.prefix_append _ _),
        Function.update_of_ne above, isDir]) proper
      (becomes.tree ▸ later) (by rwa [becomes.tree])
    rw [becomes.tree] at becomes'
    rw [← faithful.next start] at found
    exact ⟨s', ends₂.enter ends (Copier.copy_dir found (faithful.named ok) made), start',
      becomes.trans becomes'⟩

end Copying
end TreeCopy
