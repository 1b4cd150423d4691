import Mathlib.Data.List.Infix
import Mathlib.Logic.Function.Basic

/-! Trees of directories and files, and the listings from which they are copied. -/
namespace DirectoryTree
variable {ν α : Type}

inductive Node (α : Type) where
  | dir
  | file (data : List α)
  deriving DecidableEq

/-- What is found under each path. -/
abbrev Tree (ν α : Type) := List ν → Option (Node α)

/-- The entries of a directory, with those of its subdirectories. -/
inductive Listing (ν α : Type) where
  | nil
  | file (name : ν) (data : List α) (rest : Listing ν α)
  | dir (name : ν) (entries rest : Listing ν α)

/-- Both nodes are directories, or files of which the second is at least as long. -/
def Node.Le : Node α → Node α → Prop
  | dir, dir => True
  | file data, file data' => data.length ≤ data'.length
  | _, _ => False

theorem Node.Le.refl (node : Node α) : node.Le node := by
  cases node with
  | dir => trivial
  | file data => exact Nat.le_refl _

theorem Node.Le.trans {node node' node'' : Node α} (first : node.Le node')
    (second : node'.Le node'') : node.Le node'' := by
  cases node <;> cases node' <;> cases node'' <;> first | trivial | exact Nat.le_trans first second

/-- The second tree has all nodes of the first. -/
def Tree.Le (t t' : Tree ν α) : Prop :=
  ∀ path node, t path = some node → ∃ node', t' path = some node' ∧ node.Le node'

theorem Tree.Le.refl (t : Tree ν α) : t.Le t := fun _ node found => ⟨node, found, .refl node⟩

theorem Tree.Le.trans {t t' t'' : Tree ν α} (first : t.Le t') (second : t'.Le t'') : t.Le t'' := by
  intro path node found
  obtain ⟨node', found', le⟩ := first path node found
  obtain ⟨node'', found'', le'⟩ := second path node' found'
  exact ⟨node'', found'', le.trans le'⟩

/-- The path leads to a file by way of directories. -/
structure Reached (t : Tree ν α) (path : List ν) (data : List α) : Prop where
  file : t path = some (.file data)
  parents : ∀ q, q <+: path → q ≠ path → t q = some .dir

theorem Reached.congr {t t' : Tree ν α} (reached : Reached t path data)
    (same : ∀ q, q <+: path → t' q = t q) :
    Reached t' path data where
  file := (same path List.prefix_rfl).trans reached.file
  parents q above other := (same q above).trans (reached.parents q above other)

/-- A path leads through one entry of a directory. -/
theorem entry_unique {dir path : List ν} (one : dir ++ [a] <+: path) (other : dir ++ [b] <+: path) :
    a = b := by
  have same := (List.prefix_of_prefix_length_le one other (by simp)).eq_of_length (by simp)
  simpa using same

theorem entry_not_prefix {dir q : List ν} (above : q <+: dir) : ¬ dir ++ [a] <+: q := by
  intro below
  have short := above.length_le
  have long := below.length_le
  rw [List.length_append, List.length_singleton] at long
  omega

variable [DecidableEq ν] {t : Tree ν α} {path : List ν}

omit [DecidableEq ν] in
theorem Tree.Le.update [DecidableEq (List ν)] {node node' : Node α} (le : node.Le node') :
    Tree.Le (Function.update t path (some node)) (Function.update t path (some node')) := by
  intro q found there
  by_cases same : q = path
  · subst same
    rw [Function.update_self, Option.some.injEq] at there
    subst there
    exact ⟨node', Function.update_self .., le⟩
  · rw [Function.update_of_ne same] at there ⊢
    exact ⟨found, there, .refl found⟩

omit [DecidableEq ν] in
theorem Tree.le_update [DecidableEq (List ν)] (free : t path = none) (node : Node α) :
    t.Le (Function.update t path (some node)) := by
  intro q found there
  refine ⟨found, ?_, .refl found⟩
  rwa [Function.update_of_ne]
  rintro rfl
  simp [free] at there

namespace Listing

def names : Listing ν α → List ν
  | nil => []
  | file name _ rest => name :: rest.names
  | dir name _ rest => name :: rest.names

/-- The tree after the entries are put into a directory, one after the other. -/
def onto : Listing ν α → (dir : List ν) → Tree ν α → Tree ν α
  | nil, _, t => t
  | file name data rest, here, t =>
    rest.onto here (Function.update t (here ++ [name]) (some (.file data)))
  | dir name entries rest, here, t =>
    rest.onto here (entries.onto (here ++ [name]) (Function.update t (here ++ [name]) (some .dir)))

/-- A file of the listing, by its path. -/
def Has : Listing ν α → List ν → List α → Prop
  | nil, _, _ => False
  | file name data rest, path, content => path = [name] ∧ content = data ∨ rest.Has path content
  | dir name entries rest, path, content =>
    (∃ inner, path = name :: inner ∧ entries.Has inner content) ∨ rest.Has path content

/-- The names in each directory are different, and all are `valid`. -/
def Proper (valid : ν → Prop) : Listing ν α → Prop
  | nil => True
  | file name _ rest => valid name ∧ name ∉ rest.names ∧ rest.Proper valid
  | dir name entries rest =>
    valid name ∧ name ∉ rest.names ∧ entries.Proper valid ∧ rest.Proper valid

/-- The tree has nothing yet at the names of the listing. -/
def Fresh (c : Listing ν α) (dir : List ν) (t : Tree ν α) : Prop :=
  ∀ name ∈ c.names, ∀ q, dir ++ [name] <+: q → t q = none

/-- The listing without the files whose data is not kept. -/
def only (keeps : List α → Bool) : Listing ν α → Listing ν α
  | nil => nil
  | file name data rest => if keeps data then file name data (rest.only keeps) else rest.only keeps
  | dir name entries rest => dir name (entries.only keeps) (rest.only keeps)

/-- What a listing has under a path. -/
def lookup : Listing ν α → List ν → Option (Node α)
  | nil, _ => none
  | file name data rest, path => if path = [name] then some (.file data) else rest.lookup path
  | dir name entries rest, path =>
    if path = [name] then some .dir
    else if path.head? = some name then entries.lookup path.tail else rest.lookup path

/-- The tree of a listing, with its root. -/
def tree (c : Listing ν α) : Tree ν α := fun path => if path = [] then some .dir else c.lookup path

variable {c entries rest : Listing ν α} {dir : List ν} {valid : ν → Prop}

omit [DecidableEq ν] in
theorem Has.names_valid (proper : c.Proper valid) (has : c.Has path data) :
    ∀ name ∈ path, valid name := by
  induction c generalizing path with
  | nil => exact has.elim
  | file name content rest ih =>
    obtain ⟨ok, -, proper⟩ := proper
    rcases has with ⟨rfl, -⟩ | has
    · simpa using ok
    · exact ih proper has
  | dir name entries rest inside after =>
    obtain ⟨ok, -, below, proper⟩ := proper
    rcases has with ⟨inner, rfl, has⟩ | has
    · simpa using ⟨ok, inside below has⟩
    · exact after proper has

/-- The frame of a copy. -/
theorem onto_other (apart : ∀ name ∈ c.names, ¬ dir ++ [name] <+: q) : c.onto dir t q = t q := by
  induction c generalizing dir t with
  | nil => rfl
  | file name data rest ih =>
    simp only [names, List.forall_mem_cons] at apart
    rw [onto, ih apart.2, Function.update_of_ne]
    rintro rfl
    exact apart.1 List.prefix_rfl
  | dir name entries rest inside after =>
    simp only [names, List.forall_mem_cons] at apart
    rw [onto, after apart.2,
      inside fun inner _ below => apart.1 ((List.prefix_append _ _).trans below),
      Function.update_of_ne]
    rintro rfl
    exact apart.1 List.prefix_rfl

theorem onto_above (above : q <+: dir) : c.onto dir t q = t q :=
  onto_other fun _ _ => entry_not_prefix above

theorem Fresh.update (fresh : ∀ other ∈ rest.names, ∀ q, dir ++ [other] <+: q → t q = none)
    (distinct : name ∉ rest.names) (node : Option (Node α)) :
    rest.Fresh dir (Function.update t (dir ++ [name]) node) := by
  intro other member q below
  rw [Function.update_of_ne, fresh other member q below]
  rintro rfl
  exact distinct (entry_unique below List.prefix_rfl ▸ member)

theorem Fresh.inside (free : ∀ q, dir ++ [name] <+: q → t q = none) (node : Option (Node α)) :
    entries.Fresh (dir ++ [name]) (Function.update t (dir ++ [name]) node) := by
  intro inner member q below
  rw [Function.update_of_ne, free q ((List.prefix_append _ _).trans below)]
  rintro rfl
  exact entry_not_prefix List.prefix_rfl below

theorem Fresh.onto (fresh : rest.Fresh dir t) (distinct : name ∉ rest.names) :
    rest.Fresh dir (entries.onto (dir ++ [name]) t) := by
  intro other member q below
  rw [onto_other, fresh other member q below]
  intro inner _ through
  exact distinct (entry_unique below ((List.prefix_append _ _).trans through) ▸ member)

theorem le_onto (proper : c.Proper valid) (fresh : c.Fresh dir t) : t.Le (c.onto dir t) := by
  induction c generalizing dir t with
  | nil => exact .refl t
  | file name data rest ih =>
    obtain ⟨-, distinct, proper⟩ := proper
    simp only [Fresh, names, List.forall_mem_cons] at fresh
    exact (Tree.le_update (fresh.1 _ List.prefix_rfl) _).trans
      (ih proper (.update fresh.2 distinct _))
  | dir name entries rest inside after =>
    obtain ⟨-, distinct, below, proper⟩ := proper
    simp only [Fresh, names, List.forall_mem_cons] at fresh
    have made := Tree.le_update (fresh.1 _ List.prefix_rfl) Node.dir
    have filled := inside below (.inside fresh.1 (some .dir))
    exact made.trans (filled.trans (after proper (.onto (.update fresh.2 distinct _) distinct)))

/-- Each file of a listing is found in the tree that it was copied to. -/
theorem onto_reached (proper : c.Proper valid) (fresh : c.Fresh dir t)
    (parents : ∀ q, q <+: dir → t q = some .dir) (has : c.Has path data) :
    Reached (c.onto dir t) (dir ++ path) data := by
  induction c generalizing dir t path with
  | nil => exact has.elim
  | file name content rest ih =>
    obtain ⟨-, distinct, proper⟩ := proper
    simp only [Fresh, names, List.forall_mem_cons] at fresh
    have made (q) (above : q <+: dir) : Function.update t (dir ++ [name]) (some (.file content)) q =
        some .dir := by
      rw [Function.update_of_ne, parents q above]
      rintro rfl
      exact entry_not_prefix above List.prefix_rfl
    rcases has with ⟨rfl, rfl⟩ | has
    · have reached : Reached (Function.update t (dir ++ [name]) (some (.file data)))
          (dir ++ [name]) data :=
        ⟨Function.update_self ..,
          fun q above other => made q ((List.prefix_concat_iff.mp above).resolve_left other)⟩
      refine reached.congr fun q above => ?_
      exact onto_other fun other member below =>
        distinct (entry_unique (below.trans above) List.prefix_rfl ▸ member)
    · exact ih proper (.update fresh.2 distinct _) made has
  | dir name entries rest inside after =>
    obtain ⟨-, distinct, below, proper⟩ := proper
    simp only [Fresh, names, List.forall_mem_cons] at fresh
    have made (q) (above : q <+: dir ++ [name]) : Function.update t (dir ++ [name]) (some .dir) q =
        some .dir := by
      by_cases same : q = dir ++ [name]
      · rw [same, Function.update_self]
      · rw [Function.update_of_ne same,
          parents q ((List.prefix_concat_iff.mp above).resolve_left same)]
    rcases has with ⟨inner, rfl, has⟩ | has
    · have reached := inside below (.inside fresh.1 (some .dir)) made has
      rw [List.append_assoc, List.singleton_append] at reached
      have entry : dir ++ [name] <+: dir ++ name :: inner := by simp
      refine reached.congr fun q above => ?_
      exact onto_other fun other member through =>
        distinct (entry_unique (through.trans above) entry ▸ member)
    · refine after proper (.onto (.update fresh.2 distinct _) distinct) (fun q above => ?_) has
      rw [onto_above (above.trans (List.prefix_append _ _)),
        made q (above.trans (List.prefix_append _ _))]

omit [DecidableEq ν] in
theorem names_only (keeps : List α → Bool) (member : name ∈ (c.only keeps).names) :
    name ∈ c.names := by
  induction c with
  | nil => exact member
  | file other data rest ih =>
    unfold only at member
    split at member
    · exact List.mem_cons.mpr ((List.mem_cons.mp member).imp_right ih)
    · exact List.mem_cons_of_mem _ (ih member)
  | dir other entries rest inside after =>
    exact List.mem_cons.mpr ((List.mem_cons.mp member).imp_right after)

omit [DecidableEq ν] in
theorem Proper.only (keeps : List α → Bool) (proper : c.Proper valid) :
    (c.only keeps).Proper valid := by
  induction c with
  | nil => trivial
  | file name data rest ih =>
    obtain ⟨ok, distinct, proper⟩ := proper
    unfold Listing.only
    split
    · exact ⟨ok, mt (names_only keeps) distinct, ih proper⟩
    · exact ih proper
  | dir name entries rest inside after =>
    obtain ⟨ok, distinct, below, proper⟩ := proper
    exact ⟨ok, mt (names_only keeps) distinct, inside below, after proper⟩

omit [DecidableEq ν] in
theorem Fresh.only (keeps : List α → Bool) (fresh : c.Fresh dir t) : (c.only keeps).Fresh dir t :=
  fun name member => fresh name (names_only keeps member)

omit [DecidableEq ν] in
theorem only_true (c : Listing ν α) : c.only (fun _ => true) = c := by
  induction c with
  | nil => rfl
  | file name data rest ih => simp only [only, ih, if_true]
  | dir name entries rest inside after => simp only [only, inside, after]

theorem lookup_of_not_mem (absent : name ∉ c.names) (inner : List ν) :
    c.lookup (name :: inner) = none := by
  induction c with
  | nil => rfl
  | file other data rest ih =>
    rw [names, List.mem_cons, not_or] at absent
    rw [lookup, if_neg (by simp [absent.1]), ih absent.2]
  | dir other entries rest inside after =>
    rw [names, List.mem_cons, not_or] at absent
    rw [lookup, if_neg (by simp [absent.1]), if_neg (by simp [absent.1]), after absent.2]

/-- A copy has what the listing has, and otherwise what was there. -/
theorem onto_lookup (proper : c.Proper valid) (path : List ν) :
    c.onto dir t (dir ++ path) = (c.lookup path).or (t (dir ++ path)) := by
  induction c generalizing dir t path with
  | nil => rfl
  | file name data rest ih =>
    obtain ⟨-, distinct, proper⟩ := proper
    rw [onto, ih proper, lookup]
    by_cases here : path = [name]
    · rw [here, lookup_of_not_mem distinct, if_pos rfl, Function.update_self]
      rfl
    · rw [if_neg here, Function.update_of_ne (by simpa using here)]
  | dir name entries rest inside after =>
    obtain ⟨-, distinct, below, proper⟩ := proper
    rw [onto, after proper, lookup]
    by_cases here : path = [name]
    · rw [here, lookup_of_not_mem distinct, if_pos rfl, onto_above List.prefix_rfl,
        Function.update_self]
      rfl
    rw [if_neg here]
    by_cases under : path.head? = some name
    · obtain ⟨inner, rfl⟩ := List.head?_eq_some_iff.mp under
      have copied : entries.onto (dir ++ [name]) (Function.update t (dir ++ [name]) (some .dir))
          (dir ++ [name] ++ inner) = _ :=
        inside below inner
      rw [List.append_assoc, List.singleton_append,
        Function.update_of_ne (by simpa using here)] at copied
      rw [lookup_of_not_mem distinct, if_pos under, Option.none_or, copied, List.tail_cons]
    · have apart (inner : ν) (_ : inner ∈ entries.names) : ¬ dir ++ [name] ++ [inner] <+: dir ++
          path := by
        rw [List.append_assoc, List.prefix_append_right_inj]
        rintro ⟨rest, rfl⟩
        exact under rfl
      rw [if_neg under, onto_other apart, Function.update_of_ne (by simpa using here)]

theorem lookup_nil (c : Listing ν α) : c.lookup [] = none := by
  induction c with
  | nil => rfl
  | file name data rest ih => rw [lookup, if_neg (by simp), ih]
  | dir name entries rest inside after => rw [lookup, if_neg (by simp), if_neg (by simp), after]

/-- A copy into an empty root is the tree of the listing. -/
theorem onto_root (proper : c.Proper valid) :
    c.onto [] (Function.update (fun _ => none) [] (some .dir)) = c.tree := by
  funext path
  have copied : c.onto [] (Function.update (fun _ => none) [] (some .dir)) ([] ++ path) = _ :=
    onto_lookup proper path
  rw [List.nil_append] at copied
  rw [copied, tree]
  by_cases here : path = []
  · rw [here, lookup_nil, if_pos rfl, Option.none_or, Function.update_self]
  · rw [if_neg here, Function.update_of_ne here, Option.or_none]

end Listing
end DirectoryTree
