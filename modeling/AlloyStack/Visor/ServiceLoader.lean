import Mathlib.Data.List.Infix
import Mathlib.Logic.Function.Basic
import AlloyStack.Library.Rust
import AlloyStack.Visor.PkeyAllocation

/-! Loading of services and apps with feature `enable_mpk`, and the tagging of a library's
memory segments with a protection key. Answers of the dynamic linker and of the kernel are
part of each call's input. -/
namespace AlloyStack.Visor
open Rust

/-- An `Arc<Service>`: the object number stands for the allocation. -/
structure Service where
  object : Nat
  name : String
  path : String
  pkey : Int
  deriving DecidableEq, Repr

/-- One line of `/proc/self/maps`. -/
structure MemorySegment where
  startAddr : Nat
  length : Nat
  perm : Nat
  path : Option String
  deriving DecidableEq, Repr

/-- What the system answers during one call: the process-wide `PKEY_COUNTER` that the call
finds, the linker, the service's own initialisation, the segments mapped when the library is
tagged, which of them the linker has mapped for the library, and the errno of every
`pkey_mprotect` that fails. -/
structure System where
  pkeyCounter : Nat
  dynlib : Except String Unit
  heapMprotect : Option Int
  init : Except String Unit
  segments : List MemorySegment
  library : MemorySegment → Bool
  pkeyMprotect : MemorySegment → Int → Option Int

structure ServiceLoader where
  registered : String → Option String
  withLibos : Bool

/-- `ServiceLoader::register`: apps first, so that a service of the same name wins. -/
def register (apps services : List (String × String)) : String → Option String :=
  (apps ++ services).foldl (fun registered unit => Function.update registered unit.1 (some unit.2))
    (fun _ => none)

/-- `ServiceLoader::load`. With a LibOS the service heap is tagged by `must_mprotect`, which
panics on failure, and the service is initialised. -/
def ServiceLoader.load (loader : ServiceLoader) (sys : System) (object : Nat) (name : String)
    (pkey : Int) : Outcome Service :=
  (Outcome.okOr (loader.registered name) s!"unregistry library, name={name}").bind fun libPath =>
    match sys.dynlib with
    | .error e => .err s!"load_dynlib faile: {e}"
    | .ok () =>
      if loader.withLibos then
        match sys.heapMprotect with
        | some _ => .panic
        | none =>
          match sys.init with
          | .error e => .err e
          | .ok () => .ok ⟨object, name, libPath, pkey⟩
      else .ok ⟨object, name, libPath, pkey⟩

/-- `str::contains`. -/
def contains (path need : String) : Bool := decide (need.toList <:+: path.toList)

def MemorySegment.belongs (segment : MemorySegment) (libAbsPaths : List String) : Bool :=
  match segment.path with
  | some path => libAbsPaths.any (contains path)
  | none => false

/-- `set_libs_with_pkey` over the parsed segments, with the segments tagged by the call. The
loop stops at the first failure. -/
def setLibsWithPkey (sys : System) (libAbsPaths : List String) (pkey : Int) :
    List MemorySegment → Except String Unit × List MemorySegment
  | [] => (.ok (), [])
  | segment :: rest =>
    if segment.belongs libAbsPaths then
      match sys.pkeyMprotect segment pkey with
      | some errno => (.error s!"mprotect failed, errno={errno}", [])
      | none =>
        let (result, tagged) := setLibsWithPkey sys libAbsPaths pkey rest
        (result, segment :: tagged)
    else setLibsWithPkey sys libAbsPaths pkey rest

/-- The library that has just been loaded is tagged: it has a segment, and all its segments are
among the tagged ones. -/
def LibraryTagged (sys : System) (tagged : List MemorySegment) : Prop :=
  (∃ segment ∈ sys.segments, sys.library segment = true) ∧
    ∀ segment ∈ sys.segments, sys.library segment = true → segment ∈ tagged

instance (sys : System) (tagged : List MemorySegment) : Decidable (LibraryTagged sys tagged) :=
  inferInstanceAs (Decidable (_ ∧ _))

/-- The line of every segment of the library shows the path the library was loaded from. -/
def Shown (sys : System) (path : String) : Prop :=
  (∃ segment ∈ sys.segments, sys.library segment = true) ∧
    ∀ segment ∈ sys.segments, sys.library segment = true → segment.belongs [path] = true

/-- None of the segments that show the path refuses the key. -/
def Accepts (sys : System) (path : String) (pkey : Int) (segments : List MemorySegment) : Prop :=
  ∀ segment ∈ segments, segment.belongs [path] = true → sys.pkeyMprotect segment pkey = none

/-- The segments of the library show its path, and the kernel accepts the key for each of them
and for the segments with this path in front of it. -/
def Taggable (sys : System) (path : String) (pkey : Int) : Prop :=
  Shown sys path ∧ ∀ segment ∈ sys.segments, sys.library segment = true →
    ∃ before after, sys.segments = before ++ segment :: after ∧
      Accepts sys path pkey (before ++ [segment])

theorem setLibsWithPkey_ok_iff (sys : System) (libAbsPaths : List String) (pkey : Int)
    (segments : List MemorySegment) :
    (setLibsWithPkey sys libAbsPaths pkey segments).1 = .ok () ↔
      ∀ segment ∈ segments, segment.belongs libAbsPaths = true →
        sys.pkeyMprotect segment pkey = none := by
  induction segments with
  | nil => simp [setLibsWithPkey]
  | cons segment rest ih =>
    simp only [setLibsWithPkey, List.forall_mem_cons]
    by_cases belongs : segment.belongs libAbsPaths = true
    · simp only [belongs, if_true, true_implies]
      cases sys.pkeyMprotect segment pkey with
      | none => simp [ih]
      | some errno => simp
    · simp [belongs, ih]

theorem accepts_cons {sys : System} {segment : MemorySegment} :
    Accepts sys path pkey (segment :: segments) ↔
      (segment.belongs [path] = true → sys.pkeyMprotect segment pkey = none) ∧
        Accepts sys path pkey segments :=
  List.forall_mem_cons

/-- A place in a list is its head or a place in its tail. -/
theorem exists_split_cons {α : Type} {first a : α} {rest : List α} {P : List α → Prop} :
    (∃ before after, first :: rest = before ++ a :: after ∧ P (before ++ [a])) ↔
      a = first ∧ P [first] ∨
        ∃ before after, rest = before ++ a :: after ∧ P (first :: (before ++ [a])) := by
  constructor
  · rintro ⟨before, after, split, holds⟩
    cases before with
    | nil =>
      obtain ⟨rfl, -⟩ := List.cons.inj split
      exact .inl ⟨rfl, holds⟩
    | cons other before =>
      obtain ⟨rfl, rfl⟩ := List.cons.inj split
      exact .inr ⟨before, after, rfl, holds⟩
  · rintro (⟨rfl, holds⟩ | ⟨before, after, rfl, holds⟩)
    · exact ⟨[], rest, rfl, holds⟩
    · exact ⟨first :: before, after, rfl, holds⟩

/-- The tagged segments are those that show a path and come before the first refusal. -/
theorem mem_setLibsWithPkey_iff (sys : System) (path : String) (pkey : Int)
    (segments : List MemorySegment) {segment : MemorySegment} :
    segment ∈ (setLibsWithPkey sys [path] pkey segments).2 ↔
      segment.belongs [path] = true ∧ ∃ before after, segments = before ++ segment :: after ∧
        Accepts sys path pkey (before ++ [segment]) := by
  induction segments with
  | nil => simp [setLibsWithPkey]
  | cons first rest ih =>
    rw [exists_split_cons, setLibsWithPkey]
    simp only [accepts_cons]
    by_cases belongs : first.belongs [path] = true
    · rw [if_pos belongs]
      cases answer : sys.pkeyMprotect first pkey with
      | some errno => simp [belongs]
      | none =>
        have head : segment = first → segment.belongs [path] = true := fun same => same ▸ belongs
        have single : Accepts sys path pkey [] := nofun
        simp only [List.mem_cons, ih, belongs, single, true_implies, true_and, and_true]
        constructor
        · rintro (same | ⟨shown, later⟩)
          · exact ⟨head same, .inl same⟩
          · exact ⟨shown, .inr later⟩
        · rintro ⟨shown, same | later⟩
          · exact .inl same
          · exact .inr ⟨shown, later⟩
    · have apart : segment.belongs [path] = true → segment ≠ first := by
        rintro shown rfl
        exact belongs shown
      rw [if_neg belongs, ih]
      simp only [belongs, Bool.false_eq_true, false_implies, true_and]
      refine and_congr_right fun shown => ⟨.inr, ?_⟩
      rintro (⟨same, -⟩ | later)
      · exact absurd same (apart shown)
      · exact later

theorem libraryTagged_iff (sys : System) (path : String) (pkey : Int) :
    LibraryTagged sys (setLibsWithPkey sys [path] pkey sys.segments).2 ↔
      Taggable sys path pkey := by
  simp only [LibraryTagged, Taggable, Shown, mem_setLibsWithPkey_iff]
  constructor
  · rintro ⟨mapped, tagged⟩
    exact ⟨⟨mapped, fun segment member own => (tagged segment member own).1⟩,
      fun segment member own => (tagged segment member own).2⟩
  · rintro ⟨⟨mapped, shown⟩, accepted⟩
    exact ⟨mapped, fun segment member own =>
      ⟨shown segment member own, accepted segment member own⟩⟩

/-- Where the lines show the library, an `Ok` of `set_libs_with_pkey` means that it is tagged. -/
theorem taggable_of_ok (shown : Shown sys path)
    (done : (setLibsWithPkey sys [path] pkey sys.segments).1 = .ok ()) :
    Taggable sys path pkey := by
  have accepts := (setLibsWithPkey_ok_iff sys [path] pkey sys.segments).mp done
  refine ⟨shown, fun segment member _ => ?_⟩
  obtain ⟨before, after, split⟩ := List.append_of_mem member
  refine ⟨before, after, split, fun other early => accepts other ?_⟩
  rw [split, List.append_cons]
  exact List.mem_append_left _ early

theorem load_ok_object {loader : ServiceLoader}
    (loaded : loader.load sys object name pkey = .ok service) :
    service.object = object ∧ service.pkey = pkey := by
  obtain ⟨libPath, _, loaded⟩ := Outcome.bind_eq_ok.mp loaded
  repeat' split at loaded
  all_goals cases loaded
  all_goals exact ⟨rfl, rfl⟩

theorem load_ok_path {loader : ServiceLoader}
    (loaded : loader.load sys object name pkey = .ok service) :
    loader.registered name = some service.path := by
  obtain ⟨libPath, found, loaded⟩ := Outcome.bind_eq_ok.mp loaded
  have registered : loader.registered name = some libPath := by
    revert found
    cases loader.registered name with
    | none => exact nofun
    | some path => exact fun same => congrArg some (Outcome.ok.inj same)
  repeat' split at loaded
  all_goals cases loaded
  all_goals exact registered

end AlloyStack.Visor
