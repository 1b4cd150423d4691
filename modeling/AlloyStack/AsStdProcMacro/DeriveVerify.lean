import Mathlib.Data.List.Basic
import AlloyStack.Library.Recut
import AlloyStack.Library.Rust
import AlloyStack.Mm.BufferMismatch

/-! `derive_verify_impl`: the fingerprint of a struct is a hash of the texts of its field types,
written one after the other, and of nothing if the fields have no names. -/
namespace AlloyStack.AsStdProcMacro
open Rust

/-- The types that `syn` parses, with the text of their token streams. The text can be converted
back into the same tokens, and a type has at least one token. -/
structure TypeSyntax (Ty : Type) where
  text : Ty → String
  lossless : Function.Injective text
  nonempty : ∀ ty, text ty ≠ ""

inductive Fields (Ty : Type) where
  | named (fields : List (String × Ty))
  | unnamed (types : List Ty)
  | unit

inductive Data (Ty : Type) where
  | struct (fields : Fields Ty)
  | enum
  | union

structure DeriveInput (Ty : Type) where
  ident : String
  data : Data Ty

/-- The `impl as_hostcall::Verify` that the macro expands to. -/
structure VerifyImpl where
  structName : String
  fingerprint : UInt64
  deriving DecidableEq, Repr

def Fields.types : Fields Ty → List Ty
  | .named fields => fields.map Prod.snd
  | .unnamed types => types
  | .unit => []

/-- The texts that are collected: `next` of a token stream is the stream itself. -/
def Fields.tys (syn : TypeSyntax Ty) : Fields Ty → List String
  | .named fields => fields.map fun field => syn.text field.2
  | _ => []

/-- What `tys.join("").hash` writes into the hasher: the bytes of the string, and `0xff`. -/
def Fields.hashed (syn : TypeSyntax Ty) (fields : Fields Ty) : List UInt8 :=
  (String.join (fields.tys syn)).toByteArray.data.toList ++ [0xFF]

/-- `derive_verify_impl` after `parse2`, with the `DefaultHasher`. -/
def deriveVerifyImpl (syn : TypeSyntax Ty) (finish : List UInt8 → UInt64)
    (parsed : Outcome (DeriveInput Ty)) :
    Outcome VerifyImpl :=
  parsed.bind fun input =>
    match input.data with
    | .struct fields => .ok ⟨input.ident, finish (fields.hashed syn)⟩
    | _ => .panic

section Separation
variable {Ty : Type} (syn : TypeSyntax Ty)

/-- The same bytes are hashed only for the same list of field types. -/
def Separated (a b : Fields Ty) : Prop := a.hashed syn = b.hashed syn → a.types = b.types

/-- A buffer that is registered by one struct is handed out for the other only if they have the
same list of field types. -/
def NeverReinterprets (first second : UInt64) (a b : Fields Ty) : Prop :=
  ∀ (s : Mm.Buffers) (slot : String) (addr : Nat), s.register slot = some (addr, first) →
    (s.fromBufferSlot slot second).2 = .ok (some addr) → a.types = b.types

/-- Two structs with named fields are told apart unless the texts of their types are one text cut
at different places. Fields without names are not hashed. -/
def Distinguished : Fields Ty → Fields Ty → Prop
  | .named fields, .named others =>
    ¬ Recut.Differs (fields.map fun field => (syn.text field.2).toList)
      (others.map fun field => (syn.text field.2).toList)
  | .named fields, .unnamed types => fields ≠ [] ∨ types = []
  | .named _, .unit => True
  | .unnamed types, .named fields => fields ≠ [] ∨ types = []
  | .unit, .named _ => True
  | .unnamed types, .unnamed others => types = others
  | .unnamed types, .unit => types = []
  | .unit, .unnamed types => types = []
  | .unit, .unit => True

theorem hashed_eq (a b : Fields Ty) : a.hashed syn = b.hashed syn ↔
    ((a.tys syn).map String.toList).flatten = ((b.tys syn).map String.toList).flatten := by
  rw [Fields.hashed, Fields.hashed, List.append_left_inj, Array.toList_inj, ← ByteArray.ext_iff,
    String.toByteArray_inj, ← String.toList_inj, String.toList_join, String.toList_join,
    List.flatMap_def, List.flatMap_def]

theorem text_ne_nil (fields : List (String × Ty)) :
    [] ∉ fields.map fun field => (syn.text field.2).toList := by
  intro member
  obtain ⟨field, _, blank⟩ := List.mem_map.mp member
  exact syn.nonempty field.2 (String.toList_eq_nil_iff.mp blank)

/-- A text that is not empty comes from a field with a name. -/
theorem texts_eq_nil (fields : List (String × Ty)) :
    (fields.map fun field => (syn.text field.2).toList).flatten = [] ↔ fields = [] := by
  constructor
  · intro blank
    exact List.map_eq_nil_iff.mp (Recut.eq_nil_of_flatten (text_ne_nil syn fields) blank)
  · rintro rfl
    rfl

theorem types_eq (fields others : List (String × Ty)) :
    fields.map Prod.snd = others.map Prod.snd ↔
      (fields.map fun field => (syn.text field.2).toList) =
        others.map fun field => (syn.text field.2).toList := by
  have injective : Function.Injective fun ty => (syn.text ty).toList :=
    fun _ _ same => syn.lossless (String.toList_inj.mp same)
  have mapped : ∀ list : List (String × Ty), (list.map fun field => (syn.text field.2).toList) =
      (list.map Prod.snd).map fun ty => (syn.text ty).toList :=
        fun list => by rw [List.map_map]; rfl
  rw [mapped, mapped, List.map_inj_right injective]

theorem separated_iff (a b : Fields Ty) : Separated syn a b ↔ Distinguished syn a b := by
  have unhashed : ∀ fields : List (String × Ty),
      ((Fields.named fields).tys syn).map String.toList =
        fields.map fun field => (syn.text field.2).toList :=
    fun fields => by rw [Fields.tys, List.map_map]; rfl
  rw [Separated, hashed_eq]
  cases a with
  | named fields =>
    rw [unhashed]
    cases b with
    | named others =>
      have cut := Recut.differs_iff (text_ne_nil syn fields) (text_ne_nil syn others)
      rw [unhashed, Fields.types, Fields.types, types_eq syn, Distinguished, cut, not_and, not_not]
    | unnamed types =>
      change (_ = [] → fields.map Prod.snd = types) ↔ fields ≠ [] ∨ types = []
      rw [texts_eq_nil]
      by_cases none : fields = [] <;> simp [none, eq_comm]
    | unit =>
      change (_ = [] → fields.map Prod.snd = []) ↔ True
      rw [texts_eq_nil]
      simp
  | unnamed types =>
    cases b with
    | named fields =>
      rw [unhashed, eq_comm]
      change (_ = [] → types = fields.map Prod.snd) ↔ fields ≠ [] ∨ types = []
      rw [texts_eq_nil]
      by_cases none : fields = [] <;> simp [none]
    | unnamed others => exact forall_prop_of_true rfl
    | unit => exact forall_prop_of_true rfl
  | unit =>
    cases b with
    | named fields =>
      rw [unhashed, eq_comm]
      change (_ = [] → [] = fields.map Prod.snd) ↔ True
      rw [texts_eq_nil]
      exact ⟨fun _ => trivial, fun _ none => by rw [none]; rfl⟩
    | unnamed types => exact ⟨fun separate => (separate rfl).symm, fun none _ => none.symm⟩
    | unit => exact ⟨fun _ => trivial, fun _ _ => rfl⟩

/-- The buffer is handed out exactly when the fingerprints agree. -/
theorem neverReinterprets_iff (first second : UInt64) (a b : Fields Ty) :
    NeverReinterprets first second a b ↔ (first = second → a.types = b.types) := by
  constructor
  · intro never same
    let s : Mm.Buffers := { Mm.Buffers.empty 0 0 with register := fun _ => some (0, first) }
    exact never s "" 0 rfl (by simp [s, Mm.Buffers.fromBufferSlot, Mm.Buffers.accessBuffer, same])
  · intro separate s slot addr registered handed
    apply separate
    by_contra differs
    rw [Mm.fromBufferSlot_mismatch registered differs] at handed
    cases handed

end Separation

/-- When the bytes that are hashed, and without a collision the check of `from_buffer_slot`, tell
two structs apart. -/
theorem fingerprint_separates_iff (syn : TypeSyntax Ty) (finish : List UInt8 → UInt64)
    (a b : Fields Ty) :
    (Separated syn a b ↔ Distinguished syn a b) ∧
    ((finish (a.hashed syn) = finish (b.hashed syn) → a.hashed syn = b.hashed syn) →
      ∀ first second x y, deriveVerifyImpl syn finish (.ok ⟨first, .struct a⟩) = .ok x →
        deriveVerifyImpl syn finish (.ok ⟨second, .struct b⟩) = .ok y →
        (NeverReinterprets x.fingerprint y.fingerprint a b ↔ Distinguished syn a b)) := by
  refine ⟨separated_iff syn a b, fun free first second x y expandedA expandedB => ?_⟩
  have fingerprintA : finish (a.hashed syn) = x.fingerprint :=
    congrArg VerifyImpl.fingerprint (Outcome.ok.inj expandedA)
  have fingerprintB : finish (b.hashed syn) = y.fingerprint :=
    congrArg VerifyImpl.fingerprint (Outcome.ok.inj expandedB)
  rw [neverReinterprets_iff, ← fingerprintA, ← fingerprintB, ← separated_iff]
  exact ⟨fun separate same => separate (congrArg finish same),
    fun separate same => separate (free same)⟩

/-- Types that are a single identifier; the text is the identifier. -/
abbrev Ident := { name : String // name ≠ "" }

def identSyntax : TypeSyntax Ident where
  text := Subtype.val
  lossless := Subtype.val_injective
  nonempty := Subtype.property

/-- The two structs of the crate's own test. -/
theorem fingerprint_separates_my_args :
    Separated identSyntax (.named [("a", ⟨"i64", by decide⟩)])
      (.named [("a", ⟨"String", by decide⟩), ("b", ⟨"i32", by decide⟩)]) := by
  refine (fingerprint_separates_iff identSyntax (fun _ => 0) _ _).1.mpr fun differs => ?_
  rw [Recut.differs_iff (text_ne_nil _ _) (text_ne_nil _ _)] at differs
  exact absurd differs.1 (by decide)

/-- Two tuple structs, and two structs with named fields, that are hashed alike. -/
theorem fingerprints_alike :
    ¬ Separated identSyntax (.unnamed [⟨"u8", by decide⟩]) (.unnamed [⟨"u64", by decide⟩]) ∧
    ¬ Separated identSyntax (.named [("a", ⟨"Ab", by decide⟩), ("b", ⟨"C", by decide⟩)])
      (.named [("a", ⟨"A", by decide⟩), ("b", ⟨"bC", by decide⟩)]) := by
  constructor
  · intro separated
    exact absurd (separated rfl) (by decide)
  · intro separated
    exact absurd (separated ((hashed_eq identSyntax _ _).mpr (by decide))) (by decide)

end AlloyStack.AsStdProcMacro
