import Mathlib.Data.List.Basic
import Mathlib.Data.Nat.ModEq
import AlloyStack.Library.Text

/-! `std::path` on Unix: paths as text, joining, and the components by which two paths are
compared. -/
namespace PathText
open Text

def isAbsolute (path : String) : Bool := path.toList.head? = some '/'

/-- `Path::join`: an absolute path replaces the base; a slash is put between the parts unless
the base is empty or ends in one. -/
def join (base path : String) : String :=
  if isAbsolute path then path
  else if base.toList.getLast? = none ∨ base.toList.getLast? = some '/' then base ++ path
  else base ++ "/" ++ path

inductive Component where
  | rootDir
  | curDir
  | parentDir
  | normal (name : List Char)
  deriving DecidableEq, Repr

/-- A piece between two slashes. Empty pieces and dots do not count. -/
def component (piece : List Char) : Option Component :=
  if piece = [] ∨ piece = ['.'] then none
  else if piece = ['.', '.'] then some .parentDir
  else some (.normal piece)

/-- A dot counts only at the front of a relative path. -/
def start (path : List Char) : List Component :=
  if path.head? = some '/' then [.rootDir]
  else if (split '/' path).head? = some ['.'] then [.curDir]
  else []

/-- `Path::components`. Paths are equal when these are. -/
def components (path : String) : List Component :=
  start path.toList ++ (split '/' path.toList).filterMap component

theorem split_join (base path : List Char) :
    split '/' (base ++ '/' :: path) = split '/' base ++ split '/' path :=
  List.splitOn_append_cons_self base path

theorem start_join {base : List Char} (nonempty : base ≠ []) (path : List Char) :
    start (base ++ '/' :: path) = start base := by
  have pieces : split '/' base ≠ [] := List.splitOn_ne_nil '/' base
  have first : (split '/' (base ++ '/' :: path)).head? = (split '/' base).head? := by
    rw [split_join, List.head?_append_of_ne_nil _ pieces]
  rw [start, start, first, List.head?_append_of_ne_nil _ nonempty]

theorem start_length_le (path : List Char) : (start path).length ≤ 1 := by
  unfold start
  split
  · exact le_rfl
  · split <;> simp

/-- The base is a directory without a trailing slash. -/
def Plain (base : String) : Prop := base.toList ≠ [] ∧ base.toList.getLast? ≠ some '/'

theorem join_absolute (absolute : isAbsolute path = true) (base : String) :
    join base path = path := by
  rw [join, if_pos absolute]

theorem join_relative (plain : Plain base) (relative : isAbsolute path = false) :
    (join base path).toList = base.toList ++ '/' :: path.toList := by
  have separated : ¬ (base.toList.getLast? = none ∨ base.toList.getLast? = some '/') := by
    rintro (empty | slash)
    · exact plain.1 (List.getLast?_eq_none_iff.mp empty)
    · exact plain.2 slash
  rw [join, if_neg (by simp [relative]), if_neg separated]
  simp [String.toList_append]

theorem isAbsolute_join (plain : Plain base) (based : isAbsolute base = false) :
    isAbsolute (join base path) = isAbsolute path := by
  cases absolute : isAbsolute path with
  | true => rw [join_absolute absolute, absolute]
  | false =>
    have front : (base.toList ++ '/' :: path.toList).head? = base.toList.head? :=
      List.head?_append_of_ne_nil _ plain.1
    rw [isAbsolute, join_relative plain absolute, front]
    exact based

theorem components_join (plain : Plain base) (relative : isAbsolute path = false) :
    components (join base path) = components base ++
      (split '/' path.toList).filterMap component := by
  rw [components, components, join_relative plain relative, start_join plain.1, split_join,
    List.filterMap_append, List.append_assoc]

/-- A base of two components or more changes every relative path. -/
theorem components_join_ne (plain : Plain base) (deep : 2 ≤ (components base).length)
    (relative : isAbsolute path = false) : components (join base path) ≠ components path := by
  intro same
  have own : (components path).length =
      (start path.toList).length + ((split '/' path.toList).filterMap component).length := by
    rw [components, List.length_append]
  have total := congrArg List.length same
  rw [components_join plain relative, List.length_append, own] at total
  have front := start_length_le path.toList
  omega

end PathText
