import AlloyStack.Library.Text
import AlloyStack.Library.Transition
import AlloyStack.Visor.WorkflowOrder

/-! The WASM functions of a workflow. The Rust side of a function puts the arguments of its guest
and the way back out of it into tables of the library, under a key. The threads of a group share
the tables, the open root directory and the lock around `build_wasm`. -/
namespace AlloyStack.Wasi.Guests
open Transition Visor.Workflow

section Functions

/-- What a function leaves in its library: `set_wasi_args`, `JMP_BUF_MAP` and `MUST_OPEN_ROOT`. -/
structure Setup where
  key : String
  args : Option (List String)
  jump : Bool
  root : Bool
  deriving DecidableEq, Repr

/-- `parse::<u64>` -/
def parseU64 (text : String) : Option Nat :=
  let digits := match text.toList with
    | '+' :: rest => rest
    | s => s
  if digits = [] ∨ ¬ digits.all Char.isDigit then none
  else
    let n := Nat.ofDigitChars 10 digits 0
    if n < 2 ^ 64 then some n else none

/-- An argument that is read as a number and handed on as one; `none` is a panic. -/
def number (args : Args) (name : String) : Option String :=
  (args name).bind fun text => (parseU64 text).map toString

/-- A function whose guest is compiled from C or C++. -/
def native (numbers : List String) (args : Args) : Option Setup := do
  let id ← args "id"
  let numbers ← numbers.mapM (number args)
  some ⟨id, some ("fake system path!" :: id :: numbers), false, true⟩

/-- A function that runs a script in the Python interpreter. -/
def python (head : String) (numbers : List String) (args : Args) : Option Setup := do
  let id ← args "id"
  let path ← args "pyfile_path"
  let numbers ← numbers.mapM (number args)
  some ⟨head ++ id, some ("python.wasm" :: path :: id :: numbers), true, true⟩

inductive WasmFunction where
  | mapper | reducer | sorter | spliter | merger | checker | longchain | transData | write
  | cpython | cpythonFunc | cpythonMapper | cpythonReducer | cpythonParallelSort | cpythonWordcount
  deriving DecidableEq, Repr

/-- `main` and the first lines of `func_body`. -/
def WasmFunction.setup : WasmFunction → Args → Option Setup
  | .mapper => native ["reducer_num"]
  | .reducer => native ["mapper_num"]
  | .sorter => native ["sorter_num", "merger_num"]
  | .spliter => native ["sorter_num", "merger_num"]
  | .merger => native ["sorter_num", "merger_num"]
  | .checker => native ["sorter_num", "merger_num"]
  | .longchain => native ["func_num"]
  | .transData => fun _ => some ⟨"0", none, false, true⟩
  | .write => fun args => (args "id").map fun id => ⟨id, none, false, false⟩
  | .cpython => fun args => do
    let id ← args "id"
    let path ← args "pyfile_path"
    some ⟨id, some ["python.wasm", path], true, true⟩
  | .cpythonFunc => fun args => do
    let path ← args "pyfile_path"
    let n ← number args "func_num"
    some ⟨"func_" ++ n, some ["python.wasm", path, n], true, true⟩
  | .cpythonMapper => python "mapper_" ["reducer_num"]
  | .cpythonReducer => python "reducer_" ["mapper_num"]
  | .cpythonParallelSort => python "func_" ["sorter_num", "merger_num"]
  | .cpythonWordcount => python "wordcount_" ["reducer_num", "mapper_num"]

end Functions

section Library

/-- `spin::Once` under `lazy_static!`. -/
inductive Once where
  | incomplete
  | running
  | complete
  | panicked
  deriving DecidableEq, Repr

/-- The statics of a loaded library. A jump buffer is the frame that it leads back to. -/
structure Library where
  wasiState : String → Option (List String) := fun _ => none
  jmpBufMap : String → Option Place := fun _ => none
  mustOpenRoot : Once := .incomplete
  initLock : Option Place := none

/-- `get_wasi_state`; `none` is a panic. -/
def Library.getWasiState (lib : Library) (id : String) : Option (List String) :=
  (lib.wasiState id).bind fun args => if args.length = 0 then none else some args

/-- How far `func_body` is. -/
inductive Stage where
  | entered | returnable | described | opening | rooted | building | running
  deriving DecidableEq, Repr

def Stage.order : Stage → Nat
  | .entered => 0
  | .returnable => 1
  | .described => 2
  | .opening => 3
  | .rooted => 4
  | .building => 5
  | .running => 6

inductive Phase where
  | outside
  | inside (stage : Stage) (setup : Setup)
  | ended
  deriving DecidableEq, Repr

/-- What a thread of a function does to its library, or gets from it. -/
inductive Action where
  | silent
  | jumpSet
  | argsSet
  | opened
  | built
  | argsGet (found : Option (List String))
  | procExit (found : Option Place)
  deriving DecidableEq, Repr

/-- A step of `func_body` or of its guest, in the thread `p`. `argsGet` is also `args_sizes_get`,
and `procExit` is a call of `proc_exit` with code zero, which jumps, or panics without a buffer. -/
inductive GuestStep (p : Place) : Library → Phase → Action → Library → Phase → Prop where
  | setjmp : setup.jump = true →
      GuestStep p lib (.inside .entered setup) .jumpSet
        { lib with jmpBufMap := Function.update lib.jmpBufMap setup.key (some p) }
        (.inside .returnable setup)
  | noJump : setup.jump = false →
      GuestStep p lib (.inside .entered setup) .silent lib (.inside .returnable setup)
  | setArgs : setup.args = some args →
      GuestStep p lib (.inside .returnable setup) .argsSet
        { lib with wasiState := Function.update lib.wasiState setup.key (some args) }
        (.inside .described setup)
  | noArgs : setup.args = none →
      GuestStep p lib (.inside .returnable setup) .silent lib (.inside .described setup)
  | openRoot : setup.root = true → lib.mustOpenRoot = .incomplete →
      GuestStep p lib (.inside .described setup) .silent { lib with mustOpenRoot := .running }
        (.inside .opening setup)
  | opened :
      GuestStep p lib (.inside .opening setup) .opened { lib with mustOpenRoot := .complete }
        (.inside .rooted setup)
  | openFailed :
      GuestStep p lib (.inside .opening setup) .silent { lib with mustOpenRoot := .panicked } .ended
  | isOpen : setup.root = true → lib.mustOpenRoot = .complete →
      GuestStep p lib (.inside .described setup) .silent lib (.inside .rooted setup)
  | poisoned : setup.root = true → lib.mustOpenRoot = .panicked →
      GuestStep p lib (.inside .described setup) .silent lib .ended
  | noRoot : setup.root = false →
      GuestStep p lib (.inside .described setup) .silent lib (.inside .rooted setup)
  | lock : lib.initLock = none →
      GuestStep p lib (.inside .rooted setup) .silent { lib with initLock := some p }
        (.inside .building setup)
  | built :
      GuestStep p lib (.inside .building setup) .built { lib with initLock := none }
        (.inside .running setup)
  | buildFailed :
      GuestStep p lib (.inside .building setup) .silent { lib with initLock := none } .ended
  | argsGet : lib.getWasiState setup.key = some args →
      GuestStep p lib (.inside .running setup) (.argsGet (some args)) lib (.inside .running setup)
  | argsMissing : lib.getWasiState setup.key = none →
      GuestStep p lib (.inside .running setup) (.argsGet none) lib .ended
  | procExit :
      GuestStep p lib (.inside .running setup) (.procExit (lib.jmpBufMap setup.key)) lib .ended
  | ended : GuestStep p lib (.inside .running setup) .silent lib .ended

end Library

section Joint
variable {L : Type} [DecidableEq L] (w : Plan) (o : Outcomes) (load : String → L)
  (function : L → WasmFunction)

/-- A workflow together with its functions. -/
structure Joint (L : Type) where
  visor : Running
  library : L → Library
  phases : Place → Phase

def Joint.begin : Joint L := ⟨w.begin, fun _ => {}, fun _ => .outside⟩

inductive JointEvent where
  | visor (e : Event)
  | guest (p : Place) (action : Action)
  deriving DecidableEq

/-- A thread is inside its function from its start to its end. -/
inductive JointStep : Joint L → JointEvent → Joint L → Prop where
  | visor : Step w o s.visor e t → (∀ p, e ≠ .start p) → (∀ p, e ≠ .finish p) →
      JointStep s (.visor e) { s with visor := t }
  | start : Step w o s.visor (.start p) t → w.app p = some app →
      JointStep s (.visor (.start p))
        ⟨t, s.library, Function.update s.phases p
          (((function (load app.name)).setup app.args).elim .ended (.inside .entered))⟩
  | finish : Step w o s.visor (.finish p) t → s.phases p = .ended →
      JointStep s (.visor (.finish p)) { s with visor := t }
  | guest : w.app p = some app →
      GuestStep p (s.library (load app.name)) (s.phases p) action lib phase →
      JointStep s (.guest p action)
        ⟨s.visor, Function.update s.library (load app.name) lib, Function.update s.phases p phase⟩

/-- What the function at a place sets up. -/
def ownSetup (p : Place) : Option Setup :=
  (w.app p).bind fun app => (function (load app.name)).setup app.args

/-- The library of the function at a place. -/
def libraryOf (p : Place) : Option L := (w.app p).map fun app => load app.name

/-- A guest gets its own arguments and leaves into its own frame; the root directory is opened once
for each library, before the guests that need it run. -/
def Right (past : List JointEvent) : JointEvent → Prop
  | .guest p (.argsGet found) => ∃ setup, ownSetup w load function p = some setup ∧
      found = setup.args
  | .guest p (.procExit found) => ∃ setup, ownSetup w load function p = some setup ∧
      found = if setup.jump then some p else none
  | .guest p .opened => ∀ q, libraryOf w load q = libraryOf w load p → .guest q .opened ∉ past
  | .guest p .built => ∃ setup, ownSetup w load function p = some setup ∧
      (setup.root = true → ∃ q, libraryOf w load q = libraryOf w load p ∧ .guest q .opened ∈ past)
  | _ => True

/-- The functions `cpython_func` of a group and a library have different numbers. -/
def NumbersApart : Prop :=
  ∀ p q app app' n, w.app p = some app → w.app q = some app' → p.1 = q.1 →
    load app.name = load app'.name → function (load app.name) = .cpythonFunc →
    number app.args "func_num" = some n → number app'.args "func_num" = some n → p = q

end Joint

end AlloyStack.Wasi.Guests
