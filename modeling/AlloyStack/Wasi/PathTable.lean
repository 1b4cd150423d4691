import AlloyStack.Library.Transition
import AlloyStack.Wasi.FileAttributes

/-! `FD2PATH`, from which `fd_readdir` takes the path of a directory. All guests share it, and
between two calls of the libos another guest may do something. `path_open` enters a descriptor into
the table, and nothing takes it out again. -/
namespace AlloyStack.Wasi.PathTable
open Rust LinearMemory LittleEndian Transition
open Fdtab (Fd)

/-- What a guest has reached: in `path_open` a descriptor, and in `path_filestat_get` a descriptor,
its attributes, and the end of its use. -/
inductive Doing where
  | idle
  | opened (path : String) (fd : Fd) (retptr : I32)
  | stating (fd : Fd) (buf : I32)
  | closing (fd : Fd) (buf : I32) (stat : FileStat)
  | answering (buf : I32) (stat : FileStat)

/-- The memories of the guests, `FD2PATH` and the libos. -/
structure Guests (σ : Type) where
  memories : Nat → Bytes
  doing : Nat → Doing
  fd2path : Fd → Option String
  libos : σ

/-- What a guest sees; the imports for files do not look at its arguments. -/
def Guests.world (s : Guests σ) (i : Nat) : World σ := ⟨s.memories i, none, s.fd2path, s.libos⟩

def fdClose (h : Host σ) (fd : I32) (w : World σ) : Option (Errno × World σ) := do
  let libos ← h.close fd w.libos
  some (.success, { w with libos })

inductive Event where
  | got (i : Nat) (path : String) (fd : Fd)
  | returned (i : Nat)
  | closed (fd : Fd)
  | listed (fd : Fd) (path : String)
  | other

section System
variable {σ : Type} (h : Host σ)

/-- A guest computes, or takes its call up to the next use of the libos or of `FD2PATH`. -/
inductive Step : Guests σ → Event → Guests σ → Prop where
  | compute (s : Guests σ) (i : Nat) (memory : Bytes) : s.doing i = .idle →
    Step s .other { s with memories := Function.update s.memories i memory }
  | openNoent (s : Guests σ) (i : Nat) (pathAddr pathLen oflags : I32) (rightsBase : UInt64)
    (fdflags : I32) (path : String) (libos : σ) : s.doing i = .idle →
    readString (asUsize pathAddr) pathLen (s.memories i) = some path →
    h.openFile path (openFlags fdflags oflags) (openMode rightsBase) s.libos = some (none, libos) →
    Step s .other { s with libos }
  | openGot (s : Guests σ) (i : Nat) (pathAddr pathLen oflags : I32) (rightsBase : UInt64)
    (fdflags retptr : I32) (path : String) (fd : Fd) (libos : σ) : s.doing i = .idle →
    readString (asUsize pathAddr) pathLen (s.memories i) = some path →
    h.openFile path (openFlags fdflags oflags) (openMode rightsBase) s.libos =
      some (some fd, libos) →
    Step s (.got i path fd)
      { s with libos, doing := Function.update s.doing i (.opened path fd retptr) }
  | openReturns (s : Guests σ) (i : Nat) (path : String) (fd : Fd) (retptr : I32) (memory : Bytes) :
    s.doing i = .opened path fd retptr →
    write (s.memories i) (asUsize retptr) (encode 4 fd.toNat) = some memory →
    Step s (.returned i) { s with
      memories := Function.update s.memories i memory
      doing := Function.update s.doing i .idle
      fd2path := Function.update s.fd2path fd (some path) }
  | fdClose (s : Guests σ) (i : Nat) (fd : I32) (libos : σ) : s.doing i = .idle →
    h.close fd s.libos = some libos → Step s (.closed fd) { s with libos }
  | statNoent (s : Guests σ) (i : Nat) (pathPtr pathLen : I32) (path : String) (libos : σ) :
    s.doing i = .idle → readString (asUsize pathPtr) pathLen (s.memories i) = some path →
    h.openFile path 0 Fdtab.OpenMode.RD s.libos = some (none, libos) →
    Step s .other { s with libos }
  | statGot (s : Guests σ) (i : Nat) (pathPtr pathLen buf : I32) (path : String) (fd : Fd)
    (libos : σ) : s.doing i = .idle →
    readString (asUsize pathPtr) pathLen (s.memories i) = some path →
    h.openFile path 0 Fdtab.OpenMode.RD s.libos = some (some fd, libos) →
    Step s .other { s with libos, doing := Function.update s.doing i (.stating fd buf) }
  | stat (s : Guests σ) (i : Nat) (fd : Fd) (buf : I32) (stat : FileStat) (libos : σ) :
    s.doing i = .stating fd buf → h.stat fd s.libos = some (stat, libos) →
    Step s .other { s with libos, doing := Function.update s.doing i (.closing fd buf stat) }
  | statClose (s : Guests σ) (i : Nat) (fd : Fd) (buf : I32) (stat : FileStat) (libos : σ) :
    s.doing i = .closing fd buf stat → h.close fd s.libos = some libos →
    Step s (.closed fd) { s with libos, doing := Function.update s.doing i (.answering buf stat) }
  | statReturns (s : Guests σ) (i : Nat) (buf : I32) (stat : FileStat) (memory : Bytes) :
    s.doing i = .answering buf stat →
    write (s.memories i) (asUsize buf) (filestat h.padding stat) = some memory →
    Step s .other { s with
      memories := Function.update s.memories i memory, doing := Function.update s.doing i .idle }
  | fdReaddir (s : Guests σ) (i : Nat) (fd buf bufLen : I32) (cookie : UInt64) (bufused : I32)
    (path : String) (w : World σ) :
    s.doing i = .idle → pathOf fd (s.world i) = some path →
    fdReaddir h asUsize fd buf bufLen cookie bufused (s.world i) = some (.success, w) →
    Step s (.listed fd path)
      { s with memories := Function.update s.memories i w.memory, libos := w.libos }

/-- A call of `path_open` that nothing interrupts. -/
theorem pathOpen_run {s : Guests σ} (idle : s.doing i = .idle)
    (done : pathOpen h asUsize pathAddr pathLen oflags rightsBase fdflags retptr (s.world i) =
      some (.success, w)) :
    ∃ es, Run (Step h) s es
      { s with
        memories := Function.update s.memories i w.memory, fd2path := w.fd2path,
        libos := w.libos } := by
  unfold pathOpen at done
  obtain ⟨path, named, done⟩ := Option.bind_eq_some_iff.mp done
  obtain ⟨⟨answer, libos⟩, answered, done⟩ := Option.bind_eq_some_iff.mp done
  cases answer with
  | none => simp at done
  | some fd =>
    obtain ⟨memory, written, done⟩ := Option.bind_eq_some_iff.mp done
    cases done
    have first := Step.openGot s i pathAddr pathLen oflags rightsBase fdflags retptr path fd libos
      idle named answered
    have both := Run.cons first
      (.cons (.openReturns _ i path fd retptr memory (Function.update_self ..) written) (.nil _))
    refine ⟨[.got i path fd, .returned i], ?_⟩
    rwa [Function.update_idem, ← idle, Function.update_eq_self] at both

theorem pathFilestatGet_run {s : Guests σ} (idle : s.doing i = .idle)
    (done : pathFilestatGet h asUsize pathPtr pathLen buf (s.world i) = some (.success, w)) :
    ∃ es, Run (Step h) s es
      { s with memories := Function.update s.memories i w.memory, libos := w.libos } := by
  unfold pathFilestatGet at done
  obtain ⟨path, named, done⟩ := Option.bind_eq_some_iff.mp done
  obtain ⟨⟨answer, libos⟩, answered, done⟩ := Option.bind_eq_some_iff.mp done
  cases answer with
  | none => simp at done
  | some fd =>
    obtain ⟨⟨stat, libos₁⟩, stated, done⟩ := Option.bind_eq_some_iff.mp done
    obtain ⟨libos₂, closed, done⟩ := Option.bind_eq_some_iff.mp done
    obtain ⟨memory, written, done⟩ := Option.bind_eq_some_iff.mp done
    cases done
    have first := Step.statGot s i pathPtr pathLen buf path fd libos idle named answered
    have all := Run.cons first
      (.cons (.stat _ i fd buf stat libos₁ (Function.update_self ..) stated)
      (.cons (.statClose _ i fd buf stat libos₂ (Function.update_self ..) closed)
        (.cons (.statReturns _ i buf stat memory (Function.update_self ..) written) (.nil _))))
    refine ⟨[.other, .other, .closed fd, .other], ?_⟩
    rwa [Function.update_idem, Function.update_idem, Function.update_idem, ← idle,
      Function.update_eq_self] at all

theorem fdClose_run {s : Guests σ} (idle : s.doing i = .idle)
    (done : fdClose h fd (s.world i) = some (.success, w)) :
    Run (Step h) s [.closed fd] { s with libos := w.libos } := by
  obtain ⟨libos, closed, done⟩ := Option.bind_eq_some_iff.mp done
  cases done
  exact .cons (.fdClose s i fd libos idle closed) (.nil _)

end System

section Ledger

/-- The descriptors that `path_open` has got and is about to return, and those that it has returned,
without those that were closed since. -/
structure Ledger where
  got : Nat → Option (String × Fd)
  opened : Fd → Option String

def Ledger.advance (l : Ledger) : Event → Ledger
  | .got i path fd => { l with got := Function.update l.got i (some (path, fd)) }
  | .returned i =>
    match l.got i with
    | some (path, fd) => ⟨Function.update l.got i none, Function.update l.opened fd (some path)⟩
    | none => l
  | .closed fd =>
    ⟨fun i => (l.got i).filter fun descriptor => descriptor.2 ≠ fd,
      Function.update l.opened fd none⟩
  | .listed _ _ => l
  | .other => l

structure Watched (σ : Type) where
  guests : Guests σ
  ledger : Ledger

variable {σ : Type} (h : Host σ)

def WatchedStep (s : Watched σ) (e : Event) (t : Watched σ) : Prop :=
  Step h s.guests e t.guests ∧ t.ledger = s.ledger.advance e

/-- No guest is in a call, and no descriptor is known. -/
structure Started (s : Watched σ) : Prop where
  idle : s.guests.doing = fun _ => .idle
  table : s.guests.fd2path = fun _ => none
  ledger : s.ledger = ⟨fun _ => none, fun _ => none⟩

/-- The step closes no descriptor that `path_open` has got. -/
def Spares (s : Watched σ) (e : Event) (_ : Watched σ) : Prop :=
  ∀ fd, e = .closed fd → s.ledger.opened fd = none ∧ ∀ i path, s.ledger.got i ≠ some (path, fd)

/-- A directory that is listed is one that was opened under the descriptor, and not closed since. -/
def ListsOpened (s : Watched σ) (e : Event) (_ : Watched σ) : Prop :=
  ∀ fd path, e = .listed fd path → s.ledger.opened fd = some path

/-- The descriptor that `path_open` is about to return. -/
def Doing.got : Doing → Option (String × Fd)
  | .opened path fd _ => some (path, fd)
  | _ => none

structure Sound (s : Watched σ) : Prop where
  table : s.guests.fd2path = s.ledger.opened
  got : ∀ i, s.ledger.got i = (s.guests.doing i).got

theorem Started.sound {s : Watched σ} (started : Started s) : Sound s where
  table := by rw [started.table, started.ledger]
  got i := by rw [started.idle, started.ledger]; rfl

variable {h}

/-- A descriptor that `path_open` does not have can be closed without a change of the ledger. -/
theorem advance_closed {l : Ledger} (unopened : l.opened fd = none)
    (ungot : ∀ i path, l.got i ≠ some (path, fd)) :
    l.advance (.closed fd) = l := by
  have got (i : Nat) : (l.got i).filter (fun descriptor => descriptor.2 ≠ fd) = l.got i := by
    cases held : l.got i with
    | none => rfl
    | some descriptor =>
      refine Option.filter_eq_some_iff.mpr ⟨rfl, ?_⟩
      refine decide_eq_true fun same => ungot i descriptor.1 ?_
      rw [held, ← same]
  have opened : Function.update l.opened fd none = l.opened := by
    rw [← unopened, Function.update_eq_self]
  rw [Ledger.advance, opened]
  simp only [got]

/-- A guest that goes on to something else. -/
theorem got_update {doing : Nat → Doing} {got : Nat → Option (String × Fd)}
    (same : ∀ j, got j = (doing j).got) (i : Nat) (next : Doing) (j : Nat) :
    Function.update got i next.got j = (Function.update doing i next j).got := by
  by_cases here : j = i
  · subst here
    rw [Function.update_self, Function.update_self]
  · rw [Function.update_of_ne here, Function.update_of_ne here, same]

/-- Neither what it did nor what it goes on to has a descriptor of `path_open`. -/
theorem got_other {doing : Nat → Doing} {got : Nat → Option (String × Fd)}
    (same : ∀ j, got j = (doing j).got) (before : doing i = now) (without : now.got = none)
    (after : next.got = none) (j : Nat) :
    got j = (Function.update doing i next j).got := by
  have unchanged : Function.update got i next.got = got := by
    rw [after, ← without, ← before, ← same, Function.update_eq_self]
  rw [← got_update same i next j, unchanged]

theorem sound_step {s t : Watched σ} (sound : Sound s) (stepped : WatchedStep h s e t)
    (spares : Spares s e t) : Sound t := by
  obtain ⟨guests, l⟩ := t
  obtain ⟨stepped, ledger⟩ := stepped
  obtain rfl : l = s.ledger.advance e := ledger
  obtain ⟨table, got⟩ := sound
  cases stepped with
  | compute i memory idle => exact ⟨table, got⟩
  | openNoent i pathAddr pathLen oflags rightsBase fdflags path libos idle named answered =>
    exact ⟨table, got⟩
  | openGot i pathAddr pathLen oflags rightsBase fdflags retptr path fd libos idle named answered =>
    exact ⟨table, got_update got i (.opened path fd retptr)⟩
  | openReturns i path fd retptr memory reached written =>
    have held : s.ledger.got i = some (path, fd) := by rw [got, reached, Doing.got]
    have advanced : s.ledger.advance (.returned i) =
        ⟨Function.update s.ledger.got i none, Function.update s.ledger.opened fd (some path)⟩ := by
      simp only [Ledger.advance, held]
    rw [advanced]
    exact ⟨congrArg (Function.update · fd (some path)) table, got_update got i .idle⟩
  | fdClose i fd libos idle closed =>
    rw [advance_closed (spares fd rfl).1 (spares fd rfl).2]
    exact ⟨table, got⟩
  | statNoent i pathPtr pathLen path libos idle named answered => exact ⟨table, got⟩
  | statGot i pathPtr pathLen buf path fd libos idle named answered =>
    exact ⟨table, got_other got idle rfl rfl⟩
  | stat i fd buf stat libos reached answered => exact ⟨table, got_other got reached rfl rfl⟩
  | statClose i fd buf stat libos reached closed =>
    rw [advance_closed (spares fd rfl).1 (spares fd rfl).2]
    exact ⟨table, got_other got reached rfl rfl⟩
  | statReturns i buf stat memory reached written => exact ⟨table, got_other got reached rfl rfl⟩
  | fdReaddir i fd buf bufLen cookie bufused path w idle entered listed => exact ⟨table, got⟩

theorem lists_opened {s t : Watched σ} (sound : Sound s) (stepped : WatchedStep h s e t) :
    ListsOpened s e t := by
  rintro fd path rfl
  obtain ⟨guests, l⟩ := t
  obtain ⟨stepped, -⟩ := stepped
  generalize labelled : Event.listed fd path = e at stepped
  cases stepped with
  | fdReaddir i fd' buf bufLen cookie bufused path' w idle entered listed =>
    cases labelled
    obtain ⟨path', found, nonempty⟩ := Option.bind_eq_some_iff.mp entered
    split at nonempty
    · cases nonempty
    · cases nonempty
      rw [← sound.table]
      exact found
  | _ => cases labelled

/-- Closing takes nothing out of the table, and so it is exact afterwards only for a descriptor that
was not in it. -/
theorem closed_table_iff {s t : Watched σ} (sound : Sound s)
    (stepped : WatchedStep h s (.closed fd) t) :
    t.guests.fd2path = t.ledger.opened ↔ s.ledger.opened fd = none := by
  obtain ⟨guests, l⟩ := t
  obtain ⟨stepped, ledger⟩ := stepped
  obtain rfl : l = s.ledger.advance (.closed fd) := ledger
  have unchanged : guests.fd2path = s.ledger.opened := by
    rw [← sound.table]
    generalize labelled : Event.closed fd = e at stepped
    cases stepped with
    | fdClose => rfl
    | statClose => rfl
    | _ => cases labelled
  change guests.fd2path = Function.update s.ledger.opened fd none ↔ _
  rw [unchanged]
  constructor
  · intro same
    rw [same, Function.update_self]
  · intro absent
    rw [← absent, Function.update_eq_self]

/-- In every run that closes no descriptor that `path_open` has got, `FD2PATH` has exactly the
descriptors that it returned and that were not closed since, and only directories under such a
descriptor are listed. The first one of them to be closed stays in the table. -/
theorem table_exact (h : Host σ) (s t : Watched σ) (es : List Event) (started : Started s)
    (run : Run (Where (WatchedStep h) Spares) s es t) :
    t.guests.fd2path = t.ledger.opened ∧ Run (Where (WatchedStep h) ListsOpened) s es t ∧
      ∀ fd u, WatchedStep h t (.closed fd) u →
        (u.guests.fd2path = u.ledger.opened ↔ t.ledger.opened fd = none) := by
  have sound :=
    run.stable (P := Sound) (fun sound step => sound_step sound step.1 step.2) started.sound
  have lists : Run (Where (WatchedStep h) ListsOpened) s es t :=
    run.where_of sound_step (fun sound stepped _ => lists_opened sound stepped) started.sound
  exact ⟨sound.table, lists, fun fd u stepped => closed_table_iff sound stepped⟩

end Ledger

section Root
open FileAttributes

/-- The libos with a simple file system that has one file. -/
def host : Host (Rcore.Service Bool Unit) := sfsHost oneSetup inOrder fun _ => 0

/-- The path of the root directory, at address 0. -/
def rootMemory : Bytes := 47 :: List.replicate 79 0

def atRoot : Watched (Rcore.Service Bool Unit) where
  guests := ⟨fun _ => rootMemory, fun _ => .idle, fun _ => none, oneService⟩
  ledger := ⟨fun _ => none, fun _ => none⟩

def openedService : Rcore.Service Bool Unit :=
  { oneService with
    table := Function.update oneService.table 3 (some ⟨false, 0, true, false⟩), nextFd := 4 }

theorem root_opens : host.openFile "/" (openFlags 0 0) (openMode 2) oneService =
    some (some 3, openedService) := rfl

/-- A guest in `path_open`, and after it. -/
def gotRoot : Watched (Rcore.Service Bool Unit) where
  guests := { atRoot.guests with
    doing := Function.update atRoot.guests.doing 0 (.opened "/" 3 8), libos := openedService }
  ledger := atRoot.ledger.advance (.got 0 "/" 3)

def openedRoot : Watched (Rcore.Service Bool Unit) where
  guests := { gotRoot.guests with
    memories := Function.update gotRoot.guests.memories 0 (store rootMemory 8 (encode 4 3))
    doing := Function.update gotRoot.guests.doing 0 .idle
    fd2path := Function.update gotRoot.guests.fd2path 3 (some "/") }
  ledger := gotRoot.ledger.advance (.returned 0)

theorem got_step : WatchedStep host atRoot (.got 0 "/" 3) gotRoot :=
  ⟨.openGot _ 0 0 1 0 2 0 8 "/" 3 _ rfl rfl root_opens, rfl⟩

theorem opened_step : WatchedStep host gotRoot (.returned 0) openedRoot :=
  ⟨.openReturns _ 0 "/" 3 8 _ rfl rfl, rfl⟩

theorem root_opened :
    Run (Where (WatchedStep host) Spares) atRoot [.got 0 "/" 3, .returned 0] openedRoot ∧
    openedRoot.guests.fd2path = openedRoot.ledger.opened ∧
    openedRoot.ledger.opened 3 = some "/" := by
  have spares {s t : Watched (Rcore.Service Bool Unit)} {e : Event}
      (other : ∀ fd, e ≠ .closed fd) : Spares s e t :=
    fun fd closed => absurd closed (other fd)
  have run : Run (Where (WatchedStep host) Spares) atRoot [.got 0 "/" 3, .returned 0] openedRoot :=
    .cons ⟨got_step, spares (by simp)⟩ (.cons ⟨opened_step, spares (by simp)⟩ (.nil _))
  exact ⟨run, (table_exact host atRoot openedRoot _ ⟨rfl, rfl, rfl⟩ run).1, rfl⟩

/-- The guest has closed the directory. -/
def closedRoot : Watched (Rcore.Service Bool Unit) where
  guests :=
    { openedRoot.guests with libos :=
      { openedService with table := Function.update openedService.table 3 none } }
  ledger := openedRoot.ledger.advance (.closed 3)

theorem closed_step : WatchedStep host openedRoot (.closed 3) closedRoot :=
  ⟨.fdClose _ 0 3 _ rfl rfl, rfl⟩

theorem root_readdir (table : Fd → Option (Rcore.FileWrapper Bool)) (nextFd : Fd) :
    host.readdir "/" ⟨table, nextFd, true, some false, ()⟩ =
      some (oneEntry.entries, ⟨table, nextFd, true, some false, ()⟩) := rfl

theorem closedRoot_memory : ((closedRoot.guests.world 0).memory).length = 80 := by decide

theorem closedRoot_lists : ∃ path libos, pathOf 3 (closedRoot.guests.world 0) = some path ∧
    host.readdir path (closedRoot.guests.world 0).libos = some (oneEntry.entries, libos) :=
  ⟨"/", _, rfl, root_readdir _ _⟩

/-- The guest lists what it has closed. -/
def closedSession : Session host oneEntry :=
  { oneSession with
    fd := 3
    world := fun _ => closedRoot.guests.world 0
    lists := fun _ => closedRoot_lists
    placed := fun _ => closedRoot_memory ▸ oneSession.placed 0
    counted := fun _ => closedRoot_memory ▸ oneSession.counted 0
    addressed := fun _ => closedRoot_memory ▸ oneSession.addressed 0 }

/-- A directory that was closed is still in the table, and still listed under its descriptor. -/
theorem closed_listed : Started atRoot ∧
    Run (WatchedStep host) atRoot [.got 0 "/" 3, .returned 0, .closed 3] closedRoot ∧
    closedRoot.ledger.opened 3 = none ∧ closedRoot.guests.fd2path 3 = some "/" ∧
    ∃ u, WatchedStep host closedRoot (.listed 3 "/") u := by
  obtain ⟨w, ran, -⟩ := closedSession.call 0 0
  have listed := Step.fdReaddir closedRoot.guests 0 3 8 32 0 48 "/" w rfl rfl ran
  exact ⟨⟨rfl, rfl, rfl⟩, .cons got_step (.cons opened_step (.cons closed_step (.nil _))), rfl, rfl,
    ⟨_, _⟩, listed, rfl⟩

end Root
end AlloyStack.Wasi.PathTable
