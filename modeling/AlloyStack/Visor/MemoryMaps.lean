import Mathlib.Data.List.Basic
import Mathlib.Data.List.Pairwise
import Mathlib.Data.Nat.ModEq
import AlloyStack.Library.WordsText
import AlloyStack.Visor.ServiceLoader

/-! `parse_memory_segments` on the text of `/proc/self/maps`, and which mappings
`set_libs_with_pkey` tags. The kernel prints one line for each mapping, in the order of their
addresses. -/
namespace AlloyStack.Visor.Maps
open Rust Text

/-- The file or the name behind a mapping. The kernel marks deleted files and escapes newlines. -/
inductive Backing where
  | anonymous
  | special (name : String) (clean : '\n' ∉ name.toList)
  | file (path : String) (deleted : Bool) (clean : '\n' ∉ path.toList)

/-- The last field of a line. -/
def Backing.text : Backing → List Char
  | .anonymous => []
  | .special name _ => name.toList
  | .file path deleted _ => path.toList ++ if deleted then " (deleted)".toList else []

structure Mapping where
  start : Nat
  stop : Nat
  read : Bool
  write : Bool
  exec : Bool
  shared : Bool
  offset : List Char
  dev : List Char
  inode : List Char
  padding : Nat
  backing : Backing
  nonempty : start < stop
  inside : stop < 2 ^ 64
  fields : IsWord offset ∧ IsWord dev ∧ IsWord inode

namespace Mapping

def flags (m : Mapping) : List Char :=
  [if m.read then 'r' else '-', if m.write then 'w' else '-', if m.exec then 'x' else '-',
    if m.shared then 's' else 'p']

/-- A line of the file. -/
def line (m : Mapping) : List Char :=
  hex8 m.start ++ '-' :: hex8 m.stop ++
    ' ' :: (m.flags ++ ' ' :: (m.offset ++ ' ' :: (m.dev ++ ' ' :: (m.inode ++ ' ' ::
    (List.replicate m.padding ' ' ++ m.backing.text)))))

/-- `PROT_READ`, `PROT_WRITE` and `PROT_EXEC`. -/
def perm (m : Mapping) : Nat :=
  (if m.read then 1 else 0) + (if m.write then 2 else 0) + (if m.exec then 4 else 0)

/-- What `pkey_mprotect` is to be called with for the mapping. -/
def region (m : Mapping) : Nat × Nat × Nat := (m.start, m.stop - m.start, m.perm)

/-- The file behind the mapping is one of the requested ones. -/
def Requested (libAbsPaths : List String) (m : Mapping) : Prop :=
  ∃ path deleted clean, m.backing = .file path deleted clean ∧ path ∈ libAbsPaths

end Mapping

/-- The mappings of a process do not overlap. -/
structure ProcMaps where
  mappings : List Mapping
  ordered : mappings.Pairwise fun low high => low.stop ≤ high.start

def ProcMaps.text (maps : ProcMaps) : List Char :=
  (maps.mappings.map Mapping.line).flatMap (· ++ ['\n'])

def permOf (flags : List Char) : Nat :=
  (if 'r' ∈ flags then 1 else 0) + (if 'w' ∈ flags then 2 else 0) + (if 'x' ∈ flags then 4 else 0)

/-- The body of the loop of `parse_memory_segments`; `none` is a panic. -/
def parseLine (b : Build) (line : List Char) : Option MemorySegment :=
  let parts := splitWhitespace line
  let path := if parts.length = 6 then parts[5]?.map String.ofList else none
  parts[0]?.bind fun range =>
    let items := split '-' range
    (items[0]?.bind fromStrRadix16).bind fun startAddr =>
      parts[1]?.bind fun flags =>
        (items[1]?.bind fromStrRadix16).bind fun stop =>
          (b.sub stop startAddr).map fun length => { startAddr, length, perm := permOf flags, path }

def parseLines (b : Build) : List (List Char) → Option (List MemorySegment)
  | [] => some []
  | line :: rest => (parseLine b line).bind fun segment => (parseLines b rest).map (segment :: ·)

def parseMemorySegments (b : Build) (text : List Char) : Option (List MemorySegment) :=
  parseLines b ((lines text).map dropReturn)

def segmentRegion (segment : MemorySegment) : Nat × Nat × Nat :=
  (segment.startAddr, segment.length, segment.perm)

/-- The mappings that get the key are those of the requested files, each with its own start,
length and permissions. -/
def TagsExactly (b : Build) (sys : System) (libAbsPaths : List String) (pkey : Int)
    (maps : ProcMaps) : Prop :=
  ∃ segments tagged, parseMemorySegments b maps.text = some segments ∧
    setLibsWithPkey sys libAbsPaths pkey segments = (.ok (), tagged) ∧
    (∀ segment ∈ tagged, ∃ m ∈ maps.mappings, segmentRegion segment = m.region) ∧
    ∀ m ∈ maps.mappings, (∃ segment ∈ tagged, segmentRegion segment = m.region) ↔
      m.Requested libAbsPaths

/-- The last field of a requested mapping is one word, and among the fields of one word the
requested paths are parts of the requested ones only. -/
structure Mapping.Clear (libAbsPaths : List String) (m : Mapping) : Prop where
  whole : m.Requested libAbsPaths → ∃ name, splitWhitespace m.backing.text = [name]
  only : ∀ name, splitWhitespace m.backing.text = [name] →
    ((∃ need ∈ libAbsPaths, need.toList <:+: name) ↔ m.Requested libAbsPaths)

section Parsing
variable {m : Mapping}

theorem hex8_word (n : Nat) : IsWord (hex8 n) := by
  have plain : IsWord "0123456789abcdef".toList := IsWord.of_all (by decide)
  exact ⟨hex8_ne_nil n, fun c member => plain.2 c (mem_hex8 member)⟩

theorem range_word (m : Mapping) : IsWord (hex8 m.start ++ '-' :: hex8 m.stop) := by
  refine ⟨by simp, fun c member => ?_⟩
  rcases List.mem_append.mp member with front | back
  · exact (hex8_word m.start).2 c front
  · rcases List.mem_cons.mp back with rfl | back
    · decide
    · exact (hex8_word m.stop).2 c back

theorem flags_word (m : Mapping) : IsWord m.flags := by
  apply IsWord.of_all
  unfold Mapping.flags
  cases m.read <;> cases m.write <;> cases m.exec <;> cases m.shared <;> decide

theorem permOf_flags (m : Mapping) : permOf m.flags = m.perm := by
  unfold permOf Mapping.flags Mapping.perm
  cases m.read <;> cases m.write <;> cases m.exec <;> cases m.shared <;> decide

/-- A field in front of a space is the first word. -/
theorem splitWhitespace_field (field : IsWord s) (rest : List Char) :
    splitWhitespace (s ++ ' ' :: rest) = s :: splitWhitespace rest := by
  rw [splitWhitespace_append s rest (by decide), splitWhitespace_word field]
  rfl

theorem line_words (m : Mapping) :
    splitWhitespace m.line =
    [hex8 m.start ++ '-' :: hex8 m.stop, m.flags, m.offset, m.dev, m.inode] ++
      splitWhitespace m.backing.text := by
  obtain ⟨offset, dev, inode⟩ := m.fields
  rw [Mapping.line, splitWhitespace_field (range_word m), splitWhitespace_field (flags_word m),
    splitWhitespace_field offset, splitWhitespace_field dev, splitWhitespace_field inode,
      splitWhitespace_spaces]
  rfl

/-- The path that the parser sees. -/
def Mapping.visible (m : Mapping) : Option String :=
  match splitWhitespace m.backing.text with
  | [name] => some (String.ofList name)
  | _ => none

theorem visible_eq_some_iff (m : Mapping) :
    m.visible = some path ↔ splitWhitespace m.backing.text = [path.toList] := by
  unfold Mapping.visible
  split
  · rename_i name one
    rw [one, Option.some.injEq, List.singleton_inj]
    constructor
    · rintro rfl
      exact (String.toList_ofList).symm
    · rintro rfl
      exact String.ofList_toList
  · rename_i many
    constructor
    · intro impossible
      cases impossible
    · intro one
      exact absurd one (many _)

theorem range_items (m : Mapping) :
    split '-' (hex8 m.start ++ '-' :: hex8 m.stop) = [hex8 m.start, hex8 m.stop] := by
  have plain (n : Nat) : '-' ∉ hex8 n := fun member => absurd (mem_hex8 member) (by decide)
  rw [split, List.splitOn_append_cons_self_of_not_mem (plain _),
    List.splitOn_eq_singleton (plain _)]

def Mapping.segment (m : Mapping) : MemorySegment where
  startAddr := m.start
  length := m.stop - m.start
  perm := m.perm
  path := m.visible

theorem parseLine_line (b : Build) (m : Mapping) :
    parseLine b (dropReturn m.line) = some m.segment := by
  have nonempty := m.nonempty
  have inside := m.inside
  have seen : (if (splitWhitespace m.line).length = 6 then
      (splitWhitespace m.line)[5]?.map String.ofList else none) =
      m.visible := by
    rw [line_words]
    unfold Mapping.visible
    rcases splitWhitespace m.backing.text with _ | ⟨name, _ | ⟨other, rest⟩⟩
    · rfl
    · rfl
    · simp
  have starts := fromStrRadix16_hex8 (show m.start < 2 ^ 64 by omega)
  have stops := fromStrRadix16_hex8 inside
  have length := b.sub_eq (Nat.le_of_lt nonempty) (show m.stop < word from inside)
  simp only [parseLine, splitWhitespace_dropReturn, seen]
  rw [line_words]
  simp only [List.cons_append, List.getElem?_cons_zero, List.getElem?_cons_succ, Option.bind_some,
    range_items, starts, stops, length, Option.map_some, permOf_flags]
  rfl

theorem backing_clean (backing : Backing) : '\n' ∉ backing.text := by
  cases backing with
  | anonymous => simp [Backing.text]
  | special name clean => exact clean
  | file path deleted clean =>
    intro member
    rcases List.mem_append.mp member with front | mark
    · exact clean front
    · revert mark
      cases deleted <;> decide

theorem word_clean (field : IsWord s) : '\n' ∉ s :=
  fun member => absurd (field.2 _ member) (by decide)

theorem line_clean (m : Mapping) : '\n' ∉ m.line := by
  obtain ⟨offset, dev, inode⟩ := m.fields
  have range := word_clean (range_word m)
  have flags := word_clean (flags_word m)
  have text := backing_clean m.backing
  simp only [Mapping.line, List.mem_append, List.mem_cons, List.mem_replicate, not_or] at range ⊢
  simp [range, flags, text, word_clean offset, word_clean dev, word_clean inode]

/-- Every mapping is parsed, with the path that its line shows. -/
theorem parseMemorySegments_text (b : Build) (maps : ProcMaps) :
    parseMemorySegments b maps.text = some (maps.mappings.map Mapping.segment) := by
  have clean : ∀ s ∈ maps.mappings.map Mapping.line, '\n' ∉ s := by
    simp only [List.forall_mem_map]
    exact fun m _ => line_clean m
  rw [parseMemorySegments, ProcMaps.text, lines_flatMap _ clean]
  generalize maps.mappings = mappings
  induction mappings with
  | nil => rfl
  | cons m rest ih =>
    simp only [List.map_cons, parseLines, parseLine_line, Option.bind_some, ih, Option.map_some]

end Parsing

section Tagging
variable {b : Build} {sys : System} {libAbsPaths : List String} {pkey : Int} {maps : ProcMaps}
  {m other : Mapping}

/-- Without a failure all segments that belong to the libraries are tagged, and no others. -/
theorem setLibsWithPkey_tags (willing : ∀ segment, sys.pkeyMprotect segment pkey = none)
    (segments : List MemorySegment) :
    setLibsWithPkey sys libAbsPaths pkey segments =
      (.ok (), segments.filter (·.belongs libAbsPaths)) := by
  induction segments with
  | nil => rfl
  | cons segment rest ih =>
    rw [setLibsWithPkey, List.filter_cons, ih, willing]
    split <;> rfl

theorem segment_belongs_iff :
    m.segment.belongs libAbsPaths = true ↔
    ∃ name, splitWhitespace m.backing.text = [name] ∧
      ∃ need ∈ libAbsPaths, need.toList <:+: name := by
  have seen : m.segment.belongs libAbsPaths = true ↔
      ∃ path, m.visible = some path ∧ ∃ need ∈ libAbsPaths, need.toList <:+: path.toList := by
    unfold MemorySegment.belongs Mapping.segment
    cases m.visible with
    | none => simp
    | some path => simp [contains]
  rw [seen]
  constructor
  · rintro ⟨path, visible, part⟩
    exact ⟨path.toList, (visible_eq_some_iff m).mp visible, part⟩
  · rintro ⟨name, one, part⟩
    have back : (String.ofList name).toList = name := String.toList_ofList
    refine ⟨String.ofList name, (visible_eq_some_iff m).mpr (by rw [back]; exact one), ?_⟩
    rwa [back]

theorem clear_iff :
    m.Clear libAbsPaths ↔ (m.segment.belongs libAbsPaths = true ↔ m.Requested libAbsPaths) := by
  rw [segment_belongs_iff]
  constructor
  · intro clear
    constructor
    · rintro ⟨name, one, part⟩
      exact (clear.only name one).mp part
    · intro requested
      obtain ⟨name, one⟩ := clear.whole requested
      exact ⟨name, one, (clear.only name one).mpr requested⟩
  · intro right
    constructor
    · intro requested
      obtain ⟨name, one, _⟩ := right.mpr requested
      exact ⟨name, one⟩
    · intro name one
      rw [← right]
      constructor
      · exact fun part => ⟨name, one, part⟩
      · rintro ⟨other, same, part⟩
        obtain rfl := List.singleton_inj.mp (one.symm.trans same)
        exact part

/-- Mappings are known by their addresses. -/
theorem mapping_unique (first : m ∈ maps.mappings) (second : other ∈ maps.mappings)
    (same : m.region = other.region) :
    m = other := by
  obtain ⟨i, left, rfl⟩ := List.getElem_of_mem first
  obtain ⟨j, right, rfl⟩ := List.getElem_of_mem second
  have order := List.pairwise_iff_getElem.mp maps.ordered
  have start : maps.mappings[i].start = maps.mappings[j].start := congrArg Prod.fst same
  rcases Nat.lt_trichotomy i j with before | rfl | after
  · have apart := order i j left right before
    have positive := maps.mappings[i].nonempty
    omega
  · rfl
  · have apart := order j i right left after
    have positive := maps.mappings[j].nonempty
    omega

theorem tagged_iff (member : m ∈ maps.mappings) :
    (∃ segment ∈ (maps.mappings.map Mapping.segment).filter (·.belongs libAbsPaths),
      segmentRegion segment = m.region) ↔
      m.segment.belongs libAbsPaths = true := by
  constructor
  · rintro ⟨segment, tagged, same⟩
    obtain ⟨listed, belongs⟩ := List.mem_filter.mp tagged
    obtain ⟨other, present, rfl⟩ := List.mem_map.mp listed
    obtain rfl := mapping_unique present member same
    exact belongs
  · intro belongs
    exact ⟨m.segment, List.mem_filter.mpr ⟨List.mem_map_of_mem member, belongs⟩, rfl⟩

theorem clear_of_tags (willing : ∀ segment, sys.pkeyMprotect segment pkey = none)
    (exactly : TagsExactly b sys libAbsPaths pkey maps) :
    ∀ m ∈ maps.mappings, m.Clear libAbsPaths := by
  obtain ⟨segments, tagged, text, answer, _, exactly⟩ := exactly
  obtain rfl := Option.some.inj ((parseMemorySegments_text b maps).symm.trans text)
  obtain ⟨-, rfl⟩ := Prod.mk.inj ((setLibsWithPkey_tags willing _).symm.trans answer)
  intro m member
  exact clear_iff.mpr ((tagged_iff member).symm.trans (exactly m member))

/-- Exactly the requested libraries are tagged if and only if the text of the maps shows them
clearly. -/
theorem tags_exactly_iff (b : Build) (willing : ∀ segment, sys.pkeyMprotect segment pkey = none)
    (libAbsPaths : List String) (maps : ProcMaps) :
    TagsExactly b sys libAbsPaths pkey maps ↔ ∀ m ∈ maps.mappings, m.Clear libAbsPaths := by
  constructor
  · exact clear_of_tags willing
  · intro clear
    refine ⟨_, _, parseMemorySegments_text b maps, setLibsWithPkey_tags willing _, ?_, ?_⟩
    · intro segment tagged
      obtain ⟨m, member, rfl⟩ := List.mem_map.mp (List.mem_filter.mp tagged).1
      exact ⟨m, member, rfl⟩
    · intro m member
      exact (tagged_iff member).trans (clear_iff.mp (clear m member))

end Tagging

def willingSystem : System := ⟨0, .ok (), none, .ok (), [], fun _ => false, fun _ _ => none⟩

/-- The text segment of a library. -/
def libraryMapping (start : Nat) (path : String) (clean : '\n' ∉ path.toList)
    (small : start + 0x1000 < 2 ^ 64) : Mapping where
  start := start
  stop := start + 0x1000
  read := true
  write := false
  exec := true
  shared := false
  offset := "00000000".toList
  dev := "fd:01".toList
  inode := "1835".toList
  padding := 26
  backing := .file path false clean
  nonempty := by omega
  inside := small
  fields := ⟨.of_all (by decide), .of_all (by decide), .of_all (by decide)⟩

def twoLibraries (path : String) (clean : '\n' ∉ path.toList) : ProcMaps where
  mappings := [libraryMapping 0x7f0000000000 "/opt/libfdtab.so" (by decide) (by decide),
    libraryMapping 0x7f0000010000 path clean (by decide)]
  ordered := by simp [libraryMapping]

theorem requested_library {start : Nat} {path : String} {clean : '\n' ∉ path.toList}
    {small : start + 0x1000 < 2 ^ 64} :
    (libraryMapping start path clean small).Requested libAbsPaths ↔ path ∈ libAbsPaths := by
  constructor
  · rintro ⟨other, deleted, clean', same, member⟩
    obtain ⟨rfl, -⟩ := Backing.file.inj same
    exact member
  · exact fun member => ⟨path, false, clean, rfl, member⟩

theorem tags_exactly_two : TagsExactly release willingSystem ["/opt/libfdtab.so"] 15
    (twoLibraries "/opt/libstdio.so" (by decide)) := by
  refine (tags_exactly_iff release (fun _ => rfl) _ _).mpr ?_
  simp only [twoLibraries, List.forall_mem_cons, List.not_mem_nil, false_implies, implies_true,
    and_true, clear_iff, requested_library]
  decide +kernel

/-- A library whose path contains the requested one is tagged as well, and a requested library
with a space in its path is not. -/
theorem tags_exactly_fails :
    ¬ TagsExactly release willingSystem ["/opt/libfdtab.so"] 15
      (twoLibraries "/opt/libfdtab.so.old" (by decide)) ∧
    ¬ TagsExactly release willingSystem ["/opt/my libs/libstdio.so"] 15
      (twoLibraries "/opt/my libs/libstdio.so" (by decide)) := by
  constructor
  · intro exactly
    have clear := clear_of_tags (fun _ => rfl) exactly _ (List.mem_cons_of_mem _ List.mem_cons_self)
    rw [clear_iff, requested_library] at clear
    revert clear
    decide +kernel
  · intro exactly
    have clear := clear_of_tags (fun _ => rfl) exactly _ (List.mem_cons_of_mem _ List.mem_cons_self)
    rw [clear_iff, requested_library] at clear
    revert clear
    decide +kernel

end AlloyStack.Visor.Maps
