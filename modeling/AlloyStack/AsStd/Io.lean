import Mathlib.Data.List.Basic
import AlloyStack.Fatfs.Streams
import AlloyStack.Library.Utf8

/-! `as_std::io`: the default methods of `Write` and `Read` over the fdtab and fatfs services, for
every way in which the file of the fatfs crate can answer. -/
namespace AlloyStack.AsStd.Io
open Rust SlotTable AlloyStack.Fdtab AlloyStack.Fatfs

section Writes
variable {Name : Type} [DecidableEq Name] (b : Build) (stdout : List UInt8 → Size)

/-- `Write::write_all`, with the outcomes of the writes to the file in their order. -/
def writeAll (outcomes : Nat → Writing) (call : Nat) (fd : Fd) (buf : List UInt8) (s : Disk Name) :
    Option (Except FdtabError Unit × Disk Name) :=
  if buf = [] then some (.ok (), s)
  else match s.writeWith b stdout (outcomes call) fd buf with
    | some (.ok n, s) =>
      if n = 0 ∨ buf.length < n then none else writeAll outcomes (call + 1) fd (buf.drop n) s
    | some (.error e, s) => some (.error e, s)
    | none => none
termination_by buf.length
decreasing_by
  have some := List.length_pos_iff.mpr ‹buf ≠ []›
  have positive := (not_or.mp ‹¬ (n = 0 ∨ buf.length < n)›).1
  rw [List.length_drop]
  exact Nat.sub_lt some (Nat.pos_of_ne_zero positive)

omit [DecidableEq Name] in
/-- The data is stored once at the position of the open file, the position is past it, and nothing
else has changed. -/
structure Stored (s t : Disk Name) (rawFd : Fd) (opened : Opened Name) (data : List UInt8) :
    Prop where
  file : t.volume.files opened.name =
    some (writeAt (s.volume.content opened.name) opened.cursor data)
  others : ∀ name, name ≠ opened.name → t.volume.files name = s.volume.files name
  position : slot t.volume.table rawFd.toNat =
    some { opened with cursor := opened.cursor + data.length }
  handles : ∀ h, h ≠ rawFd.toNat → slot t.volume.table h = slot s.volume.table h
  descriptors : t.fdTable = s.fdTable

/-- Nothing fails before all bytes of the buffer are stored, or `flush` fails but the file already
held the bytes that it did not get to. -/
def Keeps (content : List UInt8) (cursor : Nat) (buf : List UInt8) : Writing → Prop
  | .ok => True
  | .writeAllErr _ stored => buf.length ≤ stored
  | .flushErr _ stored =>
    (content.drop (cursor + stored)).take (buf.length - stored) = buf.drop stored

/-- A part of the buffer changes the file as the whole does only if the rest is there already. -/
theorem writeAt_take_eq_iff (content : List UInt8) (cursor : Nat) (buf : List UInt8)
    (stored : Nat) :
    writeAt content cursor (buf.take stored) = writeAt content cursor buf ↔
      (content.drop (cursor + stored)).take (buf.length - stored) = buf.drop stored := by
  rcases Nat.le_total buf.length stored with all | part
  · simp [List.take_of_length_le all, List.drop_of_length_le all, Nat.sub_eq_zero_of_le all]
  · have whole : writeAt content cursor buf =
        content.take cursor ++ buf.take stored ++
          (buf.drop stored ++ content.drop (cursor + buf.length)) := by
      simp only [writeAt, List.append_assoc]
      rw [← List.append_assoc (buf.take stored), List.take_append_drop]
    have length : (buf.take stored).length = stored := by simp [part]
    have rest : content.drop (cursor + buf.length) =
        (content.drop (cursor + stored)).drop (buf.length - stored) := by
      rw [List.drop_drop]
      congr 1
      omega
    rw [whole, writeAt, length, List.append_right_inj, rest]
    constructor
    · intro same
      have size : (buf.drop stored).length = buf.length - stored := List.length_drop
      rw [same, ← size, List.take_left]
    · intro same
      rw [← same, List.take_append_drop]

variable {b stdout} {s t : Disk Name} {fd rawFd : Fd} {file : Fdtab.File} {opened : Opened Name}
  {old : List UInt8}

omit [DecidableEq Name] in
theorem Stored.nothing (found : slot s.volume.table rawFd.toNat = some opened)
    (content : s.volume.files opened.name = some old) : Stored s s rawFd opened [] := by
  refine ⟨?_, fun _ _ => rfl, by rw [found]; rfl, fun _ _ => rfl, rfl⟩
  simp [Volume.content, content, writeAt]

/-- What `fatfs_write` does to the volume, against what it answers. -/
theorem stored_iff (found : slot s.volume.table rawFd.toNat = some opened)
    (content : s.volume.files opened.name = some old) (outcome : Writing) (buf : List UInt8) :
    Stored s ⟨s.fdTable, (s.volume.fatfsWriteWith outcome rawFd buf).2⟩ rawFd opened buf ↔
      Keeps old opened.cursor buf outcome := by
  have inside := lt_length_of_slot (found ▸ Option.some_ne_none opened)
  have known : s.volume.content opened.name = old := by
    rw [Volume.content, content, Option.getD_some]
  have split : Stored s
      ⟨s.fdTable, (s.volume.fatfsWriteWith outcome rawFd buf).2⟩ rawFd opened buf ↔
      writeAt old opened.cursor (outcome.stored buf) = writeAt old opened.cursor buf ∧
        outcome.advance buf = buf.length := by
    simp only [Volume.fatfsWriteWith, found, known]
    constructor
    · rintro ⟨file, _, position, _, _⟩
      simp only [Function.update_self, known, Option.some.injEq] at file
      simp only [slot_set inside, Function.update_self, Option.some.injEq, Opened.mk.injEq,
        true_and, Nat.add_left_cancel_iff] at position
      exact ⟨file, position⟩
    · rintro ⟨file, position⟩
      refine ⟨by simp [known, file], fun name other => by simp [other], ?_, fun h other => ?_, rfl⟩
      · simp only [slot_set inside, Function.update_self, position]
      · simp only [slot_set inside, Function.update_of_ne other]
  rw [split]
  cases outcome with
  | ok => simp [Writing.stored, Writing.advance, Keeps]
  | writeAllErr message stored =>
    simp only [Writing.stored, Writing.advance, Keeps, List.length_take]
    refine ⟨fun both => by omega, fun all => ⟨by rw [List.take_of_length_le all], by omega⟩⟩
  | flushErr message stored =>
    simp only [Writing.stored, Writing.advance, Keeps, and_true]
    exact writeAt_take_eq_iff old opened.cursor buf stored

/-- A write that fdtab acknowledges went to `fatfs_write`, which answered with the whole length. -/
theorem writeWith_ok (listed : s.fdTable.files fd.toNat = some file)
    (source : file.src = .fatFS rawFd) (found : slot s.volume.table rawFd.toNat = some opened)
    (done : s.writeWith b stdout outcome fd buf = some (.ok n, t)) :
    n = buf.length ∧ t = ⟨s.fdTable, (s.volume.fatfsWriteWith outcome rawFd buf).2⟩ := by
  have valid := valid_of_listed listed
  cases allowed : file.canWrite with
  | true =>
    rw [Disk.writeWith_eq valid listed source allowed] at done
    simp only [Volume.fatfsWriteWith, found, Except.mapError, Option.some.injEq, Prod.mk.injEq,
      Except.ok.injEq] at done ⊢
    exact ⟨done.1.symm, done.2.symm⟩
  | false =>
    have positive : ¬ fd.toNat = 0 := by omega
    simp [Disk.writeWith, Fdtab.write, positive, valid, withFile_eq valid, listed, allowed] at done

/-- The loop ends after the first write that is acknowledged as a whole. -/
theorem writeAll_whole (filled : buf ≠ [])
    (done : s.writeWith b stdout (outcomes call) fd buf = some (.ok buf.length, t)) :
    writeAll b stdout outcomes call fd buf s = some (.ok (), t) := by
  have length := List.length_pos_iff.mpr filled
  have fits : ¬ (buf.length = 0 ∨ buf.length < buf.length) := by omega
  rw [writeAll, if_neg filled]
  simp only [done, if_neg fits, List.drop_length]
  rw [writeAll, if_pos rfl]

end Writes

/-- fdtab acknowledges the whole buffer whatever the file answers. What it acknowledged is stored,
and what `write_all` returns `Ok` for, exactly when nothing fails before the last byte is there. -/
theorem acknowledged_write_iff {Name : Type} [DecidableEq Name] (b : Build)
    (stdout : List UInt8 → Size) (s : Disk Name)
    (fd rawFd : Fd) (file : Fdtab.File) (opened : Opened Name) (old : List UInt8)
    (listed : s.fdTable.files fd.toNat = some file) (source : file.src = .fatFS rawFd)
    (found : slot s.volume.table rawFd.toNat = some opened)
    (content : s.volume.files opened.name = some old) :
    (∀ outcome buf n t, s.writeWith b stdout outcome fd buf = some (.ok n, t) →
      (Stored s t rawFd opened (buf.take n) ↔ Keeps old opened.cursor buf outcome)) ∧
    (∀ outcomes call buf t, writeAll b stdout outcomes call fd buf s = some (.ok (), t) →
      (Stored s t rawFd opened buf ↔ Keeps old opened.cursor buf (outcomes call))) ∧
    (file.canWrite = true → ∀ outcome buf, ∃ t,
      s.writeWith b stdout outcome fd buf = some (.ok buf.length, t)) := by
  have single : ∀ outcome buf n t, s.writeWith b stdout outcome fd buf = some (.ok n, t) →
      (Stored s t rawFd opened (buf.take n) ↔ Keeps old opened.cursor buf outcome) := by
    intro outcome buf n t done
    obtain ⟨rfl, rfl⟩ := writeWith_ok listed source found done
    rw [List.take_length]
    exact stored_iff found content outcome buf
  refine ⟨single, fun outcomes call buf t done => ?_, fun allowed outcome buf => ?_⟩
  · by_cases filled : buf = []
    · subst filled
      rw [writeAll, if_pos rfl] at done
      obtain ⟨-, rfl⟩ := Prod.mk.inj (Option.some.inj done)
      refine ⟨fun _ => ?_, fun _ => Stored.nothing found content⟩
      cases outcomes call <;> simp [Keeps]
    · have first := done
      rw [writeAll, if_neg filled] at first
      split at first
      · next n next answered =>
        obtain ⟨rfl, -⟩ := writeWith_ok listed source found answered
        rw [writeAll_whole filled answered] at done
        obtain ⟨-, rfl⟩ := Prod.mk.inj (Option.some.inj done)
        have whole := single _ _ _ _ answered
        rwa [List.take_length] at whole
      · cases first
      · cases first
  · exact ⟨_, by
      rw [Disk.writeWith_eq (valid_of_listed listed) listed source allowed]
      simp only [Volume.fatfsWriteWith, found]
      rfl⟩

/-- A volume with the file `log` of three bytes, which descriptor 3 has open at its end. -/
def logDisk : Disk String where
  fdTable := [some ⟨OpenMode.RDWR, .fatFS 0⟩]
  volume := ⟨[some ⟨"log", 3⟩], Function.update (fun _ => none) "log" (some [1, 2, 3])⟩

theorem acknowledged_write_log :
    logDisk.writeWith debug (fun _ => 0) .ok 3 [7, 8] =
      some (.ok 2, ⟨logDisk.fdTable, (logDisk.volume.fatfsWriteWith .ok 0 [7, 8]).2⟩) ∧
    Stored logDisk ⟨logDisk.fdTable, (logDisk.volume.fatfsWriteWith .ok 0 [7, 8]).2⟩ 0 ⟨"log", 3⟩
      [7, 8] :=
  ⟨rfl, ((acknowledged_write_iff debug (fun _ => 0) logDisk 3 0 ⟨OpenMode.RDWR, .fatFS 0⟩ ⟨"log", 3⟩
    [1, 2, 3]
    rfl rfl rfl rfl).1 .ok [7, 8] 2 _ rfl).mpr trivial⟩

/-- The image is full after the first byte: `write` and `write_all` report success. -/
theorem full_write_acknowledged :
    ∃ t,
    logDisk.writeWith debug (fun _ => 0) (.writeAllErr "no space" 1) 3 [7, 8] = some (.ok 2, t) ∧
    writeAll debug (fun _ => 0) (fun _ => .writeAllErr "no space" 1) 0 3 [7, 8] logDisk =
      some (.ok (), t) ∧
    t.volume.files "log" = some [1, 2, 3, 7] ∧ ¬ Stored logDisk t 0 ⟨"log", 3⟩ [7, 8] := by
  exact ⟨⟨logDisk.fdTable, (logDisk.volume.fatfsWriteWith (.writeAllErr "no space" 1) 0 [7, 8]).2⟩,
    rfl,
    writeAll_whole (by decide) rfl, rfl, fun stored => absurd stored.position (by decide)⟩

section Reads
variable {Name : Type} (b : Build) (p : ReadPattern)

/-- The loop of `Read::read_to_end`, with a bound on its iterations: the buffer of 1024 bytes keeps
what earlier reads left in it. The result comes with the number of the next call of the crate. -/
def readToEndLoop (fd : Fd) :
    Nat → (size : Nat) → (buffer buf : List UInt8) → (call : Nat) → Disk Name →
    Option (Except FdtabError Nat × List UInt8 × Disk Name × Nat)
  | 0, _, _, _, _, _ => none
  | fuel + 1, size, buffer, buf, call, s =>
    match s.readWith b p call fd buffer.length with
    | some (.ok n, data, s, call) =>
      let buffer := data ++ buffer.drop data.length
      if n = 0 then some (.ok size, buf, s, call)
      else readToEndLoop fd fuel (size + n) buffer (buf ++ buffer.take n) call s
    | some (.error e, _, s, call) => some (.error e, buf, s, call)
    | none => none

def readToEnd (fd : Fd) (fuel : Nat) (buf : List UInt8) (call : Nat) (s : Disk Name) :
    Option (Except FdtabError Nat × List UInt8 × Disk Name × Nat) :=
  readToEndLoop b p fd fuel 0 (List.replicate 1024 0) buf call s

/-- `Read::read_to_string`; the text replaces what the string held. -/
def readToString (fd : Fd) (fuel : Nat) (buf : String) (call : Nat) (s : Disk Name) :
    Option (Except FdtabError Nat × String × Disk Name × Nat) :=
  match readToEnd b p fd fuel [] call s with
  | some (.ok _, bytes, s, call) =>
    some (.ok (Utf8.fromUtf8Lossy bytes).utf8ByteSize, Utf8.fromUtf8Lossy bytes, s, call)
  | some (.error e, _, s, call) => some (.error e, buf, s, call)
  | none => none

/-- A descriptor that a file can be read through, with the open file of the crate. -/
structure Reading (s : Disk Name) (fd rawFd : Fd) (file : Fdtab.File) (opened : Opened Name) :
    Prop where
  listed : s.fdTable.files fd.toNat = some file
  source : file.src = .fatFS rawFd
  allowed : file.canRead = true
  found : slot s.volume.table rawFd.toNat = some opened

variable {b p} {s : Disk Name} {fd rawFd : Fd} {file : Fdtab.File} {opened : Opened Name}

/-- The bytes from the position to the end of the file. -/
def remaining (s : Disk Name) (opened : Opened Name) : List UInt8 :=
  (s.volume.content opened.name).drop opened.cursor

/-- The disk after a read of so many bytes. -/
def moved (s : Disk Name) (rawFd : Fd) (opened : Opened Name) (n : Nat) : Disk Name :=
  ⟨s.fdTable,
    { s.volume with
      table := s.volume.table.set rawFd.toNat (some { opened with cursor := opened.cursor + n }) }⟩

theorem Reading.read (reading : Reading s fd rawFd file opened) (call len : Nat) : ∃ next,
    s.readWith b p call fd len =
      some (.ok ((remaining s opened).take len).length, (remaining s opened).take len,
      moved s rawFd opened ((remaining s opened).take len).length, next) := by
  obtain ⟨next, answered⟩ := s.volume.fatfsReadWith_eq p call reading.found len
  refine ⟨next, ?_⟩
  rw [Disk.readWith_eq (valid_of_listed reading.listed) reading.listed reading.source
    reading.allowed, answered]
  rfl

theorem Reading.moved (reading : Reading s fd rawFd file opened) (n : Nat) :
    Reading (moved s rawFd opened n) fd rawFd file { opened with cursor := opened.cursor + n } := by
  have inside := lt_length_of_slot (reading.found ▸ Option.some_ne_none opened)
  refine ⟨reading.listed, reading.source, reading.allowed, ?_⟩
  simp only [Io.moved, slot_set inside, Function.update_self]

theorem remaining_moved (s : Disk Name) (rawFd : Fd) (opened : Opened Name) (n : Nat) :
    remaining (moved s rawFd opened n) { opened with cursor := opened.cursor + n } =
      (remaining s opened).drop n := by
  rw [remaining, remaining, List.drop_drop]
  rfl

/-- What is left of the file is appended, whatever the reads bring at a time and whatever the
buffer held; each iteration but the last takes at least one byte. -/
theorem Reading.readToEndLoop (reading : Reading s fd rawFd file opened) (size : Nat)
    (buffer buf : List UInt8) (call : Nat) (room : buffer ≠ []) :
    ∃ t next,
      Reading t fd rawFd file
        { opened with cursor := opened.cursor + (remaining s opened).length } ∧
      t.volume.files = s.volume.files ∧
      ∀ fuel, (remaining s opened).length < fuel →
        readToEndLoop b p fd fuel size buffer buf call s =
        some (.ok (size + (remaining s opened).length), buf ++ remaining s opened, t, next) := by
  induction left : (remaining s opened).length using Nat.strongRecOn generalizing s opened size
    buffer buf call with
  | _ n ih =>
    subst left
    obtain ⟨next, answered⟩ := reading.read (b := b) (p := p) call buffer.length
    by_cases ended : remaining s opened = []
    · rw [ended] at answered ⊢
      refine ⟨_, next, reading.moved 0, rfl, fun fuel enough => ?_⟩
      obtain ⟨fuel, rfl⟩ := Nat.exists_eq_add_of_lt enough
      rw [Io.readToEndLoop, answered]
      simp only [List.take_nil, List.length_nil, if_true, Nat.add_zero, List.append_nil]
    · have some := List.length_pos_iff.mpr ended
      have space := List.length_pos_iff.mpr room
      have front := List.take_prefix buffer.length (remaining s opened)
      have joined := List.prefix_iff_eq_append.mp front
      generalize chunk : (remaining s opened).take buffer.length = data at answered joined
      have taken : 0 < data.length := by
        rw [← chunk, List.length_take]
        omega
      have total := congrArg List.length joined
      rw [List.length_append] at total
      have rest := remaining_moved s rawFd opened data.length
      obtain ⟨t, last, reading', files, run⟩ :=
        ih ((remaining s opened).drop data.length).length (by omega) (reading.moved data.length)
        (size + data.length) (data ++ buffer.drop data.length) (buf ++ data) next
        (List.append_ne_nil_of_left_ne_nil (List.length_pos_iff.mp taken) _) (by rw [rest])
      rw [Nat.add_assoc, total] at reading'
      refine ⟨t, last, reading', files, fun fuel enough => ?_⟩
      obtain ⟨fuel, rfl⟩ := Nat.exists_eq_add_of_lt enough
      have done := run ((remaining s opened).length + fuel) (by omega)
      rw [rest, List.append_assoc, joined, Nat.add_assoc, total] at done
      rw [Io.readToEndLoop, answered]
      simp only [if_neg (Nat.pos_iff_ne_zero.mp taken), List.take_left, done]

end Reads

/-- Whole-file reads, for every pattern of short reads of the crate's file: enough iterations end
the loop with the bytes from the position to the end appended, and the position at the end. -/
theorem readToEnd_whole {Name : Type} (b : Build) (p : ReadPattern) (s : Disk Name)
    (fd rawFd : Fd) (file : Fdtab.File) (opened : Opened Name)
    (reading : Reading s fd rawFd file opened) (call : Nat) :
    (∀ buf, ∃ t next, t.volume.files = s.volume.files ∧
      Reading t fd rawFd file
        { opened with cursor := opened.cursor + (remaining s opened).length } ∧
      ∀ fuel, (remaining s opened).length < fuel → readToEnd b p fd fuel buf call s =
        some (.ok (remaining s opened).length, buf ++ remaining s opened, t, next)) ∧
    (∀ text buf, remaining s opened = Utf8.encode text → ∃ t next, t.volume.files = s.volume.files ∧
      ∀ fuel, (remaining s opened).length < fuel → readToString b p fd fuel buf call s =
        some (.ok text.utf8ByteSize, text, t, next)) := by
  have room : List.replicate 1024 (0 : UInt8) ≠ [] :=
    List.ne_nil_of_length_pos (by rw [List.length_replicate]; omega)
  have whole :=
    fun buf => reading.readToEndLoop (b := b) (p := p) 0 (List.replicate 1024 0) buf call room
  constructor
  · intro buf
    obtain ⟨t, next, reading', files, run⟩ := whole buf
    refine ⟨t, next, files, reading', fun fuel enough => ?_⟩
    rw [readToEnd, run fuel enough, Nat.zero_add]
  · intro text buf valid
    obtain ⟨t, next, _, files, run⟩ := whole []
    refine ⟨t, next, files, fun fuel enough => ?_⟩
    rw [readToString, readToEnd, run fuel enough, List.nil_append, valid]
    simp only [Utf8.fromUtf8Lossy_encode]

/-- Reads of one byte at a time. -/
def bytewise : ReadPattern where
  count _ requested left := min 1 (min requested left)
  positive _ _ _ asked there := Nat.lt_min.mpr ⟨Nat.one_pos, Nat.lt_min.mpr ⟨asked, there⟩⟩
  most _ _ _ := Nat.min_le_right _ _

/-- Descriptor 3 reads the file `hello` from its first byte. -/
def helloDisk : Disk String where
  fdTable := [some ⟨OpenMode.RD, .fatFS 0⟩]
  volume :=
    ⟨[some ⟨"hello", 0⟩], Function.update (fun _ => none) "hello" (some (Utf8.encode "héllo"))⟩

theorem readToEnd_whole_hello :
    ∃ t next, readToString debug bytewise 3 7 "" 0 helloDisk = some (.ok 6, "héllo", t, next) := by
  obtain ⟨t, next, _, run⟩ :=
    (readToEnd_whole debug bytewise helloDisk 3 0 ⟨OpenMode.RD, .fatFS 0⟩ ⟨"hello", 0⟩
    ⟨rfl, rfl, rfl, rfl⟩ 0).2 "héllo" "" rfl
  exact ⟨t, next, run 7 (by decide)⟩

end AlloyStack.AsStd.Io
