import AlloyStack.AsStd.File

/-! File-based data buffers. Dropping a `DataBuffer` writes its JSON text over the file of its slot,
which `create` does not truncate, and `from_buffer_slot` reads the whole file back. -/
namespace AlloyStack.AsStd
open Rust SlotTable AlloyStack.Fdtab AlloyStack.Fatfs

/-- The bytes that JSON allows around a value. -/
def isBlank (byte : UInt8) : Bool := byte == 32 || byte == 9 || byte == 10 || byte == 13

/-- serde_json at one type: a text is read back as the value it was written for, also when blanks
follow it. -/
structure Codec (T : Type) where
  toString : T → List UInt8
  fromSlice : List UInt8 → Option T
  accepts : ∀ v rest, rest.all isBlank = true → fromSlice (toString v ++ rest) = some v

/-- A text is rejected when anything but blanks follows it. Bare numbers do not have this, since a
digit behind a number is part of it. -/
def Codec.RejectsTrailing (codec : Codec T) : Prop :=
  ∀ v rest, rest.all isBlank = false → codec.fromSlice (codec.toString v ++ rest) = none

structure DataBuffer (T : Type) where
  inner : T
  slot : String
  used : Bool

def DataBuffer.withSlot [Inhabited T] (slot : String) : DataBuffer T := ⟨default, slot, false⟩

/-- The name of the file of a slot. -/
def imd (slot : String) : String := slot ++ ".imd"

section Operations
variable {Name : Type} [DecidableEq Name] {T : Type}
variable (b : Build) (resolve : String → Option Name) (stdout : List UInt8 → Size)

/-- The file of a slot is created or opened, written from its beginning, and closed. -/
def writeImd (space : Space) (slot : String) (text : List UInt8) (s : Disk Name) :
    Option (Disk Name) :=
  match File.create b resolve stdout space (imd slot) s with
  | some (.ok fd, s) =>
    match writeAll b resolve stdout space fd text s with
    | some (.ok (), s) => File.drop b resolve stdout space fd s
    | _ => none
  | _ => none

/-- `Drop for DataBuffer`. -/
def DataBuffer.drop (codec : Codec T) (space : Space) (d : DataBuffer T) (s : Disk Name) :
    Option (Disk Name) :=
  if d.used then some s else writeImd b resolve stdout space d.slot (codec.toString d.inner) s

/-- `from_buffer_slot`, with a bound on the iterations of `read_to_end`. -/
def fromBufferSlot (codec : Codec T) (fuel : Nat) (space : Space) (slot : String) (s : Disk Name) :
    Option (Option (DataBuffer T) × Disk Name) :=
  match File.open b resolve stdout space (imd slot) s with
  | some (.ok fd, s) =>
    match readToEnd b resolve stdout space fd fuel [] s with
    | some (.ok buffer, s) =>
      match codec.fromSlice buffer with
      | some inner =>
        (File.drop b resolve stdout space fd s).map fun s => (some ⟨inner, slot, true⟩, s)
      | none => none
    | _ => none
  | some (.error _, s) => some (none, s)
  | none => none

/-- One earlier buffer: its slot, its text, and what the volume had left for it. -/
structure Production where
  slot : String
  text : List UInt8
  space : Space

def produceAll : List Production → Disk Name → Option (Disk Name)
  | [], s => some s
  | p :: rest, s => (writeImd b resolve stdout p.space p.slot p.text s).bind (produceAll rest)

/-- A buffer with the value is dropped, and `from_buffer_slot` then returns the value. -/
def RoundTrips (codec : Codec T) (space : Space) (slot : String) (v : T) (s : Disk Name) : Prop :=
  ∃ t, DataBuffer.drop b resolve stdout codec space ⟨v, slot, false⟩ s = some t ∧
    ∃ enough, ∀ fuel, enough ≤ fuel →
    ∃ t', fromBufferSlot b resolve stdout codec fuel space slot t = some (some ⟨v, slot, true⟩, t')

end Operations

section Specifications
variable {Name : Type} [DecidableEq Name] {T : Type}
variable {b : Build} {resolve : String → Option Name} {stdout : List UInt8 → Size}
variable {s t : Disk Name} {space : Space} {slot : String} {name : Name} {text : List UInt8}
  {codec : Codec T}

theorem handle_own (small : n < 2 ^ 32) : (UInt32.ofNat n).toNat = n :=
  UInt32.toNat_ofNat_of_lt' small

theorem handle_stray (large : 2 ^ 32 ≤ n) : (UInt32.ofNat n).toNat ≠ n := by
  have := (UInt32.ofNat n).toNat_lt
  omega

variable (b stdout text) in
theorem writeImd_available (idle : Idle s) (named : resolve (imd slot) = some name)
    (available : Available s O_CREAT space name) (small : s.volume.table.length < 2 ^ 32) :
    ∃ t, writeImd b resolve stdout space slot text s = some t ∧ Idle t ∧
      t.volume.table.length = s.volume.table.length + 1 ∧
      t.volume.files = Function.update s.volume.files name
        (some (writeAt (s.volume.content name) 0 (text.take space.bytes))) := by
  obtain ⟨fd, s₁, created, held₁, length₁, files₁⟩ :=
    openWith_available b stdout OpenMode.RDWR idle named available
  have own := handle_own small
  have content : s₁.volume.files name = some (s.volume.content name) := by
    rw [files₁, Function.update_self]
  obtain ⟨s₂, written, held₂, length₂, files₂⟩ :=
    held₁.write b resolve stdout space own (rdwr_canWrite _) content text
  obtain ⟨t, dropped, idle', length₃, files₃⟩ := held₂.drop b resolve stdout space own
  refine ⟨t, ?_, idle', ?_, ?_⟩
  · simp only [writeImd, File.create, created, written, dropped]
  · rw [length₃, length₂, length₁]
  · rw [files₃, files₂, files₁, Function.update_idem]

theorem writeImd_some (idle : Idle s) (run : writeImd b resolve stdout space slot text s = some t) :
    ∃ name, resolve (imd slot) = some name ∧ Available s O_CREAT space name ∧
      s.volume.table.length < 2 ^ 32 := by
  unfold writeImd File.create at run
  by_cases available : ∃ name, resolve (imd slot) = some name ∧ Available s O_CREAT space name
  · obtain ⟨name, named, available⟩ := available
    refine ⟨name, named, available, ?_⟩
    by_contra large
    obtain ⟨fd, s₁, created, held, _⟩ :=
      openWith_available b stdout OpenMode.RDWR idle named available
    have stray := handle_stray (Nat.le_of_not_lt large)
    simp only [created] at run
    split at run
    · rename_i s₂ written
      obtain rfl := held.write_stray stray (rdwr_canWrite _) written
      rw [held.drop_stray b resolve stdout space stray] at run
      nomatch run
    · nomatch run
  · have unavailable (name : Name)
        (named : resolve (imd slot) = some name) : ¬ Available s O_CREAT space name :=
      fun there => available ⟨name, named, there⟩
    simp [openWith_unavailable unavailable] at run

omit [DecidableEq Name] in
theorem available_open : Available s 0 space name ↔ (s.volume.files name).isSome = true := by
  simp [Available, O_CREAT]

theorem fromBufferSlot_missing
    (missing : ∀ name, resolve (imd slot) = some name → s.volume.files name = none) :
    fromBufferSlot b resolve stdout codec fuel space slot s = some (none, s) := by
  have unavailable (name : Name)
      (named : resolve (imd slot) = some name) : ¬ Available s 0 space name := by
    rw [available_open, missing name named]
    nofun
  simp only [fromBufferSlot, File.open, openWith_unavailable unavailable]

variable (b stdout space codec) in
theorem fromBufferSlot_found (idle : Idle s) (named : resolve (imd slot) = some name)
    (found : s.volume.files name = some content) (small : s.volume.table.length < 2 ^ 32) :
    ∃ t, Idle t ∧ t.volume.table.length = s.volume.table.length + 1 ∧
      t.volume.files = s.volume.files ∧
      ∀ fuel, content.length < fuel → fromBufferSlot b resolve stdout codec fuel space slot s =
        (codec.fromSlice content).map fun inner => (some ⟨inner, slot, true⟩, t) := by
  have available : Available s 0 space name := available_open.mpr (by simp [found])
  obtain ⟨fd, s₁, opened, held₁, length₁, files₁⟩ :=
    openWith_available b stdout OpenMode.RD idle named available
  have own := handle_own small
  have same : s₁.volume.files = s.volume.files := by
    rw [files₁, Function.update_eq_self_iff, found, Volume.content, found, Option.getD_some]
  have remaining : (s₁.volume.content name).drop 0 = content := by
    rw [Volume.content, same, found, Option.getD_some, List.drop_zero]
  obtain ⟨s₂, file, read, held₂, length₂, files₂⟩ :=
    held₁.readToEnd b resolve stdout space own (rd_canRead _) remaining []
  obtain ⟨t, dropped, idle', length₃, files₃⟩ := held₂.drop b resolve stdout space own
  refine ⟨t, idle', by omega, by rw [files₃, files₂, same], fun fuel enough => ?_⟩
  simp only [fromBufferSlot, File.open, opened, read fuel enough, List.nil_append, dropped]
  cases codec.fromSlice content <;> rfl

theorem fromBufferSlot_stray (idle : Idle s) (named : resolve (imd slot) = some name)
    (found : s.volume.files name = some content) (large : 2 ^ 32 ≤ s.volume.table.length) :
    fromBufferSlot b resolve stdout codec fuel space slot s = none := by
  have available : Available s 0 space name := available_open.mpr (by simp [found])
  obtain ⟨fd, s₁, opened, held, _⟩ := openWith_available b stdout OpenMode.RD idle named available
  simp only [fromBufferSlot, File.open, opened]
  split
  · rename_i read
    exact absurd read (held.readToEnd_stray (handle_stray large) (rd_canRead _))
  · rfl

theorem writeAt_zero (content data : List UInt8) :
    writeAt content 0 data = data ++ content.drop data.length := by
  simp [writeAt]

variable (b resolve stdout codec) in
/-- A text that fits on the volume is read back as its value if and only if the crate takes the
name, the handles of both files fit into a `u32`, and nothing but blanks is left of the old file. -/
theorem roundTrips_iff (rejects : codec.RejectsTrailing) (idle : Idle s) (v : T)
    (fits : (codec.toString v).length ≤ space.bytes) :
    RoundTrips b resolve stdout codec space slot v s ↔ ∃ name, resolve (imd slot) = some name ∧
      Available s O_CREAT space name ∧ s.volume.table.length + 2 ≤ 2 ^ 32 ∧
      ((s.volume.content name).drop (codec.toString v).length).all isBlank = true := by
  have whole : (codec.toString v).take space.bytes = codec.toString v := List.take_of_length_le fits
  constructor
  · rintro ⟨t, dropped, enough, reads⟩
    simp only [DataBuffer.drop, Bool.false_eq_true, if_false] at dropped
    obtain ⟨name, named, available, small⟩ := writeImd_some idle dropped
    refine ⟨name, named, available, ?_⟩
    obtain ⟨t', run, idle', length, files⟩ :=
      writeImd_available b stdout (codec.toString v) idle named available small
    obtain rfl := Option.some.inj (dropped.symm.trans run)
    rw [whole, writeAt_zero] at files
    set content :=
      codec.toString v ++ (s.volume.content name).drop (codec.toString v).length with written
    have found : t.volume.files name = some content := by rw [files, Function.update_self]
    have room : s.volume.table.length + 2 ≤ 2 ^ 32 := by
      by_contra large
      obtain ⟨t', read⟩ := reads enough (Nat.le_refl _)
      nomatch (fromBufferSlot_stray idle' named found (by omega)).symm.trans read
    refine ⟨room, ?_⟩
    by_contra leftover
    have rejected := rejects v _ (Bool.not_eq_true _ ▸ leftover)
    obtain ⟨t', read⟩ := reads (max enough (content.length + 1)) (Nat.le_max_left ..)
    obtain ⟨_, _, _, _, run⟩ :=
      fromBufferSlot_found b stdout space codec idle' named found (by omega)
    have same := run _ (Nat.lt_of_succ_le (Nat.le_max_right enough (content.length + 1)))
    rw [written, rejected] at same
    nomatch same.symm.trans read
  · rintro ⟨name, named, available, room, blank⟩
    obtain ⟨t, dropped, idle', length, files⟩ :=
      writeImd_available b stdout (codec.toString v) idle named available (by omega)
    rw [whole, writeAt_zero] at files
    have found : t.volume.files name =
        some (codec.toString v ++ (s.volume.content name).drop (codec.toString v).length) := by
      rw [files, Function.update_self]
    obtain ⟨t', _, _, _, run⟩ :=
      fromBufferSlot_found b stdout space codec idle' named found (by omega)
    rw [codec.accepts v _ blank] at run
    exact ⟨t, by simpa [DataBuffer.drop] using dropped, _,
      fun fuel enough => ⟨t', run fuel (Nat.lt_of_succ_le enough)⟩⟩

/-- Every completed buffer takes one handle, and leaves no file open. -/
theorem produceAll_idle (idle : Idle s) (run : produceAll b resolve stdout history s = some t) :
    Idle t ∧ t.volume.table.length = s.volume.table.length + history.length := by
  induction history generalizing s with
  | nil =>
    cases run
    exact ⟨idle, rfl⟩
  | cons p rest ih =>
    obtain ⟨s₁, first, later⟩ := Option.bind_eq_some_iff.mp run
    obtain ⟨name, named, available, small⟩ := writeImd_some idle first
    obtain ⟨s₁', first', idle', length, _⟩ :=
      writeImd_available b stdout p.text idle named available small
    obtain rfl := Option.some.inj (first.symm.trans first')
    obtain ⟨done, total⟩ := ih idle' later
    refine ⟨done, ?_⟩
    rw [total, length, List.length_cons]
    omega

omit [DecidableEq Name] in
theorem idle_mounted (files : Name → Option (List UInt8)) :
    Idle (⟨[], .mounted files⟩ : Disk Name) :=
  ⟨fun n => by simp [FdTable.files], slot_nil⟩

end Specifications

/-- After any buffers on any slots, a buffer whose text fits on the volume is read back as its value
if and only if the crate takes the name of its file, fewer than `2^32 - 1` buffers came before, and
the old file has nothing but blanks beyond the length of the new text. -/
theorem round_trip_iff {Name : Type} [DecidableEq Name] {T : Type} (b : Build)
    (resolve : String → Option Name) (stdout : List UInt8 → Size) (codec : Codec T)
    (rejects : codec.RejectsTrailing) (files : Name → Option (List UInt8))
    (history : List Production) (s : Disk Name)
    (earlier : produceAll b resolve stdout history ⟨[], .mounted files⟩ = some s) (slot : String)
    (v : T) (space : Space) (fits : (codec.toString v).length ≤ space.bytes) :
    RoundTrips b resolve stdout codec space slot v s ↔ ∃ name, resolve (imd slot) = some name ∧
      Available s O_CREAT space name ∧ history.length + 2 ≤ 2 ^ 32 ∧
      ((s.volume.content name).drop (codec.toString v).length).all isBlank = true := by
  obtain ⟨idle, length⟩ := produceAll_idle (idle_mounted files) earlier
  have opened : s.volume.table.length = history.length := by simpa [Volume.mounted] using length
  rw [← opened]
  exact roundTrips_iff b resolve stdout codec rejects idle v fits

/-- A struct with one field `ok` that derives `FaasData`. -/
structure Flag where
  ok : Bool
  deriving DecidableEq, Inhabited

/-- serde_json at the struct; the texts are an object with `"ok":true` or `"ok":false`. -/
def flagCodec : Codec Flag where
  toString
    | ⟨true⟩ => [123, 34, 111, 107, 34, 58, 116, 114, 117, 101, 125]
    | ⟨false⟩ => [123, 34, 111, 107, 34, 58, 102, 97, 108, 115, 101, 125]
  fromSlice bytes :=
    match bytes.dropWhile isBlank with
    | 123 :: 34 :: 111 :: 107 :: 34 :: 58 :: 116 :: 114 :: 117 :: 101 :: 125 :: rest =>
      if rest.all isBlank then some ⟨true⟩ else none
    | 123 :: 34 :: 111 :: 107 :: 34 :: 58 :: 102 :: 97 :: 108 :: 115 :: 101 :: 125 :: rest =>
      if rest.all isBlank then some ⟨false⟩ else none
    | _ => none
  accepts v rest blank := by
    obtain ⟨ok⟩ := v
    cases ok <;> simp [isBlank, blank]

theorem flagCodec_rejects : flagCodec.RejectsTrailing := by
  rintro ⟨ok⟩ rest other
  have brace : isBlank 123 = false := rfl
  cases ok <;> simp only [flagCodec, List.cons_append, List.nil_append, List.dropWhile_cons, brace,
    Bool.false_eq_true, if_false, other]

def roomy : Space := ⟨true, 2 ^ 20⟩

/-- An empty volume that takes every name. -/
def emptyDisk : Disk String := ⟨[], .mounted fun _ => none⟩

theorem available_roomy (s : Disk String) (name : String) : Available s O_CREAT roomy name :=
  .inr (by decide)

theorem produce_once (text : List UInt8) (short : text.length ≤ roomy.bytes) :
    ∃ s,
    produceAll debug some (fun _ => 0) [⟨"out", text, roomy⟩] emptyDisk = some s ∧ Idle s ∧
      s.volume.content "out.imd" = text := by
  obtain ⟨s, run, idle, _, files⟩ :=
    writeImd_available (s := emptyDisk) debug (fun _ => 0) text (idle_mounted _)
    (show some (imd "out") = some "out.imd" from rfl) (available_roomy ..)
      (show 0 < 2 ^ 32 by decide)
  refine ⟨s, by simp [produceAll, run], idle, ?_⟩
  rw [Volume.content, files, Function.update_self, List.take_of_length_le short, Option.getD_some,
    writeAt_zero]
  simp [Volume.content, emptyDisk, Volume.mounted]

/-- A longer text covers the old one. -/
theorem longer_round_trips :
    ∃ s, produceAll debug some (fun _ => 0) [⟨"out", flagCodec.toString ⟨true⟩, roomy⟩] emptyDisk =
      some s ∧
    RoundTrips debug some (fun _ => 0) flagCodec roomy "out" ⟨false⟩ s := by
  obtain ⟨s, run, _, content⟩ := produce_once (flagCodec.toString ⟨true⟩) (by decide)
  refine ⟨s, run, (round_trip_iff debug some _ flagCodec flagCodec_rejects _ _ s run "out" ⟨false⟩
    roomy (by decide)).mpr ?_⟩
  exact ⟨"out.imd", rfl, available_roomy .., by decide, by rw [content]; rfl⟩

/-- The text of `true` over that of `false` leaves a closing brace behind it, and `from_buffer_slot`
panics. -/
theorem shorter_not_read_back :
    ¬ ∀ (T : Type) (codec : Codec T) (history : List Production) (s : Disk String),
    codec.RejectsTrailing → produceAll debug some (fun _ => 0) history emptyDisk = some s →
      ∀ slot v (space : Space),
      (codec.toString v).length ≤ space.bytes →
        RoundTrips debug some (fun _ => 0) codec space slot v s := by
  intro all
  obtain ⟨s, run, idle, content⟩ := produce_once (flagCodec.toString ⟨false⟩) (by decide)
  have trips := all Flag flagCodec _ s flagCodec_rejects run "out" ⟨true⟩ roomy (by decide)
  obtain ⟨name, named, _, _, blank⟩ :=
    (roundTrips_iff debug some _ flagCodec flagCodec_rejects idle ⟨true⟩ (by decide)).mp trips
  obtain rfl : name = "out.imd" := (Option.some.inj named).symm
  rw [content] at blank
  nomatch blank

end AlloyStack.AsStd
