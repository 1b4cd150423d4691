import AlloyStack.Wasi.Imports

/-! Listing a directory with `fd_readdir`. The records of all entries are one stream of bytes, and a
call stores the front of what follows the cookie. -/
namespace AlloyStack.Wasi
open Rust LinearMemory LittleEndian

section Stream
variable (padding : Nat → UInt8)

/-- The records of the entries after a cookie. -/
def stream : (cookie : Nat) → List DirEntry → Bytes
  | _, [] => []
  | cookie, item :: items =>
    dirent padding ((cookie + 1) % word) item ++ item.entryName ++
      stream ((cookie + 1) % word) items

/-- No length that is compared with the length of the buffer overflows. -/
def NoWrap (bufLen : Nat) : (used : Nat) → List DirEntry → Prop
  | _, [] => True
  | used, item :: items => used + direntSize + item.entryName.length < 2 ^ 32 ∧
    (used + direntSize + item.entryName.length ≤ bufLen →
      NoWrap bufLen (used + direntSize + item.entryName.length) items)

@[simp]
theorem dirent_length (next : Nat) (item : DirEntry) :
    (dirent padding next item).length = direntSize := by
  simp [dirent, pad, direntSize]

variable {padding} {b : Build} {items : List DirEntry}

theorem add32_eq_some (sum : b.add32 x y = some z) : z = (x + y) % 2 ^ 32 := by
  unfold Build.add32 at sum
  split at sum
  · cases sum
  · exact (Option.some.inj sum).symm

/-- One record of the buffer is what two writes have stored. -/
theorem store_record (fits : start + direntSize + item.entryName.length ≤ memory.length)
    (place : item.entryName ≠ [] → curBuf = start + direntSize)
    (first : write memory start (dirent padding cookie item) = some memory₁)
    (second : write memory₁ curBuf item.entryName = some memory₂) :
    memory₂ = store memory start (dirent padding cookie item ++ item.entryName) := by
  obtain ⟨-, rfl⟩ := write_eq_some.mp first
  obtain ⟨-, rfl⟩ := write_eq_some.mp second
  rw [store_append _ _ (by simpa using fits), dirent_length]
  by_cases empty : item.entryName = []
  · rw [empty, store_nil, store_nil]
  · rw [place empty]

theorem record_length (cookie : Nat) (item : DirEntry) :
    (dirent padding cookie item ++ item.entryName).length = direntSize + item.entryName.length := by
  simp

/-- The front of the stream that ends in its first record. -/
theorem stream_take_first (short : n ≤ direntSize + item.entryName.length) :
    (stream padding cookie (item :: items)).take n =
      (dirent padding ((cookie + 1) % word) item ++ item.entryName).take n := by
  rw [stream, List.take_append_of_le_length (by rwa [record_length])]

/-- The front of the stream that has its first record whole. -/
theorem stream_take_rest (long : direntSize + item.entryName.length ≤ n) :
    (stream padding cookie (item :: items)).take n = dirent padding ((cookie + 1) % word) item ++
      item.entryName ++
      (stream padding ((cookie + 1) % word) items).take
        (n - (direntSize + item.entryName.length)) := by
  rw [stream, List.take_append, List.take_of_length_le (by rwa [record_length]), record_length]

/-- A loop that returns has stored the front of the stream. -/
theorem putEntries_spec
    (ran : putEntries b padding bufLen items cookie curBuf used memory = some (used', memory'))
    (within : used ≤ bufLen) (place : used < bufLen → curBuf = buf + used)
    (fits : buf + bufLen ≤ memory.length) (addressed : memory.length ≤ 2 ^ 32)
    (noWrap : NoWrap bufLen used items) :
    used' = used + ((stream padding cookie items).take (bufLen - used)).length ∧
      memory' = store memory (buf + used) ((stream padding cookie items).take (bufLen - used)) := by
  induction items generalizing cookie curBuf used memory with
  | nil =>
    obtain ⟨rfl, rfl⟩ : used = used' ∧ memory = memory' := by simpa [putEntries] using ran
    simp [stream, store_nil]
  | cons item items ih =>
    obtain ⟨small, rest⟩ := noWrap
    simp only [putEntries, Option.bind_eq_bind, Option.bind_eq_some_iff] at ran
    obtain ⟨next, counted, headed, sum₁, named, sum₂, ran⟩ := ran
    obtain rfl := Build.add_eq_some counted
    rw [Nat.mod_eq_of_lt (by omega : item.entryName.length < 2 ^ 32)] at sum₂ ran
    obtain rfl : headed = used + direntSize := by
      rw [add32_eq_some sum₁, Nat.mod_eq_of_lt (by omega)]
    obtain rfl : named = used + direntSize + item.entryName.length := by
      rw [add32_eq_some sum₂, Nat.mod_eq_of_lt small]
    split at ran
    next beyond =>
      split at ran
      · cases ran
      · simp only [Option.bind_eq_some_iff, Option.some.injEq, Prod.mk.injEq] at ran
        obtain ⟨memory₁, written, rfl, rfl⟩ := ran
        obtain ⟨-, rfl⟩ := write_eq_some.mp written
        rw [stream_take_first (by omega), List.length_take, record_length]
        refine ⟨by omega, ?_⟩
        by_cases full : used < bufLen
        · rw [place full]
        · rw [Nat.sub_eq_zero_of_le (by omega), List.take_zero, store_nil, store_nil]
    next fitting =>
      simp only [Option.bind_eq_some_iff] at ran
      obtain ⟨memory₁, first, curBuf₁, sum₃, memory₂, second, curBuf₂, sum₄, ran⟩ := ran
      have header : 0 < direntSize := by decide
      obtain rfl := place (by omega)
      obtain rfl := add32_eq_some sum₃
      obtain rfl := add32_eq_some sum₄
      have stored := store_record (by omega) (by
        intro nonempty
        have := List.length_pos_iff.mpr nonempty
        exact Nat.mod_eq_of_lt (by omega)) first second
      have length : memory₂.length = memory.length := by
        rw [stored, store_length (by rw [record_length]; omega)]
      obtain ⟨total, kept⟩ := ih ran (by omega) (by
        intro more
        rw [Nat.mod_add_mod, Nat.mod_eq_of_lt (by omega)]
        omega) (by omega) (by omega) (rest (by omega))
      have left : bufLen - used - (direntSize + item.entryName.length) =
          bufLen - (used + direntSize + item.entryName.length) := by omega
      rw [stream_take_rest (by omega), left, List.length_append, record_length]
      refine ⟨by omega, ?_⟩
      rw [store_append _ _ (by rw [record_length, List.length_take]; omega), record_length, kept,
        stored]
      congr 1
      omega

theorem write_length (written : write memory offset buffer = some memory') :
    memory'.length = memory.length := by
  obtain ⟨fits, rfl⟩ := write_eq_some.mp written
  exact store_length fits

theorem putEntries_length
    (ran : putEntries b padding bufLen items cookie curBuf used memory = some (used', memory')) :
    memory'.length = memory.length := by
  induction items generalizing cookie curBuf used memory with
  | nil =>
    obtain ⟨-, rfl⟩ : used = used' ∧ memory = memory' := by simpa [putEntries] using ran
    rfl
  | cons item items ih =>
    simp only [putEntries, Option.bind_eq_bind, Option.bind_eq_some_iff] at ran
    obtain ⟨next, -, headed, -, named, -, ran⟩ := ran
    split at ran
    · split at ran
      · cases ran
      · simp only [Option.bind_eq_some_iff, Option.some.injEq, Prod.mk.injEq] at ran
        obtain ⟨memory₁, written, -, rfl⟩ := ran
        exact write_length written
    · simp only [Option.bind_eq_some_iff] at ran
      obtain ⟨memory₁, first, curBuf₁, -, memory₂, second, curBuf₂, -, rest⟩ := ran
      exact (ih rest).trans ((write_length second).trans (write_length first))

/-- A buffer that ends below 4 GiB is filled without a panic. -/
theorem putEntries_returns (within : used ≤ bufLen) (fits : buf + bufLen ≤ memory.length)
    (below : buf + bufLen < 2 ^ 32) (noWrap : NoWrap bufLen used items)
    (few : cookie + items.length < word) :
    ∃ result, putEntries b padding bufLen items cookie (buf + used) used memory = some result := by
  induction items generalizing cookie used memory with
  | nil => exact ⟨_, rfl⟩
  | cons item items ih =>
    obtain ⟨small, rest⟩ := noWrap
    rw [List.length_cons] at few
    have next : b.add cookie 1 = some (cookie + 1) := b.add_eq (by omega)
    have headed : b.add32 used direntSize = some (used + direntSize) := b.add32_eq (by omega)
    have named : b.add32 (used + direntSize) item.entryName.length =
        some (used + direntSize + item.entryName.length) :=
      b.add32_eq small
    have record : (dirent padding (cookie + 1) item ++ item.entryName).length =
        direntSize + item.entryName.length := by
      simp
    rw [putEntries, Nat.mod_eq_of_lt (by omega : item.entryName.length < 2 ^ 32)]
    simp only [Option.bind_eq_bind, next, headed, named, Option.bind_some]
    by_cases fitting : used + direntSize + item.entryName.length ≤ bufLen
    · have moved : b.add32 (buf + used) direntSize = some (buf + used + direntSize) :=
        b.add32_eq (by omega)
      have moved' : b.add32 (buf + used + direntSize) item.entryName.length =
        some (buf + used + direntSize + item.entryName.length) := b.add32_eq (by omega)
      have header : (dirent padding (cookie + 1) item).length = direntSize := dirent_length ..
      have first :=
        write_eq_some.mpr ⟨show buf + used + (dirent padding (cookie + 1) item).length ≤
          memory.length by omega, rfl⟩
      have second := write_eq_some.mpr ⟨show buf + used + direntSize + item.entryName.length ≤
        (store memory (buf + used) (dirent padding (cookie + 1) item)).length by
          rw [store_length (by omega)]; omega, rfl⟩
      rw [if_neg (by omega)]
      simp only [first, moved, second, moved', Option.bind_some]
      have place : buf + used + direntSize + item.entryName.length =
          buf + (used + direntSize + item.entryName.length) := by
        omega
      rw [place]
      refine ih fitting ?_ (rest fitting) (by omega)
      rw [store_length (by rw [store_length (by omega)]; omega), store_length (by omega)]
      exact fits
    · have cut := write_eq_some.mpr ⟨show buf + used +
        ((dirent padding (cookie + 1) item ++ item.entryName).take (bufLen - used)).length ≤
          memory.length by
          rw [List.length_take]; omega, rfl⟩
      rw [if_pos (by omega), if_neg (by omega)]
      exact ⟨_, by rw [cut]; rfl⟩

end Stream

section Records

/-- A record as the guest reads it. -/
structure Record where
  next : Nat
  ino : Nat
  namelen : Nat
  type : UInt8
  name : Bytes
  deriving DecidableEq

/-- The complete records of a buffer. -/
def records (buffer : Bytes) : List Record :=
  let namelen := decode (load buffer 16 4)
  if buffer.length < direntSize + namelen then []
  else
    ⟨decode (load buffer 0 8), decode (load buffer 8 8), namelen, (load buffer 20 1).headD 0,
      load buffer direntSize namelen⟩ ::
      records (buffer.drop (direntSize + namelen))
termination_by buffer.length
decreasing_by
  rename_i complete
  simp only [List.length_drop, direntSize] at complete ⊢
  omega

def record (next : Nat) (item : DirEntry) : Record :=
  ⟨next, 0, item.entryName.length, filetype item.entryType, item.entryName⟩

def recordsFrom : (cookie : Nat) → List DirEntry → List Record
  | _, [] => []
  | cookie, item :: items => record (cookie + 1) item :: recordsFrom (cookie + 1) items

/-- How many records fit into a buffer. -/
def fitting : (room : Nat) → List DirEntry → Nat
  | _, [] => 0
  | room, item :: items =>
    if direntSize + item.entryName.length ≤ room then
      fitting (room - (direntSize + item.entryName.length)) items + 1
    else 0

variable {padding : Nat → UInt8}

theorem records_short (short : buffer.length < direntSize) : records buffer = [] := by
  rw [records]
  exact if_pos (by omega)

/-- The header of a record is read back from any buffer that it starts. -/
theorem load_header (padding : Nat → UInt8) (item : DirEntry) (rest : Bytes) (few : next < 2 ^ 64)
    (short : item.entryName.length < 2 ^ 32) :
    decode (load (dirent padding next item ++ rest) 0 8) = next ∧
      decode (load (dirent padding next item ++ rest) 8 8) = 0 ∧
      decode (load (dirent padding next item ++ rest) 16 4) = item.entryName.length ∧
      load (dirent padding next item ++ rest) 20 1 = [filetype item.entryType] := by
  let last := [filetype item.entryType] ++ (pad padding 3 ++ rest)
  have parts : dirent padding next item ++ rest =
      encode 8 next ++ (encode 8 0 ++ (encode 4 item.entryName.length ++ last)) := by
    simp only [dirent, List.append_assoc, last]
  have width (n value : Nat) : (encode n value).length = n := encode_length n value
  rw [parts]
  refine ⟨?_, ?_, ?_, ?_⟩
  · rw [load_append_left (width 8 next), decode_encode_of_lt (by omega)]
  · have second :=
      load_append_right (width 8 next) (encode 8 0 ++ (encode 4 item.entryName.length ++ last)) 0 8
    rw [second, load_append_left (width 8 0), decode_encode_of_lt (by decide)]
  · have second :=
      load_append_right (width 8 next) (encode 8 0 ++ (encode 4 item.entryName.length ++ last)) 8 4
    have third := load_append_right (width 8 0) (encode 4 item.entryName.length ++ last) 0 4
    rw [second, third, load_append_left (width 4 _), decode_encode_of_lt (by omega)]
  · have second :=
      load_append_right (width 8 next) (encode 8 0 ++ (encode 4 item.entryName.length ++ last)) 12 1
    have third := load_append_right (width 8 0) (encode 4 item.entryName.length ++ last) 4 1
    have fourth := load_append_right (width 4 item.entryName.length) last 0 1
    rw [second, third, fourth]
    rfl

theorem records_cons (item : DirEntry) (rest : Bytes) (few : next < 2 ^ 64)
    (short : item.entryName.length < 2 ^ 32) :
    records (dirent padding next item ++ item.entryName ++ rest) =
      record next item :: records rest := by
  have header := dirent_length padding next item
  obtain ⟨nextRead, inoRead, lengthRead, typeRead⟩ :=
    load_header padding item (item.entryName ++ rest) few short
  have nameRead : load (dirent padding next item ++ (item.entryName ++ rest)) direntSize
      item.entryName.length =
      item.entryName :=
    (load_append_right header (item.entryName ++ rest) 0 _).trans (load_append_left rfl)
  have after : (dirent padding next item ++ (item.entryName ++ rest)).drop
      (direntSize + item.entryName.length) = rest := by
    rw [← List.append_assoc]
    exact List.drop_left' (by simp)
  rw [List.append_assoc, records, lengthRead, if_neg (by simp), nextRead, inoRead, typeRead,
    nameRead, after]
  rfl

theorem records_cut (item : DirEntry) (part : Bytes) (few : next < 2 ^ 64)
    (short : item.entryName.length < 2 ^ 32) (cut : part.length < item.entryName.length) :
    records (dirent padding next item ++ part) = [] := by
  obtain ⟨-, -, lengthRead, -⟩ := load_header padding item part few short
  rw [records, lengthRead, if_pos (by simpa using cut)]

/-- The complete records at the front of the stream are those of the entries that fit. -/
theorem records_stream (items : List DirEntry) (room : Nat) (few : cookie + items.length < 2 ^ 64)
    (short : ∀ item ∈ items, item.entryName.length < 2 ^ 32) :
    records ((stream padding cookie items).take room) =
      recordsFrom cookie (items.take (fitting room items)) := by
  induction items generalizing cookie room with
  | nil =>
    rw [stream, List.take_nil, records_short (by decide)]
    rfl
  | cons item items ih =>
    rw [List.length_cons] at few
    have small := short item (by simp)
    have counted : (cookie + 1) % word = cookie + 1 := Nat.mod_eq_of_lt (by unfold word; omega)
    have width : (dirent padding (cookie + 1) item ++ item.entryName).length =
        direntSize + item.entryName.length := by
      simp
    rw [stream, fitting, counted]
    by_cases fits : direntSize + item.entryName.length ≤ room
    · rw [if_pos fits, List.take_append, List.take_of_length_le (by omega), width,
        List.take_succ_cons, recordsFrom, records_cons item _ (by omega) small,
        ih _ (by omega) fun item member => short item (by simp [member])]
    · rw [if_neg fits, List.take_zero, List.take_append_of_le_length (by omega), recordsFrom]
      by_cases headed : direntSize ≤ room
      · rw [List.take_append, List.take_of_length_le (by simpa using headed), dirent_length]
        exact records_cut item _ (by omega) small (by rw [List.length_take]; omega)
      · exact records_short (by rw [List.length_take]; omega)

end Records

section Iteration
variable {σ : Type}

/-- The entries that the libos lists, as a `Vec`, without the names `.` and `..`. -/
structure Directory where
  entries : List DirEntry
  distinct : (entries.map DirEntry.entryName).Nodup
  undotted : ∀ entry ∈ entries, ∀ dot ∈ dots, entry.entryName ≠ dot.entryName
  bounded : entries.length + 2 < 2 ^ 63

/-- A guest that lists a directory. Its memory and the libos are as they are before each call; the
buffer and the result are apart, where the host can address them, and every record fits. -/
structure Session (h : Host σ) (d : Directory) where
  fd : I32
  buf : I32
  bufLen : I32
  bufused : I32
  world : Nat → World σ
  lists : ∀ i, ∃ path libos, pathOf fd (world i) = some path ∧
    h.readdir path (world i).libos = some (d.entries, libos)
  large : ∀ entry ∈ d.entries ++ dots, direntSize + entry.entryName.length ≤ bufLen.toNat
  short : bufLen.toNat < 2 ^ 31
  placed : ∀ i, buf.toNat + bufLen.toNat ≤ (world i).memory.length
  below : buf.toNat + bufLen.toNat < 2 ^ 32
  counted : ∀ i, bufused.toNat + 4 ≤ (world i).memory.length
  low : bufused.toNat < 2 ^ 31
  apart : buf.toNat + bufLen.toNat ≤ bufused.toNat ∨ bufused.toNat + 4 ≤ buf.toNat
  addressed : ∀ i, (world i).memory.length ≤ 2 ^ 32

variable {h : Host σ} {d : Directory}

/-- The `d_next` of the last complete record. -/
def nextCookie (cookie : UInt64) (received : List Record) : UInt64 :=
  match received.getLast? with
  | some last => .ofNat last.next
  | none => cookie

/-- The records that the guest receives, and whether it has come to the end. -/
def Session.iterate (s : Session h d) : (fuel call : Nat) → UInt64 → Option (List Record × Bool)
  | 0, _, _ => some ([], false)
  | fuel + 1, call, cookie => do
    let (_, w) ← fdReaddir h asUsize s.fd s.buf s.bufLen cookie s.bufused (s.world call)
    let used := decode (load w.memory s.bufused.toNat 4)
    let received := records (load w.memory s.buf.toNat used)
    if used < s.bufLen.toNat then some (received, true)
    else do
      let (later, ended) ← s.iterate fuel (call + 1) (nextCookie cookie received)
      some (received ++ later, ended)

theorem noWrap_of_large (short : bufLen < 2 ^ 31) (within : used ≤ bufLen) (items : List DirEntry)
    (large : ∀ item ∈ items, direntSize + item.entryName.length ≤ bufLen) :
    NoWrap bufLen used items := by
  induction items generalizing used with
  | nil => trivial
  | cons item items ih =>
    have small := large item (by simp)
    exact ⟨by omega, fun fits => ih fits fun item member => large item (by simp [member])⟩

theorem sortedEntries_perm (entries : List DirEntry) :
    (sortedEntries entries).Perm (entries ++ dots) :=
  List.mergeSort_perm ..

/-- What the guest finds after a call: the front of the stream, and its length. -/
theorem Session.call (s : Session h d) (call : Nat) (cookie : UInt64) :
    ∃ w, fdReaddir h asUsize s.fd s.buf s.bufLen cookie s.bufused (s.world call) =
      some (.success, w) ∧
      decode (load w.memory s.bufused.toNat 4) =
        ((stream h.padding cookie.toNat ((sortedEntries d.entries).drop cookie.toNat)).take
          s.bufLen.toNat).length ∧
      load w.memory s.buf.toNat (decode (load w.memory s.bufused.toNat 4)) =
        (stream h.padding cookie.toNat ((sortedEntries d.entries).drop cookie.toNat)).take
          s.bufLen.toNat := by
  obtain ⟨path, libos, opened, listed⟩ := s.lists call
  generalize entries : (sortedEntries d.entries).drop cookie.toNat = items
  have large (item : DirEntry) (member : item ∈ items) : direntSize + item.entryName.length ≤
      s.bufLen.toNat := by
    rw [← entries] at member
    exact s.large item ((sortedEntries_perm _).mem_iff.mp (List.mem_of_mem_drop member))
  have few : cookie.toNat + items.length < word := by
    have total := (sortedEntries_perm d.entries).length_eq
    have bounded := d.bounded
    have small := cookie.toNat_lt
    rw [← entries, List.length_drop, total, List.length_append]
    unfold word dots
    simp only [List.length_cons, List.length_nil]
    omega
  have noWrap := noWrap_of_large s.short (Nat.zero_le _) items large
  obtain ⟨⟨used, memory⟩, filled⟩ : ∃ result,
      putEntries h.build h.padding s.bufLen.toNat items cookie.toNat s.buf.toNat 0
      (s.world call).memory = some result :=
    putEntries_returns (Nat.zero_le _) (s.placed call) s.below noWrap few
  obtain ⟨total, stored⟩ :=
    putEntries_spec filled (Nat.zero_le _) (fun _ => (Nat.add_zero _).symm) (s.placed call)
      (s.addressed call) noWrap
  generalize front : (stream h.padding cookie.toNat items).take (s.bufLen.toNat - 0) =
    out at total stored
  rw [Nat.sub_zero] at front
  rw [Nat.add_zero] at stored
  have most : out.length ≤ s.bufLen.toNat := by
    rw [← front, List.length_take]
    exact Nat.min_le_left ..
  have short := s.short
  have placed := s.placed call
  have result := s.counted call
  have apart := s.apart
  rw [Nat.zero_add] at total
  subst total
  have length : memory.length = (s.world call).memory.length := by
    rw [stored, store_length (by omega)]
  have written :=
    write_eq_some.mpr ⟨show s.bufused.toNat + (encode 4 out.length).length ≤ memory.length by
    rw [encode_length]; omega, rfl⟩
  have inside : s.bufused.toNat + (encode 4 out.length).length ≤ memory.length :=
    (write_eq_some.mp written).1
  have used : decode (load (store memory s.bufused.toNat (encode 4 out.length)) s.bufused.toNat 4) =
      out.length := by
    have back := load_store inside
    rw [encode_length] at back
    rw [back, decode_encode_of_lt (by omega)]
  refine ⟨{ s.world call with memory := store memory s.bufused.toNat (encode 4 out.length), libos },
    ?_, ?_, ?_⟩
  · simp only [fdReaddir, opened, listed, entries, filled, asUsize_low s.low, written,
      Option.bind_eq_bind, Option.bind_some]
  · exact used
  · change load (store memory _ _) _ (decode (load (store memory _ _) _ 4)) = out
    rw [used, load_store_apart inside (by rw [encode_length]; omega), stored]
    exact load_store (by omega)

theorem recordsFrom_append (cookie : Nat) (first second : List DirEntry) :
    recordsFrom cookie (first ++ second) = recordsFrom cookie first ++
      recordsFrom (cookie + first.length) second := by
  induction first generalizing cookie with
  | nil => rfl
  | cons item first ih =>
    rw [List.cons_append, recordsFrom, recordsFrom, ih, List.cons_append, List.length_cons,
      Nat.add_assoc, Nat.add_comm 1]

theorem recordsFrom_last (cookie : Nat) (items : List DirEntry) (nonempty : items ≠ []) :
    ∃ item, (recordsFrom cookie items).getLast? = some (record (cookie + items.length) item) := by
  obtain ⟨front, item, rfl⟩ := List.eq_nil_or_concat items |>.resolve_left nonempty
  refine ⟨item, ?_⟩
  rw [List.concat_eq_append, recordsFrom_append, List.getLast?_append]
  simp [recordsFrom, Nat.add_assoc]

theorem fitting_le (room : Nat) (items : List DirEntry) : fitting room items ≤ items.length := by
  induction items generalizing room with
  | nil => exact le_refl _
  | cons item items ih =>
    rw [fitting]
    split
    · exact Nat.succ_le_succ (ih _)
    · exact Nat.zero_le _

/-- With room for the whole stream, everything fits. -/
theorem fitting_all (padding : Nat → UInt8) (cookie room : Nat) (items : List DirEntry)
    (fits : (stream padding cookie items).length ≤ room) : fitting room items = items.length := by
  induction items generalizing cookie room with
  | nil => rfl
  | cons item items ih =>
    rw [stream, List.length_append, List.length_append, dirent_length] at fits
    rw [fitting, if_pos (by omega), ih ((cookie + 1) % word) _ (by omega), List.length_cons]

/-- A call with a cookie is followed by one with the cookie behind the records that fitted. -/
theorem nextCookie_eq (cookie : UInt64) (items : List DirEntry) (some : items ≠ [])
    (few : cookie.toNat + items.length < 2 ^ 64) :
    (nextCookie cookie (recordsFrom cookie.toNat items)).toNat = cookie.toNat + items.length := by
  obtain ⟨item, last⟩ := recordsFrom_last cookie.toNat items some
  rw [nextCookie, last]
  exact UInt64.toNat_ofNat_of_lt' few

theorem Session.iterate_from (s : Session h d) (fuel call : Nat) (cookie : UInt64)
    (inside : cookie.toNat ≤ (sortedEntries d.entries).length)
    (enough : (sortedEntries d.entries).length < cookie.toNat + fuel) :
    s.iterate fuel call cookie =
      some (recordsFrom cookie.toNat ((sortedEntries d.entries).drop cookie.toNat), true) := by
  induction fuel generalizing call cookie with
  | zero => omega
  | succ fuel ih =>
    obtain ⟨w, ran, used, bytes⟩ := s.call call cookie
    have total : (sortedEntries d.entries).length < 2 ^ 63 := by
      have bounded := d.bounded
      rw [(sortedEntries_perm d.entries).length_eq, List.length_append]
      exact bounded
    have large (item : DirEntry) (member : item ∈ sortedEntries d.entries) :
        direntSize + item.entryName.length ≤ s.bufLen.toNat :=
          s.large item ((sortedEntries_perm _).mem_iff.mp member)
    generalize entries : (sortedEntries d.entries).drop cookie.toNat = items at used bytes ⊢
    have count : items.length = (sortedEntries d.entries).length - cookie.toNat := by
      rw [← entries, List.length_drop]
    have short := s.short
    have received : records (load w.memory s.buf.toNat (decode (load w.memory s.bufused.toNat 4))) =
        recordsFrom cookie.toNat (items.take (fitting s.bufLen.toNat items)) := by
      rw [bytes, records_stream items _ (by omega)]
      intro item member
      have := large item (List.mem_of_mem_drop (entries ▸ member))
      omega
    rw [Session.iterate, ran]
    simp only [Option.bind_eq_bind, Option.bind_some, received]
    rw [used, List.length_take]
    split
    next below =>
      rw [fitting_all h.padding cookie.toNat s.bufLen.toNat items (by omega), List.take_length]
    next full =>
      have fits := fitting_le s.bufLen.toNat items
      have width : (items.take (fitting s.bufLen.toNat items)).length =
          fitting s.bufLen.toNat items := by
        rw [List.length_take]
        omega
      -- A buffer that is full holds at least one record, so that the next call has less to list.
      have progress : 0 < fitting s.bufLen.toNat items := by
        cases items with
        | nil =>
          have dot := s.large ⟨[46], 4⟩ (by simp [dots])
          simp only [stream, List.length_nil, direntSize] at full dot
          omega
        | cons item items =>
          rw [fitting, if_pos (large item (List.mem_of_mem_drop (entries ▸ List.mem_cons_self)))]
          omega
      have next := nextCookie_eq cookie (items.take (fitting s.bufLen.toNat items))
        (by rw [← List.length_pos_iff, width]; exact progress) (by omega)
      rw [width] at next
      rw [ih (call + 1) _ (by omega) (by omega), next, ← List.drop_drop, entries, Option.bind_some]
      have joined := recordsFrom_append cookie.toNat (items.take (fitting s.bufLen.toNat items))
        (items.drop (fitting s.bufLen.toNat items))
      rw [List.take_append_drop, width] at joined
      rw [joined]

theorem sortedEntries_nodup (d : Directory) :
    ((sortedEntries d.entries).map DirEntry.entryName).Nodup := by
  rw [((sortedEntries_perm d.entries).map DirEntry.entryName).nodup_iff, List.map_append,
    List.nodup_append]
  refine ⟨d.distinct, by decide, ?_⟩
  intro name member dot member' same
  obtain ⟨entry, inside, rfl⟩ := List.mem_map.mp member
  obtain ⟨dot, inside', rfl⟩ := List.mem_map.mp member'
  exact d.undotted entry inside dot inside' same

theorem Session.iterate_all (s : Session h d) (enough : (sortedEntries d.entries).length < fuel) :
    s.iterate fuel 0 0 = some (recordsFrom 0 (sortedEntries d.entries), true) :=
  s.iterate_from fuel 0 0 (Nat.zero_le _) (by simpa using enough)

/-- For every directory there is one order in which each guest receives the records, whatever the
length of its buffer, after finitely many calls. -/
theorem readdir_lists (d : Directory) :
    ∃ order : List DirEntry, order.Perm (d.entries ++ dots) ∧
    (order.map DirEntry.entryName).Nodup ∧
    ∀ (σ : Type) (h : Host σ) (s : Session h d), ∃ calls, ∀ fuel ≥ calls,
      s.iterate fuel 0 0 = some (recordsFrom 0 order, true) := by
  refine ⟨sortedEntries d.entries, sortedEntries_perm d.entries, sortedEntries_nodup d,
    fun σ h s => ?_⟩
  exact ⟨(sortedEntries d.entries).length + 1, fun fuel enough => s.iterate_all enough⟩

/-- A libos with one directory and nothing else. -/
def oneDirectory (entries : List DirEntry) : Host Unit where
  openFile _ _ _ _ := none
  close _ _ := none
  stat _ _ := none
  read _ _ _ := none
  write _ _ _ := none
  readdir _ _ := some (entries, ())
  getTime _ := none
  build := debug
  padding _ := 0

def oneFile : Directory := ⟨[⟨[97], 8⟩], by decide, by decide, by decide⟩

/-- The records of `.`, `..` and the file take 25, 26 and 25 bytes. -/
def tightSession : Session (oneDirectory oneFile.entries) oneFile where
  fd := 4
  buf := 0
  bufLen := 26
  bufused := 28
  world _ := ⟨List.replicate 32 0, none, fun _ => some "/", ()⟩
  lists _ := ⟨"/", (), rfl, rfl⟩
  large := by decide
  short := by decide
  placed _ := by decide
  below := by decide
  counted _ := by decide
  low := by decide
  apart := by decide
  addressed _ := by decide

theorem oneFile_listed : ∃ order : List DirEntry, order.Perm (oneFile.entries ++ dots) ∧
    ∃ calls, ∀ fuel ≥ calls, tightSession.iterate fuel 0 0 = some (recordsFrom 0 order, true) := by
  obtain ⟨order, every, -, listed⟩ := readdir_lists oneFile
  exact ⟨order, every, listed Unit _ tightSession⟩

end Iteration
end AlloyStack.Wasi
