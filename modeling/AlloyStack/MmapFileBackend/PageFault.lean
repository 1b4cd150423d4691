import AlloyStack.Library.Rounding
import AlloyStack.Library.Rust
import AlloyStack.Mm.ServiceHeap
import AlloyStack.MmapFileBackend.Backend

/-! Page faults in file-backed regions. The handler reads the page of the file into one page
buffer, which it uses for all regions and never clears, and copies the whole buffer to the
faulting page. -/
namespace AlloyStack.MmapFileBackend
open Rust
open AlloyStack.Fdtab (Fd)

def PAGE_SIZE : Nat := 0x1000

/-- `!x` on `usize`. -/
def complement (x : Nat) : Nat := word - 1 - x

/-- A region as `Mmap::mmap_file` registers it: memory of the service heap, aligned to pages. -/
structure Mapping where
  region : Region
  length : Nat
  aligned : region.startAddr % PAGE_SIZE = 0
  small : length < Mm.SERVICE_HEAP_SIZE
  fits : region.startAddr + length ≤ word

structure Page where
  bytes : List UInt8
  length : bytes.length = PAGE_SIZE

/-- A page fault, the contents of the files at that time, and the number of bytes that the read
asks of the file system at most. -/
structure Fault where
  mapping : Mapping
  addr : Nat
  inside : mapping.region.startAddr ≤ addr ∧ addr < mapping.region.startAddr + mapping.length
  files : Fd → List UInt8
  count : Nat
  short : count ≤ PAGE_SIZE

/-- The page buffer of the handler and the cursors of the files. -/
structure Pager where
  page : Page
  cursors : Fd → Nat

/-- `lseek` through fdtab. -/
def lseek (fd : Fd) (pos : Nat) (cursors : Fd → Nat) : Fd → Nat := Function.update cursors fd pos

/-- The bytes that a `read` through fdtab delivers. -/
def delivered (files : Fd → List UInt8) (fd : Fd) (count : Nat) (cursors : Fd → Nat) : List UInt8 :=
  ((files fd).drop (cursors fd)).take count

/-- The buffer after a read into its beginning. -/
def Page.fill (page : Page) (data : List UInt8) (short : data.length ≤ PAGE_SIZE) : Page where
  bytes := data ++ page.bytes.drop data.length
  length := by
    rw [List.length_append, List.length_drop, page.length]
    omega

theorem delivered_length (files : Fd → List UInt8) (fd : Fd) (cursors : Fd → Nat)
    (short : count ≤ PAGE_SIZE) :
    (delivered files fd count cursors).length ≤ PAGE_SIZE :=
  (List.length_take_le ..).trans short

/-- `read_at_offset`: the size of the read is discarded. -/
def readAtOffset (f : Fault) (fd : Fd) (offset : Nat) (s : Pager) : Pager :=
  let cursors := lseek fd offset s.cursors
  let data := delivered f.files fd f.count cursors
  { page := s.page.fill data (delivered_length _ _ _ f.short)
    cursors := Function.update cursors fd (cursors fd + data.length) }

/-- `do_page_fault`, with the address and the bytes of `uffd.copy`. -/
def doPageFault (f : Fault) (s : Pager) : (Nat × List UInt8) × Pager :=
  let offset := f.addr - f.mapping.region.startAddr
  let alignedOffset := offset &&& ((complement PAGE_SIZE + 1) % word)
  let s := readAtOffset f f.mapping.region.srcFd (alignedOffset % 2 ^ 32) s
  let dst := f.addr &&& complement (PAGE_SIZE - 1)
  ((dst, s.page.bytes), s)

/-- The handler's loop over a sequence of faults. -/
def serve : List Fault → Pager → List (Nat × List UInt8)
  | [], _ => []
  | f :: rest, s => (doPageFault f s).1 :: serve rest (doPageFault f s).2

def Fault.dst (f : Fault) : Nat := f.addr - f.addr % PAGE_SIZE

/-- What the read delivers of the region's own file. -/
def Fault.own (f : Fault) : List UInt8 :=
  ((f.files f.mapping.region.srcFd).drop (f.dst - f.mapping.region.startAddr)).take f.count

theorem Fault.own_length (f : Fault) : f.own.length ≤ PAGE_SIZE :=
  (List.length_take_le ..).trans f.short

def Page.zero : Page := ⟨List.replicate PAGE_SIZE 0, List.length_replicate ..⟩

/-- The page that the file defines, filled up with zeros. -/
def Fault.page (f : Fault) : Page := Page.zero.fill f.own f.own_length

/-- Every fault finds zeros in the page buffer beyond what its read delivers: first in the memory
that the buffer was allocated with, later in the page of the fault before. -/
def Clean : Page → List Fault → Prop
  | _, [] => True
  | page, f :: rest => (∀ byte ∈ page.bytes.drop f.own.length, byte = 0) ∧ Clean f.page rest

section Alignment

theorem and_complement (small : x < word) :
    x &&& complement (PAGE_SIZE - 1) = x - x % PAGE_SIZE := by
  have mask : complement (PAGE_SIZE - 1) = (2 ^ (64 - 12) - 1) * 2 ^ 12 := rfl
  have cleared : x - x % PAGE_SIZE = x / 2 ^ 12 * 2 ^ 12 := by
    have := Nat.div_add_mod x PAGE_SIZE
    simp only [PAGE_SIZE] at this ⊢
    omega
  rw [mask, cleared, Rounding.and_mask small]

/-- The offset in the file is the distance of the faulting page from the start of the region. -/
theorem aligned_offset (f : Fault) :
    (f.addr - f.mapping.region.startAddr) &&& ((complement PAGE_SIZE + 1) % word) =
    f.dst - f.mapping.region.startAddr := by
  have mask : (complement PAGE_SIZE + 1) % word = complement (PAGE_SIZE - 1) := rfl
  obtain ⟨lower, upper⟩ := f.inside
  have fits := f.mapping.fits
  have aligned := f.mapping.aligned
  rw [mask, and_complement (by omega), Fault.dst]
  simp only [PAGE_SIZE] at aligned ⊢
  omega

theorem dst_le_addr (f : Fault) : f.dst ≤ f.addr := Nat.sub_le ..

theorem offset_small (f : Fault) :
    (f.dst - f.mapping.region.startAddr) % 2 ^ 32 = f.dst - f.mapping.region.startAddr := by
  have small := f.mapping.small
  have below := dst_le_addr f
  obtain ⟨_, upper⟩ := f.inside
  simp only [Mm.SERVICE_HEAP_SIZE] at small
  exact Nat.mod_eq_of_lt (by omega)

end Alignment

theorem own_delivered (f : Fault) (s : Pager) : delivered f.files f.mapping.region.srcFd f.count
    (lseek f.mapping.region.srcFd (f.dst - f.mapping.region.startAddr) s.cursors) = f.own := by
  simp [delivered, lseek, Fault.own]

/-- The bytes copied are what the read delivers, followed by the old end of the page buffer. -/
theorem doPageFault_copy (f : Fault) (s : Pager) :
    (doPageFault f s).1 = (f.dst, f.own ++ s.page.bytes.drop f.own.length) := by
  have dst : f.addr &&& complement (PAGE_SIZE - 1) = f.dst :=
    and_complement (f.inside.2.trans_le f.mapping.fits)
  simp only [doPageFault, readAtOffset, Page.fill, aligned_offset, offset_small, own_delivered, dst]

theorem doPageFault_page (f : Fault) (s : Pager) :
    (doPageFault f s).2.page.bytes = f.own ++ s.page.bytes.drop f.own.length :=
  congrArg Prod.snd (doPageFault_copy f s)

theorem page_eq_iff (f : Fault) (page : Page) :
    f.own ++ page.bytes.drop f.own.length = f.page.bytes ↔
    ∀ byte ∈ page.bytes.drop f.own.length, byte = 0 := by
  have length : (page.bytes.drop f.own.length).length = PAGE_SIZE - f.own.length := by
    rw [List.length_drop, page.length]
  rw [Fault.page, Page.fill, Page.zero, List.append_cancel_left_eq, List.drop_replicate,
    List.eq_replicate_iff]
  exact and_iff_right length

theorem Page.ext {p q : Page} (same : p.bytes = q.bytes) : p = q := by
  cases p
  cases q
  cases same
  rfl

/-- The copied pages are those of the regions' own files if and only if every fault finds the end
of the page buffer clean. -/
theorem pages_own_iff (faults : List Fault) (s : Pager) :
    serve faults s = faults.map (fun f => (f.dst, f.page.bytes)) ↔ Clean s.page faults := by
  induction faults generalizing s with
  | nil => simp [serve, Clean]
  | cons f rest ih =>
    rw [serve, List.map_cons, List.cons.injEq, doPageFault_copy, Prod.mk.injEq, page_eq_iff, Clean,
      ih]
    simp only [true_and]
    refine and_congr_right fun clean => ?_
    have next : (doPageFault f s).2.page = f.page :=
      Page.ext ((doPageFault_page f s).trans ((page_eq_iff f s.page).mpr clean))
    rw [next]

def firstMapping : Mapping := ⟨⟨0x7f0000000000, 3⟩, 0x1000, rfl, by decide, by decide⟩
def secondMapping : Mapping := ⟨⟨0x7f0000400000, 4⟩, 0x1000, rfl, by decide, by decide⟩

/-- The first file holds one byte, the second none. -/
def shortFiles (fd : Fd) : List UInt8 := if fd = 3 then [7] else []

def firstFault : Fault := ⟨firstMapping, 0x7f0000000000, by decide, shortFiles, 0x1000, le_rfl⟩
def secondFault : Fault := ⟨secondMapping, 0x7f0000400000, by decide, shortFiles, 0x1000, le_rfl⟩

/-- The byte of the first file shows up in the page of the second. -/
theorem page_of_other_file :
    ¬ ∀ faults s, serve faults s = faults.map fun f => (f.dst, f.page.bytes) := by
  intro all
  have pages := all [firstFault, secondFault] ⟨Page.zero, fun _ => 0⟩
  have second := (List.cons.inj (List.cons.inj pages).2).1
  rw [doPageFault_copy] at second
  have clean := (page_eq_iff secondFault _).mp (congrArg Prod.snd second)
  have first : firstFault.own = [7] := rfl
  have nothing : secondFault.own.length = 0 := rfl
  rw [doPageFault_page, first, nothing] at clean
  exact absurd (clean 7 (List.mem_cons_self ..)) (by decide)

end AlloyStack.MmapFileBackend
