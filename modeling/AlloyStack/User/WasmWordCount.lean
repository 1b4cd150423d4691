import AlloyStack.Library.CInts
import AlloyStack.Library.Tally
import AlloyStack.User.CountText
import AlloyStack.User.Workflow

/-! The C++ word count from end to end. A mapper writes the counts of each partition into a text of
fixed size and registers it under a name with two numbers; a reducer accesses such names. It reads
the memory of mappers that have returned, and freed memory where a slot is missing. -/
namespace AlloyStack.User.WasmWordCount
open Rust Tally

def MAX_BUFFER_SIZE : Nat := 500000

/-- `unordered_map<string, int>` -/
abbrev WordMap := Map Bytes Int

/-- `int` arithmetic, which wraps in the compiled code. -/
def wrap (n : Int) : Int := n.bmod (2 ^ 32)

/-- `std::tolower` in the C locale -/
def tolower (c : UInt8) : UInt8 := if 65 ≤ c ∧ c ≤ 90 then c + 32 else c

/-- `while (file >> word)` -/
def readWords (s : Bytes) : List Bytes :=
  match _found : readWord s with
  | none => []
  | some (word, s') => word :: readWords s'
termination_by s.length
decreasing_by exact readWord_lt _found

def words (content : Bytes) : List Bytes := (readWords content).map fun word => word.map tolower

/-- `word_map[word] += num` for each entry -/
def addCounts : List (Entry Bytes Int) → WordMap → WordMap
  | [], m => m
  | entry :: entries, m =>
    addCounts entries (m.insert entry.1 (wrap ((m.lookup entry.1).getD 0 + entry.2)))

def countWords (content : Bytes) : WordMap :=
  addCounts ((words content).map fun word => ⟨word, 1⟩) ∅

/-- The hash of strings, and the order in which a map is iterated. -/
structure Host extends Iteration Bytes Int where
  hash : Bytes → Nat

section Programs
variable (h : Host) (files : List Bytes) (mapperNum reducerNum : Nat)

def partitionIndex (word : Bytes) : Nat := h.hash word % reducerNum

/-- The entries of one partition, in the order in which the map is iterated. -/
def partition (content : Bytes) (index : Nat) : List (Entry Bytes Int) :=
  (h.iter (countWords content)).filter fun entry => partitionIndex h reducerNum entry.1 = index

/-- `buffer[index]` before it is resized -/
def text (content : Bytes) (index : Nat) : Bytes :=
  (partition h reducerNum content index).flatMap fun entry => encode entry.1 entry.2

/-- `buffer.resize(MAX_BUFFER_SIZE, '\0')` -/
def resize (buffer : Bytes) : Bytes :=
  buffer.take MAX_BUFFER_SIZE ++ List.replicate (MAX_BUFFER_SIZE - buffer.length) 0

def bufferSlot (i j : Nat) : String := s!"buffer_{i}_{j}"

/-- `slot_name[index]` of a mapper, which stays empty with its partition. -/
def slotName (content : Bytes) (id index : Nat) : String :=
  if partition h reducerNum content index = [] then "" else bufferSlot index id

/-- What the address in a slot points to: the text of a mapper, or a vector of zeros that was
freed. -/
inductive Buffer where
  | text (bytes : Bytes)
  | freed

/-- The length in a `WasmDataBuffer` -/
def Buffer.size : Buffer → Nat
  | text bytes => bytes.length
  | freed => MAX_BUFFER_SIZE

/-- What access `i` of reducer `id` finds at an address. -/
abbrev Memory := (id i : Nat) → Buffer → Bytes

/-- The slots, and the `word_map` of each reducer that ran. -/
structure State where
  slots : Slots Buffer
  wordMaps : Nat → Option WordMap

/-- A file that cannot be opened has no words. -/
def mapper (id : Nat) (s : State) : Outcome State :=
  let content := files.getD id []
  .ok { s with slots := (List.range reducerNum).foldl (fun slots i =>
    slots.put (slotName h reducerNum content id i)
      (.text (resize (text h reducerNum content i)))) s.slots }

/-- `access_buffer`: for a missing slot it registers a data buffer with the empty name, and the
vector of zeros that this one points to is freed before it is read. -/
def accessBuffer (read : Buffer → Bytes) (slot : String) (slots : Slots Buffer) :
    Outcome (Bytes × Slots Buffer) :=
  match slots slot with
  | none => .ok (read .freed, slots.put "" .freed)
  | some buffer =>
    if buffer.size = MAX_BUFFER_SIZE then .ok (read buffer, slots.clear slot) else .panic

/-- The first loop of a reducer. -/
def accessAll (memory : Memory) (id : Nat) :
    List Nat → Slots Buffer → Outcome (List Bytes × Slots Buffer)
  | [], slots => .ok ([], slots)
  | i :: is, slots =>
    (accessBuffer (memory id i) (bufferSlot i id) slots).bind fun (buffer, slots) =>
    (accessAll memory id is slots).bind fun (buffers, slots) => .ok (buffer :: buffers, slots)

/-- `while (iss >> word >> num)` -/
def entries (buffer : Bytes) : List (Entry Bytes Int) := (decode buffer).map fun e => ⟨e.1, e.2⟩

variable (memory : Memory)

def reducer (id : Nat) (s : State) : Outcome State :=
  (accessAll memory id (List.range mapperNum) s.slots).bind fun (buffers, slots) =>
  .ok ⟨slots, Function.update s.wordMaps id (some (addCounts (buffers.flatMap entries) ∅))⟩

/-- All mappers, and then all reducers, in any order. -/
def workflow (mappers reducers : List Nat) : Outcome State :=
  (stage (mapper h files reducerNum) mappers ⟨fun _ => none, fun _ => none⟩).bind
    (stage (reducer files.length memory) reducers)

def allWords : List Bytes := files.flatMap words

/-- The full count of a word of partition `r`. -/
def total (r : Nat) (word : Bytes) : Option Int :=
  if partitionIndex h reducerNum word = r ∧ word ∈ allWords files then
    some ((allWords files).count word) else none

/-- The map of reducer `r` has the words of partition `r`, with their full counts. -/
def Counts (mappers reducers : List Nat) : Prop :=
  ∃ s, workflow h files reducerNum memory mappers reducers = .ok s ∧
    ∀ r < reducerNum, ∃ wordMap, s.wordMaps r = some wordMap ∧
    ∀ word, wordMap.lookup word = total h files reducerNum r word

/-- The partitions of every mapper fit into their buffers. -/
def Fits : Prop :=
  ∀ content ∈ files, ∀ i < reducerNum, (text h reducerNum content i).length ≤ MAX_BUFFER_SIZE

/-- Each mapper has words of its own partition only, and no count overflows. -/
def Diagonal : Prop := ∀ i content, files[i]? = some content → ∀ word ∈ words content,
  partitionIndex h reducerNum word = i ∧ (words content).count word < 2 ^ 31

/-- What the mapper with this number has registered for an index. -/
def registered (i id : Nat) : Option Bytes :=
  if i < reducerNum ∧ partition h reducerNum (files.getD id []) i ≠ [] then
    some (resize (text h reducerNum (files.getD id []) i))
  else none

/-- What access `i` of a reducer takes. -/
def taken (i id : Nat) : Option Bytes :=
  if id < files.length then registered h files reducerNum i id else none

/-- The texts that reducers take are as they were registered, though their mappers have returned. -/
def Kept : Prop :=
  ∀ i id text, taken h files reducerNum i id = some text → memory id i (.text text) = text

/-- The entries that mappers have registered for the accesses of a reducer. -/
def received (id : Nat) : List (Entry Bytes Int) :=
  (List.range files.length).flatMap fun i =>
    if id < files.length ∧ i < reducerNum then partition h reducerNum (files.getD id []) i else []

/-- The entries that a reducer finds in freed memory. -/
def stray (id : Nat) : List (Entry Bytes Int) :=
  (List.range files.length).flatMap fun i =>
    if taken h files reducerNum i id = none then entries (memory id i .freed) else []

/-- The freed memory that the reducers read has no entries, or such that add up to zero for a word
that the reducer has anyway. -/
def Silent : Prop :=
  ∀ id < reducerNum, ∀ word ∈ (stray h files reducerNum memory id).keys,
    word ∈ (received h files reducerNum id).keys ∧
      wrap (occurs (stray h files reducerNum memory id) word) = 0

end Programs

section Counting

theorem wrap_wrap_add (a b : Int) : wrap (wrap a + b) = wrap (a + b) := Int.bmod_add_bmod

theorem wrap_eq {n : Int} (low : -2 ^ 31 ≤ n) (high : n < 2 ^ 31) : wrap n = n :=
  C.wrapping.exact n ⟨low, high⟩

theorem wrap_eq_zero_of_add {a b : Int} (same : wrap (a + b) = wrap a) : wrap b = 0 :=
  calc wrap b = wrap (wrap (a + b) + -a) := by
        rw [wrap_wrap_add]
        congr 1
        omega
    _ = wrap (wrap a + -a) := by rw [same]
    _ = wrap 0 := by rw [wrap_wrap_add, add_neg_cancel]

theorem wrap_range (n : Int) : -2 ^ 31 ≤ wrap n ∧ wrap n < 2 ^ 31 := by
  unfold wrap
  have low := Int.le_bmod (x := n) (m := 2 ^ 32) (by decide)
  have high := Int.bmod_lt (x := n) (m := 2 ^ 32) (by decide)
  omega

theorem addCounts_lookup (entries : List (Entry Bytes Int)) (m : WordMap) (word : Bytes) :
    (addCounts entries m).lookup word =
      if word ∈ entries.keys then some (wrap ((m.lookup word).getD 0 + occurs entries word))
        else m.lookup word := by
  induction entries generalizing m with
  | nil => simp [addCounts]
  | cons entry entries ih =>
    obtain ⟨key, count⟩ := entry
    rw [addCounts, ih, occurs_cons, List.keys_cons]
    by_cases same : key = word
    · subst same
      by_cases later : key ∈ entries.keys
      · simp [later, wrap_wrap_add, add_assoc]
      · simp [later, occurs_eq_zero later]
    · by_cases later : word ∈
          entries.keys <;> simp [later, same, Ne.symm same, AList.lookup_insert_ne (Ne.symm same)]

theorem occurs_ones (l : List Bytes) (word : Bytes) :
    occurs (l.map fun word => (⟨word, 1⟩ : Entry Bytes Int)) word = (l.count word : Int) := by
  induction l with
  | nil => rfl
  | cons first l ih =>
    rw [List.map_cons, occurs_cons, ih, List.count_cons]
    by_cases same : first = word <;> simp [same, add_comm]

theorem countWords_lookup (content word : Bytes) : (countWords content).lookup word =
    if word ∈ words content then some (wrap ((words content).count word)) else none := by
  have keys : ((words content).map fun word => (⟨word, 1⟩ : Entry Bytes Int)).keys =
      words content := by
    simp [List.keys, List.map_map, Function.comp_def]
  rw [countWords, addCounts_lookup, keys, occurs_ones]
  simp

theorem countWords_range {entry : Entry Bytes Int} (member : entry ∈ (countWords content).entries) :
    entry.1 ∈ words content ∧ -2 ^ 31 ≤ entry.2 ∧ entry.2 < 2 ^ 31 := by
  have found : (countWords content).lookup entry.1 = some entry.2 := AList.mem_lookup_iff.mpr member
  rw [countWords_lookup] at found
  split at found
  next inside =>
    rw [← Option.some.inj found]
    exact ⟨inside, wrap_range _⟩
  · cases found

end Counting

section Words

theorem readWord_word {word : Bytes} (found : readWord s = some (word, rest)) :
    word ≠ [] ∧ ∀ c ∈ word, isSpace c = false := by
  simp only [readWord] at found
  split at found
  · cases found
  next nonempty =>
    obtain ⟨rfl, -⟩ := Prod.mk.inj (Option.some.inj found)
    refine ⟨nonempty, fun c member => ?_⟩
    simpa using List.mem_takeWhile_imp member

theorem readWords_solid (s : Bytes) :
    ∀ word ∈ readWords s, word ≠ [] ∧ ∀ c ∈ word, isSpace c = false := by
  induction s using readWords.induct with
  | case1 s found =>
    rw [readWords]
    split
    · simp
    next more => simp [found] at more
  | case2 s word rest found ih =>
    rw [readWords]
    split
    · simp
    next word' rest' found' =>
      obtain ⟨rfl, rfl⟩ : word = word' ∧ rest = rest' := by simpa [found] using found'
      intro w member
      rcases List.mem_cons.mp member with rfl | later
      · exact readWord_word found
      · exact ih w later

theorem tolower_solid (solid : isSpace c = false) : isSpace (tolower c) = false := by
  unfold tolower
  split
  next upper =>
    simp only [UInt8.le_iff_toNat_le] at upper
    have sum : (c + 32).toNat = c.toNat + 32 := by
      rw [UInt8.toNat_add]
      simp at upper ⊢
      omega
    simp only [isSpace, Bool.or_eq_false_iff, Bool.and_eq_false_iff, decide_eq_false_iff_not,
      beq_eq_false_iff_ne, UInt8.le_iff_toNat_le, sum, ne_eq, ← UInt8.toNat_inj]
    simp at upper ⊢
    omega
  · exact solid

theorem words_solid {word : Bytes} (member : word ∈ words content) :
    word ≠ [] ∧ ∀ c ∈ word, isSpace c = false := by
  obtain ⟨w, inside, rfl⟩ := List.mem_map.mp member
  obtain ⟨nonempty, solid⟩ := readWords_solid content w inside
  refine ⟨by simpa using nonempty, fun c member => ?_⟩
  obtain ⟨d, inside, rfl⟩ := List.mem_map.mp member
  exact tolower_solid (solid d inside)

end Words

section Buffers
variable {h : Host} {files : List Bytes} {reducerNum id : Nat}

/-- A text that fits is read back as it was written. -/
theorem entries_text (fits : (text h reducerNum content i).length ≤ MAX_BUFFER_SIZE) :
    entries (resize (text h reducerNum content i)) = partition h reducerNum content i := by
  have entry (e : Entry Bytes Int) (member : e ∈ partition h reducerNum content i) :
      e.1 ∈ words content ∧ -2 ^ 31 ≤ e.2 ∧ e.2 < 2 ^ 31 :=
    countWords_range ((h.perm _).mem_iff.mp (List.mem_filter.mp member).1)
  have back := decode_encode ((partition h reducerNum content i).map fun e => (e.1, e.2))
    (MAX_BUFFER_SIZE - (text h reducerNum content i).length)
    (by
      simp only [List.mem_map]
      rintro _ ⟨e, member, rfl⟩
      exact words_solid (entry e member).1)
    (by
      simp only [List.mem_map]
      rintro _ ⟨e, member, rfl⟩
      exact (entry e member).2)
  rw [List.flatMap_map] at back
  rw [entries, resize, List.take_of_length_le fits, text]
  rw [text] at back
  rw [back, List.map_map]
  exact List.map_id _

theorem bufferSlot_toList (i j : Nat) : (bufferSlot i j).toList =
    "buffer_".toList ++ (Nat.toDigits 10 i ++ ("_".toList ++ Nat.toDigits 10 j)) :=
  Text.numbered_numbered_toList "buffer_" "_" i j

theorem bufferSlot_inj : bufferSlot i j = bufferSlot p q ↔ i = p ∧ j = q := by
  constructor
  · intro same
    replace same := congrArg String.toList same
    rw [bufferSlot_toList, bufferSlot_toList] at same
    obtain ⟨rfl, rest⟩ := Text.digits_append_inj (by simp) (by simp) (List.append_cancel_left same)
    exact ⟨rfl, Text.digits_injective (List.append_cancel_left rest)⟩
  · rintro ⟨rfl, rfl⟩
    rfl

theorem bufferSlot_ne_empty (i j : Nat) : bufferSlot i j ≠ "" := by
  intro same
  replace same := congrArg String.toList same
  rw [bufferSlot_toList] at same
  simp at same

theorem slotName_eq_iff : slotName h reducerNum content id i = bufferSlot p q ↔
    partition h reducerNum content i ≠ [] ∧ i = p ∧ id = q := by
  unfold slotName
  split
  next empty => simp [empty, (bufferSlot_ne_empty p q).symm]
  next full => simp [full, bufferSlot_inj]

/-- The mappers that ran have registered their partitions, and nothing else is registered. -/
def MappersRan (h : Host) (files : List Bytes) (reducerNum : Nat) (done : List Nat) (s : State) :
    Prop :=
  ∀ i id, s.slots (bufferSlot i id) =
    if id ∈ done then (registered h files reducerNum i id).map .text else none

theorem mapper_step (ran : MappersRan h files reducerNum done s) (new : id ∉ done) :
    ∃ t, mapper h files reducerNum id s = .ok t ∧
      MappersRan h files reducerNum (done ++ [id]) t := by
  refine ⟨_, rfl, fun i j => ?_⟩
  by_cases own : j = id
  · subst own
    rw [if_pos (by simp), registered]
    split
    next present =>
      refine Slots.foldl_put_mem (fun i => slotName h reducerNum (files.getD j []) j i)
        (fun i => Buffer.text (resize (text h reducerNum (files.getD j []) i))) _ _ ?_ ?_
      · intro k _ same
        rw [(slotName_eq_iff.mp same).2.1]
      · exact ⟨i, List.mem_range.mpr present.1, slotName_eq_iff.mpr ⟨present.2, rfl, rfl⟩⟩
    next absent =>
      have before := ran i j
      rw [if_neg new] at before
      refine (Slots.foldl_put_other (fun i => slotName h reducerNum (files.getD j []) j i)
        (fun i => .text (resize (text h reducerNum (files.getD j []) i))) _ _ ?_).trans before
      intro k member same
      obtain ⟨full, rfl, -⟩ := slotName_eq_iff.mp same.symm
      exact absent ⟨List.mem_range.mp member, full⟩
  · have before := ran i j
    simp only [List.mem_append, List.mem_singleton, own, or_false]
    refine (Slots.foldl_put_other (fun i => slotName h reducerNum (files.getD id []) id i)
      (fun i => .text (resize (text h reducerNum (files.getD id []) i))) _ _ ?_).trans before
    intro k _ same
    exact own (slotName_eq_iff.mp same.symm).2.2.symm

end Buffers

section Reducers
variable {h : Host} {files : List Bytes} {reducerNum id : Nat} {memory : Memory}

theorem accessBuffer_eq (read : Buffer → Bytes)
    (sized : ∀ buffer, slots slot = some buffer → buffer.size = MAX_BUFFER_SIZE) :
    ∃ slots', accessBuffer read slot slots = .ok (read ((slots slot).getD .freed), slots') ∧
      ∀ other, other ≠ slot → other ≠ "" → slots' other = slots other := by
  unfold accessBuffer
  split
  next missing =>
    rw [missing]
    refine ⟨_, rfl, fun other _ named => ?_⟩
    exact Function.update_of_ne named ..
  next buffer found =>
    rw [if_pos (sized buffer found), found]
    refine ⟨_, rfl, fun other apart _ => ?_⟩
    exact Function.update_of_ne apart ..

/-- A reducer reads the slots with its own number in the second place. -/
theorem accessAll_eq (memory : Memory) (id : Nat) (is : List Nat) (slots : Slots Buffer)
    (nodup : is.Nodup)
    (sized : ∀ i ∈ is, ∀ buffer, slots (bufferSlot i id) = some buffer →
      buffer.size = MAX_BUFFER_SIZE) :
    ∃ slots', accessAll memory id is slots =
        .ok (is.map fun i => memory id i ((slots (bufferSlot i id)).getD .freed), slots') ∧
      ∀ i j, j ≠ id → slots' (bufferSlot i j) = slots (bufferSlot i j) := by
  induction is generalizing slots with
  | nil => exact ⟨slots, rfl, fun _ _ _ => rfl⟩
  | cons i is ih =>
    have apart := List.nodup_cons.mp nodup
    obtain ⟨slots₁, accessed, kept⟩ := accessBuffer_eq (memory id i) (sized i (by simp))
    have same (k : Nat) (member : k ∈ is) : slots₁ (bufferSlot k id) = slots (bufferSlot k id) :=
      kept _ (fun equal => apart.1 ((bufferSlot_inj.mp equal).1 ▸ member))
        (bufferSlot_ne_empty k id)
    obtain ⟨slots₂, rest, kept'⟩ := ih slots₁ apart.2 (fun k member => by
      rw [same k member]
      exact sized k (by simp [member]))
    have buffers : (is.map fun i => memory id i ((slots₁ (bufferSlot i id)).getD .freed)) =
        is.map fun i => memory id i ((slots (bufferSlot i id)).getD .freed) :=
      List.map_congr_left fun k member => by rw [same k member]
    refine ⟨slots₂, ?_, fun k j other => ?_⟩
    · simp only [accessAll, accessed, Outcome.bind, rest, buffers, List.map_cons]
    · rw [kept' k j other]
      exact kept _ (fun equal => other (bufferSlot_inj.mp equal).2) (bufferSlot_ne_empty k j)

/-- The entries that a reducer reads. -/
def found (h : Host) (files : List Bytes) (reducerNum : Nat) (memory : Memory) (id : Nat) :
    List (Entry Bytes Int) :=
  (List.range files.length).flatMap fun i =>
    entries (memory id i (((taken h files reducerNum i id).map .text).getD .freed))

/-- The reducers that ran have added up what they found, and the slots of the others are as the
mappers left them. -/
structure ReducersRan (h : Host) (files : List Bytes) (reducerNum : Nat) (memory : Memory)
    (done : List Nat) (s : State) : Prop where
  slots : ∀ i id, id ∉ done →
    s.slots (bufferSlot i id) = (taken h files reducerNum i id).map .text
  wordMaps : ∀ id ∈ done,
    s.wordMaps id = some (addCounts (found h files reducerNum memory id) ∅)

theorem registered_length (found : registered h files reducerNum i id = some buffer)
    (fits : (text h reducerNum (files.getD id []) i).length ≤ MAX_BUFFER_SIZE) :
    buffer.length = MAX_BUFFER_SIZE := by
  unfold registered at found
  split at found
  · rw [← Option.some.inj found, resize, List.take_of_length_le fits, List.length_append,
      List.length_replicate]
    omega
  · cases found

theorem fits_at (fits : Fits h files reducerNum) (mapper : id < files.length)
    (bound : i < reducerNum) :
    (text h reducerNum (files.getD id []) i).length ≤ MAX_BUFFER_SIZE := by
  have located := List.getElem?_eq_getElem mapper
  rw [List.getD_eq_getElem?_getD, located]
  exact fits _ (List.getElem_mem mapper) i bound

theorem taken_length (fits : Fits h files reducerNum)
    (taken : taken h files reducerNum i id = some buffer) : buffer.length = MAX_BUFFER_SIZE := by
  unfold WasmWordCount.taken at taken
  split at taken
  next mapper =>
    by_cases bound : i < reducerNum
    · exact registered_length taken (fits_at fits mapper bound)
    · simp [registered, bound] at taken
  · cases taken

theorem reducer_step (ran : ReducersRan h files reducerNum memory done s)
    (fits : Fits h files reducerNum) (new : id ∉ done) :
    ∃ t, reducer files.length memory id s = .ok t ∧
      ReducersRan h files reducerNum memory (done ++ [id]) t := by
  have stored (i : Nat) := ran.slots i id new
  obtain ⟨slots, accessed, kept⟩ :=
    accessAll_eq memory id (List.range files.length) s.slots List.nodup_range (by
    intro i _ buffer found
    rw [stored] at found
    obtain ⟨text, present, rfl⟩ := Option.map_eq_some_iff.mp found
    exact taken_length fits present)
  have entries : ((List.range files.length).map fun i =>
        memory id i ((s.slots (bufferSlot i id)).getD .freed)).flatMap entries =
            found h files reducerNum memory id := by
    rw [List.flatMap_map, found]
    exact List.flatMap_congr fun i _ => by rw [stored i]
  refine ⟨⟨slots, Function.update s.wordMaps id
    (some (addCounts (found h files reducerNum memory id) ∅))⟩, ?_, ?_, ?_⟩
  · simp only [reducer, accessed, Outcome.bind, entries]
  · intro i j new'
    simp only [List.mem_append, List.mem_singleton, not_or] at new'
    exact (kept i j new'.2).trans (ran.slots i j new'.1)
  · intro j member
    by_cases own : j = id
    · subst own
      exact Function.update_self ..
    · exact (Function.update_of_ne own ..).trans (ran.wordMaps j (by simpa [own] using member))

/-- What a reducer finds is what mappers have registered for it and what is in freed memory. -/
theorem found_perm (fits : Fits h files reducerNum) (kept : Kept h files reducerNum memory)
    (id : Nat) :
    (found h files reducerNum memory id).Perm
      (received h files reducerNum id ++ stray h files reducerNum memory id) := by
  refine .trans (.of_eq ?_) (List.flatMap_append_perm ..).symm
  refine List.flatMap_congr fun i _ => ?_
  cases slot : taken h files reducerNum i id with
  | none =>
    have empty : (if id < files.length ∧ i < reducerNum then
        partition h reducerNum (files.getD id []) i else []) = [] := by
      by_cases inside : id < files.length ∧ i < reducerNum
      · rw [taken, if_pos inside.1, registered] at slot
        simpa [inside] using slot
      · rw [if_neg inside]
    rw [empty]
    rfl
  | some text =>
    have same := kept i id text slot
    rw [taken] at slot
    split at slot
    next mapper =>
      rw [registered] at slot
      split at slot
      next full =>
        rw [Option.map_some, Option.getD_some, same, ← Option.some.inj slot,
          entries_text (fits_at fits mapper full.1), if_pos ⟨mapper, full.1⟩]
        simp
      · cases slot
    · cases slot

end Reducers

section Totals
variable {h : Host} {files : List Bytes} {reducerNum : Nat}

theorem mem_keys_partition (h : Host) (reducerNum : Nat) (content word : Bytes) (i : Nat) :
    word ∈ (partition h reducerNum content i).keys ↔ partitionIndex h reducerNum word = i ∧
      word ∈ words content := by
  have keys :=
    mem_keys_filter (h.iter (countWords content))
      (fun key => decide (partitionIndex h reducerNum key = i)) word
  rw [partition, keys, mem_keys_iter, countWords_lookup]
  by_cases member : word ∈ words content <;> simp [member]

theorem occurs_partition (content word : Bytes) (i : Nat) :
    occurs (partition h reducerNum content i) word =
    if partitionIndex h reducerNum word = i ∧ word ∈ words content then
      wrap ((words content).count word) else 0 := by
  have counts :=
    occurs_filter (h.iter (countWords content))
      (fun key => decide (partitionIndex h reducerNum key = i)) word
  have found : ((countWords content).lookup word).getD 0 =
      if word ∈ words content then wrap ((words content).count word) else 0 := by
    rw [countWords_lookup]
    by_cases member : word ∈ words content
    · rw [if_pos member, if_pos member, Option.getD_some]
    · rw [if_neg member, if_neg member, Option.getD_none]
  rw [partition, counts, occurs_iter, found]
  by_cases same : partitionIndex h reducerNum word = i <;> simp [same]

/-- The first partitions of a mapper, one after the other. -/
def partitions (h : Host) (reducerNum : Nat) (content : Bytes) (n : Nat) : List (Entry Bytes Int) :=
  (List.range n).flatMap (partition h reducerNum content)

theorem mem_keys_partitions (content word : Bytes) (n : Nat) :
    word ∈ (partitions h reducerNum content n).keys ↔ partitionIndex h reducerNum word < n ∧
      word ∈ words content := by
  have keys (i : Nat) := mem_keys_partition h reducerNum content word i
  simp only [List.keys, List.mem_map] at keys
  simp only [partitions, List.keys, List.mem_map, List.mem_flatMap, List.mem_range]
  constructor
  · rintro ⟨entry, ⟨i, bound, member⟩, same⟩
    obtain ⟨index, inside⟩ := (keys i).mp ⟨entry, member, same⟩
    exact ⟨index ▸ bound, inside⟩
  · rintro ⟨bound, inside⟩
    obtain ⟨entry, member, same⟩ := (keys _).mpr ⟨rfl, inside⟩
    exact ⟨entry, ⟨_, bound, member⟩, same⟩

theorem occurs_partitions (content word : Bytes) (n : Nat) :
    occurs (partitions h reducerNum content n) word =
    if partitionIndex h reducerNum word < n ∧ word ∈ words content then
      wrap ((words content).count word) else 0 := by
  induction n with
  | zero => simp [partitions, occurs]
  | succ n ih =>
    rw [partitions] at ih ⊢
    rw [List.range_succ, List.flatMap_append, occurs_append, ih, List.flatMap_singleton,
      occurs_partition]
    by_cases member : word ∈ words content
    · rcases Nat.lt_trichotomy (partitionIndex h reducerNum word) n with below | same | above
      · simp [below, below.ne, member, Nat.lt_succ_of_lt below]
      · simp [same, member]
      · simp [member, above.ne', Nat.not_lt.mpr above.le, Nat.not_lt.mpr (Nat.succ_le_of_lt above)]
    · simp [member]

theorem received_eq (positive : 1 ≤ reducerNum) (r : Nat) : received h files reducerNum r =
    if r < files.length then partitions h reducerNum (files.getD r []) files.length else [] := by
  have beyond (content : Bytes) (i : Nat)
      (outside : ¬ i < reducerNum) : partition h reducerNum content i = [] := by
    refine List.filter_eq_nil_iff.mpr fun entry _ same => outside ?_
    rw [← of_decide_eq_true same]
    exact Nat.mod_lt _ positive
  rw [received, partitions]
  split
  next ran =>
    refine List.flatMap_congr fun i _ => ?_
    by_cases bound : i < reducerNum
    · rw [if_pos ⟨ran, bound⟩]
    · rw [if_neg fun both => bound both.2, beyond _ i bound]
  next absent => simp [absent]

/-- A reducer counts the words of the mapper with its own number, in all partitions up to the
number of mappers. -/
theorem received_lookup (positive : 1 ≤ reducerNum) (r : Nat) (word : Bytes) :
    (addCounts (received h files reducerNum r) ∅).lookup word =
      if r < files.length ∧ partitionIndex h reducerNum word < files.length ∧
        word ∈ words (files.getD r [])
      then some (wrap ((words (files.getD r [])).count word)) else none := by
  rw [addCounts_lookup, received_eq positive]
  by_cases ran : r < files.length
  · rw [if_pos ran, occurs_partitions]
    simp only [mem_keys_partitions, ran, true_and]
    split
    next inside =>
      have twice := wrap_wrap_add ((words (files.getD r [])).count word) 0
      simpa [inside] using twice
    · simp
  · simp [ran]

end Totals

section Outcome
variable {h : Host} {files : List Bytes} {reducerNum : Nat} {memory : Memory}
  {mappers reducers : List Nat}

/-- The workflow always returns, and every reducer has added up what it found. -/
theorem workflow_ok (memory : Memory) (mapped : mappers.Perm (List.range files.length))
    (reduced : reducers.Perm (List.range reducerNum)) (fits : Fits h files reducerNum) :
    ∃ s, workflow h files reducerNum memory mappers reducers = .ok s ∧
      ∀ r < reducerNum,
        s.wordMaps r = some (addCounts (found h files reducerNum memory r) ∅) := by
  have mapperGrows : Grows (mapper h files reducerNum) (fun _ => True) (fun _ => True)
      (MappersRan h files reducerNum) :=
    fun _ _ _ ran new _ _ => mapper_step ran new
  have reducerGrows : Grows (reducer files.length memory) (fun _ => True) (fun _ => True)
      (ReducersRan h files reducerNum memory) :=
    fun _ _ _ ran new _ _ => reducer_step ran fits new
  have start : MappersRan h files reducerNum [] ⟨fun _ => none, fun _ => none⟩ := fun _ _ => rfl
  have distinct : mappers.Nodup := mapped.nodup_iff.mpr List.nodup_range
  obtain ⟨s, first, registers⟩ :=
    stage_ok mapperGrows (fun _ _ => trivial) (fun _ _ => trivial) distinct start
  have between : ReducersRan h files reducerNum memory [] s := by
    refine ⟨fun i id _ => ?_, fun id member => absurd member (by simp)⟩
    rw [registers i id, taken]
    simp only [mapped.mem_iff, List.mem_range]
    split <;> rfl
  have distinct' : reducers.Nodup := reduced.nodup_iff.mpr List.nodup_range
  obtain ⟨t, second, last⟩ :=
    stage_ok reducerGrows (fun _ _ => trivial) (fun _ _ => trivial) distinct' between
  refine ⟨t, ?_, fun r bound => last.wordMaps r (reduced.mem_iff.mpr (List.mem_range.mpr bound))⟩
  rw [workflow, first]
  exact second

/-- The words of one file, and those of the files before and after it. -/
theorem count_allWords (located : files[p]? = some content) (word : Bytes) :
    (allWords files).count word =
    (allWords (files.take p)).count word +
      ((words content).count word + (allWords (files.drop (p + 1))).count word) := by
  obtain ⟨bound, rfl⟩ := List.getElem?_eq_some_iff.mp located
  have parts : files = files.take p ++ files[p] :: files.drop (p + 1) := by simp
  have flat : allWords files = allWords (files.take p) ++
      (words files[p] ++ allWords (files.drop (p + 1))) := by
    conv_lhs => rw [parts]
    rw [allWords, List.flatMap_append, List.flatMap_cons]
    rfl
  rw [flat, List.count_append, List.count_append]

/-- A file has all occurrences of a word exactly when no other file has the word. -/
theorem count_allWords_eq_iff (located : files[p]? = some content) (word : Bytes) :
    (allWords files).count word = (words content).count word ↔
      ∀ (i : Nat) content', files[i]? = some content' → word ∈ words content' → i = p := by
  have parts := count_allWords located word
  constructor
  · intro same i content' located' member
    have before : word ∉ allWords (files.take p) := List.count_eq_zero.mp (by omega)
    have after : word ∉ allWords (files.drop (p + 1)) := List.count_eq_zero.mp (by omega)
    rcases Nat.lt_trichotomy i p with below | equal | above
    · refine absurd (List.mem_flatMap.mpr ⟨content', ?_, member⟩) before
      exact List.mem_of_getElem? (i := i) (by rw [List.getElem?_take, if_pos below, located'])
    · exact equal
    · refine absurd (List.mem_flatMap.mpr ⟨content', ?_, member⟩) after
      exact List.mem_of_getElem? (i := i - (p + 1))
        (by rw [List.getElem?_drop, Nat.add_sub_cancel' above, located'])
  · intro only
    have before : (allWords (files.take p)).count word = 0 := by
      refine List.count_eq_zero.mpr fun member => ?_
      obtain ⟨content', inside, member⟩ := List.mem_flatMap.mp member
      obtain ⟨i, located'⟩ := List.mem_iff_getElem?.mp inside
      rw [List.getElem?_take] at located'
      split at located'
      next below => exact absurd (only i content' located' member) below.ne
      · cases located'
    have after : (allWords (files.drop (p + 1))).count word = 0 := by
      refine List.count_eq_zero.mpr fun member => ?_
      obtain ⟨content', inside, member⟩ := List.mem_flatMap.mp member
      obtain ⟨i, located'⟩ := List.mem_iff_getElem?.mp inside
      rw [List.getElem?_drop] at located'
      have := only _ content' located' member
      omega
    omega

theorem mem_allWords (files : List Bytes) (word : Bytes) :
    word ∈ allWords files ↔ ∃ (i : Nat) (content : Bytes), files[i]? = some content ∧
      word ∈ words content := by
  rw [allWords, List.mem_flatMap]
  constructor
  · rintro ⟨content, inside, member⟩
    obtain ⟨i, located⟩ := List.mem_iff_getElem?.mp inside
    exact ⟨i, content, located, member⟩
  · rintro ⟨i, content, located, member⟩
    exact ⟨content, List.mem_of_getElem? located, member⟩

theorem counts_iff_lookup (memory : Memory) (mapped : mappers.Perm (List.range files.length))
    (reduced : reducers.Perm (List.range reducerNum)) (fits : Fits h files reducerNum) :
    Counts h files reducerNum memory mappers reducers ↔ ∀ r < reducerNum, ∀ word,
      (addCounts (found h files reducerNum memory r) ∅).lookup word =
        total h files reducerNum r word := by
  obtain ⟨s, ran, maps⟩ := workflow_ok memory mapped reduced fits
  constructor
  · rintro ⟨s', ran', sums⟩ r bound word
    obtain rfl : s = s' := Outcome.ok.inj (ran.symm.trans ran')
    obtain ⟨wordMap, same, lookups⟩ := sums r bound
    obtain rfl := Option.some.inj ((maps r bound).symm.trans same)
    exact lookups word
  · exact fun lookups => ⟨s, ran, fun r bound => ⟨_, maps r bound, lookups r bound⟩⟩

/-- Two lists of entries are added up as one. -/
theorem found_lookup (fits : Fits h files reducerNum) (kept : Kept h files reducerNum memory)
    (r : Nat) (word : Bytes) : (addCounts (found h files reducerNum memory r) ∅).lookup word =
      if word ∈ (received h files reducerNum r).keys ∨
          word ∈ (stray h files reducerNum memory r).keys then
        some (wrap (occurs (received h files reducerNum r) word +
          occurs (stray h files reducerNum memory r) word))
      else none := by
  have perm := found_perm fits kept r
  have keys : word ∈ (found h files reducerNum memory r).keys ↔
      word ∈ (received h files reducerNum r).keys ∨
        word ∈ (stray h files reducerNum memory r).keys := by
    rw [List.keys, (perm.map Sigma.fst).mem_iff, List.map_append, List.mem_append]
  rw [addCounts_lookup, occurs_perm perm, occurs_append]
  simp only [keys]
  simp

/-- Freed memory that is silent changes no count. -/
theorem silent_lookup (fits : Fits h files reducerNum) (kept : Kept h files reducerNum memory)
    (silent : Silent h files reducerNum memory) (bound : r < reducerNum) (word : Bytes) :
    (addCounts (found h files reducerNum memory r) ∅).lookup word =
      (addCounts (received h files reducerNum r) ∅).lookup word := by
  rw [found_lookup fits kept, addCounts_lookup]
  by_cases freed : word ∈ (stray h files reducerNum memory r).keys
  · obtain ⟨present, zero⟩ := silent r bound word freed
    have sum := wrap_wrap_add (occurs (stray h files reducerNum memory r) word)
      (occurs (received h files reducerNum r) word)
    rw [zero, zero_add, add_comm] at sum
    simp [present, sum]
  · simp [freed, occurs_eq_zero freed]

/-- What mappers have registered for the reducer of a word is its full count only if the word is
with the mapper of the same number. -/
theorem diagonal_of_received (positive : 1 ≤ reducerNum)
    (counts : ∀ r < reducerNum, ∀ word, (addCounts (received h files reducerNum r) ∅).lookup word =
      total h files reducerNum r word) : Diagonal h files reducerNum := by
  intro i content located word member
  have index : partitionIndex h reducerNum word < reducerNum := Nat.mod_lt _ positive
  have total := counts _ index word
  rw [WasmWordCount.total,
    if_pos ⟨rfl, (mem_allWords files word).mpr ⟨i, content, located, member⟩⟩,
    received_lookup positive] at total
  split at total
  next own =>
    have located' := List.getElem?_eq_getElem own.1
    rw [List.getD_eq_getElem?_getD, located', Option.getD_some] at total
    replace total := Option.some.inj total
    have range := wrap_range ((words files[partitionIndex h reducerNum word]).count word)
    have parts := count_allWords located' word
    have few : ((allWords files).count word : Int) < 2 ^ 31 := total ▸ range.2
    rw [wrap_eq (by omega) (by omega)] at total
    have here := (count_allWords_eq_iff located' word).mp (by omega) i content located member
    refine ⟨here.symm, ?_⟩
    have parts' := count_allWords located word
    omega
  · cases total

theorem received_of_diagonal (positive : 1 ≤ reducerNum) (diagonal : Diagonal h files reducerNum)
    (r : Nat) (word : Bytes) : (addCounts (received h files reducerNum r) ∅).lookup word =
      total h files reducerNum r word := by
  rw [received_lookup positive, total]
  by_cases inside : r < files.length ∧ word ∈ words (files.getD r [])
  · obtain ⟨ran, member⟩ := inside
    have located := List.getElem?_eq_getElem ran
    rw [List.getD_eq_getElem?_getD, located, Option.getD_some] at member ⊢
    obtain ⟨own, few⟩ := diagonal r _ located word member
    have total := (count_allWords_eq_iff located word).mpr fun i content' located' member' =>
      (diagonal i content' located' word member').1.symm.trans own
    rw [if_pos ⟨ran, own.symm ▸ ran, member⟩,
      if_pos ⟨own, (mem_allWords files word).mpr ⟨r, _, located, member⟩⟩,
      wrap_eq (by omega) (by omega), total]
  · rw [if_neg fun both => inside ⟨both.1, both.2.2⟩, if_neg]
    rintro ⟨own, member⟩
    obtain ⟨i, content, located, member⟩ := (mem_allWords files word).mp member
    obtain rfl : i = r := (diagonal i content located word member).1.symm.trans own
    refine inside ⟨(List.getElem?_eq_some_iff.mp located).1, ?_⟩
    rwa [List.getD_eq_getElem?_getD, located, Option.getD_some]

/-- If the registered texts are the full counts, then freed memory that spoils none of them is
silent. -/
theorem silent_of_counts (fits : Fits h files reducerNum) (kept : Kept h files reducerNum memory)
    (received : ∀ r word, (addCounts (received h files reducerNum r) ∅).lookup word =
      total h files reducerNum r word)
    (counts : ∀ r < reducerNum, ∀ word,
      (addCounts (found h files reducerNum memory r) ∅).lookup word =
        total h files reducerNum r word) : Silent h files reducerNum memory := by
  intro r bound word freed
  have same := counts r bound word
  rw [← received r word, found_lookup fits kept, addCounts_lookup, if_pos (.inr freed)] at same
  split at same
  next present =>
    refine ⟨present, ?_⟩
    have sums := Option.some.inj same
    simp only [AList.lookup_empty, Option.getD_none, zero_add] at sums
    exact wrap_eq_zero_of_add sums
  · simp at same

/-- Where mappers that returned keep their texts, and freed memory is silent, the word maps are the
full counts exactly when every mapper has words of its own partition only. Where every mapper has
such words only, they are the full counts exactly when freed memory is silent. -/
theorem counts_iff (positive : 1 ≤ reducerNum) (mapped : mappers.Perm (List.range files.length))
    (reduced : reducers.Perm (List.range reducerNum)) (fits : Fits h files reducerNum)
    (kept : Kept h files reducerNum memory) :
    (Silent h files reducerNum memory →
      (Counts h files reducerNum memory mappers reducers ↔ Diagonal h files reducerNum)) ∧
    (Diagonal h files reducerNum →
      (Counts h files reducerNum memory mappers reducers ↔ Silent h files reducerNum memory)) := by
  have lookups := counts_iff_lookup memory mapped reduced fits
  have enough (silent : Silent h files reducerNum memory) (diagonal : Diagonal h files reducerNum) :
      Counts h files reducerNum memory mappers reducers :=
    lookups.mpr fun r bound word =>
      (silent_lookup fits kept silent bound word).trans
        (received_of_diagonal positive diagonal r word)
  constructor
  · refine fun silent => ⟨fun counts => ?_, enough silent⟩
    exact diagonal_of_received positive fun r bound word =>
      (silent_lookup fits kept silent bound word).symm.trans (lookups.mp counts r bound word)
  · refine fun diagonal => ⟨fun counts => ?_, fun silent => enough silent diagonal⟩
    exact silent_of_counts fits kept (received_of_diagonal positive diagonal) (lookups.mp counts)

end Outcome

theorem words_letter (solid : isSpace c = false) : words [c] = [[tolower c]] := by
  have first : readWord [c] = some ([c], []) := by simp [readWord, solid]
  rw [words, readWords]
  split
  next none => simp [first] at none
  next word rest found =>
    obtain ⟨rfl, rfl⟩ : [c] = word ∧ [] = rest := by simpa [first] using found
    rw [readWords]
    simp [readWord]

/-- Words are hashed by their first byte. -/
def firstByte : Host := ⟨inOrder, fun word => (word.headD 0).toNat⟩

theorem letters_fit (letters : ∀ content ∈ files, ∃ c, content = [c] ∧ isSpace c = false) :
    Fits firstByte files 2 := by
  intro content member i _
  obtain ⟨c, rfl, solid⟩ := letters content member
  have one : (encode [tolower c] (wrap 1)).length = 4 := rfl
  have entries : firstByte.iter (countWords [c]) = [⟨[tolower c], wrap 1⟩] := by
    rw [countWords, words_letter solid]
    rfl
  have short : (text firstByte 2 [c] i).length ≤ 4 := by
    rw [text, partition, entries]
    by_cases own : partitionIndex firstByte 2 [tolower c] = i
    · simp [own, one]
    · simp [own]
  exact short.trans (by decide)

/-- The mappers keep their texts, and freed memory is filled with a byte that is no white space. -/
def filled : Memory
  | _, _, .text bytes => bytes
  | _, _, .freed => List.replicate MAX_BUFFER_SIZE 165

theorem filled_silent (h : Host) (files : List Bytes) (reducerNum : Nat) :
    Kept h files reducerNum filled ∧ Silent h files reducerNum filled := by
  refine ⟨fun _ _ _ _ => rfl, fun id _ word member => ?_⟩
  have nothing : entries (List.replicate MAX_BUFFER_SIZE 165) = [] := by
    rw [entries, decode_solid, List.map_nil]
    intro c member
    rw [(List.mem_replicate.mp member).2]
    decide
  have none : stray h files reducerNum filled id = [] := by
    refine List.flatMap_eq_nil_iff.mpr fun i _ => ?_
    split
    · exact nothing
    · rfl
  rw [none] at member
  cases member

theorem letters_counted : Fits firstByte [[98], [97]] 2 ∧ Diagonal firstByte [[98], [97]] 2 ∧
    Counts firstByte [[98], [97]] 2 filled [1, 0] [0, 1] := by
  have fits : Fits firstByte [[98], [97]] 2 := letters_fit (by
    intro content member
    rcases List.mem_pair.mp member with rfl | rfl
    · exact ⟨98, rfl, by decide⟩
    · exact ⟨97, rfl, by decide⟩)
  have diagonal : Diagonal firstByte [[98], [97]] 2 := by
    intro i content located word member
    match i with
    | 0 =>
      obtain rfl : [98] = content := by simpa using located
      rw [words_letter (by decide)] at member ⊢
      obtain rfl := List.mem_singleton.mp member
      decide
    | 1 =>
      obtain rfl : [97] = content := by simpa using located
      rw [words_letter (by decide)] at member ⊢
      obtain rfl := List.mem_singleton.mp member
      decide
  obtain ⟨kept, silent⟩ := filled_silent firstByte [[98], [97]] 2
  exact ⟨fits, diagonal,
    ((counts_iff (by decide) (by decide) (by decide) fits kept).1 silent).mpr diagonal⟩

/-- The word of the first mapper belongs to the second reducer. -/
theorem letters_lost :
    Fits firstByte [[97], [98]] 2 ∧ ¬ Counts firstByte [[97], [98]] 2 filled [0, 1] [0, 1] := by
  have fits : Fits firstByte [[97], [98]] 2 := letters_fit (by
    intro content member
    rcases List.mem_pair.mp member with rfl | rfl
    · exact ⟨97, rfl, by decide⟩
    · exact ⟨98, rfl, by decide⟩)
  refine ⟨fits, fun counts => ?_⟩
  obtain ⟨kept, silent⟩ := filled_silent firstByte [[97], [98]] 2
  have lookups := (counts_iff_lookup _ (by decide) (by decide) fits).mp counts
  have diagonal := diagonal_of_received (by decide) fun r bound word =>
    (silent_lookup fits kept silent bound word).symm.trans (lookups r bound word)
  have first := (diagonal 0 [97] rfl [97] (by rw [words_letter (by decide)]; decide)).1
  revert first
  decide

end AlloyStack.User.WasmWordCount
