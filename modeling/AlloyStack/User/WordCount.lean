import Mathlib.Algebra.BigOperators.Group.List.Lemmas
import AlloyStack.Library.Tally
import AlloyStack.User.Workflow

/-! The word count from end to end: each mapper counts the words of its file and sorts them into one
map for each reducer, and each reducer adds up its maps of all mappers. -/
namespace AlloyStack.User.WordCount
open Rust Tally

abbrev Word := List Char

/-- `HashMap<String, u32>` -/
abbrev HashMap := Map Word Nat

abbrev WordEntry := Entry Word Nat

/-- What the maps and the text functions leave open: the order in which a map is iterated, and
`char::is_alphanumeric`. -/
structure Host extends Iteration Word Nat where
  isAlphanumeric : Char → Bool

/-- The words that a mapper accepts; a line without characters has the empty word. -/
def tokens (h : Host) (content : List Char) : List Word :=
  (Text.lines content).flatMap fun line =>
    (Text.split ' ' (Text.trim line)).filter (·.all h.isAlphanumeric)

/-- The counting loops: `counter.insert(word, old_count + count)` for each entry. -/
def addCounts (b : Build) : List WordEntry → HashMap → Option HashMap
  | [], counter => some counter
  | entry :: entries, counter =>
    (b.add32 ((counter.lookup entry.1).getD 0) entry.2).bind fun count =>
      addCounts b entries (counter.insert entry.1 count)

def countWords (b : Build) (words : List Word) : Option HashMap :=
  addCounts b (words.map fun word => ⟨word, 1⟩) ∅

def getidx (b : Build) (word : Word) (reducerNum : Nat) : Option Nat :=
  word.foldlM (fun hashVal c =>
    (b.mul hashVal 31).bind fun product => (b.add product c.toNat).bind fun sum =>
      some (sum % reducerNum)) 0

/-- The second loop of the mapper, which fills the buffers. -/
def shuffle (b : Build) (reducerNum : Nat) : List WordEntry → List HashMap → Option (List HashMap)
  | [], buffers => some buffers
  | entry :: entries, buffers =>
    (getidx b entry.1 reducerNum).bind fun idx =>
    (buffers[idx]?).bind fun buffer =>
      shuffle b reducerNum entries (buffers.set idx (buffer.insert entry.1 entry.2))

def slot (mapper reducer : Nat) : String := s!"{mapper}-{reducer}"

/-- The slots, and the `counter` of each reducer that ran. -/
structure State where
  slots : Slots HashMap
  counters : Nat → Option HashMap

def counterTotal (counter : HashMap) : Nat := (counter.entries.map fun entry => entry.2).sum

/-- `reducer_num` is parsed as a `u64`, and `Vec::with_capacity` panics beyond `isize::MAX` bytes. A
`DataBuffer` takes 16 bytes. `buffer.shuffle = Default::default()` also drops the map that it
replaces, which nothing has initialised in the memory of the slot; that drop is left out. -/
def mapper (b : Build) (h : Host) (files : List (List Char)) (reducerNum : Nat) (id : Nat)
    (s : State) : Outcome State :=
  match files[id]? with
  | none => .err "open failed"
  | some content =>
    (Outcome.orPanic (countWords b (tokens h content))).bind fun counter =>
    if word ≤ reducerNum ∨ b.overflowChecks ∧ 2 ^ 32 ≤ counterTotal counter ∨
      2 ^ 63 ≤ 16 * reducerNum then .panic
    else
      (Outcome.orPanic (shuffle b reducerNum (h.iter counter)
        (List.replicate reducerNum ∅))).bind fun buffers =>
      .ok { s with
        slots := buffers.zipIdx.foldl
          (fun slots (buffer, reducer) => slots.put (slot id reducer) buffer) s.slots }

/-- The loop of a reducer over the mappers. -/
def gather (b : Build) (h : Host) (reducer : Nat) :
    List Nat → HashMap → Slots HashMap → Outcome (HashMap × Slots HashMap)
  | [], counter, slots => .ok (counter, slots)
  | i :: mappers, counter, slots =>
    (Outcome.orPanic (slots (slot i reducer))).bind fun result =>
    (Outcome.orPanic (addCounts b (h.iter result) counter)).bind fun counter =>
    gather b h reducer mappers counter (slots.clear (slot i reducer))

/-- `mapper_num` is parsed as a `u64`. -/
def reducer (b : Build) (h : Host) (mapperNum : Nat) (id : Nat) (s : State) : Outcome State :=
  if word ≤ mapperNum then .panic
  else
    (gather b h id (List.range mapperNum) ∅ s.slots).bind fun (counter, slots) =>
    .ok ⟨slots, Function.update s.counters id (some counter)⟩

/-- All mappers, and then all reducers, in any order. -/
def workflow (b : Build) (h : Host) (files : List (List Char)) (reducerNum : Nat)
    (mappers reducers : List Nat) :
    Outcome State :=
  (stage (mapper b h files reducerNum) mappers ⟨fun _ => none, fun _ => none⟩).bind
    (stage (reducer b h files.length) reducers)

def allWords (h : Host) (files : List (List Char)) : List Word := files.flatMap (tokens h)

/-- Every accepted word is in the map of the reducer that its hash selects, and of no other one,
with its number of occurrences, and nothing else is in any map. -/
def Counts (b : Build) (h : Host) (files : List (List Char)) (reducerNum : Nat)
    (mappers reducers : List Nat) : Prop :=
  ∃ s, workflow b h files reducerNum mappers reducers = .ok s ∧
    ∀ r < reducerNum, ∃ counter, s.counters r = some counter ∧
    ∀ word, counter.lookup word = if getidx b word reducerNum = some r ∧ word ∈ allWords h files
      then some ((allWords h files).count word) else none

section Counting
variable {b : Build} {counter : HashMap}

theorem addCounts_spec (entries : List WordEntry) (counter : HashMap)
    (bounded : ∀ word, (counter.lookup word).getD 0 + occurs entries word < 2 ^ 32) :
    ∃ result, addCounts b entries counter = some result ∧ ∀ word, result.lookup word =
      if word ∈ entries.keys then some ((counter.lookup word).getD 0 + occurs entries word)
        else counter.lookup word := by
  induction entries generalizing counter with
  | nil => exact ⟨counter, rfl, by simp⟩
  | cons entry entries ih =>
    obtain ⟨key, count⟩ := entry
    have first := bounded key
    rw [occurs_cons, if_pos rfl] at first
    have lookups (word : Word) :
        ((counter.insert key ((counter.lookup key).getD 0 + count)).lookup word).getD 0 =
        (counter.lookup word).getD 0 + if key = word then count else 0 := by
      by_cases same : key = word
      · subst same
        simp
      · simp [AList.lookup_insert_ne (Ne.symm same), same]
    obtain ⟨result, added, holds⟩ :=
      ih (counter.insert key ((counter.lookup key).getD 0 + count)) (by
      intro word
      have whole := bounded word
      rw [occurs_cons] at whole
      rw [lookups]
      omega)
    refine ⟨result, ?_, ?_⟩
    · have sum : b.add32 ((counter.lookup key).getD 0) count =
          some ((counter.lookup key).getD 0 + count) :=
        Build.add32_eq b (by omega)
      simp only [addCounts, sum, Option.bind_some]
      exact added
    · intro word
      rw [holds, lookups, occurs_cons, List.keys_cons, Nat.add_assoc]
      by_cases later : word ∈ entries.keys
      · simp [later]
      · by_cases same : key = word
        · subst same
          simp [later, occurs_eq_zero later]
        · simp [later, Ne.symm same, AList.lookup_insert_ne (Ne.symm same)]

theorem countWords_spec (words : List Word) (few : words.length < 2 ^ 32) :
    ∃ counter, countWords b words = some counter ∧ ∀ word, counter.lookup word =
      if word ∈ words then some (words.count word) else none := by
  have occurrences (word : Word) : occurs (words.map fun word => ⟨word, 1⟩) word =
      words.count word := by
    induction words with
    | nil => rfl
    | cons first words ih =>
      rw [List.map_cons, occurs_cons, ih (by simp at few; omega), List.count_cons, Nat.add_comm]
      simp
  have keys : (words.map fun word => (⟨word, 1⟩ : WordEntry)).keys = words := by
    simp [List.keys, List.map_map, Function.comp_def]
  obtain ⟨counter, counted, holds⟩ :=
    addCounts_spec (b := b) (words.map fun word => ⟨word, 1⟩) ∅ (by
    intro word
    have most := List.count_le_length (a := word) (l := words)
    rw [occurrences]
    simpa using by omega)
  refine ⟨counter, counted, fun word => ?_⟩
  rw [holds, keys, occurrences]
  simp

/-- The counts of a map of word counts add up to the number of words. -/
theorem counterTotal_eq (words : List Word)
    (counted : ∀ word, counter.lookup word = if word ∈ words then some (words.count word)
      else none) :
    counterTotal counter = words.length := by
  have counts : counter.entries.map (fun entry => entry.2) =
      counter.keys.map fun word => words.count word := by
    rw [AList.keys, List.keys, List.map_map]
    refine List.map_congr_left fun entry member => ?_
    have found : counter.lookup entry.1 = some entry.2 := AList.mem_lookup_iff.mpr member
    rw [counted] at found
    split at found
    · exact (Option.some.inj found).symm
    · cases found
  have keys : counter.keys.Perm words.dedup := by
    refine (List.perm_ext_iff_of_nodup counter.keys_nodup words.nodup_dedup).mpr fun word => ?_
    rw [List.mem_dedup, ← AList.mem_keys, ← AList.lookup_isSome, counted]
    split <;> simp [*]
  rw [counterTotal, counts, (keys.map _).sum_eq]
  have total := List.sum_map_count_dedup_eq_length words
  rwa [lawful_beq_subsingleton instBEqOfDecidableEq List.instBEq] at total

end Counting

section Shuffling
variable {b : Build} {reducerNum : Nat}

/-- The hash of a word without overflow. -/
def hash (reducerNum : Nat) (word : Word) : Nat :=
  word.foldl (fun hashVal c => (hashVal * 31 + c.toNat) % reducerNum) 0

theorem foldl_hash_lt (positive : 1 ≤ reducerNum) (word : Word) (start : Nat)
    (below : start < reducerNum) :
    word.foldl (fun hashVal c => (hashVal * 31 + c.toNat) % reducerNum) start < reducerNum := by
  induction word generalizing start with
  | nil => exact below
  | cons c word ih => exact ih _ (Nat.mod_lt _ positive)

theorem hash_lt (positive : 1 ≤ reducerNum) (word : Word) : hash reducerNum word < reducerNum :=
  foldl_hash_lt positive word 0 positive

theorem foldlM_getidx (positive : 1 ≤ reducerNum) (room : 16 * reducerNum < 2 ^ 63) (word : Word)
    (start : Nat) (below : start < reducerNum) :
    word.foldlM (fun hashVal c =>
      (b.mul hashVal 31).bind fun product => (b.add product c.toNat).bind fun sum =>
        some (sum % reducerNum)) start =
      some (word.foldl (fun hashVal c => (hashVal * 31 + c.toNat) % reducerNum) start) := by
  induction word generalizing start with
  | nil => rfl
  | cons c word ih =>
    have char : c.toNat < 0x110000 := by
      have valid := c.valid
      simp only [UInt32.isValidChar, Nat.isValidChar] at valid
      simp only [Char.toNat]
      omega
    have product : b.mul start 31 = some (start * 31) := b.mul_eq (by unfold Rust.word; omega)
    have sum : b.add (start * 31) c.toNat = some (start * 31 + c.toNat) :=
      b.add_eq (by unfold Rust.word; omega)
    rw [List.foldlM_cons, product, Option.bind_some, sum]
    exact ih _ (Nat.mod_lt _ positive)

/-- With room for the buffers, the hash does not overflow. -/
theorem getidx_eq (positive : 1 ≤ reducerNum) (room : 16 * reducerNum < 2 ^ 63) (word : Word) :
    getidx b word reducerNum = some (hash reducerNum word) :=
  foldlM_getidx positive room word 0 positive

/-- Each entry ends up in the buffer that its hash selects. -/
theorem shuffle_spec (positive : 1 ≤ reducerNum) (room : 16 * reducerNum < 2 ^ 63)
    (entries : List WordEntry) (buffers : List HashMap) (sized : buffers.length = reducerNum)
    (unique : entries.NodupKeys) :
    ∃ filled, shuffle b reducerNum entries buffers = some filled ∧ filled.length = reducerNum ∧
      ∀ r buffer old, filled[r]? = some buffer → buffers[r]? = some old →
        ∀ word, buffer.lookup word =
        if hash reducerNum word = r ∧ word ∈ entries.keys then entries.dlookup word
          else old.lookup word := by
  induction entries generalizing buffers with
  | nil =>
    refine ⟨buffers, rfl, sized, fun r buffer old now before word => ?_⟩
    obtain rfl : buffer = old := by simpa [now] using before
    simp
  | cons entry entries ih =>
    obtain ⟨key, count⟩ := entry
    have apart := List.nodupKeys_cons.mp unique
    have inside : hash reducerNum key < buffers.length := by
      rw [sized]
      exact hash_lt positive key
    obtain ⟨filled, shuffled, length, holds⟩ := ih (buffers.set (hash reducerNum key)
      (buffers[hash reducerNum key].insert key count)) (by simpa using sized) apart.2
    refine ⟨filled, ?_, length, ?_⟩
    · simp only [shuffle, getidx_eq positive room, Option.bind_some,
        List.getElem?_eq_getElem inside]
      exact shuffled
    · intro r buffer old now before word
      by_cases chosen : hash reducerNum key = r
      · subst chosen
        obtain rfl : buffers[hash reducerNum key] = old := by
          simpa [List.getElem?_eq_getElem inside] using before
        rw [holds _ buffer (buffers[hash reducerNum key].insert key count) now
          (by simp [inside]) word]
        by_cases same : word = key
        · subst same
          rw [if_neg fun both => apart.1 both.2, if_pos ⟨rfl, by simp⟩, AList.lookup_insert,
            List.dlookup_cons_eq]
        · simp [same, AList.lookup_insert_ne same]
      · rw [holds r buffer old now (by rwa [List.getElem?_set_ne chosen]) word]
        by_cases same : word = key
        · subst same
          simp [chosen]
        · simp [same]

end Shuffling

theorem slot_inj : slot i r = slot j q ↔ i = j ∧ r = q := by
  constructor
  · intro same
    have lists : (toString i ++ "-" ++ toString r).toList =
        (toString j ++ "-" ++ toString q).toList :=
      congrArg String.toList same
    simp only [String.toList_append, Nat.toString_eq_repr, Nat.toList_repr,
      List.append_assoc] at lists
    obtain ⟨rfl, rest⟩ := Text.digits_append_inj (by simp) (by simp) lists
    exact ⟨rfl, Text.digits_injective (List.append_cancel_left rest)⟩
  · rintro ⟨rfl, rfl⟩
    rfl

/-- The map of a reducer after these words: the words that its hash selects, with their counts. -/
def Holds (reducerNum r : Nat) (words : List Word) (m : HashMap) : Prop :=
  ∀ word, m.lookup word = if hash reducerNum word = r ∧ word ∈ words then some (words.count word)
    else none

section Stages
variable {b : Build} {h : Host} {files : List (List Char)} {reducerNum : Nat} {done : List Nat}
  {s : State} {id : Nat}

/-- The mappers that ran have left a map for each reducer. -/
def MappersRan (h : Host) (files : List (List Char)) (reducerNum : Nat) (done : List Nat)
    (s : State) : Prop :=
  ∀ i content, files[i]? = some content → i ∈ done →
    ∀ r < reducerNum, ∃ m, s.slots (slot i r) = some m ∧
    Holds reducerNum r (tokens h content) m

theorem mappersRan_nil (h : Host) (files : List (List Char)) (reducerNum : Nat) (s : State) :
    MappersRan h files reducerNum [] s := by
  intro i content _ member
  simp at member

/-- The buffers of a mapper are filled by the hash. -/
theorem buffers_spec (positive : 1 ≤ reducerNum) (room : 16 * reducerNum < 2 ^ 63)
    (words : List Word) (counter : HashMap)
    (counted : ∀ word, counter.lookup word = if word ∈ words then some (words.count word)
      else none) :
    ∃ buffers, shuffle b reducerNum (h.iter counter) (List.replicate reducerNum ∅) = some buffers ∧
      buffers.length = reducerNum ∧ ∀ r buffer, buffers[r]? = some buffer →
        Holds reducerNum r words buffer := by
  have unique := iter_nodupKeys h.toIteration counter
  obtain ⟨buffers, shuffled, length, holds⟩ := shuffle_spec (b := b) positive room (h.iter counter)
    (List.replicate reducerNum ∅) (by simp) unique
  refine ⟨buffers, shuffled, length, fun r buffer located word => ?_⟩
  have bound : r < reducerNum := by
    have inside := (List.getElem?_eq_some_iff.mp located).1
    omega
  have lookups : (h.iter counter).dlookup word = counter.lookup word :=
    List.perm_dlookup word unique (h.perm counter)
  rw [holds r buffer ∅ located (by simp [bound]) word]
  simp only [lookups, mem_keys_iter, counted, AList.lookup_empty]
  by_cases member : word ∈ words <;> simp [member]

/-- The slots that a mapper leaves. -/
def mapped (s : State) (id : Nat) (buffers : List HashMap) : State :=
  { s with slots := buffers.zipIdx.foldl (fun slots e => slots.put (slot id e.2) e.1) s.slots }

theorem mapped_other (buffers : List HashMap) (other : i ≠ id) :
    (mapped s id buffers).slots (slot i r) = s.slots (slot i r) :=
  Slots.foldl_put_other (fun e : HashMap × Nat => slot id e.2) Prod.fst _ _ fun _ _ same =>
    other (slot_inj.mp same).1

theorem mapped_own (buffers : List HashMap) (located : buffers[r]? = some buffer) :
    (mapped s id buffers).slots (slot id r) = some buffer := by
  refine Slots.foldl_put_mem (fun e : HashMap × Nat => slot id e.2) Prod.fst _ _ ?_
    ⟨(buffer, r), List.mk_mem_zipIdx_iff_getElem?.mpr located, rfl⟩
  intro e member same
  obtain ⟨-, rfl⟩ := slot_inj.mp same
  simpa [List.mk_mem_zipIdx_iff_getElem?.mp member] using located

theorem mapper_step (ran : MappersRan h files reducerNum done s) (positive : 1 ≤ reducerNum)
    (room : 16 * reducerNum < 2 ^ 63) (located : files[id]? = some content)
    (few : (tokens h content).length < 2 ^ 32) :
    ∃ t, mapper b h files reducerNum id s = .ok t ∧
      MappersRan h files reducerNum (done ++ [id]) t := by
  obtain ⟨counter, counted, counts⟩ := countWords_spec (b := b) (tokens h content) few
  obtain ⟨buffers, shuffled, length, holds⟩ :=
    buffers_spec (b := b) (h := h) positive room _ counter counts
  have total := counterTotal_eq (tokens h content) counts
  refine ⟨mapped s id buffers, ?_, ?_⟩
  · simp only [mapper, located, counted, Outcome.orPanic, Outcome.bind, shuffled]
    rw [if_neg (by unfold Rust.word; omega)]
    rfl
  · intro i content' located' member r bound
    by_cases own : i = id
    · subst own
      obtain rfl : content = content' := by simpa [located] using located'
      have entry := List.getElem?_eq_getElem (show r < buffers.length by omega)
      exact ⟨buffers[r], mapped_own buffers entry, holds r _ entry⟩
    · rw [mapped_other buffers own]
      exact ran i content' located' (by simpa [own] using member) r bound

/-- The reducers that ran have their counters, and the slots of the others are as the mappers left
them. -/
structure ReducersRan (h : Host) (files : List (List Char)) (reducerNum : Nat) (done : List Nat)
    (s : State) : Prop where
  slots : ∀ i content r, files[i]? = some content → r < reducerNum → r ∉ done →
    ∃ m, s.slots (slot i r) = some m ∧
    Holds reducerNum r (tokens h content) m
  counters : ∀ r ∈ done, ∃ counter, s.counters r = some counter ∧
    Holds reducerNum r (allWords h files) counter

theorem Holds.add (held : Holds reducerNum r words counter) (more : Holds reducerNum r words' m)
    (few : words.length + words'.length < 2 ^ 32) :
    ∃ result, addCounts b (h.iter m) counter = some result ∧
      Holds reducerNum r (words ++ words') result := by
  have old (word : Word) : (counter.lookup word).getD 0 ≤ words.count word := by
    rw [held]
    split <;> simp
  have new (word : Word) : (m.lookup word).getD 0 ≤ words'.count word := by
    rw [more]
    split <;> simp
  obtain ⟨result, added, holds⟩ := addCounts_spec (b := b) (h.iter m) counter (by
    intro word
    have first := (old word).trans List.count_le_length
    have second := (new word).trans List.count_le_length
    rw [occurs_iter]
    omega)
  refine ⟨result, added, fun word => ?_⟩
  rw [holds]
  simp only [mem_keys_iter, occurs_iter, held word, more word]
  by_cases chosen : hash reducerNum word = r
  · by_cases member : word ∈ words <;> by_cases member' : word ∈
        words' <;> simp [chosen, member, member', List.count_eq_zero_of_not_mem]
  · simp [chosen]

/-- A reducer that takes the maps of these mappers counts their words. -/
theorem gather_spec (mappers : List Nat) (nodup : mappers.Nodup) (words : List Word)
    (counter : HashMap) (slots : Slots HashMap) (contents : Nat → List Char)
    (held : Holds reducerNum r words counter)
    (present : ∀ i ∈ mappers, ∃ m, slots (slot i r) = some m ∧
      Holds reducerNum r (tokens h (contents i)) m)
    (few : (words ++ mappers.flatMap fun i => tokens h (contents i)).length < 2 ^ 32) :
    ∃ result slots', gather b h r mappers counter slots = .ok (result, slots') ∧
      Holds reducerNum r (words ++ mappers.flatMap fun i => tokens h (contents i)) result ∧
      ∀ i q, q ≠ r → slots' (slot i q) = slots (slot i q) := by
  induction mappers generalizing words counter slots with
  | nil => exact ⟨counter, slots, rfl, by simpa using held, fun _ _ _ => rfl⟩
  | cons i mappers ih =>
    have apart := List.nodup_cons.mp nodup
    obtain ⟨m, stored, more⟩ := present i (by simp)
    simp only [List.flatMap_cons, List.length_append] at few
    obtain ⟨sum, added, held'⟩ := held.add (b := b) (h := h) more (by omega)
    obtain ⟨result, slots', gathered, last, kept⟩ := ih apart.2 (words ++ tokens h (contents i)) sum
      (slots.clear (slot i r)) held' (by
        intro j member
        obtain ⟨m, stored, holds⟩ := present j (by simp [member])
        have other : slot j r ≠ slot i r := fun same => apart.1 ((slot_inj.mp same).1 ▸ member)
        exact ⟨m, by rwa [Slots.clear, Function.update_of_ne other], holds⟩)
      (by simp only [List.length_append]; omega)
    refine ⟨result, slots', ?_, ?_, ?_⟩
    · simp only [gather, stored, Outcome.orPanic, Outcome.bind, added, gathered]
    · rwa [List.flatMap_cons, ← List.append_assoc]
    · intro j q other
      have apart : slot j q ≠ slot i r := fun same => other (slot_inj.mp same).2
      rw [kept j q other, Slots.clear, Function.update_of_ne apart]

theorem flatMap_range_getD (f : List Char → List Word) (files : List (List Char)) :
    ((List.range files.length).flatMap fun i => f (files.getD i [])) = files.flatMap f := by
  rw [List.flatMap_def, List.flatMap_def]
  congr 1
  refine List.ext_getElem (by simp) fun i bound _ => ?_
  have inside : i < files.length := by simpa using bound
  simp [inside]

theorem reducer_step (ran : ReducersRan h files reducerNum done s)
    (few : (allWords h files).length < 2 ^ 32) (mappers : files.length < word)
    (bound : id < reducerNum) (new : id ∉ done) :
    ∃ t, reducer b h files.length id s = .ok t ∧
      ReducersRan h files reducerNum (done ++ [id]) t := by
  have empty : Holds reducerNum id [] ∅ := by simp [Holds]
  have every := flatMap_range_getD (tokens h) files
  obtain ⟨counter, slots, gathered, held, kept⟩ :=
    gather_spec (b := b) (List.range files.length) List.nodup_range [] ∅
    s.slots (fun i => files.getD i []) empty
    (by
      intro i member
      have located := List.getElem?_eq_getElem (List.mem_range.mp member)
      rw [List.getD_eq_getElem?_getD, located]
      exact ran.slots i _ id located bound new)
    (by rw [List.nil_append, every]; exact few)
  rw [List.nil_append, every] at held
  refine ⟨⟨slots, Function.update s.counters id (some counter)⟩, ?_, ?_, ?_⟩
  · rw [reducer, if_neg (by omega), gathered]
    rfl
  · intro i content r located bound' new'
    simp only [List.mem_append, List.mem_singleton, not_or] at new'
    obtain ⟨m, stored, holds⟩ := ran.slots i content r located bound' new'.1
    exact ⟨m, (kept i r new'.2).trans stored, holds⟩
  · intro r member
    by_cases own : r = id
    · subst own
      exact ⟨counter, Function.update_self .., held⟩
    · obtain ⟨old, stored, holds⟩ := ran.counters r (by simpa [own] using member)
      exact ⟨old, (Function.update_of_ne own ..).trans stored, holds⟩

theorem length_tokens_le (h : Host) (i : Nat) (located : files[i]? = some content) :
    (tokens h content).length ≤ (allWords h files).length := by
  have member : tokens h content ∈ files.map (tokens h) :=
    List.mem_map_of_mem (List.mem_of_getElem? located)
  exact (List.sublist_flatten_of_mem member).length_le

end Stages

/-- Where the mappers have room for a buffer for each reducer, the reducers hold the number of
occurrences of each word, at the reducer that its hash selects. -/
theorem workflow_counts (b : Build) (h : Host) (files : List (List Char)) (reducerNum : Nat)
    (mappers reducers : List Nat) (few : (allWords h files).length < 2 ^ 32)
    (mapperNum : files.length < word) (positive : 1 ≤ reducerNum)
    (room : 16 * reducerNum < 2 ^ 63) (allMappers : mappers.Perm (List.range files.length))
    (allReducers : reducers.Perm (List.range reducerNum)) :
    Counts b h files reducerNum mappers reducers := by
  have mapping : Grows (mapper b h files reducerNum) (· < files.length) (fun _ => True)
      (MappersRan h files reducerNum) := by
    intro done id s ran _ bound _
    have located := List.getElem?_eq_getElem bound
    have part := length_tokens_le h id located
    exact mapper_step ran positive room located (by omega)
  have reducing : Grows (reducer b h files.length) (· < reducerNum) (fun _ => True)
      (ReducersRan h files reducerNum) :=
    fun done id s ran new bound _ => reducer_step ran few mapperNum bound new
  obtain ⟨s, mapped, filled⟩ := stage_ok (s := ⟨fun _ => none, fun _ => none⟩) mapping
    (fun _ member => List.mem_range.mp (allMappers.mem_iff.mp member)) (fun _ _ => trivial)
    (allMappers.nodup_iff.mpr List.nodup_range) (mappersRan_nil _ _ _ _)
  have start : ReducersRan h files reducerNum [] s := by
    refine ⟨fun i content r located bound _ => ?_, by simp⟩
    have inside := (List.getElem?_eq_some_iff.mp located).1
    exact filled i content located (allMappers.mem_iff.mpr (List.mem_range.mpr inside)) r bound
  obtain ⟨t, reduced, last⟩ :=
    stage_ok reducing (fun _ member => List.mem_range.mp (allReducers.mem_iff.mp member))
    (fun _ _ => trivial) (allReducers.nodup_iff.mpr List.nodup_range) start
  refine ⟨t, ?_, fun r bound => ?_⟩
  · rw [workflow, mapped]
    exact reduced
  · obtain ⟨counter, stored, holds⟩ :=
      last.counters r (allReducers.mem_iff.mpr (List.mem_range.mpr bound))
    refine ⟨counter, stored, fun word => ?_⟩
    rw [holds word, getidx_eq positive room]
    simp

/-- Maps that are iterated in the order of their entries, and the letters and digits of ASCII. -/
def asciiHost : Host := ⟨inOrder, Char.isAlphanum⟩

/-- Two files with a common word, three reducers. -/
theorem twoFiles_counted :
    Counts debug asciiHost ["to be or\nnot to be".toList, "to see, or not".toList] 3 [1, 0]
      [0, 2, 1] :=
  workflow_counts debug asciiHost _ 3 [1, 0] [0, 2, 1] (by decide) (by decide) (by decide)
    (by decide) (by decide) (by decide)

/-- With `2^59` reducers the capacity of the vector of buffers overflows. -/
theorem manyReducers_fail :
    ¬ ∀ b h files reducerNum mappers reducers, (allWords h files).length < 2 ^ 32 →
    1 ≤ files.length → files.length < word → 1 ≤ reducerNum → reducerNum < word →
    mappers.Perm (List.range files.length) → reducers.Perm (List.range reducerNum) →
    Counts b h files reducerNum mappers reducers := by
  intro counts
  obtain ⟨s, ran, -⟩ :=
    counts release asciiHost [[]] (2 ^ 59) [0] (List.range (2 ^ 59)) (by decide) (by decide)
      (by decide)
    (by decide) (by decide) (by decide) (.refl _)
  have panics : mapper release asciiHost [[]] (2 ^ 59) 0 ⟨fun _ => none, fun _ => none⟩ = .panic :=
    rfl
  rw [workflow, stage, panics] at ran
  cases ran

end AlloyStack.User.WordCount
