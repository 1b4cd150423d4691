import Mathlib.Data.List.Perm.Subperm
import AlloyStack.User.WordCount

/-! The mapper built with `pkey_per_func`: its shuffle tables are maps of fixed capacity with words
of fixed capacity. A word that is too long ends the mapper, and an entry that a full table refuses
is dropped without a trace. -/
namespace AlloyStack.User.WordCount
open Rust Tally

/-- The length of a word in UTF-8. -/
def wordBytes (word : Word) : Nat := (word.map Char.utf8Size).sum

/-- `heapless::String::<32>::from_str(word).unwrap()` -/
def shortWord (word : Word) : Option Word := if wordBytes word ≤ 32 then some word else none

/-- `heapless::FnvIndexMap::insert` with the capacity 1024: a full map refuses a new key, which the
mapper does not look at. -/
def insertBounded (m : HashMap) (word : Word) (count : Nat) : HashMap :=
  if word ∈ m ∨ m.keys.length < 1024 then m.insert word count else m

/-- The second loop of the mapper with `pkey_per_func`. -/
def shufflePkey (b : Build) (reducerNum : Nat) :
    List WordEntry → List HashMap → Option (List HashMap)
  | [], buffers => some buffers
  | entry :: entries, buffers =>
    (getidx b entry.1 reducerNum).bind fun idx =>
    (shortWord entry.1).bind fun word =>
    (buffers[idx]?).bind fun buffer =>
      shufflePkey b reducerNum entries (buffers.set idx (insertBounded buffer word entry.2))

/-- `mapper_func` with the second loop of a build. -/
def mapperWith (fill : List WordEntry → List HashMap → Option (List HashMap)) (b : Build)
    (h : Host) (files : List (List Char)) (reducerNum : Nat) (id : Nat) (s : State) :
    Outcome State :=
  match files[id]? with
  | none => .err "open failed"
  | some content =>
    (Outcome.orPanic (countWords b (tokens h content))).bind fun counter =>
    if word ≤ reducerNum ∨ b.overflowChecks ∧ 2 ^ 32 ≤ counterTotal counter ∨
      2 ^ 63 ≤ 16 * reducerNum then .panic
    else
      (Outcome.orPanic (fill (h.iter counter) (List.replicate reducerNum ∅))).bind fun buffers =>
        .ok (mapped s id buffers)

/-- The mapper with `pkey_per_func`. The drop of the table that `Default::default()` replaces is
left out here too. -/
def mapperPkey (b : Build) (h : Host) (files : List (List Char)) (reducerNum : Nat) (id : Nat)
    (s : State) : Outcome State :=
  mapperWith (shufflePkey b reducerNum) b h files reducerNum id s

/-- For every reducer the tables of both builds are the same map. -/
def SameTables (reducerNum id : Nat) (s t : State) : Prop :=
  ∀ r < reducerNum, ∃ m m', s.slots (slot id r) = some m ∧ t.slots (slot id r) = some m' ∧
    ∀ word, m.lookup word = m'.lookup word

/-- The different words of a reducer. -/
def reducerWords (b : Build) (reducerNum r : Nat) (words : List Word) : List Word :=
  words.dedup.filter fun word => getidx b word reducerNum = some r

section Inversion
variable {b : Build} {h : Host} {files : List (List Char)} {reducerNum id : Nat} {s t : State}
variable {fill : List WordEntry → List HashMap → Option (List HashMap)} {content : List Char}

theorem mapper_eq (b : Build) (h : Host) (files : List (List Char)) (reducerNum id : Nat)
    (s : State) :
    mapper b h files reducerNum id s =
      mapperWith (shuffle b reducerNum) b h files reducerNum id s :=
  rfl

theorem mapperWith_ok_iff (located : files[id]? = some content) :
    mapperWith fill b h files reducerNum id s = .ok t ↔
      ∃ counter, countWords b (tokens h content) = some counter ∧
      ¬ (word ≤ reducerNum ∨ b.overflowChecks ∧ 2 ^ 32 ≤ counterTotal counter ∨
        2 ^ 63 ≤ 16 * reducerNum) ∧
      ∃ buffers, fill (h.iter counter) (List.replicate reducerNum ∅) = some buffers ∧
        mapped s id buffers = t := by
  simp only [mapperWith, located]
  cases counted : countWords b (tokens h content) with
  | none => simp only [Outcome.orPanic, Outcome.bind, reduceCtorEq, false_and, exists_false]
  | some counter =>
    simp only [Outcome.orPanic, Outcome.bind, Option.some.injEq, exists_eq_left']
    by_cases wide : word ≤ reducerNum ∨ b.overflowChecks ∧ 2 ^ 32 ≤ counterTotal counter ∨
        2 ^ 63 ≤ 16 * reducerNum
    · rw [if_pos wide]
      exact iff_of_false (by simp) fun both => both.1 wide
    · rw [if_neg wide]
      cases fill (h.iter counter) (List.replicate reducerNum ∅) with
      | none => simp only [reduceCtorEq, false_and, exists_false, and_false]
      | some buffers =>
        simp only [wide, not_false_eq_true, true_and, Option.some.injEq, exists_eq_left',
          Outcome.ok.injEq]

end Inversion

section Tables
variable {b : Build} {reducerNum : Nat} {m : HashMap} {entries : List WordEntry}
  {buffers filled : List HashMap}

theorem insertBounded_length (small : m.keys.length ≤ 1024) (word : Word) (count : Nat) :
    (insertBounded m word count).keys.length ≤ 1024 := by
  unfold insertBounded
  split
  next room =>
    rw [keys_insert_length]
    split
    · exact small
    next absent =>
      have := room.resolve_left absent
      omega
  · exact small

/-- What a table of the bounded build takes is bounded. -/
theorem shufflePkey_bounded (small : ∀ m ∈ buffers, m.keys.length ≤ 1024)
    (shuffled : shufflePkey b reducerNum entries buffers = some filled) :
    filled.length = buffers.length ∧ ∀ m ∈ filled, m.keys.length ≤ 1024 := by
  induction entries generalizing buffers with
  | nil =>
    obtain rfl := Option.some.inj shuffled
    exact ⟨rfl, small⟩
  | cons entry entries ih =>
    simp only [shufflePkey, Option.bind_eq_some_iff] at shuffled
    obtain ⟨idx, -, word, -, buffer, located, rest⟩ := shuffled
    have kept : ∀ m ∈ buffers.set idx (insertBounded buffer word entry.2),
        m.keys.length ≤ 1024 := by
      intro m member
      rcases List.mem_or_eq_of_mem_set member with old | rfl
      · exact small m old
      · exact insertBounded_length (small buffer (List.mem_of_getElem? located)) word _
    obtain ⟨length, bounded⟩ := ih kept rest
    exact ⟨length.trans List.length_set, bounded⟩

theorem shufflePkey_short (shuffled : shufflePkey b reducerNum entries buffers = some filled) :
    ∀ entry ∈ entries, wordBytes entry.1 ≤ 32 := by
  induction entries generalizing buffers with
  | nil => simp
  | cons entry entries ih =>
    simp only [shufflePkey, Option.bind_eq_some_iff] at shuffled
    obtain ⟨idx, -, word, short, buffer, -, rest⟩ := shuffled
    intro other member
    rcases List.mem_cons.mp member with rfl | later
    · by_contra long
      simp [shortWord, long] at short
    · exact ih rest other later

/-- Where every table has room for its words, the bounds are not felt. -/
theorem shufflePkey_eq (positive : 1 ≤ reducerNum) (room : 16 * reducerNum < 2 ^ 63)
    (short : ∀ entry ∈ entries, wordBytes entry.1 ≤ 32)
    (few : ∀ (r : Nat) m, buffers[r]? = some m →
      m.keys.length + (entries.filter fun entry => hash reducerNum entry.1 = r).length ≤ 1024) :
    shufflePkey b reducerNum entries buffers = shuffle b reducerNum entries buffers := by
  induction entries generalizing buffers with
  | nil => rfl
  | cons entry entries ih =>
    have whole : shortWord entry.1 = some entry.1 := if_pos (short entry (by simp))
    simp only [shufflePkey, shuffle, getidx_eq positive room, Option.bind_some, whole]
    cases located : buffers[hash reducerNum entry.1]? with
    | none => rfl
    | some m =>
      have most := few _ m located
      rw [List.filter_cons_of_pos (by simp), List.length_cons] at most
      have free : insertBounded m entry.1 entry.2 = m.insert entry.1 entry.2 :=
        if_pos (.inr (by omega))
      rw [Option.bind_some, Option.bind_some, free]
      refine ih (fun other member => short other (by simp [member])) fun r table found => ?_
      rw [List.getElem?_set] at found
      split at found
      next same =>
        subst same
        obtain ⟨-, rfl⟩ : _ ∧ m.insert entry.1 entry.2 = table := by simpa using found
        rw [keys_insert_length]
        split <;> omega
      next other =>
        have rest := few r table found
        rwa [List.filter_cons_of_neg (by simpa using other)] at rest

end Tables

section Agreement
variable {b : Build} {reducerNum : Nat} {counter result : HashMap} {entries : List WordEntry}
  {words : List Word} {word : Word}

theorem mem_addCounts (added : addCounts b entries counter = some result) :
    word ∈ result ↔ word ∈ entries.keys ∨ word ∈ counter := by
  induction entries generalizing counter with
  | nil =>
    obtain rfl := Option.some.inj added
    simp
  | cons entry entries ih =>
    obtain ⟨count, -, rest⟩ := Option.bind_eq_some_iff.mp added
    rw [ih rest, AList.mem_insert, List.keys_cons, List.mem_cons]
    tauto

theorem mem_countWords (counted : countWords b words = some counter) :
    word ∈ counter ↔ word ∈ words := by
  have keys : (words.map fun word => (⟨word, 1⟩ : WordEntry)).keys = words := by
    simp [List.keys, List.map_map, Function.comp_def]
  rw [mem_addCounts counted, keys]
  simp

/-- The mapper iterates over the words of its file. -/
theorem mem_keys_counted (order : Iteration Word Nat)
    (counted : countWords b words = some counter) :
    word ∈ (order.iter counter).keys ↔ word ∈ words := by
  rw [mem_keys_iter, AList.lookup_isSome, mem_countWords counted]

/-- A table of the growable build has the entries of the counter that the hash selects. -/
theorem shuffle_lookup (positive : 1 ≤ reducerNum) (room : 16 * reducerNum < 2 ^ 63)
    (order : Iteration Word Nat)
    (shuffled : shuffle b reducerNum (order.iter counter) (List.replicate reducerNum ∅) =
      some filled) :
    filled.length = reducerNum ∧ ∀ (r : Nat) m, filled[r]? = some m → ∀ word, m.lookup word =
      if hash reducerNum word = r then counter.lookup word else none := by
  have unique := iter_nodupKeys order counter
  obtain ⟨filled', shuffled', length, holds⟩ :=
    shuffle_spec (b := b) positive room (order.iter counter)
    (List.replicate reducerNum ∅) (by simp) unique
  obtain rfl := Option.some.inj (shuffled.symm.trans shuffled')
  refine ⟨length, fun r m located word => ?_⟩
  have bound : r < reducerNum := length ▸ (List.getElem?_eq_some_iff.mp located).1
  have lookups : (order.iter counter).dlookup word = counter.lookup word :=
    List.perm_dlookup word unique (order.perm counter)
  rw [holds r m ∅ located (by simp [bound]) word, lookups, AList.lookup_empty]
  simp only [mem_keys_iter]
  by_cases chosen : hash reducerNum word = r
  · cases counter.lookup word <;> simp [chosen]
  · simp [chosen]

theorem mem_reducerWords (positive : 1 ≤ reducerNum) (room : 16 * reducerNum < 2 ^ 63) :
    word ∈ reducerWords b reducerNum r words ↔ word ∈ words ∧ hash reducerNum word = r := by
  simp only [reducerWords, List.mem_filter, List.mem_dedup, getidx_eq positive room,
    Option.some.injEq, decide_eq_true_eq]

theorem reducerWords_length (positive : 1 ≤ reducerNum) (room : 16 * reducerNum < 2 ^ 63)
    (order : Iteration Word Nat) (counted : countWords b words = some counter) (r : Nat) :
    ((order.iter counter).filter fun entry => hash reducerNum entry.1 = r).length =
      (reducerWords b reducerNum r words).length := by
  have keys : (order.iter counter).keys.Perm words.dedup := by
    refine (List.perm_ext_iff_of_nodup ?_ words.nodup_dedup).mpr fun word => ?_
    · exact iter_nodupKeys order counter
    · rw [List.mem_dedup, mem_keys_counted order counted]
  have chosen := (keys.filter fun word => hash reducerNum word = r).length_eq
  rw [List.keys, List.filter_map, List.length_map] at chosen
  rw [reducerWords]
  simp only [getidx_eq positive room, Option.some.injEq]
  exact chosen

end Agreement

section Builds
variable {b : Build} {h : Host} {order : Iteration Word Nat} {files : List (List Char)}
  {reducerNum id : Nat} {s t : State}
variable {content : List Char} {counter m : HashMap} {filled : List HashMap}

/-- A table that holds what the growable one holds has a key for each word of its reducer. -/
theorem reducerWords_le_keys (positive : 1 ≤ reducerNum) (room : 16 * reducerNum < 2 ^ 63)
    (counted : countWords b words = some counter)
    (lookups : ∀ word, m.lookup word = if hash reducerNum word = r then counter.lookup word
      else none)
    (m' : HashMap) (same : ∀ word, m.lookup word = m'.lookup word) :
    (reducerWords b reducerNum r words).length ≤ m'.keys.length := by
  refine (List.Nodup.subperm (words.nodup_dedup.filter _) fun word member => ?_).length_le
  obtain ⟨inside, chosen⟩ := (mem_reducerWords positive room).mp member
  have present : (m'.lookup word).isSome := by
    rw [← same, lookups, if_pos chosen, AList.lookup_isSome]
    exact (mem_countWords counted).mpr inside
  exact AList.lookup_isSome.mp present

/-- Where the growable build finishes, the bounded build finishes with the same tables exactly when
no word has more than 32 bytes and no reducer has more than 1024 different words. -/
theorem builds_agree_iff (b : Build) (h : Host) (order : Iteration Word Nat)
    (files : List (List Char)) (reducerNum id : Nat) (s t : State) (content : List Char)
    (positive : 1 ≤ reducerNum) (located : files[id]? = some content)
    (finishes : mapper b h files reducerNum id s = .ok t) :
    (∃ u, mapperPkey b ⟨order, h.isAlphanumeric⟩ files reducerNum id s = .ok u ∧
      SameTables reducerNum id t u) ↔
      (∀ word ∈ tokens h content, wordBytes word ≤ 32) ∧
        ∀ r < reducerNum, (reducerWords b reducerNum r (tokens h content)).length ≤ 1024 := by
  rw [mapper_eq, mapperWith_ok_iff located] at finishes
  obtain ⟨counter, counted, narrow, buffers, shuffled, rfl⟩ := finishes
  have room : 16 * reducerNum < 2 ^ 63 := by omega
  obtain ⟨length, lookups⟩ := shuffle_lookup positive room h.toIteration shuffled
  have table (r : Nat) (bound : r < reducerNum) : buffers[r]? = some buffers[r] :=
    List.getElem?_eq_getElem (length ▸ bound)
  constructor
  · rintro ⟨u, ran, same⟩
    rw [mapperPkey, mapperWith_ok_iff located] at ran
    obtain ⟨counter', counted', -, tables, bounded, rfl⟩ := ran
    obtain rfl : counter = counter' := Option.some.inj (counted.symm.trans counted')
    constructor
    · intro word member
      obtain ⟨entry, inside, rfl⟩ := List.mem_map.mp ((mem_keys_counted order counted).mpr member)
      exact shufflePkey_short bounded entry inside
    · intro r bound
      obtain ⟨m, m', own, other, equal⟩ := same r bound
      obtain ⟨sized, small⟩ := shufflePkey_bounded (by simp) bounded
      have inside : r < tables.length := by simpa [sized] using bound
      have place : tables[r]? = some tables[r] := List.getElem?_eq_getElem inside
      rw [mapped_own buffers (table r bound)] at own
      rw [mapped_own tables place] at other
      obtain rfl := Option.some.inj own
      obtain rfl := Option.some.inj other
      have most := small _ (List.mem_of_getElem? place)
      exact (reducerWords_le_keys positive room counted (lookups r _ (table r bound)) _ equal).trans
        most
  · rintro ⟨short, few⟩
    have unfelt : shufflePkey b reducerNum (order.iter counter) (List.replicate reducerNum ∅) =
        shuffle b reducerNum (order.iter counter) (List.replicate reducerNum ∅) := by
      refine shufflePkey_eq positive room (fun entry member => short entry.1 ?_) fun r m found => ?_
      · exact (mem_keys_counted order counted).mp (List.mem_map_of_mem member)
      · obtain ⟨bound, rfl⟩ : r < reducerNum ∧ ∅ = m := by
          simpa [List.getElem?_replicate] using found
        rw [reducerWords_length positive room order counted]
        have most := few r bound
        simpa using most
    obtain ⟨tables, filled, -⟩ :=
      shuffle_spec (b := b) positive room (order.iter counter) (List.replicate reducerNum ∅)
        (by simp)
      (iter_nodupKeys order counter)
    obtain ⟨sized, found⟩ := shuffle_lookup positive room order filled
    refine ⟨mapped s id tables,
      (mapperWith_ok_iff located).mpr ⟨counter, counted, narrow, tables, unfelt.trans filled, rfl⟩,
      ?_⟩
    intro r bound
    have place : tables[r]? = some tables[r] := List.getElem?_eq_getElem (sized ▸ bound)
    refine ⟨buffers[r], tables[r], mapped_own buffers (table r bound), mapped_own tables place,
      fun word => ?_⟩
    rw [lookups r _ (table r bound), found r _ place]

end Builds

theorem fewWords_agree :
    ∃ t, mapper debug asciiHost ["to be or not to be".toList] 2 0 ⟨fun _ => none, fun _ => none⟩ =
      .ok t ∧
    ∃ u, mapperPkey debug asciiHost ["to be or not to be".toList] 2 0
      ⟨fun _ => none, fun _ => none⟩ = .ok u ∧
      SameTables 2 0 t u := by
  have start :=
    mappersRan_nil asciiHost ["to be or not to be".toList] 2 ⟨fun _ => none, fun _ => none⟩
  have located : ["to be or not to be".toList][0]? = some "to be or not to be".toList := rfl
  obtain ⟨t, ran, -⟩ := mapper_step (b := debug) start (by decide) (by decide) located (by decide)
  exact ⟨t, ran, (builds_agree_iff debug asciiHost inOrder _ 2 0 _ t _ (by decide) located ran).mpr
    ⟨by decide, by decide⟩⟩

/-- A word of 33 letters. -/
theorem longWord_panics :
    ¬ ∀ b h order files reducerNum id s t, 1 ≤ reducerNum →
      mapper b h files reducerNum id s = .ok t →
    ∃ u, mapperPkey b ⟨order, h.isAlphanumeric⟩ files reducerNum id s = .ok u ∧
      SameTables reducerNum id t u := by
  intro all
  have start := mappersRan_nil asciiHost [List.replicate 33 'a'] 1 ⟨fun _ => none, fun _ => none⟩
  have located : [List.replicate 33 'a'][0]? = some (List.replicate 33 'a') := rfl
  obtain ⟨t, ran, -⟩ := mapper_step (b := debug) start (by decide) (by decide) located (by decide)
  obtain ⟨u, finishes, -⟩ := all debug asciiHost inOrder _ 1 0 _ t (by decide) ran
  have panics : mapperPkey debug ⟨inOrder, asciiHost.isAlphanumeric⟩ [List.replicate 33 'a'] 1 0
    ⟨fun _ => none, fun _ => none⟩ = .panic := rfl
  cases panics.symm.trans finishes

end AlloyStack.User.WordCount
