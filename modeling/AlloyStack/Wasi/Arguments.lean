import AlloyStack.Wasi.Frame

/-! How the arguments of a function reach its guest. `args_sizes_get` tells the guest how much
memory it has to reserve, and `args_get` fills it: an array of pointers, and a buffer with the
strings. -/
namespace AlloyStack.Wasi.Arguments
open LinearMemory LittleEndian

section Reading

/-- A string as the guest reads it: the bytes in front of the first zero, which is in the memory. -/
def cString (memory : Bytes) (p : Nat) : Option Bytes :=
  let text := (memory.drop p).takeWhile (· ≠ 0)
  if p + text.length < memory.length then some text else none

/-- The array of `n` pointers. -/
def argPointers (memory : Bytes) (argv : Nat) : Nat → List Nat
  | 0 => []
  | n + 1 => decode (load memory argv 4) :: argPointers memory (argv + 4) n

/-- The strings, each with its zero. -/
def strings (args : List Bytes) : Bytes := args.flatMap (· ++ [0])

def size (args : List Bytes) : Nat := (args.map fun arg => arg.length + 1).sum

/-- A pointer to an argument, which lies in the buffer. -/
structure Points (memory : Bytes) (argvBuf len : Nat) (p : Nat) (arg : Bytes) : Prop where
  text : cString memory p = some arg
  low : argvBuf ≤ p
  high : p + (arg.length + 1) ≤ argvBuf + len

theorem cString_of_load (plain : 0 ∉ arg) (loaded : load memory p (arg.length + 1) = arg ++ [0]) :
    cString memory p = some arg := by
  have rest : memory.drop p = arg ++ 0 :: memory.drop (p + (arg.length + 1)) := by
    have split := List.take_append_drop (arg.length + 1) (memory.drop p)
    rw [List.drop_drop] at split
    rw [← split, show (memory.drop p).take (arg.length + 1) = arg ++ [0] from loaded,
      List.append_assoc]
    rfl
  have text : (memory.drop p).takeWhile (· ≠ 0) = arg := by
    rw [rest, List.takeWhile_append_of_pos, List.takeWhile_cons_of_neg, List.append_nil]
    · decide
    · intro byte member
      exact decide_eq_true fun zero => plain (zero ▸ member)
  have inside : p + arg.length < memory.length := by
    have length := congrArg List.length rest
    rw [List.length_drop, List.length_append, List.length_cons] at length
    omega
  unfold cString
  rw [text, if_pos inside]

end Reading

section Loop

/-- The loop in the middle is the loop from the beginning, on later regions. -/
theorem putArgs_shift (argv argvBuf : Nat) (args : List Bytes) (i offset : Nat) (memory : Bytes) :
    putArgs argv argvBuf args i offset memory =
      putArgs (argv + i * 4) (argvBuf + offset) args 0 0 memory := by
  induction args generalizing argv argvBuf i offset memory with
  | nil => rfl
  | cons arg args ih =>
    have step (m : Bytes) : putArgs argv argvBuf args (i + 1) (offset + (arg.length + 1)) m =
        putArgs (argv + i * 4) (argvBuf + offset) args (0 + 1) (0 + (arg.length + 1)) m := by
      rw [ih, ih (argv + i * 4)]
      congr 1 <;> omega
    simp only [putArgs, step, Nat.zero_mul, Nat.add_zero]

theorem putArgs_cons (argv argvBuf : Nat) (arg : Bytes) (args : List Bytes)
    (array : argv + 4 ≤ memory.length) (buffer : argvBuf + (arg.length + 1) ≤ memory.length) :
    putArgs argv argvBuf (arg :: args) 0 0 memory =
      putArgs (argv + 4) (argvBuf + (arg.length + 1)) args 0 0
        (store (store memory argv (encode 4 argvBuf)) argvBuf (arg ++ [0])) := by
  have pointer : write memory argv (encode 4 argvBuf) =
      some (store memory argv (encode 4 argvBuf)) :=
    write_eq_some.mpr ⟨by rwa [encode_length], rfl⟩
  have length : (store memory argv (encode 4 argvBuf)).length = memory.length :=
    store_length (by rwa [encode_length])
  have text : write (store memory argv (encode 4 argvBuf)) argvBuf arg =
      some (store (store memory argv (encode 4 argvBuf)) argvBuf arg) :=
    write_eq_some.mpr ⟨by omega, rfl⟩
  have zero : write (store (store memory argv (encode 4 argvBuf)) argvBuf arg)
      (argvBuf + arg.length) [0] =
      some (store (store (store memory argv (encode 4 argvBuf)) argvBuf arg) (argvBuf + arg.length)
        [0]) := by
    refine write_eq_some.mpr ⟨?_, rfl⟩
    rw [store_length (by omega), List.length_singleton]
    omega
  rw [putArgs]
  simp only [Nat.zero_mul, Nat.add_zero, Option.bind_eq_bind, pointer, text, zero, Option.bind_some]
  rw [putArgs_shift, store_append arg [0] (by rw [List.length_singleton]; omega), Nat.zero_add,
    Nat.zero_add, Nat.one_mul]

theorem Points.widen (points : Points memory argvBuf' len' p arg) (low : argvBuf ≤ argvBuf')
    (high : argvBuf' + len' ≤ argvBuf + len) : Points memory argvBuf len p arg where
  text := points.text
  low := Nat.le_trans low points.low
  high := Nat.le_trans points.high high

/-- The loop returns, and the guest reads the arguments from what it has stored. -/
theorem putArgs_spec (args : List Bytes) (argv argvBuf : Nat) (memory : Bytes)
    (plain : ∀ arg ∈ args, 0 ∉ arg) (array : argv + 4 * args.length ≤ memory.length)
    (buffer : argvBuf + size args ≤ memory.length) (below : argvBuf + size args ≤ 2 ^ 32)
    (apart : argv + 4 * args.length ≤ argvBuf ∨ argvBuf + size args ≤ argv) :
    ∃ memory', putArgs argv argvBuf args 0 0 memory = some memory' ∧
      List.Forall₂ (Points memory' argvBuf (size args))
        (argPointers memory' argv args.length) args ∧
      load memory' argvBuf (size args) = strings args := by
  induction args generalizing argv argvBuf memory with
  | nil => exact ⟨memory, rfl, .nil, by simp [load, size, strings]⟩
  | cons arg args ih =>
    have total : size (arg :: args) = arg.length + 1 + size args := by simp [size]
    rw [total] at buffer below apart ⊢
    rw [List.length_cons] at array apart ⊢
    let first := store memory argv (encode 4 argvBuf)
    let second := store first argvBuf (arg ++ [0])
    have word : (encode 4 argvBuf).length = 4 := encode_length 4 argvBuf
    have text : (arg ++ [0]).length = arg.length + 1 := by simp
    have length₁ : first.length = memory.length := store_length (by omega)
    have length₂ : second.length = memory.length := (store_length (by omega)).trans length₁
    obtain ⟨memory', ran, points, filled⟩ := ih (argv + 4) (argvBuf + (arg.length + 1)) second
      (fun arg member => plain arg (List.mem_cons_of_mem _ member)) (by omega) (by omega) (by omega)
        (by omega)
    have kept := putArgs_confined args 0 0 second ran (Nat.zero_add _).le (Nat.zero_add _).le
    -- Nothing of what this round has stored is in the regions of the later ones.
    have outside {start len : Nat}
        (array : start + len ≤ argv + 4 ∨ argv + 4 + 4 * args.length ≤ start)
        (buffer : start + len ≤ argvBuf + (arg.length + 1) ∨
          argvBuf + (arg.length + 1) + size args ≤ start) :
        load memory' start len = load second start len := by
      refine kept.load fun region member overlap => ?_
      obtain ⟨i, inside, inside'⟩ := overlap
      rcases List.mem_pair.mp member with rfl | rfl
      · simp only at inside inside'
        omega
      · simp only at inside inside'
        change argvBuf + (arg.length + 1) ≤ i ∧ i < argvBuf + (arg.length + 1) + size args at inside
        omega
    have pointer : load memory' argv 4 = encode 4 argvBuf := by
      rw [outside (.inl (Nat.le_refl _)) (by omega), load_store_apart (by omega) (by omega)]
      nth_rewrite 2 [← word]
      exact load_store (by omega)
    have string : load memory' argvBuf (arg.length + 1) = arg ++ [0] := by
      rw [outside (by omega) (.inl (Nat.le_refl _)), ← text]
      exact load_store (by omega)
    refine ⟨memory', ?_, ?_, ?_⟩
    · rw [putArgs_cons argv argvBuf arg args (by omega) (by omega)]
      exact ran
    · rw [argPointers, pointer, decode_encode_of_lt (by omega)]
      refine .cons ⟨cString_of_load (plain arg List.mem_cons_self) string, Nat.le_refl _, by omega⟩
        ?_
      exact points.imp fun p arg points => points.widen (by omega) (by omega)
    · rw [load_add, string, filled]
      rfl

end Loop

section Calls
variable {σ : Type}

/-- A region of the guest's memory, below 2 GiB. -/
structure Reserved (memory : Bytes) (p : I32) (len : Nat) : Prop where
  inside : p.toNat + len ≤ memory.length
  below : p.toNat + len ≤ 2 ^ 31

theorem Reserved.address (reserved : Reserved memory p len) (some : 0 < len) :
    asUsize p = p.toNat := by
  have below := reserved.below
  exact asUsize_low (by omega)

/-- A number that an import has stored. -/
def word (memory : Bytes) (p : I32) : Nat := decode (load memory p.toNat 4)

theorem length_le_size (args : List Bytes) : args.length ≤ size args := by
  induction args with
  | nil => exact Nat.le_refl _
  | cons arg args ih =>
    simp only [size, List.map_cons, List.sum_cons, List.length_cons] at ih ⊢
    omega

theorem wasiState_some {w : World σ} (given : w.args = some args) (nonempty : args ≠ []) :
    wasiState w = some args := by
  rw [wasiState, given]
  exact if_neg fun empty => nonempty (List.length_eq_zero_iff.mp empty)

theorem argsSizesGet_spec (w : World σ) (argc argvBufSize : I32) (given : w.args = some args)
    (nonempty : args ≠ []) (room : 4 * args.length + size args ≤ 2 ^ 31)
    (count : Reserved w.memory argc 4) (total : Reserved w.memory argvBufSize 4)
    (apart : ¬ Overlap (argc.toNat, 4) (argvBufSize.toNat, 4)) :
    ∃ w', argsSizesGet asUsize argc argvBufSize w = some (.success, w') ∧ w'.args = w.args ∧
      word w'.memory argc = args.length ∧ word w'.memory argvBufSize = size args ∧
      Confined [(argc.toNat, 4), (argvBufSize.toNat, 4)] w.memory w'.memory := by
  have inside := count.inside
  have inside' := total.inside
  have apart := (not_overlap_iff (by decide) (by decide)).mp apart
  have width (value : Nat) : (encode 4 value).length = 4 := encode_length 4 value
  let first := store w.memory argc.toNat (encode 4 args.length)
  have length : first.length = w.memory.length := store_length (by rwa [width])
  have counted : write w.memory argc.toNat (encode 4 args.length) = some first :=
    write_eq_some.mpr ⟨by rwa [width], rfl⟩
  have sized : write first argvBufSize.toNat (encode 4 (size args)) =
      some (store first argvBufSize.toNat (encode 4 (size args))) :=
    write_eq_some.mpr ⟨by rw [width, length]; exact inside', rfl⟩
  have stored {memory : Bytes} {p value : Nat} (fits : p + 4 ≤ memory.length) :
      load (store memory p (encode 4 value)) p 4 = encode 4 value := by
    have back := load_store (show p + (encode 4 value).length ≤ memory.length by rwa [width])
    rwa [width] at back
  refine ⟨{ w with memory := store first argvBufSize.toNat (encode 4 (size args)) }, ?_, rfl, ?_,
    ?_, ?_⟩
  · have sized : write first argvBufSize.toNat (encode 4 (args.map fun arg => arg.length + 1).sum) =
        some (store first argvBufSize.toNat (encode 4 (size args))) := sized
    simp only [argsSizesGet, wasiState_some given nonempty, count.address (by decide),
      total.address (by decide), counted, sized, Option.bind_eq_bind, Option.bind_some]
  · rw [word, load_store_apart (by rw [width, length]; exact inside') (by rw [width]; omega),
      stored inside, decode_encode_of_lt (by omega)]
  · rw [word, stored (by rw [length]; exact inside'), decode_encode_of_lt (by omega)]
  · have before : Confined [(argc.toNat, 4), (argvBufSize.toNat, 4)] w.memory first :=
      write_confined counted List.mem_cons_self (Nat.le_refl _) (by rw [width])
    exact before.trans (write_confined sized (List.mem_cons_of_mem _ List.mem_cons_self)
      (Nat.le_refl _) (by rw [width]))

theorem argsGet_spec (w : World σ) (argv argvBuf : I32) (given : w.args = some args)
    (nonempty : args ≠ []) (plain : ∀ arg ∈ args, 0 ∉ arg)
    (array : Reserved w.memory argv (4 * args.length))
    (buffer : Reserved w.memory argvBuf (size args))
    (apart : ¬ Overlap (argv.toNat, 4 * args.length) (argvBuf.toNat, size args)) :
    ∃ w', argsGet asUsize argv argvBuf w = some (.success, w') ∧
      List.Forall₂ (Points w'.memory argvBuf.toNat (size args))
        (argPointers w'.memory argv.toNat args.length) args ∧
      load w'.memory argvBuf.toNat (size args) = strings args ∧
      Confined [(argv.toNat, 4 * args.length), (argvBuf.toNat, size args)] w.memory w'.memory := by
  have some : 0 < args.length := List.length_pos_iff.mpr nonempty
  have some' : 0 < size args := Nat.lt_of_lt_of_le some (length_le_size args)
  have below := buffer.below
  obtain ⟨memory, ran, points, filled⟩ :=
    putArgs_spec args argv.toNat argvBuf.toNat w.memory plain array.inside buffer.inside
    (by omega) ((not_overlap_iff (by omega) some').mp apart)
  have confined := putArgs_confined args 0 0 w.memory ran (Nat.zero_add _).le (Nat.zero_add _).le
  refine ⟨{ w with memory }, ?_, points, filled, confined⟩
  simp only [argsGet, wasiState_some given nonempty, array.address (by omega), buffer.address some',
    ran, Option.bind_eq_bind, Option.bind_some]

/-- A guest that asks for the sizes, reserves two regions of these sizes and asks for the arguments
can read them all back: the strings fill the buffer, and nothing else has changed. -/
theorem arguments_round_trip (w : World σ) (args : List Bytes) (argc argvBufSize : I32)
    (given : w.args = some args) (nonempty : args ≠ []) (plain : ∀ arg ∈ args, 0 ∉ arg)
    (room : 4 * args.length + size args ≤ 2 ^ 31) (count : Reserved w.memory argc 4)
    (total : Reserved w.memory argvBufSize 4)
    (words : ¬ Overlap (argc.toNat, 4) (argvBufSize.toNat, 4)) :
    ∃ w₁, argsSizesGet asUsize argc argvBufSize w = some (.success, w₁) ∧ w₁.args = w.args ∧
      Confined [(argc.toNat, 4), (argvBufSize.toNat, 4)] w.memory w₁.memory ∧
      ∀ (w₂ : World σ) (argv argvBuf : I32), w₂.args = w₁.args →
        Reserved w₂.memory argv (4 * word w₁.memory argc) →
          Reserved w₂.memory argvBuf (word w₁.memory argvBufSize) →
        ¬ Overlap (argv.toNat, 4 * word w₁.memory argc)
          (argvBuf.toNat, word w₁.memory argvBufSize) →
        ∃ w₃, argsGet asUsize argv argvBuf w₂ = some (.success, w₃) ∧
          List.Forall₂ (Points w₃.memory argvBuf.toNat (word w₁.memory argvBufSize))
            (argPointers w₃.memory argv.toNat (word w₁.memory argc)) args ∧
          load w₃.memory argvBuf.toNat (word w₁.memory argvBufSize) = strings args ∧
          Confined [(argv.toNat, 4 * word w₁.memory argc),
            (argvBuf.toNat, word w₁.memory argvBufSize)] w₂.memory w₃.memory := by
  obtain ⟨w₁, ran, same, counted, sized, confined⟩ :=
    argsSizesGet_spec w argc argvBufSize given nonempty room count total words
  refine ⟨w₁, ran, same, confined, fun w₂ argv argvBuf again array buffer apart => ?_⟩
  rw [counted, sized] at *
  exact argsGet_spec w₂ argv argvBuf
    (again.trans (same.trans given)) nonempty plain array buffer apart

/-- A guest with two arguments. -/
def twoArguments : World Unit := ⟨List.replicate 40 1, some [[97], [98, 99]], fun _ => none, ()⟩

theorem two_arguments_read : ∃ w₁, argsSizesGet asUsize 0 4 twoArguments = some (.success, w₁) ∧
    ∃ w₃, argsGet asUsize 8 20 w₁ = some (.success, w₃) ∧
      List.Forall₂ (Points w₃.memory 20 5) (argPointers w₃.memory 8 2) [[97], [98, 99]] ∧
      load w₃.memory 20 5 = [97, 0, 98, 99, 0] := by
  obtain ⟨w₁, ran, same, -, reads⟩ :=
    arguments_round_trip twoArguments [[97], [98, 99]] 0 4 rfl (by decide) (by decide) (by decide)
    ⟨by decide, by decide⟩ ⟨by decide, by decide⟩
      ((not_overlap_iff (by decide) (by decide)).mpr (by decide))
  refine ⟨w₁, ran, ?_⟩
  cases ran
  obtain ⟨w₃, got, points, filled, -⟩ :=
    reads _ 8 20 rfl ⟨by decide, by decide⟩ ⟨by decide, by decide⟩
    ((not_overlap_iff (by decide) (by decide)).mpr (by decide))
  exact ⟨w₃, got, points, filled⟩

end Calls
end AlloyStack.Wasi.Arguments
