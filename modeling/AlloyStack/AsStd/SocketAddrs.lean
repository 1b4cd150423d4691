import Mathlib.Data.List.TakeWhile
import AlloyStack.Fdtab.Apis
import AlloyStack.Library.Text

/-! `ToSocketAddrs` for `&str` in as_std: a host, which is an address or a name for the resolver,
and a port after a colon. -/
namespace AlloyStack.AsStd.SocketAddrs
open Rust
open AlloyStack.Fdtab (SmoltcpError)

section Addresses

structure Ipv4Addr where
  a : UInt8
  b : UInt8
  c : UInt8
  d : UInt8
  deriving DecidableEq, Repr

/-- `Display for u8` -/
def octet (n : UInt8) : List Char := Nat.toDigits 10 n.toNat

/-- `Display for Ipv4Addr` -/
def Ipv4Addr.text (ip : Ipv4Addr) : List Char :=
  octet ip.a ++ '.' :: (octet ip.b ++ '.' :: (octet ip.c ++ '.' :: octet ip.d))

/-- `Parser::read_number` for an octet: at most three digits, and no leading zero. -/
def readNumber (s : List Char) : Option (UInt8 × List Char) :=
  let digits := s.takeWhile Char.isDigit
  if digits.length = 0 ∨ 3 < digits.length ∨ digits.head? = some '0' ∧ 1 < digits.length then none
  else
    let n := Nat.ofDigitChars 10 digits 0
    if n < 256 then some (.ofNat n, s.dropWhile Char.isDigit) else none

def readGivenChar (target : Char) : List Char → Option (List Char)
  | [] => none
  | c :: rest => if c = target then some rest else none

def readIpv4Addr (s : List Char) : Option (Ipv4Addr × List Char) := do
  let (a, s) ← readNumber s
  let (b, s) ← (readGivenChar '.' s).bind readNumber
  let (c, s) ← (readGivenChar '.' s).bind readNumber
  let (d, s) ← (readGivenChar '.' s).bind readNumber
  some (⟨a, b, c, d⟩, s)

def byteLength (s : List Char) : Nat := (s.map Char.utf8Size).sum

/-- `str::parse::<Ipv4Addr>` -/
def parseIpv4Addr (s : List Char) : Option Ipv4Addr :=
  if 15 < byteLength s then none
  else (readIpv4Addr s).bind fun read => if read.2 = [] then some read.1 else none

/-- `str::parse::<u16>` -/
def parseU16 (s : List Char) : Option UInt16 :=
  let digits := match s with
    | '+' :: rest => rest
    | s => s
  if digits = [] ∨ ¬ digits.all Char.isDigit then none
  else
    let n := Nat.ofDigitChars 10 digits 0
    if n < 2 ^ 16 then some (.ofNat n) else none

end Addresses

/-- The address of a host: `addrinfo` is asked about names. -/
def hostAddr (addrinfo : List Char → Except SmoltcpError Ipv4Addr) (hostStr : List Char) :
    Outcome Ipv4Addr :=
  match parseIpv4Addr hostStr with
  | some addr => .ok addr
  | none => Outcome.orPanic (addrinfo hostStr).toOption

/-- `to_socket_addrs` -/
def toSocketAddrs (addrinfo : List Char → Except SmoltcpError Ipv4Addr) (s : List Char) :
    Outcome (Ipv4Addr × UInt16) :=
  let targetTuple := Text.split ':' s
  (hostAddr addrinfo (targetTuple.headD [])).bind fun ip =>
    match targetTuple[1]? with
    | some port => (Outcome.orPanic (parseU16 port)).bind fun port => .ok (ip, port)
    | none => .ok (ip, 80)

/-- What a text stands for. What follows a second colon is not looked at. -/
structure Denotes (addrinfo : List Char → Except SmoltcpError Ipv4Addr) (s : List Char)
    (addr : Ipv4Addr × UInt16) (host rest : List Char) : Prop where
  split : s = host ++ rest
  plain : ':' ∉ host
  ip : host = addr.1.text ∨ (∀ ip : Ipv4Addr, host ≠ ip.text) ∧ addrinfo host = .ok addr.1
  port : rest = [] ∧ addr.2 = 80 ∨
    ∃ digits more, rest = ':' :: (digits ++ more) ∧ ':' ∉ digits ∧
      (more = [] ∨ more.head? = some ':') ∧ parseU16 digits = some addr.2

section Parsing

theorem dropWhile_head (s : List Char) :
    ∀ c ∈ (s.dropWhile Char.isDigit).head?, c.isDigit = false := by
  intro c member
  have stopped := List.head?_dropWhile_not Char.isDigit s
  rw [Option.mem_def] at member
  rw [member] at stopped
  simpa using stopped

theorem octet_length (n : UInt8) : 1 ≤ (octet n).length ∧ (octet n).length ≤ 3 := by
  have small : n.toNat < 10 ^ 3 := Nat.lt_of_lt_of_le n.toNat_lt (by decide)
  exact ⟨List.length_pos_iff.mpr Nat.toDigits_ne_nil,
    (Nat.length_toDigits_le_iff (by decide) (by decide)).mpr small⟩

/-- An octet is read from its printed form, up to the first character that is not a digit. -/
theorem readNumber_eq_some :
    readNumber s = some (n, rest) ↔
      s = octet n ++ rest ∧ ∀ c ∈ rest.head?, c.isDigit = false := by
  constructor
  · intro read
    simp only [readNumber] at read
    split at read
    · cases read
    · rename_i shape
      simp only [not_or, not_and, Nat.not_lt] at shape
      obtain ⟨some, short, plain⟩ := shape
      split at read
      · rename_i small
        obtain ⟨rfl, rfl⟩ := Prod.mk.inj (Option.some.inj read)
        have digits : ∀ c ∈ s.takeWhile Char.isDigit, c.isDigit = true :=
          fun c member => List.mem_takeWhile_imp member
        have printed := Text.toDigits_ofDigitChars (List.length_pos_iff.mp (by omega)) digits plain
        refine ⟨?_, dropWhile_head s⟩
        rw [octet, UInt8.toNat_ofNat_of_lt' small, printed, List.takeWhile_append_dropWhile]
      · cases read
  · rintro ⟨rfl, ends⟩
    have front : (octet n ++ rest).takeWhile Char.isDigit = octet n :=
      Text.takeWhile_digits n.toNat ends
    have back : (octet n ++ rest).dropWhile Char.isDigit = rest := by
      have whole := List.takeWhile_append_dropWhile (p := Char.isDigit) (l := octet n ++ rest)
      rw [front] at whole
      exact List.append_cancel_left whole
    have value : Nat.ofDigitChars 10 (octet n) 0 = n.toNat := Nat.ofDigitChars_ten_toDigits
    obtain ⟨low, high⟩ := octet_length n
    have plain : ¬ ((octet n).head? = some '0' ∧ 1 < (octet n).length) := by
      rintro ⟨zero, long⟩
      rcases Nat.eq_zero_or_pos n.toNat with none | positive
      · rw [octet, none] at long
        exact absurd long (by decide)
      · exact Text.toDigits_head positive zero
    have shape : ¬ ((octet n).length = 0 ∨ 3 < (octet n).length ∨
        (octet n).head? = some '0' ∧ 1 < (octet n).length) := by
      rintro (empty | long | leading)
      · omega
      · omega
      · exact plain leading
    simp only [readNumber, front, back, value]
    rw [if_neg shape, if_pos n.toNat_lt, UInt8.ofNat_toNat]

theorem readGivenChar_eq_some : readGivenChar target s = some rest ↔ s = target :: rest := by
  cases s with
  | nil => simp [readGivenChar]
  | cons c s =>
    by_cases same : c = target
    · simp [readGivenChar, same]
    · simp [readGivenChar, same]

theorem readIpv4Addr_eq_some :
    readIpv4Addr s = some (ip, rest) ↔
      s = ip.text ++ rest ∧ ∀ c ∈ rest.head?, c.isDigit = false := by
  have point : ∀ (tail : List Char), ∀ c ∈ ('.' :: tail).head?, c.isDigit = false := by
    intro tail c member
    cases member
    decide
  simp only [readIpv4Addr, Option.bind_eq_bind, Option.bind_eq_some_iff, Prod.exists,
    readNumber_eq_some, readGivenChar_eq_some, Option.some.injEq, Prod.mk.injEq]
  constructor
  · rintro ⟨a, _, ⟨rfl, _⟩, b, _, ⟨_, rfl, rfl, _⟩, c, _, ⟨_, rfl, rfl, _⟩, d, _,
      ⟨_, rfl, rfl, ends⟩,
      rfl, rfl⟩
    exact ⟨by simp [Ipv4Addr.text], ends⟩
  · rintro ⟨rfl, ends⟩
    refine ⟨ip.a, _, ⟨?_, point _⟩, ip.b, _, ⟨_, rfl, rfl, point _⟩, ip.c, _,
      ⟨_, rfl, rfl, point _⟩,
      ip.d, rest, ⟨_, rfl, rfl, ends⟩, rfl, rfl⟩
    simp [Ipv4Addr.text]

theorem digit_utf8Size (digit : c.isDigit = true) : Char.utf8Size c = 1 := by
  simp only [Char.isDigit, Bool.and_eq_true, decide_eq_true_eq] at digit
  exact Char.utf8Size_eq_one_iff.mpr (UInt32.le_trans digit.2 (by decide))

theorem byteLength_octet (n : UInt8) : byteLength (octet n) = (octet n).length := by
  have ones : ∀ c ∈ octet n, c.utf8Size = 1 :=
    fun c member => digit_utf8Size (Text.mem_toDigits_isDigit member)
  rw [byteLength, List.map_congr_left ones, List.map_const', List.sum_replicate_nat, Nat.mul_one]

theorem text_length (ip : Ipv4Addr) : byteLength ip.text ≤ 15 := by
  have parts : byteLength ip.text = byteLength (octet ip.a) + (1 + (byteLength (octet ip.b) +
      (1 + (byteLength (octet ip.c) + (1 + byteLength (octet ip.d)))))) := by
    have point : Char.utf8Size '.' = 1 := by decide
    simp [byteLength, Ipv4Addr.text, point]
  have a := octet_length ip.a
  have b := octet_length ip.b
  have c := octet_length ip.c
  have d := octet_length ip.d
  simp only [parts, byteLength_octet]
  omega

/-- The parser accepts the printed form of an address and nothing else. -/
theorem parseIpv4Addr_eq_some : parseIpv4Addr s = some ip ↔ s = ip.text := by
  unfold parseIpv4Addr
  constructor
  · intro parsed
    split at parsed
    · cases parsed
    · obtain ⟨⟨addr, rest⟩, read, whole⟩ := Option.bind_eq_some_iff.mp parsed
      split at whole
      · rename_i empty
        obtain rfl := Option.some.inj whole
        obtain ⟨text, _⟩ := readIpv4Addr_eq_some.mp read
        rw [text, show rest = [] from empty, List.append_nil]
      · cases whole
  · rintro rfl
    have read : readIpv4Addr ip.text = some (ip, []) :=
      readIpv4Addr_eq_some.mpr ⟨(List.append_nil _).symm, nofun⟩
    rw [if_neg (Nat.not_lt.mpr (text_length ip)), read]
    rfl

end Parsing

section Splitting

theorem split_plain (plain : ':' ∉ s) : Text.split ':' s = [s] :=
  List.splitOn_eq_singleton plain

theorem split_colon (plain : ':' ∉ host) (tail : List Char) :
    Text.split ':' (host ++ ':' :: tail) = host :: Text.split ':' tail :=
  List.splitOn_append_cons_self_of_not_mem plain tail

theorem split_head (plain : ':' ∉ digits) (ends : more = [] ∨ more.head? = some ':') :
    ∃ rest, Text.split ':' (digits ++ more) = digits :: rest := by
  rcases ends with rfl | colon
  · exact ⟨[], by rw [List.append_nil, split_plain plain]⟩
  · obtain ⟨tail, rfl⟩ := List.head?_eq_some_iff.mp colon
    exact ⟨_, split_colon plain tail⟩

/-- A text up to its first colon. -/
theorem colon_cases (s : List Char) :
    ':' ∉ s ∨ ∃ host tail, s = host ++ ':' :: tail ∧ ':' ∉ host := by
  by_cases member : ':' ∈ s
  · obtain ⟨host, tail, split, plain⟩ := List.eq_append_cons_of_mem member
    exact .inr ⟨host, tail, split, plain⟩
  · exact .inl member

end Splitting

section Texts
variable {addrinfo : List Char → Except SmoltcpError Ipv4Addr}

theorem hostAddr_eq_ok :
    hostAddr addrinfo host = .ok ip ↔
      host = ip.text ∨ (∀ other : Ipv4Addr, host ≠ other.text) ∧ addrinfo host = .ok ip := by
  unfold hostAddr
  cases parsed : parseIpv4Addr host with
  | some addr =>
    obtain rfl := parseIpv4Addr_eq_some.mp parsed
    have unique : addr.text = ip.text ↔ addr = ip :=
      ⟨fun same => Option.some.inj ((parseIpv4Addr_eq_some.mpr rfl).symm.trans
        (parseIpv4Addr_eq_some.mpr same)), congrArg _⟩
    simp [unique]
  | none =>
    have foreign : ∀ other : Ipv4Addr, host ≠ other.text := by
      intro other same
      rw [parseIpv4Addr_eq_some.mpr same] at parsed
      cases parsed
    cases found : addrinfo host with
    | ok addr => simp [foreign, Except.toOption, Outcome.orPanic]
    | error e => simp [foreign, Except.toOption, Outcome.orPanic]

theorem toSocketAddrs_plain (plain : ':' ∉ s) :
    toSocketAddrs addrinfo s = (hostAddr addrinfo s).bind fun ip => .ok (ip, 80) := by
  simp only [toSocketAddrs, split_plain plain]
  rfl

theorem toSocketAddrs_colon (plain : ':' ∉ host) (clean : ':' ∉ digits)
    (ends : more = [] ∨ more.head? = some ':') :
    toSocketAddrs addrinfo (host ++ ':' :: (digits ++ more)) =
      (hostAddr addrinfo host).bind fun ip =>
        (Outcome.orPanic (parseU16 digits)).bind fun port => .ok (ip, port) := by
  obtain ⟨rest, pieces⟩ := split_head clean ends
  simp only [toSocketAddrs, split_colon plain, pieces]
  rfl

theorem text_plain (ip : Ipv4Addr) : ':' ∉ ip.text := by
  have digits : ∀ n : UInt8, ':' ∉ octet n := fun n member =>
    absurd (Text.mem_toDigits_isDigit member) (by decide)
  simp [Ipv4Addr.text, digits]

theorem parseU16_toDigits (port : UInt16) : parseU16 (Nat.toDigits 10 port.toNat) = some port := by
  have digits : ∀ c ∈ Nat.toDigits 10 port.toNat, c.isDigit = true :=
    fun _ member => Text.mem_toDigits_isDigit member
  have value : Nat.ofDigitChars 10 (Nat.toDigits 10 port.toNat) 0 = port.toNat :=
    Nat.ofDigitChars_ten_toDigits
  have bound : port.toNat < 65536 := port.toNat_lt
  cases front : Nat.toDigits 10 port.toNat with
  | nil => exact absurd front Nat.toDigits_ne_nil
  | cons c rest =>
    rw [front] at digits value
    have unsigned : c ≠ '+' := by
      rintro rfl
      exact absurd (digits '+' List.mem_cons_self) (by decide)
    have all : (c :: rest).all Char.isDigit = true := List.all_eq_true.mpr digits
    simp [parseU16, unsigned, value, bound, all]

/-- The part after the first colon, up to the second one. -/
theorem colon_tail (tail : List Char) :
    ∃ digits more, tail = digits ++ more ∧ ':' ∉ digits ∧ (more = [] ∨ more.head? = some ':') := by
  rcases colon_cases tail with plain | ⟨digits, rest, rfl, plain⟩
  · exact ⟨tail, [], (List.append_nil _).symm, plain, .inl rfl⟩
  · exact ⟨digits, ':' :: rest, rfl, plain, .inr rfl⟩

theorem toSocketAddrs_of_denotes (denotes : Denotes addrinfo s addr host rest) :
    toSocketAddrs addrinfo s = .ok addr := by
  have ip := hostAddr_eq_ok.mpr denotes.ip
  rcases denotes.port with ⟨rfl, port⟩ | ⟨digits, more, rfl, clean, ends, port⟩
  · rw [denotes.split, List.append_nil, toSocketAddrs_plain denotes.plain, ip, ← port]
    rfl
  · rw [denotes.split, toSocketAddrs_colon denotes.plain clean ends, ip, port]
    rfl

theorem denotes_of_toSocketAddrs (parsed : toSocketAddrs addrinfo s = .ok addr) :
    ∃ host rest, Denotes addrinfo s addr host rest := by
  rcases colon_cases s with plain | ⟨host, tail, rfl, plain⟩
  · rw [toSocketAddrs_plain plain] at parsed
    obtain ⟨ip, found, same⟩ := Outcome.bind_eq_ok.mp parsed
    obtain rfl := Outcome.ok.inj same
    exact ⟨s, [], (List.append_nil s).symm, plain, hostAddr_eq_ok.mp found, .inl ⟨rfl, rfl⟩⟩
  · obtain ⟨digits, more, rfl, clean, ends⟩ := colon_tail tail
    rw [toSocketAddrs_colon plain clean ends] at parsed
    obtain ⟨ip, found, parsed⟩ := Outcome.bind_eq_ok.mp parsed
    obtain ⟨port, read, same⟩ := Outcome.bind_eq_ok.mp parsed
    obtain rfl := Outcome.ok.inj same
    have number : parseU16 digits = some port := by
      cases value : parseU16 digits with
      | none =>
        rw [value] at read
        cases read
      | some n =>
        rw [value] at read
        rw [Outcome.ok.inj read]
    exact ⟨host, _, rfl, plain, hostAddr_eq_ok.mp found,
      .inr ⟨digits, more, rfl, clean, ends, number⟩⟩

theorem orPanic_ne_err (x : Option α) (e : String) : Outcome.orPanic x ≠ .err e := by
  cases x <;> exact nofun

theorem bind_ne_err {x : Outcome α} {f : α → Outcome β} (first : ∀ e, x ≠ .err e)
    (rest : ∀ a e, f a ≠ .err e) (e : String) : x.bind f ≠ .err e := by
  cases x with
  | ok value => exact rest value e
  | err message => exact absurd rfl (first message)
  | panic => exact nofun

theorem hostAddr_ne_err (host : List Char) (e : String) : hostAddr addrinfo host ≠ .err e := by
  unfold hostAddr
  split
  · exact nofun
  · exact orPanic_ne_err _ e

theorem toSocketAddrs_ne_err (s : List Char) (e : String) :
    toSocketAddrs addrinfo s ≠ .err e := by
  rcases colon_cases s with plain | ⟨host, tail, rfl, plain⟩
  · rw [toSocketAddrs_plain plain]
    exact bind_ne_err (hostAddr_ne_err s) (fun _ _ => by simp) e
  · obtain ⟨digits, more, rfl, clean, ends⟩ := colon_tail tail
    rw [toSocketAddrs_colon plain clean ends]
    refine bind_ne_err (hostAddr_ne_err host) (fun _ => ?_) e
    exact bind_ne_err (orPanic_ne_err _) fun _ _ => by simp

/-- The texts that name an address, and the one that prints it. Whatever the resolver answers, there
is no error: a text that names nothing is a panic. -/
theorem toSocketAddrs_denotes (addrinfo : List Char → Except SmoltcpError Ipv4Addr)
    (s : List Char) :
    (∀ addr, toSocketAddrs addrinfo s = .ok addr ↔ ∃ host rest, Denotes addrinfo s addr host rest) ∧
      (toSocketAddrs addrinfo s = .panic ↔ ¬ ∃ addr host rest, Denotes addrinfo s addr host rest) ∧
      ∀ ip port, toSocketAddrs addrinfo (ip.text ++ ':' :: Nat.toDigits 10 port.toNat) =
        .ok (ip, port) := by
  have reads : ∀ addr, toSocketAddrs addrinfo s = .ok addr ↔
      ∃ host rest, Denotes addrinfo s addr host rest := fun addr =>
    ⟨denotes_of_toSocketAddrs, fun ⟨_, _, denotes⟩ => toSocketAddrs_of_denotes denotes⟩
  refine ⟨reads, ?_, fun ip port => ?_⟩
  · constructor
    · rintro panicked ⟨addr, named⟩
      rw [(reads addr).mpr named] at panicked
      cases panicked
    · intro unnamed
      cases result : toSocketAddrs addrinfo s with
      | ok addr => exact absurd ⟨addr, (reads addr).mp result⟩ unnamed
      | err e => exact absurd result (toSocketAddrs_ne_err s e)
      | panic => rfl
  · have printed : Denotes addrinfo (ip.text ++ ':' :: Nat.toDigits 10 port.toNat)
        (ip, port) ip.text
        (':' :: (Nat.toDigits 10 port.toNat ++ [])) := by
      refine ⟨by rw [List.append_nil], text_plain ip, .inl rfl, .inr ⟨_, [], rfl, ?_, .inl rfl,
        parseU16_toDigits port⟩⟩
      intro member
      exact absurd (Text.mem_toDigits_isDigit member) (by decide)
    exact toSocketAddrs_of_denotes printed

end Texts

end AlloyStack.AsStd.SocketAddrs
