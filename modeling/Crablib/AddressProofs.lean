import Crablib.Network.Address
import Crablib.NumeralProofs

/-! Texts of addresses. The colon that joins address and port is the first one only
in front of an IPv4 address, and a port that is no number leaves `parse` with an
exception. -/
namespace Crablib.AddressProofs
open Http IntegerProofs NumeralProofs Address

/-- What the documentation of `inet_pton` and `inet_ntop` promises: either reads what
the other one writes, dotted decimals have no colon, the IPv6 notation has one, and
texts end before the first NUL. -/
structure Documented (inet : Inet) : Prop where
  inverse : ∀ addr, inet.pton (inet.ntop addr) = some addr
  inverse6 : ∀ addr, inet.pton6 (inet.ntop6 addr) = some addr
  dotted : ∀ text addr, inet.pton text = some addr → ch ':' ∉ text
  colons : ∀ text addr, inet.pton6 text = some addr → ch ':' ∈ text
  ended : ∀ addr, 0 ∉ inet.ntop addr

/-- The text behind the first colon is a port number. -/
def PortBehind (ipPort : Bytes) : Prop :=
  ∀ front behind, ipPort = front ++ ch ':' :: behind → ch ':' ∉ front → ∃ n,
    Denotes .uint16 behind n ∧ Representable .uint16 n

section Splitting
variable {inet : Inet}

private theorem standard : Standard .uint16 := .inr (.inl rfl)

theorem cString_eq {text : Bytes} (ended : 0 ∉ text) : cString text = text := by
  rw [cString, List.takeWhile_eq_self_iff]
  intro c member
  exact decide_eq_true fun zero => ended (zero ▸ member)

/-- A text is split at the first colon. -/
theorem parse_split {front : Bytes} (first : ch ':' ∉ front) (address : Address) (behind : Bytes) :
    parse inet address (front ++ ch ':' :: behind) = (integerCast .uint16 behind).bind fun port =>
      .ok (parseIp inet address front (UInt16.ofNat port.toNat)) := by
  rw [parse, findIdx?_first first]
  simp only [List.take_left, bind, pure, Except.pure]
  rw [List.drop_append, List.drop_eq_nil_of_le (Nat.le_add_right ..), Nat.add_sub_cancel_left]
  rfl

theorem parse_plain {ipPort : Bytes} (plain : ch ':' ∉ ipPort) (address : Address) :
    parse inet address ipPort = .ok (false, address) := by
  rw [parse, findIdx?_absent plain]

theorem integerCast_ok {text : Bytes} {n : Int} :
    integerCast .uint16 text = .ok n ↔ Denotes .uint16 text n ∧ Representable .uint16 n := by
  rw [← integerParse_ok_iff standard, integerCast]
  cases integerParse .uint16 text <;> simp

/-- A number has no colon. -/
private theorem number_plain {t : IntType} {text : Bytes} {n : Int}
    (number : Denotes t text n) : ch ':' ∉ text := by
  obtain ⟨front, sign, digits, back, rfl, space, isSign, body, spaceBack, -⟩ := number
  have noSpace : ∀ {blank : Bytes}, IsSpace blank → ch ':' ∉ blank :=
    fun space member => absurd (space _ member) (by decide)
  have noSign : ch ':' ∉ sign := by
    rcases isSign with rfl | rfl | ⟨rfl, -⟩ <;> decide
  have noDigit : ch ':' ∉ digits := by
    rcases body with rfl | ⟨c, rest, rfl, -, isDigits⟩
    · decide
    · intro member
      exact absurd (isDigits _ member) (by decide)
  simp only [List.mem_append, not_or]
  exact ⟨⟨⟨noSpace space, noSign⟩, noDigit⟩, noSpace spaceBack⟩

private theorem first_colon {text : Bytes} (colon : ch ':' ∈ text) :
    ∃ front behind, text = front ++ ch ':' :: behind ∧ ch ':' ∉ front := by
  obtain ⟨front, behind, split, first⟩ := List.eq_append_cons_of_mem colon
  exact ⟨front, behind, split, first⟩

end Splitting

section Texts
variable {inet : Inet}

/-- An address and port in dotted decimals are read back. -/
theorem parse_inet (documented : Documented inet) (other : Address) (addr : InAddr) (port : UInt16) :
    parse inet other ((Address.inet addr port).toText inet) = .ok (true, .inet addr port) := by
  have dotted := documented.dotted _ _ (documented.inverse addr)
  have number : integerCast .uint16 (decimal port.toNat) = .ok (port.toNat : Int) := by
    refine integerCast_ok.mpr ⟨denotes_decimal .uint16 _, ?_⟩
    exact (signed_within standard false _).mpr (Nat.le_sub_one_of_lt port.toNat_lt)
  have plain : inet.pton6 (inet.ntop addr) = none := by
    cases read : inet.pton6 (inet.ntop addr) with
    | none => rfl
    | some _ => exact absurd (documented.colons _ _ read) dotted
  show parse inet other (inet.ntop addr ++ ch ':' :: decimal port.toNat) = _
  rw [parse_split dotted, number]
  simp only [Except.bind, parseIp, cString_eq (documented.ended addr), plain, documented.inverse,
    Int.toNat_natCast, UInt16.ofNat_toNat]

/-- In front of the colon that joins it to the port an IPv6 address has colons of its own. -/
theorem parse_inet6 (documented : Documented inet) (other : Address) (addr : In6Addr)
    (port : UInt16) (answer : Bool × Address) :
    parse inet other ((Address.inet6 addr port).toText inet) ≠ .ok answer := by
  obtain ⟨front, behind, split, first⟩ := first_colon (documented.colons _ _ (documented.inverse6 addr))
  have text :
      (Address.inet6 addr port).toText inet = front ++ ch ':' ::
      (behind ++ ch ':' :: decimal port.toNat) := by
    show inet.ntop6 addr ++ ch ':' :: decimal port.toNat = _
    rw [split, List.append_assoc, List.cons_append]
  rw [text, parse_split first]
  cases read : integerCast .uint16 (behind ++ ch ':' :: decimal port.toNat) with
  | error e => exact fun same => by cases same
  | ok n =>
    have plain := number_plain (integerCast_ok.mp read).1
    simp at plain

/-- Which of the two texts an address was read from. -/
theorem parseIp_true (documented : Documented inet) {address : Address} {ip : Bytes}
    {port : UInt16} {parsed : Address} (accepted : parseIp inet address ip port = (true, parsed)) :
    (∃ addr, parsed = .inet addr port ∧ ch ':' ∉ cString ip) ∨
      (∃ addr, parsed = .inet6 addr port ∧ ch ':' ∈ cString ip) := by
  unfold parseIp at accepted
  split at accepted
  · rename_i addr read
    cases accepted
    exact .inr ⟨addr, rfl, documented.colons _ _ read⟩
  · split at accepted
    · rename_i addr read
      cases accepted
      exact .inl ⟨addr, rfl, documented.dotted _ _ read⟩
    · cases accepted

/-- The answer of `parse(address, ip, port)` never is an exception, and a refusal
leaves the address alone. -/
theorem parseIp_answers (inet : Inet) (address : Address) (ip : Bytes) (port : UInt16) :
    (∃ parsed, parseIp inet address ip port = (true, parsed)) ∨
      parseIp inet address ip port = (false, address) := by
  unfold parseIp
  split
  · exact .inl ⟨_, rfl⟩
  · split
    · exact .inl ⟨_, rfl⟩
    · exact .inr rfl

/-- `parse(address, ip_port)` answers, leaving the address alone unless it accepts. -/
def Answers (inet : Inet) (address : Address) (ipPort : Bytes) : Prop :=
  (∃ parsed, parse inet address ipPort = .ok (true, parsed)) ∨
    parse inet address ipPort = .ok (false, address)

theorem answers_iff (address : Address) (ipPort : Bytes) :
    Answers inet address ipPort ↔ PortBehind ipPort := by
  constructor
  · rintro answers front behind rfl first
    unfold Answers at answers
    rw [parse_split first] at answers
    cases read : integerCast .uint16 behind with
    | error e =>
      rw [read] at answers
      rcases answers with ⟨parsed, accepted⟩ | refused
      · cases accepted
      · cases refused
    | ok n => exact ⟨n, integerCast_ok.mp read⟩
  · intro number
    by_cases colon : ch ':' ∈ ipPort
    · obtain ⟨front, behind, rfl, first⟩ := first_colon colon
      obtain ⟨n, number⟩ := number front behind rfl first
      unfold Answers
      rw [parse_split first, integerCast_ok.mpr number]
      rcases parseIp_answers inet address front (UInt16.ofNat n.toNat) with ⟨parsed, accepted⟩ | refused
      · exact .inl ⟨parsed, congrArg Except.ok accepted⟩
      · exact .inr (congrArg Except.ok refused)
    · exact .inr (parse_plain colon address)

end Texts

section Sample

/-- Three decimal digits, as bytes from 100 on are printed. -/
def decimals (c : UInt8) : Bytes :=
  [digit (c.toNat / 100), digit (c.toNat / 10 % 10), digit (c.toNat % 10)]

/-- Bytes with dots between them. -/
def dotted : Bytes → Bytes
  | [] => []
  | [a] => decimals a
  | a :: b :: rest => decimals a ++ ch '.' :: dotted (b :: rest)

def undotted : Bytes → Bytes
  | x :: y :: z :: _ :: rest =>
    UInt8.ofNat (digitOf x * 100 + digitOf y * 10 + digitOf z) :: undotted rest
  | [x, y, z] => [UInt8.ofNat (digitOf x * 100 + digitOf y * 10 + digitOf z)]
  | _ => []

/-- Groups of four hexadecimal digits with colons between them, as groups from
0x1000 on are printed. -/
def grouped : Bytes → Bytes
  | [] => []
  | [_] => []
  | [a, b] => [digit (a.toNat / 16), digit (a.toNat % 16), digit (b.toNat / 16), digit (b.toNat % 16)]
  | a :: b :: c :: rest =>
    [digit (a.toNat / 16), digit (a.toNat % 16), digit (b.toNat / 16), digit (b.toNat % 16)] ++
      ch ':' :: grouped (c :: rest)

def hexByte (x y : UInt8) : UInt8 := UInt8.ofNat ((fromHexDigit x).getD 0 * 16 + (fromHexDigit y).getD 0)

def ungrouped : Bytes → Bytes
  | x :: y :: z :: w :: _ :: rest => hexByte x y :: hexByte z w :: ungrouped rest
  | [x, y, z, w] => [hexByte x y, hexByte z w]
  | _ => []

/-- The texts of some bytes that a function writes, read back by another one. -/
def readBack (width : Nat) (write read : Bytes → Bytes) (text : Bytes) :
    Option { bytes : Bytes // bytes.length = width } :=
  if known : (read text).length = width ∧ write (read text) = text then
    some ⟨read text, known.1⟩ else none

/-- The addresses whose parts all have their full number of digits, as the system
prints and reads them. -/
def sample : Inet where
  pton := readBack 4 dotted undotted
  ntop addr := dotted addr.val
  pton6 := readBack 16 grouped ungrouped
  ntop6 addr := grouped addr.val

private theorem readBack_some {width : Nat} {write read : Bytes → Bytes} {text : Bytes}
    {bytes : { bytes : Bytes // bytes.length = width }}
    (known : readBack width write read text = some bytes) : write bytes.val = text := by
  unfold readBack at known
  split at known
  · rename_i both
    cases known
    exact both.2
  · cases known

private theorem readBack_write {width : Nat} {write read : Bytes → Bytes}
    (bytes : { bytes : Bytes // bytes.length = width })
    (inverse : read (write bytes.val) = bytes.val) :
    readBack width write read (write bytes.val) = some bytes := by
  have known : (read (write bytes.val)).length = width ∧
      write (read (write bytes.val)) = write bytes.val := by
    rw [inverse]
    exact ⟨bytes.property, rfl⟩
  rw [readBack, dif_pos known]
  exact congrArg some (Subtype.ext inverse)

private theorem undotted_dotted (bytes : Bytes) : undotted (dotted bytes) = bytes := by
  have read :
      ∀ c : UInt8, UInt8.ofNat (digitOf (digit (c.toNat / 100)) * 100 +
      digitOf (digit (c.toNat / 10 % 10)) * 10 + digitOf (digit (c.toNat % 10))) = c := by
    apply byte_cases
    decide +kernel
  fun_induction dotted bytes with
  | case1 => rfl
  | case2 a => exact congrArg (fun c => [c]) (read a)
  | case3 a b rest ih => exact congrArg₂ List.cons (read a) ih

private theorem hexByte_digits (c : UInt8) :
    hexByte (digit (c.toNat / 16)) (digit (c.toNat % 16)) = c := by
  revert c
  apply byte_cases
  decide +kernel

private theorem ungrouped_grouped {bytes : Bytes} (even : bytes.length % 2 = 0) :
    ungrouped (grouped bytes) = bytes := by
  fun_induction grouped bytes with
  | case1 => rfl
  | case2 a => cases even
  | case3 a b => exact congrArg₂ (fun c d => [c, d]) (hexByte_digits a) (hexByte_digits b)
  | case4 a b c rest ih =>
    have more := ih (by simp only [List.length_cons] at even ⊢; omega)
    show hexByte _ _ :: hexByte _ _ :: ungrouped (grouped (c :: rest)) = _
    rw [hexByte_digits, hexByte_digits, more]

private theorem dotted_plain (bytes : Bytes) : ch ':' ∉ dotted bytes ∧ 0 ∉ dotted bytes := by
  have plain : ∀ c : UInt8, ch ':' ∉ decimals c ∧ 0 ∉ decimals c := by
    apply byte_cases
    decide +kernel
  fun_induction dotted bytes with
  | case1 => simp
  | case2 a => exact plain a
  | case3 a b rest ih =>
    simp only [List.mem_append, List.mem_cons, not_or]
    exact ⟨⟨(plain a).1, by decide, ih.1⟩, (plain a).2, by decide, ih.2⟩

theorem sample_documented : Documented sample where
  inverse addr := readBack_write addr (undotted_dotted _)
  inverse6 addr := readBack_write addr (ungrouped_grouped (by rw [addr.property]))
  dotted text addr read := by
    rw [← readBack_some read]
    exact (dotted_plain _).1
  colons text addr read := by
    rw [← readBack_some read]
    match addr with
    | ⟨a :: b :: c :: rest, _⟩ => simp [grouped]
  ended addr := (dotted_plain _).2

end Sample

/-- An address text is read back exactly if it is one of an IPv4 address, and a text
is answered exactly if no colon or a port number follows the first colon. -/
theorem address_text_iff {inet : Inet} (documented : Documented inet) :
    (∀ address ip port parsed, parseIp inet address ip port = (true, parsed) → ∀ other,
      parse inet other (parsed.toText inet) = .ok (true, parsed) ↔ ch ':' ∉ cString ip) ∧
    ∀ address ipPort, Answers inet address ipPort ↔ PortBehind ipPort := by
  refine ⟨fun address ip port parsed accepted other => ?_, answers_iff⟩
  rcases parseIp_true documented accepted with ⟨addr, rfl, plain⟩ | ⟨addr, rfl, colon⟩
  · exact iff_of_true (parse_inet documented other addr port) plain
  · exact iff_of_false (parse_inet6 documented other addr port _) fun plain => plain colon

/-- An IPv4 address, and a port by name. -/
theorem address_text_ipv4 :
    (parse sample .unspecified ((Address.inet ⟨[100, 101, 102, 103], rfl⟩ 80).toText sample) =
        .ok (true, .inet ⟨[100, 101, 102, 103], rfl⟩ 80) ↔ ch ':' ∉ cString (str "100.101.102.103")) ∧
      (Answers sample .unspecified (str "100.101.102.103:http") ↔
        PortBehind (str "100.101.102.103:http")) := by
  have texts := address_text_iff sample_documented
  have accepted :
      parseIp sample .unspecified (str "100.101.102.103") 80 =
      (true, .inet ⟨[100, 101, 102, 103], rfl⟩ 80) := by
    decide +kernel
  exact ⟨texts.1 _ _ _ _ accepted _, texts.2 _ _⟩

/-- An IPv6 address whose text is not read back, and a text that is not answered. -/
theorem address_text_thrown : Documented sample ∧
    parseIp sample .unspecified (str "2001:1db8:1111:2222:3333:4444:5555:6666") 80 =
      (true, .inet6 ⟨[0x20, 0x01, 0x1d, 0xb8, 0x11, 0x11, 0x22, 0x22, 0x33, 0x33, 0x44, 0x44, 0x55,
        0x55, 0x66, 0x66], rfl⟩ 80) ∧
    (parse sample .unspecified
      ((Address.inet6 ⟨[0x20, 0x01, 0x1d, 0xb8, 0x11, 0x11, 0x22, 0x22, 0x33, 0x33,
      0x44, 0x44, 0x55, 0x55, 0x66, 0x66], rfl⟩ 80).toText sample)).toOption = none ∧
    (parse sample .unspecified (str "100.101.102.103:http")).toOption = none := by
  refine ⟨sample_documented, ?_, ?_, ?_⟩ <;> decide +kernel

end Crablib.AddressProofs
