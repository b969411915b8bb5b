import Crablib.InboundProofs
import Mathlib.Tactic.Ring

/-! Frames of web messages, from their bytes to the reader: what
`WebMessageHeaderSaver` writes is parsed as it was meant, masking is undone by
the second masking, and a reader inside a frame comes to its end whichever way
the bytes are cut. -/
namespace Crablib.FrameProofs
open Http

section Masking

/-- Byte `shift` of the repeated key, most significant first. -/
def keyByte (key : UInt32) (shift : Nat) : UInt8 := UInt8.ofNat (key.toNat / 256 ^ (3 - shift % 4))

@[simp] theorem maskData_nil (shift : Nat) (key : UInt32) : maskData shift [] key = [] := rfl

@[simp] theorem maskData_cons (shift : Nat) (c : UInt8) (data : Bytes) (key : UInt32) :
    maskData shift (c :: data) key = (c ^^^ keyByte key shift) :: maskData (shift + 1) data key := by
  simp only [maskData, List.mapIdx_cons, Nat.add_zero, keyByte, List.cons.injEq, true_and]
  congr 1
  funext i d
  rw [Nat.add_assoc shift 1 i, Nat.add_comm 1 i]

@[simp] theorem maskData_length (shift : Nat) (data : Bytes) (key : UInt32) :
    (maskData shift data key).length = data.length := by
  simp [maskData]

theorem maskData_append (shift : Nat) (first second : Bytes) (key : UInt32) :
    maskData shift (first ++ second) key = maskData shift first key ++
      maskData (shift + first.length) second key := by
  induction first generalizing shift with
  | nil => simp
  | cons c first ih =>
    rw [List.cons_append, maskData_cons, maskData_cons, ih, List.cons_append, List.length_cons,
      Nat.add_right_comm shift 1, Nat.add_assoc shift]

/-- Masking twice is no masking. -/
theorem maskData_involutive (shift : Nat) (data : Bytes) (key : UInt32) :
    maskData shift (maskData shift data key) key = data := by
  induction data generalizing shift with
  | nil => rfl
  | cons c data ih =>
    rw [maskData_cons, maskData_cons, ih, UInt8.xor_assoc, UInt8.xor_self, UInt8.xor_zero]

theorem maskData_zero (shift : Nat) (data : Bytes) : maskData shift data 0 = data := by
  induction data generalizing shift with
  | nil => rfl
  | cons c data ih => simp [ih, keyByte]

private theorem rol_toNat (key : UInt32) {bits : Nat} (some_ : 0 < bits) (few : bits < 32) :
    (rol key bits).toNat = key.toNat % 2 ^ (32 - bits) * 2 ^ bits + key.toNat / 2 ^ (32 - bits) := by
  have bound : key.toNat < 2 ^ 32 := key.toNat_lt
  have whole : (2 : Nat) ^ 32 = 2 ^ (32 - bits) * 2 ^ bits := by
    rw [← Nat.pow_add]
    congr 1
    omega
  have small : key.toNat / 2 ^ (32 - bits) < 2 ^ bits := by
    rw [Nat.div_lt_iff_lt_mul (Nat.two_pow_pos _), Nat.mul_comm, ← whole]
    exact bound
  have left : key.toNat * 2 ^ bits % 2 ^ 32 = key.toNat % 2 ^ (32 - bits) * 2 ^ bits := by
    rw [whole]
    exact Nat.mul_mod_mul_right _ _ _
  have sum := Nat.shiftLeft_add_eq_or_of_lt small (key.toNat % 2 ^ (32 - bits))
  rw [Nat.shiftLeft_eq] at sum
  have mod : bits % 32 = bits := Nat.mod_eq_of_lt few
  have right : (32 - UInt32.ofNat bits).toNat = 32 - bits := by
    rw [UInt32.toNat_sub_of_le]
    · simp
      omega
    · rw [UInt32.le_iff_toNat_le]
      simp
      omega
  have low : (UInt32.ofNat bits).toNat = bits := by
    simp
    omega
  simp only [rol, mod, UInt32.toNat_or, UInt32.toNat_shiftLeft, UInt32.toNat_shiftRight, right, low]
  rw [show (32 - bits) % 32 = 32 - bits by omega, Nat.shiftLeft_eq, Nat.shiftRight_eq_div_pow, left, sum]

/-- The mask after any number of turns by a byte, as a number. -/
private theorem rol_bytes (key : UInt32) (shift : Nat) :
    (rol key (8 * shift)).toNat =
      key.toNat % 256 ^ (4 - shift % 4) * 256 ^ (shift % 4) + key.toNat / 256 ^ (4 - shift % 4) := by
  have bound : key.toNat < 2 ^ 32 := key.toNat_lt
  have reduce : rol key (8 * shift) = rol key (8 * (shift % 4)) := by
    simp only [rol]
    rw [show 8 * shift % 32 = 8 * (shift % 4) % 32 by omega]
  by_cases whole : shift % 4 = 0
  · have unturned : rol key 0 = key := by
      apply UInt32.toNat.inj
      simp [rol, UInt32.toNat_shiftRight]
    rw [reduce, whole, Nat.mul_zero, unturned]
    omega
  · rw [reduce, rol_toNat key (by omega) (by omega),
      show 32 - 8 * (shift % 4) = 8 * (4 - shift % 4) by omega, Nat.pow_mul, Nat.pow_mul]

/-- One more turn by a byte. -/
private theorem rol_turn (key : UInt32) (shift : Nat) :
    rol (rol key (8 * shift)) 8 = rol key (8 * (shift + 1)) := by
  have bound : key.toNat < 2 ^ 32 := key.toNat_lt
  have turned := rol_bytes (rol key (8 * shift)) 1
  have first := rol_bytes key shift
  have next := rol_bytes key (shift + 1)
  have place : shift % 4 = 0 ∨ shift % 4 = 1 ∨ shift % 4 = 2 ∨ shift % 4 = 3 := by omega
  apply UInt32.toNat.inj
  rcases place with at_ | at_ | at_ | at_ <;>
    simp only [at_, Nat.add_mod, Nat.mul_one, Nat.reduceMod, Nat.reduceAdd, Nat.reduceSub, Nat.reducePow]
      at first next turned ⊢ <;>
    omega

/-- A number of four bytes. -/
private theorem four_bytes {n : Nat} (bound : n < 2 ^ 32) :
    ∃ a b c d, a < 256 ∧ b < 256 ∧ c < 256 ∧ d < 256 ∧ n = a * 16777216 + b * 65536 + c * 256 + d :=
  ⟨n / 16777216, n / 65536 % 256, n / 256 % 256,
    n % 256, by omega, by omega, by omega, by omega, by omega⟩

private theorem bytes_of_four {a b c d : Nat} (_ : a < 256) (_ : b < 256) (_ : c < 256) (_ : d < 256) :
    (a * 16777216 + b * 65536 + c * 256 + d) / 16777216 % 256 = a ∧
      (a * 16777216 + b * 65536 + c * 256 + d) / 65536 % 256 = b ∧
      (a * 16777216 + b * 65536 + c * 256 + d) / 256 % 256 = c ∧
      (a * 16777216 + b * 65536 + c * 256 + d) / 1 % 256 = d := by
  have first : (a * 16777216 + b * 65536 + c * 256 + d) / 16777216 = a := by omega
  have second : (a * 16777216 + b * 65536 + c * 256 + d) / 65536 = a * 256 + b := by omega
  have third : (a * 16777216 + b * 65536 + c * 256 + d) / 256 = a * 65536 + b * 256 + c := by omega
  rw [first, second, third]
  omega

/-- The bytes of the turned mask, most significant first, are those of the key. -/
private theorem rol_byte (key : UInt32) (shift back : Nat) (few : back < 4) :
    (rol key (8 * shift)).toNat / 256 ^ (3 - back) % 256 = key.toNat /
      256 ^ (3 - (shift + back) % 4) % 256 := by
  have place : shift % 4 = 0 ∨ shift % 4 = 1 ∨ shift % 4 = 2 ∨ shift % 4 = 3 := by omega
  have last : back = 0 ∨ back = 1 ∨ back = 2 ∨ back = 3 := by omega
  rw [rol_bytes]
  obtain ⟨a, b, c, d, ha, hb, hc, hd, whole⟩ := four_bytes key.toNat_lt
  rw [whole]
  obtain ⟨k0, k1, k2, k3⟩ := bytes_of_four ha hb hc hd
  rcases place with at_ | at_ | at_ | at_
  · have turned : (a * 16777216 + b * 65536 + c * 256 + d) % 4294967296 * 1 +
        (a * 16777216 + b * 65536 + c * 256 + d) / 4294967296 = a * 16777216 + b * 65536 +
          c * 256 + d := by omega
    rcases last with rfl | rfl | rfl | rfl <;>
      simp only [at_, Nat.add_mod shift, Nat.reduceMod, Nat.reduceAdd, Nat.reduceSub,
        Nat.reducePow, turned]
  · have turned : (a * 16777216 + b * 65536 + c * 256 + d) % 16777216 * 256 +
        (a * 16777216 + b * 65536 + c * 256 + d) / 16777216 = b * 16777216 + c * 65536 +
          d * 256 + a := by omega
    obtain ⟨t0, t1, t2, t3⟩ := bytes_of_four hb hc hd ha
    rcases last with rfl | rfl | rfl | rfl <;>
      simp only [at_, Nat.add_mod shift, Nat.reduceMod, Nat.reduceAdd, Nat.reduceSub, Nat.reducePow,
        turned, k0, k1, k2, k3, t0, t1, t2, t3]
  · have turned : (a * 16777216 + b * 65536 + c * 256 + d) % 65536 * 65536 +
        (a * 16777216 + b * 65536 + c * 256 + d) / 65536 = c * 16777216 + d * 65536 +
          a * 256 + b := by omega
    obtain ⟨t0, t1, t2, t3⟩ := bytes_of_four hc hd ha hb
    rcases last with rfl | rfl | rfl | rfl <;>
      simp only [at_, Nat.add_mod shift, Nat.reduceMod, Nat.reduceAdd, Nat.reduceSub, Nat.reducePow,
        turned, k0, k1, k2, k3, t0, t1, t2, t3]
  · have turned : (a * 16777216 + b * 65536 + c * 256 + d) % 256 * 16777216 +
        (a * 16777216 + b * 65536 + c * 256 + d) / 256 = d * 16777216 + a * 65536 +
          b * 256 + c := by omega
    obtain ⟨t0, t1, t2, t3⟩ := bytes_of_four hd ha hb hc
    rcases last with rfl | rfl | rfl | rfl <;>
      simp only [at_, Nat.add_mod shift, Nat.reduceMod, Nat.reduceAdd, Nat.reduceSub, Nat.reducePow,
        turned, k0, k1, k2, k3, t0, t1, t2, t3]

/-- A byte of the turned mask, as the source takes it. -/
private theorem rol_shifted (key : UInt32) (shift back : Nat) (few : back < 4) :
    (rol key (8 * shift) >>> UInt32.ofNat (8 * (3 - back))).toUInt8 = keyByte key (shift + back) := by
  apply UInt8.toNat.inj
  simp only [UInt32.toNat_toUInt8, UInt32.toNat_shiftRight, UInt32.toNat_ofNat',
    Nat.shiftRight_eq_div_pow, keyByte, UInt8.toNat_ofNat']
  rw [Nat.mod_eq_of_lt (show 8 * (3 - back) < 2 ^ 32 by omega),
    Nat.mod_eq_of_lt (show 8 * (3 - back) < 32 by omega), Nat.pow_mul]
  exact rol_byte key shift back few

private theorem maskLoop_eq (key : UInt32) (shift : Nat) (data : Bytes) :
    maskLoop (rol key (8 * shift)) data = (maskData shift data key,
      rol key (8 * (shift + data.length))) := by
  induction data generalizing shift with
  | nil => rfl
  | cons c data ih =>
    have byte : (rol key (8 * (shift + 1))).toUInt8 = keyByte key shift := by
      have low := rol_shifted key (shift + 1) 3 (by omega)
      simp only [Nat.sub_self, Nat.mul_zero] at low
      have same : keyByte key (shift + 1 + 3) = keyByte key shift := by
        simp [keyByte, Nat.add_assoc]
      rw [← same, ← low]
      congr 1
    simp only [maskLoop, rol_turn, ih, byte, maskData_cons, List.length_cons, Prod.mk.injEq, true_and]
    rw [Nat.add_right_comm shift 1, Nat.add_assoc shift]

/-- The key repeats every four bytes. -/
private theorem maskData_period (shift count : Nat) (data : Bytes) (key : UInt32) :
    maskData (shift + 4 * count) data key = maskData shift data key := by
  simp only [maskData]
  congr 1
  funext i c
  rw [show (shift + 4 * count + i) % 4 = (shift + i) % 4 by omega]

private theorem maskWords_eq (key : UInt32) (shift : Nat) (data : Bytes) :
    ∃ words rest count, data = words ++ rest ∧ words.length = 4 * count ∧
      maskWords (rol key (8 * shift)) data = (maskData shift words key, rest) := by
  have b0 : (rol key (8 * shift) >>> 24).toUInt8 = keyByte key shift :=
    rol_shifted key shift 0 (by omega)
  have b1 : (rol key (8 * shift) >>> 16).toUInt8 = keyByte key (shift + 1) :=
    rol_shifted key shift 1 (by omega)
  have b2 : (rol key (8 * shift) >>> 8).toUInt8 = keyByte key (shift + 2) :=
    rol_shifted key shift 2 (by omega)
  have b3 : (rol key (8 * shift)).toUInt8 = keyByte key (shift + 3) := by
    have low := rol_shifted key shift 3 (by omega)
    rw [← low]
    congr 1
  have again : ∀ n, keyByte key (n + 4) = keyByte key n := fun n => by simp [keyByte]
  fun_induction maskWords (rol key (8 * shift)) data with
  | case1 c0 c1 c2 c3 c4 c5 c6 c7 data _ _ _ _ later ih =>
    obtain ⟨words, rest, count, split, length, masked⟩ := ih
    refine ⟨c0 :: c1 :: c2 :: c3 :: c4 :: c5 :: c6 :: c7 :: words, rest,
      count + 2, by simp [split], by simp [length]; omega, ?_⟩
    have period : maskData (shift + 1 + 1 + 1 + 1 + 1 + 1 + 1 + 1) words key =
        maskData shift words key :=
      maskData_period shift 2 words key
    have later_ : later = (maskData shift words key, rest) := masked
    simp only [later_, maskData_cons, period]
    rw [again, again, again, again]
    simp only [Prod.mk.injEq, List.cons.injEq, and_true]
    exact ⟨congrArg (c0 ^^^ ·) b0, congrArg (c1 ^^^ ·) b1, congrArg (c2 ^^^ ·) b2,
      congrArg (c3 ^^^ ·) b3,
      congrArg (c4 ^^^ ·) b0, congrArg (c5 ^^^ ·) b1, congrArg (c6 ^^^ ·) b2, congrArg (c7 ^^^ ·) b3⟩
  | case2 data _ => exact ⟨[], data, 0, rfl, rfl, rfl⟩

/-- Wherever the data lies in memory, `mask_data` masks byte by byte. -/
theorem maskDataAt_eq (gap shift : Nat) (data : Bytes) (key : UInt32) :
    maskDataAt gap shift data key = maskData shift data key := by
  simp only [maskDataAt, maskLoop_eq]
  split
  · rename_i fits
    have front : (data.take gap).length = gap := by
      rw [List.length_take]
      omega
    obtain ⟨words, rest, count, split, length, masked⟩ := maskWords_eq key (shift + gap) (data.drop gap)
    rw [front, masked]
    simp only
    conv_rhs => rw [← List.take_append_drop gap data, split]
    rw [maskData_append, maskData_append, front, length, maskData_period, List.append_assoc]
  · rfl

end Masking

section Headers
open WebMessageHeaderParser Scanner

/-- Reading one more digit of a number that wraps. -/
private theorem digit_step (before value count bound : Nat) :
    ((before * 256 + value / 256 ^ count % 256) % bound * 256 ^ count + value % 256 ^ count) % bound =
      (before * 256 ^ (count + 1) + value % 256 ^ (count + 1)) % bound := by
  have split :
      value % 256 ^ (count + 1) = value % 256 ^ count + 256 ^ count * (value / 256 ^ count % 256) :=
    Nat.mod_pow_succ
  have sum : before * 256 ^ (count + 1) + value % 256 ^ (count + 1) =
      (before * 256 + value / 256 ^ count % 256) * 256 ^ count + value % 256 ^ count := by
    rw [split, Nat.pow_succ]
    ring
  rw [sum, Nat.add_mod, Nat.mod_mul_mod, ← Nat.add_mod]

/-- The parser reads the rest of a length. -/
private theorem scan_length {p : WebMessageHeaderParser} (state : p.state = .messageLength) {count : Nat}
    (remaining : p.remainingFieldBytes = count + 1) (value : Nat) (rest : Bytes) :
    scan machine p (bigEndian (count + 1) value ++ rest) =
      scan machine { p with
        payloadLen := (p.payloadLen * 256 ^ (count + 1) + value % 256 ^ (count + 1)) % 2 ^ 64
        remainingFieldBytes := 0 }.afterLength rest := by
  induction count generalizing p with
  | zero =>
    have running : machine.good p = false := by simp [machine, isGood, state]
    have consumed : machine.consume p (UInt8.ofNat (value / 256 ^ 0)) = .ok { p with
        payloadLen := (p.payloadLen * 256 ^ 1 + value % 256 ^ 1) % 2 ^ 64
        remainingFieldBytes := 0 }.afterLength := by
      simp [machine, consume, state, remaining]
    exact scan_step running consumed rest
  | succ count ih =>
    have running : machine.good p = false := by simp [machine, isGood, state]
    have consumed : machine.consume p (UInt8.ofNat (value / 256 ^ (count + 1))) = .ok { p with
        payloadLen := (p.payloadLen * 256 + value / 256 ^ (count + 1) % 256) % 2 ^ 64
        remainingFieldBytes := count + 1 } := by
      simp [machine, consume, state, remaining]
    have next := scan_step running consumed (bigEndian (count + 1) value ++ rest)
    refine next.trans ((ih (p := { p with payloadLen := _, remainingFieldBytes := count + 1 }) state
      rfl).trans ?_)
    simp only [digit_step]

/-- The parser reads the rest of a masking key. -/
private theorem scan_key {p : WebMessageHeaderParser} (state : p.state = .maskingKey) {key : UInt32}
    (some_ : p.maskingKey = some key) {count : Nat} (remaining : p.remainingFieldBytes = count + 1)
    (value : Nat) (rest : Bytes) :
    scan machine p (bigEndian (count + 1) value ++ rest) =
      scan machine { p with
        maskingKey := some (UInt32.ofNat (key.toNat * 256 ^ (count + 1) + value % 256 ^ (count + 1)))
        remainingFieldBytes := 0
        state := .good } rest := by
  induction count generalizing p key with
  | zero =>
    have running : machine.good p = false := by simp [machine, isGood, state]
    have consumed : machine.consume p (UInt8.ofNat (value / 256 ^ 0)) = .ok { p with
        maskingKey := some (UInt32.ofNat (key.toNat * 256 ^ 1 + value % 256 ^ 1))
        remainingFieldBytes := 0
        state := .good } := by
      simp [machine, consume, state, remaining, some_]
    exact scan_step running consumed rest
  | succ count ih =>
    have running : machine.good p = false := by simp [machine, isGood, state]
    have consumed : machine.consume p (UInt8.ofNat (value / 256 ^ (count + 1))) = .ok { p with
        maskingKey := some (UInt32.ofNat (key.toNat * 256 + value / 256 ^ (count + 1) % 256))
        remainingFieldBytes := count + 1 } := by
      simp [machine, consume, state, remaining, some_]
    have next := scan_step running consumed (bigEndian (count + 1) value ++ rest)
    refine next.trans ((ih (p := { p with maskingKey := _, remainingFieldBytes := count + 1 })
      state rfl rfl).trans ?_)
    have wrapped := digit_step key.toNat value (count + 1) (2 ^ 32)
    have equal :
        UInt32.ofNat ((key.toNat * 256 + value / 256 ^ (count + 1) % 256) % 2 ^ 32 * 256 ^ (count + 1) +
        value % 256 ^ (count + 1)) =
        UInt32.ofNat (key.toNat * 256 ^ (count + 1 + 1) + value % 256 ^ (count + 1 + 1)) := by
      apply UInt32.toNat.inj
      rw [UInt32.toNat_ofNat', UInt32.toNat_ofNat']
      exact wrapped
    simp only [UInt32.toNat_ofNat', equal]

/-- A frame as it is sent: a control frame is whole and short. -/
structure Frame where
  fin : Bool := true
  opcode : WebMessageOpcode
  key : Option UInt32
  body : Bytes
  small : body.length < 2 ^ 64
  control : opcode ≠ .text → opcode ≠ .binary → fin = true ∧ body.length ≤ 125

/-- The body as it is sent. -/
def masked (key : Option UInt32) (shift : Nat) (body : Bytes) : Bytes := maskData shift body (key.getD 0)

def Frame.header (f : Frame) : Bytes := webMessageHeader f.fin f.opcode.toNat f.body.length f.key

def Frame.bytes (f : Frame) : Bytes := f.header ++ masked f.key 0 f.body

/-- The header parser at the end of the header of a frame. -/
def Frame.parsed (f : Frame) : WebMessageHeaderParser :=
  { fin := f.fin, opcode := f.opcode.toNat, payloadLen := f.body.length,
    maskingKey := f.key, state := .good }

private theorem scan_byte0 (fin : Bool) (opcode : WebMessageOpcode) (rest : Bytes) :
    scan machine {} (UInt8.ofNat ((if fin then 0x80 else 0) + opcode.toNat) :: rest) =
      scan machine { fin := fin, opcode := opcode.toNat, state := .messageByte1 } rest := by
  refine scan_step rfl ?_ rest
  cases fin <;> cases opcode <;> decide

/-- The second byte of a header: a length that fits, or a mark. -/
private theorem byte1_split (mark : Fin 128) (masked : Bool) :
    (UInt8.ofNat (mark + if masked then 0x80 else 0) &&& 0x80 ≠ 0 ↔ masked = true) ∧
      (UInt8.ofNat (mark + if masked then 0x80 else 0) &&& 0x7f).toNat = mark := by
  revert mark masked
  decide

/-- The parser reads the key, if there is one, behind the length. -/
private theorem scan_tail (p : WebMessageHeaderParser) (key : Option UInt32) :
    p.maskingKey = (key.map fun _ => 0) → p.remainingFieldBytes = 0 →
      scan machine p.afterLength (match key with | some key => bigEndian 4 key.toNat | none => []) =
        .ok ({ p with maskingKey := key, state := .good, remainingFieldBytes := 0 }, []) := by
  intro mask done
  cases key with
  | none =>
    have unmasked : p.maskingKey = none := mask
    simp [afterLength, unmasked, done]
  | some key =>
    have started : p.afterLength = { p with remainingFieldBytes := 4, state := .maskingKey } := by
      simp [afterLength, mask]
    have zero : p.afterLength.maskingKey = some 0 := by simp [started, mask]
    have four : p.afterLength.remainingFieldBytes = 3 + 1 := by simp [started]
    have read := scan_key (by simp [started]) zero four key.toNat []
    rw [List.append_nil] at read
    refine read.trans ?_
    have bound : key.toNat < 2 ^ 32 := key.toNat_lt
    have whole : key.toNat % 4294967296 = key.toNat := Nat.mod_eq_of_lt bound
    simp [started, whole]

/-- A control opcode meets its two conditions. -/
private theorem control_ok (f : Frame) (control : f.opcode.toNat &&& 0x08 ≠ 0) :
    f.fin = true ∧ f.body.length ≤ 125 := by
  apply f.control
  · intro text
    simp [text, WebMessageOpcode.toNat] at control
  · intro binary
    simp [binary, WebMessageOpcode.toNat] at control

/-- The second byte of a header. -/
private theorem consume_byte1 (f : Frame) (mark : Fin 128)
    (fits : f.body.length < 126 → mark.val = f.body.length) :
    machine.consume { fin := f.fin, opcode := f.opcode.toNat, state := .messageByte1 }
        (UInt8.ofNat (mark + if f.key.isSome then 0x80 else 0)) =
      .ok (
        let p : WebMessageHeaderParser :=
          { fin := f.fin, opcode := f.opcode.toNat, maskingKey := f.key.map fun _ => 0,
            state := .messageByte1 }
        if mark.val = 126 then { p with remainingFieldBytes := 2, state := .messageLength }
        else if mark.val = 127 then { p with remainingFieldBytes := 8, state := .messageLength }
        else { p with payloadLen := mark }.afterLength) := by
  obtain ⟨bit, low⟩ := byte1_split mark f.key.isSome
  have key :
      (if UInt8.ofNat (mark + if f.key.isSome then 0x80 else 0) &&& 0x80 ≠ 0 then
      some (0 : UInt32) else none) = f.key.map fun _ => 0 := by
    simp only [bit]
    cases f.key <;> rfl
  simp only [machine, consume, low, key]
  have small : ¬((decide (f.opcode.toNat &&& 0x08 ≠ 0) && decide (mark.val > 125)) = true) := by
    intro bad
    simp only [Bool.and_eq_true, decide_eq_true_eq] at bad
    have := (control_ok f bad.1).2
    have := fits (by omega)
    omega
  have whole : ¬((decide (f.opcode.toNat &&& 0x08 ≠ 0) && !f.fin) = true) := by
    intro bad
    simp only [Bool.and_eq_true, decide_eq_true_eq, Bool.not_eq_true'] at bad
    simp [(control_ok f bad.1).1] at bad
  simp only [small, whole, Bool.false_eq_true, ↓reduceIte]
  by_cases two : mark.val = 126
  · simp [two]
  · by_cases eight : mark.val = 127
    · simp [eight]
    · simp [two, eight]

/-- The header that is sent is parsed as it was meant. -/
theorem scan_header (f : Frame) : scan machine {} f.header = .ok (f.parsed, []) := by
  simp only [Frame.header, webMessageHeader, List.cons_append]
  rw [scan_byte0]
  by_cases short : f.body.length < 126
  · have next := consume_byte1 f ⟨f.body.length, by omega⟩ fun _ => rfl
    have unmarked : f.body.length ≠ 126 ∧ f.body.length ≠ 127 := by omega
    simp only [unmarked, ↓reduceIte] at next
    simp only [short, ↓reduceIte, List.cons_append, List.nil_append]
    exact (scan_step rfl next _).trans (scan_tail _ f.key rfl rfl)
  · by_cases medium : f.body.length < 65536
    · have next : machine.consume _ (UInt8.ofNat (126 + if f.key.isSome then 0x80 else 0)) =
          .ok { fin := f.fin, opcode := f.opcode.toNat, maskingKey := f.key.map fun _ => 0
                remainingFieldBytes := 2, state := .messageLength } :=
        consume_byte1 f 126 fun contra => absurd contra short
      have whole : f.body.length % 65536 % 18446744073709551616 = f.body.length := by omega
      simp only [short, medium, ↓reduceIte, List.cons_append]
      refine (scan_step rfl next _).trans
        ((scan_length rfl rfl _ _).trans ((scan_tail _ f.key rfl rfl).trans ?_))
      simp [Frame.parsed, whole]
    · have next : machine.consume _ (UInt8.ofNat (127 + if f.key.isSome then 0x80 else 0)) =
          .ok { fin := f.fin, opcode := f.opcode.toNat, maskingKey := f.key.map fun _ => 0
                remainingFieldBytes := 8, state := .messageLength } :=
        consume_byte1 f 127 fun contra => absurd contra short
      have whole : f.body.length % 18446744073709551616 = f.body.length := Nat.mod_eq_of_lt f.small
      simp only [short, medium, ↓reduceIte, List.cons_append]
      refine (scan_step rfl next _).trans
        ((scan_length rfl rfl _ _).trans ((scan_tail _ f.key rfl rfl).trans ?_))
      simp [Frame.parsed, whole]

end Headers

section Bodies
open WebMessageBodyParser

/-- The body parser in the middle of a body: `done` was read, `rest` is to come. -/
def bodyAt (key : Option UInt32) (done rest : Bytes) : WebMessageBodyParser :=
  { body := done
    inBody := rest.length ≠ 0
    remainingBytes := rest.length
    maskingKey := key.getD 0
    maskingShift := if key.getD 0 ≠ 0 then done.length else 0 }

theorem make_eq (key : Option UInt32) (body : Bytes) : make body.length key = bodyAt key [] body := by
  simp [make, bodyAt]

@[simp] theorem masked_length (key : Option UInt32) (shift : Nat) (body : Bytes) :
    (masked key shift body).length = body.length := by
  simp [masked]

theorem masked_append (key : Option UInt32) (shift : Nat) (first second : Bytes) :
    masked key shift (first ++ second) = masked key shift first ++
      masked key (shift + first.length) second :=
  maskData_append shift first second (key.getD 0)

/-- The bytes taken, unmasked again. -/
private theorem unmask (key : Option UInt32) (done block : Bytes) :
    (if key.getD 0 ≠ 0 then
      maskData (if key.getD 0 ≠ 0 then done.length else 0) (masked key done.length block)
      (key.getD 0) else masked key done.length block) = block := by
  by_cases zero : key.getD 0 = 0
  · simp [zero, masked, maskData_zero]
  · simp [zero, masked, maskData_involutive]

/-- A block of the body is read, up to the end of the body or of the bytes. -/
private theorem consume_block (key : Option UInt32) (done block rest extra : Bytes) (some_ : block ≠ [])
    (ends : rest = [] ∨ extra = []) :
    (bodyAt key done (block ++ rest)).consume (masked key done.length block ++ extra) =
      (bodyAt key (done ++ block) rest, extra) := by
  have count :
      min (masked key done.length block ++ extra).length (block ++ rest).length = block.length := by
    rcases ends with rfl | rfl
    · simp
    · simp
  have front :
      (masked key done.length block ++ extra).take block.length = masked key done.length block := by
    rw [List.take_append_of_le_length (by simp), List.take_of_length_le (by simp)]
  have back : (masked key done.length block ++ extra).drop block.length = extra := by
    rw [List.drop_append_of_le_length (by simp), List.drop_of_length_le (by simp), List.nil_append]
  have inside : (block ++ rest).length ≠ 0 := by simp [some_]
  have left : (block ++ rest).length - block.length = rest.length := by simp
  simp only [consume, bodyAt, inside, ne_eq, not_false_eq_true, decide_true, ↓reduceIte,
    count, front, back, left]
  simp only [← ne_eq, unmask]
  by_cases zero : key.getD 0 = 0
  · simp [zero]
  · simp [zero]

/-- The parser reads a block and stops behind the body. -/
theorem parse_block (key : Option UInt32) (done block rest extra : Bytes)
    (ends : rest = [] ∨ extra = []) :
    (bodyAt key done (block ++ rest)).parse (masked key done.length block ++ extra) =
      .ok (bodyAt key (done ++ block) rest, extra) := by
  have stopped : ∀ passes, parseLoop passes (bodyAt key (done ++ block) rest) extra =
      (bodyAt key (done ++ block) rest, extra) := by
    intro passes
    cases passes with
    | zero => rfl
    | succ passes =>
      have idle : extra.isEmpty || (bodyAt key (done ++ block) rest).isGood := by
        rcases ends with rfl | rfl <;> simp [isGood, bodyAt]
      simp [parseLoop, idle]
  simp only [parse]
  by_cases none : block = []
  · subst none
    simpa [masked] using stopped _
  · have running :
        ((masked key done.length block ++ extra).isEmpty ||
        (bodyAt key done (block ++ rest)).isGood) = false := by
      have : masked key done.length block ≠ [] := by
        intro empty
        have := congrArg List.length empty
        simp [none] at this
      simp [isGood, bodyAt, none, this]
    have passes : (masked key done.length block ++ extra).length =
        (masked key done.length block ++ extra).length - 1 + 1 := by
      have := List.length_pos_iff.mpr none
      simp only [List.length_append, masked_length]
      omega
    rw [passes, parseLoop]
    simp only [running, Bool.false_eq_true, ↓reduceIte,
      consume_block key done block rest extra none ends, stopped]

end Bodies

section Reading
open StreamsProofs InboundProofs

/-- The reader inside a frame, with what is to come of it. -/
inductive Inside (f : Frame) : WebState → WebReader → Bytes → Prop where
  | header {w : WebReader} (read left : Bytes) (split : f.header = read ++ left) (more : left ≠ [])
      (parser : Scanner.scan WebMessageHeaderParser.machine {} read = .ok (w.wmHeaderParser, [])) :
      Inside f .header w (left ++ masked f.key 0 f.body)
  | body {w : WebReader} (done rest : Bytes) (split : f.body = done ++ rest) (more : rest ≠ [])
      (header : w.wmHeaderParser = f.parsed) (parser : w.wmBodyParser = bodyAt f.key done rest) :
      Inside f .body w (masked f.key done.length rest)

/-- The reader at the end of a frame. -/
def Frame.complete (f : Frame) (w : WebReader) : WebReader :=
  { w with wmHeaderParser := f.parsed, wmBodyParser := bodyAt f.key f.body [] }

variable {f : Frame} {w : WebReader} {b : Buffer}

theorem inside_start (f : Frame) (fresh : w.wmHeaderParser = {}) : Inside f .header w f.bytes :=
  .header [] f.header rfl (by simp [Frame.header, webMessageHeader]) (by simp [fresh])

theorem Inside.ne_nil {state : WebState} {rest : Bytes}
    (inside : Inside f state w rest) : rest ≠ [] := by
  cases inside with
  | header read left split more parser => simp [more]
  | body done rest split more header parser =>
    intro empty
    have := congrArg List.length empty
    simp [more] at this

private theorem masked_split {key : Option UInt32} {shift : Nat} {body first second : Bytes}
    (split : masked key shift body = first ++ second) :
    ∃ x y, body = x ++ y ∧ first = masked key shift x ∧ second = masked key (shift + x.length) y := by
  have lengths := congrArg List.length split
  simp only [masked_length, List.length_append] at lengths
  refine ⟨body.take first.length, body.drop first.length, (List.take_append_drop _ _).symm, ?_⟩
  rw [← List.take_append_drop first.length body, masked_append] at split
  have sizes : (masked key shift (body.take first.length)).length = first.length := by
    simp only [masked_length, List.length_take]
    omega
  obtain ⟨front, back⟩ := List.append_inj split sizes
  exact ⟨front.symm, back.symm⟩

private theorem body_suffix {p : WebMessageBodyParser} {bytes rest : Bytes} {q : WebMessageBodyParser}
    (parsed : p.parse bytes = .ok (q, rest)) : ∃ used, bytes = used ++ rest := by
  have loop : ∀ passes (p : WebMessageBodyParser) bytes, ∃ used,
      bytes = used ++ (WebMessageBodyParser.parseLoop passes p bytes).2 := by
    intro passes
    induction passes with
    | zero => exact fun p bytes => ⟨[], rfl⟩
    | succ passes ih =>
      intro p bytes
      simp only [WebMessageBodyParser.parseLoop]
      split
      · exact ⟨[], rfl⟩
      · obtain ⟨used, suffix⟩ := ih (p.consume bytes).1 (p.consume bytes).2
        have taken : ∃ front, bytes = front ++ (p.consume bytes).2 := by
          simp only [WebMessageBodyParser.consume]
          split
          · exact ⟨_, (List.take_append_drop _ bytes).symm⟩
          · exact ⟨[], rfl⟩
        obtain ⟨front, whole⟩ := taken
        exact ⟨front ++ used, by rw [List.append_assoc, ← suffix, ← whole]⟩
  simp only [WebMessageBodyParser.parse, Except.ok.injEq] at parsed
  obtain ⟨used, suffix⟩ := loop bytes.length p bytes
  exact ⟨used, by rw [parsed] at suffix; exact suffix⟩

/-- A block of the body reaches the buffer and is taken. -/
private theorem readBody_block (done block rest : Bytes) {extra : Bytes}
    (parser : w.wmBodyParser = bodyAt f.key done (block ++ rest)) (linear : Linear b)
    (holds : contents b = masked f.key done.length block ++ extra) (ends : rest = [] ∨ extra = []) :
    ∃ after, contents after = extra ∧ Linear after ∧ after.capacity = b.capacity ∧
      w.readBody b =
        if rest ≠ [] then (.nothing, .body,
        { w with wmBodyParser := bodyAt f.key (done ++ block) rest }, after) else
          let chunk := { w with wmBodyParser := bodyAt f.key (done ++ block) rest }.onChunk
          (chunk.1, chunk.2.1, chunk.2.2, after) := by
  have spec := parseWith_spec (p := w.wmBodyParser.parse) body_suffix linear
  rw [holds, parser, parse_block f.key done block rest extra ends] at spec
  obtain ⟨after, parsed, left, linear', capacity⟩ := spec
  refine ⟨after, left, linear', capacity, ?_⟩
  unfold WebReader.readBody
  rw [parser, parsed]
  by_cases more : rest = []
  · simp [WebMessageBodyParser.isGood, bodyAt, more]
  · simp [WebMessageBodyParser.isGood, bodyAt, more]

/-- The rest of a header reaches the buffer, and the body parser is set up. -/
private theorem readHeader_whole {left extra : Bytes} (linear : Linear b)
    (holds : contents b = left ++ extra)
    (parser : Scanner.scan WebMessageHeaderParser.machine w.wmHeaderParser left = .ok (f.parsed, [])) :
    ∃ after, contents after = extra ∧ Linear after ∧ after.capacity = b.capacity ∧
      w.readHeader b =
        { w with wmHeaderParser := f.parsed,
                 wmBodyParser := bodyAt f.key [] f.body }.readBody after := by
  have spec := parseWith_spec (p := w.wmHeaderParser.parse) Scanner.rest_suffix linear
  have good : WebMessageHeaderParser.machine.good f.parsed = true := rfl
  rw [holds, WebMessageHeaderParser.parse, Scanner.scan_whole parser good] at spec
  obtain ⟨after, parsed, rest, linear', capacity⟩ := spec
  refine ⟨after, rest, linear', capacity, ?_⟩
  have made : WebMessageBodyParser.make f.parsed.payloadLen f.parsed.maskingKey =
      bodyAt f.key [] f.body :=
    make_eq f.key f.body
  simp only [WebReader.readHeader, parsed, made]
  rfl

/-- Part of a header reaches the buffer. -/
private theorem readHeader_part {part rest : Bytes} (linear : Linear b) (holds : contents b = part)
    (parser : Scanner.scan WebMessageHeaderParser.machine w.wmHeaderParser (part ++ rest) =
      .ok (f.parsed, []))
    (more : rest ≠ []) :
    ∃ h after, contents after = [] ∧ Linear after ∧ after.capacity = b.capacity ∧
      Scanner.scan WebMessageHeaderParser.machine w.wmHeaderParser part = .ok (h, []) ∧
      w.readHeader b = (.nothing, .header, { w with wmHeaderParser := h }, after) := by
  obtain ⟨h, scanned, running, -⟩ := Scanner.scan_part parser more
  have spec := parseWith_spec (p := w.wmHeaderParser.parse) Scanner.rest_suffix linear
  rw [holds, WebMessageHeaderParser.parse, scanned] at spec
  obtain ⟨after, parsed, left, linear', capacity⟩ := spec
  have waiting : h.isGood = false := running
  exact ⟨h, after, left, linear', capacity, scanned, by simp [WebReader.readHeader, parsed, waiting]⟩

/-- Where two ways to cut one text meet. -/
theorem cut_cases {a b c d : Bytes} (same : a ++ b = c ++ d) :
    (∃ mid, mid ≠ [] ∧ c = a ++ mid ∧ b = mid ++ d) ∨ ∃ mid, a = c ++ mid ∧ d = mid ++ b := by
  obtain ⟨mid, front, back⟩ | ⟨mid, front, back⟩ := List.append_eq_append_iff.mp same
  · by_cases none : mid = []
    · subst none
      exact .inr ⟨[], by simpa using front.symm, by simpa using back.symm⟩
    · exact .inl ⟨mid, none, front, back⟩
  · exact .inr ⟨mid, front, back⟩

/-- The header parser inside a header is on the way to its end. -/
private theorem rest_of_header {read left : Bytes} (split : f.header = read ++ left) (more : left ≠ [])
    (parser : Scanner.scan WebMessageHeaderParser.machine {} read = .ok (w.wmHeaderParser, [])) :
    Scanner.scan WebMessageHeaderParser.machine w.wmHeaderParser left = .ok (f.parsed, []) := by
  obtain ⟨h, first, -, second⟩ := Scanner.scan_part (split ▸ scan_header f) more
  rw [parser] at first
  cases first
  exact second

/-- Part of a body reaches the buffer. -/
private theorem readBody_part {done left part rest : Bytes} (header : w.wmHeaderParser = f.parsed)
    (parser : w.wmBodyParser = bodyAt f.key done left) (split : f.body = done ++ left)
    (cut : masked f.key done.length left = part ++ rest) (more : rest ≠ []) (linear : Linear b)
    (holds : contents b = part) :
    ∃ w' after, w.readBody b = (.nothing, .body, w', after) ∧ contents after = [] ∧ Linear after ∧
      after.capacity = b.capacity ∧ Inside f .body w' rest ∧ w'.webMessage = w.webMessage := by
  obtain ⟨block, later, rfl, rfl, rfl⟩ := masked_split cut
  have some_ : later ≠ [] := by
    rintro rfl
    simp [masked] at more
  obtain ⟨after, left, linear', capacity, read⟩ :=
    readBody_block done block later parser linear (by simpa using holds) (.inr rfl)
  refine ⟨_, after, read.trans (if_pos some_), left, linear', capacity, ?_, rfl⟩
  rw [← List.length_append]
  exact .body (done ++ block) later (by rw [split, List.append_assoc]) some_ header rfl

/-- A part of the frame that ends inside it. -/
theorem read_part {state : WebState} {part rest : Bytes}
    (inside : Inside f state w (part ++ rest)) (more : rest ≠ []) (linear : Linear b)
    (holds : contents b = part) :
    ∃ state' w' after, w.read state b = (.nothing, state', w', after) ∧
      contents after = [] ∧ Linear after ∧
      after.capacity = b.capacity ∧ Inside f state' w' rest ∧ w'.webMessage = w.webMessage := by
  generalize whole : part ++ rest = bytes at inside
  cases inside with
  | header read left split more' parser =>
    have scanned := rest_of_header split more' parser
    obtain ⟨mid, some_, rfl, rfl⟩ | ⟨mid, rfl, cut⟩ := cut_cases whole
    · obtain ⟨h, after, left', linear', capacity, prefix_, read'⟩ :=
        readHeader_part linear holds scanned some_
      refine ⟨.header, _, after, read', left', linear', capacity, ?_, rfl⟩
      refine .header (read ++ part) mid (by rw [split, List.append_assoc]) some_ ?_
      rw [Scanner.scan_append, parser]
      exact prefix_
    · obtain ⟨after, left', linear', capacity, read'⟩ := readHeader_whole linear holds scanned
      obtain ⟨w', last, read, empty, linear'', capacity', inside', same⟩ :=
        readBody_part (f := f) (w := { w with
          wmHeaderParser := f.parsed, wmBodyParser := bodyAt f.key [] f.body })
          rfl rfl rfl cut more linear' left'
      exact ⟨.body, w', last, read'.trans read, empty, linear'', capacity'.trans capacity, inside', same⟩
  | body done rest' split more' header parser =>
    obtain ⟨w', last, read, empty, linear', capacity, inside', same⟩ :=
      readBody_part header parser split whole.symm more linear holds
    exact ⟨.body, w', last, read, empty, linear', capacity, inside', same⟩

/-- The rest of the frame, and perhaps more. -/
theorem read_whole {state : WebState} {rest extra : Bytes}
    (inside : Inside f state w rest) (linear : Linear b) (holds : contents b = rest ++ extra) :
    ∃ after, contents after = extra ∧ Linear after ∧ after.capacity = b.capacity ∧
      w.read state b = ((f.complete w).onChunk.1, (f.complete w).onChunk.2.1,
        (f.complete w).onChunk.2.2, after) := by
  cases inside with
  | header read left split more parser =>
    obtain ⟨mid, left', linear', capacity, read'⟩ := readHeader_whole linear
      (by rw [holds, List.append_assoc]) (rest_of_header split more parser)
    obtain ⟨after, left'', linear'', capacity', read''⟩ := readBody_block [] f.body [] (f := f)
      (w := { w with wmHeaderParser := f.parsed, wmBodyParser := bodyAt f.key [] f.body }) (by simp)
      linear' left' (.inl rfl)
    exact ⟨after, left'', linear'', capacity'.trans capacity, read'.trans read''⟩
  | body done rest split more header parser =>
    obtain ⟨after, left, linear', capacity, read⟩ :=
      readBody_block done rest [] (by simpa using parser) linear holds (.inl rfl)
    refine ⟨after, left, linear', capacity, read.trans ?_⟩
    have same : { w with wmBodyParser := bodyAt f.key (done ++ rest) [] } = f.complete w := by
      simp [Frame.complete, split, ← header]
    simp [same]

end Reading
end Crablib.FrameProofs
