import Mathlib.Algebra.Group.Nat.Defs

/-! Memory as bytes at addresses, and words in it in either byte order. A word that
is combined with another one by exclusive or is combined byte by byte, whichever
order its bytes are in. -/
namespace Crablib.Memory

abbrev Cells := Nat → UInt8

/-- The bytes from an address on. -/
def readBytes (mem : Cells) (addr : Nat) : Nat → List UInt8
  | 0 => []
  | count + 1 => mem addr :: readBytes mem (addr + 1) count

/-- The memory with bytes put at an address. -/
def writeBytes (mem : Cells) (addr : Nat) (bytes : List UInt8) : Cells := fun i =>
  if addr ≤ i ∧ i < addr + bytes.length then bytes.getD (i - addr) 0 else mem i

section Access
variable (mem : Cells) (addr : Nat)

@[simp] theorem readBytes_length (count : Nat) : (readBytes mem addr count).length = count := by
  induction count generalizing addr with
  | zero => rfl
  | succ count ih => simp [readBytes, ih]

@[simp] theorem writeBytes_nil : writeBytes mem addr [] = mem := by
  funext i
  simp only [writeBytes, List.length_nil, Nat.add_zero]
  split
  · omega
  · rfl

theorem writeBytes_append (first second : List UInt8) :
    writeBytes mem addr (first ++ second) = writeBytes (writeBytes mem addr first)
      (addr + first.length) second := by
  funext i
  simp only [writeBytes, List.length_append]
  by_cases front : i < addr + first.length
  · by_cases before : addr ≤ i
    · have inside : i - addr < first.length := by omega
      have whole : addr ≤ i ∧ i < addr + (first.length + second.length) := by omega
      have behind : ¬(addr + first.length ≤ i ∧ i < addr + first.length + second.length) := by omega
      simp [whole, front, behind, List.getElem?_append_left inside]
    · have outside : ¬(addr ≤ i ∧ i < addr + (first.length + second.length)) := by omega
      have behind : ¬(addr + first.length ≤ i ∧ i < addr + first.length + second.length) := by omega
      simp [before, behind]
  · have past : ¬(addr ≤ i ∧ i < addr + first.length) := by omega
    simp only [past, ↓reduceIte]
    by_cases within : i < addr + first.length + second.length
    · have whole : addr ≤ i ∧ i < addr + (first.length + second.length) := by omega
      have behind : addr + first.length ≤ i ∧ i < addr + first.length + second.length := by omega
      have inside : first.length ≤ i - addr := by omega
      simp only [whole, behind, and_self, ↓reduceIte, List.getD_eq_getElem?_getD,
        List.getElem?_append_right inside]
      rw [Nat.sub_add_eq]
    · have outside : ¬(addr ≤ i ∧ i < addr + (first.length + second.length)) := by omega
      have behind : ¬(addr + first.length ≤ i ∧ i < addr + first.length + second.length) := by omega
      simp [outside, behind]

/-- Bytes put in front of what is read do not show. -/
theorem readBytes_behind (bytes : List UInt8) (start : Nat)
    (behind : addr + bytes.length ≤ start) (count : Nat) :
    readBytes (writeBytes mem addr bytes) start count = readBytes mem start count := by
  induction count generalizing start with
  | zero => rfl
  | succ count ih =>
    have outside : ¬(addr ≤ start ∧ start < addr + bytes.length) := by omega
    rw [readBytes, readBytes, ih (start + 1) (by omega)]
    simp only [writeBytes, outside, ↓reduceIte]

theorem readBytes_writeBytes (bytes : List UInt8) :
    readBytes (writeBytes mem addr bytes) addr bytes.length = bytes := by
  induction bytes generalizing mem addr with
  | nil => rfl
  | cons c bytes ih =>
    have split := writeBytes_append mem addr [c] bytes
    rw [List.singleton_append] at split
    have first : writeBytes mem addr (c :: bytes) addr = c := by
      simp [writeBytes]
    rw [List.length_cons, readBytes, first, split, List.length_singleton, ih]

/-- What is put in the place of as many bytes replaces them. -/
theorem writeBytes_writeBytes (first second : List UInt8) (same : second.length = first.length) :
    writeBytes (writeBytes mem addr first) addr second = writeBytes mem addr second := by
  funext i
  simp only [writeBytes, same]
  split <;> rfl

theorem readBytes_add (first second : Nat) :
    readBytes mem addr (first + second) = readBytes mem addr first ++
      readBytes mem (addr + first) second := by
  induction first generalizing addr with
  | zero => simp [readBytes]
  | succ first ih =>
    rw [Nat.add_right_comm, readBytes, readBytes, ih, List.cons_append]
    congr 3
    omega

theorem readBytes_getD {count i : Nat} (inside : i < count) :
    (readBytes mem addr count).getD i 0 = mem (addr + i) := by
  induction count generalizing addr i with
  | zero => omega
  | succ count ih =>
    cases i with
    | zero => rfl
    | succ i =>
      rw [readBytes, List.getD_cons_succ, ih _ (by omega)]
      congr 1
      omega

end Access

section Words

/-- The order of the bytes of a word in memory: the least or the most significant
one first. -/
inductive ByteOrder where
  | little
  | big
  deriving DecidableEq, Repr

/-- The number that bytes stand for, the least significant one first. -/
def littleValue : List UInt8 → Nat
  | [] => 0
  | c :: bytes => littleValue bytes * 256 + c.toNat

/-- The last bytes of a number, the least significant one first. -/
def littleBytes : Nat → Nat → List UInt8
  | 0, _ => []
  | count + 1, value => UInt8.ofNat value :: littleBytes count (value / 256)

def ByteOrder.value : ByteOrder → List UInt8 → Nat
  | .little, bytes => littleValue bytes
  | .big, bytes => littleValue bytes.reverse

def ByteOrder.bytes : ByteOrder → Nat → Nat → List UInt8
  | .little, count, value => littleBytes count value
  | .big, count, value => (littleBytes count value).reverse

@[simp] theorem littleBytes_length (count value : Nat) : (littleBytes count value).length = count := by
  induction count generalizing value with
  | zero => rfl
  | succ count ih => simp [littleBytes, ih]

theorem littleBytes_value (bytes : List UInt8) :
    littleBytes bytes.length (littleValue bytes) = bytes := by
  induction bytes with
  | nil => rfl
  | cons c bytes ih =>
    have small := c.toNat_lt
    have low : UInt8.ofNat (littleValue bytes * 256 + c.toNat) = c := by
      apply UInt8.toNat.inj
      rw [UInt8.toNat_ofNat']
      omega
    have high : (littleValue bytes * 256 + c.toNat) / 256 = littleValue bytes := by omega
    rw [List.length_cons, littleValue, littleBytes, low, high, ih]

theorem littleValue_lt (bytes : List UInt8) : littleValue bytes < 256 ^ bytes.length := by
  induction bytes with
  | nil => decide
  | cons c bytes ih =>
    have small := c.toNat_lt
    rw [littleValue, List.length_cons, Nat.pow_succ]
    omega

theorem littleValue_append (low high : List UInt8) :
    littleValue (low ++ high) = littleValue high * 256 ^ low.length + littleValue low := by
  induction low with
  | nil => simp [littleValue]
  | cons c low ih =>
    rw [List.cons_append, littleValue, ih, littleValue, List.length_cons, Nat.pow_succ,
      Nat.add_mul, Nat.mul_assoc, Nat.add_assoc]

theorem littleBytes_xor (count a b : Nat) :
    littleBytes count (a ^^^ b) = List.zipWith (· ^^^ ·) (littleBytes count a)
      (littleBytes count b) := by
  induction count generalizing a b with
  | zero => rfl
  | succ count ih =>
    have low : UInt8.ofNat (a ^^^ b) = UInt8.ofNat a ^^^ UInt8.ofNat b := by
      apply UInt8.toNat.inj
      rw [UInt8.toNat_xor, UInt8.toNat_ofNat', UInt8.toNat_ofNat', UInt8.toNat_ofNat']
      exact Nat.xor_mod_two_pow
    have high : (a ^^^ b) / 256 = a / 256 ^^^ b / 256 := Nat.xor_div_two_pow (n := 8)
    rw [littleBytes, littleBytes, littleBytes, List.zipWith_cons_cons, low, high, ih]

theorem bytes_value (order : ByteOrder) (bytes : List UInt8) :
    order.bytes bytes.length (order.value bytes) = bytes := by
  cases order with
  | little => exact littleBytes_value bytes
  | big =>
    have back := littleBytes_value bytes.reverse
    rw [List.length_reverse] at back
    rw [ByteOrder.bytes, ByteOrder.value, back, List.reverse_reverse]

theorem value_lt (order : ByteOrder) (bytes : List UInt8) : order.value bytes < 256 ^ bytes.length := by
  cases order with
  | little => exact littleValue_lt bytes
  | big =>
    have bound := littleValue_lt bytes.reverse
    rwa [List.length_reverse] at bound

/-- A word of two equal halves does not depend on the order of the halves. -/
theorem value_twice (order : ByteOrder) (bytes : List UInt8) :
    order.value (bytes ++ bytes) = order.value bytes * 256 ^ bytes.length + order.value bytes := by
  cases order with
  | little => exact littleValue_append bytes bytes
  | big =>
    rw [ByteOrder.value, List.reverse_append, littleValue_append, List.length_reverse]
    rfl

theorem bytes_xor (order : ByteOrder) (count a b : Nat) :
    order.bytes count (a ^^^ b) = List.zipWith (· ^^^ ·) (order.bytes count a)
      (order.bytes count b) := by
  cases order with
  | little => exact littleBytes_xor count a b
  | big =>
    simp only [ByteOrder.bytes, littleBytes_xor]
    rw [List.reverse_zipWith (by simp)]

/-- A word of `count` bytes in memory. -/
def load (order : ByteOrder) (mem : Cells) (addr count : Nat) : Nat :=
  order.value (readBytes mem addr count)

def store (order : ByteOrder) (mem : Cells) (addr count value : Nat) : Cells :=
  writeBytes mem addr (order.bytes count value)

/-- A word combined in place is combined byte by byte. -/
theorem store_xor (order : ByteOrder) (mem : Cells) (addr : Nat) (mask : List UInt8) :
    store order mem addr mask.length (load order mem addr mask.length ^^^ order.value mask) =
      writeBytes mem addr (List.zipWith (· ^^^ ·) (readBytes mem addr mask.length) mask) := by
  have old := bytes_value order (readBytes mem addr mask.length)
  rw [readBytes_length] at old
  rw [store, bytes_xor, load, old, bytes_value]

end Words

end Crablib.Memory
