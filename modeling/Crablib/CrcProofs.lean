import Crablib.Crypto.Crc32
import Crablib.Library.Crc

/-! The two tables are those of their polynomials, so the loops over bytes compute the
check that is defined bit by bit. -/
namespace Crablib
open Crc

/-- The bits of some data, each byte from its low end. -/
def bitsOf (data : Bytes) : List Bool := data.flatMap fun byte => lowBits 8 byte.toBitVec

/-- The reflected check with initial and final complement. -/
def reflected (poly : BitVec 32) (crc : UInt32) (data : Bytes) : UInt32 :=
  UInt32.ofBitVec (feeds poly (crc ^^^ 0xFFFFFFFF).toBitVec (bitsOf data)) ^^^ 0xFFFFFFFF

/-- Each entry is what its index becomes in eight steps. -/
def IsTable (crcTable : List UInt32) (poly : BitVec 32) : Prop :=
  ∀ i : Fin 256, (crcTable.getD i 0).toBitVec = entry poly 8 (BitVec.ofNat 32 i)

theorem crc32_table : IsTable crc32Table 0xEDB88320 := by
  unfold IsTable
  decide +kernel

theorem crc32c_table : IsTable crc32cTable 0x82F63B78 := by
  unfold IsTable
  decide +kernel

variable {crcTable : List UInt32} {poly : BitVec 32}

/-- The mask of the index leaves the bits that come out next. -/
private theorem lowBits_mask (v : BitVec 32) : lowBits 8 (v &&& 0xFF) = lowBits 8 v := by
  have mask : ∀ i : Fin 8, (0xFF : BitVec 32).getLsbD i = true := by decide
  apply List.map_congr_left
  intro i inside
  rw [BitVec.getLsbD_and, mask ⟨i, List.mem_range.mp inside⟩, Bool.and_true]

private theorem lowBits_wide (byte : UInt8) :
    lowBits 8 byte.toUInt32.toBitVec = lowBits 8 byte.toBitVec := by
  apply List.map_congr_left
  intro i inside
  have narrow : i < 8 := List.mem_range.mp inside
  rw [UInt8.toBitVec_toUInt32, BitVec.getLsbD_setWidth]
  simp only [show i < 32 by omega, decide_true, Bool.true_and]

private theorem shifted_out {v : BitVec 32} (small : v.toNat < 256) : v >>> 8 = 0#32 := by
  apply BitVec.eq_of_toNat_eq
  rw [BitVec.toNat_ushiftRight, Nat.shiftRight_eq_div_pow]
  exact Nat.div_eq_of_lt small

/-- One look at the table takes in the eight bits of a byte. -/
private theorem table_step (table : IsTable crcTable poly) (crc : UInt32) (byte : UInt8) :
    (crcStep crcTable crc byte).toBitVec = feeds poly crc.toBitVec (lowBits 8 byte.toBitVec) := by
  have index : ((crc ^^^ byte.toUInt32) &&& 0xFF).toNat < 256 := by
    rw [UInt32.toNat_and]
    exact Nat.lt_of_le_of_lt Nat.and_le_right (by decide)
  have looked := table ⟨_, index⟩
  have short : byte.toUInt32.toBitVec >>> 8 = 0#32 := shifted_out byte.toNat_lt
  have small : ((crc.toBitVec ^^^ byte.toUInt32.toBitVec) &&& 0xFF) >>> 8 = 0#32 := shifted_out index
  have step := feeds_entry poly 8 crc.toBitVec byte.toUInt32.toBitVec short (lowBits_mask _) small
  rw [lowBits_wide] at step
  rw [step, crcStep, UInt32.toBitVec_xor, looked]
  congr 2
  exact BitVec.ofNat_toNat ..

private theorem table_loop (table : IsTable crcTable poly) (crc : UInt32) (data : Bytes) :
    (data.foldl (crcStep crcTable) crc).toBitVec = feeds poly crc.toBitVec (bitsOf data) := by
  induction data generalizing crc with
  | nil => rfl
  | cons byte data ih =>
    have bits : bitsOf (byte :: data) = lowBits 8 byte.toBitVec ++ bitsOf data := List.flatMap_cons ..
    rw [List.foldl_cons, ih, table_step table, bits, feeds_append]

theorem crcWith_eq (table : IsTable crcTable poly) (crc : UInt32) (data : Bytes) :
    crcWith crcTable crc data = reflected poly crc data := by
  have loop := table_loop table (crc ^^^ 0xFFFFFFFF) data
  rw [reflected, ← loop]
  rfl

/-- A check goes on from the one of what came before. -/
theorem crcWith_append (crc : UInt32) (a b : Bytes) :
    crcWith crcTable (crcWith crcTable crc a) b = crcWith crcTable crc (a ++ b) := by
  simp only [crcWith, List.foldl_append]
  rw [UInt32.xor_assoc, UInt32.xor_self, UInt32.xor_zero]

/-- The checks looked up byte by byte are those defined bit by bit, and they go on
from one piece of the data to the next. -/
theorem crc_bitwise (crc : UInt32) (data a b : Bytes) :
    crc32 crc data = reflected 0xEDB88320 crc data ∧ crc32c crc data = reflected 0x82F63B78 crc data ∧
      crc32 (crc32 crc a) b = crc32 crc (a ++ b) ∧ crc32c (crc32c crc a) b = crc32c crc (a ++ b) :=
  ⟨crcWith_eq crc32_table crc data, crcWith_eq crc32c_table crc data, crcWith_append crc a b,
    crcWith_append crc a b⟩

end Crablib
