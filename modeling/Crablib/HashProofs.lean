import Crablib.Crypto.Sha1
import Crablib.Crypto.Md5
import Crablib.Library.Blocks
import Mathlib.Order.Bounds.Defs

/-! What `sha1` and `md5` hash. However a text is divided among calls of `add`, the
state has taken in its whole blocks and the buffer begins with what is left over, so
`finalize` puts out the fold over the blocks of the padded text. -/
namespace Crablib
open Blocks

section Copies
variable {memory data : Bytes} {index : Nat}

private theorem memcpy_length (fits : index + data.length ≤ memory.length) :
    (memcpy memory index data).length = memory.length := by
  simp only [memcpy, List.length_append, List.length_take, List.length_drop]
  omega

private theorem memcpy_take (fits : index + data.length ≤ memory.length) :
    (memcpy memory index data).take (index + data.length) = memory.take index ++ data := by
  have front : (memory.take index ++ data).length = index + data.length := by
    rw [List.length_append, List.length_take, Nat.min_eq_left (by omega)]
  rw [memcpy, ← front, List.take_left]

/-- A copy up to the end leaves what stands before it. -/
private theorem memcpy_end (fits : index + data.length = memory.length) :
    memcpy memory index data = memory.take index ++ data := by
  rw [memcpy, fits, List.drop_length, List.append_nil]

/-- A copy to the front is found there. -/
private theorem memcpy_front (fits : data.length ≤ memory.length) :
    (memcpy memory 0 data).take data.length = data := by
  have kept := @memcpy_take memory data 0 (by omega)
  rwa [Nat.zero_add, List.take_zero, List.nil_append] at kept

/-- The length fills a memory of 64 bytes behind what waits in it. -/
private theorem memcpy_length_words {high low : Bytes} (wide : memory.length = 64)
    (first : high.length = 4) (second : low.length = 4) :
    memcpy (memcpy memory 56 high) 60 low = memory.take 56 ++ (high ++ low) := by
  rw [memcpy_end (by rw [memcpy_length (by omega)]; omega), show 60 = 56 + high.length by omega,
    memcpy_take (by omega), List.append_assoc]

end Copies

namespace BlockHash

/-- The least number of zero bytes that let the length end a block. -/
def zeros (length : Nat) : Nat := (119 - length % 64) % 64

theorem zeros_fill (length : Nat) : (length + 1 + zeros length + 8) % 64 = 0 := by
  unfold zeros
  omega

theorem zeros_least {length count : Nat} (fill : (length + 1 + count + 8) % 64 = 0) :
    zeros length ≤ count := by
  unfold zeros
  omega

/-- A text with its padding, before the bytes of its length. -/
def closed (text : Bytes) : Bytes := text ++ 0x80 :: List.replicate (zeros text.length) 0

def bigEndian (bits : Nat) : Bytes := (List.range 8).map fun i => UInt8.ofNat (bits / 256 ^ (7 - i))

def littleEndian (bits : Nat) : Bytes := (List.range 8).map fun i => UInt8.ofNat (bits / 256 ^ i)

section Runs
variable {State : Type} {hash : BlockHash State}

/-- The state behind the whole blocks of a text. -/
def folded (hash : BlockHash State) (text : Bytes) : State :=
  (cut 64 text).foldl hash.processBlock hash.initial

/-- An object that has taken in a text. -/
structure Holds (hash : BlockHash State) (h : Hasher State) (text : Bytes) : Prop where
  size : h.size = text.length % 2 ^ 64
  state : h.state = hash.folded text
  wide : h.buffer.length = 64
  waiting : h.buffer.take (text.length % 64) = leftOver 64 text

theorem new_holds (hash : BlockHash State) {memory : Bytes} (wide : memory.length = 64) :
    hash.Holds (hash.new memory) [] :=
  ⟨rfl, rfl, wide, rfl⟩

private theorem processBlocks_cut {passes : Nat} {state : State} {data : Bytes}
    (enough : data.length ≤ passes) :
    hash.processBlocks passes state data = ((cut 64 data).foldl hash.processBlock state,
      leftOver 64 data) := by
  induction passes generalizing state data with
  | zero =>
    obtain rfl := List.length_eq_zero_iff.mp (Nat.le_zero.mp enough)
    rfl
  | succ passes ih =>
    rw [processBlocks]
    split
    · rename_i more
      have full : (data.take 64).length = 64 := by rw [List.length_take, Nat.min_eq_left more]
      rw [ih (by rw [List.length_drop]; omega)]
      conv => rhs; rw [← List.take_append_drop 64 data, cut_block _ (by omega) full,
        leftOver_block _ (by omega) full]
      rw [List.foldl_cons]
    · rename_i short
      rw [cut_short (Nat.lt_of_not_le short), leftOver_short (Nat.lt_of_not_le short), List.foldl_nil]

private theorem folded_append (text data : Bytes) :
    hash.folded (text ++ data) = (cut 64 (leftOver 64 text ++ data)).foldl hash.processBlock
      (hash.folded text) := by
  rw [folded, cut_append _ _ (by omega), List.foldl_append, folded]

/-- What one call of `add` does to an object: the bytes that wait are put before
the new ones, whole blocks are taken in and the rest waits. -/
private theorem add_spec {h : Hasher State} (wide : h.buffer.length = 64) (data : Bytes) :
    (hash.add h data).size = (h.size + data.length) % 2 ^ 64 ∧
      (hash.add h data).state = (cut 64 (h.buffer.take (h.size % 64) ++ data)).foldl
      hash.processBlock h.state ∧ (hash.add h data).buffer.length = 64 ∧
      (hash.add h data).buffer.take ((h.size % 64 + data.length) % 64) =
        leftOver 64 (h.buffer.take (h.size % 64) ++ data) := by
  have waits : (h.buffer.take (h.size % 64)).length = h.size % 64 := by
    rw [List.length_take]
    omega
  simp only [add]
  split
  · rename_i short
    have below : (h.buffer.take (h.size % 64) ++ data).length < 64 := by
      rw [List.length_append]
      omega
    refine ⟨rfl, ?_, ?_, ?_⟩
    · rw [cut_short below, List.foldl_nil]
    · exact (memcpy_length (by omega)).trans wide
    · rw [leftOver_short below, Nat.mod_eq_of_lt (by omega)]
      exact memcpy_take (by omega)
  · rename_i long
    have part : (data.take (64 - h.size % 64)).length = 64 - h.size % 64 := by
      rw [List.length_take]
      omega
    have dropped : (data.drop (64 - h.size % 64)).length = data.length - (64 - h.size % 64) :=
      List.length_drop ..
    have enough : 64 ≤ (h.buffer.take (h.size % 64)).length + data.length := by omega
    have cuts := cut_fill (Nat.zero_lt_succ 63) enough (by omega)
    have leaves := leftOver_fill (Nat.zero_lt_succ 63) enough (by omega)
    rw [waits] at cuts leaves
    have full : (h.buffer.take (h.size % 64) ++ data.take (64 - h.size % 64)).length = 64 := by
      rw [List.length_append]
      omega
    have rest :
        (leftOver 64 (data.drop (64 - h.size % 64))).length =
        (data.drop (64 - h.size % 64)).length % 64 :=
      leftOver_length _
    rw [memcpy_end (by omega), processBlocks_cut (by omega), cuts, leaves, List.foldl_cons]
    have fits : (leftOver 64 (data.drop (64 - h.size % 64))).length ≤
        (h.buffer.take (h.size % 64) ++ data.take (64 - h.size % 64)).length := by omega
    have ends : 0 + (leftOver 64 (data.drop (64 - h.size % 64))).length ≤
        (h.buffer.take (h.size % 64) ++ data.take (64 - h.size % 64)).length := by omega
    refine ⟨rfl, rfl, (memcpy_length ends).trans full, ?_⟩
    rw [show (h.size % 64 + data.length) % 64 =
      (leftOver 64 (data.drop (64 - h.size % 64))).length by omega]
    exact memcpy_front fits

/-- One call of `add`, whatever was taken in before. -/
theorem add_holds {h : Hasher State} {text : Bytes} (holds : hash.Holds h text) (data : Bytes) :
    hash.Holds (hash.add h data) (text ++ data) := by
  have index : h.size % 64 = text.length % 64 := by rw [holds.size]; omega
  obtain ⟨size, state, wide, waiting⟩ := hash.add_spec holds.wide data
  rw [index, holds.waiting] at state waiting
  refine ⟨?_, ?_, wide, ?_⟩
  · rw [size, holds.size, List.length_append]
    omega
  · rw [state, folded_append, holds.state]
  · rw [leftOver_append _ _ (by omega), ← waiting, List.length_append]
    congr 1
    omega

/-- Any number of calls. -/
theorem adds_hold {h : Hasher State} {text : Bytes} (holds : hash.Holds h text) (texts : List Bytes) :
    hash.Holds (texts.foldl hash.add h) (text ++ texts.flatten) := by
  induction texts generalizing h text with
  | nil => rwa [List.flatten_nil, List.append_nil]
  | cons data texts ih =>
    rw [List.flatten_cons, ← List.append_assoc]
    exact ih (add_holds holds data)

private theorem putLength_widths (hash : BlockHash State) (bits : Nat) :
    (hash.putLength bits).1.length = 4 ∧ (hash.putLength bits).2.length = 4 := by
  unfold putLength
  dsimp only
  split
  · exact ⟨hash.putWord_length _, hash.putWord_length _⟩
  · exact ⟨hash.putWord_length _, hash.putWord_length _⟩

/-- The padding that `finalize` chooses is the least one. -/
private theorem padding_zeros {offset length : Nat} (rest : offset = length % 64) :
    padding.take (if offset < 56 then 56 - offset else (56 + 64) - offset) =
      0x80 :: List.replicate (zeros length) 0 := by
  have count : (if offset < 56 then 56 - offset else (56 + 64) - offset) = zeros length + 1 := by
    unfold zeros
    split <;> omega
  have enough : zeros length ≤ 63 := by
    unfold zeros
    omega
  rw [count, padding, List.take_succ_cons, List.take_replicate, Nat.min_eq_left enough]

theorem finalize_holds {h : Hasher State} {text : Bytes} (holds : hash.Holds h text) :
    hash.finalize h = hash.putState (hash.folded
      (closed text ++ ((hash.putLength (text.length * 8 % 2 ^ 64)).1 ++
        (hash.putLength (text.length * 8 % 2 ^ 64)).2))) := by
  have bits : h.size * 8 % 2 ^ 64 = text.length * 8 % 2 ^ 64 := by rw [holds.size]; omega
  have offset : h.size % 64 = text.length % 64 := by rw [holds.size]; omega
  have padded : hash.Holds _ (closed text) :=
    add_holds holds (0x80 :: List.replicate (zeros text.length) 0)
  obtain ⟨first, second⟩ := hash.putLength_widths (text.length * 8 % 2 ^ 64)
  have index : (closed text).length % 64 = 56 := by
    have fill := zeros_fill text.length
    simp only [closed, List.length_append, List.length_cons, List.length_replicate]
    omega
  have waiting := padded.waiting
  rw [index] at waiting
  have wide := padded.wide
  simp only [finalize, bits, padding_zeros offset]
  generalize hash.add h _ = last at padded waiting wide ⊢
  generalize hash.putLength _ = length at first second ⊢
  have full : (leftOver 64 (closed text) ++ (length.1 ++ length.2)).length = 64 := by
    simp only [List.length_append, leftOver_length]
    omega
  have single := cut_block [] (Nat.zero_lt_succ 63) full
  rw [List.append_nil] at single
  rw [memcpy_length_words wide first second, waiting, folded_append, single,
    cut_short (Nat.zero_lt_succ 63), List.foldl_cons, List.foldl_nil, padded.state]

end Runs

/-- The blocks that a hash takes in for a text: the text, its padding and the
number of its bits. -/
def blocks (lengthBytes : Nat → Bytes) (text : Bytes) : List Bytes :=
  cut 64 (closed text ++ lengthBytes (text.length * 8))

/-- Every way to hand in a text gives the words of the fold over its blocks. -/
theorem digest_eq {State : Type} {hash : BlockHash State} {lengthBytes : Nat → Bytes}
    {memory : Bytes} {texts : List Bytes} (wide : memory.length = 64)
    (order : ∀ bits, (hash.putLength bits).1 ++ (hash.putLength bits).2 = lengthBytes bits)
    (bounded : texts.flatten.length < 2 ^ 61) :
    hash.finalize (texts.foldl hash.add (hash.new memory)) =
      hash.putState ((blocks lengthBytes texts.flatten).foldl hash.processBlock hash.initial) := by
  have holds := adds_hold (hash.new_holds wide) texts
  rw [List.nil_append] at holds
  rw [finalize_holds holds, Nat.mod_eq_of_lt (by omega), order]
  rfl

end BlockHash

open BlockHash

theorem sha1_bytes (n : Nat) : sha1PutWord (UInt32.ofNat n) =
    [UInt8.ofNat (n / 16777216), UInt8.ofNat (n / 65536), UInt8.ofNat (n / 256), UInt8.ofNat n] := by
  simp only [sha1PutWord, List.cons.injEq, and_true, ← UInt8.toNat_inj, UInt32.toNat_toUInt8,
    UInt32.toNat_shiftRight, UInt8.toNat_ofNat', UInt32.toNat_ofNat', Nat.shiftRight_eq_div_pow]
  refine ⟨?_, ?_, ?_, ?_⟩ <;> simp <;> omega

theorem md5_bytes (n : Nat) : md5PutWord (UInt32.ofNat n) =
    [UInt8.ofNat n, UInt8.ofNat (n / 256), UInt8.ofNat (n / 65536), UInt8.ofNat (n / 16777216)] := by
  have same := congrArg List.reverse (sha1_bytes n)
  exact same

theorem sha1_order (processBlock : Sha1State → Bytes → Sha1State) (bits : Nat) :
    ((sha1Over processBlock).putLength bits).1 ++ ((sha1Over processBlock).putLength bits).2 =
      bigEndian bits := by
  show sha1PutWord _ ++ sha1PutWord _ = [_, _, _, _, _, _, _, _]
  rw [sha1_bytes, sha1_bytes]
  simp [Nat.div_div_eq_div_mul]

theorem md5_order (processBlock : Md5State → Bytes → Md5State) (bits : Nat) :
    ((md5Over processBlock).putLength bits).1 ++ ((md5Over processBlock).putLength bits).2 =
      littleEndian bits := by
  show md5PutWord _ ++ md5PutWord _ = [_, _, _, _, _, _, _, _]
  rw [md5_bytes, md5_bytes]
  simp [Nat.div_div_eq_div_mul]

/-- The digests of `sha1` and `md5` depend on the concatenation of what was added
alone: they are the words of the state that has taken in its padded blocks, and
the padding is the least possible. -/
theorem incremental_hashing (sha1Block : Sha1State → Bytes → Sha1State)
    (md5Block : Md5State → Bytes → Md5State) {memory : Bytes} {texts : List Bytes}
    (uninitialized : memory.length = 64) (bounded : texts.flatten.length < 2 ^ 61) :
    (sha1Over sha1Block).finalize
      (texts.foldl (sha1Over sha1Block).add ((sha1Over sha1Block).new memory)) =
        (sha1Over sha1Block).putState ((blocks bigEndian texts.flatten).foldl sha1Block {}) ∧
      (md5Over md5Block).finalize (texts.foldl (md5Over md5Block).add ((md5Over md5Block).new memory)) =
        (md5Over md5Block).putState ((blocks littleEndian texts.flatten).foldl md5Block {}) ∧
      IsLeast (fun count => (texts.flatten.length + 1 + count + 8) % 64 = 0)
        (zeros texts.flatten.length) := by
  refine ⟨digest_eq uninitialized (sha1_order sha1Block) bounded,
    digest_eq uninitialized (md5_order md5Block) bounded, ?_⟩
  exact ⟨zeros_fill _, fun count fill => zeros_least fill⟩

theorem incremental_hashing_parts :
    (sha1Over Sha1.processBlock).finalize ([str "a", [], str "bc"].foldl (sha1Over Sha1.processBlock).add
        ((sha1Over Sha1.processBlock).new (List.replicate 64 0xcc))) =
      (sha1Over Sha1.processBlock).putState ((blocks bigEndian (str "abc")).foldl Sha1.processBlock {}) ∧
    (md5Over Md5.processBlock).finalize ([str "a", [], str "bc"].foldl (md5Over Md5.processBlock).add
        ((md5Over Md5.processBlock).new (List.replicate 64 0xcc))) =
      (md5Over Md5.processBlock).putState
      ((blocks littleEndian (str "abc")).foldl Md5.processBlock {}) :=
  have memory : (List.replicate 64 (0xcc : UInt8)).length = 64 := List.length_replicate
  have texts : [str "a", [], str "bc"].flatten.length < 2 ^ 61 := by decide
  have hashed := incremental_hashing Sha1.processBlock Md5.processBlock memory texts
  ⟨hashed.1, hashed.2.1⟩

example : md5.finalize (md5.add (md5.new (List.replicate 64 0)) (str "abc")) =
    [0x90, 0x01, 0x50, 0x98, 0x3c, 0xd2, 0x4f, 0xb0, 0xd6, 0x96, 0x3f, 0x7d, 0x28,
      0xe1, 0x7f, 0x72] := by
  decide +kernel

end Crablib
