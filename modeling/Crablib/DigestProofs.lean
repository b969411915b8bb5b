import Crablib.Crypto.InPlace
import Crablib.HashProofs
import Crablib.Http.Types
import Crablib.Library.Digests
import Crablib.Library.Sines

/-! `sha1` is SHA-1 and `md5` is MD5. The variables that change their names and the
sixteen words that are overwritten go through the same values as the words of the
standards, the schedule of eighty words and the digits of the sines. -/
namespace Crablib.DigestProofs
open Digests

section Words

private theorem shifted_rotl {x n : UInt32} (turns : 0 < n.toNat ∧ n.toNat < 32) :
    (x <<< n) ||| (x >>> (32 - n)) = rotl n.toNat x := by
  have less : n ≤ 32 := UInt32.le_iff_toNat_le.mpr (Nat.le_of_lt turns.2)
  have left : (32 - n).toNat = 32 - n.toNat := UInt32.toNat_sub_of_le 32 n less
  apply UInt32.toBitVec_inj.mp
  rw [rotl, BitVec.rotateLeft_def, Nat.mod_eq_of_lt turns.2, UInt32.toBitVec_or,
    UInt32.toBitVec_shiftLeft, UInt32.toBitVec_shiftRight]
  have first : (n.toBitVec % 32).toNat = n.toNat := by
    rw [BitVec.toNat_umod]
    exact Nat.mod_eq_of_lt turns.2
  have second : ((32 - n).toBitVec % 32).toNat = 32 - n.toNat := by
    rw [BitVec.toNat_umod]
    show (32 - n).toNat % 32 = _
    rw [left]
    exact Nat.mod_eq_of_lt (by omega)
  show x.toBitVec <<< (n.toBitVec % 32).toNat ||| x.toBitVec >>> ((32 - n).toBitVec % 32).toNat = _
  rw [first, second]

theorem sha1Rol32_rotl {x n : UInt32} (turns : 0 < n.toNat ∧ n.toNat < 32) :
    sha1Rol32 x n = rotl n.toNat x := shifted_rotl turns

theorem rotateLeft_rotl {x n : UInt32} (turns : 0 < n.toNat ∧ n.toNat < 32) :
    Md5.rotateLeft x n = rotl n.toNat x := shifted_rotl turns

private theorem bits_eq {x y : UInt32}
    (same : ∀ i < 32, x.toBitVec.getLsbD i = y.toBitVec.getLsbD i) : x = y := by
  apply UInt32.toBitVec_inj.mp
  exact BitVec.eq_of_getLsbD_eq fun i => same i

private theorem choose_ch (x y z : UInt32) : ((x &&& (y ^^^ z)) ^^^ z) = Digests.Sha1.ch x y z := by
  refine bits_eq fun i small => ?_
  simp only [Digests.Sha1.ch, UInt32.toBitVec_xor, UInt32.toBitVec_and, UInt32.toBitVec_not,
    BitVec.getLsbD_xor, BitVec.getLsbD_and, BitVec.getLsbD_not, small, decide_true, Bool.true_and]
  cases x.toBitVec.getLsbD i <;> simp

private theorem majority_maj (x y z : UInt32) :
    (((x ||| y) &&& z) ||| (x &&& y)) = Digests.Sha1.maj x y z := by
  refine bits_eq fun i _ => ?_
  simp only [Digests.Sha1.maj, UInt32.toBitVec_xor, UInt32.toBitVec_and, UInt32.toBitVec_or,
    BitVec.getLsbD_xor, BitVec.getLsbD_and, BitVec.getLsbD_or]
  cases x.toBitVec.getLsbD i <;> cases y.toBitVec.getLsbD i <;> simp

/-- Bytes shifted to their places and joined are the digits of a number. -/
private theorem joined (a b c d : UInt8) :
    ((a.toUInt32 <<< 24) ||| (b.toUInt32 <<< 16) ||| (c.toUInt32 <<< 8) ||| d.toUInt32) =
    UInt32.ofNat (a.toNat * 2 ^ 24 + b.toNat * 2 ^ 16 + c.toNat * 2 ^ 8 + d.toNat) := by
  apply UInt32.toNat_inj.mp
  have bounds := And.intro a.toNat_lt (And.intro b.toNat_lt (And.intro c.toNat_lt d.toNat_lt))
  have shifted : ∀ (x : UInt8) (n : UInt32) (m : Nat), n.toNat = m → m ≤ 24 →
      (x.toUInt32 <<< n).toNat = x.toNat * 2 ^ m := by
    intro x n m value small
    have := x.toNat_lt
    rw [UInt32.toNat_shiftLeft, value, Nat.mod_eq_of_lt (by omega : m < 32),
      UInt8.toNat_toUInt32, Nat.shiftLeft_eq]
    refine Nat.mod_eq_of_lt ?_
    calc x.toNat * 2 ^ m < 2 ^ 8 * 2 ^ m := Nat.mul_lt_mul_of_pos_right this (Nat.two_pow_pos m)
      _ ≤ 2 ^ 8 * 2 ^ 24 := Nat.mul_le_mul_left _ (Nat.pow_le_pow_right (by omega) small)
      _ = 2 ^ 32 := rfl
  rw [UInt32.toNat_or, UInt32.toNat_or, UInt32.toNat_or, shifted a 24 24 rfl (by omega),
    shifted b 16 16 rfl (by omega),
    shifted c 8 8 rfl (by omega), UInt8.toNat_toUInt32, UInt32.toNat_ofNat']
  have or_add : ∀ {i x y : Nat}, y < 2 ^ i → x * 2 ^ i ||| y = x * 2 ^ i + y := by
    intro i x y small
    rw [← Nat.shiftLeft_eq, Nat.shiftLeft_add_eq_or_of_lt small]
  rw [or_add (i := 24) (by omega),
    show a.toNat * 2 ^ 24 + b.toNat * 2 ^ 16 = (a.toNat * 2 ^ 8 + b.toNat) * 2 ^ 16 by omega,
    or_add (i := 16) (by omega),
    show (a.toNat * 2 ^ 8 + b.toNat) * 2 ^ 16 + c.toNat * 2 ^ 8 =
      (a.toNat * 2 ^ 16 + b.toNat * 2 ^ 8 + c.toNat) * 2 ^ 8 by omega,
    or_add (i := 8) (by omega), Nat.mod_eq_of_lt (by omega)]

theorem sha1MakeWord_bigWord (block : Bytes) (i : Nat) :
    sha1MakeWord (fun j => block.getD j 0) (i * 4) = bigWord block i := by
  rw [sha1MakeWord, joined, bigWord, Nat.mul_comm i 4]

theorem md5MakeWord_littleWord (block : Bytes) (i : Nat) :
    md5MakeWord (fun j => block.getD j 0) (i * 4) = littleWord block i := by
  rw [md5MakeWord, joined, littleWord, Nat.mul_comm i 4]

end Words

section Sha1
open Sha1Memory

variable {m : Sha1Memory} {s : Sha1State} {w : List UInt32} {i : Nat}

/-- The word that round `i` adds. -/
def roundWord (i : Nat) (w : List UInt32) : UInt32 := if i < 16 then w.getD 0 0 else Sha1.load w

/-- A round of `Sha1.rounds`. -/
def moved (i : Nat) (w : List UInt32) (s : Sha1State) : Sha1State :=
  ⟨s.h4 + Sha1.mix i s.h1 s.h2 s.h3 + roundWord i w + sha1Rol32 s.h0 5, s.h0,
    sha1Rol32 s.h1 30, s.h2, s.h3⟩

/-- Before call `i` the variables hold the words of a state under the names of that
call, and the memory holds a window whose head is the word of that call. -/
structure Reads (m : Sha1Memory) (i : Nat) (w : List UInt32) (s : Sha1State) : Prop where
  v : m.vars (Sha1.names i).v = s.h0
  u : m.vars (Sha1.names i).u = s.h1
  x : m.vars (Sha1.names i).x = s.h2
  y : m.vars (Sha1.names i).y = s.h3
  z : m.vars (Sha1.names i).z = s.h4
  length : w.length = 16
  words : ∀ j < 16, m.w ((i + j) % 16) = w.getD j 0

private theorem and15 (n : Nat) : n &&& 15 = n % 16 := Nat.and_two_pow_sub_one_eq_mod n 4

/-- Every macro loads the word from round 16 on, and adds it with what the round mixes. -/
private theorem call_eq (m : Sha1Memory) (i : Nat) :
    ∃ m' : Sha1Memory, m' = (if i < 16 then m else m.load i) ∧
    Sha1.call m i = m'.add (Sha1.names i)
      (Sha1.mix i (m'.vars (Sha1.names i).u) (m'.vars (Sha1.names i).x) (m'.vars (Sha1.names i).y) +
      m'.w (i &&& 15)) := by
  refine ⟨_, rfl, ?_⟩
  have swap : ∀ a b c : UInt32, a + b + c = a + c + b := fun a b c => by ac_rfl
  unfold Sha1.call Sha1.mix
  by_cases h16 : i < 16
  · have h20 : i < 20 := by omega
    simp only [h16, h20, ↓reduceIte, round0]
    rw [swap]
  · by_cases h20 : i < 20
    · simp only [h16, h20, ↓reduceIte, round1, round0]
      rw [swap]
    · by_cases h40 : i < 40
      · simp only [h16, h20, h40, ↓reduceIte, round2]
        rw [swap]
      · by_cases h60 : i < 60
        · simp only [h16, h20, h40, h60, ↓reduceIte, round3]
          rw [swap]
        · simp only [h16, h20, h40, h60, ↓reduceIte, round4]
          rw [swap]

/-- The memory after the load: the word of the round stands at its place. -/
private theorem Reads.loaded (reads : Reads m i w s) :
    (if i < 16 then m else m.load i).vars = m.vars ∧
      (if i < 16 then m else m.load i).w (i % 16) = roundWord i w ∧
      ∀ j < 15, (if i < 16 then m else m.load i).w ((i + 1 + j) % 16) = w.getD (j + 1) 0 := by
  have at_ := reads.words
  by_cases first : i < 16
  · simp only [first, ↓reduceIte, roundWord]
    refine ⟨trivial, by simpa using at_ 0 (by omega), fun j inside => ?_⟩
    rw [← at_ (j + 1) (by omega)]
    congr 2
    omega
  · simp only [first, ↓reduceIte, roundWord, Sha1Memory.load, and15, Sha1.load]
    refine ⟨trivial, ?_, fun j inside => ?_⟩
    · have head := at_ 0 (by omega)
      rw [Nat.add_zero] at head
      rw [at_ 13 (by omega), at_ 8 (by omega), at_ 2 (by omega), head]
    · rw [if_neg (by omega), ← at_ (j + 1) (by omega)]
      congr 2
      omega

private theorem getD_turned {j : Nat} (length : w.length = 16) (inside : j < 16) (last : UInt32) :
    (w.tail ++ [last]).getD j 0 = if j < 15 then w.getD (j + 1) 0 else last := by
  rw [List.getD_eq_getElem?_getD, List.getD_eq_getElem?_getD, List.getElem?_append,
    List.length_tail, length]
  split
  · rw [List.getElem?_tail]
  · rw [show j - (16 - 1) = 0 by omega]
    rfl

/-- The names move on by one place. -/
private theorem names_succ (i : Nat) :
    (Sha1.names (i + 1)).v = (Sha1.names i).z ∧ (Sha1.names (i + 1)).u = (Sha1.names i).v ∧
    (Sha1.names (i + 1)).x = (Sha1.names i).u ∧ (Sha1.names (i + 1)).y = (Sha1.names i).x ∧
      (Sha1.names (i + 1)).z = (Sha1.names i).y := by
  have five : i % 5 = 0 ∨ i % 5 = 1 ∨ i % 5 = 2 ∨ i % 5 = 3 ∨ i % 5 = 4 := by omega
  have next : (i + 1) % 5 = (i % 5 + 1) % 5 := by omega
  rcases five with h | h | h | h | h <;> simp [Sha1.names, next, h]

/-- The names of a call are different. -/
private theorem names_ne (i : Nat) :
    (Sha1.names i).u ≠ (Sha1.names i).z ∧ (∀ k ∈ [(Sha1.names i).v, (Sha1.names i).x, (Sha1.names i).y],
    k ≠ (Sha1.names i).u ∧ k ≠ (Sha1.names i).z) := by
  have five : i % 5 = 0 ∨ i % 5 = 1 ∨ i % 5 = 2 ∨ i % 5 = 3 ∨ i % 5 = 4 := by omega
  rcases five with h | h | h | h | h <;> simp [Sha1.names, h]

private theorem Reads.call (reads : Reads m i w s) :
    Reads (Sha1.call m i) (i + 1) (w.tail ++ [roundWord i w]) (moved i w s) := by
  obtain ⟨m', loaded, called⟩ := call_eq m i
  obtain ⟨vars, head, rest⟩ := reads.loaded
  rw [← loaded] at vars head rest
  obtain ⟨uz, others⟩ := names_ne i
  have ⟨vu, vz⟩ := others _ (List.mem_cons_self ..)
  have ⟨xu, xz⟩ := others (Sha1.names i).x (by simp)
  have ⟨yu, yz⟩ := others (Sha1.names i).y (by simp)
  obtain ⟨v', u', x', y', z'⟩ := names_succ i
  rw [called, vars, reads.u, reads.x, reads.y, and15, head]
  refine ⟨?_, ?_, ?_, ?_, ?_, by simp [reads.length], fun j inside => ?_⟩
  · rw [v']
    simp only [Sha1Memory.add, setVar, uz.symm, ↓reduceIte, vars, reads.z, reads.v, moved]
    ac_rfl
  · rw [u']
    simp only [Sha1Memory.add, setVar, vu, vz, ↓reduceIte, vars, reads.v, moved]
  · rw [x']
    simp only [Sha1Memory.add, setVar, uz, ↓reduceIte, vars, reads.u, moved]
  · rw [y']
    simp only [Sha1Memory.add, setVar, xu, xz, ↓reduceIte, vars, reads.x, moved]
  · rw [z']
    simp only [Sha1Memory.add, setVar, yu, yz, ↓reduceIte, vars, reads.y, moved]
  · rw [getD_turned reads.length inside]
    split
    · rename_i within
      exact rest j within
    · rw [← head]
      show m'.w ((i + 1 + j) % 16) = m'.w (i % 16)
      congr 1
      omega

private theorem calls_read (left : Nat) (reads : Reads m i w s) :
    ∃ w', Reads ((List.range' i left).foldl Sha1.call m) (i + left) w' (Sha1.rounds left i w s) := by
  induction left generalizing m i w s with
  | zero => exact ⟨w, reads⟩
  | succ left ih =>
    obtain ⟨w', last⟩ := ih reads.call
    rw [Nat.add_assoc, Nat.add_comm 1] at last
    exact ⟨w', last⟩

/-- The variables end under the names they began with. -/
private theorem calls_whole {state : Sha1State} (start : Reads m 0 w state) :
    let last := (List.range 80).foldl Sha1.call m
    let s := Sha1.rounds 80 0 w state
    (⟨state.h0 + last.vars .a, state.h1 + last.vars .b, state.h2 + last.vars .c, state.h3 + last.vars .d,
      state.h4 + last.vars .e⟩ : Sha1State) =
      ⟨state.h0 + s.h0, state.h1 + s.h1, state.h2 + s.h2, state.h3 + s.h3, state.h4 + s.h4⟩ := by
  obtain ⟨w', read⟩ := calls_read 80 start
  rw [← List.range_eq_range'] at read
  have first : Sha1.names (0 + 80) = ⟨.a, .b, .c, .d, .e⟩ := rfl
  obtain ⟨v, u, x, y, z, -, -⟩ := read
  rw [first] at v u x y z
  simp only [v, u, x, y, z]

theorem sha1_in_place (state : Sha1State) (block : Bytes) :
    Sha1.processBlockInPlace state block = Sha1.processBlock state block := by
  simp only [Sha1.processBlockInPlace, Sha1.processBlock]
  refine calls_whole ⟨rfl, rfl, rfl, rfl, rfl, by simp, fun j inside => ?_⟩
  rw [Nat.zero_add, Nat.mod_eq_of_lt inside, List.getD_eq_getElem?_getD, List.getElem?_map,
    List.getElem?_range inside]
  rfl

/-- The words of a state, in the standard's names. -/
def toWords (s : Sha1State) : Digests.Sha1.Words := ⟨s.h0, s.h1, s.h2, s.h3, s.h4⟩

/-- The window of round `i` holds the words of the schedule before it, and before round
16 the words of the block that are still to come. -/
structure Window (block : Bytes) (i : Nat) (w : List UInt32) : Prop where
  length : w.length = 16
  words : ∀ j < 16, w.getD j 0 = Digests.Sha1.schedule block (if i + j < 16 then i + j else i + j - 16)

private theorem Window.word {block : Bytes} (window : Window block i w) :
    roundWord i w = Digests.Sha1.schedule block i := by
  have at_ := window.words
  unfold roundWord
  split
  · rename_i first
    rw [at_ 0 (by omega), Nat.add_zero, if_pos first]
  · rename_i later
    rw [Sha1.load, at_ 13 (by omega), at_ 8 (by omega), at_ 2 (by omega), at_ 0 (by omega),
      if_neg (by omega), if_neg (by omega),
      if_neg (by omega), if_neg (by omega), @Digests.Sha1.schedule_ge block i (by omega),
      sha1Rol32_rotl ⟨by decide, by decide⟩]
    rw [show i + 13 - 16 = i - 3 by omega, show i + 8 - 16 = i - 8 by omega,
      show i + 2 - 16 = i - 14 by omega, Nat.add_zero]
    rfl

private theorem Window.next {block : Bytes} (window : Window block i w) :
    Window block (i + 1) (w.tail ++ [roundWord i w]) := by
  refine ⟨by simp [window.length], fun j inside => ?_⟩
  rw [getD_turned window.length inside]
  split
  · rename_i within
    rw [window.words (j + 1) (by omega), show i + (j + 1) = i + 1 + j by omega]
  · rw [window.word, if_neg (by omega), show i + 1 + j - 16 = i by omega]

/-- A round is a step of the standard. -/
private theorem moved_step {block : Bytes} (window : Window block i w) :
    toWords (moved i w s) = Digests.Sha1.step block (toWords s) i := by
  have mixed : Sha1.mix i s.h1 s.h2 s.h3 = Digests.Sha1.f i s.h1 s.h2 s.h3 + Digests.Sha1.k i := by
    unfold Sha1.mix Digests.Sha1.f Digests.Sha1.k
    by_cases h20 : i < 20
    · simp only [h20, ↓reduceIte, show i ≤ 19 by omega, choose_ch]
    · by_cases h40 : i < 40
      · simp only [h20, h40, ↓reduceIte, show ¬i ≤ 19 by omega,
          show i ≤ 39 by omega, Digests.Sha1.parity]
      · by_cases h60 : i < 60
        · simp only [h20, h40, h60, ↓reduceIte, show ¬i ≤ 19 by omega, show ¬i ≤ 39 by omega,
            show i ≤ 59 by omega, majority_maj]
        · simp only [h20, h40, h60, ↓reduceIte, show ¬i ≤ 19 by omega, show ¬i ≤ 39 by omega,
            show ¬i ≤ 59 by omega, Digests.Sha1.parity]
  simp only [toWords, moved, Digests.Sha1.step, mixed, window.word,
    sha1Rol32_rotl (n := 5) ⟨by decide, by decide⟩, sha1Rol32_rotl (n := 30) ⟨by decide, by decide⟩]
  congr 1
  show _ = rotl 5 s.h0 + Digests.Sha1.f i s.h1 s.h2 s.h3 + s.h4 + Digests.Sha1.k i +
    Digests.Sha1.schedule block i
  show s.h4 + (Digests.Sha1.f i s.h1 s.h2 s.h3 + Digests.Sha1.k i) +
    Digests.Sha1.schedule block i + rotl 5 s.h0 = _
  ac_rfl

private theorem rounds_steps {block : Bytes} (left : Nat) (window : Window block i w) :
    toWords (Sha1.rounds left i w s) =
      (List.range' i left).foldl (Digests.Sha1.step block) (toWords s) := by
  induction left generalizing i w s with
  | zero => rfl
  | succ left ih =>
    rw [List.range'_succ, List.foldl_cons, ← moved_step window]
    exact ih window.next

theorem sha1_compress (state : Sha1State) (block : Bytes) :
    toWords (Sha1.processBlock state block) = Digests.Sha1.compress (toWords state) block := by
  have start :
      Window block 0 ((List.range 16).map fun i => sha1MakeWord (fun j => block.getD j 0) (i * 4)) := by
    refine ⟨by simp, fun j inside => ?_⟩
    rw [Nat.zero_add, if_pos inside, Digests.Sha1.schedule_lt inside,
      List.getD_eq_getElem?_getD, List.getElem?_map,
      List.getElem?_range inside, ← sha1MakeWord_bigWord]
    rfl
  have steps : toWords (Sha1.rounds 80 0 _ state) = _ := rounds_steps 80 start
  rw [← List.range_eq_range'] at steps
  simp only [Digests.Sha1.compress, ← steps]
  simp only [Sha1.processBlock, toWords, UInt32.add_comm]

private theorem sha1PutWord_bigBytes (w : UInt32) : sha1PutWord w = bigBytes 4 w.toNat := by
  have bytes := sha1_bytes w.toNat
  rw [UInt32.ofNat_toNat] at bytes
  rw [bytes]
  simp [bigBytes, List.range_succ]

private theorem blocks_eq {lengthBytes : Nat → Bytes} (text : Bytes) :
    BlockHash.blocks lengthBytes text = Digests.blocks lengthBytes text := by
  simp only [BlockHash.blocks, Digests.blocks, BlockHash.closed, zeroBits_bytes, BlockHash.zeros]
  rw [Nat.mul_comm]

private theorem sha1_folds (state : Sha1State) (blocks : List Bytes) :
    toWords (blocks.foldl Sha1.processBlock state) =
      blocks.foldl Digests.Sha1.compress (toWords state) := by
  induction blocks generalizing state with
  | nil => rfl
  | cons block blocks ih => rw [List.foldl_cons, ih, sha1_compress, List.foldl_cons]

private theorem sha1_words (text : Bytes) :
    sha1.putState ((BlockHash.blocks BlockHash.bigEndian text).foldl Sha1.processBlock {}) =
      Digests.Sha1.digest text := by
  have folded := sha1_folds {} (BlockHash.blocks BlockHash.bigEndian text)
  rw [blocks_eq] at folded ⊢
  have same : Digests.blocks (bigBytes 8) text = Digests.blocks BlockHash.bigEndian text := rfl
  rw [Digests.Sha1.digest, same, show Digests.Sha1.initial = toWords {} from rfl, ← folded]
  have put : sha1PutWord = fun w => bigBytes 4 w.toNat := funext sha1PutWord_bigBytes
  simp only [BlockHash.putState, sha1, sha1Over, toWords, put]

/-- A text that is added in any pieces, to an object on any memory, is hashed as the
standard says, and so is the key that a web-socket upgrade is answered with. -/
theorem sha1_standard {memory : Bytes} {texts : List Bytes} {key : Bytes}
    (uninitialized : memory.length = 64) (bounded : texts.flatten.length < 2 ^ 61)
    (short : key.length + 36 < 2 ^ 61) :
    let hash := sha1Over Sha1.processBlockInPlace
    hash.finalize (texts.foldl hash.add (hash.new memory)) = Digests.Sha1.digest texts.flatten ∧
      Http.ResponseHeader.generateSecWebsocketAccept key =
        Base64.encode (Digests.Sha1.digest (key ++ str "258EAFA5-E914-47DA-95CA-C5AB0DC85B11")) := by
  have inPlace : Sha1.processBlockInPlace = Sha1.processBlock := by
    funext state block
    exact sha1_in_place state block
  rw [inPlace]
  refine ⟨?_, ?_⟩
  · exact (BlockHash.digest_eq uninitialized (sha1_order Sha1.processBlock) bounded).trans
      (sha1_words texts.flatten)
  · have joined : [key, str "258EAFA5-E914-47DA-95CA-C5AB0DC85B11"].flatten =
        key ++ str "258EAFA5-E914-47DA-95CA-C5AB0DC85B11" := by
      simp
    have length : (str "258EAFA5-E914-47DA-95CA-C5AB0DC85B11").length = 36 := by decide
    have wide : (List.replicate 64 (0 : UInt8)).length = 64 := List.length_replicate
    have short' : [key, str "258EAFA5-E914-47DA-95CA-C5AB0DC85B11"].flatten.length < 2 ^ 61 := by
      rw [joined, List.length_append, length]
      exact short
    have hashed := BlockHash.digest_eq wide (sha1_order Sha1.processBlock) short'
    rw [joined] at hashed
    exact congrArg Base64.encode (hashed.trans (sha1_words _))

theorem sha1_standard_parts :
    (sha1Over Sha1.processBlockInPlace).finalize
      ([str "a", [], str "bc"].foldl (sha1Over Sha1.processBlockInPlace).add
        ((sha1Over Sha1.processBlockInPlace).new (List.replicate 64 0xcc))) =
          Digests.Sha1.digest (str "abc") ∧
      Http.ResponseHeader.generateSecWebsocketAccept (str "dGhlIHNhbXBsZSBub25jZQ==") =
        Base64.encode (Digests.Sha1.digest (str "dGhlIHNhbXBsZSBub25jZQ==" ++
          str "258EAFA5-E914-47DA-95CA-C5AB0DC85B11")) :=
  have memory : (List.replicate 64 (0xcc : UInt8)).length = 64 := List.length_replicate
  have texts : [str "a", [], str "bc"].flatten.length < 2 ^ 61 := by decide
  have key : (str "dGhlIHNhbXBsZSBub25jZQ==").length + 36 < 2 ^ 61 := by decide
  sha1_standard memory texts key

end Sha1

section Md5

variable {vars : Md5Var → UInt32} {s : Md5State} {x : List UInt32} {i round : Nat}

/-- Before step `i` the variables hold the words of a state under the names of that
step. -/
structure Turns (vars : Md5Var → UInt32) (i : Nat) (s : Md5State) : Prop where
  a : vars (Md5.names i).a = s.a
  b : vars (Md5.names i).b = s.b
  c : vars (Md5.names i).c = s.c
  d : vars (Md5.names i).d = s.d

private theorem Turns.step (turns : Turns vars i s) (turn : Nat × UInt32 × UInt32) :
    Turns (Md5.stepInPlace round x vars (Md5.names i) turn) (i + 1) (Md5.step round x s turn) := by
  obtain ⟨a, b, c, d⟩ := turns
  have four : i % 4 = 0 ∨ i % 4 = 1 ∨ i % 4 = 2 ∨ i % 4 = 3 := by omega
  have next : (i + 1) % 4 = (i % 4 + 1) % 4 := by omega
  rcases four with h | h | h | h <;> simp only [Md5.names, h] at a b c d <;>
    constructor <;> simp [Md5.names, next, h, Md5.stepInPlace, Md5.step, a, b, c, d]

private theorem turns_read (turns : List (Nat × UInt32 × UInt32)) (reads : Turns vars i s) :
    Turns ((turns.zipIdx i).foldl (fun vars turn =>
      Md5.stepInPlace round x vars (Md5.names turn.2) turn.1) vars) (i + turns.length)
      (turns.foldl (Md5.step round x) s) := by
  induction turns generalizing vars s i with
  | nil => exact reads
  | cons turn turns ih =>
    rw [List.zipIdx_cons, List.foldl_cons, List.foldl_cons, List.length_cons,
      Nat.add_comm turns.length, ← Nat.add_assoc]
    exact ih (reads.step turn)

/-- The names are the first ones again behind every round. -/
private theorem rounds_read {rounds : List (List (Nat × UInt32 × UInt32) × Nat)}
    (whole : ∀ r ∈ rounds, r.1.length % 4 = 0) (reads : Turns vars 0 s) :
    Turns (rounds.foldl (fun vars round =>
        round.1.zipIdx.foldl (fun vars turn =>
          Md5.stepInPlace round.2 x vars (Md5.names turn.2) turn.1) vars) vars) 0
      (rounds.foldl (fun s round => round.1.foldl (Md5.step round.2 x) s) s) := by
  induction rounds generalizing vars s with
  | nil => exact reads
  | cons r rounds ih =>
    have last :
        Turns (r.1.zipIdx.foldl (fun vars turn =>
        Md5.stepInPlace r.2 x vars (Md5.names turn.2) turn.1) vars)
        (0 + r.1.length) (r.1.foldl (Md5.step r.2 x) s) := turns_read r.1 reads
    have same : Md5.names (0 + r.1.length) = Md5.names 0 := by
      simp [Md5.names, whole r List.mem_cons_self]
    rw [List.foldl_cons, List.foldl_cons]
    refine ih (fun r' member => whole r' (List.mem_cons_of_mem r member)) ?_
    obtain ⟨a, b, c, d⟩ := last
    rw [same] at a b c d
    exact ⟨a, b, c, d⟩

private theorem rounds_whole {state : Md5State} (start : Turns vars 0 state) :
    let last := Md5.steps.zipIdx.foldl (fun vars round =>
      round.1.zipIdx.foldl (fun vars turn =>
        Md5.stepInPlace round.2 x vars (Md5.names turn.2) turn.1) vars) vars
    let s := Md5.steps.zipIdx.foldl (fun s round => round.1.foldl (Md5.step round.2 x) s) state
    (⟨state.a + last .a, state.b + last .b, state.c + last .c, state.d + last .d⟩ : Md5State) =
      ⟨state.a + s.a, state.b + s.b, state.c + s.c, state.d + s.d⟩ := by
  have whole : ∀ r ∈ Md5.steps.zipIdx, r.1.length % 4 = 0 := by decide
  obtain ⟨a, b, c, d⟩ := rounds_read whole start (x := x)
  have first : Md5.names 0 = ⟨.a, .b, .c, .d⟩ := rfl
  rw [first] at a b c d
  simp only [a, b, c, d]

theorem md5_in_place (state : Md5State) (block : Bytes) :
    Md5.processBlockInPlace state block = Md5.processBlock state block :=
  rounds_whole ⟨rfl, rfl, rfl, rfl⟩

/-- The constant of a step. -/
def constant (n : Nat) : UInt32 := (Md5.steps.flatten.getD n default).2.2

/-- The rows of the four rounds are those of the standard, up to the constants. -/
private theorem steps_rows :
    (Md5.steps.zipIdx.flatMap fun round => round.1.map fun turn => (round.2, turn)) =
    (List.range 64).map fun n =>
      (n / 16, (Digests.Md5.round n).2.1, UInt32.ofNat ((Digests.Md5.round n).2.2.getD (n % 4) 0),
      constant n) := by
  decide

/-- The constants are the digits of the sines. -/
private theorem constant_sine {n : Nat} (inside : n < 64) : constant n = Digests.Md5.t (n + 1) := by
  have checked : ∀ n < 64, Sines.digitsOf 4294967296 (n + 1) (constant n).toNat := by decide
  have floor := Sines.floor_sin (checked n inside)
  rw [Digests.Md5.t]
  push_cast at floor ⊢
  rw [floor, UInt32.ofNat_toNat]

def toMd5Words (s : Md5State) : Digests.Md5.Words := ⟨s.a, s.b, s.c, s.d⟩

private theorem mix_round (a b c : UInt32) {n : Nat} :
    Md5.mix (n / 16) a b c = (Digests.Md5.round n).1 a b c := by
  unfold Digests.Md5.round Md5.mix
  generalize n / 16 = round
  rcases round with _ | _ | _ | round <;> rfl

/-- A row of the source is a step of the standard. -/
private theorem row_step (block : Bytes) (s : Md5State) {n : Nat} (inside : n < 64) :
    toMd5Words (Md5.step (n / 16) ((List.range 16).map fun i =>
      md5MakeWord (fun j => block.getD j 0) (i * 4)) s
      ((Digests.Md5.round n).2.1, UInt32.ofNat ((Digests.Md5.round n).2.2.getD (n % 4) 0), constant n)) =
      Digests.Md5.step block (toMd5Words s) n := by
  have bounds : ∀ n < 64, (Digests.Md5.round n).2.1 < 16 ∧ 0 < (Digests.Md5.round n).2.2.getD (n % 4) 0 ∧
      (Digests.Md5.round n).2.2.getD (n % 4) 0 < 32 := by decide
  obtain ⟨index, turns, few⟩ := bounds n inside
  have shift : (UInt32.ofNat ((Digests.Md5.round n).2.2.getD (n % 4) 0)).toNat =
      (Digests.Md5.round n).2.2.getD (n % 4) 0 := by
    rw [UInt32.toNat_ofNat', Nat.mod_eq_of_lt (by omega)]
  have read :
      ((List.range 16).map fun i => md5MakeWord (fun j => block.getD j 0) (i * 4)).getD
      (Digests.Md5.round n).2.1 0 = littleWord block (Digests.Md5.round n).2.1 := by
    rw [List.getD_eq_getElem?_getD, List.getElem?_map, List.getElem?_range index,
      ← md5MakeWord_littleWord]
    rfl
  simp only [toMd5Words, Md5.step, Digests.Md5.step, mix_round, read,
    rotateLeft_rotl (by rw [shift]; exact ⟨turns, few⟩), shift, constant_sine inside]
  congr 1
  rw [UInt32.add_comm _ s.b, UInt32.add_assoc, UInt32.add_assoc, UInt32.add_assoc]

theorem md5_compress (state : Md5State) (block : Bytes) :
    toMd5Words (Md5.processBlock state block) = Digests.Md5.compress (toMd5Words state) block := by
  have flat : ∀ (x : List UInt32) (s : Md5State),
    Md5.steps.zipIdx.foldl (fun s round => round.1.foldl (Md5.step round.2 x) s) s =
      (Md5.steps.zipIdx.flatMap fun round => round.1.map fun turn => (round.2, turn)).foldl
      (fun s row => Md5.step row.1 x s row.2) s := by
    intro x s
    rw [List.foldl_flatMap]
    simp only [List.foldl_map]
  have rows : ∀ (ns : List Nat), (∀ n ∈ ns, n < 64) → ∀ s : Md5State,
      toMd5Words (ns.foldl (fun s n =>
        Md5.step (n / 16) ((List.range 16).map fun i => md5MakeWord (fun j => block.getD j 0) (i * 4)) s
        ((Digests.Md5.round n).2.1, UInt32.ofNat ((Digests.Md5.round n).2.2.getD (n % 4) 0),
        constant n)) s) = ns.foldl (Digests.Md5.step block) (toMd5Words s) := by
    intro ns
    induction ns with
    | nil => exact fun _ s => rfl
    | cons n ns ih =>
      intro inside s
      rw [List.foldl_cons, List.foldl_cons, ← row_step block s (inside n List.mem_cons_self)]
      exact ih (fun n' member => inside n' (List.mem_cons_of_mem n member)) _
  have all := rows (List.range 64) (fun n member => List.mem_range.mp member) state
  simp only [Digests.Md5.compress, ← all, Md5.processBlock, flat, steps_rows, List.foldl_map]
  simp only [toMd5Words, UInt32.add_comm]

private theorem md5PutWord_littleBytes (w : UInt32) : md5PutWord w = littleBytes 4 w.toNat := by
  have bytes := md5_bytes w.toNat
  rw [UInt32.ofNat_toNat] at bytes
  rw [bytes]
  simp [littleBytes, List.range_succ]

private theorem md5_folds (state : Md5State) (blocks : List Bytes) :
    toMd5Words (blocks.foldl Md5.processBlock state) = blocks.foldl Digests.Md5.compress
      (toMd5Words state) := by
  induction blocks generalizing state with
  | nil => rfl
  | cons block blocks ih => rw [List.foldl_cons, ih, md5_compress, List.foldl_cons]

/-- A text that is added in any pieces, to an object on any memory, is hashed as the
standard says; the constants of the source are those that the standard defines by
sines. -/
theorem md5_standard {memory : Bytes} {texts : List Bytes} (uninitialized : memory.length = 64)
    (bounded : texts.flatten.length < 2 ^ 61) :
    let hash := md5Over Md5.processBlockInPlace
    hash.finalize (texts.foldl hash.add (hash.new memory)) = Digests.Md5.digest texts.flatten := by
  have inPlace : Md5.processBlockInPlace = Md5.processBlock := by
    funext state block
    exact md5_in_place state block
  rw [inPlace]
  refine (BlockHash.digest_eq uninitialized (md5_order Md5.processBlock) bounded).trans ?_
  have folded := md5_folds {} (BlockHash.blocks BlockHash.littleEndian texts.flatten)
  rw [blocks_eq] at folded ⊢
  have same :
      Digests.blocks (littleBytes 8) texts.flatten =
      Digests.blocks BlockHash.littleEndian texts.flatten := rfl
  have put : md5PutWord = fun w => littleBytes 4 w.toNat := funext md5PutWord_littleBytes
  rw [Digests.Md5.digest, same, show Digests.Md5.initial = toMd5Words {} from rfl, ← folded]
  simp only [BlockHash.putState, md5Over, toMd5Words, put]

theorem md5_standard_parts :
    (md5Over Md5.processBlockInPlace).finalize
      ([str "a", [], str "bc"].foldl (md5Over Md5.processBlockInPlace).add
        ((md5Over Md5.processBlockInPlace).new (List.replicate 64 0xcc))) =
          Digests.Md5.digest (str "abc") :=
  have memory : (List.replicate 64 (0xcc : UInt8)).length = 64 := List.length_replicate
  have texts : [str "a", [], str "bc"].flatten.length < 2 ^ 61 := by decide
  md5_standard memory texts

end Md5
end Crablib.DigestProofs
