import Mathlib.Algebra.Ring.Nat
import Mathlib.Data.List.Basic

/-!
Little-endian bytes and 32-bit words. Values are compared through `toNat`, so
every packing law below is an identity of base-256 digits. A memory is a byte
for each address, and a word load reads four neighbouring bytes.
-/

namespace EbpfInjection.LittleEndian

abbrev Byte := BitVec 8
abbrev Word := BitVec 32

def word (b0 b1 b2 b3 : Byte) : Word :=
  BitVec.ofNat 32 (b0.toNat + 2 ^ 8 * b1.toNat + 2 ^ 16 * b2.toNat + 2 ^ 24 * b3.toNat)

def byteOf {width : Nat} (value : BitVec width) (index : Nat) : Byte :=
  value.extractLsb' (8 * index) 8

/-- Two four-bit fields in one byte; the first field is the low one. -/
def nibbles (low high : BitVec 4) : Byte :=
  BitVec.ofNat 8 (low.toNat + 2 ^ 4 * high.toNat)

@[simp] theorem word_to_nat (b0 b1 b2 b3 : Byte) :
    (word b0 b1 b2 b3).toNat =
      b0.toNat + 2 ^ 8 * b1.toNat + 2 ^ 16 * b2.toNat + 2 ^ 24 * b3.toNat := by
  have h0 := b0.isLt
  have h1 := b1.isLt
  have h2 := b2.isLt
  have h3 := b3.isLt
  simp only [word, BitVec.toNat_ofNat]
  omega

@[simp] theorem byte_of_to_nat {width : Nat} (value : BitVec width) (index : Nat) :
    (byteOf value index).toNat = value.toNat / 2 ^ (8 * index) % 2 ^ 8 := by
  simp [byteOf, BitVec.extractLsb'_toNat, Nat.shiftRight_eq_div_pow]

@[simp] theorem nibbles_to_nat (low high : BitVec 4) :
    (nibbles low high).toNat = low.toNat + 2 ^ 4 * high.toNat := by
  have bound := low.isLt
  have bound' := high.isLt
  simp only [nibbles, BitVec.toNat_ofNat]
  omega

@[simp] theorem field_to_nat {width : Nat} (value : BitVec width) (start length : Nat) :
    (value.extractLsb' start length).toNat = value.toNat / 2 ^ start % 2 ^ length := by
  simp [BitVec.extractLsb'_toNat, Nat.shiftRight_eq_div_pow]

def wordBytes (value : Word) : List Byte :=
  [byteOf value 0, byteOf value 1, byteOf value 2, byteOf value 3]

def words : List Byte → List Word
  | b0 :: b1 :: b2 :: b3 :: rest => word b0 b1 b2 b3 :: words rest
  | _ => []

theorem word_of_bytes (value : Word) :
    word (byteOf value 0) (byteOf value 1) (byteOf value 2) (byteOf value 3) = value := by
  apply BitVec.eq_of_toNat_eq
  have bound := value.isLt
  simp only [word_to_nat, byte_of_to_nat]
  omega

theorem word_bytes_word (b0 b1 b2 b3 : Byte) : wordBytes (word b0 b1 b2 b3) = [b0, b1, b2, b3] := by
  have h0 := b0.isLt
  have h1 := b1.isLt
  have h2 := b2.isLt
  have h3 := b3.isLt
  have digit : ∀ (index : Nat) (byte : Byte),
      (word b0 b1 b2 b3).toNat / 2 ^ (8 * index) % 2 ^ 8 = byte.toNat →
        byteOf (word b0 b1 b2 b3) index = byte := by
    intro index byte same
    apply BitVec.eq_of_toNat_eq
    rw [byte_of_to_nat, same]
  rw [wordBytes, digit 0 b0, digit 1 b1, digit 2 b2, digit 3 b3]
  all_goals
    rw [word_to_nat]
    omega

theorem words_word_bytes (value : Word) (rest : List Byte) :
    words (wordBytes value ++ rest) = value :: words rest := by
  simp only [wordBytes, List.cons_append, List.nil_append, words, word_of_bytes]

theorem words_of_words (values : List Word) : words (values.flatMap wordBytes) = values := by
  induction values with
  | nil => rfl
  | cons value rest ih => rw [List.flatMap_cons, words_word_bytes, ih]

theorem words_take (bytes : List Byte) (count : Nat) :
    words (bytes.take count) = (words bytes).take (count / 4) := by
  fun_induction words bytes generalizing count with
  | case1 b0 b1 b2 b3 rest ih =>
      match count with
      | 0 | 1 | 2 | 3 => rfl
      | count + 4 =>
          have later : (count + 4) / 4 = count / 4 + 1 := by omega
          simp only [List.take_succ_cons, words, ih count, later]
  | case2 bytes short =>
      match bytes, short with
      | [], _ => simp [words]
      | [_], _ | [_, _], _ | [_, _, _], _ => rcases count with _ | _ | _ | count <;> simp [words]
      | b0 :: b1 :: b2 :: b3 :: rest, short => exact (short b0 b1 b2 b3 rest rfl).elim

theorem incomplete_length (bytes : List Byte)
    (short : ∀ b0 b1 b2 b3 rest, bytes = b0 :: b1 :: b2 :: b3 :: rest → False) :
    bytes.length / 4 = 0 := by
  match bytes, short with
  | [], _ | [_], _ | [_, _], _ | [_, _, _], _ => simp
  | b0 :: b1 :: b2 :: b3 :: rest, short => exact (short b0 b1 b2 b3 rest rfl).elim

section Memory

def load32 (memory : Nat → Byte) (address : Nat) : Word :=
  word (memory address) (memory (address + 1)) (memory (address + 2)) (memory (address + 3))

def Holds (memory : Nat → Byte) : Nat → List Byte → Prop
  | _, [] => True
  | base, byte :: rest => memory base = byte ∧ Holds memory (base + 1) rest

theorem holds_append (memory : Nat → Byte) (base : Nat) (front back : List Byte) :
    Holds memory base (front ++ back) ↔
      Holds memory base front ∧ Holds memory (base + front.length) back := by
  induction front generalizing base with
  | nil => simp [Holds]
  | cons byte rest ih =>
      simp only [List.cons_append, Holds, ih, List.length_cons, and_assoc]
      rw [show base + 1 + rest.length = base + (rest.length + 1) by omega]

/-- Loading consecutive words of a stored byte string gives its words. -/
theorem loads_exact (memory : Nat → Byte) (base : Nat) (bytes : List Byte)
    (held : Holds memory base bytes) :
    (List.range (bytes.length / 4)).map (fun j => load32 memory (base + 4 * j)) = words bytes := by
  fun_induction words bytes generalizing base with
  | case1 b0 b1 b2 b3 rest ih =>
      rcases held with ⟨h0, h1, h2, h3, tail⟩
      have count : (b0 :: b1 :: b2 :: b3 :: rest).length / 4 = rest.length / 4 + 1 := by
        simp only [List.length_cons]
        omega
      have first : load32 memory base = word b0 b1 b2 b3 := by rw [load32, h0, h1, h2, h3]
      have later := ih (base + 4) tail
      rw [count, List.range_succ_eq_map, List.map_cons, List.map_map, ← later]
      simp only [Nat.mul_zero, Nat.add_zero, first, List.cons.injEq, true_and]
      apply List.map_congr_left
      intro j _
      simp only [Function.comp_apply]
      congr 1
      omega
  | case2 bytes short => simp [incomplete_length bytes short]

theorem words_bytes_length (values : List Word) :
    (values.flatMap wordBytes).length = 4 * values.length := by
  induction values with
  | nil => rfl
  | cons value rest ih =>
      rw [List.flatMap_cons, List.length_append, ih, List.length_cons]
      simp only [wordBytes, List.length_cons, List.length_nil]
      omega

theorem holds_loads (memory : Nat → Byte) (base count : Nat) :
    Holds memory base
      (((List.range count).map fun j => load32 memory (base + 4 * j)).flatMap wordBytes) := by
  induction count with
  | zero => trivial
  | succ count ih =>
      rw [List.range_succ, List.map_append, List.flatMap_append, holds_append]
      constructor
      · exact ih
      · rw [words_bytes_length, List.length_map, List.length_range]
        simp [load32, word_bytes_word, Holds]

end Memory
end EbpfInjection.LittleEndian
