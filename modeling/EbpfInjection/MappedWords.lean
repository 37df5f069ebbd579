import EbpfInjection.LittleEndian

/-!
A mapped region that is accessed in 32-bit words. Offsets are in bytes and may
be any integer, so two words can overlap; what a store promises is about the
word itself and the words apart from it.
-/

namespace EbpfInjection.MappedWords
open LittleEndian

universe u

/-- A stored word reads back as written, the words apart from it stay, and
storing the word that is there changes none. -/
structure Region (Device : Type u) where
  ioread32 : Device → Int → Word
  iowrite32 : Word → Int → Device → Device
  read_back : ∀ value offset device, ioread32 (iowrite32 value offset device) offset = value
  read_apart : ∀ value offset device other, other + 4 ≤ offset ∨ offset + 4 ≤ other →
    ioread32 (iowrite32 value offset device) other = ioread32 device other
  read_idle : ∀ offset device other,
    ioread32 (iowrite32 (ioread32 device offset) offset device) other = ioread32 device other

/-! The words of a memory of bytes. -/
section Bytes

def loadWord (memory : Int → Byte) (offset : Int) : Word :=
  word (memory offset) (memory (offset + 1)) (memory (offset + 2)) (memory (offset + 3))

def storeWord (value : Word) (offset : Int) (memory : Int → Byte) : Int → Byte := fun address =>
  if offset ≤ address ∧ address < offset + 4 then byteOf value (address - offset).toNat
  else memory address

variable (value : Word) (offset : Int) (memory : Int → Byte)

theorem store_word_byte (address : Int) (index : Nat) (inside : index < 4)
    (place : address = offset + index) :
    storeWord value offset memory address = byteOf value index := by
  have covered : offset ≤ address ∧ address < offset + 4 := by omega
  rw [storeWord, if_pos covered]
  congr 1
  omega

theorem store_word_outside (address : Int) (outside : address < offset ∨ offset + 4 ≤ address) :
    storeWord value offset memory address = memory address :=
  if_neg (by omega)

theorem load_stored_word : loadWord (storeWord value offset memory) offset = value := by
  have byte := store_word_byte value offset memory
  rw [loadWord, byte offset 0 (by omega) (by omega), byte (offset + 1) 1 (by omega) (by omega),
    byte (offset + 2) 2 (by omega) (by omega), byte (offset + 3) 3 (by omega) (by omega)]
  exact word_of_bytes value

theorem load_word_apart (other : Int) (apart : other + 4 ≤ offset ∨ offset + 4 ≤ other) :
    loadWord (storeWord value offset memory) other = loadWord memory other := by
  have outside : ∀ address, other ≤ address → address < other + 4 →
      storeWord value offset memory address = memory address :=
    fun address _ _ => store_word_outside value offset memory address (by omega)
  rw [loadWord, outside other (by omega) (by omega), outside (other + 1) (by omega) (by omega),
    outside (other + 2) (by omega) (by omega), outside (other + 3) (by omega) (by omega), loadWord]

theorem store_loaded_word : storeWord (loadWord memory offset) offset memory = memory := by
  have byte := store_word_byte (loadWord memory offset) offset memory
  have bytes := word_bytes_word (memory offset) (memory (offset + 1)) (memory (offset + 2))
    (memory (offset + 3))
  simp only [wordBytes, List.cons.injEq, and_true] at bytes
  rcases bytes with ⟨b0, b1, b2, b3⟩
  funext address
  by_cases inside : offset ≤ address ∧ address < offset + 4
  · have place : address = offset ∨ address = offset + 1 ∨ address = offset + 2 ∨
        address = offset + 3 := by omega
    rcases place with rfl | rfl | rfl | rfl
    · exact (byte _ 0 (by omega) (by omega)).trans b0
    · exact (byte _ 1 (by omega) (by omega)).trans b1
    · exact (byte _ 2 (by omega) (by omega)).trans b2
    · exact (byte _ 3 (by omega) (by omega)).trans b3
  · exact if_neg inside

end Bytes

def byteRegion : Region (Int → Byte) where
  ioread32 := loadWord
  iowrite32 := storeWord
  read_back := load_stored_word
  read_apart := load_word_apart
  read_idle offset memory other := by rw [store_loaded_word]

namespace Region
variable {Device : Type u} (region : Region Device)

def storeWords : Int → List Word → Device → Device
  | _, [], device => device
  | offset, value :: rest, device =>
      storeWords (offset + 4) rest (region.iowrite32 value offset device)

theorem stored_words_apart (offset : Int) (values : List Word) (device : Device) (other : Int)
    (apart : other + 4 ≤ offset ∨ offset + 4 * values.length ≤ other) :
    region.ioread32 (region.storeWords offset values device) other =
      region.ioread32 device other := by
  induction values generalizing offset device with
  | nil => rfl
  | cons value rest ih =>
      rw [List.length_cons] at apart
      rw [storeWords, ih (offset + 4) _ (by omega)]
      exact region.read_apart value offset device other (by omega)

theorem stored_words_read (offset : Int) (values : List Word) (device : Device) (j : Nat)
    (value : Word) (found : values[j]? = some value) :
    region.ioread32 (region.storeWords offset values device) (offset + 4 * j) = value := by
  induction values generalizing offset device j with
  | nil => cases found
  | cons first rest ih =>
      rw [storeWords]
      cases j with
      | zero =>
          cases found
          rw [stored_words_apart region (offset + 4) rest _ _ (by omega)]
          simpa using region.read_back value offset device
      | succ j =>
          have later := ih (offset + 4) (region.iowrite32 first offset device) j found
          rwa [show offset + 4 + 4 * (j : Int) = offset + 4 * (j + 1 : Nat) by omega] at later

end Region
end EbpfInjection.MappedWords
