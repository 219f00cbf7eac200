import Mathlib.Data.Nat.Digits.Defs

/-!
# Fixed-size binary codecs

A codec carries its two laws: every value is encoded in the same number of bytes,
and decoding the bytes gives the value back. Codecs of packed structs are put
together from little-endian integers and byte arrays, so that their laws need no
proof of their own.

Decoding is total. On bytes that were not produced by the encoder it yields what
a program reads when it copies them into its struct.
-/

universe u v

/-- A fixed-size encoding that can be undone. -/
structure Codec (α : Type u) where
  size : Nat
  encode : α → List UInt8
  decode : List UInt8 → α
  length_encode : ∀ value, (encode value).length = size
  decode_encode : ∀ value, decode (encode value) = value

namespace Codec

attribute [simp] length_encode decode_encode

variable {α : Type u} {β : Type v}

/-! ## Little-endian numbers -/

/-- The low bytes of a number, least significant first. -/
def toBytes : Nat → Nat → List UInt8
  | 0, _ => []
  | width + 1, number => UInt8.ofNat number :: toBytes width (number / 256)

/-- The number whose little-endian bytes these are. -/
def ofBytes (bytes : List UInt8) : Nat := Nat.ofDigits 256 (bytes.map UInt8.toNat)

@[simp] theorem length_toBytes (width number : Nat) :
    (toBytes width number).length = width := by
  induction width generalizing number with
  | zero => rfl
  | succ width ih => rw [toBytes, List.length_cons, ih]

theorem ofBytes_toBytes {width number : Nat} (fits : number < 256 ^ width) :
    ofBytes (toBytes width number) = number := by
  induction width generalizing number with
  | zero =>
      have zero : number = 0 := by simpa using fits
      rw [zero]
      rfl
  | succ width ih =>
      have rest : number / 256 < 256 ^ width := by
        rw [Nat.div_lt_iff_lt_mul (by decide), ← Nat.pow_succ]
        exact fits
      have tail : ofBytes (toBytes width (number / 256)) = number / 256 := ih rest
      simp only [ofBytes] at tail
      simp only [ofBytes, toBytes, List.map_cons, Nat.ofDigits_cons, tail]
      simp only [UInt8.toNat_ofNat']
      omega

theorem ofBytes_lt (bytes : List UInt8) : ofBytes bytes < 256 ^ bytes.length := by
  induction bytes with
  | nil => exact Nat.zero_lt_one
  | cons byte bytes ih =>
      have low := byte.toNat_lt
      simp only [ofBytes] at ih
      simp only [ofBytes, List.map_cons, Nat.ofDigits_cons, List.length_cons, Nat.pow_succ]
      omega

theorem toBytes_ofBytes (bytes : List UInt8) : toBytes bytes.length (ofBytes bytes) = bytes := by
  induction bytes with
  | nil => rfl
  | cons byte bytes ih =>
      have low := byte.toNat_lt
      simp only [ofBytes] at ih
      simp only [ofBytes, List.map_cons, Nat.ofDigits_cons, List.length_cons, toBytes]
      have first : UInt8.ofNat (byte.toNat + 256 * Nat.ofDigits 256 (bytes.map UInt8.toNat)) =
          byte := by
        apply UInt8.toNat_inj.mp
        rw [UInt8.toNat_ofNat']
        omega
      have rest : (byte.toNat + 256 * Nat.ofDigits 256 (bytes.map UInt8.toNat)) / 256 =
          Nat.ofDigits 256 (bytes.map UInt8.toNat) := by omega
      rw [first, rest, ih]

/-- A type of numbers below a power of 256, least significant byte first. -/
def littleEndian (width : Nat) (toNat : α → Nat) (ofNat : Nat → α)
    (fits : ∀ value, toNat value < 256 ^ width)
    (inverse : ∀ value, ofNat (toNat value) = value) : Codec α where
  size := width
  encode value := toBytes width (toNat value)
  decode bytes := ofNat (ofBytes bytes)
  length_encode value := length_toBytes width (toNat value)
  decode_encode value := by rw [ofBytes_toBytes (fits value), inverse]

def uint16 : Codec UInt16 :=
  littleEndian 2 UInt16.toNat UInt16.ofNat UInt16.toNat_lt fun _ => UInt16.ofNat_toNat

def uint32 : Codec UInt32 :=
  littleEndian 4 UInt32.toNat UInt32.ofNat UInt32.toNat_lt fun _ => UInt32.ofNat_toNat

def uint64 : Codec UInt64 :=
  littleEndian 8 UInt64.toNat UInt64.ofNat UInt64.toNat_lt fun _ => UInt64.ofNat_toNat

/-- Four bytes are those of the number that they stand for. -/
theorem uint32_encode_decode {bytes : List UInt8} (size : bytes.length = 4) :
    uint32.encode (uint32.decode bytes) = bytes := by
  have fits := ofBytes_lt bytes
  rw [size] at fits
  change toBytes 4 (UInt32.ofNat (ofBytes bytes)).toNat = bytes
  rw [UInt32.toNat_ofNat_of_lt' fits, ← size]
  exact toBytes_ofBytes bytes

/-! ## Structs -/

/-- A byte array, copied. -/
def byteArray (size : Nat) : Codec (Vector UInt8 size) where
  size := size
  encode := Vector.toList
  decode bytes := .ofFn fun position => bytes.getD position 0
  length_encode _ := Vector.length_toList
  decode_encode value := by
    ext position inRange
    simp

/-- The same bytes read as another type. -/
def lift (codec : Codec α) (toSource : β → α) (ofSource : α → β)
    (inverse : ∀ value, ofSource (toSource value) = value) : Codec β where
  size := codec.size
  encode value := codec.encode (toSource value)
  decode bytes := ofSource (codec.decode bytes)
  length_encode value := codec.length_encode (toSource value)
  decode_encode value := by rw [codec.decode_encode, inverse]

/-- Two consecutive fields. -/
def pair (first : Codec α) (second : Codec β) : Codec (α × β) where
  size := first.size + second.size
  encode value := first.encode value.1 ++ second.encode value.2
  decode bytes :=
    (first.decode (bytes.take first.size), second.decode (bytes.drop first.size))
  length_encode value := by simp
  decode_encode value := by
    rw [List.take_left' (first.length_encode _), List.drop_left' (first.length_encode _)]
    simp

def int32 : Codec Int32 :=
  uint32.lift Int32.toUInt32 UInt32.toInt32 fun _ => rfl

end Codec
