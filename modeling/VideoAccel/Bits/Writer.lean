namespace VideoAccel

inductive BitError
  | invalidBitCount (bits : Nat)
  | valueTooWide (value : Int) (bits : Nat)
  | overflow (capacity : Nat)
  | destinationTooSmall (size : Nat)
  deriving DecidableEq, Repr

def BitError.name : BitError → String
  | .invalidBitCount _ => "InvalidBitCount"
  | .valueTooWide .. => "ValueTooWide"
  | .overflow _ => "Overflow"
  | .destinationTooSmall _ => "DestinationTooSmall"

def BitError.message : BitError → String
  | .invalidBitCount bits => s!"invalid bit count {bits}"
  | .valueTooWide value bits => s!"value {value} does not fit in {bits} bits"
  | .overflow capacity => s!"region of {capacity} bits overflowed"
  | .destinationTooSmall size => s!"destination of {size} bytes is too small"

def twosComplement (bits : Nat) (value : Int) : Nat := (value % (Nat.pow 2 bits : Nat)).toNat

def signed64 (value : Nat) : Int := Int.bmod value (Nat.pow 2 64)

/-- A region of 64-bit words, filled up to `position` from the lowest bit of the first word on. -/
structure BitWriter where
  words : List UInt64
  position : Nat := 0
  deriving DecidableEq, Repr

namespace BitWriter

/-- An empty region with room for at least `capacity` bits. -/
def ofCapacity (capacity : Nat) : BitWriter := { words := List.replicate ((capacity + 63) / 64) 0 }

def wordCount (w : BitWriter) : Nat := w.words.length

def capacity (w : BitWriter) : Nat := w.wordCount * 64

def lowWord (bits : Nat) (value : UInt64) : UInt64 :=
  if bits = 64 then value else value &&& ((1 <<< bits.toUInt64) - 1)

/-- The lowest `bits` bits of a value go to the position, into one word or into two. -/
def append (w : BitWriter) (bits : Nat) (value : UInt64) : BitWriter :=
  if bits = 0 then w
  else
    let low := lowWord bits value
    let shift := w.position % 64
    let words := w.words.modify (w.position / 64) (· ||| (low <<< shift.toUInt64))
    { words :=
        if 64 < shift + bits then
          words.modify (w.position / 64 + 1) (· ||| (low >>> (64 - shift).toUInt64))
        else words
      position := w.position + bits }

def putBits (w : BitWriter) (bits : Nat) (value : UInt64) : Except BitError BitWriter :=
  if 64 < bits then .error (.invalidBitCount bits)
  else if w.capacity < w.position + bits then .error (.overflow w.capacity)
  else .ok (w.append bits value)

def putUnsigned (w : BitWriter) (bits value : Nat) : Except BitError BitWriter :=
  if bits < 64 ∧ Nat.pow 2 bits ≤ value then .error (.valueTooWide (signed64 value) bits)
  else w.putBits bits value.toUInt64

def putSigned (w : BitWriter) (bits : Nat) (value : Int) : Except BitError BitWriter :=
  if bits = 0 ∨ 64 < bits then .error (.invalidBitCount bits)
  else if bits < 64 ∧
      (value < -(Nat.pow 2 (bits - 1) : Nat) ∨ (Nat.pow 2 (bits - 1) : Nat) ≤ value) then
    .error (.valueTooWide value bits)
  else w.putBits bits (Int64.ofInt value).toUInt64

def putFlag (w : BitWriter) (flag : Bool) : Except BitError BitWriter :=
  w.putBits 1 flag.toUInt64

def pad (w : BitWriter) (fill : Bool) (bits : Nat) : Except BitError Unit × BitWriter :=
  if bits = 0 then (.ok (), w)
  else
    match w.putBits (min bits 64) (if fill then 0xffffffffffffffff else 0) with
    | .error e => (.error e, w)
    | .ok w => w.pad fill (bits - min bits 64)
  termination_by bits
  decreasing_by omega

def align (w : BitWriter) (bits : Nat) (fill : Bool) : Except BitError Unit × BitWriter :=
  if bits = 0 then (.error (.invalidBitCount 0), w)
  else w.pad fill ((w.position + bits - 1) / bits * bits - w.position)

def wordBytes (word : UInt64) : List UInt8 :=
  (List.range 8).map fun i => (word >>> (8 * i).toUInt64).toUInt8

def bytes (w : BitWriter) : List UInt8 := w.words.flatMap wordBytes

def bytesFor (w : BitWriter) (size : Nat) : Except BitError (List UInt8) :=
  if size < w.wordCount * 8 then .error (.destinationTooSmall size) else .ok w.bytes

def writeTo (w : BitWriter) (destination : List UInt8) : Except BitError Nat × List UInt8 :=
  match w.bytesFor destination.length with
  | .error e => (.error e, destination)
  | .ok bytes => (.ok bytes.length, bytes ++ destination.drop bytes.length)

theorem length_bytes (w : BitWriter) : w.bytes.length = w.wordCount * 8 := by
  have hword : ∀ word ∈ w.words, (wordBytes word).length = 8 := fun _ _ => by simp [wordBytes]
  rw [bytes, List.length_flatMap, List.map_congr_left hword, List.map_const', List.sum_replicate_nat,
    wordCount]

end BitWriter

end VideoAccel
