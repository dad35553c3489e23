import VideoAccel.Bits.Writer

namespace VideoAccel

inductive BitCall
  | unsigned (bits : Nat) (value : UInt64)
  | signed (bits : Nat) (value : Int64)
  | flag (value : Bool)
  | align (bits : Nat) (fill : Bool)
  deriving DecidableEq, Repr

namespace BitWriter

def orKept (w : BitWriter) : Except BitError BitWriter → Except BitError Unit × BitWriter
  | .error e => (.error e, w)
  | .ok w => (.ok (), w)

def call (w : BitWriter) : BitCall → Except BitError Unit × BitWriter
  | .unsigned bits value => w.orKept (w.putUnsigned bits value.toNat)
  | .signed bits value => w.orKept (w.putSigned bits value.toInt)
  | .flag value => w.orKept (w.putFlag value)
  | .align bits fill => w.align bits fill

/-- The answers to calls in order, and what they leave. -/
def callAll (w : BitWriter) : List BitCall → List (Except BitError Unit) × BitWriter
  | [] => ([], w)
  | c :: cs =>
    let rest := (w.call c).2.callAll cs
    ((w.call c).1 :: rest.1, rest.2)

end BitWriter

end VideoAccel
