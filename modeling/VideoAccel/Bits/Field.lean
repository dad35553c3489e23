import VideoAccel.Bits.Writer

namespace VideoAccel

inductive BitField
  | unsigned (bits value : Nat)
  | signed (bits : Nat) (value : Int)
  | flag (value : Bool)
  deriving DecidableEq, Repr

namespace BitField

def width : BitField → Nat
  | .unsigned bits _ => bits
  | .signed bits _ => bits
  | .flag _ => 1

def put (w : BitWriter) : BitField → Except BitError BitWriter
  | .unsigned bits value => w.putUnsigned bits value
  | .signed bits value => w.putSigned bits value
  | .flag value => w.putFlag value

end BitField

def BitWriter.putAll (w : BitWriter) : List BitField → Except BitError BitWriter
  | [] => .ok w
  | f :: fs =>
    match f.put w with
    | .error e => .error e
    | .ok w => w.putAll fs

end VideoAccel
