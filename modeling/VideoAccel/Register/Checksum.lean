namespace VideoAccel.Checksum

def reduce : Nat → UInt32 → UInt32
  | 0, s => s
  | n + 1, s => reduce n (if s &&& 1 = 0 then s >>> 1 else (s >>> 1) ^^^ 0xedb88320)

def byte (s : UInt32) (b : UInt8) : UInt32 := reduce 8 (s ^^^ b.toUInt32)

def littleEndian (w : UInt32) : List UInt8 :=
  [w.toUInt8, (w >>> 8).toUInt8, (w >>> 16).toUInt8, (w >>> 24).toUInt8]

def ofBytes (bs : List UInt8) : UInt32 := ~~~(bs.foldl byte 0xffffffff)

def ofWords (ws : List UInt32) : UInt32 := ofBytes (ws.flatMap littleEndian)

end VideoAccel.Checksum
