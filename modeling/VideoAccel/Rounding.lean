namespace VideoAccel

def ceilDiv (n d : Nat) : Nat := (n + (d - 1)) / d

def alignUp (value alignment : Nat) : Nat := ceilDiv value alignment * alignment

def alignUp? (value alignment : Nat) : Option Nat :=
  if alignment = 0 then none else some (alignUp value alignment)

end VideoAccel
