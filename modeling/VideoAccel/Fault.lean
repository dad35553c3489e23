namespace VideoAccel

inductive Fault
  | outOfRange
  | divisionByZero
  | overflow
  deriving DecidableEq, Repr

end VideoAccel
