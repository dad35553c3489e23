import VideoAccel.Errno
import VideoAccel.Kernel.Request

namespace VideoAccel.Kernel

structure Call where
  errno : Nat
  requests : List Request
  deriving DecidableEq, Repr

structure Service where
  /-- The error numbers of the calls to come. -/
  outcomes : List Nat := []
  /-- The words that the polls to come deliver. -/
  fill : List (List (List UInt32)) := []
  /-- The read targets of each batch that is under way. -/
  running : List (List ReadTarget) := []
  calls : List Call := []
  deriving DecidableEq, Repr

structure Delivery where
  target : ReadTarget
  words : List UInt32
  deriving DecidableEq, Repr

namespace Service

def commandOf (requests : List Request) : Nat := (requests.head?.map (·.command)).getD 0

def targetsOf (requests : List Request) : List ReadTarget :=
  requests.filterMap fun r =>
    match r.payload with
    | .target t => some t
    | _ => none

def isPoll (requests : List Request) : Bool := commandOf requests == Command.pollFinish

def isReset (requests : List Request) : Bool := commandOf requests == Command.resetSession

def isAttach (requests : List Request) : Bool := commandOf requests == Command.attachClient

def succeed (requests : List Request) (s : Service) : List Delivery × Service :=
  if isPoll requests then
    let delivered := (s.running.head?.getD []).zipWith Delivery.mk (s.fill.head?.getD [])
    (delivered, { s with running := s.running.tail, fill := s.fill.tail })
  else if isReset requests then ([], { s with running := [] })
  else if isAttach requests then ([], s)
  else ([], { s with running := s.running ++ [targetsOf requests] })

def fail (requests : List Request) (s : Service) : Service :=
  if isPoll requests then { s with running := s.running.tail }
  else if isReset requests then { s with running := [] }
  else s

/-- A call is repeated as long as it is interrupted. -/
def call (requests : List Request) : List Nat → Service → Except Errno (List Delivery) × Service
  | [], s =>
    let s := { s with outcomes := [], calls := s.calls ++ [Call.mk 0 requests] }
    match s.succeed requests with
    | (delivered, s) => (.ok delivered, s)
  | errno :: rest, s =>
    let s := { s with outcomes := rest, calls := s.calls ++ [Call.mk errno requests] }
    if errno = 0 then
      match s.succeed requests with
      | (delivered, s) => (.ok delivered, s)
    else if errno = Errno.interrupted.code then call requests rest s
    else (.error ⟨errno⟩, s.fail requests)

end Service

end VideoAccel.Kernel
