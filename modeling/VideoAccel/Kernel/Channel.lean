import VideoAccel.AddressSpace
import VideoAccel.Device
import VideoAccel.Kernel.Service

namespace VideoAccel.Kernel

/-- The place that the words of a read go to. Words that are not delivered are zero. -/
structure ReadBuffer where
  length : Nat
  delivered : List UInt32 := []
  deriving DecidableEq, Repr

namespace ReadBuffer

def words (b : ReadBuffer) : List UInt32 := fitWords b.length b.delivered

def overwrite (words : List UInt32) (b : ReadBuffer) : ReadBuffer :=
  { b with delivered := words.take b.length ++ b.delivered.drop words.length }

end ReadBuffer

/-- A batch that was accepted: its ticket and the places for its reads. -/
structure PendingBatch where
  ticket : Nat
  reads : List ReadBuffer
  deriving DecidableEq, Repr

structure ServiceChannel where
  client : Client
  pending : List PendingBatch := []
  nextTicket : Nat := 0
  deriving DecidableEq, Repr

structure Connection where
  channel : ServiceChannel
  service : Service
  deriving DecidableEq, Repr

def PendingBatch.deliver (b : PendingBatch) (d : Delivery) : PendingBatch :=
  if d.target.ticket = b.ticket then
    { b with reads := b.reads.modify d.target.index (ReadBuffer.overwrite d.words) }
  else b

def send (requests : List Request) (s : Service) :
    Except ChannelError (List Delivery) × Service :=
  if requests.isEmpty then (.ok [], s)
  else
    match Service.call (sealMessage requests) s.outcomes s with
    | (.ok delivered, s) => (.ok delivered, s)
    | (.error e, s) => (.error (if e = .timedOut then .timeout else .io e), s)

namespace ServiceChannel

/-- Opens the device file, if it exists, and attaches to a client of the service. -/
def connect (client : Client) (deviceExists : Bool) (s : Service) :
    Except ChannelError ServiceChannel × Service :=
  if deviceExists then
    match send [attachRequest client] s with
    | (.error e, s) => (.error e, s)
    | (.ok _, s) => (.ok { client }, s)
  else (.error (.io .noSuchFile), s)

end ServiceChannel

namespace Connection

def submit (batch : Batch) (c : Connection) : Except ChannelError Unit × Connection :=
  match send (batchRequests c.channel.nextTicket batch) c.service with
  | (.error e, service) => (.error (.rejected e.message), { c with service })
  | (.ok _, service) =>
    let pending : PendingBatch :=
      ⟨c.channel.nextTicket, batch.reads.map fun (_, count) => { length := count }⟩
    (.ok (), { c with
      channel := { c.channel with
        pending := c.channel.pending ++ [pending], nextTicket := c.channel.nextTicket + 1 }
      service })

def submit? (batch : Batch) (c : Connection) : Option (Except ChannelError Unit × Connection) :=
  if batch.reads.all fun (_, count) => isAddressable count 4 then some (c.submit batch) else none

/-- Deliveries go to every batch still held, the one polled for included. -/
def poll (c : Connection) : Except ChannelError Readback × Connection :=
  match c.channel.pending with
  | [] => (.error .nothingPending, c)
  | batch :: rest =>
    match send [pollRequest] c.service with
    | (.error e, service) => (.error e, { channel := { c.channel with pending := rest }, service })
    | (.ok delivered, service) =>
      let fill := fun (b : PendingBatch) => delivered.foldl PendingBatch.deliver b
      (.ok ((fill batch).reads.map ReadBuffer.words),
        { channel := { c.channel with pending := rest.map fill }, service })

def reset (c : Connection) : Except ChannelError Unit × Connection :=
  match send [resetRequest] c.service with
  | (result, service) =>
    (result.map fun _ => (), { channel := { c.channel with pending := [] }, service })

def flush (c : Connection) : Except ChannelError Unit × Connection := (.ok (), c)

def channelOperations : VideoAccel.Channel Connection := ⟨submit, poll, reset, flush⟩

end Connection

end VideoAccel.Kernel
