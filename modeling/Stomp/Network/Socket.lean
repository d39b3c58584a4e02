import Stomp.Bytes

/-!
# Sockets

A socket is one end of a line to a **peer**, and a peer is what will come over
that line: an ordered script of arrivals, each after a delay, and the faults
that sending and closing will meet. Everything a program sees of a socket is
then a function of the script and of the moments at which it asks.

`Peer.receive` answers one request for data. A wait has a limit or none; an
arrival whose delay is longer than the limit stays where it is, with its delay
cut by the time waited.
-/

namespace Stomp.Network

/-- What arrives at a socket. -/
inductive Arrival
  | data (bytes : Bytes)
  /-- The peer has closed its end. -/
  | peerClosed
  | failure (reason : Text)
  /-- Nothing arrives: while the socket waits, its own side closes it. -/
  | localClose
deriving DecidableEq, Repr

/-- One entry in the script of a peer. -/
inductive Event
  /-- The peer keeps silent for good. -/
  | stall
  /-- Something arrives after a delay in seconds. -/
  | arrival (delay : Rat) (arrival : Arrival)
deriving DecidableEq, Repr

/-- The other end of a line, and what the line will do. -/
structure Peer where
  /-- What is still to arrive. -/
  events : List Event := []
  /-- For each attempt to send to come, the reason why it fails if it does. -/
  sendFaults : List (Option Text) := []
  connectFault : Option Text := none
  shutdownFault : Option Text := none
  closeFault : Option Text := none
deriving DecidableEq, Repr, Inhabited

/-- What one wait for data ends in. -/
inductive Delivery
  /-- Bytes; none if the peer has closed its end. -/
  | chunk (bytes : Bytes)
  /-- The socket is being closed from its own side. -/
  | localClose
  | failed (reason : Text)
  | timedOut
  /-- Nothing will ever come, and the wait has no limit. -/
  | stalled
deriving DecidableEq, Repr

/-- Whether a delay fits into a wait; a wait without limit has room for all. -/
def fits (delay : Rat) : Option Rat → Bool
  | none => true
  | some limit => delay ≤ limit

namespace Peer

/-- Asks for at most `size` bytes and waits for them. Gives what the wait ends
in, how long it took, and what is still to arrive. -/
def receive (size : Nat) (wait : Option Rat) (peer : Peer) : Delivery × Rat × Peer :=
  match peer.events with
  | [] => (.chunk [], 0, peer)
  | .stall :: rest =>
    match wait with
    | none => (.stalled, 0, { peer with events := rest })
    | some limit => (.timedOut, limit, { peer with events := rest })
  | .arrival delay what :: rest =>
    match wait, fits delay wait with
    | some limit, false =>
      (.timedOut, limit, { peer with events := .arrival (delay - limit) what :: rest })
    | _, _ =>
      match what with
      | .data bytes =>
        let left := bytes.drop size
        (.chunk (bytes.take size), delay,
          { peer with events := if left.isEmpty then rest else .arrival 0 (.data left) :: rest })
      | .peerClosed => (.chunk [], delay, { peer with events := rest })
      | .failure reason => (.failed reason, delay, { peer with events := rest })
      | .localClose => (.localClose, delay, { peer with events := rest })

/-- Attempts to send: the reason why it fails, if it does, and the peer after
it. -/
def send (peer : Peer) : Option Text × Peer :=
  (peer.sendFaults.head?.join, { peer with sendFaults := peer.sendFaults.tail })

/-- The number of bytes that an event brings. -/
def eventLength : Event → Nat
  | .arrival _ (.data bytes) => bytes.length
  | _ => 0

/-- The number of bytes still to arrive. -/
def pending (peer : Peer) : Nat :=
  peer.events.foldr (fun event later => eventLength event + later) 0

/-- Bytes that arrived are pending no longer. -/
theorem pending_receive {size : Nat} {wait : Option Rat} {peer after : Peer} {elapsed : Rat}
    {bytes : Bytes} (h : peer.receive size wait = (.chunk bytes, elapsed, after)) :
    bytes.length + after.pending = peer.pending := by
  unfold receive at h
  split at h
  · cases h; simp
  · split at h <;> cases h
  · rename_i delay what rest hevents
    split at h
    · cases h
    · cases what with
      | data data =>
        simp only [Prod.mk.injEq, Delivery.chunk.injEq] at h
        obtain ⟨rfl, -, rfl⟩ := h
        simp only [pending, hevents, List.foldr_cons, eventLength, List.length_take]
        split
        · rename_i hleft
          have := congrArg List.length (List.isEmpty_iff.mp hleft)
          simp only [List.length_drop, List.length_nil] at this
          omega
        · simp only [List.foldr_cons, List.length_drop]
          omega
      | peerClosed =>
        simp only [Prod.mk.injEq, Delivery.chunk.injEq] at h
        obtain ⟨rfl, -, rfl⟩ := h
        simp [pending, hevents, eventLength]
      | failure reason => simp at h
      | localClose => simp at h

end Peer

/-- One end of a line: its number among all sockets, and what is at its other
end. -/
structure Socket where
  number : Nat
  peer : Peer
deriving DecidableEq, Repr

end Stomp.Network
