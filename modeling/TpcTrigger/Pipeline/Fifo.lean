/-! # Bounded queues

A first-in first-out queue between two sides.  Either side can go away.  A sender finds the
queue closed once the receiving side is gone, which also empties it; a receiver finds it
closed once the sending side is gone and everything sent has been received.
-/

namespace TpcTrigger

/-- A queue between a sending and a receiving side, oldest item first. -/
structure Fifo (α : Type) where
  /-- The most items held at once; without one the queue is unbounded. -/
  capacity : Option Nat
  items : List α := []
  senderOpen : Bool := true
  receiverOpen : Bool := true
deriving Repr, DecidableEq, Inhabited

inductive Sent (α : Type) where
  | done (queue : Fifo α)
  | full
  | closed
deriving Repr, DecidableEq

inductive Received (α : Type) where
  | item (a : α) (queue : Fifo α)
  | empty
  | closed
deriving Repr, DecidableEq

namespace Fifo

variable {α : Type}

def bounded (n : Nat) : Fifo α := { capacity := some n }

/-- The queue that holds any number of items. -/
def unbounded : Fifo α := { capacity := none }

def length (q : Fifo α) : Nat := q.items.length

/-- Whether there is no room for another item. -/
def isFull (q : Fifo α) : Bool :=
  match q.capacity with
  | some n => decide (n ≤ q.items.length)
  | none => false

/-- Appends an item if the other side is there and there is room. -/
def send (q : Fifo α) (a : α) : Sent α :=
  if !q.receiverOpen then .closed
  else if q.isFull then .full
  else .done { q with items := q.items ++ [a] }

def receive (q : Fifo α) : Received α :=
  match q.items with
  | a :: rest => .item a { q with items := rest }
  | [] => if q.senderOpen then .empty else .closed

def closeSender (q : Fifo α) : Fifo α := { q with senderOpen := false }

/-- The receiving side goes away, and what was not received is lost. -/
def closeReceiver (q : Fifo α) : Fifo α := { q with receiverOpen := false, items := [] }

theorem send_eq_done_iff {q r : Fifo α} {a : α} :
    q.send a = .done r ↔
      q.receiverOpen = true ∧ q.isFull = false ∧ { q with items := q.items ++ [a] } = r := by
  cases hopen : q.receiverOpen <;> cases hfull : q.isFull <;> simp [send, hopen, hfull]

theorem send_eq_full_iff {q : Fifo α} {a : α} :
    q.send a = .full ↔ q.receiverOpen = true ∧ q.isFull = true := by
  cases hopen : q.receiverOpen <;> cases hfull : q.isFull <;> simp [send, hopen, hfull]

theorem send_eq_closed_iff {q : Fifo α} {a : α} : q.send a = .closed ↔ q.receiverOpen = false := by
  cases hopen : q.receiverOpen <;> cases hfull : q.isFull <;> simp [send, hopen, hfull]

theorem receive_cons {q : Fifo α} {a : α} {rest : List α} (h : q.items = a :: rest) :
    q.receive = .item a { q with items := rest } := by
  simp [receive, h]

end Fifo

end TpcTrigger
