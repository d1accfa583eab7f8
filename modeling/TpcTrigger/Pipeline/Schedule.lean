import TpcTrigger.Pipeline.Flow

/-! # Running to rest

One schedule among all: the parts of the pipeline get a turn one after the other, round by
round, until none of them has a move or the pipeline has come far enough.  The number of rounds
is bounded by the work that is left, counted in moves.
-/

namespace TpcTrigger

structure Schedule where
  /-- The waiting time of every task that is taken from the queue. -/
  latency : Nat := 0
  /-- Whether kernels may finish; while they may not, a worker is stuck with its window. -/
  kernelsRun : Bool := true
  /-- Whether workers get a turn at all. -/
  workersRun : Bool := true
  /-- Whether a pipeline has come far enough; no part of it moves then. -/
  enough : Pipeline → Bool := fun _ => false

namespace Pipeline

/-- The moves of one round: the dispatcher, every worker, the merger. -/
def round (s : Schedule) (p : Pipeline) : List Move :=
  .dispatch s.latency :: (List.range p.nodes.size).map .work ++ [.merge]

/-- Whether the schedule lets a part make its move. -/
def allowed (s : Schedule) (p : Pipeline) (move : Move) : Bool :=
  !s.enough p &&
    match move with
    | .work worker =>
      s.workersRun && (s.kernelsRun || !(p.nodes[worker]?.map (·.inKernel)).getD false)
    | _ => true

/-- Gives one part its turn, and says whether it made a move. -/
def turn (m : Method) (s : Schedule) (done : Pipeline × Bool) (move : Move) : Pipeline × Bool :=
  let (p, moved) := done
  if p.allowed s move then
    match p.move? m move with
    | some p => (p, true)
    | none => (p, moved)
  else (p, moved)

def rounds (m : Method) (s : Schedule) : Nat → Pipeline → Pipeline
  | 0, p => p
  | fuel + 1, p =>
    match (p.round s).foldl (turn m s) (p, false) with
    | (p, true) => rounds m s fuel p
    | (p, false) => p

def messageEffort : Nat := 6

def actEffort : DispatchAct → Nat
  | .send _ _ => 1 + messageEffort
  | _ => 1

def taskEffort (workers : Nat) : Nat := 8 + 2 * workers * (1 + messageEffort)

/-- Moves that a worker's channels can still lead to. -/
def nodeEffort (node : WorkerNode) : Nat :=
  (node.inbox.length + 1) * messageEffort + (node.outbox.length + 1) * messageEffort

def totalEffort {α : Type} (effort : α → Nat) (items : List α) : Nat :=
  items.foldl (fun total item => total + effort item) 0

/-- A bound on the moves that the pipeline can make before it comes to rest. -/
def effort (p : Pipeline) : Nat :=
  (p.queue.length + 1) * taskEffort p.nodes.size
    + totalEffort actEffort p.dispatcher.acts
    + totalEffort nodeEffort p.nodes.toList
    + 8

def settle (m : Method) (s : Schedule) (p : Pipeline) : Pipeline := p.rounds m s p.effort

end Pipeline

end TpcTrigger
