import MlatBench.Core.Client

/-!
# Several Servers

The engine task with the queues it has: one for each server, with a bound. What
the engine emits is offered to the queue of its server and dropped if that is
full; the engine does not wait. The other tasks are those of `Core.Client`.

The source ends the engine task when a queue is closed. The session loops own
the other ends and run as long as the program, so no queue ever is.

## Main definitions

* `uplinkSlots`: The bound.
* `offer`: A message for a queue.
* `fanOut`: What the engine emits.
* `stepBounded`: One turn of one task.
-/

namespace MlatBench

namespace Client

open Library Proto Client

/-- Slots of a server's queue. -/
def uplinkSlots : Nat := 4096

/-- A message joins a queue with a free slot, and is dropped at a full one. -/
def offer (queue : List ClientMsg) (m : ClientMsg) : List ClientMsg :=
  if queue.length < uplinkSlots then queue ++ [m] else queue

/-- What the engine emits is offered to the queues. -/
def fanOut (c : Client) (out : Engine × List Outbound) : Client :=
  { c with
    engine := out.1
    queues := fun s => (Engine.messagesTo s out.2).foldl offer (c.queues s)
    emitted := fun s => c.emitted s ++ Engine.messagesTo s out.2 }

/-- One turn. A task that cannot take the turn waits. -/
def stepBounded (c : Client) : Action → Client
  | .tick now order => c.fanOut (c.engine.tick now order)
  | .take now =>
    match c.events with
    | [] => c
    | ev :: events => ({ c with events := events }.fanOut (c.engine.onEv now ev)).forget ev
  | a => c.step a

end Client

end MlatBench
