import CloudBalancer.Cloud.Inventory
import CloudBalancer.Engine.Form
import CloudBalancer.Engine.Program

/-!
A cloud behind a scripted network, with a clock that only moves when something waits. A reply says
how a call fares on its way to the cloud and back: how long it waits, whether it is answered at all,
and whether the answer is the cloud's own. A call under way is either still outgoing, or has reached
the cloud (or got lost) and is returning. It is given up when its deadline passes first; a call that
need not wait is never given up.
-/

namespace CloudBalancer

structure Reply where
  /-- Seconds before the call reaches the cloud. -/
  beforeSecs : UInt64 := 0
  /-- Seconds before the answer comes back. -/
  afterSecs : UInt64 := 0
  hang : Bool := false
  error : Option ApiError := none
  /-- Whether the cloud performs a call that is answered by `error`. -/
  apply : Bool := false
  l4Ports : Option (List L4Port) := none
  elasticPorts : Option (List ElasticPort) := none
  groups : Option (List String) := none
  vip : Option String := none

namespace Reply

/-- The answer that the reply makes up for a call, if it does. -/
def madeUp? (r : Reply) : (c : Call) → Option c.Answer
  | .describe .l4 _ => r.l4Ports
  | .describe .elastic _ => r.elasticPorts
  | .create _ _ => r.vip
  | .groupsOf _ => r.groups
  | _ => none

def answer (r : Reply) (cloud : Cloud) (c : Call) : Except ApiError c.Answer × Cloud :=
  match r.error, r.madeUp? c with
  | some e, _ => (.error e, if r.apply then (cloud.perform c).2 else cloud)
  | none, some made => (.ok made, cloud)
  | none, none => cloud.perform c

end Reply

/-- Replies that are still to be given, each to the next call of its operation. -/
abbrev Script : Type := List (Operation × Reply)

namespace Script

/-- The reply to a call of `op`, and the script without it. -/
def take (op : Operation) : Script → Reply × Script
  | [] => ({}, [])
  | entry :: rest =>
    if entry.1 = op then (entry.2, rest)
    else
      let (reply, left) := take op rest
      (reply, entry :: left)

/-- Sets the replies to the coming calls of `op`, in place of those still waiting. -/
def set (script : Script) (op : Operation) (replies : List Reply) : Script :=
  script.filter (·.1 ≠ op) ++ replies.map (op, ·)

end Script

structure World where
  cloud : Cloud := {}
  script : Script := []
  /-- Seconds since the beginning. -/
  now : Nat := 0
  /-- The calls issued so far, whether they reach the cloud or not. -/
  calls : List Call := []
  events : List AuditEvent := []

structure Outgoing where
  reply : Reply
  arrival : Nat
  deadline : Nat

structure Returning (c : Call) where
  /-- The answer and when it arrives, unless it never does. -/
  arrival : Option (Nat × Except ApiError c.Answer)
  deadline : Nat

/-- How a call stands that has reached the cloud, got lost or run out of time. -/
inductive Reached (c : Call)
  | settled (outcome : Outcome c.Answer)
  | returning (call : Returning c)

/-- How a call stands right after it was issued. -/
inductive Issued (c : Call)
  | outgoing (call : Outgoing)
  | reached (call : Reached c)

namespace World

def record (w : World) (event : AuditEvent) : World :=
  { w with events := w.events ++ [event] }

/-- A call starts to wait for its answer, if there is time left for it. -/
def hold {c : Call} (w : World) (call : Returning c) : Reached c :=
  if call.deadline ≤ w.now then .settled .timedOut else .returning call

/-- A call reaches the cloud. -/
def reach (w : World) (c : Call) (reply : Reply) (deadline : Nat) : Reached c × World :=
  if reply.hang then (w.hold ⟨none, deadline⟩, w)
  else
    let (result, cloud) := reply.answer w.cloud c
    let w := { w with cloud }
    if reply.afterSecs = 0 then (.settled (.ofExcept result), w)
    else (w.hold ⟨some (w.now + clockSeconds reply.afterSecs, result), deadline⟩, w)

/-- Issues a call that may take `limit` seconds. -/
def issue (w : World) (limit : Nat) (c : Call) : Issued c × World :=
  let (reply, script) := w.script.take c.operation
  let w := { w with calls := w.calls ++ [c], script }
  let deadline := w.now + limit
  if reply.beforeSecs = 0 then
    let (call, w) := w.reach c reply deadline
    (.reached call, w)
  else if deadline ≤ w.now then (.reached (.settled .timedOut), w)
  else (.outgoing ⟨reply, w.now + clockSeconds reply.beforeSecs, deadline⟩, w)

/-- Lets time pass until an outgoing call arrives or is given up. -/
def arrive (w : World) (c : Call) (call : Outgoing) : Reached c × World :=
  if call.arrival ≤ call.deadline then
    { w with now := call.arrival }.reach c call.reply call.deadline
  else (.settled .timedOut, { w with now := call.deadline })

/-- Lets time pass until a call is answered or given up. -/
def finish {c : Call} (w : World) (call : Returning c) : Outcome c.Answer × World :=
  match call.arrival with
  | none => (.timedOut, { w with now := call.deadline })
  | some (time, result) =>
    if time ≤ call.deadline then (.ofExcept result, { w with now := time })
    else (.timedOut, { w with now := call.deadline })

/-- Lets time pass until a call that was under way is settled. -/
def settle {c : Call} : Reached c × World → Outcome c.Answer × World
  | (.settled outcome, w) => (outcome, w)
  | (.returning call, w) => w.finish call

/-- Issues a call and lets time pass until it is settled. -/
def await (w : World) (limit : Nat) (c : Call) : Outcome c.Answer × World :=
  match w.issue limit c with
  | (.outgoing call, w) => settle (w.arrive c call)
  | (.reached call, w) => settle (call, w)

end World

end CloudBalancer
