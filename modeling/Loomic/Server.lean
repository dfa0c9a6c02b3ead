-- The server: its sessions, the registry, and the offline queues in Redis.
-- One step is one segment of a coroutine, from a `co_await` to the next, or one
-- closure that was posted to a strand. All of them run on one thread, so no
-- other step comes in between. An exception that leaves a posted closure ends
-- the process.
import Loomic.Lib.StoreForward
import Loomic.Routing
import Loomic.SessionRegistry
import Loomic.SessionRun
import Loomic.WriteQueue

open loomic.frame loomic.json loomic.queue loomic.routing loomic.session_registry
open loomic.session_run machines store_forward

namespace loomic.server

/-! ## The sessions -/

/-- A chat message that is being routed, with the number of its routing. -/
structure Item where
  no : Nat
  message : OutboundMessage
  deriving DecidableEq

/-- What is in an offline queue: a message, or the notice that one was deleted. -/
abbrev Stored := Entry Item

/-- The `run()` of a session of either kind. -/
inductive AnyRun
  | tcp (r : Run Session.Await)
  | ws (r : Run WebSocketSession.Await)
  deriving DecidableEq

inductive Transport
  | tcp
  | ws

inductive AnyEvent
  | tcp (ev : Session.Event Stored)
  | ws (ev : WebSocketSession.Event Stored)

namespace AnyRun

def start : Transport → AnyRun
  | .tcp => .tcp Session.start
  | .ws => .ws WebSocketSession.start

def user_id : AnyRun → UserId
  | .tcp r => r.user_id
  | .ws r => r.user_id

/-- `run()` has not returned. -/
def active : AnyRun → Bool
  | .tcp r => r.await ≠ .done
  | .ws r => r.await ≠ .done

/-- The user is not known yet. -/
def in_auth : AnyRun → Bool
  | .tcp r => match r.await with
    | .auth_header | .auth_payload _ | .auth_error => true
    | _ => false
  | .ws r => match r.await with
    | .accept | .auth_text | .auth_error => true
    | _ => false

/-- Whether `enqueue` takes a message; the one of `Session` takes them all. -/
def dumps : AnyRun → Item → Bool
  | .tcp _, _ => true
  | .ws _, item => WebSocketSession.dumps item.message

/-- Whether `enqueue` takes a frame of the flush. -/
def takes (run : AnyRun) (e : Stored) : Bool := e.message?.all run.dumps

def resume (verify : Bytes → Option UserId) : AnyRun → AnyEvent →
    Option (AnyRun × List (Effect Stored))
  | .tcp r, .tcp ev => (Session.resume r verify ev).map fun (r, effects) => (.tcp r, effects)
  | .ws r, .ws ev => (WebSocketSession.resume r verify (takes (.ws r)) ev).map
      fun (r, effects) => (.ws r, effects)
  | _, _ => none

/-- The coroutine that serves a frame returns. -/
def returned : AnyRun → AnyEvent
  | .tcp _ => .tcp .returned
  | .ws _ => .ws .returned

end AnyRun

/-- The reply to the flush. -/
def AnyEvent.batch : AnyEvent → Option (List Stored)
  | .tcp (.frames batch) => some batch
  | .ws (.frames batch) => some batch
  | _ => none

def AnyEvent.is_returned : AnyEvent → Bool
  | .tcp .returned => true
  | .ws .returned => true
  | _ => false

/-- Where the receipts of a routing go: nowhere, to the sender's session in the registry, or to
the session's own queue. -/
inductive Receipts
  | none
  | posted
  | pushed
  deriving DecidableEq

/-- A frame for the routing coroutines. -/
inductive Request
  | tcp (hdr : FrameHeader) (payload : Bytes)
  | ws (type : String) (j : Json)

/-- A routing: it is about to be done, or waits for the `LPUSH` for a member, with the rest of
the members to come. -/
inductive Route
  | requested (request : Request)
  | waiting (item : Item) (member_id : UserId) (rest : List UserId) (receipts : Receipts)

/-- A session. What was written and lost, and the stage, are its history. -/
structure ISession where
  run : AnyRun
  stage : Stage
  route : Option Route
  posts : List (Packet UserId Item)
  queue : WriteQueue (Packet UserId Item)
  written : List (Packet UserId Item)
  lost : List (Packet UserId Item)
  alive : Bool

def ISession.start (run : AnyRun) : ISession where
  run := run
  stage := .fresh
  route := none
  posts := []
  queue := .empty
  written := []
  lost := []
  alive := true

/-- What is being sent, and to whom it has still to be. -/
def ISession.sending (ss : ISession) : Option (Item × List UserId) :=
  match ss.route with
  | some (.waiting item member_id rest _) => some (item, member_id :: rest)
  | _ => none

/-! ## The frames that are routed -/

/-- What the stores and the clocks answer to a routing. No member comes twice, as they are the
members of a set in Redis or the rows of a primary key. -/
structure Answers where
  members : List UserId
  nodup : members.Nodup
  other_member : Option UserId
  msg_id : MsgId
  ts_ms : Int64

/-- The message, the users whom the loop visits in turn, and the receipts. -/
structure Plan where
  message : OutboundMessage
  members : List UserId
  receipts : Receipts

/-- The outer `none` is the exception that a member of the wrong kind throws, the inner one a
frame that is dropped, or is not a message. -/
def Request.plan (user_id : UserId) (answers : Answers) : Request → Option (Option Plan)
  | .tcp hdr payload =>
    if hdr.is_group then
      some (some {
        message := group_message user_id hdr.recipient_id answers.msg_id answers.ts_ms payload
        members := answers.members.filter (· ≠ user_id)
        receipts := .posted })
    else
      some (some {
        message := direct_message user_id hdr.recipient_id (min user_id hdr.recipient_id)
          answers.msg_id answers.ts_ms payload
        members := [hdr.recipient_id]
        receipts := .posted })
  | .ws type j =>
    if type = "chat" then
      (WebSocketSession.request "conv_id" j).map fun target => target.bind fun (conv_id, content) =>
        (answers.other_member.filter (· ≠ user_id)).map fun recipient_id => {
          message := direct_message user_id recipient_id conv_id answers.msg_id answers.ts_ms
            (bytes content)
          members := [recipient_id]
          receipts := .pushed }
    else if type = "group_chat" then
      (WebSocketSession.request "group_id" j).map fun target =>
        target.map fun (group_id, content) => {
        message := group_message user_id group_id answers.msg_id answers.ts_ms (bytes content)
        members := answers.members.filter (· ≠ user_id)
        receipts := .none }
    else some none

/-! ## The server -/

/-- The offline queues have what was pushed last at their head. A deletion is a handler of
`DELETE /messages` that waits for the `LPUSH` for a member, with the rest of the members to
come. The last four fields are the history. -/
structure Server (ρ : Type) where
  running : Bool
  sessions : ρ → ISession
  registry : SessionRegistry ρ
  offline : UserId → List Stored
  deletions : List (UserId × List UserId)
  next_no : Nat
  routed : List (Item × UserId)
  puts : List (UserId × Item)
  receipts : List (Item × UserId)

/-- One step. `notify` is a post that is not a chat message nor a receipt, and that is stored
nowhere: a typing indicator, or a READ receipt. `delete_message` is the fan-out of
`DELETE /messages` to the members, up to its first `LPUSH`, after which `notice_lpushed` goes on
with it. -/
inductive Label (ρ : Type)
  | resume (s : ρ) (ev : AnyEvent)
  | fan_out (s : ρ) (answers : Answers)
  | lpushed (s : ρ)
  | notify (user_id : UserId)
  | delete_message (members : List UserId)
  | notice_lpushed (k : Nat)
  | run_post (s : ρ)
  | start (s : ρ)
  | written (s : ρ)
  | failed (s : ρ)
  | destroy (s : ρ)

variable {ρ : Type} [DecidableEq ρ]

namespace Server

section Operations

variable (w : Server ρ)

def alive (s : ρ) : Bool := (w.sessions s).alive

def lookup (user_id : UserId) : Option ρ := w.registry.lookup w.alive user_id

def user (s : ρ) : UserId := (w.sessions s).run.user_id

def modify (s : ρ) (f : ISession → ISession) : Server ρ :=
  { w with sessions := Function.update w.sessions s (f (w.sessions s)) }

/-- `net::post` to the strand of a session. -/
def post (s : ρ) (p : Packet UserId Item) : Server ρ :=
  w.modify s fun ss => { ss with posts := ss.posts ++ [p] }

def push (s : ρ) (p : Packet UserId Item) : Server ρ :=
  w.modify s fun ss => { ss with queue := ss.queue.push p }

def enqueue (s : ρ) (p : Packet UserId Item) : Server ρ :=
  { w.push s p with puts := w.puts ++ p.message?.toList.map (w.user s, ·) }

def notify (user_id : UserId) : Server ρ :=
  match w.lookup user_id with
  | some t => w.post t .notice
  | none => w

/-- The loop of `DELETE /messages` over the members, up to its end or to the first who is not
online. -/
def notify_all (w : Server ρ) : List UserId → Server ρ
  | [] => w
  | member_id :: rest =>
    match w.lookup member_id with
    | some t => notify_all (w.post t .notice) rest
    | none => { w with deletions := w.deletions ++ [(member_id, rest)] }

/-- The `LPUSH` of the notice is done. -/
def lpush_notice (k : Nat) (member_id : UserId) : Server ρ :=
  { w with
    offline := Function.update w.offline member_id (.notice :: w.offline member_id)
    deletions := w.deletions.eraseIdx k }

def perform (self : ρ) (w : Server ρ) : Effect Stored → Server ρ
  | .registry_insert user_id =>
    { w.modify self (fun ss => { ss with stage := .registered }) with
      registry := w.registry.insert user_id self }
  | .registry_remove user_id =>
    { w with registry := w.registry.remove w.alive user_id (some self) }
  | .enqueue e => w.enqueue self e.packet
  | .push_text _ => w.push self .notice
  | .relay target_id _ => w.notify target_id
  | .route_message hdr payload =>
    w.modify self fun ss => { ss with route := some (.requested (.tcp hdr payload)) }
  | .route_text type j =>
    w.modify self fun ss => { ss with route := some (.requested (.ws type j)) }
  | _ => w

/-- The resumption finds the reply to the flush: Redis has deleted the list. What `enqueue` does
not take is lost. -/
def deleted (s : ρ) (batch : List Stored) : Server ρ :=
  { w.modify s (fun ss => { ss with
      stage := .flushed
      lost := ss.lost ++ (batch.dropWhile ss.run.takes).map Entry.packet }) with
    offline := Function.update w.offline (w.user s) [] }

/-- The state in which a segment starts. The list comes in the order in which it was pushed. -/
def begin_segment (s : ρ) (run : AnyRun) (ev : AnyEvent) : Option (Server ρ) :=
  let w' := match ev.batch with
    | some batch =>
      if batch = (w.offline (w.user s)).reverse then some (w.deleted s batch) else none
    | none => some w
  w'.map fun w' => w'.modify s fun ss => { ss with run := run, route := none }

def resume (verify : Bytes → Option UserId) (s : ρ) (ev : AnyEvent) : Option (Server ρ) :=
  ((w.sessions s).run.resume verify ev).bind fun (run, effects) =>
    (w.begin_segment s run ev).map fun w' => effects.foldl (perform s) w'

def send_receipt (s : ρ) (item : Item) (member_id : UserId) : Receipts → Server ρ
  | .none => w
  | .posted => match w.lookup (w.user s) with
    | some a => { w.post a (.receipt item member_id) with
        receipts := w.receipts ++ [(item, member_id)] }
    | none => w
  | .pushed => { w.push s (.receipt item member_id) with
      receipts := w.receipts ++ [(item, member_id)] }

/-- A member who is online gets the message, and the sender the receipt. -/
def deliver (s : ρ) (item : Item) (receipts : Receipts) (member_id : UserId) (t : ρ) : Server ρ :=
  { (w.post t (.message item)).send_receipt s item member_id receipts with
    routed := w.routed ++ [(item, member_id)] }

/-- The loop over the members, up to its end or to the first who is not online. -/
def visit (s : ρ) (item : Item) (receipts : Receipts) (w : Server ρ) : List UserId → Server ρ
  | [] => w.modify s fun ss => { ss with route := none }
  | member_id :: rest =>
    match w.lookup member_id with
    | some t => visit s item receipts (w.deliver s item receipts member_id t) rest
    | none => w.modify s fun ss =>
        { ss with route := some (.waiting item member_id rest receipts) }

/-- When the routing is done, `run()` goes on. -/
def settle (verify : Bytes → Option UserId) (s : ρ) : Option (Server ρ) :=
  match (w.sessions s).route with
  | none => w.resume verify s (w.sessions s).run.returned
  | some _ => some w

def start_routing (s : ρ) (answers : Answers) : Option (Server ρ) :=
  match (w.sessions s).route with
  | some (.requested request) =>
    (request.plan (w.user s) answers).map fun
      | none => w.modify s fun ss => { ss with route := none }
      | some plan =>
        visit s ⟨w.next_no, plan.message⟩ plan.receipts { w with next_no := w.next_no + 1 }
          plan.members
  | _ => none

/-- The `LPUSH` is done. -/
def lpush (item : Item) (member_id : UserId) : Server ρ :=
  { w with
    offline := Function.update w.offline member_id (.message item :: w.offline member_id)
    routed := w.routed ++ [(item, member_id)] }

def go_on_routing (s : ρ) : Option (Server ρ) :=
  match (w.sessions s).route with
  | some (.waiting item member_id rest receipts) =>
    some (visit s item receipts (w.lpush item member_id) rest)
  | _ => none

end Operations

/-- A posted closure is run: its frame is enqueued. When `enqueue` throws, the exception leaves
`io_context::run()` and the process ends, with all that the sessions have in memory. -/
def run_post (s : ρ) (p : Packet UserId Item) (rest : List (Packet UserId Item)) (w : Server ρ) :
    Server ρ :=
  if p.message?.all (w.sessions s).run.dumps then
    (w.modify s fun ss => { ss with posts := rest }).enqueue s p
  else { w with running := false }

/-- One step of the running process. Redis commands succeed, so a routing that waits for one is
not broken off. -/
def act (verify : Bytes → Option UserId) (w : Server ρ) : Label ρ → Option (Server ρ)
  | .resume s ev =>
    if (w.sessions s).sending = none ∧ ev.is_returned = false then
      w.resume verify s ev
    else none
  | .fan_out s answers => (w.start_routing s answers).bind fun w => w.settle verify s
  | .lpushed s => (w.go_on_routing s).bind fun w => w.settle verify s
  | .notify user_id => some (w.notify user_id)
  | .delete_message members => some (w.notify_all members)
  | .notice_lpushed k => (w.deletions[k]?).map fun (member_id, rest) =>
      (w.lpush_notice k member_id).notify_all rest
  | .run_post s =>
    match (w.sessions s).posts with
    | [] => none
    | p :: rest => some (w.run_post s p rest)
  | .start s => (w.sessions s).queue.start.map fun q => w.modify s fun ss => { ss with queue := q }
  | .written s => (w.sessions s).queue.written.map fun q => w.modify s fun ss =>
      { ss with queue := q, written := ss.written ++ ss.queue.in_flight.toList }
  | .failed s => (w.sessions s).queue.failed.map fun q => w.modify s fun ss =>
      { ss with queue := q, lost := ss.lost ++ ss.queue.in_flight.toList }
  | .destroy s =>
    let ss := w.sessions s
    if ss.alive ∧ ss.run.active = false ∧ ss.posts = [] ∧ ss.queue.do_write = none then
      some (w.modify s fun ss => { ss with alive := false })
    else none

def step (verify : Bytes → Option UserId) (w : Server ρ) (l : Label ρ) : Option (Server ρ) :=
  if w.running then w.act verify l else none

end Server

/-- The server with the connections `ρ` that are opened in the course of a run. A connection
that is not open yet is in the beginning of its `run()`. -/
def chat_server (verify : Bytes → Option UserId) (transport : ρ → Transport) :
    Machine (Server ρ) (Label ρ) where
  start :=
    { running := true
      sessions := fun s => .start (.start (transport s))
      registry := .empty
      offline := fun _ => []
      deletions := []
      next_no := 0
      routed := []
      puts := []
      receipts := [] }
  step := Server.step verify

end loomic.server
