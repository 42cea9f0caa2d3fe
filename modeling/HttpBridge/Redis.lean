/-
# The Redis clients

The three objects that keep something in Redis: the registry of sessions
(`session_store.cpp`), the audit trail (`audit_publisher.cpp`) and the revoked
tokens (`token_denylist.cpp`). Each has one connection of its own, `ctx_`, which
it makes when it needs it, frees on an error and frees at its end; a mutex lets
one call at a time have it.

The programs here are over the functions of hiredis (`HiredisOp`). A context and
a reply are objects of that library, which have an address and must be freed;
`ctx_->err` and what a reply holds are read through it. Below them is what a
Redis server does with a command (`Server.exec`), and the two together are the
interface that the programs run against (`hiredis`): a connection may fail at
any moment, before or after its command was executed, an error may be answered
to anything, and between two operations of one client the others and the clock
go on (`others`).

Key definitions: `ensureConnectedLocked`, `Call`, `lifetime`, `Server.exec`, `hiredis`.
-/
import HttpBridge.Interact.Wp
import HttpBridge.Stores
import HttpBridge.Strings
import Mathlib.Data.List.AList
import Mathlib.Logic.Relation

namespace HttpBridge
namespace Redis

open Interact

/-! ### hiredis -/

/-- The commands that are sent, each with the arguments that arrive. -/
inductive Command where
  | auth (password : String)
  | select (db : ℤ)
  | ping
  | exists (key : String)
  /-- `SET key 1 EX ttl`. -/
  | set (key : String) (ttl : ℤ)
  | zadd (key : String) (score : ℤ) (member : String)
  | zrem (key member : String)
  | xadd (stream : String) (maxlen : ℤ) (payload : String)
  deriving DecidableEq

/-- Commands that need a connection that has logged in. -/
def Command.isData : Command → Bool
  | .auth _ | .select _ => false
  | _ => true

inductive RedisReply where
  | integer (n : ℤ)
  | status
  | string (s : String)
  | error
  deriving DecidableEq

/-- The functions of hiredis, and the reads of what it points to. -/
inductive HiredisOp where
  | redisConnect (host : String) (port : ℤ)
  /-- `ctx->err`. -/
  | err (ctx : ℕ)
  | redisCommand (ctx : ℕ) (c : Command)
  /-- `reply->type` and what it holds. -/
  | read (reply : ℕ)
  | freeReplyObject (reply : ℕ)
  | redisFree (ctx : ℕ)

/-- What they return: an object by its address, or null. -/
abbrev HiredisOp.Ans : HiredisOp → Type
  | .redisConnect .. => Option ℕ
  | .err _ => Bool
  | .redisCommand .. => Option ℕ
  | .read _ => RedisReply
  | .freeReplyObject _ => Unit
  | .redisFree _ => Unit

abbrev Hiredis (α : Type) := Prog HiredisOp HiredisOp.Ans α

abbrev redisConnect (host : String) (port : ℤ) : Hiredis (Option ℕ) :=
  Prog.perform (HiredisOp.redisConnect host port)

abbrev err (ctx : ℕ) : Hiredis Bool := Prog.perform (HiredisOp.err ctx)

abbrev redisCommand (ctx : ℕ) (c : Command) : Hiredis (Option ℕ) :=
  Prog.perform (HiredisOp.redisCommand ctx c)

abbrev read (reply : ℕ) : Hiredis RedisReply := Prog.perform (HiredisOp.read reply)

abbrev freeReplyObject (reply : ℕ) : Hiredis Unit := Prog.perform (HiredisOp.freeReplyObject reply)

abbrev redisFree (ctx : ℕ) : Hiredis Unit := Prog.perform (HiredisOp.redisFree ctx)

/-! ### The connection -/

/-- What the three `Options` share. -/
structure Options where
  host : String := "localhost"
  port : ℤ := 6379
  password : String := ""
  db : ℤ := 0

section Connection

variable (o : Options)

/-- Free the connection; there is none then. -/
def drop (ctx : ℕ) : Hiredis (Option ℕ) := do
  redisFree ctx
  return none

/-- A command of the login: anything but an error will do. -/
def accepted (ctx : ℕ) (c : Command) : Hiredis Bool := do
  match ← redisCommand ctx c with
  | none => return false
  | some r =>
    let reply ← read r
    freeReplyObject r
    return reply ≠ .error

/-- A stage of the login, if it is needed. -/
def stage (needed : Bool) (ctx : ℕ) (c : Command) : Hiredis Bool :=
  if needed then accepted ctx c else return true

/-- The login of a connection that has just been made. -/
def logIn (ctx : ℕ) : Hiredis (Option ℕ) := do
  let authenticated ← stage (o.password != "") ctx (.auth (cString o.password))
  if !authenticated then drop ctx
  else
    let selected ← stage (o.db != 0) ctx (.select o.db)
    if !selected then drop ctx else return some ctx

/-- A new connection. -/
def dial : Hiredis (Option ℕ) := do
  match ← redisConnect (cString o.host) o.port with
  | none => return none
  | some ctx =>
    let bad ← err ctx
    if bad then drop ctx else logIn o ctx

/-- `ensureConnectedLocked`, with the `ctx_` that it leaves; it returns true where
there is one. -/
def ensureConnectedLocked : Option ℕ → Hiredis (Option ℕ)
  | none => dial o
  | some ctx => do
    let bad ← err ctx
    if bad then
      redisFree ctx
      dial o
    else return some ctx

/-- What `add`, `remove` and `publish` do with their command: an error that Redis
answers leaves the connection. -/
def write (ctx : Option ℕ) (c : Command) : Hiredis (Option ℕ × Bool) := do
  match ← ensureConnectedLocked o ctx with
  | none => return (none, false)
  | some ctx =>
    match ← redisCommand ctx c with
    | none =>
      redisFree ctx
      return (none, false)
    | some r =>
      let bad ← err ctx
      if bad then
        freeReplyObject r
        redisFree ctx
        return (none, false)
      else
        let reply ← read r
        freeReplyObject r
        return (some ctx, reply ≠ .error)

/-- What `healthy`, `redisLookup` and `redisStore` do with theirs: an error ends
the connection as well. -/
def ask {α : Type} (ctx : Option ℕ) (c : Command) (failed : α) (answer : RedisReply → α) :
    Hiredis (Option ℕ × α) := do
  match ← ensureConnectedLocked o ctx with
  | none => return (none, failed)
  | some ctx =>
    match ← redisCommand ctx c with
    | none =>
      redisFree ctx
      return (none, failed)
    | some r =>
      let bad ← err ctx
      if bad then
        freeReplyObject r
        redisFree ctx
        return (none, failed)
      else
        let reply ← read r
        freeReplyObject r
        if reply = .error then
          redisFree ctx
          return (none, failed)
        else return (some ctx, answer reply)

end Connection

/-! ### The calls -/

namespace SessionStore

structure Options extends Redis.Options where
  enabled : Bool := false
  keyPrefix : String := "webdav:session:"

variable (o : Options)

def key (tenant uid : String) : String := o.keyPrefix ++ tenant ++ ":" ++ uid

def add (ctx : Option ℕ) (tenant uid member : String) (scoreEpoch : ℤ) : Hiredis (Option ℕ × Bool) :=
  if !o.enabled then return (ctx, true)
  else write o.toOptions ctx (.zadd (cString (key o tenant uid)) scoreEpoch member)

def remove (ctx : Option ℕ) (tenant uid member : String) : Hiredis (Option ℕ × Bool) :=
  if !o.enabled then return (ctx, true)
  else write o.toOptions ctx (.zrem (cString (key o tenant uid)) member)

end SessionStore

namespace AuditPublisher

structure Options extends Redis.Options where
  stream : String := "fileengine:audit"
  streamMaxlen : ℤ := 1000000

variable (o : Options)

def publish (ctx : Option ℕ) (payload : String) : Hiredis (Option ℕ × Bool) :=
  write o.toOptions ctx (.xadd (cString o.stream) o.streamMaxlen payload)

def healthy (ctx : Option ℕ) : Hiredis (Option ℕ × Bool) := ask o.toOptions ctx .ping false fun _ => true

end AuditPublisher

namespace TokenDenylist

structure Options extends Redis.Options where
  keyPrefix : String := "auth:revoked:"

variable (o : Options)

def key (jti : String) : String := o.keyPrefix ++ jti

/-- What `EXISTS` is taken for. -/
def verdict : RedisReply → Revocation
  | .integer n => if 0 < n then .revoked else .allowed
  | _ => .allowed

def redisLookup (ctx : Option ℕ) (jti : String) : Hiredis (Option ℕ × Revocation) :=
  ask o.toOptions ctx (.exists (cString (key o jti))) .unknown verdict

def redisStore (ctx : Option ℕ) (jti : String) (ttlSeconds : ℤ) : Hiredis (Option ℕ × Bool) :=
  ask o.toOptions ctx (.set (cString (key o jti)) ttlSeconds) false fun _ => true

/-- `redisPing`, which does not look at `ctx_->err`. -/
def redisPing (ctx : Option ℕ) : Hiredis (Option ℕ × Bool) := do
  match ← ensureConnectedLocked o.toOptions ctx with
  | none => return (none, false)
  | some ctx =>
    match ← redisCommand ctx .ping with
    | none =>
      redisFree ctx
      return (none, false)
    | some r =>
      let reply ← read r
      freeReplyObject r
      if reply = .error then
        redisFree ctx
        return (none, false)
      else return (some ctx, true)

end TokenDenylist

/-- The objects of a deployment. -/
structure Deployment where
  sessions : SessionStore.Options
  audit : AuditPublisher.Options
  denylist : TokenDenylist.Options

inductive Client where
  | sessions
  | audit
  | denylist
  deriving DecidableEq

namespace Deployment

variable (D : Deployment)

def options : Client → Options
  | .sessions => D.sessions.toOptions
  | .audit => D.audit.toOptions
  | .denylist => D.denylist.toOptions

end Deployment

/-- The calls of an object. -/
inductive Call : Client → Type where
  | add (tenant uid member : String) (scoreEpoch : ℤ) : Call .sessions
  | remove (tenant uid member : String) : Call .sessions
  | publish (payload : String) : Call .audit
  | healthy : Call .audit
  | redisLookup (jti : String) : Call .denylist
  | redisStore (jti : String) (ttlSeconds : ℤ) : Call .denylist
  | redisPing : Call .denylist

namespace Call

variable {n : Client} (D : Deployment)

abbrev Ans : Call n → Type
  | .redisLookup _ => Revocation
  | _ => Bool

/-- The call, with the `ctx_` that it finds and leaves. -/
def perform (ctx : Option ℕ) : (call : Call n) → Hiredis (Option ℕ × call.Ans)
  | .add tenant uid member score => SessionStore.add D.sessions ctx tenant uid member score
  | .remove tenant uid member => SessionStore.remove D.sessions ctx tenant uid member
  | .publish payload => AuditPublisher.publish D.audit ctx payload
  | .healthy => AuditPublisher.healthy D.audit ctx
  | .redisLookup jti => TokenDenylist.redisLookup D.denylist ctx jti
  | .redisStore jti ttl => TokenDenylist.redisStore D.denylist ctx jti ttl
  | .redisPing => TokenDenylist.redisPing D.denylist ctx

/-- The command that the call is for. -/
def command : Call n → Command
  | .add tenant uid member score => .zadd (cString (SessionStore.key D.sessions tenant uid)) score member
  | .remove tenant uid member => .zrem (cString (SessionStore.key D.sessions tenant uid)) member
  | .publish payload => .xadd (cString D.audit.stream) D.audit.streamMaxlen payload
  | .healthy => .ping
  | .redisLookup jti => .exists (cString (TokenDenylist.key D.denylist jti))
  | .redisStore jti ttl => .set (cString (TokenDenylist.key D.denylist jti)) ttl
  | .redisPing => .ping

end Call

/-- An object from its construction to its end: its calls one after another, and
the destructor. -/
def lifetime {n : Client} (D : Deployment) (calls : List (Call n)) : Hiredis Unit := do
  let ctx ← calls.foldlM (fun ctx call => do
    let (ctx, _) ← call.perform D ctx
    return ctx) none
  match ctx with
  | none => return ()
  | some ctx =>
    redisFree ctx
    return ()

/-! ### The server -/

/-- What stands under a key. Of a stream it is what was ever appended: which of
the oldest entries are trimmed is the server's affair. -/
inductive Value where
  | string
  | sortedSet (members : AList fun _ : String => ℤ)
  | stream (entries : List String)

structure Entry where
  value : Value
  expiry : Option ℤ := none

/-- A Redis server: its clock and the keys of each of its databases. -/
structure Server where
  clock : ℤ := 0
  keys : ℤ → String → Option Entry := fun _ _ => none

namespace Server

variable (s : Server) (db : ℤ)

/-- What a command finds under a key: nothing once it has expired. -/
def find (key : String) : Option Entry :=
  (s.keys db key).filter fun e => e.expiry.all fun until_ => s.clock < until_

def put (key : String) (e : Option Entry) : Server :=
  { s with keys := Function.update s.keys db (Function.update (s.keys db) key e) }

/-- What a command does and answers. -/
def exec : Command → Server × RedisReply
  | .auth _ | .select _ | .ping => (s, .status)
  | .exists key => (s, .integer (if (s.find db key).isSome then 1 else 0))
  | .set key ttl =>
    if ttl ≤ 0 then (s, .error) else (s.put db key (some ⟨.string, some (s.clock + ttl)⟩), .status)
  | .zadd key score member =>
    match s.find db key with
    | none => (s.put db key (some ⟨.sortedSet ((∅ : AList _).insert member score), none⟩), .integer 1)
    | some ⟨.sortedSet members, expiry⟩ =>
      (s.put db key (some ⟨.sortedSet (members.insert member score), expiry⟩),
        .integer (if member ∈ members then 0 else 1))
    | some _ => (s, .error)
  | .zrem key member =>
    match s.find db key with
    | none => (s, .integer 0)
    | some ⟨.sortedSet members, expiry⟩ =>
      let left := members.erase member
      (s.put db key (if left.entries = [] then none else some ⟨.sortedSet left, expiry⟩),
        .integer (if member ∈ members then 1 else 0))
    | some _ => (s, .error)
  | .xadd key _ payload =>
    match s.find db key with
    | none => (s.put db key (some ⟨.stream [payload], none⟩), .string "")
    | some ⟨.stream entries, expiry⟩ =>
      (s.put db key (some ⟨.stream (entries ++ [payload]), expiry⟩), .string "")
    | some _ => (s, .error)

end Server

/-! ### The interface -/

/-- What a context stands for: how far it has logged in, and whether it has
failed. -/
structure Session where
  authenticated : Bool := false
  db : ℤ := 0
  err : Bool := false

/-- The connection has logged in as the object is told to. -/
def Session.Ready (o : Options) (session : Session) : Prop :=
  (o.password = "" ∨ session.authenticated = true) ∧ session.db = o.db

/-- What a command that is not refused does to the session. -/
def Session.after (session : Session) : Command → Session
  | .auth _ => { session with authenticated := true }
  | .select db => { session with db := db }
  | _ => session

/-- What an object has of hiredis, and the server. -/
structure Heap where
  ctxs : ℕ → Option Session := fun _ => none
  replies : ℕ → Option RedisReply := fun _ => none
  server : Server := {}

/-- What comes back of a command: nothing where the connection failed, before or
after it was executed; an error where the server refused it; or its answer. -/
inductive Transmits (session : Session) (c : Command) (s : Server) : Option RedisReply → Server → Prop
  | lost : Transmits session c s none s
  | unanswered : Transmits session c s none (s.exec session.db c).1
  | refused : Transmits session c s (some .error) s
  | answered : Transmits session c s (some (s.exec session.db c).2) (s.exec session.db c).1

/-- What an operation answers and leaves, at a server in the state `s`. A new
object is none of those that have not been freed yet, and null is only returned
for a context that has failed. -/
inductive Answers (m : Heap) (s : Server) : (op : HiredisOp) → op.Ans → Heap → Prop
  | noConnect (host : String) (port : ℤ) :
    Answers m s (.redisConnect host port) none { m with server := s }
  | connect (host : String) (port : ℤ) (ctx : ℕ) (bad : Bool) (hnew : m.ctxs ctx = none) :
    Answers m s (.redisConnect host port) (some ctx)
      { m with ctxs := Function.update m.ctxs ctx (some { err := bad }), server := s }
  | err (ctx : ℕ) (session : Session) (h : m.ctxs ctx = some session) :
    Answers m s (.err ctx) session.err { m with server := s }
  | noReply (ctx : ℕ) (c : Command) (session session' : Session) (s' : Server)
      (h : m.ctxs ctx = some session) (hsent : Transmits session c s none s') (herr : session'.err = true) :
    Answers m s (.redisCommand ctx c) none
      { m with ctxs := Function.update m.ctxs ctx (some session'), server := s' }
  | reply (ctx : ℕ) (c : Command) (session : Session) (reply : RedisReply) (s' : Server) (r : ℕ)
      (bad : Bool) (h : m.ctxs ctx = some session) (hsent : Transmits session c s (some reply) s')
      (hnew : m.replies r = none) :
    Answers m s (.redisCommand ctx c) (some r)
      { ctxs := Function.update m.ctxs ctx
          (some { (if reply = .error then session else session.after c) with err := bad })
        replies := Function.update m.replies r (some reply)
        server := s' }
  | read (r : ℕ) (reply : RedisReply) (h : m.replies r = some reply) :
    Answers m s (.read r) reply { m with server := s }
  | freeReplyObject (r : ℕ) :
    Answers m s (.freeReplyObject r) () { m with replies := Function.update m.replies r none, server := s }
  | redisFree (ctx : ℕ) :
    Answers m s (.redisFree ctx) () { m with ctxs := Function.update m.ctxs ctx none, server := s }

/-- What must not be done: to touch an object that is not there, and to send a
command over a connection that has not logged in. -/
def Allowed (o : Options) (m : Heap) : HiredisOp → Prop
  | .redisConnect .. => True
  | .err ctx | .redisFree ctx => (m.ctxs ctx).isSome = true
  | .redisCommand ctx c => ∃ session, m.ctxs ctx = some session ∧ (c.isData = true → session.Ready o)
  | .read r | .freeReplyObject r => (m.replies r).isSome = true

/-- hiredis and the server, for an object with these options. Before each
operation `others` do what they do. -/
def hiredis (o : Options) (others : Server → Server → Prop) : Interface HiredisOp HiredisOp.Ans Heap where
  allows := Allowed o
  answers m op a m' := ∃ s, Relation.ReflTransGen others m.server s ∧ Answers m s op a m'

end Redis
end HttpBridge
