/-
# The revocation store in Redis

`World` has a store of revocations that all instances consult, with one atomic
step for a lookup and one for a write. In a deployment it is kept in Redis, among
the keys of the registry of sessions and of the audit trail, and a lookup or a
write is a call of `TokenDenylist` with its connection, its login and its command
(`Redis.lean`), between any calls of all other objects.

The calls refine the steps: a call has one moment at which it answers what the
step answers there and changes what the step changes (`denylist_refines`). The
keys must be kept apart for that (`Separate`), as they are by the prefixes of the
source unless the audit stream is named like a revocation (`separate_of_stream`).

Key definitions: `revocations`, `OnlyRevocations`, `Separate`, `Refines`.
-/
import HttpBridge.RedisClients
import HttpBridge.World

namespace HttpBridge
namespace Redis

open Interact

/-- The text reaches Redis whole. -/
def Plain (s : String) : Prop := '\x00' ∉ s.toList

theorem cString_of_plain {s : String} (h : Plain s) : cString s = s := by
  have hall : s.toList.takeWhile (· ≠ '\x00') = s.toList :=
    List.takeWhile_eq_self_iff.mpr fun c hc => by
      have hne : c ≠ '\x00' := fun heq => h (heq ▸ hc)
      simpa using hne
  rw [cString, hall, String.ofList_toList]

theorem plain_append {s t : String} : Plain (s ++ t) ↔ Plain s ∧ Plain t := by
  simp [Plain, not_or]

section Deployment

variable (D : Deployment)

/-- Until when a revocation is kept. -/
def revocations (s : Server) (jti : String) : Option ℤ :=
  (s.keys D.denylist.db (TokenDenylist.key D.denylist jti)).bind Entry.expiry

/-- Whatever is kept under the prefix of the denylist expires, as a revocation
does. -/
def OnlyRevocations (s : Server) : Prop :=
  ∀ jti e, s.keys D.denylist.db (TokenDenylist.key D.denylist jti) = some e → e.expiry.isSome = true

/-- The keys of the other objects are none of the denylist's. -/
structure Separate : Prop where
  plain : Plain D.denylist.keyPrefix
  sessions : D.sessions.db = D.denylist.db → ∀ tenant uid jti,
    cString (SessionStore.key D.sessions tenant uid) ≠ TokenDenylist.key D.denylist jti
  stream : D.audit.db = D.denylist.db → ∀ jti, cString D.audit.stream ≠ TokenDenylist.key D.denylist jti

/-- What the deployment does to the server: its calls take effect, and time
passes. -/
inductive Acts : Server → Server → Prop where
  | tick (s : Server) (d : ℕ) : Acts s { s with clock := s.clock + d }
  | call {n : Client} (s : Server) (call : Call n) : Acts s (s.exec (D.options n).db (call.command D)).1

/-- The world whose store is the one in Redis. -/
def worldOf (s : Server) (w : World) : World := { w with clock := s.clock, store := revocations D s }

end Deployment

/-! ### Commands and keys -/

/-- The key that a command is about. -/
def Command.key? : Command → Option String
  | .exists key | .set key _ | .zadd key _ _ | .zrem key _ | .xadd key _ _ => some key
  | .auth _ | .select _ | .ping => none

namespace Server

variable {s : Server} {db db' : ℤ} {key key' : String}

theorem put_self (e : Option Entry) : (s.put db key e).keys db key = e := by simp [put]

theorem put_ne (e : Option Entry) (h : ¬ (db' = db ∧ key' = key)) :
    (s.put db key e).keys db' key' = s.keys db' key' := by
  unfold put
  by_cases hdb : db' = db
  · subst hdb
    have hkey : key' ≠ key := fun hkey => h ⟨rfl, hkey⟩
    simp [Function.update_of_ne hkey]
  · simp [Function.update_of_ne hdb]

/-- A command changes the entry of its key, or nothing. -/
theorem exec_cases (db : ℤ) (c : Command) :
    (s.exec db c).1 = s ∨ ∃ key e, c.key? = some key ∧ (s.exec db c).1 = s.put db key e := by
  cases c with
  | auth _ | select _ | ping | «exists» _ => exact .inl rfl
  | set key ttl =>
    show (if ttl ≤ 0 then _ else _ : Server × RedisReply).1 = s ∨ _
    by_cases httl : ttl ≤ 0
    · exact .inl (by rw [if_pos httl])
    · exact .inr ⟨key, _, rfl, by simp [exec, httl]; rfl⟩
  | zadd key score member | xadd key maxlen payload =>
    unfold exec
    dsimp only
    split
    · exact .inr ⟨key, _, rfl, rfl⟩
    · exact .inr ⟨key, _, rfl, rfl⟩
    · exact .inl rfl
  | zrem key member =>
    unfold exec
    dsimp only
    split
    · exact .inl rfl
    · exact .inr ⟨key, _, rfl, rfl⟩
    · exact .inl rfl

/-- A command leaves the other keys, and the other databases. -/
theorem exec_keys {c : Command} (h : db' = db → c.key? ≠ some key') :
    (s.exec db c).1.keys db' key' = s.keys db' key' := by
  rcases s.exec_cases db c with hsame | ⟨key, e, hkey, hput⟩
  · rw [hsame]
  · rw [hput]
    exact put_ne e fun heq => h heq.1 (heq.2 ▸ hkey)

/-- `SET` with a lifetime. -/
theorem exec_set {ttl : ℤ} (h : 0 < ttl) : (s.exec db (.set key ttl)) =
    (s.put db key (some ⟨.string, some (s.clock + ttl)⟩), .status) := by
  show (if ttl ≤ 0 then _ else _ : Server × RedisReply) = _
  rw [if_neg (by omega)]

end Server

section Refines

variable {D : Deployment} {s s' : Server} {w : World} {i : ℕ} {opts : DenylistOptions}

/-- Keys of the denylist are different for different tokens. -/
theorem key_injective {jti jti' : String}
    (h : TokenDenylist.key D.denylist jti = TokenDenylist.key D.denylist jti') : jti = jti' := by
  have hlist := congrArg String.toList h
  simp only [TokenDenylist.key, String.toList_append, List.append_cancel_left_eq] at hlist
  exact String.toList_inj.mp hlist

theorem cString_key (hsep : Separate D) {jti : String} (hjti : Plain jti) :
    cString (TokenDenylist.key D.denylist jti) = TokenDenylist.key D.denylist jti :=
  cString_of_plain (plain_append.mpr ⟨hsep.plain, hjti⟩)

/-- The commands of the other objects are not about revocations. -/
theorem command_ne {n : Client} (hsep : Separate D) (call : Call n) (hn : n ≠ .denylist)
    (hdb : D.denylist.db = (D.options n).db) (jti : String) :
    (call.command D).key? ≠ some (TokenDenylist.key D.denylist jti) := by
  cases call with
  | add tenant uid member score => simpa [Call.command, Command.key?] using hsep.sessions hdb.symm tenant uid jti
  | remove tenant uid member => simpa [Call.command, Command.key?] using hsep.sessions hdb.symm tenant uid jti
  | publish payload => simpa [Call.command, Command.key?] using hsep.stream hdb.symm jti
  | healthy => simp [Call.command, Command.key?]
  | redisLookup _ | redisStore _ _ | redisPing => exact absurd rfl hn

/-- What a command leaves under the prefix expires. -/
theorem OnlyRevocations.exec {n : Client} (honly : OnlyRevocations D s) (hsep : Separate D) (call : Call n) :
    OnlyRevocations D (s.exec (D.options n).db (call.command D)).1 := by
  intro jti e he
  by_cases hn : n = .denylist
  · subst hn
    cases call with
    | redisLookup _ | redisPing => exact honly jti e he
    | redisStore jti' ttl =>
      by_cases httl : 0 < ttl
      · rw [show Call.command D (.redisStore jti' ttl) = .set _ ttl from rfl, Server.exec_set httl] at he
        by_cases hkey : TokenDenylist.key D.denylist jti = cString (TokenDenylist.key D.denylist jti')
        · rw [← hkey, show (D.options .denylist).db = D.denylist.db from rfl, Server.put_self] at he
          cases he
          rfl
        · rw [Server.put_ne _ fun heq => hkey heq.2] at he
          exact honly jti e he
      · have hrefused : (s.exec (D.options .denylist).db (Call.command D (.redisStore jti' ttl))).1 = s := by
          show (if ttl ≤ 0 then _ else _ : Server × RedisReply).1 = s
          rw [if_pos (by omega)]
        rw [hrefused] at he
        exact honly jti e he
  · rw [Server.exec_keys fun hdb => command_ne hsep call hn hdb jti] at he
    exact honly jti e he

theorem OnlyRevocations.acts (hsep : Separate D) (honly : OnlyRevocations D s)
    (h : Meanwhile (Acts D) s s') : OnlyRevocations D s' := by
  induction h with
  | refl => exact honly
  | tail _ hact ih =>
    cases hact with
    | tick s d => exact ih
    | call s call => exact ih.exec hsep call

/-- The store holds a revocation where `EXISTS` finds a key. -/
theorem held_worldOf (honly : OnlyRevocations D s) (jti : String) :
    (worldOf D s w).held jti = (s.find D.denylist.db (TokenDenylist.key D.denylist jti)).isSome := by
  unfold World.held Server.find
  have hstore : (worldOf D s w).store jti =
      (s.keys D.denylist.db (TokenDenylist.key D.denylist jti)).bind Entry.expiry := rfl
  rw [hstore]
  cases hkey : s.keys D.denylist.db (TokenDenylist.key D.denylist jti) with
  | none => rfl
  | some e =>
    obtain ⟨until_, hexpiry⟩ := Option.isSome_iff_exists.mp (honly jti e hkey)
    have hclock : (worldOf D s w).clock = s.clock := rfl
    rw [Option.bind_some, hexpiry, hclock]
    by_cases hlive : s.clock < until_
    · simp [Option.filter, hexpiry, hlive]
    · simp [Option.filter, hexpiry, hlive]

/-- A write of a revocation changes the store as the world does. -/
theorem revocations_set (hsep : Separate D) {jti : String} (hjti : Plain jti) {ttl : ℤ} (httl : 0 < ttl) :
    revocations D (s.exec D.denylist.db (.set (cString (TokenDenylist.key D.denylist jti)) ttl)).1 =
      Function.update (revocations D s) jti (some (s.clock + ttl)) := by
  rw [cString_key hsep hjti, Server.exec_set httl]
  funext jti'
  unfold revocations
  by_cases h : jti' = jti
  · rw [h, Server.put_self, Function.update_self]
    rfl
  · rw [Server.put_ne _ fun heq => h (key_injective heq.2), Function.update_of_ne h]

/-- Weather in which the store answers so, and a write has landed or not. -/
def storeWeather (found : Revocation) (stored landed : Bool) : Weather where
  reply
    | .denylistLookup _ => found
    | .denylistStore .. => stored
    | op => Weather.fair.reply op
  landed := landed

/-- The operation of the world happens between two states of the server, in one
moment, and is answered `a`. -/
def Refines (D : Deployment) (opts : DenylistOptions) (i : ℕ) (w : World) (op : Op) (a : op.Ans)
    (s s' : Server) : Prop :=
  ∃ s₁ s₂ c, Meanwhile (Acts D) s s₁ ∧ Meanwhile (Acts D) s₂ s' ∧
    a = (worldOf D s₁ w).answer i op c ∧ worldOf D s₂ w = (worldOf D s₁ w).effect opts i op c

theorem lookup_refines (hsep : Separate D) {jti : String} (hjti : Plain jti) (honly : OnlyRevocations D s)
    {v : Revocation}
    (h : AtMostOnce (Acts D) D.denylist.db (.exists (cString (TokenDenylist.key D.denylist jti))) .unknown
      TokenDenylist.verdict s v s') :
    Refines D opts i w (.denylistLookup jti) v s s' := by
  obtain ⟨s₁, s₂, hs, hs', hmoment⟩ := h
  have hsame : s₂ = s₁ := by
    rcases hmoment with ⟨-, h | h⟩ | ⟨-, -, h⟩ <;> exact h
  subst hsame
  have hheld : (worldOf D s₂ w).held jti =
      (s₂.find D.denylist.db (TokenDenylist.key D.denylist jti)).isSome :=
    held_worldOf (honly.acts hsep hs) jti
  rw [cString_key hsep hjti] at hmoment
  rcases hmoment with ⟨hv, -⟩ | ⟨hv, -, -⟩
  · exact ⟨s₂, s₂, storeWeather .unknown false false, hs, hs', hv, rfl⟩
  · refine ⟨s₂, s₂, storeWeather .allowed false false, hs, hs', ?_, rfl⟩
    show v = (worldOf D s₂ w).lookup jti .allowed
    unfold World.lookup
    rw [hv, hheld, if_neg (by decide)]
    cases hfound : (s₂.find D.denylist.db (TokenDenylist.key D.denylist jti)).isSome with
    | false => simp [Server.exec, hfound, TokenDenylist.verdict]
    | true => simp [Server.exec, hfound, TokenDenylist.verdict]

theorem store_refines (hsep : Separate D) {jti : String} (hjti : Plain jti) {ttl : ℤ} (httl : 0 < ttl) {ok : Bool}
    (h : AtMostOnce (Acts D) D.denylist.db (.set (cString (TokenDenylist.key D.denylist jti)) ttl) false
      (fun _ => true) s ok s') :
    Refines D opts i w (.denylistStore jti ttl) ok s s' := by
  obtain ⟨s₁, s₂, hs, hs', hmoment⟩ := h
  have hlands : ∀ {ok landed : Bool}, (ok || landed) = true →
      worldOf D (s₁.exec D.denylist.db (.set (cString (TokenDenylist.key D.denylist jti)) ttl)).1 w =
        (worldOf D s₁ w).effect opts i (.denylistStore jti ttl) (storeWeather .allowed ok landed) := by
    intro ok landed hland
    have heffect : (worldOf D s₁ w).effect opts i (.denylistStore jti ttl) (storeWeather .allowed ok landed) =
        { worldOf D s₁ w with store := Function.update (revocations D s₁) jti (some (s₁.clock + ttl)) } :=
      if_pos hland
    rw [heffect, ← revocations_set hsep hjti httl]
    unfold worldOf
    rw [Server.exec_set httl]
    rfl
  rcases hmoment with ⟨hok, rfl | rfl⟩ | ⟨hok, -, rfl⟩
  · have hstays : (worldOf D s₂ w).effect opts i (.denylistStore jti ttl)
        (storeWeather .allowed false false) = worldOf D s₂ w := by simp [World.effect, storeWeather]
    exact ⟨s₂, s₂, storeWeather .allowed false false, hs, hs', hok, hstays.symm⟩
  · exact ⟨s₁, _, storeWeather .allowed false true, hs, hs', hok, hlands rfl⟩
  · exact ⟨s₁, _, storeWeather .allowed true false, hs, hs', hok, hlands rfl⟩

end Refines

/-- The prefixes of the source keep the keys apart, if the stream is not named
like a revocation. -/
theorem separate_of_stream {D : Deployment} (hsessions : D.sessions.keyPrefix = "webdav:session:")
    (hdenylist : D.denylist.keyPrefix = "auth:revoked:")
    (hstream : ¬ "auth:revoked:".toList <+: D.audit.stream.toList) : Separate D where
  plain := by
    rw [hdenylist]
    show '\x00' ∉ "auth:revoked:".toList
    decide
  sessions _ tenant uid jti h := by
    -- they begin with different letters
    have hhead := congrArg (fun s => s.toList.head?) h
    simp [cString, SessionStore.key, TokenDenylist.key, hsessions, hdenylist] at hhead
  stream _ jti h := by
    refine hstream ?_
    have hkey : "auth:revoked:".toList <+: (cString D.audit.stream).toList := by
      rw [h, TokenDenylist.key, hdenylist, String.toList_append]
      exact List.prefix_append _ _
    have hcut : (cString D.audit.stream).toList <+: D.audit.stream.toList := by
      rw [cString, String.toList_ofList]
      exact List.takeWhile_prefix _
    exact hkey.trans hcut

end Redis
end HttpBridge
