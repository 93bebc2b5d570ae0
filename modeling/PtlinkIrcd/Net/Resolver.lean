/-
**Queries under way.**

The request list of `res.c`: queries to the name servers, their replies and their timeouts. A query asks for the
name of an address, and then for the addresses of the name.

* `ResRQ`, `Resolver` — a request; the list, the cache and the times of the next checks.
* `query_name` — a query with an id that no request has; `resend_query`, `gethost_byname_type`,
  `gethost_byaddr`, `get_res`, `timeout_resolver`, `delete_resolver_queries` — the calls.
* `ResolverRun` — the calls in any order, with what was asked, answered and deleted.
* `ResolverMove` — what a call can do to the requests.
* `resolver_answers_once` — **every query that was asked is pending, answered or deleted, and that once**.
* `resolver_ids_apart` — **a reply concerns at most one request**.
* `resolver_returns` — **no call searches for an id without end, unless all ids are in use**.
-/

import PtlinkIrcd.Lib.Probing
import PtlinkIrcd.Net.DnsDecode
import PtlinkIrcd.Table.DnsCache
import Mathlib.Data.List.Perm.Basic
import Mathlib.Data.Fintype.Card
import Mathlib.Logic.Relation

namespace PtlinkIrcd

/-! ### Requests -/

def T_AAAA : Nat := 28
def NOERROR : Nat := 0
def SERVFAIL : Nat := 2

/-- `struct DNSQuery`: whom a query is for, and what is to be called. The number of the query is not in the code:
it tells apart the queries that were asked for the same. -/
structure DNSQuery where
  vptr : Nat
  callback : Nat
  number : Nat
deriving DecidableEq

/-- `struct reslist`. The list that it is in has no links of its own. -/
structure ResRQ where
  id : Nat
  sent : Nat
  ttl : Nat
  type : Nat
  retries : Int
  sends : Int8
  resend : Bool
  sentat : Int
  timeout : Int
  addr : InAddr
  name : Option Text
  query : DNSQuery
  he : Option HostBuf

/-- `struct sockaddr_in`. -/
structure SockAddrIn where
  sin_family : Nat
  sin_port : Nat
  sin_addr : InAddr
deriving DecidableEq

/-- `_res`, and what the library and the system do at the calls, which are numbered: the id in a query that
`res_mkquery` has made, the microseconds of the clock, and whether a message to a server was sent. -/
structure Nameservers where
  nsaddr_list : List SockAddrIn
  defnames : Bool
  defdname : Text
  res_mkquery : Nat → Text → Nat → Option Nat
  tv_usec : Nat → Nat
  sendto : Nat → Nat → Bool

/-- The resolver; `queries` counts the calls of `query_name`. -/
structure Resolver where
  requests : List ResRQ
  cache : DnsCache
  nextDNSCheck : Int
  nextCacheExpire : Int
  queries : Nat

/-- A call of a callback, with the entry of the cache that it gets. -/
abbrev DnsCallback := DNSQuery × Option CacheId

/-- A packet from somebody; `garbage` is what a new buffer holds. -/
structure Datagram where
  sin : SockAddrIn
  packet : DnsPacket
  garbage : Nat → Char

/-- The first and the last field of the header that are looked at; bytes are in the order of memory. -/
def DnsPacket.id (p : DnsPacket) : Nat := p.at_ 0 + 256 * p.at_ 1
def DnsPacket.rcode (p : DnsPacket) : Nat := p.at_ 3 % 16

namespace Resolver

def init : Resolver := ⟨[], .empty, 0, 1, 0⟩

section

variable (env : Nameservers) (s : Resolver)

def res_ourserver (ina : SockAddrIn) : Bool :=
  env.nsaddr_list.any fun srv => srv.sin_family = ina.sin_family && srv.sin_port = ina.sin_port &&
    (srv.sin_addr = 0 || srv.sin_addr = ina.sin_addr)

/-- `add_local_domain`, of a buffer of so many bytes. -/
def add_local_domain (hname : Text) (size : Nat) : Text :=
  if env.defnames ∧ '.' ∉ hname ∧ env.defdname ≠ [] ∧ env.defdname.length + hname.length + 2 < size then
    hname ++ '.' :: env.defdname
  else hname

def send_res_msg (call : Nat) (rcount : Int8) : Nat :=
  let max_queries := min (env.nsaddr_list.length : Int) rcount.toInt
  let max_queries := if max_queries = 0 then 1 else max_queries
  (List.range max_queries.toNat).countP (env.sendto call)

def find_id (id : Nat) : Option Nat := s.requests.findIdx? fun request => request.id = id

/-- `query_name`, for the request at a place. There is no result while all ids are in use. -/
def query_name (name : Text) (type i : Nat) : Option Resolver :=
  match env.res_mkquery s.queries name type with
  | none => some { s with queries := s.queries + 1 }
  | some id =>
    (Lib.findFree (fun id => (s.find_id id).isSome) (2 ^ 16) (env.tv_usec s.queries) (2 ^ 17) 0 id).map fun id =>
      { s with
        requests := s.requests.modify i fun request =>
          { request with
            id, sends := request.sends + 1
            sent := request.sent + send_res_msg env s.queries (request.sends + 1) }
        queries := s.queries + 1 }

/-- `do_query_name` of a request that is there, and its text for one that is not. -/
def hname (name : Text) : Text := add_local_domain env (name.take HOSTLEN) HOSTLEN

/-- `ipbuf`: the name under which an address is looked up. -/
def ipbuf (addr : InAddr) : Text :=
  let byte := fun i => printLu ((addr >>> (8 * i)).toNat % 256)
  byte 3 ++ '.' :: byte 2 ++ '.' :: byte 1 ++ '.' :: byte 0 ++ ".in-addr.arpa.".toList

/-- `resend_query`, of the request at a place. -/
def resend_query (i : Nat) : Option Resolver :=
  match s.requests[i]? with
  | none => some s
  | some request =>
    if request.resend = false then some s
    else if request.type = T_PTR then s.query_name env (ipbuf request.addr) T_PTR i
    else if request.type = T_A then s.query_name env (hname env (request.name.getD [])) request.type i
    else some s

/-- `make_request`, without the place in the list. -/
def make_request (CurrentTime : Int) (ReverseLookup : Int) (query : DNSQuery) : ResRQ where
  id := 0
  sent := 0
  ttl := 0
  type := 0
  retries := if ReverseLookup = 0 then 0 else if ReverseLookup = 1 then 2 else 3
  sends := 0
  resend := true
  sentat := CurrentTime
  timeout := if ReverseLookup = 0 then 0 else if ReverseLookup = 1 then 2 else 4
  addr := 0xffffffff
  name := none
  query := query
  he := none

def add_request (request : ResRQ) : Resolver := { s with requests := s.requests ++ [request] }

def rem_request (i : Nat) : Resolver := { s with requests := s.requests.eraseIdx i }

/-- `gethost_byname_type`: the entry of the cache, or a request. -/
def gethost_byname_type (CurrentTime ReverseLookup : Int) (name : Text) (query : DNSQuery) (type : Nat) :
    Option (Resolver × Option CacheId) :=
  match s.cache.find_cache_name name with
  | (cache, some cp) => some ({ s with cache }, some cp)
  | (cache, none) =>
    let hname := hname env name
    let s := { s with cache }.add_request
      { make_request CurrentTime ReverseLookup query with type, name := some hname }
    (s.query_name env hname type (s.requests.length - 1)).map fun s => ({ s with nextDNSCheck := 1 }, none)

def gethost_byname (CurrentTime ReverseLookup : Int) (name : Text) (query : DNSQuery) :
    Option (Resolver × Option CacheId) :=
  s.gethost_byname_type env CurrentTime ReverseLookup name query T_A

def gethost_byaddr (CurrentTime ReverseLookup : Int) (addr : InAddr) (query : DNSQuery) :
    Option (Resolver × Option CacheId) :=
  match s.cache.find_cache_number addr with
  | (cache, some cp) => some ({ s with cache }, some cp)
  | (cache, none) =>
    let s := { s with cache }.add_request
      { make_request CurrentTime ReverseLookup query with type := T_PTR, addr }
    (s.query_name env (ipbuf addr) T_PTR (s.requests.length - 1)).map fun s =>
      ({ s with nextDNSCheck := 1 }, none)

def answer (i : Nat) (request : ResRQ) (reply : Option CacheId) : Resolver × List DnsCallback :=
  (s.rem_request i, [(request.query, reply)])

/-- `get_res` with the records of a reply, which are in the request at a place. -/
def take_reply (CurrentTime ReverseLookup : Int) (i : Nat) (request : ResRQ) (view : HostView)
    (answer_count : Nat) : Option (Resolver × List DnsCallback) :=
  if answer_count ≠ 0 then
    if request.type = T_PTR then
      match view.name with
      | none => some (s.answer i request none)
      | some h_name =>
        (s.gethost_byname_type env CurrentTime ReverseLookup h_name request.query T_A).map fun
          | (s, none) =>
            -- the new request is the last one, and takes the names over
            ({ s with requests := s.requests.modify (s.requests.length - 1) fun last =>
                { last with he := request.he } }.rem_request i, [])
          | (s, some cp) => s.answer i request (some cp)
    else
      match s.cache.make_cache CurrentTime ⟨view.name, view.aliases, view.addrs⟩ request.ttl with
      | (cache, cp) => some ({ s with cache }.answer i request cp)
  else if request.sent = 0 then some (s.answer i request none)
  else some (s, [])

def get_res (lib : Resolv) (CurrentTime ReverseLookup : Int) (d : Datagram) :
    Option (Resolver × List DnsCallback) :=
  if d.packet.eob ≤ sizeof_HEADER then some (s, [])
  else
    match s.find_id d.packet.id with
    | none => some (s, [])
    | some i =>
      match s.requests[i]? with
      | none => some (s, [])
      | some request =>
        if res_ourserver env d.sin = false then some (s, [])
        else if d.packet.rcode ≠ NOERROR ∨ d.packet.ancount = 0 then
          if d.packet.rcode = SERVFAIL then (s.resend_query env i).map (·, [])
          else if request.type = T_AAAA then
            ({ s with requests := s.requests.set i { request with type := T_A } }.resend_query env i).map (·, [])
          else some (s.answer i request none)
        else
          match proc_answer lib d.packet d.garbage request.he request.ttl with
          | (answer_count, filling) =>
            let request := { request with he := some filling.he, ttl := filling.ttl }
            { s with requests := s.requests.set i request }.take_reply env CurrentTime ReverseLookup i request
              filling.he.view answer_count

/-- The loop of `timeout_query_list`, over so many requests from a place on. -/
def timeoutFrom (now : Int) : Nat → Nat → Int → Resolver → Option (Resolver × Int × List DnsCallback)
  | 0, _, next_time, s => some (s, next_time, [])
  | n + 1, i, next_time, s =>
    match s.requests[i]? with
    | none => some (s, next_time, [])
    | some request =>
      let timeout := request.sentat + request.timeout
      -- the time that counts is the one before the request was sent again
      let later := if next_time = 0 ∨ timeout < next_time then timeout else next_time
      if timeout ≤ now then
        if request.retries - 1 ≤ 0 then
          (timeoutFrom now n i next_time (s.rem_request i)).map fun (s, next_time, called) =>
            (s, next_time, (request.query, none) :: called)
        else do
          let s ← { s with
            requests := s.requests.set i
              { request with
                retries := request.retries - 1, sentat := now, timeout := request.timeout + request.timeout }
            }.resend_query env i
          timeoutFrom now n (i + 1) later s
      else timeoutFrom now n (i + 1) later s

def timeout_query_list (now : Int) : Option (Resolver × Int × List DnsCallback) :=
  (timeoutFrom env now s.requests.length 0 0 s).map fun (s, next_time, called) =>
    (s, if now < next_time then next_time else now + AR_TTL, called)

/-- `expire_cache`: the loop, over entries of the list. -/
def expireFrom (now : Int) : List CacheId → Int → DnsCache → DnsCache × Int
  | [], next, cache => (cache, next)
  | cp :: rest, next, cache =>
    let expireat := (cache.entry cp).expireat
    if expireat < now then expireFrom now rest next (cache.rem_cache now cp)
    else expireFrom now rest (if next = 0 ∨ expireat < next then expireat else next) cache

def expire_cache (now : Int) : Resolver × Int :=
  match expireFrom now s.cache.cacheTop 0 s.cache with
  | (cache, next) => ({ s with cache }, if now < next then next else now + AR_TTL)

/-- The halves of `timeout_resolver`. -/
def check_requests (now : Int) : Option (Resolver × List DnsCallback) :=
  if s.nextDNSCheck < now then
    (s.timeout_query_list env now).map fun (s, nextDNSCheck, called) => ({ s with nextDNSCheck }, called)
  else some (s, [])

def check_cache (now : Int) : Resolver :=
  if s.nextCacheExpire < now then { (s.expire_cache now).1 with nextCacheExpire := (s.expire_cache now).2 } else s

/-- `timeout_resolver`; the time that it returns is the earlier one of both that it keeps. -/
def timeout_resolver (now : Int) : Option (Resolver × List DnsCallback) :=
  (s.check_requests env now).map fun (s, called) => (s.check_cache now, called)

def delete_resolver_queries (vptr : Nat) : Resolver :=
  { s with requests := s.requests.filter fun request => vptr ≠ request.query.vptr }

end

end Resolver

/-! ### Runs -/

/-- A call of the resolver, or somebody who refers to an entry of the cache or does no more. -/
inductive ResolverEvent
  | gethost_byname (ReverseLookup : Int) (name : Text) (query : DNSQuery)
  | gethost_byaddr (ReverseLookup : Int) (addr : InAddr) (query : DNSQuery)
  | get_res (ReverseLookup : Int) (d : Datagram)
  | timeout_resolver
  | delete_resolver_queries (vptr : Nat)
  | refer (cp : CacheId) (ref_count : Int)

/-- The queries that were asked, with the time, in the order of their numbers; the callbacks that were called; the
queries that were deleted. -/
structure ResolverLog where
  asked : List (DNSQuery × Int)
  called : List DnsCallback
  deleted : List DNSQuery

def ResolverLog.call (log : ResolverLog) (called : List DnsCallback) : ResolverLog :=
  { log with called := log.called ++ called }

def ResolverLog.numbered (log : ResolverLog) (query : DNSQuery) : DNSQuery :=
  { query with number := log.asked.length }

/-- A query that the cache has no answer for. -/
def ResolverLog.ask (log : ResolverLog) (query : DNSQuery) (now : Int) : Option CacheId → ResolverLog
  | none => { log with asked := log.asked ++ [(query, now)] }
  | some _ => log

/-- What a call does, and what is noted of it. -/
def Resolver.step (lib : Resolv) (env : Nameservers) (now : Int) (s : Resolver) (log : ResolverLog) :
    ResolverEvent → Option (Resolver × ResolverLog)
  | .gethost_byname ReverseLookup name query =>
    let query := log.numbered query
    (s.gethost_byname env now ReverseLookup name query).map fun (s, reply) => (s, log.ask query now reply)
  | .gethost_byaddr ReverseLookup addr query =>
    let query := log.numbered query
    (s.gethost_byaddr env now ReverseLookup addr query).map fun (s, reply) => (s, log.ask query now reply)
  | .get_res ReverseLookup d =>
    (s.get_res env lib now ReverseLookup d).map fun (s, called) => (s, log.call called)
  | .timeout_resolver => (s.timeout_resolver env now).map fun (s, called) => (s, log.call called)
  | .delete_resolver_queries vptr =>
    some (s.delete_resolver_queries vptr,
      { log with
        deleted := log.deleted ++ (s.requests.filter fun request => vptr = request.query.vptr).map ResRQ.query })
  | .refer cp ref_count => some ({ s with cache := (s.cache.step (.refer cp ref_count)).1 }, log)

/-- When `timeout_resolver` was called last. -/
def ResolverEvent.checked (now last : Int) : ResolverEvent → Int
  | .timeout_resolver => now
  | _ => last

/-- **The calls in any order**, while the clock goes on; `timeout_resolver` is called every `often` seconds at
least, and was at the time `last`. -/
inductive ResolverRun (lib : Resolv) (env : Nameservers) (often : Nat) :
    Int → Int → Resolver → ResolverLog → Prop
  | start {now : Int} (epoch : 0 ≤ now) : ResolverRun lib env often now now .init ⟨[], [], []⟩
  | wait {now last later : Int} {s : Resolver} {log : ResolverLog} (run : ResolverRun lib env often now last s log)
    (passed : now ≤ later) (soon : later ≤ last + often) : ResolverRun lib env often later last s log
  | call {now last : Int} {s s' : Resolver} {log log' : ResolverLog}
    (run : ResolverRun lib env often now last s log) {event : ResolverEvent}
    (done : s.step lib env now log event = some (s', log')) :
    ResolverRun lib env often now (event.checked now last) s' log'

/-! ### What a call can do to the requests -/

/-- A request as it is made. -/
structure ResRQ.Made (now : Int) (request : ResRQ) : Prop where
  id : request.id = 0
  sentat : request.sentat = now
  patient : (request.retries, request.timeout) ∈ [((0 : Int), (0 : Int)), (2, 2), (3, 4)]

/-- A request that was sent, with an id that none had, or not. -/
def ResRQ.Sent (requests : List ResRQ) (r r' : ResRQ) : Prop :=
  r' = r ∨ ∃ id sends sent, (∀ x ∈ requests, x.id ≠ id) ∧ r' = { r with id, sends, sent }

/-- **What may become of the requests**, with what is noted of it. -/
inductive ResolverMove (now : Int) : List ResRQ × ResolverLog → List ResRQ × ResolverLog → Prop
  | send {l : List ResRQ} {log : ResolverLog} {i : Nat} {r r' : ResRQ} (here : l[i]? = some r)
    (sent : r.Sent l r') : ResolverMove now (l, log) (l.set i r', log)
  /-- What was received is kept, or another type of address is looked for. -/
  | keep {l : List ResRQ} {log : ResolverLog} {i : Nat} {r : ResRQ} (here : l[i]? = some r) (type ttl : Nat)
    (he : Option HostBuf) (kind : type = T_PTR ↔ r.type = T_PTR) :
    ResolverMove now (l, log) (l.set i { r with type, ttl, he }, log)
  | retry {l : List ResRQ} {log : ResolverLog} {i : Nat} {r : ResRQ} (here : l[i]? = some r)
    (due : r.sentat + r.timeout ≤ now) (more : 1 < r.retries) :
    ResolverMove now (l, log)
      (l.set i { r with retries := r.retries - 1, sentat := now, timeout := r.timeout + r.timeout }, log)
  | answer {l : List ResRQ} {log : ResolverLog} {i : Nat} {r : ResRQ} (here : l[i]? = some r)
    (reply : Option CacheId) : ResolverMove now (l, log) (l.eraseIdx i, log.call [(r.query, reply)])
  | delete {l : List ResRQ} (log : ResolverLog) (vptr : Nat) :
    ResolverMove now (l, log) (l.filter fun r => vptr ≠ r.query.vptr,
      { log with deleted := log.deleted ++ (l.filter fun r => vptr = r.query.vptr).map ResRQ.query })
  | ask {l : List ResRQ} (log : ResolverLog) {r : ResRQ} (made : r.Made now)
    (number : r.query.number = log.asked.length) : ResolverMove now (l, log) (l ++ [r], log.ask r.query now none)
  /-- The name of an address is looked up. -/
  | relook {l : List ResRQ} {log : ResolverLog} {i : Nat} {r new : ResRQ} (here : l[i]? = some r)
    (kind : r.type = T_PTR) (made : new.Made now) (other : new.type ≠ T_PTR) (same : new.query = r.query) :
    ResolverMove now (l, log) (l.eraseIdx i ++ [new], log)

abbrev ResolverMoves (now : Int) : List ResRQ × ResolverLog → List ResRQ × ResolverLog → Prop :=
  Relation.ReflTransGen (ResolverMove now)

theorem ResRQ.Sent.mono {l l' : List ResRQ} {r r' : ResRQ} (sent : r.Sent l r') (fewer : l' ⊆ l) : r.Sent l' r' := by
  obtain same | ⟨id, sends, count, free, same⟩ := sent
  · exact .inl same
  · exact .inr ⟨id, sends, count, fun x member => free x (fewer member), same⟩

namespace Resolver

section

variable {lib : Resolv} {env : Nameservers} {s s' : Resolver} {now ReverseLookup : Int} {i : Nat} {r : ResRQ}
  {log : ResolverLog}

theorem make_request_made (now ReverseLookup : Int) (query : DNSQuery) :
    (make_request now ReverseLookup query).Made now where
  id := rfl
  sentat := rfl
  patient := by
    unfold make_request
    by_cases off : ReverseLookup = 0
    · simp [off]
    · by_cases fast : ReverseLookup = 1 <;> simp [off, fast]

theorem find_id_none {id : Nat} (free : (s.find_id id).isSome = false) : ∀ x ∈ s.requests, x.id ≠ id := by
  have none_ : s.find_id id = none := by simpa using free
  intro x member same
  exact absurd (decide_eq_true same) (by simpa using List.findIdx?_eq_none_iff.mp none_ x member)

theorem query_name_sent {name : Text} {type : Nat} (here : s.requests[i]? = some r)
    (done : s.query_name env name type i = some s') :
    ∃ r', r.Sent s.requests r' ∧ s'.requests = s.requests.set i r' := by
  unfold query_name at done
  split at done
  · obtain rfl := Option.some.inj done
    obtain ⟨bound, rfl⟩ := List.getElem?_eq_some_iff.mp here
    exact ⟨_, .inl rfl, (List.set_getElem_self bound).symm⟩
  · obtain ⟨id, search, rfl⟩ := Option.map_eq_some_iff.mp done
    refine ⟨_, .inr ⟨id, r.sends + 1, r.sent + send_res_msg env s.queries (r.sends + 1),
      find_id_none (Lib.findFree_free search).1, rfl⟩, ?_⟩
    show s.requests.modify i _ = _
    rw [List.modify_eq_set_getElem?, here]
    rfl

theorem resend_query_sent (here : s.requests[i]? = some r) (done : s.resend_query env i = some s') :
    ∃ r', r.Sent s.requests r' ∧ s'.requests = s.requests.set i r' := by
  have same : s.requests = s.requests.set i r := by
    obtain ⟨bound, rfl⟩ := List.getElem?_eq_some_iff.mp here
    exact (List.set_getElem_self bound).symm
  unfold resend_query at done
  rw [here] at done
  dsimp only at done
  split at done
  · obtain rfl := Option.some.inj done
    exact ⟨r, .inl rfl, same⟩
  · split at done
    · exact query_name_sent here done
    · split at done
      · exact query_name_sent here done
      · obtain rfl := Option.some.inj done
        exact ⟨r, .inl rfl, same⟩

theorem set_last (l : List ResRQ) (r r' : ResRQ) : (l ++ [r]).set l.length r' = l ++ [r'] := by
  rw [List.set_append_right _ _ (Nat.le_refl _), Nat.sub_self, List.set_cons_zero]

/-- What a lookup leaves: nothing new if it is answered at once, or a new request behind the others. -/
structure LookedUp (now : Int) (query : DNSQuery) (type : Nat) (before after : List ResRQ)
    (reply : Option CacheId) : Prop where
  cached : reply ≠ none → after = before
  queued : reply = none → ∃ r r' : ResRQ, r.Made now ∧ r.query = query ∧ r.type = type ∧
    r.Sent (before ++ [r]) r' ∧ after = before ++ [r']

/-- A request behind the others that was sent. -/
theorem LookedUp.queue {name : Text} {query : DNSQuery} {r : ResRQ} {reply : Option CacheId} (made : r.Made now)
    (same : r.query = query)
    (done : ((s.add_request r).query_name env name r.type ((s.add_request r).requests.length - 1)).map
      (fun s => ({ s with nextDNSCheck := 1 }, none)) = some (s', reply)) :
    LookedUp now query r.type s.requests s'.requests reply := by
  obtain ⟨s₁, sent, same'⟩ := Option.map_eq_some_iff.mp done
  obtain ⟨rfl, rfl⟩ := Prod.mk.inj same'
  refine ⟨fun some_ => absurd rfl some_, fun _ => ?_⟩
  have last : (s.add_request r).requests.length - 1 = s.requests.length := by simp [add_request]
  rw [last] at sent
  have here : (s.add_request r).requests[s.requests.length]? = some r := List.getElem?_concat_length
  obtain ⟨r', became, after⟩ := query_name_sent here sent
  exact ⟨r, r', made, same, rfl, became, after.trans (set_last s.requests r r')⟩

theorem gethost_byname_type_looked {name : Text} {query : DNSQuery} {type : Nat} {reply : Option CacheId}
    (done : s.gethost_byname_type env now ReverseLookup name query type = some (s', reply)) :
    LookedUp now query type s.requests s'.requests reply := by
  unfold gethost_byname_type at done
  split at done
  · obtain ⟨rfl, rfl⟩ := Prod.mk.inj (Option.some.inj done)
    exact ⟨fun _ => rfl, fun none_ => absurd none_ (by simp)⟩
  · rename_i cache _
    exact LookedUp.queue (s := { s with cache })
      (r := { make_request now ReverseLookup query with type, name := some (hname env name) })
      ⟨rfl, rfl, (make_request_made now ReverseLookup query).patient⟩ rfl done

theorem gethost_byaddr_looked {addr : InAddr} {query : DNSQuery} {reply : Option CacheId}
    (done : s.gethost_byaddr env now ReverseLookup addr query = some (s', reply)) :
    LookedUp now query T_PTR s.requests s'.requests reply := by
  unfold gethost_byaddr at done
  split at done
  · obtain ⟨rfl, rfl⟩ := Prod.mk.inj (Option.some.inj done)
    exact ⟨fun _ => rfl, fun none_ => absurd none_ (by simp)⟩
  · rename_i cache _
    exact LookedUp.queue (s := { s with cache })
      (r := { make_request now ReverseLookup query with type := T_PTR, addr })
      ⟨rfl, rfl, (make_request_made now ReverseLookup query).patient⟩ rfl done

/-! ### The calls as moves -/

theorem LookedUp.moves {query : DNSQuery} {type : Nat} {before after : List ResRQ} {reply : Option CacheId}
    (looked : LookedUp now query type before after reply) (number : query.number = log.asked.length) :
    ResolverMoves now (before, log) (after, log.ask query now reply) := by
  cases reply with
  | some cp =>
    rw [looked.cached (by simp)]
    exact .refl
  | none =>
    obtain ⟨r, r', made, rfl, -, sent, rfl⟩ := looked.queued rfl
    have here : (before ++ [r])[before.length]? = some r := List.getElem?_concat_length
    have next : ResolverMove now _ (_, log.ask r.query now none) := .send here sent
    rw [set_last] at next
    exact .tail (.single (.ask log made number)) next

theorem resend_query_moves (here : s.requests[i]? = some r) (done : s.resend_query env i = some s') :
    ResolverMoves now (s.requests, log) (s'.requests, log) := by
  obtain ⟨r', sent, after⟩ := resend_query_sent here done
  rw [after]
  exact .single (.send here sent)

theorem rem_request_requests : (s.rem_request i).requests = s.requests.eraseIdx i := rfl

/-- **What is made of a reply.** -/
theorem take_reply_moves {view : HostView} {answer_count : Nat} {called : List DnsCallback}
    (here : s.requests[i]? = some r)
    (done : s.take_reply env now ReverseLookup i r view answer_count = some (s', called)) :
    ResolverMoves now (s.requests, log) (s'.requests, log.call called) := by
  have answered : ∀ {t : Resolver} {reply : Option CacheId}, t.requests = s.requests →
      t.answer i r reply = (s', called) → ResolverMoves now (s.requests, log) (s'.requests, log.call called) := by
    intro t reply same answer
    obtain ⟨rfl, rfl⟩ := Prod.mk.inj answer
    rw [rem_request_requests, same]
    exact .single (.answer here reply)
  have silent : log.call [] = log := by simp [ResolverLog.call]
  have bound : i < s.requests.length := (List.getElem?_eq_some_iff.mp here).1
  unfold take_reply at done
  split at done
  · split at done
    · rename_i ptr
      split at done
      · exact answered rfl (Option.some.inj done)
      · obtain ⟨⟨t, reply⟩, lookup, result⟩ := Option.map_eq_some_iff.mp done
        have looked := gethost_byname_type_looked lookup
        cases reply with
        | some cp => exact answered (looked.cached (by simp)) result
        | none =>
          obtain ⟨new, new', made, same, kind, sent, after⟩ := looked.queued rfl
          obtain ⟨rfl, rfl⟩ := Prod.mk.inj result
          -- the request goes, and the new one is sent and takes the names over
          have relook : ResolverMove now (s.requests, log) _ :=
            .relook here ptr made (by rw [kind]; decide) same
          have last : (s.requests.eraseIdx i ++ [new])[(s.requests.eraseIdx i).length]? = some new :=
            List.getElem?_concat_length
          have sending : ResolverMove now _ (_, log) := .send last (sent.mono fun x member => by
            rcases List.mem_append.mp member with old | here
            · exact List.mem_append_left _ (List.mem_of_mem_eraseIdx old)
            · exact List.mem_append_right _ here)
          rw [set_last] at sending
          have last' : (s.requests.eraseIdx i ++ [new'])[(s.requests.eraseIdx i).length]? = some new' :=
            List.getElem?_concat_length
          have keeping : ResolverMove now _ (_, log) := .keep last' new'.type new'.ttl r.he Iff.rfl
          rw [set_last] at keeping
          have result : ((t.requests.modify (t.requests.length - 1) fun last =>
              { last with he := r.he }).eraseIdx i) = s.requests.eraseIdx i ++ [{ new' with he := r.he }] := by
            rw [after, List.length_append, List.length_singleton, Nat.add_sub_cancel,
              List.modify_eq_set_getElem?, List.getElem?_concat_length]
            show ((s.requests ++ [new']).set _ _).eraseIdx i = _
            rw [set_last, List.eraseIdx_append_of_lt_length bound]
          rw [silent]
          show ResolverMoves now (s.requests, log) (_, log)
          rw [rem_request_requests, result]
          exact ((Relation.ReflTransGen.single relook).tail sending).tail keeping
    · split at done
      rename_i cache cp _
      exact answered (t := { s with cache }) rfl (Option.some.inj done)
  · split at done
    · exact answered rfl (Option.some.inj done)
    · obtain ⟨rfl, rfl⟩ := Prod.mk.inj (Option.some.inj done)
      rw [silent]

theorem call_nil : log.call [] = log := by simp [ResolverLog.call]

theorem call_call (first second : List DnsCallback) : (log.call first).call second = log.call (first ++ second) := by
  simp [ResolverLog.call]

/-- **A reply.** -/
theorem get_res_moves {d : Datagram} {called : List DnsCallback}
    (done : s.get_res env lib now ReverseLookup d = some (s', called)) :
    ResolverMoves now (s.requests, log) (s'.requests, log.call called) := by
  have nothing : some (s, []) = some (s', called) →
      ResolverMoves now (s.requests, log) (s'.requests, log.call called) := by
    intro same
    obtain ⟨rfl, rfl⟩ := Prod.mk.inj (Option.some.inj same)
    rw [call_nil]
  unfold get_res at done
  split at done
  · exact nothing done
  · split at done
    · exact nothing done
    · split at done
      · exact nothing done
      · rename_i i _ _ r here
        have bound : i < s.requests.length := (List.getElem?_eq_some_iff.mp here).1
        split at done
        · exact nothing done
        · split at done
          · split at done
            · obtain ⟨t, resent, same⟩ := Option.map_eq_some_iff.mp done
              obtain ⟨rfl, rfl⟩ := Prod.mk.inj same
              rw [call_nil]
              exact resend_query_moves here resent
            · split at done
              · rename_i aaaa
                obtain ⟨t, resent, same⟩ := Option.map_eq_some_iff.mp done
                obtain ⟨rfl, rfl⟩ := Prod.mk.inj same
                rw [call_nil]
                have kind : T_A = T_PTR ↔ r.type = T_PTR := by rw [aaaa]; decide
                have keeping : ResolverMove now _ (_, log) := .keep here T_A r.ttl r.he kind
                exact .trans (.single keeping) (resend_query_moves (List.getElem?_set_self bound) resent)
              · obtain ⟨rfl, rfl⟩ := Prod.mk.inj (Option.some.inj done)
                exact .single (.answer here none)
          · generalize proc_answer lib d.packet d.garbage r.he r.ttl = answered at done
            obtain ⟨answer_count, filling⟩ := answered
            have keeping : ResolverMove now _ (_, log) := .keep here r.type filling.ttl (some filling.he) Iff.rfl
            exact .trans (.single keeping) (take_reply_moves (List.getElem?_set_self bound) done)

/-- **The check of the timeouts.** -/
theorem timeoutFrom_moves {n : Nat} {next_time next : Int} {called : List DnsCallback}
    (done : timeoutFrom env now n i next_time s = some (s', next, called)) :
    ResolverMoves now (s.requests, log) (s'.requests, log.call called) := by
  induction n generalizing i next_time s log next called with
  | zero =>
    obtain ⟨rfl, same⟩ := Prod.mk.inj (Option.some.inj done)
    obtain ⟨-, rfl⟩ := Prod.mk.inj same
    rw [call_nil]
  | succ n ih =>
    unfold timeoutFrom at done
    split at done
    · obtain ⟨rfl, same⟩ := Prod.mk.inj (Option.some.inj done)
      obtain ⟨-, rfl⟩ := Prod.mk.inj same
      rw [call_nil]
    · rename_i r here
      have bound : i < s.requests.length := (List.getElem?_eq_some_iff.mp here).1
      dsimp only at done
      split at done
      · rename_i due
        split at done
        · obtain ⟨⟨t, next', called'⟩, rest, same⟩ := Option.map_eq_some_iff.mp done
          dsimp only at same
          obtain ⟨rfl, pair⟩ := Prod.mk.inj same
          obtain ⟨-, rfl⟩ := Prod.mk.inj pair
          have after : ResolverMoves now (_, log.call [(r.query, none)]) _ := ih rest
          rw [call_call] at after
          exact .trans (.single (.answer here none)) after
        · rename_i more
          obtain ⟨t, resent, rest⟩ := Option.bind_eq_some_iff.mp done
          have again : ResolverMove now _ (_, log) := .retry here due (by omega)
          exact .trans (.single again)
            (.trans (resend_query_moves (List.getElem?_set_self bound) resent) (ih rest))
      · exact ih done

theorem check_cache_kept (s : Resolver) (now : Int) :
    (s.check_cache now).requests = s.requests ∧ (s.check_cache now).nextDNSCheck = s.nextDNSCheck := by
  have expired : (s.expire_cache now).1.requests = s.requests ∧
      (s.expire_cache now).1.nextDNSCheck = s.nextDNSCheck := by
    unfold expire_cache
    split
    exact ⟨rfl, rfl⟩
  unfold check_cache
  split
  · exact expired
  · exact ⟨rfl, rfl⟩

/-- What `timeout_resolver` leaves of the requests is what the check of the timeouts leaves, if it is time. -/
theorem timeout_resolver_requests {called : List DnsCallback}
    (done : s.timeout_resolver env now = some (s', called)) :
    (now ≤ s.nextDNSCheck ∧ s'.requests = s.requests ∧ s'.nextDNSCheck = s.nextDNSCheck ∧ called = []) ∨
      ∃ t, s.timeout_query_list env now = some (t, s'.nextDNSCheck, called) ∧ s'.requests = t.requests := by
  obtain ⟨⟨t, called'⟩, check, same⟩ := Option.map_eq_some_iff.mp done
  obtain ⟨rfl, rfl⟩ := Prod.mk.inj same
  obtain ⟨requests, time⟩ := t.check_cache_kept now
  unfold check_requests at check
  split at check
  · obtain ⟨⟨u, next, called'⟩, list, same⟩ := Option.map_eq_some_iff.mp check
    obtain ⟨rfl, rfl⟩ := Prod.mk.inj same
    exact .inr ⟨u, by rw [list, time], requests⟩
  · rename_i early
    obtain ⟨rfl, rfl⟩ := Prod.mk.inj (Option.some.inj check)
    exact .inl ⟨Int.not_lt.mp early, requests, time, rfl⟩

theorem timeout_query_list_loop {next : Int} {called : List DnsCallback}
    (done : s.timeout_query_list env now = some (s', next, called)) :
    ∃ next_time, timeoutFrom env now s.requests.length 0 0 s = some (s', next_time, called) ∧
      next = if now < next_time then next_time else now + AR_TTL := by
  obtain ⟨⟨t, next_time, called'⟩, loop, same⟩ := Option.map_eq_some_iff.mp done
  dsimp only at same
  obtain ⟨rfl, pair⟩ := Prod.mk.inj same
  obtain ⟨rfl, rfl⟩ := Prod.mk.inj pair
  exact ⟨next_time, loop, rfl⟩

/-- **Every call is a number of moves.** -/
theorem step_moves {event : ResolverEvent} {log' : ResolverLog}
    (done : s.step lib env now log event = some (s', log')) : ResolverMoves now (s.requests, log) (s'.requests, log') := by
  cases event with
  | gethost_byname ReverseLookup name query =>
    obtain ⟨⟨t, reply⟩, lookup, same⟩ := Option.map_eq_some_iff.mp done
    obtain ⟨rfl, rfl⟩ := Prod.mk.inj same
    exact (gethost_byname_type_looked lookup).moves rfl
  | gethost_byaddr ReverseLookup addr query =>
    obtain ⟨⟨t, reply⟩, lookup, same⟩ := Option.map_eq_some_iff.mp done
    obtain ⟨rfl, rfl⟩ := Prod.mk.inj same
    exact (gethost_byaddr_looked lookup).moves rfl
  | get_res ReverseLookup d =>
    obtain ⟨⟨t, called⟩, reply, same⟩ := Option.map_eq_some_iff.mp done
    obtain ⟨rfl, rfl⟩ := Prod.mk.inj same
    exact get_res_moves reply
  | timeout_resolver =>
    obtain ⟨⟨t, called⟩, check, same⟩ := Option.map_eq_some_iff.mp done
    obtain ⟨rfl, rfl⟩ := Prod.mk.inj same
    obtain ⟨-, kept, -, rfl⟩ | ⟨u, list, kept⟩ := timeout_resolver_requests check
    · rw [kept, call_nil]
    · obtain ⟨next_time, loop, -⟩ := timeout_query_list_loop list
      rw [kept]
      exact timeoutFrom_moves loop
  | delete_resolver_queries vptr =>
    obtain ⟨rfl, rfl⟩ := Prod.mk.inj (Option.some.inj done)
    exact .single (.delete log vptr)
  | refer cp ref_count =>
    obtain ⟨rfl, rfl⟩ := Prod.mk.inj (Option.some.inj done)
    exact .refl

end

end Resolver

/-! ### Once -/

/-- **Every query is pending, answered or deleted as often as it was asked.** -/
def QueriesAccounted (state : List ResRQ × ResolverLog) : Prop :=
  ∀ query : DNSQuery, (state.2.asked.map Prod.fst).count query =
    (state.1.map ResRQ.query).count query + (state.2.called.map Prod.fst).count query +
      state.2.deleted.count query

/-- No two requests have an id, but those that could not be sent have the id zero. -/
def IdsApart (requests : List ResRQ) : Prop := requests.Pairwise fun a b => a.id = b.id → a.id = 0

section

variable {now : Int} {l : List ResRQ} {log : ResolverLog} {i : Nat} {r r' : ResRQ}

theorem ResRQ.Sent.query (sent : r.Sent l r') : r'.query = r.query := by
  obtain rfl | ⟨id, sends, count, -, rfl⟩ := sent <;> rfl

theorem map_query_set (here : l[i]? = some r) (same : r'.query = r.query) :
    (l.set i r').map ResRQ.query = l.map ResRQ.query := by
  obtain ⟨bound, rfl⟩ := List.getElem?_eq_some_iff.mp here
  rw [List.map_set, same, ← List.getElem_map ResRQ.query (h := by simpa using bound), List.set_getElem_self]

theorem count_eraseIdx (here : l[i]? = some r) (query : DNSQuery) :
    (l.map ResRQ.query).count query = ((l.eraseIdx i).map ResRQ.query).count query + [r.query].count query := by
  obtain ⟨bound, rfl⟩ := List.getElem?_eq_some_iff.mp here
  have perm := (List.getElem_cons_eraseIdx_perm bound).map ResRQ.query
  rw [← perm.count_eq, List.map_cons, ← List.singleton_append, List.count_append, Nat.add_comm]

theorem QueriesAccounted.set (accounted : QueriesAccounted (l, log)) (here : l[i]? = some r)
    (same : r'.query = r.query) : QueriesAccounted (l.set i r', log) := by
  intro query
  show _ = ((l.set i r').map ResRQ.query).count query + _ + _
  rw [map_query_set here same]
  exact accounted query

theorem QueriesAccounted.move {state state' : List ResRQ × ResolverLog} (accounted : QueriesAccounted state)
    (move : ResolverMove now state state') : QueriesAccounted state' := by
  cases move with
  | send here sent => exact accounted.set here sent.query
  | keep here type ttl he kind => exact accounted.set here rfl
  | retry here due more => exact accounted.set here rfl
  | answer here reply =>
    intro query
    have before := accounted query
    have gone := count_eraseIdx here query
    simp only [ResolverLog.call, List.map_append, List.map_cons, List.map_nil, List.count_append] at before ⊢
    omega
  | @delete l log vptr =>
    intro query
    have before := accounted query
    have parts : ∀ l : List ResRQ, (l.map ResRQ.query).count query =
        ((l.filter fun r => vptr ≠ r.query.vptr).map ResRQ.query).count query +
          ((l.filter fun r => vptr = r.query.vptr).map ResRQ.query).count query := by
      intro l
      induction l with
      | nil => rfl
      | cons r l ih =>
        by_cases mine : vptr = r.query.vptr <;> simp [mine, List.count_cons, ih] <;> omega
    have split := parts l
    simp only [List.count_append] at before ⊢
    omega
  | ask log made number =>
    intro query
    have before := accounted query
    simp only [ResolverLog.ask, List.map_append, List.map_cons, List.map_nil, List.count_append] at before ⊢
    omega
  | relook here kind made other same =>
    intro query
    have before := accounted query
    have gone := count_eraseIdx here query
    simp only [List.map_append, List.map_cons, List.map_nil, List.count_append, same] at before ⊢
    omega

theorem id_symm (a b : ResRQ) (apart : a.id = b.id → a.id = 0) : b.id = a.id → b.id = 0 := fun same =>
  same.trans (apart same.symm)

theorem IdsApart.set (apart : IdsApart l) (here : l[i]? = some r)
    (new : r'.id = r.id ∨ ∀ x ∈ l, x.id ≠ r'.id) : IdsApart (l.set i r') := by
  obtain ⟨bound, rfl⟩ := List.getElem?_eq_some_iff.mp here
  have old := ((List.getElem_cons_eraseIdx_perm bound).pairwise_iff (fun {a b} => id_symm a b)).mpr apart
  refine ((List.set_perm_cons_eraseIdx bound r').pairwise_iff (fun {a b} => id_symm a b)).mpr ?_
  obtain ⟨others, rest⟩ := List.pairwise_cons.mp old
  refine List.pairwise_cons.mpr ⟨fun x member same => ?_, rest⟩
  obtain kept | free := new
  · exact kept.trans (others x member (kept.symm.trans same))
  · exact absurd same.symm (free x (List.mem_of_mem_eraseIdx member))

theorem IdsApart.concat (apart : IdsApart l) (zero : r.id = 0) : IdsApart (l ++ [r]) := by
  refine List.pairwise_append.mpr ⟨apart, List.pairwise_singleton _ _, fun x _ y last same => ?_⟩
  rw [List.mem_singleton.mp last] at same
  exact same.trans zero

theorem IdsApart.move {state state' : List ResRQ × ResolverLog} (apart : IdsApart state.1)
    (move : ResolverMove now state state') : IdsApart state'.1 := by
  cases move with
  | send here sent =>
    obtain rfl | ⟨id, sends, count, free, rfl⟩ := sent
    · exact apart.set here (.inl rfl)
    · exact apart.set here (.inr free)
  | keep here type ttl he kind => exact apart.set here (.inl rfl)
  | retry here due more => exact apart.set here (.inl rfl)
  | answer here reply => exact apart.sublist (List.eraseIdx_sublist _ _)
  | delete log vptr => exact apart.sublist List.filter_sublist
  | ask log made number => exact apart.concat made.id
  | relook here kind made other same => exact IdsApart.concat (apart.sublist (List.eraseIdx_sublist _ _)) made.id

theorem ResolverMoves.keep {P : List ResRQ × ResolverLog → Prop} {state state' : List ResRQ × ResolverLog}
    (moves : ResolverMoves now state state')
    (step : ∀ {state state'}, P state → ResolverMove now state state' → P state') (start : P state) : P state' := by
  induction moves with
  | refl => exact start
  | tail _ move ih => exact step ih move

end

/-! ### The search of an id -/

namespace Resolver

section

variable {lib : Resolv} {env : Nameservers} {s : Resolver} {now ReverseLookup : Int} {i : Nat} {log : ResolverLog}

theorem exists_free_id (few : s.requests.length < 2 ^ 16) : ∃ id < 2 ^ 16, (s.find_id id).isSome = false := by
  by_contra none_
  have taken : List.range (2 ^ 16) ⊆ s.requests.map ResRQ.id := by
    intro id small
    have found : (s.find_id id).isSome = true := by
      by_contra free
      exact none_ ⟨id, List.mem_range.mp small, Bool.eq_false_iff.mpr free⟩
    have some_ := List.findIdx?_isSome.symm.trans found
    obtain ⟨r, member, same⟩ := List.any_eq_true.mp some_
    exact List.mem_map.mpr ⟨r, member, of_decide_eq_true same⟩
  have long := (List.subperm_of_subset List.nodup_range taken).length_le
  rw [List.length_range, List.length_map] at long
  omega

theorem query_name_isSome (few : s.requests.length < 2 ^ 16) (name : Text) (type i : Nat) :
    (s.query_name env name type i).isSome = true := by
  unfold query_name
  split
  · rfl
  · obtain ⟨free, small, unused⟩ := exists_free_id few
    rw [Option.isSome_map]
    exact Lib.findFree_isSome _ small unused

theorem resend_query_isSome (env : Nameservers) (few : s.requests.length < 2 ^ 16) (i : Nat) :
    (s.resend_query env i).isSome = true := by
  unfold resend_query
  split
  · rfl
  · split
    · rfl
    · split
      · exact query_name_isSome few ..
      · split
        · exact query_name_isSome few ..
        · rfl

theorem length_add_request {r : ResRQ} : (s.add_request r).requests.length = s.requests.length + 1 :=
  List.length_append

theorem gethost_byname_type_isSome (few : s.requests.length + 1 < 2 ^ 16) (name : Text) (query : DNSQuery)
    (type : Nat) : (s.gethost_byname_type env now ReverseLookup name query type).isSome = true := by
  unfold gethost_byname_type
  split
  · rfl
  · rw [Option.isSome_map]
    exact query_name_isSome (by rwa [length_add_request]) ..

theorem gethost_byaddr_isSome (few : s.requests.length + 1 < 2 ^ 16) (addr : InAddr) (query : DNSQuery) :
    (s.gethost_byaddr env now ReverseLookup addr query).isSome = true := by
  unfold gethost_byaddr
  split
  · rfl
  · rw [Option.isSome_map]
    exact query_name_isSome (by rwa [length_add_request]) ..

theorem take_reply_isSome (few : s.requests.length + 1 < 2 ^ 16) (i : Nat) (r : ResRQ) (view : HostView)
    (answer_count : Nat) : (s.take_reply env now ReverseLookup i r view answer_count).isSome = true := by
  unfold take_reply
  split
  · split
    · split
      · rfl
      · rw [Option.isSome_map]
        exact gethost_byname_type_isSome few ..
    · split
      rfl
  · split <;> rfl

theorem get_res_isSome (few : s.requests.length + 1 < 2 ^ 16) (d : Datagram) :
    (s.get_res env lib now ReverseLookup d).isSome = true := by
  unfold get_res
  split
  · rfl
  · split
    · rfl
    · split
      · rfl
      · split
        · rfl
        · split
          · split
            · rw [Option.isSome_map]
              exact resend_query_isSome env (by omega) _
            · split
              · rw [Option.isSome_map]
                exact resend_query_isSome env (by rw [List.length_set]; omega) _
              · rfl
          · exact take_reply_isSome (by rwa [List.length_set]) ..

theorem timeoutFrom_isSome (few : s.requests.length < 2 ^ 16) (n i : Nat) (next_time : Int) :
    (timeoutFrom env now n i next_time s).isSome = true := by
  induction n generalizing i next_time s with
  | zero => rfl
  | succ n ih =>
    unfold timeoutFrom
    split
    · rfl
    · rename_i r here
      have bound : i < s.requests.length := (List.getElem?_eq_some_iff.mp here).1
      dsimp only
      split
      · split
        · rw [Option.isSome_map]
          exact ih (by rw [rem_request_requests, List.length_eraseIdx_of_lt bound]; omega) ..
        · have room : ({ s with requests := s.requests.set i { r with
              retries := r.retries - 1, sentat := now, timeout := r.timeout + r.timeout } } :
                Resolver).requests.length < 2 ^ 16 := by rwa [List.length_set]
          obtain ⟨t, resent⟩ := Option.isSome_iff_exists.mp (resend_query_isSome env room i)
          obtain ⟨r', -, after⟩ := resend_query_sent (List.getElem?_set_self bound) resent
          rw [resent]
          exact ih (by rwa [after, List.length_set, List.length_set]) ..
      · exact ih few ..

end

end Resolver

section

variable {lib : Resolv} {env : Nameservers} {often : Nat} {now last : Int} {s : Resolver} {log : ResolverLog}

/-- **Every query is answered once.** In every run of lookups, replies, timeouts and deletions, a query that was
asked and not answered by the cache is as often pending, answered by its callback or deleted as it was asked. -/
theorem resolver_answers_once (run : ResolverRun lib env often now last s log) (query : DNSQuery) :
    (log.asked.map Prod.fst).count query = (s.requests.map ResRQ.query).count query +
      (log.called.map Prod.fst).count query + log.deleted.count query := by
  have accounted : QueriesAccounted (s.requests, log) := by
    induction run with
    | start _ => exact fun _ => rfl
    | wait _ _ _ ih => exact ih
    | call _ done ih => exact (Resolver.step_moves done).keep (fun kept move => kept.move move) ih
  exact accounted query

theorem ResolverRun.next (run : ResolverRun lib env often now last s log) (event : ResolverEvent)
    (some_ : (s.step lib env now log event).isSome = true) :
    ResolverRun lib env often now (event.checked now last) ((s.step lib env now log event).get some_).1
      ((s.step lib env now log event).get some_).2 :=
  run.call (Option.some_get some_).symm

/-- A server; `res_mkquery` has the same id for every query. -/
def sampleServer : SockAddrIn := ⟨2, 53, 0x0100007f⟩
def sampleServers : Nameservers :=
  ⟨[sampleServer], false, [], fun _ _ _ => some 7, fun _ => 0, fun _ _ => true⟩

/-- The reply to the query with the id 8: the name of the address is b. -/
def sampleName : DnsPacket :=
  let p := samplePacket 1 [1, 97, 0, 0, 12, 0, 1, 0, 0, 0, 60, 0, 3, 1, 98, 0] (by decide)
  { p with byte := fun i => if i = 0 then 8 else p.byte i }

/-- The query of a name, and that of an address. -/
def nameQuery : DNSQuery := ⟨1, 0, 0⟩
def addrQuery : DNSQuery := ⟨2, 0, 1⟩

/-- **A name and an address are looked up**, under ids that would be the same; the name of the address comes, and is
looked up, too; then the timeouts of both have passed, and they are sent again. -/
theorem sample_sent : ∃ (s : Resolver) (log : ResolverLog), ResolverRun sampleResolv sampleServers 5 5 5 s log ∧
    s.requests.map ResRQ.id = [8, 7] ∧ s.requests.map ResRQ.type = [T_A, T_A] ∧
    s.requests.map ResRQ.retries = [2, 2] ∧ s.requests.map ResRQ.query = [nameQuery, addrQuery] ∧
    log.asked = [(nameQuery, 0), (addrQuery, 0)] := by
  have start : ResolverRun sampleResolv sampleServers 5 0 0 .init ⟨[], [], []⟩ := .start (Int.le_refl 0)
  have asked := (start.next (.gethost_byname 2 ['a'] nameQuery) (by decide +kernel)).next
    (.gethost_byaddr 2 0x0100007f addrQuery) (by decide +kernel)
  have named := (asked.wait (show (0 : Int) ≤ 1 by decide) (by decide)).next
    (.get_res 2 ⟨sampleServer, sampleName, fun _ => NUL⟩) (by decide +kernel)
  have again := (named.wait (show (1 : Int) ≤ 5 by decide) (by decide)).next .timeout_resolver (by decide +kernel)
  exact ⟨_, _, again, by decide +kernel, by decide +kernel, by decide +kernel, by decide +kernel, by decide +kernel⟩

/-- The query of the address is pending, answered or deleted. -/
theorem resolver_answers_once_sent : ∃ (s : Resolver) (log : ResolverLog),
    s.requests.map ResRQ.query = [nameQuery, addrQuery] ∧
    1 = (s.requests.map ResRQ.query).count addrQuery + (log.called.map Prod.fst).count addrQuery +
      log.deleted.count addrQuery := by
  obtain ⟨s, log, run, -, -, -, queries, asked⟩ := sample_sent
  refine ⟨s, log, queries, ?_⟩
  rw [← resolver_answers_once run addrQuery, asked]
  decide

/-- **A reply concerns at most one request.** -/
theorem resolver_ids_apart (run : ResolverRun lib env often now last s log) {id : Nat} (known : id ≠ 0) :
    s.requests.countP (fun request => request.id = id) ≤ 1 := by
  have apart : IdsApart s.requests := by
    induction run with
    | start _ => exact .nil
    | wait _ _ _ ih => exact ih
    | call _ done ih =>
      exact (Resolver.step_moves done).keep (P := fun state => IdsApart state.1) (fun kept move => kept.move move) ih
  clear run
  generalize s.requests = l at apart
  induction l with
  | nil => exact Nat.zero_le _
  | cons r l ih =>
    obtain ⟨others, rest⟩ := List.pairwise_cons.mp apart
    rw [List.countP_cons]
    by_cases here : r.id = id
    · have none_ : l.countP (fun request => request.id = id) = 0 := List.countP_eq_zero.mpr fun x member => by
        simp only [decide_eq_true_eq]
        exact fun same => known (here.symm.trans (others x member (here.trans same.symm)))
      rw [none_, decide_eq_true here]
      exact Nat.le_refl _
    · rw [decide_eq_false here]
      exact ih rest

/-- A reply with the id 7. -/
theorem resolver_ids_apart_sent : ∃ s : Resolver, s.requests.map ResRQ.id = [8, 7] ∧
    s.requests.countP (fun request => request.id = 7) ≤ 1 := by
  obtain ⟨s, log, run, ids, -⟩ := sample_sent
  exact ⟨s, ids, resolver_ids_apart run (by decide)⟩

/-- **No call searches for an id without end**: with fewer than 65535 requests every call returns. -/
theorem resolver_returns (lib : Resolv) (env : Nameservers) (now : Int) {s : Resolver}
    (few : s.requests.length < 65535) (log : ResolverLog) (event : ResolverEvent) :
    (s.step lib env now log event).isSome = true := by
  have room : s.requests.length + 1 < 2 ^ 16 := by omega
  cases event with
  | gethost_byname ReverseLookup name query =>
    exact Option.isSome_map.trans (Resolver.gethost_byname_type_isSome room name (log.numbered query) T_A)
  | gethost_byaddr ReverseLookup addr query =>
    exact Option.isSome_map.trans (Resolver.gethost_byaddr_isSome room addr (log.numbered query))
  | get_res ReverseLookup d => exact Option.isSome_map.trans (Resolver.get_res_isSome room d)
  | timeout_resolver =>
    refine Option.isSome_map.trans (Option.isSome_map.trans ?_)
    unfold Resolver.check_requests
    split
    · exact Option.isSome_map.trans (Option.isSome_map.trans (Resolver.timeoutFrom_isSome (by omega) ..))
    · rfl
  | delete_resolver_queries vptr => rfl
  | refer cp ref_count => rfl

/-- A third query, whose id would be that of the second one. -/
theorem resolver_returns_third : ∃ (s : Resolver) (log : ResolverLog), s.requests.map ResRQ.id = [8, 7] ∧
    (s.step sampleResolv sampleServers 5 log (.gethost_byname 2 ['c'] ⟨3, 0, 2⟩)).isSome = true := by
  obtain ⟨s, log, run, ids, -⟩ := sample_sent
  have few : s.requests.length = 2 := (List.length_map _).symm.trans (congrArg List.length ids)
  exact ⟨s, log, ids, resolver_returns sampleResolv sampleServers 5 (by rw [few]; decide) log _⟩

end

end PtlinkIrcd
