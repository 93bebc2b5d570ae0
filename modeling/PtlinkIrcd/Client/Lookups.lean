/-
**The lookups of a new connection.**

`s_auth.c` with the loop of `s_bsd.c` over its descriptors: a connection waits for its ident reply and
for its name, in whichever order they come, and is released when both are there or the time is up.
A step has no result where the code would use a request that is freed, unlink one from a list that it
is not on, or fail an assertion.

* `start_auth`, `auth_dns_callback`, `auth_error`, `read_auth_reply`, `timeout_auth_queries` — the
  functions; `Reachable` — the states after any of them, in any order.
* `Waiting` — the invariant: the two lists hold the requests of the connections not yet released.
* `Waiting.settle`, `Waiting.amend`, `Waiting.move`, `Waiting.enter` — what may happen to a request.
* `lookups_lifecycle` — **every connection is released at most once, its request is on the list of its
  state until then, and no step goes wrong**.
-/

import Mathlib.Data.List.Infix
import Mathlib.Data.List.Perm.Subperm
import PtlinkIrcd.Conf.IpTree
import PtlinkIrcd.Lib.LinkedLists
import PtlinkIrcd.Model.Flags
import PtlinkIrcd.Model.State

namespace PtlinkIrcd

namespace Lookups

/-! ### The state -/

def AM_AUTH_CONNECTING : Flags := 1
def AM_AUTH_PENDING : Flags := 2
def AM_DNS_PENDING : Flags := 4

def CONNECTTIMEOUT : Int := 30

/-- What a client is told while it waits. -/
inductive ReportType
  | REPORT_DO_DNS
  | REPORT_FIN_DNS
  | REPORT_FIN_DNSC
  | REPORT_FAIL_DNS
  | REPORT_DO_ID
  | REPORT_FIN_ID
  | REPORT_FAIL_ID
  | REPORT_IP_MISMATCH
  | REPORT_HOST_TOOLONG
  | REPORT_NO_DNS

/-- `struct hostent`. -/
structure HostEnt where
  h_name : Text
  h_addr_list : List Address

/-- A client that is not released yet, and what it was told. -/
structure NewClient where
  ip : Address
  sockhost : Text
  host : Text
  username : Text
  dns_reply : Option HostEnt
  gotId : Bool
  since : Int
  told : List ReportType

/-- `struct AuthRequest`, less its pointers. -/
structure AuthRequest where
  client : ClientId
  flags : Flags
  fd : Int
  timeout : Int

namespace AuthRequest

def IsDNSPending (auth : AuthRequest) : Bool := auth.flags.has AM_DNS_PENDING

def IsDoingAuth (auth : AuthRequest) : Bool :=
  auth.flags.has (AM_AUTH_PENDING ||| AM_AUTH_CONNECTING)

def SetDNSPending (auth : AuthRequest) : AuthRequest :=
  { auth with flags := auth.flags.change true AM_DNS_PENDING }

def ClearDNSPending (auth : AuthRequest) : AuthRequest :=
  { auth with flags := auth.flags.change false AM_DNS_PENDING }

def SetAuthConnect (auth : AuthRequest) : AuthRequest :=
  { auth with flags := auth.flags.change true AM_AUTH_CONNECTING }

def SetAuthPending (auth : AuthRequest) : AuthRequest :=
  { auth with flags := auth.flags.change true AM_AUTH_PENDING }

def ClearAuthConnect (auth : AuthRequest) : AuthRequest :=
  { auth with flags := auth.flags.change false AM_AUTH_CONNECTING }

def ClearAuth (auth : AuthRequest) : AuthRequest :=
  { auth with flags := auth.flags.change false (AM_AUTH_PENDING ||| AM_AUTH_CONNECTING) }

end AuthRequest

abbrev RequestId := Nat

inductive AuthList
  | AuthPollList
  | AuthIncompleteList
deriving DecidableEq

/-- The requests that are allocated, the pointers of the two lists, the clients by the numbers of their
connections, those released, and the requests that the resolver has a query for. -/
structure AuthState where
  requests : RequestId → Option AuthRequest
  links : Lib.Links RequestId AuthList
  clients : ClientId → NewClient
  accepted : Nat
  released : List ClientId
  queries : List RequestId

/-- What the functions read of the configuration. -/
structure AuthConf where
  ReverseLookup : Bool
  CheckIdentd : Bool
  HideConnectInfo : Bool
  MAXCONNECTIONS : Nat

namespace AuthState

variable (s : AuthState)

/-- A list, walked from its head. No list is longer than there were connections. -/
def list (k : AuthList) : Option (List RequestId) :=
  Lib.Links.walk s.links.next s.accepted (s.links.head k)

def live (auth : RequestId) : Bool := (s.requests auth).isSome

def put (auth : RequestId) (request : AuthRequest) : AuthState :=
  { s with requests := Function.update s.requests auth (some request) }

def amend (client : ClientId) (change : NewClient → NewClient) : AuthState :=
  { s with clients := Function.update s.clients client (change (s.clients client)) }

/-- `if(!HideConnectInfo) sendheader(client, report)`. -/
def sendheader (conf : AuthConf) (client : ClientId) (report : ReportType) : AuthState :=
  s.amend client fun c => if conf.HideConnectInfo then c else { c with told := c.told ++ [report] }

end AuthState

/-! ### The functions -/

def unlinked (request : RequestId) (list : AuthList) (links : Lib.Links RequestId AuthList) :
    Lib.Links RequestId AuthList :=
  let links :=
    match links.next request with
    | some n => { links with prev := Function.update links.prev n (links.prev request) }
    | none => links
  match links.prev request with
  | some p => { links with next := Function.update links.next p (links.next request) }
  | none => { links with head := Function.update links.head list (links.next request) }

/-- `unlink_auth_request`, of a request on the list. -/
def unlink_auth_request (request : RequestId) (list : AuthList) (s : AuthState) : Option AuthState :=
  if s.live request ∧ (s.links.next request).all s.live ∧ (s.links.prev request).all s.live ∧
      (s.list list).any (·.contains request) then
    some { s with links := unlinked request list s.links }
  else none

def link_auth_request (request : RequestId) (list : AuthList) (s : AuthState) : Option AuthState :=
  if s.live request ∧ (s.links.head list).all s.live then
    some { s with links := s.links.push list request }
  else none

def release_auth_client (client : ClientId) (s : AuthState) : AuthState :=
  { s with released := s.released ++ [client] }

def free_auth_request (request : RequestId) (s : AuthState) : Option AuthState :=
  if s.live request then some { s with requests := Function.update s.requests request none } else none

def delete_resolver_queries (vptr : RequestId) (s : AuthState) : AuthState :=
  { s with queries := s.queries.filter (· ≠ vptr) }

/-- What `auth_dns_callback` makes of the reply. -/
def takeReply (conf : AuthConf) (client : ClientId) (reply : Option HostEnt) (s : AuthState) :
    AuthState :=
  match reply with
  | some hp =>
    if (s.clients client).ip ∈ hp.h_addr_list then
      (s.amend client fun c => { c with dns_reply := some hp, host := hp.h_name.take HOSTLEN }).sendheader
        conf client .REPORT_FIN_DNS
    else s.sendheader conf client .REPORT_IP_MISMATCH
  | none =>
    (s.amend client fun c => { c with host := c.sockhost }).sendheader conf client .REPORT_FAIL_DNS

def auth_dns_callback (conf : AuthConf) (vptr : RequestId) (reply : Option HostEnt) (s : AuthState) :
    Option AuthState := do
  let auth := (← s.requests vptr).ClearDNSPending
  let s := takeReply conf auth.client reply (s.put vptr auth)
  let s := s.amend auth.client fun c => { c with host := c.host.take HOSTLEN }
  if !auth.IsDoingAuth then
    let s ← unlink_auth_request vptr .AuthIncompleteList (release_auth_client auth.client s)
    free_auth_request vptr s
  else some s

/-- The end of `auth_error` and of `read_auth_reply`. -/
def identDone (request : RequestId) (s : AuthState) : Option AuthState := do
  let s ← unlink_auth_request request .AuthPollList s
  let auth ← s.requests request
  if auth.IsDNSPending then link_auth_request request .AuthIncompleteList s
  else free_auth_request request (release_auth_client auth.client s)

def auth_error (conf : AuthConf) (request : RequestId) (s : AuthState) : Option AuthState := do
  let auth ← s.requests request
  let s := s.put request { auth with fd := -1 }.ClearAuth
  identDone request (s.sendheader conf auth.client .REPORT_FAIL_ID)

/-- What becomes of the write to an ident server. -/
inductive Written
  | all
  | again
  | failed

def send_auth_query (conf : AuthConf) (request : RequestId) (written : Written) (s : AuthState) :
    Option AuthState := do
  let auth ← s.requests request
  match written with
  | .all => some (s.put request auth.ClearAuthConnect.SetAuthPending)
  | .again => some s
  | .failed => auth_error conf request s

/-- What is before the first such character of a text, and what is behind it. -/
def cut (c : Char) (t : Text) : Option (Text × Text) :=
  if c ∈ t then some (t.takeWhile (· ≠ c), (t.dropWhile (· ≠ c)).tail) else none

def GetValidIdent (buf : Text) : Option Text := do
  let (remotePort, colon1) ← cut ':' buf
  let (colon1, colon2) ← cut ':' colon1
  let (remotePort, comma) ← cut ',' remotePort
  if atoi remotePort = 0 ∨ atoi comma = 0 then none
  else if ¬ "USERID".toList <:+: colon1 then none
  else
    let (_, colon3) ← cut ':' colon2
    some colon3

/-- The part of an ident reply that becomes the user name. -/
def identName : Nat → Text → Text
  | _, [] => []
  | 0, _ => []
  | count + 1, s :: rest =>
    if s = '@' then []
    else if !isSpace s && s ≠ ':' then s :: identName count rest
    else identName (count + 1) rest

/-- What comes from an ident server. -/
inductive Received
  | text (buf : Text)
  | closed
  | again
  | failed

def read_auth_reply (conf : AuthConf) (request : RequestId) (received : Received) (s : AuthState) :
    Option AuthState := do
  let auth ← s.requests request
  let ident :=
    match received with
    | .text buf => GetValidIdent buf
    | _ => none
  match received with
  | .again => some s
  | _ =>
    let s := s.put request { auth with fd := -1 }.ClearAuth
    let s :=
      match ident with
      | none => s.amend auth.client fun c => { c with username := "unknown".toList }
      | some name =>
        (s.amend auth.client fun c =>
          { c with username := identName USERLEN name, gotId := true }).sendheader conf auth.client
            .REPORT_FIN_ID
    identDone request s

/-- What the system answers to an attempt to reach an ident server: a descriptor, whether it could be
set up, and whether the connection is under way. -/
structure Attempt where
  socket : Option Nat
  bound : Bool
  connecting : Bool

/-- `start_auth_query`, and whether it succeeds. -/
def start_auth_query (conf : AuthConf) (request : RequestId) (attempt : Attempt) (s : AuthState) :
    Option (AuthState × Bool) := do
  let auth ← s.requests request
  match attempt.socket with
  | none => some (s, false)
  | some fd =>
    if conf.MAXCONNECTIONS - 10 < fd then some (s, false)
    else
      let s := s.sendheader conf auth.client .REPORT_DO_ID
      if !attempt.bound then some (s, false)
      else if !attempt.connecting then some (s.sendheader conf auth.client .REPORT_FAIL_ID, false)
      else some (s.put request { auth with fd := fd }.SetAuthConnect, true)

/-- A call of `start_auth`: the client, the address for its request, what the resolver has cached. -/
structure Accepted where
  client : NewClient
  request : RequestId
  cached : Option HostEnt
  attempt : Attempt

/-- How `start_auth` begins with the name: it is cached, asked for, or not wanted. -/
def start_dns (conf : AuthConf) (a : Accepted) (auth : AuthRequest) (s : AuthState) : AuthState :=
  if conf.ReverseLookup then
    let s := s.sendheader conf auth.client .REPORT_DO_DNS
    match a.cached with
    | some hp =>
      (s.amend auth.client fun c =>
        { c with dns_reply := some hp, host := hp.h_name.take HOSTLEN }).sendheader conf auth.client
          .REPORT_FIN_DNSC
    | none => { s.put a.request auth.SetDNSPending with queries := a.request :: s.queries }
  else s.sendheader conf auth.client .REPORT_NO_DNS

/-- `CheckIdentd && start_auth_query(auth)`. -/
def start_ident (conf : AuthConf) (a : Accepted) (s : AuthState) : Option (AuthState × Bool) :=
  if conf.CheckIdentd then start_auth_query conf a.request a.attempt s else some (s, false)

def start_auth (conf : AuthConf) (now : Int) (a : Accepted) (s : AuthState) : Option AuthState := do
  let client := s.accepted
  let auth : AuthRequest := ⟨client, 0, -1, now + CONNECTTIMEOUT⟩
  let s := { s with
    clients := Function.update s.clients client a.client
    accepted := s.accepted + 1 }
  if conf.ReverseLookup || conf.CheckIdentd then
    let s := start_dns conf a auth (s.put a.request auth)
    let (s, started) ← start_ident conf a s
    if started then link_auth_request a.request .AuthPollList s
    else
      let auth ← s.requests a.request
      if auth.IsDNSPending then link_auth_request a.request .AuthIncompleteList s
      else
        let s ← free_auth_request a.request s
        some (release_auth_client client s)
  else some (release_auth_client client (s.sendheader conf client .REPORT_NO_DNS))

/-- `for (auth = list; auth; auth = auth_next) { auth_next = auth->next; ... }`. -/
def forEach (body : RequestId → AuthState → Option AuthState) :
    Nat → Option RequestId → AuthState → Option AuthState
  | _, none, s => some s
  | 0, some _, _ => none
  | fuel + 1, some auth, s =>
    if s.live auth then
      let auth_next := s.links.next auth
      (body auth s).bind (forEach body fuel auth_next)
    else none

/-- The end of the two loops of `timeout_auth_queries`. -/
def giveUp (now : Int) (request : RequestId) (client : ClientId) (list : AuthList) (s : AuthState) :
    Option AuthState := do
  let s := s.amend client fun c => { c with since := now }
  let s ← unlink_auth_request request list (release_auth_client client s)
  free_auth_request request s

def timeoutPoll (conf : AuthConf) (CurrentTime now : Int) (request : RequestId) (s : AuthState) :
    Option AuthState := do
  let auth ← s.requests request
  if auth.timeout < CurrentTime then
    let s := s.sendheader conf auth.client .REPORT_FAIL_ID
    let s :=
      if auth.IsDNSPending then
        (delete_resolver_queries request s).sendheader conf auth.client .REPORT_FAIL_DNS
      else s
    giveUp now request auth.client .AuthPollList s
  else some s

def timeoutIncomplete (conf : AuthConf) (CurrentTime now : Int) (request : RequestId) (s : AuthState) :
    Option AuthState := do
  let auth ← s.requests request
  if auth.timeout < CurrentTime then
    let s := (delete_resolver_queries request s).sendheader conf auth.client .REPORT_FAIL_DNS
    giveUp now request auth.client .AuthIncompleteList s
  else some s

def timeout_auth_queries (conf : AuthConf) (CurrentTime now : Int) (s : AuthState) :
    Option AuthState := do
  let s ← forEach (timeoutPoll conf CurrentTime now) s.accepted (s.links.head .AuthPollList) s
  forEach (timeoutIncomplete conf CurrentTime now) s.accepted (s.links.head .AuthIncompleteList) s

/-- What `select` or `poll` finds about a descriptor that is ready. -/
structure Ready where
  written : Written
  received : Received

/-- The body of the loop of `read_message` over the auth descriptors. -/
def checkAuth (conf : AuthConf) (ready : RequestId → Option Ready) (request : RequestId)
    (s : AuthState) : Option AuthState := do
  let auth ← s.requests request
  if auth.fd < 0 then none  -- `assert(-1 < auth->fd)`
  else
    match ready request with
    | none => some s
    | some io =>
      if auth.flags.has AM_AUTH_CONNECTING then send_auth_query conf request io.written s
      else read_auth_reply conf request io.received s

def read_message (conf : AuthConf) (ready : RequestId → Option Ready) (s : AuthState) :
    Option AuthState :=
  forEach (checkAuth conf ready) s.accepted (s.links.head .AuthPollList) s

/-! ### The runs -/

/-- What may happen. -/
inductive Event
  | accepted (now : Int) (a : Accepted)
  | resolved (vptr : RequestId) (reply : Option HostEnt)
  | polled (ready : RequestId → Option Ready)
  | timeout (CurrentTime now : Int)

/-- An allocated address is not given out again, and a callback belongs to a pending query. -/
def Event.Possible (s : AuthState) : Event → Prop
  | .accepted _ a => s.requests a.request = none
  | .resolved vptr _ => vptr ∈ s.queries
  | _ => True

/-- What an event does. A query is over when its callback is called. -/
def step (conf : AuthConf) (s : AuthState) : Event → Option AuthState
  | .accepted now a => start_auth conf now a s
  | .resolved vptr reply => auth_dns_callback conf vptr reply { s with queries := s.queries.erase vptr }
  | .polled ready => read_message conf ready s
  | .timeout CurrentTime now => timeout_auth_queries conf CurrentTime now s

def initial (clients : ClientId → NewClient) : AuthState :=
  ⟨fun _ => none, Lib.Links.clear, clients, 0, [], []⟩

/-- The states that any events, in any order, lead to. The configuration may change between them. -/
inductive Reachable : AuthState → Prop
  | initial (clients : ClientId → NewClient) : Reachable (initial clients)
  | step {s s' : AuthState} {conf : AuthConf} {e : Event} :
      Reachable s → e.Possible s → Lookups.step conf s e = some s' → Reachable s'

/-! ### The flags -/

namespace AuthRequest

variable (auth : AuthRequest)

@[simp] theorem ClearDNSPending_IsDNSPending : auth.ClearDNSPending.IsDNSPending = false :=
  Flags.change_has_self (by decide) auth.flags false

@[simp] theorem ClearDNSPending_IsDoingAuth :
    auth.ClearDNSPending.IsDoingAuth = auth.IsDoingAuth :=
  Flags.change_has_of_disjoint (by decide) auth.flags false

@[simp] theorem SetDNSPending_IsDNSPending : auth.SetDNSPending.IsDNSPending = true :=
  Flags.change_has_self (by decide) auth.flags true

@[simp] theorem SetDNSPending_IsDoingAuth : auth.SetDNSPending.IsDoingAuth = auth.IsDoingAuth :=
  Flags.change_has_of_disjoint (by decide) auth.flags true

@[simp] theorem SetAuthConnect_IsDNSPending : auth.SetAuthConnect.IsDNSPending = auth.IsDNSPending :=
  Flags.change_has_of_disjoint (by decide) auth.flags true

@[simp] theorem SetAuthConnect_IsDoingAuth : auth.SetAuthConnect.IsDoingAuth = true := by
  unfold IsDoingAuth SetAuthConnect
  rw [Flags.has_or, Flags.change_has_self (by decide), Bool.or_true]

@[simp] theorem SetAuthPending_IsDNSPending : auth.SetAuthPending.IsDNSPending = auth.IsDNSPending :=
  Flags.change_has_of_disjoint (by decide) auth.flags true

@[simp] theorem SetAuthPending_IsDoingAuth : auth.SetAuthPending.IsDoingAuth = true := by
  unfold IsDoingAuth SetAuthPending
  rw [Flags.has_or, Flags.change_has_self (by decide), Bool.true_or]

@[simp] theorem ClearAuthConnect_IsDNSPending :
    auth.ClearAuthConnect.IsDNSPending = auth.IsDNSPending :=
  Flags.change_has_of_disjoint (by decide) auth.flags false

@[simp] theorem ClearAuth_IsDNSPending : auth.ClearAuth.IsDNSPending = auth.IsDNSPending :=
  Flags.change_has_of_disjoint (by decide) auth.flags false

@[simp] theorem ClearAuth_IsDoingAuth : auth.ClearAuth.IsDoingAuth = false :=
  Flags.change_has_self (by decide) auth.flags false

def list : AuthList := if auth.IsDoingAuth then .AuthPollList else .AuthIncompleteList

/-- A request waits for something, and has a descriptor as long as it waits for an ident reply. -/
structure Sound : Prop where
  waits : auth.IsDoingAuth = true ∨ auth.IsDNSPending = true
  fd : 0 ≤ auth.fd ↔ auth.IsDoingAuth = true

theorem list_eq_AuthPollList : auth.list = .AuthPollList ↔ auth.IsDoingAuth = true := by
  unfold list
  split <;> simp_all

theorem Sound.pending {auth : AuthRequest} (sound : auth.Sound) (idle : auth.IsDoingAuth = false) :
    auth.IsDNSPending = true := by
  rcases sound.waits with doing | pending
  · rw [idle] at doing
    exact Bool.noConfusion doing
  · exact pending

end AuthRequest

/-! ### The invariant -/

/-- The lists hold the requests of the connections that are not released, each by its state. -/
structure Waiting (s : AuthState) (lists : AuthList → List RequestId) : Prop where
  threads : s.links.Lists lists
  linked : ∀ k a, a ∈ lists k ↔ ∃ auth, s.requests a = some auth ∧ auth.list = k
  sound : ∀ a auth, s.requests a = some auth → auth.Sound
  queries : ∀ a, a ∈ s.queries ↔ ∃ auth, s.requests a = some auth ∧ auth.IsDNSPending = true
  queries_once : s.queries.Nodup
  owner : ∀ a auth, s.requests a = some auth → auth.client < s.accepted ∧ auth.client ∉ s.released
  single : ∀ a b auth other, s.requests a = some auth → s.requests b = some other →
    auth.client = other.client → a = b
  owned : ∀ client, client < s.accepted → client ∉ s.released →
    ∃ a auth, s.requests a = some auth ∧ auth.client = client
  released_once : s.released.Nodup
  released_lt : ∀ client ∈ s.released, client < s.accepted

theorem initial_waiting (clients : ClientId → NewClient) : Waiting (initial clients) fun _ => [] where
  threads := Lib.Links.Lists.clear
  linked k a := by simp [initial]
  sound a auth found := by cases found
  queries a := by simp [initial]
  queries_once := List.nodup_nil
  owner a auth found := by cases found
  single a b auth other found := by cases found
  owned client early := absurd early (Nat.not_lt_zero client)
  released_once := List.nodup_nil
  released_lt client member := by cases member

namespace Waiting

variable {s : AuthState} {lists : AuthList → List RequestId} {a : RequestId} {auth auth' : AuthRequest}
  {before after : List RequestId} {clients : ClientId → NewClient} {queries : List RequestId}

theorem live_of_mem (w : Waiting s lists) {k : AuthList} (member : a ∈ lists k) : s.live a = true := by
  obtain ⟨auth, found, _⟩ := (w.linked k a).mp member
  rw [AuthState.live, found]
  rfl

theorem length_le (w : Waiting s lists) (k : AuthList) : (lists k).length ≤ s.accepted := by
  have owners : ∀ a ∈ lists k, ∃ client, client < s.accepted ∧
      ∃ auth, s.requests a = some auth ∧ auth.client = client := by
    intro a member
    obtain ⟨auth, found, _⟩ := (w.linked k a).mp member
    exact ⟨auth.client, (w.owner a auth found).1, auth, found, rfl⟩
  choose! client below owned using owners
  have distinct : ((lists k).map client).Nodup := by
    refine (List.nodup_map_iff_inj_on (w.threads.nodup k)).mpr fun a first b second same => ?_
    obtain ⟨auth, found, mine⟩ := owned a first
    obtain ⟨other, found', his⟩ := owned b second
    exact w.single a b auth other found found' (mine.trans (same.trans his.symm))
  have inside : (lists k).map client ⊆ List.range s.accepted := by
    intro c member
    obtain ⟨a, inList, rfl⟩ := List.mem_map.mp member
    exact List.mem_range.mpr (below a inList)
  have counted := (List.subperm_of_subset distinct inside).length_le
  rwa [List.length_map, List.length_range] at counted

theorem list_eq (w : Waiting s lists) (k : AuthList) : s.list k = some (lists k) :=
  w.threads.walk k (w.length_le k)

theorem list_of_mem (w : Waiting s lists) (found : s.requests a = some auth) {k : AuthList}
    (member : a ∈ lists k) : auth.list = k := by
  obtain ⟨other, there, list⟩ := (w.linked k a).mp member
  rw [found] at there
  cases there
  exact list

/-- The resolver has no query for a request that is not waiting for a name. -/
theorem mem_queries_ne (w : Waiting s lists) (found : s.requests a = some auth)
    (idle : auth.IsDNSPending = false) (b : RequestId) :
    b ∈ s.queries ↔ b ∈ s.queries ∧ b ≠ a := by
  refine ⟨fun asked => ⟨asked, ?_⟩, And.left⟩
  rintro rfl
  obtain ⟨other, there, pending⟩ := (w.queries b).mp asked
  rw [found] at there
  cases there
  rw [idle] at pending
  exact Bool.noConfusion pending

theorem stands (w : Waiting s lists) (found : s.requests a = some auth) :
    ∃ before after, lists auth.list = before ++ a :: after :=
  List.append_of_mem ((w.linked _ _).mpr ⟨auth, found, rfl⟩)

/-- **A request is released and freed.** -/
theorem settle (w : Waiting s lists) (found : s.requests a = some auth)
    (place : lists auth.list = before ++ a :: after) (others : ∀ b, b ∈ queries ↔ b ∈ s.queries ∧ b ≠ a)
    (once : queries.Nodup) :
    Waiting { s with
      requests := Function.update s.requests a none
      links := s.links.remove auth.list a
      clients := clients
      released := s.released ++ [auth.client]
      queries := queries } (Function.update lists auth.list (before ++ after)) := by
  have rest : ∀ b other, Function.update s.requests a none b = some other ↔
      s.requests b = some other ∧ b ≠ a := by
    intro b other
    by_cases same : b = a <;> simp [same]
  have mine := w.owner a auth found
  refine ⟨w.threads.remove place, fun k b => ?_, fun b other there => ?_, fun b => ?_, once,
    fun b other there => ?_, fun b c other third there there' => ?_, fun client early free => ?_, ?_,
    fun client member => ?_⟩
  · rw [w.threads.mem_remove place, w.linked]
    simp only [rest]
    constructor
    · rintro ⟨⟨other, there, onList⟩, apart⟩
      exact ⟨other, ⟨there, apart⟩, onList⟩
    · rintro ⟨other, ⟨there, apart⟩, onList⟩
      exact ⟨⟨other, there, onList⟩, apart⟩
  · exact w.sound b other ((rest b other).mp there).1
  · simp only [rest, others, w.queries]
    constructor
    · rintro ⟨⟨other, there, asked⟩, apart⟩
      exact ⟨other, ⟨there, apart⟩, asked⟩
    · rintro ⟨other, ⟨there, apart⟩, asked⟩
      exact ⟨⟨other, there, asked⟩, apart⟩
  · obtain ⟨there, apart⟩ := (rest b other).mp there
    obtain ⟨below, free⟩ := w.owner b other there
    refine ⟨below, fun member => ?_⟩
    rcases List.mem_append.mp member with old | new
    · exact free old
    · exact apart (w.single b a other auth there found (List.mem_singleton.mp new))
  · exact w.single b c other third ((rest b other).mp there).1 ((rest c third).mp there').1
  · obtain ⟨b, other, there, owns⟩ := w.owned client early
      fun old => free (List.mem_append_left _ old)
    refine ⟨b, other, (rest b other).mpr ⟨there, ?_⟩, owns⟩
    rintro rfl
    rw [found] at there
    cases there
    exact free (List.mem_append_right _ (by rw [owns]; exact List.mem_singleton_self _))
  · refine List.nodup_append.mpr ⟨w.released_once, List.nodup_singleton _, fun c old d new => ?_⟩
    rw [List.mem_singleton.mp new]
    rintro rfl
    exact mine.2 old
  · rcases List.mem_append.mp member with old | new
    · exact w.released_lt client old
    · rw [List.mem_singleton.mp new]
      exact mine.1

theorem update_eq_some {requests : RequestId → Option AuthRequest} {b : RequestId}
    {other : AuthRequest} : Function.update requests a (some auth') b = some other ↔
      (b = a ∧ auth' = other) ∨ (b ≠ a ∧ requests b = some other) := by
  by_cases same : b = a <;> simp [same]

/-- **A request changes**, with what that means for the lists and the queries. -/
theorem rewrite (w : Waiting s lists) (found : s.requests a = some auth)
    (client : auth'.client = auth.client) (sound : auth'.Sound)
    {links : Lib.Links RequestId AuthList} {lists' : AuthList → List RequestId}
    (threads : links.Lists lists')
    (linked : ∀ k b, b ∈ lists' k ↔ if b = a then auth'.list = k else b ∈ lists k)
    (asked : ∀ b, b ∈ queries ↔ if b = a then auth'.IsDNSPending = true else b ∈ s.queries)
    (once : queries.Nodup) :
    Waiting { s with
      requests := Function.update s.requests a (some auth')
      links := links
      clients := clients
      queries := queries } lists' := by
  have keeps : ∀ b other, Function.update s.requests a (some auth') b = some other →
      ∃ old, s.requests b = some old ∧ other.client = old.client := by
    intro b other there
    rcases update_eq_some.mp there with ⟨rfl, rfl⟩ | ⟨_, there⟩
    · exact ⟨auth, found, client⟩
    · exact ⟨other, there, rfl⟩
  refine ⟨threads, fun k b => ?_, fun b other there => ?_, fun b => ?_, once,
    fun b other there => ?_, fun b c other third there there' same => ?_,
    fun number early free => ?_, w.released_once, w.released_lt⟩
  · rw [linked]
    simp only [update_eq_some]
    by_cases same : b = a
    · simp [same]
    · simp [same, w.linked]
  · rcases update_eq_some.mp there with ⟨_, rfl⟩ | ⟨_, there⟩
    · exact sound
    · exact w.sound b other there
  · rw [asked]
    simp only [update_eq_some]
    by_cases same : b = a
    · simp [same]
    · simp [same, w.queries]
  · obtain ⟨old, there, same⟩ := keeps b other there
    rw [same]
    exact w.owner b old there
  · obtain ⟨old, there, mine⟩ := keeps b other there
    obtain ⟨old', there', his⟩ := keeps c third there'
    exact w.single b c old old' there there' (mine.symm.trans (same.trans his))
  · obtain ⟨b, other, there, owns⟩ := w.owned number early free
    by_cases same : b = a
    · refine ⟨b, auth', update_eq_some.mpr (.inl ⟨same, rfl⟩), ?_⟩
      rw [same, found] at there
      cases there
      exact client.trans owns
    · exact ⟨b, other, update_eq_some.mpr (.inr ⟨same, there⟩), owns⟩

/-- **A request changes in place.** -/
theorem change (w : Waiting s lists) (found : s.requests a = some auth)
    (client : auth'.client = auth.client) (list : auth'.list = auth.list) (sound : auth'.Sound)
    (asked : ∀ b, b ∈ queries ↔ if b = a then auth'.IsDNSPending = true else b ∈ s.queries)
    (once : queries.Nodup) :
    Waiting { s with
      requests := Function.update s.requests a (some auth')
      clients := clients
      queries := queries } lists := by
  refine w.rewrite found client sound w.threads (fun k b => ?_) asked once
  split
  · next same =>
    rw [same, w.linked, found, list]
    simp
  · exact Iff.rfl

/-- **A request whose ident reply is there waits on for its name.** -/
theorem move (w : Waiting s lists) (found : s.requests a = some auth)
    (place : lists .AuthPollList = before ++ a :: after) (client : auth'.client = auth.client)
    (idle : auth'.IsDoingAuth = false) (sound : auth'.Sound)
    (pending : auth.IsDNSPending = true) :
    Waiting { s with
      requests := Function.update s.requests a (some auth')
      links := (s.links.remove .AuthPollList a).push .AuthIncompleteList a
      clients := clients }
      (Function.update (Function.update lists .AuthPollList (before ++ after)) .AuthIncompleteList
        (a :: lists .AuthIncompleteList)) := by
  have removed := w.threads.remove place
  have gone : ∀ k, a ∉ Function.update lists .AuthPollList (before ++ after) k := fun k member =>
    ((w.threads.mem_remove place k a).mp member).2 rfl
  have same : Function.update lists .AuthPollList (before ++ after) .AuthIncompleteList =
      lists .AuthIncompleteList := Function.update_of_ne (by decide) ..
  rw [← same]
  refine w.rewrite found client sound (removed.push .AuthIncompleteList gone) (fun k b => ?_)
    (fun b => ?_) w.queries_once
  · rw [Lib.Links.Lists.mem_push, w.threads.mem_remove place]
    have list : auth'.list = .AuthIncompleteList := by simp [AuthRequest.list, idle]
    by_cases eq : b = a
    · simp [eq, list, eq_comm]
    · simp [eq]
  · split
    · next eq =>
      rw [eq, w.queries, sound.pending idle]
      simp [found, pending]
    · exact Iff.rfl

/-- **A new connection has to wait.** -/
theorem enter (w : Waiting s lists) (free : s.requests a = none) (client : auth.client = s.accepted)
    (sound : auth.Sound)
    (asked : ∀ b, b ∈ queries ↔ b ∈ s.queries ∨ b = a ∧ auth.IsDNSPending = true)
    (once : queries.Nodup) :
    Waiting { s with
      requests := Function.update s.requests a (some auth)
      links := s.links.push auth.list a
      clients := clients
      accepted := s.accepted + 1
      queries := queries } (Function.update lists auth.list (a :: lists auth.list)) := by
  have fresh : ∀ k, a ∉ lists k := by
    intro k member
    obtain ⟨other, there, _⟩ := (w.linked k a).mp member
    rw [free] at there
    cases there
  have notReleased : s.accepted ∉ s.released := fun member =>
    Nat.lt_irrefl _ (w.released_lt _ member)
  refine ⟨w.threads.push auth.list fresh, fun k b => ?_, fun b other there => ?_, fun b => ?_, once,
    fun b other there => ?_, fun b c other third there there' same => ?_,
    fun number early free => ?_, w.released_once, fun number member => ?_⟩
  · rw [Lib.Links.Lists.mem_push, w.linked]
    simp only [update_eq_some]
    by_cases same : b = a
    · simp [same, free, eq_comm]
    · simp [same]
  · rcases update_eq_some.mp there with ⟨_, rfl⟩ | ⟨_, there⟩
    · exact sound
    · exact w.sound b other there
  · rw [asked, w.queries]
    simp only [update_eq_some]
    by_cases same : b = a
    · simp [same, free]
    · simp [same]
  · rcases update_eq_some.mp there with ⟨_, rfl⟩ | ⟨_, there⟩
    · rw [client]
      exact ⟨Nat.lt_succ_self _, notReleased⟩
    · obtain ⟨below, rest⟩ := w.owner b other there
      exact ⟨Nat.lt_succ_of_lt below, rest⟩
  · rcases update_eq_some.mp there with ⟨first, rfl⟩ | ⟨_, there⟩ <;>
      rcases update_eq_some.mp there' with ⟨second, rfl⟩ | ⟨_, there'⟩
    · rw [first, second]
    · exact absurd (same.symm.trans client) (Nat.ne_of_lt (w.owner c third there').1)
    · exact absurd (same.trans client) (Nat.ne_of_lt (w.owner b other there).1)
    · exact w.single b c other third there there' same
  · rcases Nat.lt_succ_iff_lt_or_eq.mp early with early | rfl
    · obtain ⟨b, other, there, owns⟩ := w.owned number early free
      have apart : b ≠ a := by
        rintro rfl
        rw [‹s.requests b = none›] at there
        cases there
      exact ⟨b, other, update_eq_some.mpr (.inr ⟨apart, there⟩), owns⟩
    · exact ⟨a, auth, update_eq_some.mpr (.inl ⟨rfl, rfl⟩), client⟩
  · exact Nat.lt_succ_of_lt (w.released_lt number member)

/-- **A new connection has nothing to wait for.** -/
theorem pass (w : Waiting s lists) :
    Waiting { s with
      clients := clients
      accepted := s.accepted + 1
      released := s.released ++ [s.accepted] } lists := by
  have apart : ∀ number < s.accepted, number ∉ s.released → number ∉ s.released ++ [s.accepted] := by
    intro number below free member
    rcases List.mem_append.mp member with old | new
    · exact free old
    · exact Nat.ne_of_lt below (List.mem_singleton.mp new)
  refine ⟨w.threads, w.linked, w.sound, w.queries, w.queries_once, fun b other there => ?_, w.single,
    fun number early free => ?_, ?_, fun number member => ?_⟩
  · obtain ⟨below, free⟩ := w.owner b other there
    exact ⟨Nat.lt_succ_of_lt below, apart _ below free⟩
  · rcases Nat.lt_succ_iff_lt_or_eq.mp early with early | rfl
    · exact w.owned number early fun old => free (List.mem_append_left _ old)
    · exact absurd (List.mem_append_right _ (List.mem_singleton_self _)) free
  · refine List.nodup_append.mpr ⟨w.released_once, List.nodup_singleton _, fun c old d new => ?_⟩
    rw [List.mem_singleton.mp new]
    exact Nat.ne_of_lt (w.released_lt c old)
  · rcases List.mem_append.mp member with old | new
    · exact Nat.lt_succ_of_lt (w.released_lt number old)
    · rw [List.mem_singleton.mp new]
      exact Nat.lt_succ_self _

end Waiting

/-! ### The list operations -/

theorem unlinked_eq (request : RequestId) (list : AuthList) (links : Lib.Links RequestId AuthList) :
    unlinked request list links = links.remove list request := by
  unfold unlinked Lib.Links.remove
  cases hnext : links.next request with
  | none => cases hprev : links.prev request <;> simp [hnext, hprev, Function.update_apply]
  | some n =>
    cases hprev : links.prev request <;>
      simp [hnext, hprev, Function.update_apply]

section Calls

variable {s t : AuthState} {lists : AuthList → List RequestId} {a : RequestId} {auth : AuthRequest}
  {before after : List RequestId}

/-- A state that still has the requests and the pointers of another. -/
structure Follows (s t : AuthState) : Prop where
  links : t.links = s.links
  accepted : t.accepted = s.accepted
  live : ∀ b, s.live b = true → t.live b = true

/-- **A request is unlinked from the list that it is on.** -/
theorem Waiting.unlink (w : Waiting s lists) (same : Follows s t) {k : AuthList}
    (member : a ∈ lists k) :
    unlink_auth_request a k t = some { t with links := s.links.remove k a } := by
  obtain ⟨before, after, place⟩ := List.append_of_mem member
  have onward : ∀ b, s.links.next a = some b → t.live b = true := by
    intro b points
    rw [w.threads.next k before a after place] at points
    refine same.live b (w.live_of_mem (k := k) ?_)
    rw [place]
    exact List.mem_append_right _ (List.mem_cons_of_mem a (List.mem_of_head? points))
  have backward : ∀ b, s.links.prev a = some b → t.live b = true := by
    intro b points
    rw [w.threads.prev k before a after place] at points
    refine same.live b (w.live_of_mem (k := k) ?_)
    rw [place]
    exact List.mem_append_left _ (List.mem_of_getLast? points)
  have walked : t.list k = some (lists k) := by
    rw [AuthState.list, same.links, same.accepted]
    exact w.list_eq k
  unfold unlink_auth_request
  rw [unlinked_eq, same.links, walked, if_pos]
  refine ⟨same.live a (w.live_of_mem member), ?_, ?_, ?_⟩
  · cases points : s.links.next a with
    | none => rfl
    | some b => exact onward b points
  · cases points : s.links.prev a with
    | none => rfl
    | some b => exact backward b points
  · simpa using member

/-- **A request is linked.** -/
theorem link_auth_request_eq {k : AuthList} (live : t.live a = true)
    (first : ∀ b, t.links.head k = some b → t.live b = true) :
    link_auth_request a k t = some { t with links := t.links.push k a } := by
  unfold link_auth_request
  rw [if_pos]
  refine ⟨live, ?_⟩
  cases points : t.links.head k with
  | none => rfl
  | some b => exact first b points

theorem live_update {requests : RequestId → Option AuthRequest} {b : RequestId}
    (live : (requests b).isSome = true) :
    (Function.update requests a (some auth) b).isSome = true := by
  by_cases same : b = a
  · rw [same, Function.update_self]
    rfl
  · rwa [Function.update_of_ne same]

/-- A call that went well keeps the invariant. -/
def Keeps (s : AuthState) (result : Option AuthState) : Prop :=
  ∃ s' lists', result = some s' ∧ Waiting s' lists' ∧ s'.accepted = s.accepted

/-- A call for a request of a list leaves the others of the list where they are. -/
def Leaves (k : AuthList) (before after : List RequestId) (a : RequestId) (s : AuthState)
    (result : Option AuthState) : Prop :=
  ∃ s' lists', result = some s' ∧ Waiting s' lists' ∧ s'.accepted = s.accepted ∧
    (lists' k = before ++ after ∨ lists' k = before ++ a :: after)

theorem takeReply_eq (conf : AuthConf) (client : ClientId) (reply : Option HostEnt) (s : AuthState) :
    ∃ clients, takeReply conf client reply s = { s with clients := clients } := by
  unfold takeReply
  cases reply with
  | none => exact ⟨_, rfl⟩
  | some hp =>
    by_cases ours : (s.clients client).ip ∈ hp.h_addr_list
    · exact ⟨_, if_pos ours⟩
    · exact ⟨_, if_neg ours⟩

theorem auth_dns_callback_eq (conf : AuthConf) (reply : Option HostEnt)
    (found : s.requests a = some auth) : ∃ clients, auth_dns_callback conf a reply s =
      if !auth.ClearDNSPending.IsDoingAuth then
        (unlink_auth_request a .AuthIncompleteList { s with
          requests := Function.update s.requests a (some auth.ClearDNSPending)
          clients := clients
          released := s.released ++ [auth.client] }).bind (free_auth_request a)
      else some { s with
        requests := Function.update s.requests a (some auth.ClearDNSPending), clients := clients } := by
  obtain ⟨clients, taken⟩ := takeReply_eq conf auth.ClearDNSPending.client reply
    (s.put a auth.ClearDNSPending)
  unfold auth_dns_callback
  rw [found]
  simp only [Option.bind_eq_bind, Option.bind_some, taken]
  exact ⟨_, rfl⟩

/-- **A request leaves its list, its client is released, and it is freed.** -/
theorem Waiting.freed (w : Waiting s lists) (found : s.requests a = some auth)
    (place : lists auth.list = before ++ a :: after) (requests : RequestId → Option AuthRequest)
    (live : (requests a).isSome = true) (same : ∀ b, b ≠ a → requests b = s.requests b)
    (clients : ClientId → NewClient) {queries : List RequestId}
    (others : ∀ b, b ∈ queries ↔ b ∈ s.queries ∧ b ≠ a) (once : queries.Nodup) :
    ∃ s', (unlink_auth_request a auth.list { s with
        requests := requests
        clients := clients
        released := s.released ++ [auth.client]
        queries := queries }).bind (free_auth_request a) = some s' ∧
      Waiting s' (Function.update lists auth.list (before ++ after)) ∧ s'.accepted = s.accepted := by
  have member : a ∈ lists auth.list := by simp [place]
  have still : ∀ b, s.live b = true → (requests b).isSome = true := by
    intro b liveThere
    by_cases itself : b = a
    · rw [itself, live]
    · rw [same b itself]
      exact liveThere
  have unlinked := w.unlink (t := { s with
    requests := requests
    clients := clients
    released := s.released ++ [auth.client]
    queries := queries }) ⟨rfl, rfl, still⟩ member
  have freed : Function.update requests a none = Function.update s.requests a none := by
    funext b
    by_cases itself : b = a
    · simp [itself]
    · simp [itself, same b itself]
  rw [unlinked, Option.bind_some, free_auth_request, if_pos]
  · refine ⟨_, rfl, ?_, rfl⟩
    simp only [freed]
    exact w.settle found place others once
  · exact live

/-- **A callback of the resolver.** -/
theorem auth_dns_callback_keeps (conf : AuthConf) (reply : Option HostEnt) (w : Waiting s lists)
    (asked : a ∈ s.queries) :
    Keeps s (auth_dns_callback conf a reply { s with queries := s.queries.erase a }) := by
  obtain ⟨auth, found, pending⟩ := (w.queries a).mp asked
  obtain ⟨clients, result⟩ := auth_dns_callback_eq (s := { s with queries := s.queries.erase a })
    conf reply found
  rw [result, AuthRequest.ClearDNSPending_IsDoingAuth]
  have others : ∀ b, b ∈ s.queries.erase a ↔ b ∈ s.queries ∧ b ≠ a := fun b => by
    rw [w.queries_once.mem_erase_iff, and_comm]
  have once := w.queries_once.erase a
  cases doing : auth.IsDoingAuth with
  | false =>
    obtain ⟨before, after, place⟩ := w.stands found
    have list : auth.list = .AuthIncompleteList := by simp [AuthRequest.list, doing]
    obtain ⟨s', freed, w', accepted⟩ := w.freed found place
      (Function.update s.requests a (some auth.ClearDNSPending)) (by simp)
      (fun b itself => Function.update_of_ne itself ..) clients others once
    rw [list] at freed
    exact ⟨s', _, freed, w', accepted⟩
  | true =>
    have sound : auth.ClearDNSPending.Sound := by
      refine ⟨.inl (by simpa using doing), ?_⟩
      rw [AuthRequest.ClearDNSPending_IsDoingAuth]
      exact (w.sound a auth found).fd
    have kept : Waiting { s with
        requests := Function.update s.requests a (some auth.ClearDNSPending)
        clients := clients
        queries := s.queries.erase a } lists := by
      refine w.change found rfl (by simp [AuthRequest.list]) sound (fun b => ?_) once
      rw [others]
      by_cases same : b = a <;> simp [same]
    exact ⟨_, lists, rfl, kept, rfl⟩

/-- **The end of an ident query.** -/
theorem identDone_leaves (w : Waiting s lists) (found : s.requests a = some auth)
    (place : lists .AuthPollList = before ++ a :: after) (clients : ClientId → NewClient) :
    Leaves .AuthPollList before after a s (identDone a { s with
      requests := Function.update s.requests a (some { auth with fd := -1 }.ClearAuth)
      clients := clients }) := by
  have member : a ∈ lists .AuthPollList := by simp [place]
  have list := w.list_of_mem found member
  have same : ({ auth with fd := -1 } : AuthRequest).ClearAuth.IsDNSPending = auth.IsDNSPending :=
    AuthRequest.ClearAuth_IsDNSPending _
  have unlinked := w.unlink (t := { s with
    requests := Function.update s.requests a (some { auth with fd := -1 }.ClearAuth)
    clients := clients }) ⟨rfl, rfl, fun _ => live_update⟩ member
  unfold identDone
  simp only [unlinked, Option.bind_eq_bind, Option.bind_some, Function.update_self, same]
  cases pending : auth.IsDNSPending with
  | true =>
    have linked := link_auth_request_eq (a := a) (k := .AuthIncompleteList) (t := { s with
      requests := Function.update s.requests a (some { auth with fd := -1 }.ClearAuth)
      clients := clients
      links := s.links.remove .AuthPollList a }) (by simp [AuthState.live]) (by
        intro b first
        refine live_update (w.live_of_mem (k := .AuthIncompleteList) ?_)
        have head := (w.threads.remove place).head .AuthIncompleteList
        rw [first, Function.update_of_ne (by decide)] at head
        exact List.mem_of_head? head.symm)
    rw [if_pos rfl, linked]
    have idle : ({ auth with fd := -1 } : AuthRequest).ClearAuth.IsDoingAuth = false :=
      AuthRequest.ClearAuth_IsDoingAuth _
    have sound : ({ auth with fd := -1 } : AuthRequest).ClearAuth.Sound := by
      refine ⟨.inr (same.trans pending), ?_⟩
      rw [idle]
      simp [AuthRequest.ClearAuth]
    refine ⟨_, _, rfl, w.move found place rfl idle sound pending, rfl, .inl ?_⟩
    rw [Function.update_of_ne (by decide), Function.update_self]
  | false =>
    rw [if_neg Bool.false_ne_true, free_auth_request, if_pos]
    · refine ⟨_, Function.update lists auth.list (before ++ after), rfl, ?_, rfl, .inl ?_⟩
      · rw [← list] at place ⊢
        simp only [release_auth_client, Function.update_idem]
        exact w.settle found place (w.mem_queries_ne found pending) w.queries_once
      · rw [list, Function.update_self]
    · simp [AuthState.live, release_auth_client]

/-- **An attempt to write to an ident server.** -/
theorem send_auth_query_leaves (conf : AuthConf) (written : Written) (w : Waiting s lists)
    (found : s.requests a = some auth) (place : lists .AuthPollList = before ++ a :: after) :
    Leaves .AuthPollList before after a s (send_auth_query conf a written s) := by
  unfold send_auth_query
  simp only [found, Option.bind_eq_bind, Option.bind_some]
  cases written with
  | all =>
    have list := w.list_of_mem found (by rw [place]; simp)
    have doing := (AuthRequest.list_eq_AuthPollList auth).mp list
    have now := AuthRequest.SetAuthPending_IsDoingAuth auth.ClearAuthConnect
    have sound : auth.ClearAuthConnect.SetAuthPending.Sound := by
      refine ⟨.inl now, ?_⟩
      rw [now]
      exact (w.sound a auth found).fd.trans (by rw [doing])
    refine ⟨_, lists, rfl, w.change found rfl ?_ sound (fun b => ?_) w.queries_once, rfl, .inr place⟩
    · rw [list, AuthRequest.list_eq_AuthPollList, now]
    · split
      · next same => simp [same, w.queries, found]
      · exact Iff.rfl
  | again => exact ⟨s, lists, rfl, w, rfl, .inr place⟩
  | failed =>
    unfold auth_error
    simp only [found, Option.bind_eq_bind, Option.bind_some]
    exact identDone_leaves w found place _

/-- **A reply of an ident server.** -/
theorem read_auth_reply_leaves (conf : AuthConf) (received : Received) (w : Waiting s lists)
    (found : s.requests a = some auth) (place : lists .AuthPollList = before ++ a :: after) :
    Leaves .AuthPollList before after a s (read_auth_reply conf a received s) := by
  unfold read_auth_reply
  simp only [found, Option.bind_eq_bind, Option.bind_some]
  cases received with
  | again => exact ⟨s, lists, rfl, w, rfl, .inr place⟩
  | closed => exact identDone_leaves w found place _
  | failed => exact identDone_leaves w found place _
  | text buf =>
    cases valid : GetValidIdent buf with
    | none =>
      simp only [valid]
      exact identDone_leaves w found place _
    | some name =>
      simp only [valid]
      exact identDone_leaves w found place _

/-- **A descriptor is looked at.** -/
theorem checkAuth_leaves (conf : AuthConf) (ready : RequestId → Option Ready) (w : Waiting s lists)
    (place : lists .AuthPollList = before ++ a :: after) :
    Leaves .AuthPollList before after a s (checkAuth conf ready a s) := by
  have member : a ∈ lists .AuthPollList := by simp [place]
  obtain ⟨auth, found, list⟩ := (w.linked _ a).mp member
  have open_ : ¬ auth.fd < 0 := by
    have descriptor := (w.sound a auth found).fd.mpr ((AuthRequest.list_eq_AuthPollList auth).mp list)
    omega
  unfold checkAuth
  simp only [found, Option.bind_eq_bind, Option.bind_some, if_neg open_]
  cases ready a with
  | none => exact ⟨s, lists, rfl, w, rfl, .inr place⟩
  | some io =>
    by_cases connecting : auth.flags.has AM_AUTH_CONNECTING = true
    · simp only [if_pos connecting]
      exact send_auth_query_leaves conf io.written w found place
    · simp only [if_neg connecting]
      exact read_auth_reply_leaves conf io.received w found place

/-- **A request whose time is up.** -/
theorem giveUp_leaves (now : Int) (w : Waiting s lists) (found : s.requests a = some auth)
    {k : AuthList} (place : lists k = before ++ a :: after) (clients : ClientId → NewClient)
    {queries : List RequestId} (others : ∀ b, b ∈ queries ↔ b ∈ s.queries ∧ b ≠ a)
    (once : queries.Nodup) : Leaves k before after a s
      (giveUp now a auth.client k { s with clients := clients, queries := queries }) := by
  have list := w.list_of_mem found (k := k) (by rw [place]; simp)
  subst list
  obtain ⟨s', freed, w', accepted⟩ := w.freed found place s.requests (by simp [found])
    (fun _ _ => rfl) (Function.update clients auth.client { clients auth.client with since := now })
    others once
  exact ⟨s', _, freed, w', accepted, .inl (Function.update_self ..)⟩

theorem mem_delete (a b : RequestId) (queries : List RequestId) :
    b ∈ queries.filter (· ≠ a) ↔ b ∈ queries ∧ b ≠ a := by
  simp

/-- **The first loop of the timeout.** -/
theorem timeoutPoll_leaves (conf : AuthConf) (CurrentTime now : Int) (w : Waiting s lists)
    (place : lists .AuthPollList = before ++ a :: after) :
    Leaves .AuthPollList before after a s (timeoutPoll conf CurrentTime now a s) := by
  obtain ⟨auth, found, list⟩ := (w.linked .AuthPollList a).mp (by rw [place]; simp)
  unfold timeoutPoll
  simp only [found, Option.bind_eq_bind, Option.bind_some]
  by_cases late : auth.timeout < CurrentTime
  · rw [if_pos late]
    cases pending : auth.IsDNSPending with
    | true =>
      rw [if_pos rfl]
      exact giveUp_leaves now w found place _ (mem_delete a · s.queries)
        (w.queries_once.filter _)
    | false =>
      rw [if_neg Bool.false_ne_true]
      exact giveUp_leaves now w found place _ (w.mem_queries_ne found pending) w.queries_once
  · rw [if_neg late]
    exact ⟨s, lists, rfl, w, rfl, .inr place⟩

/-- **The second one.** -/
theorem timeoutIncomplete_leaves (conf : AuthConf) (CurrentTime now : Int) (w : Waiting s lists)
    (place : lists .AuthIncompleteList = before ++ a :: after) :
    Leaves .AuthIncompleteList before after a s (timeoutIncomplete conf CurrentTime now a s) := by
  obtain ⟨auth, found, list⟩ := (w.linked .AuthIncompleteList a).mp (by rw [place]; simp)
  unfold timeoutIncomplete
  simp only [found, Option.bind_eq_bind, Option.bind_some]
  by_cases late : auth.timeout < CurrentTime
  · rw [if_pos late]
    exact giveUp_leaves now w found place _ (mem_delete a · s.queries) (w.queries_once.filter _)
  · rw [if_neg late]
    exact ⟨s, lists, rfl, w, rfl, .inr place⟩

/-- **A loop over a list** comes to its end when its body leaves the rest of the list alone. -/
theorem forEach_keeps {body : RequestId → AuthState → Option AuthState} {k : AuthList}
    (each : ∀ (s : AuthState) lists before a after, Waiting s lists → lists k = before ++ a :: after →
      Leaves k before after a s (body a s)) (rest : List RequestId) :
    ∀ (s : AuthState) lists before fuel, Waiting s lists → lists k = before ++ rest →
      rest.length ≤ fuel → Keeps s (forEach body fuel rest.head? s) := by
  induction rest with
  | nil =>
    intro s lists before fuel w _ _
    cases fuel <;> exact ⟨s, lists, rfl, w, rfl⟩
  | cons a rest ih =>
    intro s lists before fuel w place enough
    obtain ⟨s', lists', done, w', accepted, after⟩ := each s lists before a rest w place
    cases fuel with
    | zero => exact absurd enough (Nat.not_succ_le_zero _)
    | succ fuel =>
      have live := w.live_of_mem (a := a) (k := k) (by rw [place]; simp)
      have next : s.links.next a = rest.head? := w.threads.next k before a rest place
      have further : ∃ before', lists' k = before' ++ rest := by
        rcases after with gone | stays
        · exact ⟨before, gone⟩
        · exact ⟨before ++ [a], by rw [stays]; simp⟩
      obtain ⟨before', place'⟩ := further
      obtain ⟨s'', lists'', ended, w'', accepted'⟩ := ih s' lists' before' fuel w' place'
        (Nat.le_of_succ_le_succ enough)
      refine ⟨s'', lists'', ?_, w'', accepted'.trans accepted⟩
      rw [List.head?_cons, forEach, if_pos live, done, Option.bind_some, next]
      exact ended

/-- **A whole loop.** -/
theorem Waiting.forEach {body : RequestId → AuthState → Option AuthState} {k : AuthList}
    (w : Waiting s lists) (each : ∀ (s : AuthState) lists before a after, Waiting s lists →
      lists k = before ++ a :: after → Leaves k before after a s (body a s)) :
    Keeps s (forEach body s.accepted (s.links.head k) s) := by
  rw [w.threads.head]
  exact forEach_keeps each (lists k) s lists [] s.accepted w rfl (w.length_le k)

/-- **All that is waited for is given up in time.** -/
theorem timeout_auth_queries_keeps (conf : AuthConf) (CurrentTime now : Int) (w : Waiting s lists) :
    Keeps s (timeout_auth_queries conf CurrentTime now s) := by
  obtain ⟨s', lists', first, w', accepted⟩ := w.forEach fun s lists before a after w place =>
    timeoutPoll_leaves conf CurrentTime now w place
  obtain ⟨s'', lists'', second, w'', accepted'⟩ := w'.forEach fun s lists before a after w place =>
    timeoutIncomplete_leaves conf CurrentTime now w place
  refine ⟨s'', lists'', ?_, w'', accepted'.trans accepted⟩
  unfold timeout_auth_queries
  rw [first]
  exact second

/-- A request as `start_auth` makes it, and as its query for a name leaves it. -/
structure Begun (s : AuthState) (a : RequestId) (auth : AuthRequest) (queries : List RequestId) :
    Prop where
  idle : auth.IsDoingAuth = false
  fd : auth.fd = -1
  client : auth.client = s.accepted
  asked : ∀ b, b ∈ queries ↔ b ∈ s.queries ∨ b = a ∧ auth.IsDNSPending = true
  once : queries.Nodup
  quiet : auth.IsDNSPending = false → queries = s.queries

theorem start_dns_eq (conf : AuthConf) (new : Accepted) (w : Waiting s lists)
    (free : s.requests new.request = none) (timeout : Int) (clients : ClientId → NewClient)
    (accepted : Nat) :
    ∃ auth clients' queries, Begun s new.request auth queries ∧
      start_dns conf new ⟨s.accepted, 0, -1, timeout⟩ ({ s with
        clients := clients, accepted := accepted }.put new.request ⟨s.accepted, 0, -1, timeout⟩) =
      { s with
        requests := Function.update s.requests new.request (some auth)
        clients := clients'
        accepted := accepted
        queries := queries } := by
  have unasked : new.request ∉ s.queries := by
    intro asked
    obtain ⟨auth, found, _⟩ := (w.queries _).mp asked
    rw [free] at found
    cases found
  have quiet : Begun s new.request ⟨s.accepted, 0, -1, timeout⟩ s.queries := by
    refine ⟨Flags.zero_has _, rfl, rfl, fun b => ?_, w.queries_once, fun _ => rfl⟩
    simp [AuthRequest.IsDNSPending]
  have asking : Begun s new.request (AuthRequest.SetDNSPending ⟨s.accepted, 0, -1, timeout⟩)
      (new.request :: s.queries) := by
    refine ⟨(AuthRequest.SetDNSPending_IsDoingAuth _).trans (Flags.zero_has _), rfl, rfl, fun b => ?_,
      List.nodup_cons.mpr ⟨unasked, w.queries_once⟩, fun none_ => ?_⟩
    · simp [or_comm]
    · simp at none_
  unfold start_dns
  cases conf.ReverseLookup with
  | false => exact ⟨_, _, _, quiet, rfl⟩
  | true => cases new.cached with
    | some hp => exact ⟨_, _, _, quiet, rfl⟩
    | none =>
      refine ⟨_, (AuthState.sendheader { s with clients := clients } conf s.accepted
        .REPORT_DO_DNS).clients, _, asking, ?_⟩
      simp only [if_true, AuthState.put, AuthState.sendheader, AuthState.amend, Function.update_idem]

/-- **An ident query has a descriptor, or nothing has happened.** -/
theorem start_ident_eq (conf : AuthConf) (new : Accepted)
    (found : s.requests new.request = some auth) :
    ∃ clients, start_ident conf new s = some ({ s with clients := clients }, false) ∨
      ∃ fd : Nat, start_ident conf new s = some ({ s with
        requests := Function.update s.requests new.request (some { auth with fd := fd }.SetAuthConnect)
        clients := clients }, true) := by
  unfold start_ident
  cases conf.CheckIdentd with
  | false => exact ⟨s.clients, .inl rfl⟩
  | true =>
    unfold start_auth_query
    simp only [if_true, found, Option.bind_eq_bind, Option.bind_some]
    cases new.attempt.socket with
    | none => exact ⟨s.clients, .inl rfl⟩
    | some fd =>
      by_cases many : conf.MAXCONNECTIONS - 10 < fd
      · simp only [if_pos many]
        exact ⟨s.clients, .inl rfl⟩
      · simp only [if_neg many]
        cases new.attempt.bound with
        | false => exact ⟨_, .inl rfl⟩
        | true => cases new.attempt.connecting with
          | false => exact ⟨_, .inl rfl⟩
          | true => exact ⟨_, .inr ⟨fd, rfl⟩⟩

/-- **A new request is linked to the list of its state.** -/
theorem Waiting.linkNew (w : Waiting s lists) (free : s.requests a = none)
    (client : auth.client = s.accepted) (sound : auth.Sound) {k : AuthList} (list : auth.list = k)
    {queries : List RequestId}
    (asked : ∀ b, b ∈ queries ↔ b ∈ s.queries ∨ b = a ∧ auth.IsDNSPending = true)
    (once : queries.Nodup) (clients : ClientId → NewClient) :
    ∃ s' lists', link_auth_request a k { s with
        requests := Function.update s.requests a (some auth)
        clients := clients
        accepted := s.accepted + 1
        queries := queries } = some s' ∧ Waiting s' lists' := by
  subst list
  refine ⟨_, _, link_auth_request_eq (by simp [AuthState.live]) fun b first => ?_,
    w.enter free client sound asked once⟩
  exact live_update (w.live_of_mem (w.threads.mem_of_head first))

/-- **A new connection.** -/
theorem start_auth_keeps (conf : AuthConf) (now : Int) (new : Accepted) (w : Waiting s lists)
    (free : s.requests new.request = none) :
    ∃ s' lists', start_auth conf now new s = some s' ∧ Waiting s' lists' := by
  unfold start_auth
  cases wanted : conf.ReverseLookup || conf.CheckIdentd with
  | false => exact ⟨_, lists, rfl, w.pass⟩
  | true =>
    obtain ⟨auth, clients, queries, begun, dns⟩ := start_dns_eq conf new w free
      (now + CONNECTTIMEOUT) (Function.update s.clients s.accepted new.client) (s.accepted + 1)
    simp only [if_true, dns]
    have found : Function.update s.requests new.request (some auth) new.request = some auth :=
      Function.update_self ..
    rcases start_ident_eq conf new (s := { s with
      requests := Function.update s.requests new.request (some auth)
      clients := clients
      accepted := s.accepted + 1
      queries := queries }) found with ⟨clients', failed | ⟨fd, started⟩⟩
    · simp only [failed, Option.bind_eq_bind, Option.bind_some, Bool.false_eq_true, if_false,
        Function.update_self]
      cases pending : auth.IsDNSPending with
      | true =>
        have sound : auth.Sound := ⟨.inr pending, by rw [begun.fd, begun.idle]; simp⟩
        have list : auth.list = .AuthIncompleteList := by simp [AuthRequest.list, begun.idle]
        exact w.linkNew free begun.client sound list begun.asked begun.once clients'
      | false =>
        have unchanged : Function.update (Function.update s.requests new.request (some auth))
            new.request none = s.requests := by
          rw [Function.update_idem, ← free, Function.update_eq_self]
        refine ⟨{ s with
          clients := clients'
          accepted := s.accepted + 1
          released := s.released ++ [s.accepted] }, lists, ?_, w.pass⟩
        rw [if_neg Bool.false_ne_true, free_auth_request, if_pos (by simp [AuthState.live])]
        simp only [unchanged, begun.quiet pending, Option.bind_some]
        rfl
    · have doing := AuthRequest.SetAuthConnect_IsDoingAuth { auth with fd := fd }
      have list := (AuthRequest.list_eq_AuthPollList _).mpr doing
      have client : ({ auth with fd := fd } : AuthRequest).SetAuthConnect.client = s.accepted :=
        begun.client
      have sound : ({ auth with fd := fd } : AuthRequest).SetAuthConnect.Sound := by
        refine ⟨.inl doing, ?_⟩
        rw [doing]
        simp [AuthRequest.SetAuthConnect]
      simp only [started, Option.bind_eq_bind, Option.bind_some, if_true, Function.update_idem]
      refine w.linkNew free client sound list (fun b => ?_) begun.once clients'
      rw [AuthRequest.SetAuthConnect_IsDNSPending]
      exact begun.asked b

end Calls

/-! ### All runs -/

/-- **No step goes wrong**, and each keeps the invariant. -/
theorem Waiting.step {s : AuthState} {lists : AuthList → List RequestId} (w : Waiting s lists)
    (conf : AuthConf) {e : Event} (possible : e.Possible s) :
    ∃ s' lists', step conf s e = some s' ∧ Waiting s' lists' := by
  cases e with
  | accepted now a => exact start_auth_keeps conf now a w possible
  | resolved vptr reply =>
    obtain ⟨s', lists', done, w', _⟩ := auth_dns_callback_keeps conf reply w possible
    exact ⟨s', lists', done, w'⟩
  | polled ready =>
    obtain ⟨s', lists', done, w', _⟩ := w.forEach fun s lists before a after w place =>
      checkAuth_leaves conf ready w place
    exact ⟨s', lists', done, w'⟩
  | timeout CurrentTime now =>
    obtain ⟨s', lists', done, w', _⟩ := timeout_auth_queries_keeps conf CurrentTime now w
    exact ⟨s', lists', done, w'⟩

theorem Reachable.waiting {s : AuthState} (reach : Reachable s) : ∃ lists, Waiting s lists := by
  induction reach with
  | initial clients => exact ⟨_, initial_waiting clients⟩
  | @step s s' conf e _ possible done ih =>
    obtain ⟨lists, w⟩ := ih
    obtain ⟨s'', lists', done', w'⟩ := w.step conf possible
    rw [done'] at done
    cases done
    exact ⟨lists', w'⟩

/-- **The life of a connection that waits.** In every state that events can lead to: no client has been
released twice; a client has a request, and one only, exactly as long as it is not released; the two
lists can be walked, the one holds the requests with an ident query under way, the other those without,
nothing is on either that is freed; and every further event has its result. -/
theorem lookups_lifecycle {s : AuthState} (reach : Reachable s) :
    s.released.Nodup ∧
    (∀ client < s.accepted, client ∉ s.released ↔
      ∃ a auth, s.requests a = some auth ∧ auth.client = client) ∧
    (∀ a b auth other, s.requests a = some auth → s.requests b = some other →
      auth.client = other.client → a = b) ∧
    (∃ poll, s.list .AuthPollList = some poll ∧ poll.Nodup ∧
      ∀ a, a ∈ poll ↔ ∃ auth, s.requests a = some auth ∧ auth.IsDoingAuth = true) ∧
    (∃ incomplete, s.list .AuthIncompleteList = some incomplete ∧ incomplete.Nodup ∧
      ∀ a, a ∈ incomplete ↔ ∃ auth, s.requests a = some auth ∧ auth.IsDoingAuth = false) ∧
    ∀ (conf : AuthConf) (e : Event), e.Possible s → ∃ s', step conf s e = some s' := by
  obtain ⟨lists, w⟩ := reach.waiting
  refine ⟨w.released_once, fun client early => ⟨w.owned client early, ?_⟩, w.single,
    ⟨lists .AuthPollList, w.list_eq _, w.threads.nodup _, fun a => ?_⟩,
    ⟨lists .AuthIncompleteList, w.list_eq _, w.threads.nodup _, fun a => ?_⟩,
    fun conf e possible => ?_⟩
  · rintro ⟨a, auth, found, rfl⟩
    exact (w.owner a auth found).2
  · rw [w.linked]
    simp only [AuthRequest.list_eq_AuthPollList]
  · rw [w.linked]
    simp only [AuthRequest.list]
    refine exists_congr fun auth => and_congr_right fun _ => ?_
    cases auth.IsDoingAuth <;> simp
  · obtain ⟨s', _, done, _⟩ := w.step conf possible
    exact ⟨s', done⟩

def sampleClient : NewClient :=
  ⟨0x7f000001, "127.0.0.1".toList, "127.0.0.1".toList, [], none, false, 0, []⟩

def sampleWaiting : AuthState where
  requests := Function.update (fun _ => none) 4096 (some ⟨0, 5, 7, 30⟩)
  links := Lib.Links.push .AuthPollList 4096 Lib.Links.clear
  clients := Function.update (fun _ => sampleClient) 0 sampleClient
  accepted := 1
  released := []
  queries := [4096]

theorem lookups_lifecycle_sample : 0 ∉ sampleWaiting.released ↔
    ∃ a auth, sampleWaiting.requests a = some auth ∧ auth.client = 0 := by
  have possible : Event.Possible (initial fun _ => sampleClient)
      (.accepted 0 ⟨sampleClient, 4096, none, ⟨some 7, true, true⟩⟩) := rfl
  have happened : step ⟨true, true, true, 100⟩ (initial fun _ => sampleClient)
      (.accepted 0 ⟨sampleClient, 4096, none, ⟨some 7, true, true⟩⟩) = some sampleWaiting := by
    simp [step, start_auth, start_dns, start_ident, start_auth_query, link_auth_request,
      AuthState.put, AuthState.sendheader, AuthState.amend, initial, AuthState.live, sampleWaiting]
    exact ⟨rfl, rfl⟩
  exact (lookups_lifecycle (.step (.initial _) possible happened)).2.1 0 (by decide)

end Lookups

end PtlinkIrcd
