/-
**The time that a query takes.**

A request is sent again a few times, after longer and longer times, and is given up then. The check of the
timeouts takes the time before the last sending for the time of the next timeout; if that has passed, it comes
back `AR_TTL` seconds later only, or with the next query.

* `ResRQ.Scheduled` — the retries that are left, and the timeout.
* `ResRQ.limit` — when the last timeout of a request is noticed at the latest.
* `ResRQ.Aged` — how long ago its query was asked.
* `resolver_in_time` — **in every run a pending query was asked a bounded time ago**, that very one.
-/

import PtlinkIrcd.Net.Resolver

namespace PtlinkIrcd

/-- The retries and the timeout of a request, as they are made and as a timeout leaves them. -/
def ResRQ.Scheduled (r : ResRQ) : Prop :=
  (r.retries, r.timeout) ∈ [((0 : Int), (0 : Int)), (2, 2), (1, 4), (3, 4), (2, 8), (1, 16)]

/-- When the last timeout is noticed, if each is within `grace` seconds. -/
def ResRQ.limit (grace : Int) (r : ResRQ) : Int :=
  r.sentat + r.timeout * (2 ^ r.retries.toNat - 1) + max r.retries 1 * grace

/-- What a request takes at most, from its first sending on. -/
def requestTime (grace : Int) : Int := 28 + 3 * grace

/-- **When the query of a request was asked.** The timeouts were checked at the time `check`; the query of an
address takes one request, and that of its name another one. -/
structure ResRQ.Aged (asked : List (DNSQuery × Int)) (grace check now : Int) (r : ResRQ) : Prop where
  past : r.sentat ≤ now
  scheduled : r.Scheduled
  checked : check ≤ r.sentat + r.timeout
  young : ∃ t, asked[r.query.number]? = some (r.query, t) ∧
    r.limit grace ≤ t + (if r.type = T_PTR then 1 else 2) * requestTime grace

section

variable {asked : List (DNSQuery × Int)} {grace check now : Int} {r r' : ResRQ}

theorem ResRQ.Scheduled.cases (scheduled : r.Scheduled) :
    r.retries = 0 ∧ r.timeout = 0 ∨ r.retries = 2 ∧ r.timeout = 2 ∨ r.retries = 1 ∧ r.timeout = 4 ∨
      r.retries = 3 ∧ r.timeout = 4 ∨ r.retries = 2 ∧ r.timeout = 8 ∨ r.retries = 1 ∧ r.timeout = 16 := by
  simpa [ResRQ.Scheduled] using scheduled

theorem ResRQ.limit_eq (r : ResRQ) (grace : Int) :
    (r.retries = 0 → r.limit grace = r.sentat + grace) ∧
      (r.retries = 1 → r.limit grace = r.sentat + r.timeout + grace) ∧
      (r.retries = 2 → r.limit grace = r.sentat + 3 * r.timeout + 2 * grace) ∧
      (r.retries = 3 → r.limit grace = r.sentat + 7 * r.timeout + 3 * grace) := by
  unfold ResRQ.limit
  refine ⟨fun left => ?_, fun left => ?_, fun left => ?_, fun left => ?_⟩ <;> rw [left]
  · show r.sentat + r.timeout * (2 ^ 0 - 1) + 1 * grace = _
    ring
  · show r.sentat + r.timeout * (2 ^ 1 - 1) + 1 * grace = _
    ring
  · show r.sentat + r.timeout * (2 ^ 2 - 1) + 2 * grace = _
    ring
  · show r.sentat + r.timeout * (2 ^ 3 - 1) + 3 * grace = _
    ring

theorem ResRQ.Made.scheduled (made : r.Made now) : r.Scheduled := by
  have patient := made.patient
  simp only [List.mem_cons, List.not_mem_nil, or_false, Prod.mk.injEq] at patient
  unfold ResRQ.Scheduled
  simp only [List.mem_cons, List.not_mem_nil, or_false, Prod.mk.injEq]
  omega

theorem ResRQ.Made.limit_le (made : r.Made now) (positive : 0 ≤ grace) : r.limit grace ≤ now + requestTime grace := by
  have patient := made.patient
  simp only [List.mem_cons, List.not_mem_nil, or_false, Prod.mk.injEq] at patient
  obtain ⟨zero, one, two, three⟩ := r.limit_eq grace
  have start := made.sentat
  unfold requestTime
  obtain ⟨left, time⟩ | ⟨left, time⟩ | ⟨left, time⟩ := patient
  · rw [zero left]; omega
  · rw [two left]; omega
  · rw [three left]; omega

theorem ResRQ.Scheduled.le_limit (scheduled : r.Scheduled) (positive : 0 ≤ grace) :
    r.sentat + r.timeout + grace ≤ r.limit grace := by
  obtain ⟨zero, one, two, three⟩ := r.limit_eq grace
  obtain ⟨left, time⟩ | ⟨left, time⟩ | ⟨left, time⟩ | ⟨left, time⟩ | ⟨left, time⟩ | ⟨left, time⟩ := scheduled.cases
  · rw [zero left]; omega
  · rw [two left]; omega
  · rw [one left]
  · rw [three left]; omega
  · rw [two left]; omega
  · rw [one left]

theorem ResRQ.Scheduled.retry (scheduled : r.Scheduled) (r' : ResRQ) (more : 1 < r.retries)
    (noticed : now ≤ r.sentat + r.timeout + grace) (retries : r'.retries = r.retries - 1) (sentat : r'.sentat = now)
    (timeout : r'.timeout = r.timeout + r.timeout) : r'.Scheduled ∧ r'.limit grace ≤ r.limit grace := by
  obtain ⟨-, -, two, three⟩ := r.limit_eq grace
  obtain ⟨-, one', two', -⟩ := r'.limit_eq grace
  obtain ⟨left, time⟩ | ⟨left, time⟩ | ⟨left, time⟩ | ⟨left, time⟩ | ⟨left, time⟩ | ⟨left, time⟩ := scheduled.cases
  · omega
  · rw [left] at retries
    rw [time] at timeout
    refine ⟨by unfold ResRQ.Scheduled; rw [retries, timeout]; decide, ?_⟩
    rw [two left, one' retries]
    omega
  · omega
  · rw [left] at retries
    rw [time] at timeout
    refine ⟨by unfold ResRQ.Scheduled; rw [retries, timeout]; decide, ?_⟩
    rw [three left, two' retries]
    omega
  · rw [left] at retries
    rw [time] at timeout
    refine ⟨by unfold ResRQ.Scheduled; rw [retries, timeout]; decide, ?_⟩
    rw [two left, one' retries]
    omega
  · omega

/-! ### The moves -/

variable {l : List ResRQ} {log : ResolverLog} {i : Nat}

theorem ResRQ.Sent.aged (sent : r.Sent l r') (aged : r.Aged asked grace check now) : r'.Aged asked grace check now := by
  obtain rfl | ⟨id, sends, count, -, rfl⟩ := sent
  · exact aged
  · exact ⟨aged.past, aged.scheduled, aged.checked, aged.young⟩

theorem ResRQ.Aged.more (aged : r.Aged asked grace check now) (more : List (DNSQuery × Int)) :
    r.Aged (asked ++ more) grace check now := by
  obtain ⟨t, here, young⟩ := aged.young
  refine ⟨aged.past, aged.scheduled, aged.checked, t, ?_, young⟩
  rw [List.getElem?_append_left (List.getElem?_eq_some_iff.mp here).1]
  exact here

theorem aged_set (aged : ∀ r ∈ l, r.Aged asked grace check now) (new : r'.Aged asked grace check now) :
    ∀ r ∈ l.set i r', r.Aged asked grace check now := by
  intro r member
  obtain old | rfl := List.mem_or_eq_of_mem_set member
  · exact aged r old
  · exact new

/-- **Every move keeps the ages.** -/
theorem ResolverMove.aged {state state' : List ResRQ × ResolverLog} (positive : 0 ≤ grace) (early : check ≤ now)
    (noticed : now ≤ check + grace) (move : ResolverMove now state state')
    (aged : ∀ r ∈ state.1, r.Aged state.2.asked grace check now) :
    ∀ r ∈ state'.1, r.Aged state'.2.asked grace check now := by
  cases move with
  | send here sent => exact aged_set aged (sent.aged (aged _ (List.mem_of_getElem? here)))
  | keep here type ttl he kind =>
    obtain ⟨past, scheduled, checked, t, numbered, young⟩ := aged _ (List.mem_of_getElem? here)
    refine aged_set aged ⟨past, scheduled, checked, t, numbered, ?_⟩
    simp only [kind]
    exact young
  | @retry l log i r here due more =>
    obtain ⟨past, scheduled, checked, t, numbered, young⟩ := aged _ (List.mem_of_getElem? here)
    have late : now ≤ r.sentat + r.timeout + grace := by omega
    obtain ⟨again, kept⟩ := scheduled.retry
      { r with retries := r.retries - 1, sentat := now, timeout := r.timeout + r.timeout } more late rfl rfl rfl
    have longer : 0 ≤ r.timeout := by have := scheduled.cases; omega
    refine aged_set aged ⟨Int.le_refl now, again, ?_, t, numbered, kept.trans young⟩
    show check ≤ now + (r.timeout + r.timeout)
    omega
  | answer here reply => exact fun r member => aged r (List.mem_of_mem_eraseIdx member)
  | delete log vptr => exact fun r member => aged r (List.mem_of_mem_filter member)
  | @ask l log r made number =>
    intro x member
    obtain old | last := List.mem_append.mp member
    · exact (aged x old).more _
    · rw [List.mem_singleton.mp last]
      have start := made.sentat
      have longer : 0 ≤ r.timeout := by have := made.scheduled.cases; omega
      refine ⟨start.le, made.scheduled, by omega, now, ?_, ?_⟩
      · rw [number]
        exact List.getElem?_concat_length
      have limit := made.limit_le positive
      have more : 0 ≤ requestTime grace := by unfold requestTime; omega
      split <;> omega
  | @relook l log i r new here kind made other same =>
    intro x member
    obtain old | last := List.mem_append.mp member
    · exact aged x (List.mem_of_mem_eraseIdx old)
    · rw [List.mem_singleton.mp last]
      obtain ⟨past, scheduled, checked, t, numbered, young⟩ := aged _ (List.mem_of_getElem? here)
      have start := made.sentat
      have longer : 0 ≤ new.timeout := by have := made.scheduled.cases; omega
      refine ⟨start.le, made.scheduled, by omega, t, by rw [same]; exact numbered, ?_⟩
      have limit := made.limit_le positive
      have before := scheduled.le_limit positive
      rw [if_pos kind] at young
      rw [if_neg other]
      omega

end

/-! ### The check of the timeouts -/

namespace Resolver

variable {lib : Resolv} {env : Nameservers} {s s' : Resolver} {now : Int}

/-- What a check needs to know of the requests: no timeout is more than 16 seconds ahead. -/
def Near (now : Int) (requests : List ResRQ) : Prop := ∀ r ∈ requests, r.sentat ≤ now ∧ r.Scheduled

/-- **After a check no request is overdue**, and the next timeout that the check returns is near. -/
theorem timeoutFrom_checked {n i : Nat} {next_time next : Int} {called : List DnsCallback}
    (done : timeoutFrom env now n i next_time s = some (s', next, called)) (near : Near now s.requests)
    (rest : i + n = s.requests.length)
    (before : ∀ j < i, ∀ r, s.requests[j]? = some r → now ≤ r.sentat + r.timeout) (soon : next_time ≤ now + 16) :
    (∀ r ∈ s'.requests, now ≤ r.sentat + r.timeout) ∧ next ≤ now + 16 := by
  induction n generalizing i next_time s next called with
  | zero =>
    obtain ⟨rfl, pair⟩ := Prod.mk.inj (Option.some.inj done)
    obtain ⟨rfl, -⟩ := Prod.mk.inj pair
    refine ⟨fun r member => ?_, soon⟩
    obtain ⟨j, here⟩ := List.mem_iff_getElem?.mp member
    have bound := (List.getElem?_eq_some_iff.mp here).1
    exact before j (by omega) r here
  | succ n ih =>
    unfold timeoutFrom at done
    split at done
    · rename_i none_
      exact absurd (List.getElem?_eq_none_iff.mp none_) (by omega)
    · rename_i r here
      have bound := (List.getElem?_eq_some_iff.mp here).1
      obtain ⟨past, scheduled⟩ := near r (List.mem_of_getElem? here)
      have short : r.timeout ≤ 16 := by have := scheduled.cases; omega
      have later : (if next_time = 0 ∨ r.sentat + r.timeout < next_time then r.sentat + r.timeout else next_time) ≤
          now + 16 := by split <;> omega
      dsimp only at done
      split at done
      · rename_i due
        split at done
        · obtain ⟨⟨t, next', called'⟩, loop, same⟩ := Option.map_eq_some_iff.mp done
          dsimp only at same
          obtain ⟨rfl, pair⟩ := Prod.mk.inj same
          obtain ⟨rfl, -⟩ := Prod.mk.inj pair
          refine ih loop (fun x member => near x (List.mem_of_mem_eraseIdx member)) ?_ (fun j less x at_ => ?_) soon
          · rw [rem_request_requests, List.length_eraseIdx_of_lt bound]
            omega
          · rw [rem_request_requests, List.getElem?_eraseIdx_of_lt less] at at_
            exact before j less x at_
        · rename_i more
          obtain ⟨t, resent, loop⟩ := Option.bind_eq_some_iff.mp done
          obtain ⟨r', sent, after⟩ := resend_query_sent (List.getElem?_set_self bound) resent
          -- the request is sent now, with a longer timeout
          have fresh : r'.sentat = now ∧ r'.retries = r.retries - 1 ∧ r'.timeout = r.timeout + r.timeout := by
            obtain rfl | ⟨id, sends, count, -, rfl⟩ := sent <;> exact ⟨rfl, rfl, rfl⟩
          obtain ⟨again, -⟩ := scheduled.retry r' (by omega) (Int.le_add_of_sub_left_le (Int.le_refl _)) fresh.2.1
            fresh.1 fresh.2.2
          have requests : t.requests = s.requests.set i r' := after.trans (List.set_set ..)
          have positive : 0 ≤ r.timeout := by have := scheduled.cases; omega
          refine ih loop ?_ ?_ ?_ later
          · rw [requests]
            intro x member
            obtain old | rfl := List.mem_or_eq_of_mem_set member
            · exact near x old
            · exact ⟨fresh.1.le, again⟩
          · rw [requests, List.length_set]
            omega
          · rw [requests]
            intro j less x at_
            by_cases mine : j = i
            · rw [mine, List.getElem?_set_self bound] at at_
              obtain rfl := Option.some.inj at_
              omega
            · rw [List.getElem?_set_ne (Ne.symm mine)] at at_
              exact before j (by omega) x at_
      · rename_i early
        refine ih done near (by omega) (fun j less x at_ => ?_) later
        by_cases mine : j = i
        · rw [mine, here] at at_
          obtain rfl := Option.some.inj at_
          omega
        · exact before j (by omega) x at_

theorem timeout_query_list_checked {next : Int} {called : List DnsCallback} (epoch : 0 ≤ now)
    (done : s.timeout_query_list env now = some (s', next, called)) (near : Near now s.requests) :
    (∀ r ∈ s'.requests, now ≤ r.sentat + r.timeout) ∧ next ≤ now + AR_TTL := by
  obtain ⟨next_time, loop, rfl⟩ := timeout_query_list_loop done
  obtain ⟨checked, soon⟩ := timeoutFrom_checked loop near (Nat.zero_add _)
    (fun j less => absurd less (Nat.not_lt_zero j)) (by omega)
  refine ⟨checked, ?_⟩
  unfold AR_TTL
  split <;> omega

/-! ### The time of the next check -/

variable {ReverseLookup : Int} {i : Nat}

theorem query_name_next {name : Text} {type : Nat} (done : s.query_name env name type i = some s') :
    s'.nextDNSCheck = s.nextDNSCheck := by
  unfold query_name at done
  split at done
  · obtain rfl := Option.some.inj done
    rfl
  · obtain ⟨id, -, rfl⟩ := Option.map_eq_some_iff.mp done
    rfl

theorem resend_query_next (done : s.resend_query env i = some s') : s'.nextDNSCheck = s.nextDNSCheck := by
  unfold resend_query at done
  split at done
  · obtain rfl := Option.some.inj done
    rfl
  · split at done
    · obtain rfl := Option.some.inj done
      rfl
    · split at done
      · exact query_name_next done
      · split at done
        · exact query_name_next done
        · obtain rfl := Option.some.inj done
          rfl

theorem gethost_byname_type_next {name : Text} {query : DNSQuery} {type : Nat} {reply : Option CacheId}
    (done : s.gethost_byname_type env now ReverseLookup name query type = some (s', reply)) :
    s'.nextDNSCheck = s.nextDNSCheck ∨ s'.nextDNSCheck = 1 := by
  unfold gethost_byname_type at done
  split at done
  · obtain ⟨rfl, -⟩ := Prod.mk.inj (Option.some.inj done)
    exact .inl rfl
  · obtain ⟨t, -, same⟩ := Option.map_eq_some_iff.mp done
    obtain ⟨rfl, -⟩ := Prod.mk.inj same
    exact .inr rfl

theorem gethost_byaddr_next {addr : InAddr} {query : DNSQuery} {reply : Option CacheId}
    (done : s.gethost_byaddr env now ReverseLookup addr query = some (s', reply)) :
    s'.nextDNSCheck = s.nextDNSCheck ∨ s'.nextDNSCheck = 1 := by
  unfold gethost_byaddr at done
  split at done
  · obtain ⟨rfl, -⟩ := Prod.mk.inj (Option.some.inj done)
    exact .inl rfl
  · obtain ⟨t, -, same⟩ := Option.map_eq_some_iff.mp done
    obtain ⟨rfl, -⟩ := Prod.mk.inj same
    exact .inr rfl

theorem take_reply_next {r : ResRQ} {view : HostView} {answer_count : Nat} {called : List DnsCallback}
    (done : s.take_reply env now ReverseLookup i r view answer_count = some (s', called)) :
    s'.nextDNSCheck = s.nextDNSCheck ∨ s'.nextDNSCheck = 1 := by
  unfold take_reply at done
  split at done
  · split at done
    · split at done
      · obtain ⟨rfl, -⟩ := Prod.mk.inj (Option.some.inj done)
        exact .inl rfl
      · obtain ⟨⟨t, reply⟩, lookup, result⟩ := Option.map_eq_some_iff.mp done
        have next := gethost_byname_type_next lookup
        cases reply with
        | some cp =>
          obtain ⟨rfl, -⟩ := Prod.mk.inj result
          exact next
        | none =>
          obtain ⟨rfl, -⟩ := Prod.mk.inj result
          exact next
    · split at done
      obtain ⟨rfl, -⟩ := Prod.mk.inj (Option.some.inj done)
      exact .inl rfl
  · split at done
    · obtain ⟨rfl, -⟩ := Prod.mk.inj (Option.some.inj done)
      exact .inl rfl
    · obtain ⟨rfl, -⟩ := Prod.mk.inj (Option.some.inj done)
      exact .inl rfl

theorem get_res_next {d : Datagram} {called : List DnsCallback}
    (done : s.get_res env lib now ReverseLookup d = some (s', called)) :
    s'.nextDNSCheck = s.nextDNSCheck ∨ s'.nextDNSCheck = 1 := by
  have kept : ∀ {t : Resolver} {called' : List DnsCallback}, t.nextDNSCheck = s.nextDNSCheck →
      some (t, called') = some (s', called) → s'.nextDNSCheck = s.nextDNSCheck ∨ s'.nextDNSCheck = 1 := by
    intro t called' same pair
    obtain ⟨rfl, -⟩ := Prod.mk.inj (Option.some.inj pair)
    exact .inl same
  unfold get_res at done
  split at done
  · exact kept rfl done
  · split at done
    · exact kept rfl done
    · split at done
      · exact kept rfl done
      · split at done
        · exact kept rfl done
        · split at done
          · split at done
            · obtain ⟨t, resent, pair⟩ := Option.map_eq_some_iff.mp done
              exact kept (resend_query_next resent) (congrArg some pair)
            · split at done
              · obtain ⟨t, resent, pair⟩ := Option.map_eq_some_iff.mp done
                have same := resend_query_next resent
                exact kept same (congrArg some pair)
              · exact kept (t := s.rem_request _) rfl done
          · split at done
            have next := take_reply_next done
            exact next

end Resolver

/-! ### Runs -/

/-- **The state of a run in time**: the timeouts were checked at some time, and every request has its age. -/
structure Resolver.InTime (often : Nat) (now last : Int) (s : Resolver) (log : ResolverLog) (check : Int) : Prop where
  epoch : 0 ≤ check
  past : check ≤ now
  recent : last ≤ check + AR_TTL
  next : s.nextDNSCheck ≤ check + AR_TTL
  soon : now ≤ last + often
  aged : ∀ r ∈ s.requests, r.Aged log.asked (AR_TTL + often) check now

section

variable {lib : Resolv} {env : Nameservers} {often : Nat} {now last check : Int} {s s' : Resolver}
  {log log' : ResolverLog}

theorem Resolver.InTime.moves (inTime : s.InTime often now last log check) {l : List ResRQ}
    (moves : ResolverMoves now (s.requests, log) (l, log')) :
    ∀ r ∈ l, r.Aged log'.asked (AR_TTL + often) check now := by
  have recent := inTime.recent
  have soon := inTime.soon
  have positive : 0 ≤ AR_TTL + often := by unfold AR_TTL; omega
  refine moves.keep (P := fun state => ∀ r ∈ state.1, r.Aged state.2.asked (AR_TTL + often) check now)
    (fun aged move => move.aged positive inTime.past (by omega) aged) inTime.aged

theorem Resolver.InTime.call (inTime : s.InTime often now last log check) {event : ResolverEvent}
    (done : s.step lib env now log event = some (s', log')) :
    ∃ check, s'.InTime often now (event.checked now last) log' check := by
  have aged := inTime.moves (Resolver.step_moves done)
  have ordinary : (s'.nextDNSCheck = s.nextDNSCheck ∨ s'.nextDNSCheck = 1) →
      s'.InTime often now last log' check := fun next =>
    ⟨inTime.epoch, inTime.past, inTime.recent, by
      have := inTime.next
      have := inTime.epoch
      unfold AR_TTL at *
      omega, inTime.soon, aged⟩
  cases event with
  | gethost_byname ReverseLookup name query =>
    obtain ⟨⟨t, reply⟩, lookup, same⟩ := Option.map_eq_some_iff.mp done
    obtain ⟨rfl, -⟩ := Prod.mk.inj same
    exact ⟨check, ordinary (Resolver.gethost_byname_type_next lookup)⟩
  | gethost_byaddr ReverseLookup addr query =>
    obtain ⟨⟨t, reply⟩, lookup, same⟩ := Option.map_eq_some_iff.mp done
    obtain ⟨rfl, -⟩ := Prod.mk.inj same
    exact ⟨check, ordinary (Resolver.gethost_byaddr_next lookup)⟩
  | get_res ReverseLookup d =>
    obtain ⟨⟨t, called⟩, reply, same⟩ := Option.map_eq_some_iff.mp done
    obtain ⟨rfl, -⟩ := Prod.mk.inj same
    exact ⟨check, ordinary (Resolver.get_res_next reply)⟩
  | timeout_resolver =>
    obtain ⟨⟨t, called⟩, checked, same⟩ := Option.map_eq_some_iff.mp done
    obtain ⟨rfl, -⟩ := Prod.mk.inj same
    have future : now ≤ now + (often : Int) := by omega
    obtain ⟨early, -, next, -⟩ | ⟨u, list, kept⟩ := Resolver.timeout_resolver_requests checked
    · exact ⟨check, inTime.epoch, inTime.past, early.trans inTime.next, next ▸ inTime.next, future, aged⟩
    · have near : Resolver.Near now s.requests := fun r member =>
        ⟨(inTime.aged r member).past, (inTime.aged r member).scheduled⟩
      have epoch := inTime.epoch.trans inTime.past
      obtain ⟨due, next⟩ := Resolver.timeout_query_list_checked epoch list near
      refine ⟨now, epoch, Int.le_refl _, ?_, next, future, fun r member => ?_⟩
      · show now ≤ now + AR_TTL
        unfold AR_TTL
        omega
      · have old := aged r member
        exact ⟨old.past, old.scheduled, due r (kept ▸ member), old.young⟩
  | delete_resolver_queries vptr =>
    obtain ⟨rfl, -⟩ := Prod.mk.inj (Option.some.inj done)
    exact ⟨check, ordinary (.inl rfl)⟩
  | refer cp ref_count =>
    obtain ⟨rfl, -⟩ := Prod.mk.inj (Option.some.inj done)
    exact ⟨check, ordinary (.inl rfl)⟩

theorem ResolverRun.inTime (run : ResolverRun lib env often now last s log) :
    ∃ check, s.InTime often now last log check := by
  induction run with
  | @start now epoch =>
    have future : now ≤ now + (often : Int) := by omega
    refine ⟨now, epoch, Int.le_refl _, ?_, ?_, future, fun r member => absurd member List.not_mem_nil⟩
    · unfold AR_TTL
      omega
    · show 0 ≤ now + AR_TTL
      unfold AR_TTL
      omega
  | wait _ passed soon ih =>
    obtain ⟨check, inTime⟩ := ih
    refine ⟨check, inTime.epoch, inTime.past.trans passed, inTime.recent, inTime.next, soon, fun r member => ?_⟩
    have old := inTime.aged r member
    exact ⟨old.past.trans passed, old.scheduled, old.checked, old.young⟩
  | call _ done ih =>
    obtain ⟨check, inTime⟩ := ih
    exact inTime.call done

/-- **Every query ends in time.** With `timeout_resolver` called every `often` seconds at least, a query that is
pending was asked at most `3656 + 6 * often` seconds ago; the query is told apart by its number. -/
theorem resolver_in_time (run : ResolverRun lib env often now last s log) {r : ResRQ} (pending : r ∈ s.requests) :
    ∃ t, log.asked[r.query.number]? = some (r.query, t) ∧ now ≤ t + (3656 + 6 * often) := by
  obtain ⟨check, inTime⟩ := run.inTime
  obtain ⟨past, scheduled, checked, t, numbered, young⟩ := inTime.aged r pending
  have recent := inTime.recent
  have soon := inTime.soon
  have positive : 0 ≤ AR_TTL + often := by unfold AR_TTL; omega
  have limit := scheduled.le_limit positive
  refine ⟨t, numbered, ?_⟩
  unfold requestTime AR_TTL at *
  split at young <;> omega

/-- Both queries, which were sent again. -/
theorem resolver_in_time_sent : ∃ (s : Resolver) (log : ResolverLog),
    s.requests.map ResRQ.query = [nameQuery, addrQuery] ∧ ∀ r ∈ s.requests,
      ∃ t, log.asked[r.query.number]? = some (r.query, t) ∧ 5 ≤ t + (3656 + 6 * (5 : Int)) := by
  obtain ⟨s, log, run, -, -, -, queries, -⟩ := sample_sent
  exact ⟨s, log, queries, fun r pending => resolver_in_time run pending⟩

end

end PtlinkIrcd
