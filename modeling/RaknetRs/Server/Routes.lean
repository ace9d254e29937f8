import RaknetRs.Server.Incoming

namespace RaknetRs

-- The dispatcher's `router` is a map: every address has at most one route, to a peer the offline
-- handler counts as connected, and to the newest IO handed out for that address.
structure RoutesCurrent (s : Incoming) : Prop where
  keys : (s.router.map (·.1)).Nodup
  connected : ∀ r ∈ s.router, r.1 ∈ s.offline
  newest : ∀ r ∈ s.router, ∀ j io, r.2 < j → s.ios[j]? = some io → io.addr ≠ r.1

section Routes

variable {s : Incoming}

theorem getElem?_snoc {l : List PeerIo} {x io : PeerIo} {j : Nat} (got : (l ++ [x])[j]? = some io) :
    l[j]? = some io ∨ j = l.length ∧ io = x := by
  rcases Nat.lt_or_ge j l.length with inside | outside
  · exact .inl (by rwa [List.getElem?_append_left inside] at got)
  · rw [List.getElem?_append_right outside] at got
    obtain ⟨k,rfl⟩ := Nat.exists_eq_add_of_le outside
    cases k with
    | zero => exact .inr ⟨rfl,by simpa using got.symm⟩
    | succ k => simp at got

-- Dropping an IO marks it and keeps every address where it was.
theorem dropIo_ios (index : Nat) {j : Nat} {io : PeerIo} (got : (s.dropIo index).ios[j]? = some io) :
    ∃ old, s.ios[j]? = some old ∧ old.addr = io.addr := by
  unfold Incoming.dropIo at got
  split at got
  · rename_i handle found
    split at got
    · exact ⟨io,got,rfl⟩
    · rw [List.getElem?_set'] at got
      split at got
      · rename_i same
        subst same
        rw [found] at got
        exact ⟨handle,found,by cases got; rfl⟩
      · exact ⟨io,got,rfl⟩
  · exact ⟨io,got,rfl⟩

theorem evict_current (valid : RoutesCurrent s) (addr : Nat) : RoutesCurrent (s.evict addr) :=
  ⟨valid.keys.sublist ((List.filter_sublist _).map _),
    fun r mem => List.mem_filter.mpr ⟨valid.connected r (List.mem_of_mem_filter mem),by simpa using (List.mem_filter.mp mem).2⟩,
    fun r mem => valid.newest r (List.mem_of_mem_filter mem)⟩

theorem foldl_evict_current (addrs : List Nat) (s : Incoming) (valid : RoutesCurrent s) :
    RoutesCurrent (addrs.foldl Incoming.evict s) := by
  induction addrs generalizing s with
  | nil => exact valid
  | cons a rest ih => exact ih _ (evict_current valid a)

theorem clearDroppedAddr_current (valid : RoutesCurrent s) : RoutesCurrent s.clearDroppedAddr :=
  foldl_evict_current _ _ ⟨valid.keys,valid.connected,valid.newest⟩

theorem handshake_current (valid : RoutesCurrent s) (addr : Nat) : RoutesCurrent (s.handshake addr) := by
  unfold Incoming.handshake
  split
  · exact valid
  · exact ⟨valid.keys,fun r mem => List.mem_append_left _ (valid.connected r mem),valid.newest⟩

-- A new route goes to the IO just handed out, for an address with no route yet.
theorem deliverOutput_current (valid : RoutesCurrent s) {addr : Nat} (connected : addr ∈ s.offline) :
    RoutesCurrent (s.deliverOutput addr) := by
  unfold Incoming.deliverOutput
  split
  · split
    · exact evict_current valid addr
    · exact valid
  · rename_i missing
    have other : ∀ r ∈ s.router, r.1 ≠ addr := fun r mem same => by
      simpa [same] using List.find?_eq_none.mp missing r mem
    refine ⟨?_,fun r mem => ?_,fun r mem j io later got => ?_⟩
    · rw [List.map_append,List.Nodup,List.pairwise_append]
      exact ⟨valid.keys,List.pairwise_singleton _ _,fun a old b new same => by
        obtain ⟨r,mem,rfl⟩ := List.mem_map.mp old
        exact other r mem (same.trans (List.mem_singleton.mp new))⟩
    · rcases List.mem_append.mp mem with old | new
      · exact valid.connected r old
      · rw [List.mem_singleton.mp new]; exact connected
    · rcases List.mem_append.mp mem with old | new
      · rcases getElem?_snoc got with got | ⟨-,rfl⟩
        · exact valid.newest r old j io later got
        · exact (other r old).symm
      · rw [List.mem_singleton.mp new] at later ⊢
        rcases getElem?_snoc got with got | ⟨same,-⟩
        · exact absurd (List.getElem?_eq_some.mp got).1 (by simp only at later; omega)
        · simp only at later; omega

theorem dropIo_current (valid : RoutesCurrent s) (index : Nat) : RoutesCurrent (s.dropIo index) := by
  have same : (s.dropIo index).router = s.router ∧ (s.dropIo index).offline = s.offline := by
    unfold Incoming.dropIo
    split
    · split <;> exact ⟨rfl,rfl⟩
    · exact ⟨rfl,rfl⟩
  refine ⟨same.1 ▸ valid.keys,fun r mem => same.2 ▸ valid.connected r (same.1 ▸ mem),fun r mem j io later got => ?_⟩
  obtain ⟨old,found,home⟩ := dropIo_ios index got
  exact home ▸ valid.newest r (same.1 ▸ mem) j old later found

theorem step_current (valid : RoutesCurrent s) (e : IncomingEvent) : RoutesCurrent (s.step e) := by
  cases e with
  | pollNext =>
    simp only [Incoming.step]
    split
    · exact valid
    · have cleared := clearDroppedAddr_current valid
      exact ⟨cleared.keys,cleared.connected,cleared.newest⟩
  | handshake addr =>
    simp only [Incoming.step]
    split
    · exact handshake_current valid addr
    · exact valid
  | offlineYield addr =>
    simp only [Incoming.step]
    split
    · rename_i polled
      exact deliverOutput_current valid (by simpa using (Bool.and_eq_true _ _).mp polled |>.2)
    · exact valid
  | offlinePending => exact ⟨valid.keys,valid.connected,valid.newest⟩
  | dropIo index => exact dropIo_current valid index

theorem run_current : ∀ (events : List IncomingEvent) (s : Incoming), RoutesCurrent s → RoutesCurrent (s.run events)
  | [],_,valid => valid
  | e :: events,s,valid => run_current events (s.step e) (step_current valid e)

end Routes

-- Along every run from `make_incoming`, `poll_next` keeps one route per address, only for a peer
-- the offline handler counts as connected, and a routed packet goes to the newest IO handed out
-- for its address: an IO the server replaced never gets a packet again.
theorem router_maps_peers_to_newest_io (events : List IncomingEvent) :
    ((Incoming.new.run events).router.map (·.1)).Nodup ∧
      ∀ addr i, (Incoming.new.run events).routeOf addr = some i →
        addr ∈ (Incoming.new.run events).offline ∧
          (∃ io, (Incoming.new.run events).ios[i]? = some io ∧ io.addr = addr) ∧
          ∀ j io, i < j → (Incoming.new.run events).ios[j]? = some io → io.addr ≠ addr := by
  have current := run_current events Incoming.new ⟨List.nodup_nil,fun _ mem => by simp [Incoming.new] at mem,
    fun _ mem => by simp [Incoming.new] at mem⟩
  have valid := run_valid events Incoming.new new_valid
  refine ⟨current.keys,fun addr i routed => ?_⟩
  obtain ⟨r,found,rfl⟩ := Option.map_eq_some'.mp routed
  have mem := List.mem_of_find?_eq_some found
  have home : r.1 = addr := by simpa using List.find?_some found
  obtain ⟨io,got,addrEq⟩ := valid.routes r mem
  exact ⟨home ▸ current.connected r mem,⟨io,got,addrEq.trans home⟩,home ▸ current.newest r mem⟩

end RaknetRs
