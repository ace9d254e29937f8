import Mathlib.Data.List.Basic

namespace RaknetRs

/-- Modelled from the spec: the per-peer IO that `handle_online` builds (server/handler/online
is not under src/). Dropping it pushes its address on the drop channel and closes the receiver
its router sender feeds. -/
structure PeerIo where
  addr : Nat
  dropped : Bool
deriving DecidableEq, Repr

-- `Incoming` on addresses. `router` maps an address to the IO its sender feeds, an index into
-- `ios`, which lists every IO handed out; `offline` is the offline handler's set of connected
-- peers. The config, the socket and the packets themselves are not read by anything modelled.
structure Incoming where
  router : List (Nat × Nat)
  dropChannel : List Nat
  offline : List Nat
  ios : List PeerIo
  polling : Bool
deriving DecidableEq, Repr

-- `pollNext` starts `poll_next`; inside it the offline handler completes a handshake, yields a
-- connected packet of an address, or has nothing more (`poll_next` returns Pending). Another
-- task can drop an IO at any time.
inductive IncomingEvent where
  | pollNext
  | handshake (addr : Nat)
  | offlineYield (addr : Nat)
  | offlinePending
  | dropIo (io : Nat)
deriving DecidableEq, Repr

def Incoming.new : Incoming := ⟨[],[],[],[],false⟩

def Incoming.routeOf (s : Incoming) (addr : Nat) : Option Nat := (s.router.find? (·.1 == addr)).map (·.2)

/-- Modelled from the spec: `offline.disconnect(addr)` forgets the peer, so that its handshake
can happen again. -/
def Incoming.disconnect (offline : List Nat) (addr : Nat) : List Nat := offline.filter (· ≠ addr)

/-- Modelled from the spec: the offline handler connects a peer once per handshake. -/
def Incoming.handshake (s : Incoming) (addr : Nat) : Incoming :=
  if addr ∈ s.offline then s else {s with offline := s.offline ++ [addr]}

-- `router.remove(&addr); offline.disconnect(&addr)`.
def Incoming.evict (s : Incoming) (addr : Nat) : Incoming :=
  {s with router := s.router.filter (·.1 ≠ addr),offline := Incoming.disconnect s.offline addr}

-- `clear_dropped_addr` drains the drop channel.
def Incoming.clearDroppedAddr (s : Incoming) : Incoming := s.dropChannel.foldl Incoming.evict {s with dropChannel := []}

-- One offline-handler output in `poll_next`'s loop: forward to a known peer (evicting it when the
-- send fails on its closed receiver), or hand out a new IO and return.
def Incoming.deliverOutput (s : Incoming) (addr : Nat) : Incoming :=
  match s.router.find? (·.1 == addr) with
  | some (_,io) => if (s.ios[io]?.map (·.dropped)).getD false then s.evict addr else s
  | none => {s with router := s.router ++ [(addr,s.ios.length)],ios := s.ios ++ [⟨addr,false⟩],polling := false}

/-- Modelled from the spec: dropping an IO pushes its address and closes its receiver. -/
def Incoming.dropIo (s : Incoming) (io : Nat) : Incoming :=
  match s.ios[io]? with
  | some handle =>
    if handle.dropped then s
    else {s with ios := s.ios.set io {handle with dropped := true},dropChannel := s.dropChannel ++ [handle.addr]}
  | none => s

def Incoming.step (s : Incoming) : IncomingEvent → Incoming
  | .pollNext => if s.polling then s else {s.clearDroppedAddr with polling := true}
  | .handshake addr => if s.polling then s.handshake addr else s
  | .offlineYield addr => if s.polling && addr ∈ s.offline then s.deliverOutput addr else s
  | .offlinePending => {s with polling := false}
  | .dropIo io => s.dropIo io

def Incoming.run (s : Incoming) (events : List IncomingEvent) : Incoming := events.foldl Incoming.step s

-- The first IO of address 7 is dropped after a poll has drained the channel, so the send in the
-- same poll fails and evicts it; the peer reconnects and gets a second IO in that poll. The
-- next poll drains the first IO's notice and evicts the live second one, and a third IO of the
-- address follows while the second is alive.
theorem stale_drop_evicts_live_connection :
    let before : Incoming := Incoming.run Incoming.new [.pollNext,.handshake 7,.offlineYield 7,
      .pollNext,.dropIo 0,.offlineYield 7,.handshake 7,.offlineYield 7]
    let after : Incoming := Incoming.step before .pollNext
    Incoming.routeOf before 7 = some 1 ∧ before.ios[1]? = some ⟨7,false⟩ ∧
      Incoming.routeOf after 7 = none ∧ after.ios[1]? = some ⟨7,false⟩ ∧
      ((Incoming.run after [.handshake 7,.offlineYield 7]).ios.filter (fun io => io.addr = 7 && !io.dropped)).length = 2 := by
  decide

-- Every route points at an IO of its own address, and every address on the drop channel is that
-- of a dropped IO.
structure IncomingValid (s : Incoming) : Prop where
  routes : ∀ r ∈ s.router, ∃ io, s.ios[r.2]? = some io ∧ io.addr = r.1
  drops : ∀ a ∈ s.dropChannel, ∃ (i : Nat) (io : PeerIo), s.ios[i]? = some io ∧ io.addr = a ∧ io.dropped = true

section Dispatcher

variable {s : Incoming}

theorem getElem?_append_of_some {l l' : List PeerIo} {i : Nat} {io : PeerIo} (found : l[i]? = some io) :
    (l ++ l')[i]? = some io := by
  rw [List.getElem?_append_left (List.getElem?_eq_some.mp found).1,found]

theorem foldl_evict (addrs : List Nat) (s : Incoming) :
    (addrs.foldl Incoming.evict s).router = s.router.filter (fun r => r.1 ∉ addrs) ∧
      (addrs.foldl Incoming.evict s).ios = s.ios ∧ (addrs.foldl Incoming.evict s).dropChannel = s.dropChannel := by
  induction addrs generalizing s with
  | nil => simp
  | cons a rest ih =>
    obtain ⟨router,ios,channel⟩ := ih (s.evict a)
    refine ⟨?_,ios,channel⟩
    rw [List.foldl_cons,router]
    simp [Incoming.evict,List.filter_filter,Bool.and_comm]

theorem clearDroppedAddr_router (s : Incoming) :
    s.clearDroppedAddr.router = s.router.filter (fun r => r.1 ∉ s.dropChannel) :=
  (foldl_evict s.dropChannel _).1

theorem evict_valid (valid : IncomingValid s) (addr : Nat) : IncomingValid (s.evict addr) :=
  ⟨fun r mem => valid.routes r (List.mem_of_mem_filter mem),valid.drops⟩

theorem clearDroppedAddr_valid (valid : IncomingValid s) : IncomingValid s.clearDroppedAddr := by
  obtain ⟨router,ios,channel⟩ := foldl_evict s.dropChannel {s with dropChannel := []}
  refine ⟨fun r mem => ?_,fun a mem => ?_⟩
  · rw [Incoming.clearDroppedAddr,router] at mem
    rw [Incoming.clearDroppedAddr,ios]
    exact valid.routes r (List.mem_of_mem_filter mem)
  · rw [Incoming.clearDroppedAddr,channel] at mem
    cases mem

theorem deliverOutput_valid (valid : IncomingValid s) (addr : Nat) : IncomingValid (s.deliverOutput addr) := by
  unfold Incoming.deliverOutput
  split
  · split
    · exact evict_valid valid addr
    · exact valid
  · refine ⟨fun r mem => ?_,fun a mem => ?_⟩
    · rcases List.mem_append.mp mem with old | new
      · obtain ⟨io,found,home⟩ := valid.routes r old
        exact ⟨io,getElem?_append_of_some found,home⟩
      · rw [List.mem_singleton.mp new]
        exact ⟨_,List.getElem?_concat_length _ _,rfl⟩
    · obtain ⟨i,io,found,home,dropped⟩ := valid.drops a mem
      exact ⟨i,io,getElem?_append_of_some found,home,dropped⟩

theorem dropIo_valid (valid : IncomingValid s) (index : Nat) : IncomingValid (s.dropIo index) := by
  unfold Incoming.dropIo
  split
  · rename_i handle found
    split
    · exact valid
    · rename_i live
      have marked (j : Nat) : (s.ios.set index {handle with dropped := true})[j]? =
          if index = j then some {handle with dropped := true} else s.ios[j]? := by
        rw [List.getElem?_set']
        split
        · subst index; rw [found]; rfl
        · rfl
      refine ⟨fun r mem => ?_,fun a mem => ?_⟩
      · obtain ⟨io,got,home⟩ := valid.routes r mem
        rw [marked]
        split
        · rename_i same; subst same
          rw [found] at got; cases got
          exact ⟨_,rfl,home⟩
        · exact ⟨io,got,home⟩
      · rcases List.mem_append.mp mem with old | new
        · obtain ⟨i,io,got,home,dropped⟩ := valid.drops a old
          refine ⟨i,io,?_,home,dropped⟩
          rw [marked,if_neg]
          · exact got
          · rintro rfl; rw [found] at got; cases got; exact live dropped
        · exact ⟨index,{handle with dropped := true},by rw [marked,if_pos rfl],(List.mem_singleton.mp new).symm,rfl⟩
  · exact valid

theorem step_valid (valid : IncomingValid s) (e : IncomingEvent) : IncomingValid (s.step e) := by
  cases e with
  | pollNext =>
    simp only [Incoming.step]
    split
    · exact valid
    · exact ⟨(clearDroppedAddr_valid valid).routes,(clearDroppedAddr_valid valid).drops⟩
  | handshake addr =>
    simp only [Incoming.step,Incoming.handshake]
    split
    · split
      · exact valid
      · exact ⟨valid.routes,valid.drops⟩
    · exact valid
  | offlineYield addr =>
    simp only [Incoming.step]
    split
    · exact deliverOutput_valid valid addr
    · exact valid
  | offlinePending => exact ⟨valid.routes,valid.drops⟩
  | dropIo index => exact dropIo_valid valid index

theorem run_valid : ∀ (events : List IncomingEvent) (s : Incoming), IncomingValid s → IncomingValid (s.run events)
  | [],_,valid => valid
  | e :: events,s,valid => run_valid events (s.step e) (step_valid valid e)

theorem handshake_router (s : Incoming) (addr : Nat) : (s.handshake addr).router = s.router := by
  unfold Incoming.handshake; split <;> rfl

theorem dropIo_router (s : Incoming) (index : Nat) : (s.dropIo index).router = s.router := by
  unfold Incoming.dropIo
  split
  · split <;> rfl
  · rfl

-- What the dispatcher does guarantee: an address loses its route only once some IO of that
-- address has been dropped, though not necessarily the IO the route was made for.
theorem step_evicts_after_drop (valid : IncomingValid s) (e : IncomingEvent) {a : Nat}
    (routed : a ∈ s.router.map (·.1)) (evicted : a ∉ (s.step e).router.map (·.1)) :
    ∃ (i : Nat) (io : PeerIo), s.ios[i]? = some io ∧ io.addr = a ∧ io.dropped = true := by
  obtain ⟨r,mem,rfl⟩ := List.mem_map.mp routed
  cases e with
  | pollNext =>
    simp only [Incoming.step] at evicted
    split at evicted
    · exact absurd routed evicted
    · rw [clearDroppedAddr_router] at evicted
      by_cases listed : r.1 ∈ s.dropChannel
      · exact valid.drops _ listed
      · exact absurd (List.mem_map_of_mem _ (List.mem_filter.mpr ⟨mem,by simpa using listed⟩)) evicted
  | handshake addr =>
    simp only [Incoming.step] at evicted
    split at evicted
    · rw [handshake_router] at evicted; exact absurd routed evicted
    · exact absurd routed evicted
  | offlineYield addr =>
    simp only [Incoming.step] at evicted
    split at evicted
    · unfold Incoming.deliverOutput at evicted
      split at evicted
      · rename_i entry io found
        split at evicted
        · rename_i dropped
          have same : r.1 = addr := by
            by_contra other
            exact evicted (List.mem_map_of_mem _ (List.mem_filter.mpr ⟨mem,by simpa using other⟩))
          have home : entry = addr := by simpa using List.find?_some found
          obtain ⟨handle,got,addrEq⟩ := valid.routes _ (List.mem_of_find?_eq_some found)
          rw [got] at dropped
          exact ⟨io,handle,got,addrEq.trans (home.trans same.symm),by simpa using dropped⟩
        · exact absurd routed evicted
      · exact absurd (by simp only [List.map_append,List.mem_append]; exact .inl routed) evicted
    · exact absurd routed evicted
  | offlinePending => exact absurd routed evicted
  | dropIo index =>
    simp only [Incoming.step,dropIo_router] at evicted
    exact absurd routed evicted

end Dispatcher

theorem new_valid : IncomingValid Incoming.new :=
  ⟨fun _ mem => by simp [Incoming.new] at mem,fun _ mem => by simp [Incoming.new] at mem⟩

-- Along every run from `make_incoming`, an address loses its route only once some IO of that
-- address has been dropped: the drop channel holds only addresses of dropped IOs, and nothing else
-- evicts. The IO dropped need not be the one the route was made for.
theorem route_lost_only_after_drop (events : List IncomingEvent) (e : IncomingEvent) {a : Nat}
    (routed : a ∈ (Incoming.new.run events).router.map (·.1))
    (evicted : a ∉ ((Incoming.new.run events).step e).router.map (·.1)) :
    ∃ (i : Nat) (io : PeerIo), (Incoming.new.run events).ios[i]? = some io ∧ io.addr = a ∧ io.dropped = true :=
  step_evicts_after_drop (run_valid events Incoming.new new_valid) e routed evicted

theorem route_lost_only_after_drop_sample :
    let s := Incoming.new.run [.pollNext,.handshake 7,.offlineYield 7,.dropIo 0]
    (7 ∈ s.router.map (·.1) ∧ 7 ∉ (s.step .pollNext).router.map (·.1)) ∧
      ∃ (i : Nat) (io : PeerIo), s.ios[i]? = some io ∧ io.addr = 7 ∧ io.dropped = true :=
  ⟨⟨by decide,by decide⟩,route_lost_only_after_drop [.pollNext,.handshake 7,.offlineYield 7,.dropIo 0] .pollNext
    (by decide) (by decide)⟩

end RaknetRs
