import Mathlib.Data.Multiset.Basic
import RaknetRs.Link.Transfer

namespace RaknetRs

-- What a run took in, each event labelled by the state it met: the input a run carried, kept
-- apart from what its steps did with it.
def collect {σ ε α : Type} (step : σ → ε → σ) (label : σ → ε → List α) : σ → List ε → List α
  | _,[] => []
  | s,e :: events => label s e ++ collect step label (step s e) events

theorem foldl_collect {σ ε α : Type} {step : σ → ε → σ} {label : σ → ε → List α} (history : σ → List α)
    (grows : ∀ s e, history (step s e) = history s ++ label s e) :
    ∀ (events : List ε) (s : σ), history (events.foldl step s) = history s ++ collect step label s events
  | [],_ => (List.append_nil _).symm
  | e :: events,s => by
    rw [List.foldl_cons,foldl_collect history grows events (step s e),grows,collect,List.append_assoc]

-- The router task and the writer's calls into the shared link, one locked section a step. A
-- frame-set's delivery is two steps, its `outgoing_ack` push and its `outgoing_nack` update,
-- with its sequence number `pending` in between. `received` (pushed), `delivered` (updated) and
-- the packets the writer took are ghost history.
structure LinkSystem where
  router : Router
  link : TransferLink
  pending : Option Uint24le
  received : List Uint24le
  delivered : List Uint24le
  acksReturned : List Ack
  nacksReturned : List Ack
deriving DecidableEq, Repr

inductive LinkEvent where
  | deliver (pack : Packet)
  | deliverRest
  | closeRoute
  | processOutgoingAck (mtu : Nat)
  | processOutgoingNack (mtu : Nat)
  | processIncoming
  | processUnconnected
  | sendUnconnected (packet : UnconnectedPacket)
deriving DecidableEq, Repr

namespace LinkSystem

def start (link : TransferLink) : LinkSystem := ⟨Router.new,link,none,[],[],[],[]⟩

-- The route-closed check and, for a frame-set, the first locked section. The router task cannot
-- begin a delivery while one is under way.
def deliver (s : LinkSystem) (pack : Packet) : LinkSystem :=
  if s.pending.isSome || s.router.closed then s
  else match pack with
    | .frameSet fs =>
      {s with link := Router.pushAck s.link fs.seqNum,pending := some fs.seqNum,
              received := s.received ++ [fs.seqNum]}
    | .ack records => {s with link := s.link.incomingAck' records}
    | .nack records => {s with link := s.link.incomingNack' records}

-- A panic in the second section ends the router task inside this delivery: it begins no other.
def deliverRest (s : LinkSystem) : LinkSystem :=
  match s.pending with
  | none => s
  | some seqNum =>
    match s.router.updateNack s.link seqNum with
    | (.ok router,link) => {s with router := router,link := link,pending := none,delivered := s.delivered ++ [seqNum]}
    | (.error _,link) => {s with link := link}

-- The writer's calls; a call that panics leaves the link as it was.
def takeOutgoingAck (s : LinkSystem) (mtu : Nat) : Except Fault (Option Ack) × LinkSystem :=
  match s.link.processOutgoingAck mtu with
  | .ok (ack,link) => (.ok ack,{s with link := link,acksReturned := s.acksReturned ++ ack.toList})
  | .error e => (.error e,s)

def takeOutgoingNack (s : LinkSystem) (mtu : Nat) : Except Fault (Option Ack) × LinkSystem :=
  match s.link.processOutgoingNack mtu with
  | .ok nack => (.ok nack,{s with nacksReturned := s.nacksReturned ++ nack.toList})
  | .error e => (.error e,s)

def takeIncoming (s : LinkSystem) : (List Ack × List Ack) × LinkSystem :=
  let (acks,link) := s.link.processAck
  let (nacks,link) := link.processNack
  ((acks,nacks),{s with link := link})

def takeUnconnected (s : LinkSystem) : Option UnconnectedPacket × LinkSystem :=
  let (packet,link) := s.link.processUnconnected
  (packet,{s with link := link})

def step (s : LinkSystem) : LinkEvent → LinkSystem
  | .deliver pack => s.deliver pack
  | .deliverRest => s.deliverRest
  | .closeRoute => {s with router := {s.router with closed := true}}
  | .processOutgoingAck mtu => (s.takeOutgoingAck mtu).2
  | .processOutgoingNack mtu => (s.takeOutgoingNack mtu).2
  | .processIncoming => s.takeIncoming.2
  | .processUnconnected => s.takeUnconnected.2
  | .sendUnconnected packet => {s with link := s.link.sendUnconnected packet}

def run (s : LinkSystem) (events : List LinkEvent) : LinkSystem := events.foldl step s

theorem run_append (s : LinkSystem) (events more : List LinkEvent) :
    s.run (events ++ more) = (s.run events).run more := List.foldl_append _ _ _ _

-- The frame-set an event brings into `Router::deliver` past the route-closed check, and the one
-- whose delivery an event finishes.
def routes (s : LinkSystem) : LinkEvent → List Uint24le
  | .deliver (.frameSet fs) => if s.pending.isSome || s.router.closed then [] else [fs.seqNum]
  | _ => []

def settles (s : LinkSystem) : LinkEvent → List Uint24le
  | .deliverRest => s.pending.toList
  | _ => []

def routed (s : LinkSystem) (events : List LinkEvent) : List Uint24le := collect step routes s events

def settled (s : LinkSystem) (events : List LinkEvent) : List Uint24le := collect step settles s events

end LinkSystem

-- `seq_read` as the spec states it: one past the largest number delivered, 0 before any.
def readUpTo (delivered : List Uint24le) : Nat := delivered.foldl (fun m d => max m (d.val + 1)) 0

def LinkEvent.SeqBelow (bound : Nat) : LinkEvent → Prop
  | .deliver (.frameSet fs) => fs.seqNum.val < bound
  | _ => True

instance (bound : Nat) : DecidablePred (LinkEvent.SeqBelow bound)
  | .deliver (.frameSet fs) => inferInstanceAs (Decidable (fs.seqNum.val < bound))
  | .deliver (.ack _) | .deliver (.nack _) | .deliverRest | .closeRoute | .processOutgoingAck _
  | .processOutgoingNack _ | .processIncoming | .processUnconnected | .sendUnconnected _ => isTrue trivial

-- What the acknowledgement bookkeeping reads of a state is left as it was.
structure Quiet (s t : LinkSystem) : Prop where
  seqRead : t.router.seqRead = s.router.seqRead
  outgoingAck : t.link.outgoingAck = s.link.outgoingAck
  outgoingNack : t.link.outgoingNack = s.link.outgoingNack
  pending : t.pending = s.pending
  received : t.received = s.received
  delivered : t.delivered = s.delivered
  acksReturned : t.acksReturned = s.acksReturned

section Steps

variable {s : LinkSystem} {p : Uint24le} {router : Router} {link : TransferLink}

theorem updateNack_late (late : p.val < router.seqRead.val) :
    router.updateNack link p = (.ok router,{link with outgoingNack := nackRemove p link.outgoingNack}) := by
  simp [Router.updateNack,Nat.not_le.mpr late]

theorem updateNack_ahead (ahead : router.seqRead.val ≤ p.val) (fits : p.val + 1 < 2 ^ 24) :
    router.updateNack link p = (.ok {router with seqRead := ⟨p.val + 1⟩},
      {link with outgoingNack := insertGaps router.seqRead.val p.val (nackRemove p link.outgoingNack)}) := by
  simp [Router.updateNack,ahead,Uint24le.succ_of_lt fits]

-- Whether or not `seq_num + 1` panics, the second section changes the NACK set only, and never
-- the route's state.
theorem updateNack_link (router : Router) (link : TransferLink) (p : Uint24le) :
    ∃ nack, (router.updateNack link p).2 = {link with outgoingNack := nack} := by
  unfold Router.updateNack
  rcases p.succ with _ | next <;> dsimp only <;> split <;> exact ⟨_,rfl⟩

theorem updateNack_closed {next : Router} (done : (router.updateNack link p).1 = .ok next) : next.closed = router.closed := by
  unfold Router.updateNack at done
  revert done
  rcases p.succ with _ | index <;> dsimp only <;> split <;> intro done <;> cases done <;> rfl

theorem deliverRest_cases (pending : s.pending = some p) :
    (∃ router, (s.router.updateNack s.link p).1 = .ok router ∧ s.deliverRest =
      {s with router := router,link := (s.router.updateNack s.link p).2,pending := none,delivered := s.delivered ++ [p]}) ∨
    s.deliverRest = {s with link := (s.router.updateNack s.link p).2} := by
  simp only [LinkSystem.deliverRest,pending]
  rcases s.router.updateNack s.link p with ⟨_ | router,link⟩
  · exact .inr rfl
  · exact .inl ⟨router,rfl,rfl⟩

theorem deliverRest_keeps (s : LinkSystem) : ∃ nack, s.deliverRest.link = {s.link with outgoingNack := nack} ∧
    s.deliverRest.router.closed = s.router.closed ∧ s.deliverRest.received = s.received ∧
    s.deliverRest.acksReturned = s.acksReturned ∧ s.deliverRest.nacksReturned = s.nacksReturned := by
  cases pending : s.pending with
  | none => exact ⟨s.link.outgoingNack,by simp [LinkSystem.deliverRest,pending]⟩
  | some p =>
    obtain ⟨nack,link⟩ := updateNack_link s.router s.link p
    rcases deliverRest_cases pending with ⟨router,done,next⟩ | next <;> rw [next]
    · exact ⟨nack,link,updateNack_closed done,rfl,rfl,rfl⟩
    · exact ⟨nack,link,rfl,rfl,rfl,rfl⟩

theorem deliverRest_late (pending : s.pending = some p) (late : p.val < s.router.seqRead.val) :
    s.deliverRest = {s with link := {s.link with outgoingNack := nackRemove p s.link.outgoingNack},pending := none,
                            delivered := s.delivered ++ [p]} := by
  simp [LinkSystem.deliverRest,pending,updateNack_late late]

theorem deliverRest_ahead (pending : s.pending = some p) (ahead : s.router.seqRead.val ≤ p.val) (fits : p.val + 1 < 2 ^ 24) :
    s.deliverRest = {s with
      router := {s.router with seqRead := ⟨p.val + 1⟩},
      link := {s.link with outgoingNack := insertGaps s.router.seqRead.val p.val (nackRemove p s.link.outgoingNack)},
      pending := none,delivered := s.delivered ++ [p]} := by
  simp [LinkSystem.deliverRest,pending,updateNack_ahead ahead fits]

-- The writer's ack call pulls a prefix of the heap and returns exactly those numbers.
theorem takeOutgoingAck_cases (s : LinkSystem) (mtu : Nat) :
    (s.takeOutgoingAck mtu).2 = s ∨ ∃ (ack : Option Ack) (k : Nat), (s.takeOutgoingAck mtu).2 =
      {s with link := {s.link with outgoingAck := s.link.outgoingAck.drop k},
              acksReturned := s.acksReturned ++ ack.toList} ∧
      (ack.map Ack.covered).getD [] = (s.link.outgoingAck.take k).map Uint24le.val := by
  by_cases fits : 7 ≤ mtu
  · obtain ⟨ack,k,packed,-,-,covered⟩ := extendFrom_pulls fits s.link.outgoingAck
    refine .inr ⟨ack,k,?_,covered⟩
    simp [LinkSystem.takeOutgoingAck,TransferLink.processOutgoingAck,packed,pure,Except.pure]
  · left
    simp [LinkSystem.takeOutgoingAck,TransferLink.processOutgoingAck,extendFrom,Nat.lt_of_not_le fits]

-- Every step either leaves the bookkeeping alone, begins a frame-set delivery, finishes the one
-- under way, or hands the writer a prefix of the ack heap.
theorem step_cases (s : LinkSystem) (e : LinkEvent) :
    Quiet s (s.step e) ∨
    (s.pending = none ∧ ∃ fs, e = .deliver (.frameSet fs) ∧ s.step e =
      {s with link := Router.pushAck s.link fs.seqNum,pending := some fs.seqNum,
              received := s.received ++ [fs.seqNum]}) ∨
    (∃ p, s.pending = some p ∧ e = .deliverRest ∧ s.step e = s.deliverRest) ∨
    (∃ (ack : Option Ack) (k : Nat), s.step e =
      {s with link := {s.link with outgoingAck := s.link.outgoingAck.drop k},
              acksReturned := s.acksReturned ++ ack.toList} ∧
      (ack.map Ack.covered).getD [] = (s.link.outgoingAck.take k).map Uint24le.val) := by
  have quiet {t : LinkSystem} (same : t = s) : Quiet s t := by subst same; exact ⟨rfl,rfl,rfl,rfl,rfl,rfl,rfl⟩
  cases e with
  | deliver pack =>
    simp only [LinkSystem.step,LinkSystem.deliver]
    split
    · exact .inl (quiet rfl)
    · rename_i idle
      simp only [Bool.or_eq_true,Option.isSome_iff_ne_none,not_or,ne_eq,not_not,Bool.not_eq_true] at idle
      cases pack with
      | frameSet fs => exact .inr (.inl ⟨idle.1,fs,rfl,rfl⟩)
      | ack records => exact .inl ⟨rfl,rfl,rfl,rfl,rfl,rfl,rfl⟩
      | nack records => exact .inl ⟨rfl,rfl,rfl,rfl,rfl,rfl,rfl⟩
  | deliverRest =>
    cases pending : s.pending with
    | none => exact .inl (quiet (by simp [LinkSystem.step,LinkSystem.deliverRest,pending]))
    | some p => exact .inr (.inr (.inl ⟨p,rfl,rfl,rfl⟩))
  | processOutgoingAck mtu =>
    rcases takeOutgoingAck_cases s mtu with same | taken
    · exact .inl (quiet same)
    · exact .inr (.inr (.inr taken))
  | processOutgoingNack mtu =>
    left
    simp only [LinkSystem.step,LinkSystem.takeOutgoingNack]
    split <;> exact ⟨rfl,rfl,rfl,rfl,rfl,rfl,rfl⟩
  | closeRoute | processIncoming | sendUnconnected _ => exact .inl ⟨rfl,rfl,rfl,rfl,rfl,rfl,rfl⟩
  | processUnconnected =>
    left
    simp only [LinkSystem.step,LinkSystem.takeUnconnected,TransferLink.processUnconnected]
    split <;> exact ⟨rfl,rfl,rfl,rfl,rfl,rfl,rfl⟩

theorem run_induction (P : LinkSystem → Prop) (Q : LinkEvent → Prop)
    (preserved : ∀ s e, P s → Q e → P (s.step e)) :
    ∀ (events : List LinkEvent) (s : LinkSystem), P s → (∀ e ∈ events, Q e) → P (s.run events)
  | [],_,valid,_ => valid
  | e :: events,s,valid,allowed =>
    run_induction P Q preserved events (s.step e) (preserved s e valid (allowed e (List.mem_cons_self _ _)))
      (fun e' mem => allowed e' (List.mem_cons_of_mem _ mem))

end Steps

section Invariants

variable {s : LinkSystem} {e : LinkEvent} {base : List Uint24le}

theorem foldl_max_bounds (m : Nat) (ds : List Uint24le) :
    m ≤ ds.foldl (fun m d => max m (d.val + 1)) m ∧ ∀ d ∈ ds, d.val < ds.foldl (fun m d => max m (d.val + 1)) m := by
  induction ds generalizing m with
  | nil => simp
  | cons d rest ih =>
    obtain ⟨le,lt⟩ := ih (max m (d.val + 1))
    simp only [List.foldl_cons,List.mem_cons,forall_eq_or_imp]
    exact ⟨by omega,by omega,lt⟩

theorem lt_readUpTo {ds : List Uint24le} {d : Uint24le} (mem : d ∈ ds) : d.val < readUpTo ds :=
  (foldl_max_bounds 0 ds).2 d mem

theorem readUpTo_snoc (ds : List Uint24le) (d : Uint24le) : readUpTo (ds ++ [d]) = max (readUpTo ds) (d.val + 1) := by
  simp [readUpTo]

-- ACK egress loses and duplicates nothing: what the writer took plus what is still queued is,
-- as a multiset, what was queued at the start plus what the router pushed.
def AckConserved (base : List Uint24le) (s : LinkSystem) : Prop :=
  (s.acksReturned.flatMap Ack.covered ++ s.link.outgoingAck.map Uint24le.val).Perm
    ((base ++ s.received).map Uint24le.val)

theorem flatMap_toList (ack : Option Ack) : ack.toList.flatMap Ack.covered = (ack.map Ack.covered).getD [] := by
  cases ack <;> simp

theorem step_ackConserved (valid : AckConserved base s) (e : LinkEvent) : AckConserved base (s.step e) := by
  unfold AckConserved at *
  rcases step_cases s e with quiet | ⟨-,fs,-,next⟩ | ⟨p,-,-,next⟩ | ⟨ack,k,next,covered⟩
  · rw [quiet.acksReturned,quiet.outgoingAck,quiet.received]; exact valid
  · rw [next]; dsimp only [Router.pushAck]
    have grown : (base ++ (s.received ++ [fs.seqNum])).map Uint24le.val =
        (base ++ s.received).map Uint24le.val ++ [fs.seqNum.val] := by simp
    rw [grown]
    exact (((heapPush_perm _ _).map _).append_left _).trans
      (List.perm_middle.trans ((valid.cons _).trans (List.perm_append_singleton _ _).symm))
  · obtain ⟨nack,link,-,received,acks,-⟩ := deliverRest_keeps s
    rw [next,link,received,acks]; exact valid
  · rw [next]
    simpa [flatMap_toList,covered,← List.map_append] using valid

-- Everything pushed has been delivered except the frame-set under way.
def Received (s : LinkSystem) : Prop := s.received = s.delivered ++ s.pending.toList

def PendingBelow (bound : Nat) (s : LinkSystem) : Prop := ∀ p ∈ s.pending, p.val < bound

-- `seq_read` is one past the largest delivered number, and the nack set holds exactly the
-- numbers below it that were never delivered.
def GapInvariant (s : LinkSystem) : Prop :=
  s.router.seqRead.val = readUpTo s.delivered ∧
    ∀ x, x ∈ s.link.outgoingNack ↔ x.val < s.router.seqRead.val ∧ x ∉ s.delivered

theorem step_received (valid : Received s) (e : LinkEvent) : Received (s.step e) := by
  unfold Received at *
  rcases step_cases s e with quiet | ⟨idle,fs,-,next⟩ | ⟨p,pending,-,next⟩ | ⟨ack,k,next,-⟩
  · rw [quiet.received,quiet.delivered,quiet.pending]; exact valid
  · rw [next]; simp [valid,idle]
  · rcases deliverRest_cases pending with ⟨router,-,done⟩ | stuck <;> rw [next]
    · rw [done]; simp [valid,pending]
    · rw [stuck]; exact valid
  · rw [next]; exact valid

theorem step_pendingBelow {bound : Nat} (valid : PendingBelow bound s) (allowed : e.SeqBelow bound) :
    PendingBelow bound (s.step e) := by
  rcases step_cases s e with quiet | ⟨-,fs,rfl,next⟩ | ⟨p,pending,-,next⟩ | ⟨ack,k,next,-⟩
  · rw [PendingBelow,quiet.pending]; exact valid
  · rw [next]; simpa [PendingBelow] using allowed
  · rcases deliverRest_cases pending with ⟨router,-,done⟩ | stuck <;> rw [next]
    · rw [done]; simp [PendingBelow]
    · rw [stuck]; exact valid
  · rw [next]; exact valid

theorem uint24_val_inj {x p : Uint24le} : x.val = p.val ↔ x = p := by
  cases x; cases p; simp

theorem uint24_ne {x p : Uint24le} : x ≠ p ↔ x.val ≠ p.val := not_congr uint24_val_inj.symm

theorem step_gap (valid : GapInvariant s) (below : PendingBelow (2 ^ 24 - 1) s) (e : LinkEvent) :
    GapInvariant (s.step e) := by
  obtain ⟨read,nack⟩ := valid
  rcases step_cases s e with quiet | ⟨-,fs,-,next⟩ | ⟨p,pending,-,next⟩ | ⟨ack,k,next,-⟩
  · rw [GapInvariant,quiet.seqRead,quiet.outgoingNack,quiet.delivered]; exact ⟨read,nack⟩
  · rw [next]; exact ⟨read,nack⟩
  · have small := below p pending
    rw [next]
    by_cases late : p.val < s.router.seqRead.val
    · rw [deliverRest_late pending late]; dsimp only [GapInvariant]
      refine ⟨by rw [readUpTo_snoc]; omega,fun x => ?_⟩
      simp only [mem_nackRemove,nack,List.mem_append,List.mem_singleton,not_or]
      tauto
    · rw [deliverRest_ahead pending (Nat.le_of_not_lt late) (by omega)]; dsimp only
      refine ⟨by simp only [readUpTo_snoc]; omega,fun x => ?_⟩
      have fresh := @lt_readUpTo s.delivered x
      simp only [mem_insertGaps,mem_nackRemove,nack,List.mem_append,List.mem_singleton,not_or,uint24_ne]
      constructor
      · rintro (⟨ne,lt,notMem⟩ | ⟨ge,lt⟩)
        · exact ⟨by omega,notMem,ne⟩
        · exact ⟨by omega,fun mem => by have := fresh mem; omega,by omega⟩
      · rintro ⟨lt,notMem,ne⟩
        by_cases below : x.val < s.router.seqRead.val
        · exact .inl ⟨ne,below,notMem⟩
        · exact .inr ⟨by omega,by omega⟩
  · rw [next]; exact ⟨read,nack⟩

-- What the router's delivery bookkeeping keeps along every run.
def Tracked (s : LinkSystem) : Prop := GapInvariant s ∧ PendingBelow (2 ^ 24 - 1) s ∧ Received s

theorem step_tracked (valid : Tracked s) (allowed : e.SeqBelow (2 ^ 24 - 1)) : Tracked (s.step e) :=
  ⟨step_gap valid.1 valid.2.1 e,step_pendingBelow valid.2.1 allowed,step_received valid.2.2 e⟩

theorem start_tracked {link : TransferLink} (fresh : link.outgoingNack = []) : Tracked (LinkSystem.start link) :=
  ⟨⟨rfl,fun x => by simp [LinkSystem.start,fresh,Router.new]⟩,fun _ mem => (by cases mem),rfl⟩

theorem run_tracked {link : TransferLink} (fresh : link.outgoingNack = []) (events : List LinkEvent)
    (below : ∀ e ∈ events, e.SeqBelow (2 ^ 24 - 1)) : Tracked ((LinkSystem.start link).run events) :=
  run_induction Tracked (LinkEvent.SeqBelow (2 ^ 24 - 1)) (fun _ _ valid allowed => step_tracked valid allowed)
    events _ (start_tracked fresh) below

theorem run_ackConserved (link : TransferLink) (events : List LinkEvent) :
    AckConserved link.outgoingAck ((LinkSystem.start link).run events) :=
  run_induction (AckConserved link.outgoingAck) (fun _ => True) (fun _ e valid _ => step_ackConserved valid e)
    events _ (by simp [AckConserved,LinkSystem.start]) (fun _ _ => trivial)

theorem step_seqRead_mono (valid : Tracked s) (e : LinkEvent) :
    s.router.seqRead.val ≤ (s.step e).router.seqRead.val := by
  rcases step_cases s e with quiet | ⟨-,fs,-,next⟩ | ⟨p,pending,-,next⟩ | ⟨ack,k,next,-⟩
  · rw [quiet.seqRead]
  · rw [next]
  · have small := valid.2.1 p pending
    rw [next]
    by_cases late : p.val < s.router.seqRead.val
    · rw [deliverRest_late pending late]
    · rw [deliverRest_ahead pending (Nat.le_of_not_lt late) (by omega)]
      show _ ≤ p.val + 1
      omega
  · rw [next]

-- A number still queued for acknowledgement was queued at the start or pushed by the router.
theorem mem_received_of_queued (valid : AckConserved base s) {x : Uint24le} (queued : x ∈ s.link.outgoingAck) :
    x ∈ base ++ s.received := by
  obtain ⟨r,mem,same⟩ := List.mem_map.mp (valid.mem_iff.mp (List.mem_append_right _ (List.mem_map_of_mem _ queued)))
  rwa [← uint24_val_inj.mp same]

end Invariants

section Inputs

variable {s : LinkSystem}

-- The ghost histories are what the run's events carried in: `received` the frame-sets that
-- passed the route-closed check, `delivered` those whose second section ran.
theorem step_received_routes (s : LinkSystem) (e : LinkEvent) : (s.step e).received = s.received ++ s.routes e := by
  cases e with
  | deliver pack =>
    by_cases blocked : (s.pending.isSome || s.router.closed) = true
    · cases pack <;> simp [LinkSystem.step,LinkSystem.deliver,LinkSystem.routes,blocked]
    · cases pack <;> simp [LinkSystem.step,LinkSystem.deliver,LinkSystem.routes,blocked]
  | deliverRest =>
    obtain ⟨-,-,-,received,-⟩ := deliverRest_keeps s
    exact received.trans (List.append_nil _).symm
  | processOutgoingAck mtu =>
    rcases takeOutgoingAck_cases s mtu with same | ⟨_,_,taken,-⟩
    · simp only [LinkSystem.step,same,LinkSystem.routes,List.append_nil]
    · simp only [LinkSystem.step,taken,LinkSystem.routes,List.append_nil]
  | processOutgoingNack mtu =>
    simp only [LinkSystem.step,LinkSystem.takeOutgoingNack,LinkSystem.routes,List.append_nil]
    split <;> rfl
  | processUnconnected =>
    simp only [LinkSystem.step,LinkSystem.takeUnconnected,LinkSystem.routes,List.append_nil]
  | closeRoute | processIncoming | sendUnconnected _ => exact (List.append_nil _).symm

theorem run_received_routed (s : LinkSystem) (events : List LinkEvent) :
    (s.run events).received = s.received ++ s.routed events :=
  foldl_collect LinkSystem.received step_received_routes events s

theorem step_delivered_settles (below : PendingBelow (2 ^ 24 - 1) s) (e : LinkEvent) :
    (s.step e).delivered = s.delivered ++ s.settles e := by
  cases e
  case deliverRest =>
    cases pending : s.pending with
    | none => simp [LinkSystem.step,LinkSystem.deliverRest,LinkSystem.settles,pending]
    | some p =>
      have small := below p pending
      by_cases late : p.val < s.router.seqRead.val
      · simp [LinkSystem.step,deliverRest_late pending late,LinkSystem.settles,pending]
      · simp [LinkSystem.step,deliverRest_ahead pending (Nat.le_of_not_lt late) (by omega),LinkSystem.settles,pending]
  all_goals
    rcases step_cases s _ with quiet | ⟨-,_,-,next⟩ | ⟨_,-,nope,-⟩ | ⟨_,_,next,-⟩
    · exact quiet.delivered.trans (List.append_nil _).symm
    · rw [next]; exact (List.append_nil _).symm
    · cases nope
    · rw [next]; exact (List.append_nil _).symm

theorem run_delivered_settled (events : List LinkEvent) (s : LinkSystem) (valid : PendingBelow (2 ^ 24 - 1) s)
    (below : ∀ e ∈ events, e.SeqBelow (2 ^ 24 - 1)) : (s.run events).delivered = s.delivered ++ s.settled events := by
  induction events generalizing s with
  | nil => exact (List.append_nil _).symm
  | cons e rest ih =>
    have later := ih (s.step e) (step_pendingBelow valid (below e (List.mem_cons_self _ _)))
      fun e' mem => below e' (List.mem_cons_of_mem _ mem)
    rw [LinkSystem.run,List.foldl_cons] at *
    rw [later,step_delivered_settles valid e,List.append_assoc]
    rfl

end Inputs

section Router

variable {link : TransferLink}

theorem router_gap_tracking (fresh : link.outgoingNack = []) (events : List LinkEvent)
    (below : ∀ e ∈ events, e.SeqBelow (2 ^ 24 - 1)) :
    let s := (LinkSystem.start link).run events
    s.router.seqRead.val = readUpTo ((LinkSystem.start link).settled events) ∧
      (∀ x, x ∈ s.link.outgoingNack ↔ x.val < s.router.seqRead.val ∧ x ∉ (LinkSystem.start link).settled events) ∧
      (LinkSystem.start link).routed events = (LinkSystem.start link).settled events ++ s.pending.toList ∧
      (∀ e, s.router.seqRead.val ≤ (s.step e).router.seqRead.val) ∧
      ∀ p, s.pending = some p → p.val < s.router.seqRead.val →
        (s.step .deliverRest).router = s.router ∧
          (s.step .deliverRest).link = {s.link with outgoingNack := nackRemove p s.link.outgoingNack} := by
  intro s
  have valid := run_tracked fresh events below
  have delivered : s.delivered = (LinkSystem.start link).settled events := by
    simpa using run_delivered_settled events _ (fun _ mem => by cases mem) below
  have routed : s.received = (LinkSystem.start link).routed events := by
    simpa using run_received_routed (LinkSystem.start link) events
  have ⟨⟨read,gaps⟩,_,received⟩ := valid
  refine ⟨by rw [← delivered]; exact read,by rw [← delivered]; exact gaps,by rw [← routed,← delivered]; exact received,
    step_seqRead_mono valid,fun p waiting late => ?_⟩
  simp only [LinkSystem.step,deliverRest_late waiting late,and_self]

-- Frame-sets 2 and 5 delivered: `seq_read` is 6 and the NACK set holds 4, 3, 1 and 0.
theorem router_gap_tracking_sample :
    let events : List LinkEvent := [.deliver (.frameSet {sampleFrameSet with seqNum := ⟨2⟩}),.deliverRest,
      .deliver (.frameSet {sampleFrameSet with seqNum := ⟨5⟩}),.deliverRest]
    (TransferLink.new.outgoingNack = [] ∧ ∀ e ∈ events, e.SeqBelow (2 ^ 24 - 1)) ∧
      ((LinkSystem.start TransferLink.new).run events).router.seqRead.val =
        readUpTo ((LinkSystem.start TransferLink.new).settled events) ∧
      (LinkSystem.start TransferLink.new).settled events = [⟨2⟩,⟨5⟩] :=
  ⟨⟨rfl,by decide⟩,(router_gap_tracking rfl _ (by decide)).1,rfl⟩

-- The frame-set under way has reached `outgoing_ack` but not yet `outgoing_nack`: a late
-- number is in both, and a NACK the writer takes then can name it.
theorem ack_nack_overlap_mid_delivery :
    let s := (LinkSystem.start TransferLink.new).run [.deliver (.frameSet {sampleFrameSet with seqNum := ⟨1⟩}),
      .deliverRest,.deliver (.frameSet {sampleFrameSet with seqNum := ⟨0⟩})]
    ⟨0⟩ ∈ s.link.outgoingAck ∧ ⟨0⟩ ∈ s.link.outgoingNack ∧ (s.takeOutgoingNack 7).1 = .ok (some ⟨[.single ⟨0⟩]⟩) := by
  decide

-- Between deliveries the two queues are disjoint, so a NACK the writer takes then names no
-- number queued for acknowledgement.
theorem ack_nack_disjoint_between_deliveries (noAcks : link.outgoingAck = []) (noNacks : link.outgoingNack = [])
    (events : List LinkEvent) (below : ∀ e ∈ events, e.SeqBelow (2 ^ 24 - 1))
    (idle : ((LinkSystem.start link).run events).pending = none) :
    let s := (LinkSystem.start link).run events
    (∀ x ∈ s.link.outgoingAck, x ∉ s.link.outgoingNack) ∧
      ∀ mtu nack, (s.takeOutgoingNack mtu).1 = .ok (some nack) → ∀ x ∈ s.link.outgoingAck, x.val ∉ nack.covered := by
  intro s
  obtain ⟨⟨-,gaps⟩,-,received⟩ := run_tracked noNacks events below
  have disjoint : ∀ x ∈ s.link.outgoingAck, x ∉ s.link.outgoingNack := fun x queued missing => by
    have got := mem_received_of_queued (run_ackConserved link events) queued
    rw [noAcks,List.nil_append,received,idle,Option.toList_none,List.append_nil] at got
    exact ((gaps x).mp missing).2 got
  refine ⟨disjoint,fun mtu nack taken x queued named => ?_⟩
  by_cases fits : 7 ≤ mtu
  · obtain ⟨pulled,k,packed,-,-,covered⟩ := extendFrom_pulls fits s.link.outgoingNack
    have : pulled = some nack := by
      simpa [LinkSystem.takeOutgoingNack,TransferLink.processOutgoingNack,packed,pure,Except.pure] using taken
    subst this
    simp only [Option.map_some',Option.getD_some] at covered
    obtain ⟨y,mem,same⟩ := List.mem_map.mp (covered ▸ named)
    rw [uint24_val_inj.mp same] at mem
    exact disjoint x queued (List.mem_of_mem_take mem)
  · simp [LinkSystem.takeOutgoingNack,TransferLink.processOutgoingNack,extendFrom,Nat.lt_of_not_le fits] at taken

theorem ack_nack_disjoint_between_deliveries_sample :
    let events : List LinkEvent := [.deliver (.frameSet {sampleFrameSet with seqNum := ⟨1⟩}),.deliverRest]
    (TransferLink.new.outgoingAck = [] ∧ TransferLink.new.outgoingNack = [] ∧ (∀ e ∈ events, e.SeqBelow (2 ^ 24 - 1)) ∧
      ((LinkSystem.start TransferLink.new).run events).pending = none) ∧
      ∀ x ∈ ((LinkSystem.start TransferLink.new).run events).link.outgoingAck,
        x ∉ ((LinkSystem.start TransferLink.new).run events).link.outgoingNack :=
  ⟨⟨rfl,rfl,by decide,rfl⟩,(ack_nack_disjoint_between_deliveries rfl rfl _ (by decide) (by decide)).1⟩

end Router

-- Every frame-set that passed the route-closed check is, as a multiset, either in an ACK the
-- writer took or still queued: none is lost and none goes out twice.
theorem ack_egress_conserves (link : TransferLink) (events : List LinkEvent) :
    let s := (LinkSystem.start link).run events
    (↑(s.acksReturned.flatMap Ack.covered) : Multiset Nat) + ↑(s.link.outgoingAck.map Uint24le.val) =
      ↑(link.outgoingAck.map Uint24le.val) + ↑(((LinkSystem.start link).routed events).map Uint24le.val) := by
  have routed := run_received_routed (LinkSystem.start link) events
  simp only [Multiset.coe_add,Multiset.coe_eq_coe,← List.map_append]
  rw [← List.nil_append ((LinkSystem.start link).routed events)]
  exact routed ▸ run_ackConserved link events

end RaknetRs
