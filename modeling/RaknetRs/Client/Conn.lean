import RaknetRs.Guard.Close

namespace RaknetRs

/-- Modelled from the spec: the kind of the `io::Error` that `connect_to` builds itself; the
other errors it returns come from calls that are not under src/. -/
inductive IoErrorKind where
  | addrNotAvailable
deriving DecidableEq, Repr

structure IoError where
  kind : IoErrorKind
  message : String
deriving DecidableEq, Repr

-- The lookup loop of `connect_to`: the resolved addresses in order, `socket.connect(addr)`
-- answered by `connects`. It returns the addresses it tried and the one it settled on.
def connectLoop {α : Type} (connects : α → Bool) : List α → List α × Except IoError α
  | [] => ([],.error ⟨.addrNotAvailable,"invalid address"⟩)
  | addr :: rest =>
    if connects addr then ([addr],.ok addr)
    else
      let (tried,result) := connectLoop connects rest
      (addr :: tried,result)

-- The task `connect_to` spawns: every packet the offline handler yields goes to
-- `Router::deliver`, whose result (false once the route is closed) is dropped; a panic inside a
-- delivery ends the task.
def routerTask (router : Router) (link : TransferLink) : List Packet → Except Fault Router × TransferLink
  | [] => (.ok router,link)
  | pack :: rest =>
    match router.deliver link pack with
    | (.ok (_,router),link) => routerTask router link rest
    | (.error e,link) => (.error e,link)

section Task

variable {s : LinkSystem} {router : Router} {link : TransferLink} {p : Uint24le}

theorem updateNack_retry {e : Fault} (failed : (router.updateNack link p).1 = .error e) :
    router.updateNack (router.updateNack link p).2 p = router.updateNack link p := by
  by_cases ahead : router.seqRead.val ≤ p.val
  · cases next : p.succ with
    | ok index => simp [Router.updateNack,ahead,next] at failed
    | error e' => simp [Router.updateNack,ahead,next,nackRemove,List.filter_filter]
  · simp [Router.updateNack,ahead] at failed

-- A link system whose router task died in a delivery: no event of the task changes it again.
def Stuck (s : LinkSystem) : Prop := s.pending.isSome ∧ s.deliverRest = s

theorem run_stuck (stuck : Stuck s) (packets : List Packet) :
    s.run (packets.flatMap fun pack => [.deliver pack,.deliverRest]) = s := by
  induction packets with
  | nil => rfl
  | cons pack rest ih =>
    have kept : (s.step (.deliver pack)).step .deliverRest = s := by
      simp only [LinkSystem.step,LinkSystem.deliver,stuck.1,Bool.true_or,if_true]
      exact stuck.2
    rw [List.flatMap_cons,LinkSystem.run_append]
    exact (congrArg (LinkSystem.run · _) kept).trans ih

theorem deliver_deliverRest (idle : s.pending = none) (pack : Packet) :
    ((s.deliver pack).deliverRest).link = (s.router.deliver s.link pack).2 ∧
      ((s.router.deliver s.link pack).1.map (·.2) = .ok ((s.deliver pack).deliverRest).router ∧
          ((s.deliver pack).deliverRest).pending = none ∨
        (s.router.deliver s.link pack).1.isOk = false ∧ Stuck ((s.deliver pack).deliverRest)) := by
  by_cases closed : s.router.closed = true
  · simp [LinkSystem.deliver,LinkSystem.deliverRest,Router.deliver,closed,idle,Except.map]
  cases pack with
  | ack records | nack records => simp [LinkSystem.deliver,LinkSystem.deliverRest,Router.deliver,closed,idle,Except.map]
  | frameSet fs =>
    simp only [LinkSystem.deliver,LinkSystem.deliverRest,Router.deliver,closed,idle,Option.isSome_none,Bool.false_or,
      Bool.false_eq_true,if_false]
    rcases updated : s.router.updateNack (Router.pushAck s.link fs.seqNum) fs.seqNum with ⟨_ | next,link⟩
    · have again := updateNack_retry (congrArg Prod.fst updated)
      rw [updated] at again
      dsimp only at again
      simp [Stuck,LinkSystem.deliverRest,again,Except.map,Except.isOk,Except.toBool]
    · simp [Except.map]

-- The link layer's interleaved model, with each delivery's two sections run back to back, is the
-- client's router task: the same link after every packet, and the same router until a delivery
-- panics, after which the model is stuck.
theorem run_deliveries (idle : s.pending = none) (packets : List Packet) :
    (s.run (packets.flatMap fun pack => [.deliver pack,.deliverRest])).link = (routerTask s.router s.link packets).2 ∧
      ((routerTask s.router s.link packets).1 = .ok (s.run (packets.flatMap fun pack => [.deliver pack,.deliverRest])).router ∧
          (s.run (packets.flatMap fun pack => [.deliver pack,.deliverRest])).pending = none ∨
        (routerTask s.router s.link packets).1.isOk = false) := by
  induction packets generalizing s with
  | nil => exact ⟨rfl,.inl ⟨rfl,idle⟩⟩
  | cons pack rest ih =>
    rw [List.flatMap_cons,LinkSystem.run_append]
    have first : s.run [.deliver pack,.deliverRest] = (s.deliver pack).deliverRest := rfl
    obtain ⟨link,outcome⟩ := deliver_deliverRest idle pack
    rw [first]
    rcases delivered : s.router.deliver s.link pack with ⟨_ | ⟨_,next⟩,link'⟩ <;> rw [delivered] at link outcome
    · obtain ⟨-,stuck⟩ := outcome.resolve_left fun ⟨failed,_⟩ => nomatch failed
      rw [run_stuck stuck,link]
      simp [routerTask,delivered,Except.isOk,Except.toBool]
    · obtain ⟨same,idle'⟩ := outcome.resolve_right fun ⟨ok,_⟩ => nomatch ok
      have task : routerTask s.router s.link (pack :: rest) =
          routerTask ((s.deliver pack).deliverRest).router ((s.deliver pack).deliverRest).link rest := by
        rw [link,← Except.ok.inj same]
        simp [routerTask,delivered]
      rw [task]
      exact ih idle'

end Task

end RaknetRs
