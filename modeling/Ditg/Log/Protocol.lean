import Ditg.Log.Channel

/-!
# Receiver and log server

A receiver that logs to a log server has two connections to it, both reliable and in
order, but independent of each other: the data connection, on which it sends batches
of records, and the signalling one, on which it sends the stop message at the end of
the session, after which it closes both. The log server reads them in
`logPacketTCP` (`LogServer`), which looks at the signalling connection first, and
leaves its loop on the stop message without reading what the data connection still
has.

So a stop message that overtakes records makes the server lose them
(`stop_overtakes`). It loses nothing in the runs in which, whenever `select` reports
the stop message, every byte sent before it has been read (`logged_of_drained`).

* `LogLink`: the two parties and the connections; its actions are the sends of the
  receiver, the deliveries of the network, and the steps of the server;
* `LinkInv`: the bytes read, the ones delivered and the ones in flight are those sent.
-/

namespace Ditg

open Socket

/-- The two parties, and what is under way between them. -/
structure LogLink (F : Type) where
  /-- The log server. -/
  server : LogServer
  /-- Bytes sent on the data connection and not yet delivered. -/
  wire : List UInt8
  /-- Bytes delivered on the data connection and not yet read. -/
  sock : List UInt8
  /-- The receiver has closed the data connection. -/
  closed : Bool
  /-- The close has been delivered. -/
  eof : Bool
  /-- The receiver has sent the stop message. -/
  stopSent : Bool
  /-- The stop message has been delivered. -/
  stopDelivered : Bool
  /-- The records that the receiver has sent before the stop message. -/
  before : List (Info F)
  /-- The records that the receiver has sent after the stop message. -/
  after : List (Info F)

/-- What may happen next. -/
inductive LogAction (F : Type)
  /-- The receiver sends a batch of records, in network format. -/
  | sendBatch (recs : List (Info F))
  /-- The receiver sends the stop message. -/
  | sendStop
  /-- The receiver closes the data connection, after the stop message. -/
  | close
  /-- The network delivers the next `k` bytes of the data connection. -/
  | deliverData (k : ℕ)
  /-- The network delivers the stop message. -/
  | deliverStop
  /-- The network delivers the close. -/
  | deliverClose
  /-- `select` returns and reports the given sockets. -/
  | select (newSockSignal newSockLog : Bool)
  /-- `recv` returns `k` bytes. -/
  | recv (k : ℕ)

section Link

variable {F : Type} [CDouble F] (logbuffer_size : ℕ) (host₁ host₂ : Host F)

/-! ## The model -/

/-- One step, if it is possible. -/
def LogLink.step (s : LogLink F) : LogAction F → Option (LogLink F)
  | .sendBatch recs =>
    if s.closed then none
    else if s.stopSent then
      some { s with wire := s.wire ++ recs.flatMap (·.toMem host₁), after := s.after ++ recs }
    else some { s with wire := s.wire ++ recs.flatMap (·.toMem host₁), before := s.before ++ recs }
  | .sendStop => if s.stopSent then none else some { s with stopSent := true }
  | .close => if s.stopSent ∧ ¬s.closed then some { s with closed := true } else none
  | .deliverData k =>
    if 0 < k ∧ k ≤ s.wire.length then
      some { s with sock := s.sock ++ s.wire.take k, wire := s.wire.drop k }
    else none
  | .deliverStop =>
    if s.stopSent ∧ ¬s.stopDelivered then some { s with stopDelivered := true } else none
  | .deliverClose => if s.closed ∧ s.wire = [] then some { s with eof := true } else none
  | .select newSockSignal newSockLog =>
    -- `select` reports sockets that are ready, in any choice.
    if (newSockSignal → s.stopDelivered) ∧ (newSockLog → s.sock ≠ [] ∨ s.eof) then
      (s.server.select logbuffer_size newSockSignal newSockLog).map ({ s with server := · })
    else none
  | .recv k =>
    match s.server.pc with
    | .recv b =>
      if 0 < k ∧ (k : ℤ) ≤ b.dim2 ∧ k ≤ s.sock.length then
        (s.server.recv host₂ ⟨k, s.sock.take k⟩).map
          ({ s with server := ·, sock := s.sock.drop k })
      else if k = 0 ∧ s.sock = [] ∧ s.eof then
        -- At the end of the stream, `recv` returns 0.
        (s.server.recv host₂ ⟨0, []⟩).map ({ s with server := · })
      else none
    | _ => none

/-- The server at its first `select`, with an empty file. -/
structure LogServer.Fresh (s : LogServer) : Prop where
  pc_eq : s.pc = .select
  out_eq : s.out = []
  length_infos : s.infos.length = logbuffer_size * sizeofInfo

/-- A session: nothing has been sent yet. -/
def logLink : Transition (LogLink F) (LogAction F) where
  init s :=
    s.server.Fresh logbuffer_size ∧ s = ⟨s.server, [], [], false, false, false, false, [], []⟩
  step := LogLink.step logbuffer_size host₁ host₂

/-- When the server has left its loop, the records sent before the stop message are in
    the file, in their order. -/
def Logged (s : LogLink F) : Prop :=
  s.server.pc = .left → s.before.flatMap (stored host₁ host₂) <+: s.server.out

/-- When `select` reports the stop message, what is in flight or unread on the data
    connection has been sent after the stop message. -/
def Drained (s : LogLink F) : LogAction F → Prop
  | .select true _ => s.sock.length + s.wire.length ≤ (s.after.flatMap (·.toMem host₁)).length
  | _ => True

/-! ## The invariant -/

/-- The bytes read, delivered and in flight are those sent, in their order; the server
    has dealt with those read; and the stop message is delivered after it is sent. -/
def LinkInv (s : LogLink F) : Prop :=
  (∃ read, (s.before ++ s.after).flatMap (·.toMem host₁) = read ++ (s.sock ++ s.wire) ∧
    Wrote logbuffer_size host₂ [] read s.server) ∧
  (s.stopSent = false → s.after = [] ∧ s.stopDelivered = false ∧ s.server.pc ≠ .left)

variable {logbuffer_size host₁ host₂} {s s' : LogLink F} {a : LogAction F}

theorem LinkInv.of_init (h : (logLink logbuffer_size host₁ host₂).init s) :
    LinkInv logbuffer_size host₁ host₂ s := by
  obtain ⟨hfresh, hs⟩ := h
  generalize s.server = server at hfresh hs
  subst hs
  refine ⟨⟨[], rfl, hfresh.length_infos, 0, [], by simp, ?_, ?_⟩, fun _ => ⟨rfl, rfl, ?_⟩⟩
  · rw [hfresh.out_eq]
    rfl
  · rw [hfresh.pc_eq]
  · rw [hfresh.pc_eq]
    exact fun h => by cases h

/-- What a read of the server does: it takes bytes off the data connection, none at
    the end of the stream. -/
theorem step_recv_eq_some {k : ℕ} (h : s.step logbuffer_size host₁ host₂ (.recv k) = some s') :
    ∃ b server, s.server.pc = .recv b ∧ (k : ℤ) ≤ b.dim2 ⊔ 0 ∧ k ≤ s.sock.length ∧
      s.server.recv host₂ ⟨k, s.sock.take k⟩ = some server ∧
      s' = { s with server := server, sock := s.sock.drop k } := by
  rw [LogLink.step] at h
  cases hpc : s.server.pc with
  | recv b =>
    rw [hpc] at h
    simp only at h
    split_ifs at h with hk heof
    · obtain ⟨server, hs, rfl⟩ := Option.map_eq_some_iff.1 h
      exact ⟨b, server, rfl, le_sup_of_le_left hk.2.1, hk.2.2, hs, rfl⟩
    · obtain ⟨server, hs, rfl⟩ := Option.map_eq_some_iff.1 h
      obtain ⟨rfl, hsock, -⟩ := heof
      refine ⟨b, server, rfl, le_sup_right, Nat.zero_le _, by simpa using hs, ?_⟩
      rw [List.drop_zero]
  | select => rw [hpc] at h; cases h
  | left => rw [hpc] at h; cases h

/-- Every step keeps the invariant. -/
theorem LinkInv.step (hinv : LinkInv logbuffer_size host₁ host₂ s)
    (h : (logLink logbuffer_size host₁ host₂).step s a = some s') :
    LinkInv logbuffer_size host₁ host₂ s' := by
  change s.step logbuffer_size host₁ host₂ a = some s' at h
  obtain ⟨⟨read, hcat, hw⟩, hstop⟩ := hinv
  cases a with
  | sendBatch recs =>
    simp only [LogLink.step] at h
    split_ifs at h with hclosed hsent <;> cases h
    · -- After the stop message.
      refine ⟨⟨read, ?_, hw⟩, fun hf => by cases hsent.symm.trans hf⟩
      rw [← List.append_assoc, List.flatMap_append, hcat]
      simp only [List.append_assoc]
    · -- Before it, when nothing has been sent after it yet.
      obtain ⟨hafter, hrest⟩ := hstop (by simpa using hsent)
      refine ⟨⟨read, ?_, hw⟩, fun _ => ⟨hafter, hrest⟩⟩
      rw [hafter, List.append_nil] at hcat ⊢
      rw [List.flatMap_append, hcat]
      simp only [List.append_assoc]
  | sendStop =>
    simp only [LogLink.step] at h
    split_ifs at h
    cases h
    exact ⟨⟨read, hcat, hw⟩, fun hf => by cases hf⟩
  | close =>
    simp only [LogLink.step] at h
    split_ifs at h
    cases h
    exact ⟨⟨read, hcat, hw⟩, hstop⟩
  | deliverData k =>
    simp only [LogLink.step] at h
    split_ifs at h
    cases h
    refine ⟨⟨read, ?_, hw⟩, hstop⟩
    -- What is delivered is still to be read.
    rw [hcat, List.append_assoc s.sock, List.take_append_drop]
  | deliverStop =>
    simp only [LogLink.step] at h
    split_ifs at h with hsent
    cases h
    exact ⟨⟨read, hcat, hw⟩, fun hf => by cases hsent.1.symm.trans hf⟩
  | deliverClose =>
    simp only [LogLink.step] at h
    split_ifs at h
    cases h
    exact ⟨⟨read, hcat, hw⟩, hstop⟩
  | select newSockSignal newSockLog =>
    simp only [LogLink.step] at h
    split_ifs at h with hready
    obtain ⟨server, hs, rfl⟩ := Option.map_eq_some_iff.1 h
    refine ⟨⟨read, hcat, hw.select hs⟩, fun hf => ⟨(hstop hf).1, (hstop hf).2.1, fun hleft => ?_⟩⟩
    obtain ⟨-, -, -, ⟨hsignal, -⟩ | ⟨-, hpc⟩⟩ := select_eq_some hs
    · -- A stop message that has not been sent is not reported.
      exact absurd (hready.1 hsignal) (by simp [(hstop hf).2.1])
    · rw [hpc] at hleft
      cases hleft
  | recv k =>
    obtain ⟨b, server, hpc, hdim, hk, hs, rfl⟩ := step_recv_eq_some h
    have hklen : (s.sock.take k).length = k := List.length_take_of_le hk
    -- The call reads into the room that is left in the buffer.
    have hroom : (0 : ℤ) ≤ b.dim2 := by
      obtain ⟨-, n, done, -, -, hread⟩ := hw
      rw [hpc] at hread
      obtain ⟨got, -, hb⟩ := hread
      exact hb.dim2_nonneg
    refine ⟨⟨read ++ s.sock.take k, ?_, hw.recv (r := ⟨k, s.sock.take k⟩) hpc (by rw [hklen])
      (by simp only [hklen]; omega) hs⟩, fun hf => ⟨(hstop hf).1, (hstop hf).2.1, fun hleft => ?_⟩⟩
    · rw [hcat, List.append_assoc, ← List.append_assoc (s.sock.take k), List.take_append_drop]
    · rcases pc_recv hs with ⟨b', hpc', -⟩ | hpc' <;> rw [hpc'] at hleft <;> cases hleft

/-- Steps other than the return of `select` with the stop message: a server that is
    out of its loop was so before, and with it the records sent before the stop
    message and the file. -/
theorem of_left (hinv : LinkInv logbuffer_size host₁ host₂ s)
    (h : (logLink logbuffer_size host₁ host₂).step s a = some s') (hleft : s'.server.pc = .left)
    (ha : ∀ data, a ≠ .select true data) : s'.server = s.server ∧ s'.before = s.before := by
  change s.step logbuffer_size host₁ host₂ a = some s' at h
  cases a with
  | sendBatch recs =>
    simp only [LogLink.step] at h
    split_ifs at h with hclosed hsent <;> cases h
    · exact ⟨rfl, rfl⟩
    · -- No server has left its loop before the stop message.
      exact absurd hleft (hinv.2 (by simpa using hsent)).2.2
  | select newSockSignal newSockLog =>
    simp only [LogLink.step] at h
    split_ifs at h
    obtain ⟨server, hs, rfl⟩ := Option.map_eq_some_iff.1 h
    obtain ⟨-, -, -, ⟨rfl, -⟩ | ⟨-, hpc⟩⟩ := select_eq_some hs
    · exact absurd rfl (ha newSockLog)
    · rw [hpc] at hleft
      cases hleft
  | recv k =>
    obtain ⟨b, server, -, -, -, hs, rfl⟩ := step_recv_eq_some h
    rcases pc_recv hs with ⟨b', hpc, -⟩ | hpc <;> rw [hpc] at hleft <;> cases hleft
  | sendStop | close | deliverData | deliverStop | deliverClose =>
    simp only [LogLink.step] at h
    split_ifs at h
    cases h
    exact ⟨rfl, rfl⟩

/-- When `select` reports the stop message, all records sent before it have been
    written if all their bytes have been read. -/
theorem logged_of_select {data : Bool} (hinv : LinkInv logbuffer_size host₁ host₂ s)
    (h : (logLink logbuffer_size host₁ host₂).step s (.select true data) = some s')
    (hdrained : Drained host₁ s (.select true data)) : Logged host₁ host₂ s' := by
  change s.step logbuffer_size host₁ host₂ (.select true data) = some s' at h
  simp only [LogLink.step] at h
  split_ifs at h
  obtain ⟨server, hs, rfl⟩ := Option.map_eq_some_iff.1 h
  obtain ⟨⟨read, hcat, hw⟩, -⟩ := hinv
  obtain ⟨hpc, -, hout, -⟩ := select_eq_some hs
  obtain ⟨-, n, done, hdone, hs', hread⟩ := hw
  rw [hpc] at hread
  subst hread
  -- What has not been read is no longer than what was sent after the stop message.
  have hsent : s.before.flatMap (·.toMem host₁) <+: read := by
    rw [List.flatMap_append] at hcat
    have hpre : s.before.flatMap (·.toMem host₁) <+: read ++ (s.sock ++ s.wire) :=
      hcat ▸ List.prefix_append _ _
    refine List.prefix_of_prefix_length_le hpre (List.prefix_append _ _) ?_
    have hlen := congrArg List.length hcat
    simp only [List.length_append] at hlen
    have : s.sock.length + s.wire.length ≤ (s.after.flatMap (·.toMem host₁)).length := hdrained
    omega
  obtain ⟨rest, rfl⟩ := hsent
  have hblen := length_flatMap_toMem host₁ s.before
  have hle : s.before.length ≤ n := by
    rw [List.length_append, hblen] at hdone
    exact Nat.le_of_mul_le_mul_right (hdone ▸ Nat.le_add_right _ _) (by decide)
  -- The first records read are those sent before the stop message.
  obtain ⟨m, rfl⟩ := Nat.exists_eq_add_of_le hle
  intro _
  change s.before.flatMap (stored host₁ host₂) <+: server.out
  rw [hout, hs', List.nil_append, infosntohBuffer_append host₂ m hblen, infosntohBuffer_flatMap]
  exact List.prefix_append _ _

/-- In the runs in which the stop message is only seen when every byte sent before it
    has been read, the server has written all records sent before the stop message
    when it leaves. -/
theorem logged_of_drained
    (h : (logLink logbuffer_size host₁ host₂).ReachVia (Drained host₁) s) :
    Logged host₁ host₂ s := by
  have hinv : LinkInv logbuffer_size host₁ host₂ s ∧ Logged host₁ host₂ s := by
    induction h with
    | init hs =>
      refine ⟨.of_init hs, fun hleft => ?_⟩
      rw [hs.1.pc_eq] at hleft
      cases hleft
    | @step s s' a _ hP hstep hinv =>
      refine ⟨hinv.1.step hstep, ?_⟩
      by_cases ha : ∃ data, a = .select true data
      · obtain ⟨data, rfl⟩ := ha
        exact logged_of_select hinv.1 hstep hP
      · intro hleft
        obtain ⟨hserver, hbefore⟩ := of_left hinv.1 hstep hleft fun data he => ha ⟨data, he⟩
        rw [hserver, hbefore]
        exact hinv.2 (hserver ▸ hleft)
  exact hinv.2

end Link

/-! ## The stop message overtakes records -/

/-- A session between little-endian hosts, the server having a buffer for one record. -/
abbrev smallLink : Transition (LogLink ℚ) (LogAction ℚ) :=
  logLink 1 (.ofEndian .little) (.ofEndian .little)

/-- The session before its first step. -/
def LogLink.idle : LogLink ℚ := ⟨.empty 1, [], [], false, false, false, false, [], []⟩

/-- The session with one record delivered, and not yet read. -/
def LogLink.delivered : LogLink ℚ :=
  ⟨.empty 1, [], (default : Info ℚ).toMem (.ofEndian .little), false, false, false, false,
    [default], []⟩

theorem run_delivered :
    smallLink.run .idle [.sendBatch [default], .deliverData sizeofInfo] = some .delivered := by
  have hpos : 0 < sizeofInfo := by decide
  simp [Transition.run, logLink, LogLink.step, LogLink.idle, LogLink.delivered, hpos]

theorem reach_delivered : smallLink.ReachVia (Drained (.ofEndian .little)) .delivered := by
  have hinit : smallLink.init .idle := ⟨⟨rfl, rfl, by simp [LogLink.idle, LogServer.empty]⟩, rfl⟩
  exact .run (.init hinit) (by simp [Transition.StepsVia, Drained]) run_delivered

/-- A record is delivered, and the stop message after it; `select` reports both
    connections, and the server leaves without the record. -/
theorem stop_overtakes :
    ¬∀ s, smallLink.Reachable s → Logged (.ofEndian .little) (.ofEndian .little) s := by
  intro hall
  obtain ⟨s, hrun, hpc, hbefore, hout⟩ : ∃ s, smallLink.run .delivered
      [.sendStop, .deliverStop, .select true true] = some s ∧
      s.server.pc = .left ∧ s.before = [default] ∧ s.server.out = [] := ⟨_, rfl, rfl, rfl, rfl⟩
  have hlogged := hall s (.run reach_delivered.reachable hrun) hpc
  rw [hbefore, hout, List.prefix_nil, List.flatMap_singleton, stored] at hlogged
  have hlen := Info.length_toMem (.ofEndian .little : Host ℚ) (infosntoh .little (Info.ofMem
    (.ofEndian .little) ((default : Info ℚ).toMem (.ofEndian .little))))
  exact absurd ((congrArg List.length hlogged).symm.trans hlen) (by decide)

/-- The same record is logged when it is read before the stop message is seen. -/
theorem logged_of_drained_one :
    ∃ s, smallLink.ReachVia (Drained (.ofEndian .little)) s ∧ s.server.pc = .left ∧
      s.before = [default] ∧ Logged (.ofEndian .little) (.ofEndian .little) s := by
  have hlen : ((default : Info ℚ).toMem (.ofEndian .little)).length = 144 := Info.length_toMem _ _
  have hne : (default : Info ℚ).toMem (.ofEndian .little) ≠ [] :=
    List.ne_nil_of_length_pos (by rw [hlen]; decide)
  obtain ⟨s, hrun, hpc, hbefore, hvia⟩ : ∃ s,
      smallLink.run .delivered [.select false true, .recv 144, .sendStop, .deliverStop,
        .select true false] = some s ∧ s.server.pc = .left ∧ s.before = [default] ∧
      smallLink.StepsVia (Drained (.ofEndian .little)) .delivered
        [.select false true, .recv 144, .sendStop, .deliverStop, .select true false] := by
    simp [Transition.run, Transition.StepsVia, logLink, LogLink.step, LogLink.delivered,
      LogServer.empty, LogServer.select, LogServer.recv, sizeofInfo, inet6Addrstrlen, hlen, hne,
      Drained]
  have hreach := reach_delivered.run hvia hrun
  exact ⟨s, hreach, hpc, hbefore, logged_of_drained hreach⟩

end Ditg
