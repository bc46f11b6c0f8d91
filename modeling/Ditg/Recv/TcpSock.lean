import Ditg.Common.AnyStream
import Ditg.Recv.Thread

/-!
# Packets without a preamble on TCP

The thread of a TCP flow (`tcpSock`) receives packet after packet, and logs the size that
`TCPrecvPacket` returns. The packets of a flow of the type `PL_NONE` have no preamble, but four
bytes of every packet are still read as one. They are not part of the size that is returned.

* `tcpSock_sum_iff`: the sizes add up to the bytes received if and only if there are none of
  them, as no packet is received to the end.
-/

namespace Ditg

open Memory Socket

/-! ## The model -/

/-- What the thread has received: the results of the calls that complete, the sizes it logs, and
    the connection after these calls. -/
structure TcpReceived where
  results : List ℤ
  logged : List ℤ
  conn : Conn
  deriving DecidableEq, Repr

/-- The size that is logged for a result: for Telnet, without the header. -/
def tcpLogSize (l7Proto : UInt8) (size : ℤ) : ℤ :=
  if l7Proto = l7ProtoTelnet then size - 20 else size

/-- The loop of `tcpSock`, for `n` rounds at most. After a call that has no positive result, or
    that does not return, nothing more is received. -/
def tcpSock (e : Endian) (l7Proto : UInt8) (sizePreamble : ℕ) (payloadLogType : UInt8) :
    ℕ → List UInt8 → Conn → TcpReceived
  | 0, _, c => ⟨[], [], c⟩
  | n + 1, payload, c =>
    match TCPrecvPacket e payload c sizePreamble payloadLogType with
    | none => ⟨[], [], c⟩
    | some (size, payload, c') =>
      if size ≤ 0 then ⟨[], [], c⟩
      else
        let rest := tcpSock e l7Proto sizePreamble payloadLogType n payload c'
        ⟨size :: rest.results, tcpLogSize l7Proto size :: rest.logged, rest.conn⟩

/-! ## A packet without a preamble -/

section PlNone

variable {e : Endian} {payload : List UInt8} {c c' : Conn} {l7Proto : UInt8} {n : ℕ}

/-- The size of the preamble of a flow without one. -/
theorem preambleSize_plNone : preambleSize l4ProtoTCP plNone = 4 := rfl

/-- When five bytes arrive, the call completes, and its result is four bytes less than what it
    has read. -/
theorem TCPrecvPacket_plNone_of_le (e : Endian) (hp : 4 ≤ payload.length)
    (hle : 5 ≤ (arrivedOn c).length) :
    ∃ size payload' c', TCPrecvPacket e payload c 4 plNone = some (size, payload', c') ∧
      0 < size ∧ payload'.length = payload.length ∧
      size + 4 + (arrivedOn c').length = (arrivedOn c).length := by
  obtain ⟨c₁, hfirst, hc₁, -, -⟩ :=
    recvFirst_of_le (show 0 < 4 by decide) hp (show 4 ≤ (arrivedOn c).length by omega)
  have hne : arrivedOn c₁ ≠ [] := by
    apply List.ne_nil_of_length_pos
    rw [hc₁, List.length_drop]
    omega
  obtain ⟨k, c₂, hr, hk, -, hkl, hc₂, -⟩ :=
    conn_recv_arrived hne maxPayloadSize (show 0 < maxPayloadSize by decide)
  refine ⟨k, blit payload 0 ((arrivedOn c).take 4), c₂, ?_, Int.natCast_pos.2 hk, ?_, ?_⟩
  · rw [TCPrecvPacket, hfirst]
    exact (recvPayload_plNone ..).trans (by rw [hr]; rfl)
  · have hlen : ((arrivedOn c).take 4).length = 4 := List.length_take_of_le (by omega)
    exact length_blit (by omega)
  · rw [hc₁, List.length_drop] at hkl
    rw [hc₂, List.length_drop, hc₁, List.length_drop]
    omega

/-- When fewer bytes arrive, it does not. -/
theorem TCPrecvPacket_plNone_of_lt (hp : 4 ≤ payload.length) (hlt : (arrivedOn c).length < 5)
    {out : ℤ × List UInt8 × Conn} (h : TCPrecvPacket e payload c 4 plNone = some out) :
    out.1 ≤ 0 := by
  obtain ⟨⟨res, payload', c₁⟩, hfirst, h⟩ := Option.bind_eq_some_iff.1 h
  rcases Nat.lt_or_ge (arrivedOn c).length 4 with hlt' | hle
  · obtain ⟨⟨x, hx, hres⟩, -⟩ := (recvFirst_of_lt hlt').1 _ hfirst
    obtain rfl : res = .error x := hres
    cases h
    exact hx
  · obtain ⟨c₂, hfirst', hc₂, -, -⟩ := recvFirst_of_le (show 0 < 4 by decide) hp hle
    rw [hfirst'] at hfirst
    cases hfirst
    -- Nothing arrives behind the preamble.
    have hnil : arrivedOn c₁ = [] := by
      rw [hc₂, List.drop_eq_nil_iff]
      omega
    change recvPayload e _ c₁ 4 plNone = some out at h
    rw [recvPayload_plNone] at h
    obtain ⟨⟨r, c₃⟩, hr, rfl⟩ := Option.map_eq_some_iff.1 h
    exact conn_recv_nonpos hnil hr

/-- All that is received is counted, but for four bytes of every packet. -/
theorem tcpSock_sum (e : Endian) (l7Proto : UInt8) (n : ℕ) (hp : 4 ≤ payload.length) (c : Conn) :
    let t := tcpSock e l7Proto 4 plNone n payload c
    t.results.sum + 4 * t.results.length + (arrivedOn t.conn).length = (arrivedOn c).length ∧
      (t.results = [] ↔ n = 0 ∨ (arrivedOn c).length < 5) ∧
      t.logged = t.results.map (tcpLogSize l7Proto) := by
  induction n generalizing payload c with
  | zero => simp [tcpSock]
  | succ n ih =>
    rw [tcpSock]
    rcases Nat.lt_or_ge (arrivedOn c).length 5 with hlt | hle
    · cases h : TCPrecvPacket e payload c 4 plNone with
      | none => simp [hlt]
      | some out =>
        obtain ⟨size, payload', c'⟩ := out
        have hsize : size ≤ 0 := TCPrecvPacket_plNone_of_lt hp hlt h
        simp [hsize, hlt]
    · obtain ⟨size, payload', c', h, hpos, hlen, hsum⟩ := TCPrecvPacket_plNone_of_le e hp hle
      obtain ⟨ih₁, -, ih₂⟩ := ih (hlen.symm ▸ hp) c'
      rw [h]
      dsimp only
      rw [if_neg (not_le.2 hpos)]
      refine ⟨?_, iff_of_false (List.cons_ne_nil _ _) (by omega), ?_⟩
      · rw [List.sum_cons, List.length_cons]
        push_cast
        omega
      · rw [ih₂, List.map_cons]

/-- Of a flow without a preamble, on any stream in any pieces: the results of the calls that
    complete, and the sizes that are logged for them, add up to the bytes that these calls have
    read if and only if there is no such call, as fewer than five bytes arrive. -/
theorem tcpSock_sum_iff (e : Endian) (l7Proto : UInt8) (n : ℕ)
    (hp : payload.length = maxPayloadSize) (c : Conn) :
    let t := tcpSock e l7Proto (preambleSize l4ProtoTCP plNone) plNone n payload c
    (t.results.sum = (arrivedOn c).length - (arrivedOn t.conn).length ∧
      t.logged.sum = (arrivedOn c).length - (arrivedOn t.conn).length) ↔
    n = 0 ∨ (arrivedOn c).length < 5 := by
  have hp' : 4 ≤ payload.length := hp ▸ show 4 ≤ maxPayloadSize by decide
  obtain ⟨hsum, hnil, hlogged⟩ := tcpSock_sum e l7Proto n hp' c
  rw [preambleSize_plNone, ← hnil]
  generalize tcpSock e l7Proto 4 plNone n payload c = t at *
  constructor
  · rintro ⟨heq, -⟩
    -- Every call that completes has read four bytes more.
    rw [← List.length_eq_zero_iff]
    omega
  · intro hres
    rw [hres] at hsum hlogged
    rw [hlogged, hres]
    simp only [List.sum_nil, List.length_nil, List.map_nil] at hsum ⊢
    omega

/-- Five bytes in one piece. -/
def fiveBytes : Conn := ⟨[.data [1, 2, 3, 4, 5]], []⟩

theorem tcpSock_sum_iff_five :
    let t := tcpSock .little 0 (preambleSize l4ProtoTCP plNone) plNone 1
      (List.replicate maxPayloadSize 0) fiveBytes
    (t.results.sum = (arrivedOn fiveBytes).length - (arrivedOn t.conn).length ∧
      t.logged.sum = (arrivedOn fiveBytes).length - (arrivedOn t.conn).length) ↔
    1 = 0 ∨ (arrivedOn fiveBytes).length < 5 :=
  tcpSock_sum_iff .little 0 1 List.length_replicate fiveBytes

/-- Of five bytes, one is counted. -/
theorem not_tcpSock_sum : ¬∀ (e : Endian) (l7Proto : UInt8) (n : ℕ) (payload : List UInt8)
    (c : Conn), payload.length = maxPayloadSize →
      let t := tcpSock e l7Proto (preambleSize l4ProtoTCP plNone) plNone n payload c
      t.results.sum = (arrivedOn c).length - (arrivedOn t.conn).length := by
  intro h
  have hfive := h .little 0 1 (List.replicate maxPayloadSize 0) fiveBytes List.length_replicate
  have hp : 4 ≤ (List.replicate maxPayloadSize (0 : UInt8)).length := by
    rw [List.length_replicate]
    decide
  obtain ⟨hsum, hnil, -⟩ := tcpSock_sum .little 0 1 hp fiveBytes
  have hne : (tcpSock .little 0 4 plNone 1 (List.replicate maxPayloadSize 0)
      fiveBytes).results ≠ [] := fun h => absurd (hnil.1 h) (by decide)
  have hlen := List.length_pos_iff.2 hne
  rw [preambleSize_plNone] at hfive
  dsimp only at hfive
  omega

end PlNone

end Ditg
