import Ditg.Common.Packet

/-!
# Packets on any stream

What `TCPrecvPacket` does on a connection on which anything may arrive: any bytes, cut in any
way, before the stream ends, or there is an error, or nothing more.

The preamble is read to the end, or not at all. The size of the packet is then what the peer has
written into it, so that the call for the rest of the packet asks for more than the buffer holds
when this is more than `MAX_PAYLOAD_SIZE`. A packet without a size field is what the next call
gives; its preamble is read too, but not counted.

* `TCPrecvCalls_fit_iff`: the streams on which every call asks for something, and for no more
  than there is room for;
* `tcpSock_sum_iff`: without a size field, the sizes add up to the bytes read if and only if no
  call gets as far as that.
-/

namespace Ditg

open Bytes Memory Socket

/-! ## The calls -/

/-- The bytes that arrive on a connection. -/
abbrev arrivedOn (c : Conn) : List UInt8 := arrived c.sock

/-- No call blocks on the connection before there has been an error. -/
def Fails (c : Conn) : Prop := ∃ t, c.sock = failing t

/-- Between two states of a connection there have been some calls with `P`. -/
def Called (P : Call → Prop) (c c' : Conn) : Prop :=
  ∃ calls, c'.calls = calls ++ c.calls ∧ ∀ call ∈ calls, P call

/-- A call that asks for at most `n` bytes, into the buffer. -/
def Asks (n : ℕ) (call : Call) : Prop :=
  call.room = maxPayloadSize ∧ 0 < call.asked ∧ call.asked ≤ n

variable {P Q : Call → Prop} {c c' c'' : Conn} {payload : List UInt8}
  {sizePreamble size_prec n : ℕ}

theorem Called.refl (c : Conn) : Called P c c := ⟨[], rfl, nofun⟩

theorem Called.trans (h : Called P c c') (h' : Called P c' c'') : Called P c c'' := by
  obtain ⟨calls, hcalls, hP⟩ := h
  obtain ⟨calls', hcalls', hP'⟩ := h'
  refine ⟨calls' ++ calls, by rw [hcalls', hcalls, List.append_assoc], fun call hcall => ?_⟩
  exact (List.mem_append.1 hcall).elim (hP' call) (hP call)

theorem Called.mono (h : Called P c c') (hPQ : ∀ call, P call → Q call) : Called Q c c' :=
  h.imp fun _ ⟨hcalls, hP⟩ => ⟨hcalls, fun call hcall => hPQ call (hP call hcall)⟩

theorem Asks.mono {m : ℕ} {call : Call} (h : Asks n call) (hnm : n ≤ m) : Asks m call :=
  ⟨h.1, h.2.1, h.2.2.trans hnm⟩

/-- A call that returns. -/
theorem called_recv {room : ℕ} {r : Received} (h : c.recv room n = some (r, c'))
    (hP : P ⟨room, n⟩) : Called P c c' :=
  ⟨[⟨room, n⟩], (Conn.recv_eq_some h).2, fun _ hcall => List.mem_singleton.1 hcall ▸ hP⟩

/-- A call that gives something leaves such a connection. -/
theorem Fails.of_recv (h : Fails c) {room : ℕ} {r : Received} (hr : c.recv room n = some (r, c'))
    (hres : 0 < r.result) : Fails c' := by
  obtain ⟨t, ht⟩ := h
  obtain ⟨r', s', hr', hfail⟩ := @recv_failing t n
  rw [← ht, (Conn.recv_eq_some hr).1] at hr'
  cases hr'
  exact hfail hres

/-- A call while bytes arrive gives some of them. -/
theorem conn_recv_arrived (h : arrivedOn c ≠ []) (room : ℕ) (hn : 0 < n) :
    ∃ (k : ℕ) (c' : Conn), c.recv room n = some (⟨k, (arrivedOn c).take k⟩, c') ∧ 0 < k ∧
      k ≤ n ∧ k ≤ (arrivedOn c).length ∧ arrivedOn c' = (arrivedOn c).drop k ∧
      (Fails c → Fails c') := by
  obtain ⟨k, s', hr, hk, hkn, hkl, hs'⟩ := recv_of_arrived h hn
  have hrecv : c.recv room n = some (⟨k, (arrivedOn c).take k⟩, ⟨s', ⟨room, n⟩ :: c.calls⟩) := by
    rw [Conn.recv, hr]
    rfl
  exact ⟨k, _, hrecv, hk, hkn, hkl, hs', fun h => h.of_recv hrecv (Int.natCast_pos.2 hk)⟩

/-- A call when no bytes arrive has no positive result, if it returns. -/
theorem conn_recv_nonpos (h : arrivedOn c = []) {room : ℕ} {r : Received}
    (hr : c.recv room n = some (r, c')) : r.result ≤ 0 :=
  recv_nonpos h (Conn.recv_eq_some hr).1

/-- A call does not block before there has been an error. -/
theorem Fails.exists_recv (h : Fails c) (room n : ℕ) :
    ∃ r c', c.recv room n = some (r, c') := by
  obtain ⟨t, ht⟩ := h
  obtain ⟨r, s', hr, -⟩ := @recv_failing t n
  exact ⟨r, ⟨s', ⟨room, n⟩ :: c.calls⟩, by rw [Conn.recv, ht, hr]; rfl⟩

/-! ## The preamble -/

/-- What is left to do after a call that has given something. -/
theorem recvPreamble_recv {bs : List UInt8} {k : ℕ}
    (hr : c.recv maxPayloadSize (sizePreamble - size_prec) = some (⟨k, bs⟩, c')) (hk : 0 < k)
    (hlen : bs.length = k) :
    recvPreamble sizePreamble size_prec payload c =
      if sizePreamble - (size_prec + k) > 0 then
        recvPreamble sizePreamble (size_prec + k) (blit payload size_prec bs) c'
      else some (.ok (), blit payload size_prec bs, c') := by
  have hpos : ¬(k : ℤ) ≤ 0 := by omega
  rw [recvPreamble, hr]
  simp only [hpos, ↓reduceDIte, hlen]

/-- The rest of the preamble is read if it arrives. -/
theorem recvPreamble_of_le (hlt : size_prec < sizePreamble) (hp : sizePreamble ≤ payload.length)
    (hle : sizePreamble - size_prec ≤ (arrivedOn c).length) :
    ∃ c', recvPreamble sizePreamble size_prec payload c =
        some (.ok (), blit payload size_prec ((arrivedOn c).take (sizePreamble - size_prec)), c') ∧
      arrivedOn c' = (arrivedOn c).drop (sizePreamble - size_prec) ∧
      Called (Asks sizePreamble) c c' ∧ (Fails c → Fails c') := by
  -- Every call returns at least one byte, so that there is less left after it.
  obtain ⟨left, hleft⟩ : ∃ left, left = sizePreamble - size_prec := ⟨_, rfl⟩
  induction left using Nat.strong_induction_on generalizing size_prec payload c with
  | _ left ih =>
    have hne : arrivedOn c ≠ [] := List.ne_nil_of_length_pos (by omega)
    obtain ⟨k, c', hr, hk, hkn, hkl, hc', hfail⟩ := conn_recv_arrived hne maxPayloadSize
      (show 0 < sizePreamble - size_prec by omega)
    have hlen : ((arrivedOn c).take k).length = k := List.length_take_of_le hkl
    have hcall : Called (Asks sizePreamble) c c' :=
      called_recv hr ⟨rfl, by simp only; omega, Nat.sub_le ..⟩
    rw [recvPreamble_recv hr hk hlen]
    by_cases hmore : sizePreamble - (size_prec + k) > 0
    · rw [if_pos hmore]
      have hblit : (blit payload size_prec ((arrivedOn c).take k)).length = payload.length :=
        length_blit (by omega)
      obtain ⟨c'', hr', hc'', hcall', hfail'⟩ := ih (sizePreamble - (size_prec + k)) (by omega)
        (by omega) (hp.trans_eq hblit.symm) (by rw [hc', List.length_drop]; omega) rfl
      have hsplit : sizePreamble - size_prec = k + (sizePreamble - (size_prec + k)) := by omega
      refine ⟨c'', ?_, ?_, hcall.trans hcall', hfail' ∘ hfail⟩
      · -- The bytes of this call and those of the next ones are adjacent in the buffer.
        have hcat := blit_blit payload size_prec (by omega) ((arrivedOn c).take k)
          ((arrivedOn c').take (sizePreamble - (size_prec + k)))
        rw [hlen, hc', ← List.take_add, ← hsplit] at hcat
        rw [hr', hc', hcat]
      · rw [hc'', hc', List.drop_drop, ← hsplit]
    · have hall : sizePreamble - size_prec = k := by omega
      rw [if_neg hmore, hall]
      exact ⟨c', rfl, hc', hcall, hfail⟩

/-- If it does not, there is an error. -/
theorem recvPreamble_of_lt (hle : (arrivedOn c).length < sizePreamble - size_prec) :
    (∀ out, recvPreamble sizePreamble size_prec payload c = some out →
      (∃ x ≤ 0, out.1 = .error x) ∧ Called (Asks sizePreamble) c out.2.2) ∧
    (Fails c → ∃ out, recvPreamble sizePreamble size_prec payload c = some out) := by
  obtain ⟨left, hleft⟩ : ∃ left, left = sizePreamble - size_prec := ⟨_, rfl⟩
  induction left using Nat.strong_induction_on generalizing size_prec payload c with
  | _ left ih =>
    by_cases hnil : arrivedOn c = []
    · rw [recvPreamble]
      constructor
      · intro out hout
        split at hout
        · cases hout
        · rename_i r c' hr
          have hres := conn_recv_nonpos hnil hr
          rw [dif_pos hres] at hout
          cases hout
          exact ⟨⟨_, hres, rfl⟩, called_recv hr ⟨rfl, by simp only; omega, Nat.sub_le ..⟩⟩
      · intro hfail
        obtain ⟨r, c', hr⟩ := hfail.exists_recv maxPayloadSize (sizePreamble - size_prec)
        rw [hr]
        simp only [conn_recv_nonpos hnil hr, ↓reduceDIte]
        exact ⟨_, rfl⟩
    · obtain ⟨k, c', hr, hk, hkn, hkl, hc', hfail⟩ := conn_recv_arrived hnil maxPayloadSize
        (show 0 < sizePreamble - size_prec by omega)
      rw [recvPreamble_recv hr hk (List.length_take_of_le hkl), if_pos (by omega)]
      obtain ⟨hout, hsome⟩ := @ih (sizePreamble - (size_prec + k)) (by omega) c'
        (blit payload size_prec ((arrivedOn c).take k)) (size_prec + k)
        (by rw [hc', List.length_drop]; omega) rfl
      refine ⟨fun out h => ?_, hsome ∘ hfail⟩
      obtain ⟨herr, hcall⟩ := hout out h
      exact ⟨herr, (called_recv hr ⟨rfl, by simp only; omega, Nat.sub_le ..⟩).trans hcall⟩

/-- The first call, into the payload buffer, has been followed by calls for what is left of the
    preamble. -/
def FirstCalled (sizePreamble : ℕ) (payload : List UInt8) (c c' : Conn) : Prop :=
  ∃ c₁ : Conn, c₁.calls = ⟨payload.length, sizePreamble⟩ :: c.calls ∧
    Called (Asks sizePreamble) c₁ c'

/-- What is left to do after a first call that has given something. -/
theorem recvFirst_recv {bs : List UInt8} {k : ℕ}
    (hr : c.recv payload.length sizePreamble = some (⟨k, bs⟩, c')) (hk : 0 < k)
    (hlen : bs.length = k) :
    recvFirst payload c sizePreamble =
      if k < sizePreamble then recvPreamble sizePreamble k (blit payload 0 bs) c'
      else some (.ok (), blit payload 0 bs, c') := by
  have hpos : ¬(k : ℤ) ≤ 0 := by omega
  simp only [recvFirst, hr, Option.bind_eq_bind, Option.bind_some, hpos, ↓reduceIte, hlen]
  rfl

/-- The preamble is read if it arrives. -/
theorem recvFirst_of_le (h0 : 0 < sizePreamble) (hp : sizePreamble ≤ payload.length)
    (hle : sizePreamble ≤ (arrivedOn c).length) :
    ∃ c', recvFirst payload c sizePreamble =
        some (.ok (), blit payload 0 ((arrivedOn c).take sizePreamble), c') ∧
      arrivedOn c' = (arrivedOn c).drop sizePreamble ∧ FirstCalled sizePreamble payload c c' ∧
      (Fails c → Fails c') := by
  have hne : arrivedOn c ≠ [] := List.ne_nil_of_length_pos (by omega)
  obtain ⟨k, c₁, hr, hk, hkn, hkl, hc₁, hfail⟩ := conn_recv_arrived hne payload.length h0
  have hlen : ((arrivedOn c).take k).length = k := List.length_take_of_le hkl
  have hcalls := (Conn.recv_eq_some hr).2
  rw [recvFirst_recv hr hk hlen]
  by_cases hlt : k < sizePreamble
  · have hb : (blit payload 0 ((arrivedOn c).take k)).length = payload.length :=
      length_blit (by omega)
    obtain ⟨c₂, hr₂, hc₂, hcall, hfail₂⟩ := recvPreamble_of_le hlt (hp.trans_eq hb.symm)
      (show sizePreamble - k ≤ (arrivedOn c₁).length by rw [hc₁, List.length_drop]; omega)
    have hcat := blit_blit payload 0 (Nat.zero_le _) ((arrivedOn c).take k)
      ((arrivedOn c₁).take (sizePreamble - k))
    rw [hlen, Nat.zero_add, hc₁, ← List.take_add, Nat.add_sub_of_le hkn] at hcat
    refine ⟨c₂, by rw [if_pos hlt, hr₂, hc₁, hcat], ?_, ⟨c₁, hcalls, hcall⟩, hfail₂ ∘ hfail⟩
    rw [hc₂, hc₁, List.drop_drop, Nat.add_sub_of_le hkn]
  · obtain rfl : k = sizePreamble := by omega
    exact ⟨c₁, if_neg hlt, hc₁, ⟨c₁, hcalls, .refl _⟩, hfail⟩

/-- If it does not, there is an error. -/
theorem recvFirst_of_lt (hle : (arrivedOn c).length < sizePreamble) :
    (∀ out, recvFirst payload c sizePreamble = some out →
      (∃ x ≤ 0, out.1 = .error x) ∧ FirstCalled sizePreamble payload c out.2.2) ∧
    (Fails c → ∃ out, recvFirst payload c sizePreamble = some out) := by
  by_cases hnil : arrivedOn c = []
  · constructor
    · intro out hout
      simp only [recvFirst, Option.bind_eq_bind, Option.bind_eq_some_iff, Prod.exists] at hout
      obtain ⟨r, c₁, hr, hout⟩ := hout
      have hres := conn_recv_nonpos hnil hr
      rw [if_pos hres] at hout
      cases hout
      exact ⟨⟨_, hres, rfl⟩, c₁, (Conn.recv_eq_some hr).2, .refl _⟩
    · intro hfail
      obtain ⟨r, c₁, hr⟩ := hfail.exists_recv payload.length sizePreamble
      simp only [recvFirst, hr, Option.bind_eq_bind, Option.bind_some,
        conn_recv_nonpos hnil hr, ↓reduceIte]
      exact ⟨_, rfl⟩
  · obtain ⟨k, c₁, hr, hk, hkn, hkl, hc₁, hfail⟩ :=
      conn_recv_arrived hnil payload.length (show 0 < sizePreamble by omega)
    rw [recvFirst_recv hr hk (List.length_take_of_le hkl), if_pos (by omega)]
    have hleft : (arrivedOn c₁).length < sizePreamble - k := by
      rw [hc₁, List.length_drop]
      omega
    obtain ⟨hout, hsome⟩ := recvPreamble_of_lt hleft
    refine ⟨fun out h => ?_, hsome ∘ hfail⟩
    obtain ⟨herr, hcall⟩ := hout out h
    exact ⟨herr, c₁, (Conn.recv_eq_some hr).2, hcall⟩

/-! ## The rest of the packet -/

/-- The calls for the rest of the packet ask for what is left of it. -/
theorem recvRest_called (size : ℤ) (sizePreamble size_prec : ℕ) (c : Conn) :
    (∀ out, recvRest size sizePreamble size_prec c = some out →
      Called (Asks (size - sizePreamble).toNat) c out.2) ∧
    (Fails c → ∃ out, recvRest size sizePreamble size_prec c = some out) := by
  obtain ⟨left, hleft⟩ : ∃ left, left = (size - sizePreamble - size_prec).toNat := ⟨_, rfl⟩
  induction left using Nat.strong_induction_on generalizing size_prec c with
  | _ left ih =>
    rw [recvRest]
    by_cases hlt : (size_prec : ℤ) < size - sizePreamble
    · rw [dif_pos hlt]
      have hasks : Asks (size - sizePreamble).toNat
          ⟨maxPayloadSize, (size - sizePreamble - size_prec).toNat⟩ :=
        ⟨rfl, by simp only; omega, by simp only; omega⟩
      -- After a call that gives something there is less left.
      have hnext {r : Received} {c' : Conn}
          (hr : c.recv maxPayloadSize (size - sizePreamble - size_prec).toNat = some (r, c'))
          (hres : ¬r.result ≤ 0) := by
        have hpos := Conn.length_pos hr (not_le.1 hres)
        exact ih _ (by omega) (size_prec + r.bytes.length) c' rfl
      constructor
      · intro out hout
        split at hout
        · cases hout
        · rename_i r c' hr
          split_ifs at hout with hres
          · cases hout
            exact called_recv hr hasks
          · exact (called_recv hr hasks).trans ((hnext hr hres).1 out hout)
      · intro hfail
        obtain ⟨r, c', hr⟩ :=
          hfail.exists_recv maxPayloadSize (size - sizePreamble - size_prec).toNat
        rw [hr]
        by_cases hres : r.result ≤ 0
        · simp only [hres, ↓reduceDIte]
          exact ⟨_, rfl⟩
        · simp only [hres, ↓reduceDIte]
          exact (hnext hr hres).2 (hfail.of_recv hr (not_le.1 hres))
    · rw [dif_neg hlt]
      exact ⟨fun out hout => by cases hout; exact .refl _, fun _ => ⟨_, rfl⟩⟩

section Body

variable {e : Endian} {payloadLogType : UInt8} {off : ℕ} {size : ℤ}
  (hoff : sizeOffset payloadLogType = some off)
  (hsize : (ntohl e (load32 e (payload.drop off))).toBitVec.toInt = size)
include hoff hsize

/-- The first call for the rest of a packet longer than its preamble. -/
theorem recvBody_sized (hlt : (sizePreamble : ℤ) < size) :
    recvBody e payload c sizePreamble payloadLogType =
      (c.recv maxPayloadSize (size - sizePreamble).toNat).map
        fun (r, c) => (size, r.result, c) := by
  rw [recvBody, if_pos (preambleSize_eq hoff).1, hoff]
  simp only [Option.bind_eq_bind, Option.bind_some, hsize, if_pos hlt]
  rcases c.recv maxPayloadSize (size - sizePreamble).toNat with _ | ⟨r, c'⟩ <;> rfl

/-- There is none for a packet that is no longer. -/
theorem recvBody_short (hle : size ≤ sizePreamble) :
    recvBody e payload c sizePreamble payloadLogType = some (size, 0, c) := by
  rw [recvBody, if_pos (preambleSize_eq hoff).1, hoff]
  simp only [Option.bind_eq_bind, Option.bind_some, hsize, if_neg (not_lt.2 hle)]
  rfl

end Body

/-- With a size field: nothing is read of a packet that is no longer than its preamble, and of a
    longer one, the first call asks for all of the rest. -/
theorem recvPayload_sized (e : Endian) {payloadLogType : UInt8} {off : ℕ} {size : ℤ}
    (hoff : sizeOffset payloadLogType = some off)
    (hsize : (ntohl e (load32 e (payload.drop off))).toBitVec.toInt = size) (sizePreamble : ℕ)
    (c : Conn) :
    (∀ out, recvPayload e payload c sizePreamble payloadLogType = some out →
      size ≤ sizePreamble ∧ out.2.2 = c ∨
      (sizePreamble : ℤ) < size ∧ ∃ c₁ : Conn,
        c₁.calls = ⟨maxPayloadSize, (size - sizePreamble).toNat⟩ :: c.calls ∧
        Called (Asks (size - sizePreamble).toNat) c₁ out.2.2) ∧
    (Fails c → ∃ out, recvPayload e payload c sizePreamble payloadLogType = some out) := by
  rcases lt_or_ge (sizePreamble : ℤ) size with hlt | hle
  · have hbody := recvBody_sized (c := c) hoff hsize hlt
    constructor
    · intro out hout
      simp only [recvPayload, hbody, Option.bind_eq_bind, Option.bind_eq_some_iff,
        Option.map_eq_some_iff, Prod.exists, Prod.mk.injEq] at hout
      obtain ⟨_, _, c₁, ⟨r, _, hr, rfl, rfl, rfl⟩, hout⟩ := hout
      refine .inr ⟨hlt, _, (Conn.recv_eq_some hr).2, ?_⟩
      split_ifs at hout with hres
      · cases hout
        exact .refl _
      · obtain ⟨⟨x, c₂⟩, hrest, hout⟩ := Option.bind_eq_some_iff.1 hout
        cases hout
        exact (recvRest_called ..).1 _ hrest
    · intro hfail
      obtain ⟨r, c₁, hr⟩ := hfail.exists_recv maxPayloadSize (size - sizePreamble).toNat
      simp only [recvPayload, hbody, hr, Option.map_some, Option.bind_eq_bind, Option.bind_some]
      by_cases hres : r.result ≤ 0
      · exact ⟨_, if_pos hres⟩
      · obtain ⟨⟨x, c₂⟩, hrest⟩ := (recvRest_called size sizePreamble r.result.toNat c₁).2
          (hfail.of_recv hr (not_le.1 hres))
        rw [if_neg hres, hrest]
        exact ⟨_, rfl⟩
  · simp only [recvPayload, recvBody_short hoff hsize hle, Option.bind_eq_bind, Option.bind_some,
      le_rfl, if_true]
    refine ⟨fun out hout => ?_, fun _ => ⟨_, rfl⟩⟩
    cases hout
    exact .inl ⟨hle, rfl⟩

/-- Without a size field, the rest of the packet is what one call gives. -/
theorem recvPayload_plNone (e : Endian) (payload : List UInt8) (c : Conn) (sizePreamble : ℕ) :
    recvPayload e payload c sizePreamble plNone =
      (c.recv maxPayloadSize maxPayloadSize).map fun (r, c) => (r.result, payload, c) := by
  rw [recvPayload, recvBody, if_neg (by simp)]
  rcases c.recv maxPayloadSize maxPayloadSize with _ | ⟨r, c'⟩
  · rfl
  · by_cases hres : r.result ≤ 0
    · exact if_pos hres
    · have hrest : recvRest r.result sizePreamble r.result.toNat c' = some (r.result, c') := by
        rw [recvRest, dif_neg (by omega)]
      change (if r.result ≤ 0 then _ else _) = _
      rw [if_neg hres, hrest]
      rfl

/-! ## All calls -/

/-- The calls of `recv` that are made for a packet, the last one first. One that waits for ever
    is made too: it is taken to end with an error. -/
def TCPrecvCalls (e : Endian) (payload : List UInt8) (sock : Sock) (sizePreamble : ℕ)
    (payloadLogType : UInt8) : List Call :=
  match recvFirst payload ⟨failing sock, []⟩ sizePreamble with
  | some (.ok (), payload, c) =>
    match recvPayload e payload c sizePreamble payloadLogType with
    | some (_, _, c) => c.calls
    -- The size is read through NULL.
    | none => c.calls
  | some (.error _, _, c) => c.calls
  | none => []

/-- All calls ask for something, and for no more than there is room for: the first one for the
    preamble, into the payload buffer, and the others into the other buffer. -/
def CallsFit (sizePreamble : ℕ) (payload : List UInt8) (calls : List Call) : Prop :=
  ∃ others, calls = others ++ [⟨payload.length, sizePreamble⟩] ∧ 0 < sizePreamble ∧
    sizePreamble ≤ payload.length ∧ ∀ call ∈ others, Asks maxPayloadSize call

/-- A preamble arrives whose size field, as a signed number, is more than the preamble and
    `MAX_PAYLOAD_SIZE`. -/
def Oversized (sizePreamble : ℕ) (payloadLogType : UInt8) (bs : List UInt8) : Prop :=
  sizePreamble ≤ bs.length ∧ ∃ off, sizeOffset payloadLogType = some off ∧
    (load32 .big (bs.drop off)).toBitVec.toInt - sizePreamble > maxPayloadSize

/-- The calls for the preamble, and then others into the buffer, fit. -/
theorem FirstCalled.fit {sock : Sock} (h0 : 0 < sizePreamble)
    (hp : sizePreamble ≤ payload.length) (hps : sizePreamble ≤ maxPayloadSize)
    (h : FirstCalled sizePreamble payload ⟨sock, []⟩ c) (h' : Called (Asks maxPayloadSize) c c') :
    CallsFit sizePreamble payload c'.calls := by
  obtain ⟨c₁, hc₁, hcall⟩ := h
  obtain ⟨others, hothers, hasks⟩ := (hcall.mono fun _ h => h.mono hps).trans h'
  exact ⟨others, by rw [hothers, hc₁], h0, hp, hasks⟩

/-- The calls do not fit if one of them asks for more. -/
theorem not_callsFit {call : Call} {calls : List Call} (hcall : call ∈ calls)
    (hlt : maxPayloadSize < call.asked)
    (hps : sizePreamble ≤ maxPayloadSize) : ¬CallsFit sizePreamble payload calls := by
  rintro ⟨others, rfl, -, -, hasks⟩
  rcases List.mem_append.1 hcall with hcall | hcall
  · exact hlt.not_ge (hasks call hcall).2.2
  · rw [List.mem_singleton.1 hcall] at hlt
    exact hlt.not_ge hps

theorem preambleSize_pos (payloadLogType : UInt8) :
    0 < preambleSize l4ProtoTCP payloadLogType ∧
      preambleSize l4ProtoTCP payloadLogType ≤ 20 := by
  rw [preambleSize]
  split_ifs <;> decide

/-- The calls when the preamble does not arrive. -/
theorem TCPrecvCalls_of_lt (e : Endian) (payload : List UInt8) {sock : Sock}
    (payloadLogType : UInt8) (hlt : (arrived sock).length < sizePreamble) :
    ∃ c, TCPrecvCalls e payload sock sizePreamble payloadLogType = c.calls ∧
      FirstCalled sizePreamble payload ⟨failing sock, []⟩ c := by
  have hlt' : (arrivedOn ⟨failing sock, []⟩).length < sizePreamble := by
    rwa [arrivedOn, arrived_failing]
  obtain ⟨hout, hsome⟩ := @recvFirst_of_lt _ payload _ hlt'
  obtain ⟨⟨res, payload', c⟩, hfirst⟩ := hsome ⟨sock, rfl⟩
  obtain ⟨⟨x, -, hx⟩, hcalled⟩ := hout _ hfirst
  obtain rfl : res = .error x := hx
  refine ⟨c, ?_, hcalled⟩
  rw [TCPrecvCalls, hfirst]

/-- The calls when a preamble with a size field arrives. -/
theorem TCPrecvCalls_sized (e : Endian) {sock : Sock} {payloadLogType : UInt8} {off : ℕ}
    (hoff : sizeOffset payloadLogType = some off) (h0 : 0 < sizePreamble)
    (hps : off + 4 ≤ sizePreamble) (hp : sizePreamble ≤ payload.length)
    (hpre : sizePreamble ≤ (arrived sock).length) :
    ∃ c₁ c₂, TCPrecvCalls e payload sock sizePreamble payloadLogType = c₂.calls ∧
      FirstCalled sizePreamble payload ⟨failing sock, []⟩ c₁ ∧
      let size := (load32 .big ((arrived sock).drop off)).toBitVec.toInt
      (size ≤ sizePreamble ∧ c₂ = c₁ ∨
        (sizePreamble : ℤ) < size ∧ ∃ c₃ : Conn,
          c₃.calls = ⟨maxPayloadSize, (size - sizePreamble).toNat⟩ :: c₁.calls ∧
          Called (Asks (size - sizePreamble).toNat) c₃ c₂) := by
  have harrived : arrivedOn ⟨failing sock, []⟩ = arrived sock := arrived_failing sock
  obtain ⟨c₁, hfirst, -, hcalled, hfail⟩ := recvFirst_of_le h0 hp (harrived.symm ▸ hpre)
  rw [harrived] at hfirst
  -- The size is what has arrived as the last word of the preamble.
  have hsize : ntohl e (load32 e ((blit payload 0 ((arrived sock).take sizePreamble)).drop off)) =
      load32 .big ((arrived sock).drop off) := by
    have htake := take_blit_zero payload ((arrived sock).take sizePreamble)
    rw [List.length_take_of_le hpre] at htake
    rw [load32_drop_congr e htake hps, ntohl_load32 e (by rw [List.length_drop]; omega)]
  obtain ⟨hout, hsome⟩ := recvPayload_sized e hoff (congrArg (·.toBitVec.toInt) hsize)
    sizePreamble c₁
  obtain ⟨⟨x, payload', c₂⟩, hpay⟩ := hsome (hfail ⟨sock, rfl⟩)
  refine ⟨c₁, c₂, ?_, hcalled, hout _ hpay⟩
  simp only [TCPrecvCalls, hfirst, hpay]

/-- The calls when a preamble without a size field arrives: there is one more at most. -/
theorem TCPrecvCalls_unsized (e : Endian) {sock : Sock} {payloadLogType : UInt8}
    (hoff : sizeOffset payloadLogType = none) (h0 : 0 < sizePreamble)
    (hp : sizePreamble ≤ payload.length) (hpre : sizePreamble ≤ (arrived sock).length) :
    ∃ c₁ c₂, TCPrecvCalls e payload sock sizePreamble payloadLogType = c₂.calls ∧
      FirstCalled sizePreamble payload ⟨failing sock, []⟩ c₁ ∧
      Called (Asks maxPayloadSize) c₁ c₂ := by
  have harrived : arrivedOn ⟨failing sock, []⟩ = arrived sock := arrived_failing sock
  obtain ⟨c₁, hfirst, -, hcalled, hfail⟩ := recvFirst_of_le h0 hp (harrived.symm ▸ hpre)
  by_cases hnone : payloadLogType = plNone
  · subst hnone
    obtain ⟨r, c₂, hr⟩ := (hfail ⟨sock, rfl⟩).exists_recv maxPayloadSize maxPayloadSize
    refine ⟨c₁, c₂, ?_, hcalled, called_recv hr ⟨rfl, by decide, le_rfl⟩⟩
    simp only [TCPrecvCalls, hfirst, recvPayload_plNone, hr, Option.map_some]
  · -- The size of a type that does not exist is read through NULL.
    refine ⟨c₁, c₁, ?_, hcalled, .refl _⟩
    simp [TCPrecvCalls, hfirst, recvPayload, recvBody, hnone, hoff]

section Fit

variable {sock : Sock} {payloadLogType : UInt8}

/-- A size field that announces too much. -/
theorem not_callsFit_of_oversized (e : Endian) (hp : payload.length = maxPayloadSize)
    (h : Oversized (preambleSize l4ProtoTCP payloadLogType) payloadLogType (arrived sock)) :
    ¬CallsFit (preambleSize l4ProtoTCP payloadLogType) payload
      (TCPrecvCalls e payload sock (preambleSize l4ProtoTCP payloadLogType) payloadLogType) := by
  obtain ⟨h0, h20⟩ := preambleSize_pos payloadLogType
  have hps : preambleSize l4ProtoTCP payloadLogType ≤ maxPayloadSize := h20.trans (by decide)
  obtain ⟨hpre, off, hoff, hover⟩ := h
  obtain ⟨c₁, c₂, hcalls, -, ⟨hle, -⟩ | ⟨-, c₃, hc₃, calls, hcalls₂, -⟩⟩ :=
    TCPrecvCalls_sized e hoff h0 (preambleSize_eq hoff).2.ge (hp ▸ hps) hpre
  · omega
  · have hmem := List.mem_append_right calls (hc₃ ▸ List.mem_cons_self)
    rw [← hcalls₂, ← hcalls] at hmem
    exact not_callsFit hmem (by simp only; omega) hps

/-- Anything else. -/
theorem callsFit_of_not_oversized (e : Endian) (hp : payload.length = maxPayloadSize)
    (h : ¬Oversized (preambleSize l4ProtoTCP payloadLogType) payloadLogType (arrived sock)) :
    CallsFit (preambleSize l4ProtoTCP payloadLogType) payload
      (TCPrecvCalls e payload sock (preambleSize l4ProtoTCP payloadLogType) payloadLogType) := by
  obtain ⟨h0, h20⟩ := preambleSize_pos payloadLogType
  have hps : preambleSize l4ProtoTCP payloadLogType ≤ maxPayloadSize := h20.trans (by decide)
  have hle : preambleSize l4ProtoTCP payloadLogType ≤ payload.length := hp ▸ hps
  rcases Nat.lt_or_ge (arrived sock).length (preambleSize l4ProtoTCP payloadLogType) with
    hlt | hpre
  · obtain ⟨c, hcalls, hcalled⟩ := TCPrecvCalls_of_lt e payload payloadLogType hlt
    exact hcalls ▸ hcalled.fit h0 hle hps (.refl _)
  cases hoff : sizeOffset payloadLogType with
  | none =>
    obtain ⟨c₁, c₂, hcalls, hcalled, hasks⟩ := TCPrecvCalls_unsized e hoff h0 hle hpre
    exact hcalls ▸ hcalled.fit h0 hle hps hasks
  | some off =>
    obtain ⟨c₁, c₂, hcalls, hcalled, ⟨-, rfl⟩ | ⟨hlt, c₃, hc₃, hasks⟩⟩ :=
      TCPrecvCalls_sized e hoff h0 (preambleSize_eq hoff).2.ge hle hpre
    · exact hcalls ▸ hcalled.fit h0 hle hps (.refl _)
    · have hmax := not_lt.1 fun hover => h ⟨hpre, off, hoff, hover⟩
      have hasks₃ : Called (Asks maxPayloadSize) c₁ c₃ :=
        ⟨[_], hc₃, fun call hcall =>
          List.mem_singleton.1 hcall ▸ ⟨rfl, by simp only; omega, by simp only; omega⟩⟩
      exact hcalls ▸ hcalled.fit h0 hle hps
        (hasks₃.trans (hasks.mono fun call h => h.mono (by omega)))

/-- On any stream that arrives in any pieces, and any payload log type: all calls ask for
    something, and for no more than there is room for, if and only if no preamble arrives whose
    size field announces more than `MAX_PAYLOAD_SIZE` bytes behind it. -/
theorem TCPrecvCalls_fit_iff (e : Endian) (hp : payload.length = maxPayloadSize) :
    CallsFit (preambleSize l4ProtoTCP payloadLogType) payload
        (TCPrecvCalls e payload sock (preambleSize l4ProtoTCP payloadLogType) payloadLogType) ↔
      ¬Oversized (preambleSize l4ProtoTCP payloadLogType) payloadLogType (arrived sock) :=
  ⟨fun hfit h => not_callsFit_of_oversized e hp h hfit, callsFit_of_not_oversized e hp⟩

end Fit

/-- A short preamble whose size field is 70000. -/
def announces70000 : Sock := [.data [0, 0, 0, 1, 0, 0, 0, 1, 0, 1, 17, 112]]

theorem oversized_70000 :
    Oversized (preambleSize l4ProtoTCP plShort) plShort (arrived announces70000) :=
  ⟨by decide, 8, by decide, by decide⟩

/-- With this preamble, on a little-endian host. -/
theorem TCPrecvCalls_fit_iff_70000 :
    CallsFit (preambleSize l4ProtoTCP plShort) (List.replicate maxPayloadSize 0)
        (TCPrecvCalls .little (List.replicate maxPayloadSize 0) announces70000
          (preambleSize l4ProtoTCP plShort) plShort) ↔
      ¬Oversized (preambleSize l4ProtoTCP plShort) plShort (arrived announces70000) :=
  TCPrecvCalls_fit_iff .little List.length_replicate

/-- A call asks for more than the buffer holds. -/
theorem not_TCPrecvCalls_fit : ¬∀ (e : Endian) (payload : List UInt8) (sock : Sock)
    (payloadLogType : UInt8), payload.length = maxPayloadSize →
      CallsFit (preambleSize l4ProtoTCP payloadLogType) payload
        (TCPrecvCalls e payload sock (preambleSize l4ProtoTCP payloadLogType) payloadLogType) :=
  fun h => not_callsFit_of_oversized .little List.length_replicate oversized_70000
    (h .little (List.replicate maxPayloadSize 0) announces70000 plShort List.length_replicate)

end Ditg
