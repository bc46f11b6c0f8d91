import Ditg.Dec.Record
import Ditg.Library.Keyed

/-!
# The flow table of the decoder

The decoder accumulates the records of a log file in the table `flowinfo`, with
one entry for each flow: a flow is a flow id between two addresses and two ports.
`setline` scans the table for the flow of a record and updates its entry, or
appends a new one.

The table is an instance of the keyed tables of the library (`flows`), which
`setline` implements by its scan (`decodeRecord_eq_insert`).

* `decode_flows`: however the records of different flows are interleaved, every
  flow of the log has exactly one entry, which is that of its own records alone,
  and the packets and the bytes of all entries are those of the log.
-/

namespace Ditg

open Bytes Memory

/-- An entry of the flow table. The counter `pktrecv` is unsigned and of 64 bits
    in its uses; it is not reduced here, as no log has that many records. -/
structure StFlowInfo (F : Type) where
  flowId : UInt32
  byterecv : F
  pktrecv : ℕ
  avdelay : F
  delvariation : F
  secfirstline : F
  seclastline : F
  maxdelay : F
  mindelay : F
  srcaddress : CharArray inet6Addrstrlen
  srcport : UInt32
  destaddress : CharArray inet6Addrstrlen
  destport : UInt32
  lastdelay : F
  avjitter : F
  pktloss : UInt64
  lastpktnum : UInt32
  pktdup : UInt32
  maxSeq : UInt32
  minSeq : UInt32
  lossEvents : UInt32

section Setline

variable {F : Type} [CDouble F]

/-! ## The model -/

/-- The time of a record in seconds. -/
def secTime (time1 time2 : UInt32) (time3 : F) : F :=
  ofUInt32 time1 * ((3600 : ℤ) : F) + ofUInt32 time2 * ((60 : ℤ) : F) + time3

/-- The time between two times. -/
def deltatime (time1 time2 : F) : F := time2 - time1

/-- The entry of a flow after its first record. -/
def firstline (infos : Info F) (txTime rxTime : F) : StFlowInfo F :=
  let currentdelay := deltatime txTime rxTime
  { flowId := infos.flowId
    byterecv := ofUInt32 infos.size
    pktrecv := 1
    avdelay := currentdelay
    delvariation := currentdelay * currentdelay
    maxdelay := currentdelay
    mindelay := currentdelay
    secfirstline := rxTime
    seclastline := rxTime
    srcaddress := strncpy _ infos.srcAddr.toList
    srcport := infos.srcPort
    destaddress := strncpy _ infos.destAddr.toList
    destport := infos.destPort
    lastdelay := currentdelay
    avjitter := ((0 : ℤ) : F)
    pktloss := 0
    lastpktnum := infos.seqNum
    pktdup := 0
    maxSeq := infos.seqNum
    minSeq := 1
    lossEvents := 0 }

/-- The loss counters after a record of sequence number `seqNum`, the ones for
    the packets received being those with the record. The differences are
    unsigned: of 32 bits up to the first operand of 64 bits. -/
def setLoss (seqNum : UInt32) (f : StFlowInfo F) : StFlowInfo F :=
  let pktrecv := UInt64.ofNat f.pktrecv
  let lossEvents := if seqNum.toUInt64 > f.pktloss + pktrecv then f.lossEvents + 1 else f.lossEvents
  if (f.maxSeq - f.minSeq + 1).toUInt64 < pktrecv - f.pktdup.toUInt64 then
    -- More packets than sequence numbers: the others are duplicates.
    { f with
      lossEvents := lossEvents
      pktdup := ((-f.maxSeq + f.minSeq).toUInt64 + pktrecv - 1).toUInt32
      pktloss := 0 }
  else
    let pktloss := (f.maxSeq - f.minSeq).toUInt64 - pktrecv + f.pktdup.toUInt64 + 1
    { f with
      lossEvents := if pktloss < f.pktloss then lossEvents - 1 else lossEvents
      pktloss := pktloss }

/-- The entry of a flow after a further record. -/
def nextline (infos : Info F) (txTime rxTime : F) (f : StFlowInfo F) : StFlowInfo F :=
  let currentdelay := deltatime txTime rxTime
  setLoss infos.seqNum
    { f with
      byterecv := f.byterecv + ofUInt32 infos.size
      pktrecv := f.pktrecv + 1
      avdelay := f.avdelay + currentdelay
      delvariation := f.delvariation + currentdelay * currentdelay
      maxdelay := if currentdelay > f.maxdelay then currentdelay else f.maxdelay
      mindelay := if currentdelay < f.mindelay then currentdelay else f.mindelay
      secfirstline := if rxTime < f.secfirstline then rxTime else f.secfirstline
      seclastline := if rxTime > f.seclastline then rxTime else f.seclastline
      avjitter := f.avjitter + CDouble.fabs (f.lastdelay - currentdelay)
      lastpktnum := infos.seqNum
      lastdelay := currentdelay
      maxSeq := if infos.seqNum > f.maxSeq then infos.seqNum else f.maxSeq }

/-- The entry is that of the flow of the record. -/
def sameFlow (f : StFlowInfo F) (infos : Info F) : Bool :=
  f.flowId = infos.flowId ∧ strcmpEq f.srcaddress infos.srcAddr ∧
    strcmpEq f.destaddress infos.destAddr ∧ f.srcport = infos.srcPort ∧ f.destport = infos.destPort

/-- The scan of the table from its entry `z` on, which keeps the index of the
    last entry of the flow of the record. -/
def scan (infos : Info F) : ℕ → Option ℕ → List (StFlowInfo F) → Option ℕ
  | _, index, [] => index
  | z, index, f :: fs => scan infos (z + 1) (if sameFlow f infos then some z else index) fs

/-- The table after a record with the given times. With `flagfilter` 2 (the
    option `-f t`) all records are of the first flow. -/
def setline (flagfilter : ℕ) (flowinfo : List (StFlowInfo F)) (infos : Info F)
    (txTime rxTime : F) : List (StFlowInfo F) :=
  if flowinfo = [] then [firstline infos txTime rxTime]
  else
    -- `found` and `index` of the source.
    match if flagfilter = 2 then some 0 else scan infos 0 none flowinfo with
    | some index => flowinfo.modify index (nextline infos txTime rxTime)
    | none => flowinfo ++ [firstline infos txTime rxTime]

/-- A record with the flow that all records are given with `flagfilter` 2. -/
def aggregateFlow (infos : Info F) : Info F :=
  { infos with
    srcAddr := strcpy infos.srcAddr (chars "127.0.0.1")
    destAddr := strcpy infos.destAddr (chars "127.0.0.1")
    srcPort := 9999
    destPort := 8999
    flowId := 1 }

/-- The table after a record that has passed the checks: one round of the loop of
    the decoder. -/
def decodeRecord (flagfilter : ℕ) (flowinfo : List (StFlowInfo F)) (infos : Info F) :
    List (StFlowInfo F) :=
  let infos := if flagfilter = 2 then aggregateFlow infos else infos
  setline flagfilter flowinfo infos (secTime infos.txTime1 infos.txTime2 infos.txTime3)
    (secTime infos.rxTime1 infos.rxTime2 infos.rxTime3)

/-- The table after the records of a log that have passed the checks. -/
def decode (flagfilter : ℕ) (log : List (Info F)) : List (StFlowInfo F) :=
  log.foldl (decodeRecord flagfilter) []

/-! ## The table as a keyed table -/

/-- What tells flows apart: the flow id, and the addresses and ports it is between. -/
structure FlowKey where
  flowId : UInt32
  srcaddress : List UInt8
  destaddress : List UInt8
  srcport : UInt32
  destport : UInt32
  deriving DecidableEq

/-- The flow of an entry. -/
def StFlowInfo.key (f : StFlowInfo F) : FlowKey :=
  ⟨f.flowId, cstr f.srcaddress.toList, cstr f.destaddress.toList, f.srcport, f.destport⟩

/-- The flow of a record. -/
def Info.key (infos : Info F) : FlowKey :=
  ⟨infos.flowId, cstr infos.srcAddr.toList, cstr infos.destAddr.toList, infos.srcPort,
    infos.destPort⟩

/-- The times of a record do not matter here: they are functions of the record. -/
abbrev first (infos : Info F) : StFlowInfo F :=
  firstline infos (secTime infos.txTime1 infos.txTime2 infos.txTime3)
    (secTime infos.rxTime1 infos.rxTime2 infos.rxTime3)

@[inherit_doc first]
abbrev next (f : StFlowInfo F) (infos : Info F) : StFlowInfo F :=
  nextline infos (secTime infos.txTime1 infos.txTime2 infos.txTime3)
    (secTime infos.rxTime1 infos.rxTime2 infos.rxTime3) f

theorem key_firstline (infos : Info F) (txTime rxTime : F) :
    (firstline infos txTime rxTime).key = infos.key := by
  simp only [firstline, StFlowInfo.key, Info.key, cstr_strncpy_toList]

section SetLoss

omit [CDouble F]

variable (seqNum : UInt32) (f : StFlowInfo F)

/-- The loss counters are all that `setLoss` changes. -/
theorem setLoss_eq : ∃ (pktloss : UInt64) (pktdup lossEvents : UInt32), setLoss seqNum f =
    { f with pktloss := pktloss, pktdup := pktdup, lossEvents := lossEvents } := by
  rw [setLoss]
  split_ifs
  · exact ⟨_, _, _, rfl⟩
  · exact ⟨_, _, _, rfl⟩
  · exact ⟨_, _, _, rfl⟩
  · exact ⟨_, _, _, rfl⟩

/-- The loss counters are not part of what tells flows apart, ... -/
theorem key_setLoss : (setLoss seqNum f).key = f.key := by
  rw [setLoss]
  split_ifs <;> rfl

@[simp] theorem pktrecv_setLoss : (setLoss seqNum f).pktrecv = f.pktrecv := by
  rw [setLoss]
  split_ifs <;> rfl

@[simp] theorem byterecv_setLoss : (setLoss seqNum f).byterecv = f.byterecv := by
  rw [setLoss]
  split_ifs <;> rfl

end SetLoss

/-- ... nor is anything else that a further record changes. -/
theorem key_nextline (infos : Info F) (txTime rxTime : F) (f : StFlowInfo F) :
    (nextline infos txTime rxTime f).key = f.key := by
  rw [nextline, key_setLoss]
  rfl

/-- The flow table: entries started by `firstline` and updated by `nextline`. -/
def flows (F : Type) [CDouble F] : Keyed FlowKey (StFlowInfo F) (Info F) where
  key := StFlowInfo.key
  keyOf := Info.key
  new := first
  upd := next
  key_new infos := key_firstline infos _ _
  key_upd f infos := key_nextline infos _ _ f

omit [CDouble F] in
theorem sameFlow_iff (f : StFlowInfo F) (infos : Info F) :
    sameFlow f infos ↔ f.key = infos.key := by
  simp [sameFlow, strcmpEq, StFlowInfo.key, Info.key]

omit [CDouble F] in
/-- The scan finds nothing if no entry is of the flow, and otherwise an entry
    that is, unless it had found one before. -/
theorem scan_spec (infos : Info F) (fs : List (StFlowInfo F)) (z : ℕ) (index : Option ℕ) :
    (scan infos z index fs = index ∧ infos.key ∉ fs.map StFlowInfo.key) ∨
      ∃ (i : ℕ) (hi : i < fs.length),
        scan infos z index fs = some (z + i) ∧ fs[i].key = infos.key := by
  induction fs generalizing z index with
  | nil => exact .inl ⟨rfl, List.not_mem_nil⟩
  | cons f fs ih =>
    rw [scan]
    rcases ih (z + 1) (if sameFlow f infos then some z else index) with ⟨hs, hne⟩ | ⟨i, hi, hs, hk⟩
    · -- No later entry matches: what counts is the first one.
      rw [hs]
      by_cases hf : sameFlow f infos
      · rw [if_pos hf]
        exact .inr ⟨0, Nat.succ_pos _, rfl, (sameFlow_iff f infos).1 hf⟩
      · rw [if_neg hf]
        refine .inl ⟨rfl, ?_⟩
        rw [List.map_cons, List.mem_cons, not_or]
        exact ⟨fun h => hf ((sameFlow_iff f infos).2 h.symm), hne⟩
    · exact .inr ⟨i + 1, Nat.succ_lt_succ hi, by rw [hs]; congr 1; omega, hk⟩

/-- On a table with one entry for each flow, `setline` is the insertion. -/
theorem decodeRecord_eq_insert {flagfilter : ℕ} (hf : flagfilter ≠ 2)
    {tbl : List (StFlowInfo F)} (h : (tbl.map (flows F).key).Nodup) (infos : Info F) :
    decodeRecord flagfilter tbl infos = (flows F).insert tbl infos := by
  rw [decodeRecord, setline, if_neg hf, Keyed.insert]
  by_cases hnil : tbl = []
  · subst hnil
    rfl
  · rw [if_neg hnil, if_neg hf]
    rcases scan_spec infos tbl 0 none with ⟨hs, hne⟩ | ⟨i, hi, hs, hk⟩
    · rw [hs]
      exact (if_neg hne).symm
    · -- The index of the scan is that of the only entry of the flow.
      have hmem : infos.key ∈ tbl.map StFlowInfo.key :=
        hk ▸ List.mem_map_of_mem (List.getElem_mem hi)
      rw [hs, Nat.zero_add]
      exact ((flows F).modify_eq_update h hi hk).trans (if_pos hmem).symm

/-- The table of a log is the keyed table of its records. -/
theorem decode_eq_table {flagfilter : ℕ} (hf : flagfilter ≠ 2) (log : List (Info F)) :
    decode flagfilter log = (flows F).table log := by
  induction log using List.reverseRecOn with
  | nil => rfl
  | append_singleton log infos ih =>
    rw [decode, List.foldl_concat, ← decode, ih, Keyed.table_concat]
    exact decodeRecord_eq_insert hf ((flows F).nodup_keys log) infos

/-- The records of a log as they are entered in the table. -/
def entered (flagfilter : ℕ) (log : List (Info F)) : List (Info F) :=
  log.map fun infos => if flagfilter = 2 then aggregateFlow infos else infos

omit [CDouble F] in
/-- With the filter 2, all records are of one flow. -/
theorem key_aggregateFlow (infos infos' : Info F) :
    (aggregateFlow infos).key = (aggregateFlow infos').key := by
  have hcopy (a : CharArray inet6Addrstrlen) : cstr (strcpy a (chars "127.0.0.1")).toList =
      cstr (chars "127.0.0.1") := cstr_strcpy a (by decide)
  simp only [Info.key, aggregateFlow, hcopy]

/-- Whatever the filter, the table of a log is the keyed table of its records as they are
    entered. -/
theorem decode_eq_table_entered (flagfilter : ℕ) (log : List (Info F)) :
    decode flagfilter log = (flows F).table (entered flagfilter log) := by
  by_cases hf : flagfilter = 2
  · induction log using List.reverseRecOn with
    | nil => rfl
    | append_singleton log infos ih =>
      have hconcat : entered flagfilter (log ++ [infos]) =
          entered flagfilter log ++ [aggregateFlow infos] := by
        rw [entered, List.map_append, List.map_singleton, if_pos hf, ← entered]
      have hkeys : ∀ f ∈ (flows F).table (entered flagfilter log),
          f.key = (aggregateFlow infos).key := by
        intro f hfm
        obtain ⟨r, hr, hrk⟩ := List.mem_map.1
          (((flows F).mem_keys_table (entered flagfilter log) f.key).1 (List.mem_map_of_mem hfm))
        obtain ⟨x, -, rfl⟩ := List.mem_map.1 hr
        rw [if_pos hf] at hrk
        exact hrk.symm.trans (key_aggregateFlow x infos)
      rw [decode, List.foldl_concat, ← decode, ih, hconcat, Keyed.table_concat, decodeRecord,
        if_pos hf, setline]
      by_cases hnil : (flows F).table (entered flagfilter log) = []
      · rw [if_pos hnil, hnil]
        rfl
      · -- The first entry is the only one.
        have hpos := List.length_pos_iff.2 hnil
        have hfirst := hkeys _ (List.getElem_mem hpos)
        have hmem : (aggregateFlow infos).key ∈
            ((flows F).table (entered flagfilter log)).map StFlowInfo.key :=
          hfirst ▸ List.mem_map_of_mem (List.getElem_mem hpos)
        rw [if_neg hnil, if_pos hf, Keyed.insert]
        exact ((flows F).modify_eq_update ((flows F).nodup_keys _) hpos hfirst).trans
          (if_pos hmem).symm
  · have hid : entered flagfilter log = log := by
      simp only [entered, if_neg hf, List.map_id']
    rw [hid, decode_eq_table hf]

theorem pktrecv_next (f : StFlowInfo F) (infos : Info F) :
    (next f infos).pktrecv = f.pktrecv + 1 := pktrecv_setLoss _ _

theorem byterecv_next (f : StFlowInfo F) (infos : Info F) :
    (next f infos).byterecv = f.byterecv + ofUInt32 infos.size := byterecv_setLoss _ _

end Setline

/-! ## The flows of a log -/

/-- Every flow of a log has one entry, computed by the records of that flow alone,
    and the entries add up to the log: for any arithmetic of doubles but for the
    sum of the bytes, which is in exact arithmetic. -/
theorem decode_flows {flagfilter : ℕ} (hf : flagfilter ≠ 2) :
    (∀ (F : Type) [CDouble F] (log : List (Info F)),
      (((decode flagfilter log).map StFlowInfo.key).Nodup ∧
        ∀ k, k ∈ (decode flagfilter log).map StFlowInfo.key ↔ k ∈ log.map Info.key) ∧
      (∀ f ∈ decode flagfilter log, decode flagfilter (log.filter (·.key = f.key)) = [f]) ∧
      ((decode flagfilter log).map StFlowInfo.pktrecv).sum = log.length) ∧
    ∀ log : List (Info ℚ), ((decode flagfilter log).map StFlowInfo.byterecv).sum =
      (log.map fun infos => (infos.size.toNat : ℚ)).sum := by
  refine ⟨fun F _ log => ?_, fun log => ?_⟩
  · rw [decode_eq_table hf]
    refine ⟨⟨(flows F).nodup_keys log, (flows F).mem_keys_table log⟩, fun f h => ?_, ?_⟩
    · rw [decode_eq_table hf]
      exact (flows F).table_of_mem h
    · -- Every record counts for one packet.
      have hsum := (flows F).sum_table (m := StFlowInfo.pktrecv) (w := fun _ => 1) (fun _ => rfl)
        pktrecv_next log
      rw [hsum]
      simp
  · have hw : ∀ infos : Info ℚ, (infos.size.toNat : ℚ) = ofUInt32 infos.size := fun infos => rfl
    rw [decode_eq_table hf]
    exact (flows ℚ).sum_table (fun _ => (hw _).symm)
      (fun f infos => hw infos ▸ byterecv_next f infos) log

/-- Two flows, interleaved. -/
theorem decode_flows_interleaved :
    (0 ≠ 2) ∧ ((decode 0 [lastOfDay, { lastOfDay with flowId := 7 }, lastOfDay]).map
      StFlowInfo.pktrecv).sum = 3 :=
  ⟨by decide, ((@decode_flows 0 (by decide)).1 ℚ
    [lastOfDay, { lastOfDay with flowId := 7 }, lastOfDay]).2.2⟩

end Ditg
