import Ditg.Signaling.Session

/-!
# The port of the receiver in passive mode

In passive mode the sender tells the receiver which port to bind the socket of a flow to:
the one of its option `-rp`, which the sender keeps in network order. It converts it once
more to send it, the receiver converts what it reads once, and once more when it binds its
socket. A little-endian host has then swapped the bytes of the port.

* `passivePort_iff`: the ports for which the receiver binds its socket to the port of the
  sender.
-/

namespace Ditg

open Bytes

/-- The option `-rp`. -/
def FlowDescriptor.rp (e : Endian) (flow : FlowDescriptor) (port : UInt16) : FlowDescriptor :=
  { flow with DestHost := { flow.DestHost with port := htons e port } }

/-- The address of any host, of the family of `host`. -/
def anyHost (host : SockAddr) : InetAddr :=
  match host.addr with
  | .inet _ => .inet ⟨List.replicate 4 0, rfl⟩
  | .inet6 _ => .inet6 ⟨List.replicate 16 0, rfl⟩

/-- Where a thread binds its socket in passive mode. -/
def passiveBind (e : Endian) (paraThread : FlowParams) : SockAddr :=
  ⟨anyHost paraThread.destHost, htons e paraThread.portForPssv, 0⟩

/-- The address of a UDP socket, and of a TCP socket. -/
def udpSockBind : Endian → FlowParams → SockAddr := passiveBind
@[inherit_doc udpSockBind] def tcpSockBind : Endian → FlowParams → SockAddr := passiveBind

section Passive

variable {e : Endian} {o : RecvOptions} {s : Session}

/-- The slot of a flow has its port as the sender keeps it. -/
theorem portForPssv_fill (hpassive : o.passiveMode) (slot : FlowSlot) (flow : FlowDescriptor)
    (port : UInt16) (flowId : UInt32) :
    (slot.fill o s ((flow.rp e port).request o.passiveMode flowId)).paraThread.portForPssv =
      htons e port := by
  simp [FlowSlot.fill, hpassive, FlowDescriptor.request, FlowDescriptor.rp]

/-- So that a socket is bound to the port in the order of the host. -/
theorem passiveBind_port (hpassive : o.passiveMode) (slot : FlowSlot) (flow : FlowDescriptor)
    (port : UInt16) (flowId : UInt32) :
    (passiveBind e
      (slot.fill o s ((flow.rp e port).request o.passiveMode flowId)).paraThread).port = port := by
  rw [passiveBind, portForPssv_fill hpassive, htons_htons]

/-- In passive mode, of a request for a flow with the option `-rp port`, sent and read by
    little-endian hosts, with a free slot for it: it fills a slot, whose thread binds its
    socket, UDP or TCP, to this port if and only if its two bytes are equal. -/
theorem passivePort_iff (hpassive : o.passiveMode) {k : ℕ} (hk : s.findFlow noFlow = some k)
    (unmet : List SysNeed) (flow : FlowDescriptor) (port : UInt16) (flowId : UInt32)
    (rest : List UInt8) :
    ∃ slot s', recvMsg .little o s unmet
        ((SenderMsg.sendFlow (flow.rp .little port) flowId).bytes .little o.passiveMode ++ rest) =
          .ok (.sendFlow k slot, s', rest) ∧
      s'.slots[k]? = some slot ∧ slot.flowId = flowId ∧
      ((udpSockBind .little slot.paraThread).port = htons .little port ∧
        (tcpSockBind .little slot.paraThread).port = htons .little port ↔
          port.toNat % 256 = port.toNat / 256) := by
  refine ⟨_, _, recvMsg_sendFlow hk (flow.rp .little port) flowId rest, ?_, rfl, ?_⟩
  · have hlt : k < s.slots.length := by
      obtain ⟨hlt, -⟩ := List.findIdx?_eq_some_iff_getElem.1 hk
      exact hlt
    rw [Session.sendFlow, if_pos hpassive]
    exact List.getElem?_set_self hlt
  · rw [udpSockBind, tcpSockBind, passiveBind_port hpassive, and_self, eq_comm,
      htons_little_eq_self_iff]

end Passive

/-- A receiver in passive mode. -/
def passiveOptions : RecvOptions := { someOptions false with passiveMode := true }

theorem findFlow_start : (Session.start 0 0 []).findFlow noFlow = some 0 := by decide +kernel

/-- The port 257 has two equal bytes. -/
theorem passivePort_iff_257 : ∃ slot s', recvMsg .little passiveOptions (.start 0 0 []) []
      ((SenderMsg.sendFlow (someFlow.rp .little 257) 1).bytes .little true ++ []) =
        .ok (.sendFlow 0 slot, s', []) ∧ s'.slots[0]? = some slot ∧ slot.flowId = 1 ∧
    ((udpSockBind .little slot.paraThread).port = htons .little 257 ∧
      (tcpSockBind .little slot.paraThread).port = htons .little 257 ↔
        (257 : UInt16).toNat % 256 = (257 : UInt16).toNat / 256) :=
  passivePort_iff rfl findFlow_start [] someFlow 257 1 []

/-- With the option `-rp 8999`, the socket is bound to another port. -/
theorem not_passivePort : ¬∀ port : UInt16, 1 ≤ port → ∀ slot s' rest,
    recvMsg .little passiveOptions (.start 0 0 []) []
      ((SenderMsg.sendFlow (someFlow.rp .little port) 1).bytes .little true) =
        .ok (.sendFlow 0 slot, s', rest) →
      (udpSockBind .little slot.paraThread).port = htons .little port ∧
        (tcpSockBind .little slot.paraThread).port = htons .little port := by
  intro h
  have hread := @recvMsg_sendFlow .little .little passiveOptions (.start 0 0 []) [] 0
    findFlow_start (someFlow.rp .little 8999) 1 []
  rw [List.append_nil] at hread
  have hbind := (h 8999 (by decide) _ _ _ hread).1
  rw [udpSockBind, passiveBind_port rfl] at hbind
  exact absurd hbind (by decide)

end Ditg
