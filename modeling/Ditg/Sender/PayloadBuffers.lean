import Ditg.Library.Transition
import Mathlib.Logic.Function.Basic

/-!
# The payload buffers of several flows

In script and daemon mode, a flow with `-Fp` is to share the buffer of another flow that has read
the same file. Its parser looks for one under a mutex, but takes over the buffers of the flows
whose files have *other* names, as it takes the result of `strcmp` for equality; only if it finds
none it reads its own file. A sender forgets its buffer when it ends. The manager of the daemon
frees, after every request and under the same mutex, the buffers that only one flow points to,
whether this flow has ended or not, and leaves the pointer as it is.

The threads run in any order: every access to a variable of another thread is a step.

* `frees_soundly`: as long as the clean-up only meets flows alone with their buffers that have
  failed, and each of them once, it frees what is allocated and not in use;
* `described`: as long as, further, buffers are only taken over from flows whose files have the
  same bytes, a flow that has been parsed has the bytes of its file.
-/

namespace Ditg

/-! ## The model -/

/-- Where a flow is. -/
inductive BufferPc
  | absent
  /-- Its parser has not come to `-Fp`. -/
  | parsing
  /-- The loop that looks for a buffer, at the flow `j`, under the mutex. -/
  | search (j : ℕ)
  /-- It takes over the pointer of the flow `j`, and then the length. -/
  | takePtr (j : ℕ)
  | takeDim (j : ℕ)
  /-- It reads the file: the length first, then the memory, then the bytes. -/
  | opened
  | sized
  | allocated
  | parsed
  | sending
  /-- Its sender has ended, and set the length to 0. -/
  | ending
  | ended
  /-- It has got an error, from the receiver or in its sender. -/
  | failed
  deriving DecidableEq, Repr

/-- A flow of the script or of the manager, with its `-Fp` if it has one. `cleaned` says whether
    the clean-up has freed a buffer for it. -/
structure BufferFlow where
  pc : BufferPc
  fileName : Option (List UInt8)
  payloadFile : List UInt8
  ptrPayloadBuffer : Option ℕ
  dimPayloadBuffer : ℕ
  cleaned : Bool
  deriving DecidableEq

/-- What its parser starts with. -/
def BufferFlow.new (fileName : Option (List UInt8)) : BufferFlow where
  pc := .parsing
  fileName := fileName
  payloadFile := []
  ptrPayloadBuffer := none
  dimPayloadBuffer := 0
  cleaned := false

/-- The memory at an address that `malloc` may return. -/
inductive BufferBlock
  | free
  /-- It has been allocated, and not been written. -/
  | uninitialised
  | bytes (bytes : List UInt8)
  deriving DecidableEq

/-- Where the thread of the script or of the manager is. -/
inductive ManagerPc
  | waiting
  /-- The parser of a new flow has been started, `flowCount` is to be increased. -/
  | created
  /-- The clean-up is to be made, which waits for the mutex. -/
  | counted
  /-- The outer loop of the clean-up, at the flow `j`, and the inner one, at the flow `k`. -/
  | outer (j : ℕ)
  | inner (j k : ℕ) (toFree : Bool)
  deriving DecidableEq

/-- Who holds `mutexBufferPayload`. -/
inductive Holder
  | manager
  | parser (id : ℕ)
  deriving DecidableEq

/-- The process. -/
structure Buffers where
  flows : ℕ → BufferFlow
  flowCount : ℕ
  manager : ManagerPc
  mutex : Option Holder
  heap : ℕ → BufferBlock

/-- A step of one of the threads. -/
inductive BufferAction
  /-- A line of the script or a request has been read, with its `-Fp` if it has one. -/
  | create (fileName : Option (List UInt8))
  /-- The thread of the script or of the manager goes on. -/
  | manager
  /-- The parser of a flow goes on. -/
  | parser (id : ℕ)
  /-- `malloc` returns the address `p` to it. -/
  | malloc (id p : ℕ)
  /-- The sender of a flow starts, and goes on at its end. -/
  | sender (id : ℕ)
  | fail (id : ℕ)
  deriving DecidableEq

section Process

variable (managerMode : Bool) (files : List UInt8 → List UInt8)

/-- A flow is changed. -/
def Buffers.setFlow (s : Buffers) (id : ℕ) (f : BufferFlow) : Buffers :=
  { s with flows := Function.update s.flows id f }

/-- Memory is changed. -/
def Buffers.setBlock (s : Buffers) (p : ℕ) (block : BufferBlock) : Buffers :=
  { s with heap := Function.update s.heap p block }

/-- The thread of the script or of the manager. The script has no clean-up. -/
def Buffers.managerStep (s : Buffers) : Option Buffers :=
  match s.manager with
  | .waiting => none
  | .created =>
    some { s with
      flowCount := s.flowCount + 1
      manager := if managerMode then .counted else .waiting }
  | .counted =>
    if s.mutex = none then some { s with manager := .outer 1, mutex := some .manager } else none
  | .outer j =>
    if j ≤ s.flowCount then
      if (s.flows j).ptrPayloadBuffer ≠ none then some { s with manager := .inner j 1 true }
      else some { s with manager := .outer (j + 1) }
    else some { s with manager := .waiting, mutex := none }
  | .inner j k toFree =>
    if k ≤ s.flowCount then
      if (s.flows j).ptrPayloadBuffer = (s.flows k).ptrPayloadBuffer ∧ j ≠ k then
        some { s with manager := .inner j (k + 1) false }
      else some { s with manager := .inner j (k + 1) toFree }
    else
      let s := { s with manager := .outer (j + 1) }
      match toFree, (s.flows j).ptrPayloadBuffer with
      | true, some p => some ((s.setFlow j { s.flows j with cleaned := true }).setBlock p .free)
      | _, _ => some s

/-- The `-Fp` block of `flowParser`. -/
def Buffers.parserStep (s : Buffers) (id : ℕ) : Option Buffers :=
  let f := s.flows id
  match f.pc, f.fileName with
  | .parsing, none => some (s.setFlow id { f with pc := .parsed })
  | .parsing, some name =>
    if s.mutex = none then
      some { s.setFlow id { f with pc := .search 0, payloadFile := name } with
        mutex := some (.parser id) }
    else none
  | .search j, _ =>
    if j < s.flowCount then
      -- The result of `strcmp` is not 0 for names that differ.
      if (s.flows j).dimPayloadBuffer ≠ 0 ∧ f.payloadFile ≠ (s.flows j).payloadFile then
        some (s.setFlow id { f with pc := .takePtr j })
      else some (s.setFlow id { f with pc := .search (j + 1) })
    else
      some { s.setFlow id { f with pc := if f.dimPayloadBuffer = 0 then .opened else .parsed } with
        mutex := none }
  | .takePtr j, _ =>
    some (s.setFlow id
      { f with pc := .takeDim j, ptrPayloadBuffer := (s.flows j).ptrPayloadBuffer })
  | .takeDim j, _ =>
    some (s.setFlow id
      { f with pc := .search (j + 1), dimPayloadBuffer := (s.flows j).dimPayloadBuffer })
  | .opened, some name =>
    some (s.setFlow id { f with pc := .sized, dimPayloadBuffer := (files name).length })
  | .allocated, some name =>
    f.ptrPayloadBuffer.map fun p =>
      (s.setFlow id { f with pc := .parsed }).setBlock p (.bytes (files name))
  | _, _ => none

/-- `malloc` returns an address at which nothing is allocated. -/
def Buffers.mallocStep (s : Buffers) (id p : ℕ) : Option Buffers :=
  if (s.flows id).pc = .sized ∧ s.heap p = .free then
    some ((s.setFlow id { s.flows id with pc := .allocated, ptrPayloadBuffer := some p }).setBlock
      p .uninitialised)
  else none

/-- `flowSender`. -/
def Buffers.senderStep (s : Buffers) (id : ℕ) : Option Buffers :=
  let f := s.flows id
  match f.pc with
  | .parsed => some (s.setFlow id { f with pc := .sending })
  | .sending => some (s.setFlow id { f with pc := .ending, dimPayloadBuffer := 0 })
  | .ending => some (s.setFlow id { f with pc := .ended, ptrPayloadBuffer := none })
  | _ => none

/-- A step, if it is possible. -/
def Buffers.step (s : Buffers) : BufferAction → Option Buffers
  | .create fileName =>
    let id := s.flowCount + 1
    if s.manager = .waiting then some { s.setFlow id (.new fileName) with manager := .created }
    else none
  | .manager => s.managerStep managerMode
  | .parser id => s.parserStep files id
  | .malloc id p => s.mallocStep id p
  | .sender id => s.senderStep id
  | .fail id =>
    let f := s.flows id
    if f.pc = .parsed ∨ f.pc = .sending then some (s.setFlow id { f with pc := .failed }) else none

/-- There are no flows. -/
def Buffers.start : Buffers where
  flows _ := { BufferFlow.new none with pc := .absent }
  flowCount := 0
  manager := .waiting
  mutex := none
  heap _ := .free

/-- The process from its start. -/
def buffers : Transition Buffers BufferAction where
  init s := s = .start
  step := Buffers.step managerMode files

/-! ## Steps -/

/-- The flow and the address for which an action calls `free`. -/
def Buffers.freed (s : Buffers) : BufferAction → Option (ℕ × ℕ)
  | .manager =>
    match s.manager with
    | .inner j k true =>
      if s.flowCount < k then (s.flows j).ptrPayloadBuffer.map fun p => (j, p) else none
    | _ => none
  | _ => none

/-- The number of flows that have been created. -/
def Buffers.count (s : Buffers) : ℕ := s.flowCount + if s.manager = .created then 1 else 0

/-- What a step makes of the flow `id`, and of the memory. -/
inductive FlowChange (s : Buffers) (id : ℕ) : BufferAction → BufferFlow → (ℕ → BufferBlock) → Prop
  | create (fileName : Option (List UInt8)) (h : s.count < id) :
    FlowChange s id (.create fileName) (.new fileName) s.heap
  | noFile (h : (s.flows id).pc = .parsing) (hname : (s.flows id).fileName = none) :
    FlowChange s id (.parser id) { s.flows id with pc := .parsed } s.heap
  | startSearch (name : List UInt8) (h : (s.flows id).pc = .parsing) :
    FlowChange s id (.parser id) { s.flows id with pc := .search 0, payloadFile := name } s.heap
  | look (j : ℕ) (pc : BufferPc) (h : (s.flows id).pc = .search j)
    (hpc : pc = .takePtr j ∨ pc = .search (j + 1)) :
    FlowChange s id (.parser id) { s.flows id with pc } s.heap
  | endSearch (j : ℕ) (h : (s.flows id).pc = .search j) :
    FlowChange s id (.parser id)
      { s.flows id with
        pc := if (s.flows id).dimPayloadBuffer = 0 then .opened else .parsed } s.heap
  | takePtr (j : ℕ) (h : (s.flows id).pc = .takePtr j) :
    FlowChange s id (.parser id)
      { s.flows id with
        pc := .takeDim j
        ptrPayloadBuffer := (s.flows j).ptrPayloadBuffer } s.heap
  | takeDim (j : ℕ) (h : (s.flows id).pc = .takeDim j) :
    FlowChange s id (.parser id)
      { s.flows id with
        pc := .search (j + 1)
        dimPayloadBuffer := (s.flows j).dimPayloadBuffer } s.heap
  | size (name : List UInt8) (h : (s.flows id).pc = .opened)
    (hname : (s.flows id).fileName = some name) :
    FlowChange s id (.parser id)
      { s.flows id with pc := .sized, dimPayloadBuffer := (files name).length } s.heap
  | malloc (p : ℕ) (h : (s.flows id).pc = .sized) (hp : s.heap p = .free) :
    FlowChange s id (.malloc id p)
      { s.flows id with pc := .allocated, ptrPayloadBuffer := some p }
      (Function.update s.heap p .uninitialised)
  | read (p : ℕ) (name : List UInt8) (h : (s.flows id).pc = .allocated)
    (hname : (s.flows id).fileName = some name) (hp : (s.flows id).ptrPayloadBuffer = some p) :
    FlowChange s id (.parser id) { s.flows id with pc := .parsed }
      (Function.update s.heap p (.bytes (files name)))
  | send (h : (s.flows id).pc = .parsed) :
    FlowChange s id (.sender id) { s.flows id with pc := .sending } s.heap
  | endDim (h : (s.flows id).pc = .sending) :
    FlowChange s id (.sender id) { s.flows id with pc := .ending, dimPayloadBuffer := 0 } s.heap
  | endPtr (h : (s.flows id).pc = .ending) :
    FlowChange s id (.sender id) { s.flows id with pc := .ended, ptrPayloadBuffer := none } s.heap
  | fail (h : (s.flows id).pc = .parsed ∨ (s.flows id).pc = .sending) :
    FlowChange s id (.fail id) { s.flows id with pc := .failed } s.heap
  | free (p : ℕ) (hfreed : s.freed .manager = some (id, p)) :
    FlowChange s id .manager { s.flows id with cleaned := true } (Function.update s.heap p .free)

end Process

section Steps

variable {managerMode : Bool} {files : List UInt8 → List UInt8} {s s' : Buffers}

variable (files) in
/-- The thread of the manager changes no flow, except where it frees. -/
theorem Buffers.managerStep_cases (h : s.managerStep managerMode = some s') :
    s'.count = s.count ∧ ((s'.flows = s.flows ∧ s'.heap = s.heap) ∨
      ∃ id f', FlowChange files s id .manager f' s'.heap ∧
        s'.flows = Function.update s.flows id f') := by
  rw [Buffers.managerStep] at h
  split at h
  next => cases h
  next hpc =>
    cases h
    refine ⟨?_, Or.inl ⟨rfl, rfl⟩⟩
    simp only [Buffers.count, hpc, if_true]
    cases managerMode <;> rfl
  next hpc =>
    split_ifs at h
    cases h
    exact ⟨by simp [Buffers.count, hpc], Or.inl ⟨rfl, rfl⟩⟩
  next j hpc =>
    split_ifs at h <;> cases h <;> exact ⟨by simp [Buffers.count, hpc], Or.inl ⟨rfl, rfl⟩⟩
  next j k toFree hpc =>
    split_ifs at h with hk
    · cases h
      exact ⟨by simp [Buffers.count, hpc], Or.inl ⟨rfl, rfl⟩⟩
    · cases h
      exact ⟨by simp [Buffers.count, hpc], Or.inl ⟨rfl, rfl⟩⟩
    · dsimp only at h
      split at h
      next p hptr =>
        cases h
        refine ⟨by simp [Buffers.count, hpc, Buffers.setFlow, Buffers.setBlock], Or.inr ?_⟩
        refine ⟨j, _, .free p ?_, rfl⟩
        simp only [Buffers.freed, hpc]
        rw [if_pos (Nat.lt_of_not_le hk), hptr]
        rfl
      next =>
        cases h
        exact ⟨by simp [Buffers.count, hpc], Or.inl ⟨rfl, rfl⟩⟩

/-- The parser changes its own flow. -/
theorem Buffers.parserStep_cases {id : ℕ} (h : s.parserStep files id = some s') :
    s'.count = s.count ∧ ∃ f', FlowChange files s id (.parser id) f' s'.heap ∧
      s'.flows = Function.update s.flows id f' := by
  rw [Buffers.parserStep] at h
  split at h
  next hpc hname =>
    cases h
    exact ⟨rfl, _, .noFile hpc hname, rfl⟩
  next name hpc hname =>
    split_ifs at h
    cases h
    exact ⟨rfl, _, .startSearch name hpc, rfl⟩
  next j hpc =>
    split_ifs at h with hj hother hdim
    · cases h
      exact ⟨rfl, _, .look j _ hpc (Or.inl rfl), rfl⟩
    · cases h
      exact ⟨rfl, _, .look j _ hpc (Or.inr rfl), rfl⟩
    · cases h
      refine ⟨rfl, _, .endSearch j hpc, ?_⟩
      rw [if_pos hdim]
      rfl
    · cases h
      refine ⟨rfl, _, .endSearch j hpc, ?_⟩
      rw [if_neg hdim]
      rfl
  next j hpc =>
    cases h
    exact ⟨rfl, _, .takePtr j hpc, rfl⟩
  next j hpc =>
    cases h
    exact ⟨rfl, _, .takeDim j hpc, rfl⟩
  next name hpc hname =>
    cases h
    exact ⟨rfl, _, .size name hpc hname, rfl⟩
  next name hpc hname =>
    obtain ⟨p, hp, rfl⟩ := Option.map_eq_some_iff.1 h
    exact ⟨rfl, _, .read p name hpc hname hp, rfl⟩
  next => cases h

/-- Every step changes one flow at most, which has been created. -/
theorem Buffers.step_cases {a : BufferAction} (h : s.step managerMode files a = some s') :
    s.count ≤ s'.count ∧ ((s'.flows = s.flows ∧ s'.heap = s.heap) ∨
      ∃ id f', FlowChange files s id a f' s'.heap ∧ s'.flows = Function.update s.flows id f' ∧
        ∀ fileName, a = .create fileName → id ≤ s'.count) := by
  cases a with
  | create fileName =>
    rw [Buffers.step] at h
    dsimp only at h
    split_ifs at h with hpc
    cases h
    have hcount : s.count = s.flowCount := by simp [Buffers.count, hpc]
    refine ⟨?_, Or.inr ⟨s.flowCount + 1, _, .create fileName ?_, rfl, fun _ _ => Nat.le_refl _⟩⟩
    · rw [hcount]
      exact Nat.le_succ _
    · rw [hcount]
      exact Nat.lt_succ_self _
  | manager =>
    obtain ⟨hcount, hcases⟩ := Buffers.managerStep_cases files h
    refine ⟨Nat.le_of_eq hcount.symm, hcases.imp_right ?_⟩
    rintro ⟨id, f', hchange, hflows⟩
    exact ⟨id, f', hchange, hflows, nofun⟩
  | parser id =>
    obtain ⟨hcount, f', hchange, hflows⟩ := Buffers.parserStep_cases h
    exact ⟨Nat.le_of_eq hcount.symm, Or.inr ⟨id, f', hchange, hflows, nofun⟩⟩
  | malloc id p =>
    rw [Buffers.step, Buffers.mallocStep] at h
    split_ifs at h with hcond
    cases h
    exact ⟨Nat.le_refl _, Or.inr ⟨id, _, .malloc p hcond.1 hcond.2, rfl, nofun⟩⟩
  | sender id =>
    rw [Buffers.step, Buffers.senderStep] at h
    split at h
    next hpc =>
      cases h
      exact ⟨Nat.le_refl _, Or.inr ⟨id, _, .send hpc, rfl, nofun⟩⟩
    next hpc =>
      cases h
      exact ⟨Nat.le_refl _, Or.inr ⟨id, _, .endDim hpc, rfl, nofun⟩⟩
    next hpc =>
      cases h
      exact ⟨Nat.le_refl _, Or.inr ⟨id, _, .endPtr hpc, rfl, nofun⟩⟩
    next => cases h
  | fail id =>
    rw [Buffers.step] at h
    split_ifs at h with hpc
    cases h
    exact ⟨Nat.le_refl _, Or.inr ⟨id, _, .fail hpc, rfl, nofun⟩⟩

end Steps

/-! ## Freeing -/

/-- The flow may send packets now or later. -/
def BufferFlow.canSend (f : BufferFlow) : Bool :=
  match f.pc with
  | .absent | .ending | .ended | .failed => false
  | _ => true

/-- What is freed has been allocated, and no flow that may send has it. -/
def FreesSoundly (s : Buffers) (a : BufferAction) : Prop :=
  ∀ j p, s.freed a = some (j, p) →
    s.heap p ≠ .free ∧ ∀ i, (s.flows i).ptrPayloadBuffer = some p → (s.flows i).canSend = false

/-- The clean-up frees only for a flow that has failed and is still alone with its buffer, and
    not twice for the same flow. -/
def FreesFailed (s : Buffers) (a : BufferAction) : Prop :=
  ∀ j p, s.freed a = some (j, p) →
    (s.flows j).pc = .failed ∧ (s.flows j).cleaned = false ∧
      ∀ i, i ≠ j → (s.flows i).ptrPayloadBuffer ≠ some p

/-- Flows that have not been created have no buffer, those for which the clean-up has freed have
    failed, and every other buffer is allocated, unless one of those has it. -/
structure Buffers.Owned (s : Buffers) : Prop where
  fresh : ∀ i, s.count < i →
    (s.flows i).pc = .absent ∧ (s.flows i).ptrPayloadBuffer = none
  cleaned_failed : ∀ i, (s.flows i).cleaned = true → (s.flows i).pc = .failed
  allocated : ∀ i p, (s.flows i).ptrPayloadBuffer = some p → s.heap p = .free →
    ∃ k, (s.flows k).cleaned = true ∧ (s.flows k).ptrPayloadBuffer = some p

section Owned

variable {managerMode : Bool} {files : List UInt8 → List UInt8} {s s' : Buffers} {id : ℕ}
  {f' : BufferFlow} {a : BufferAction}

/-- A flow for which nothing has been freed. -/
theorem Buffers.Owned.not_cleaned (hs : s.Owned) (h : (s.flows id).pc ≠ .failed) :
    (s.flows id).cleaned = false := by
  rw [← Bool.not_eq_true]
  exact fun hcleaned => h (hs.cleaned_failed id hcleaned)

/-- A flow that is somewhere has been created. -/
theorem Buffers.Owned.le_count (hs : s.Owned) (h : (s.flows id).pc ≠ .absent) : id ≤ s.count :=
  Nat.le_of_not_lt fun hlt => h (hs.fresh id hlt).1

theorem ptr_of_freed {j p : ℕ} (h : s.freed a = some (j, p)) :
    (s.flows j).ptrPayloadBuffer = some p := by
  rw [Buffers.freed.eq_def] at h
  split at h
  next =>
    split at h
    next =>
      rw [Option.ite_none_right_eq_some] at h
      obtain ⟨q, hq, heq⟩ := Option.map_eq_some_iff.1 h.2
      cases heq
      exact hq
    next => cases h
  next => cases h

/-- Such a step frees what is allocated. -/
theorem freesSoundly_of_freesFailed (hs : s.Owned) (h : FreesFailed s a) : FreesSoundly s a := by
  intro j p hfreed
  obtain ⟨hfailed, hcleaned, halone⟩ := h j p hfreed
  refine ⟨fun hfree => ?_, fun i hi => ?_⟩
  · obtain ⟨k, hk, hkptr⟩ := hs.allocated j p (ptr_of_freed hfreed) hfree
    by_cases hkj : k = j
    · rw [hkj, hcleaned] at hk
      cases hk
    · exact halone k hkj hkptr
  · by_cases hij : i = j
    · rw [hij, BufferFlow.canSend, hfailed]
    · exact absurd hi (halone i hij)

/-- A change of a flow that has not failed. Its buffer is one that a flow had before, or
    allocated. -/
theorem Buffers.Owned.update (hs : s.Owned) (hpc : (s.flows id).pc ≠ .failed)
    (hflows : s'.flows = Function.update s.flows id f') (hcount : s.count ≤ s'.count)
    (hid : id ≤ s'.count) (hheap : ∀ p, s'.heap p = .free → s.heap p = .free)
    (hcleaned : f'.cleaned = false)
    (hptr : ∀ p, f'.ptrPayloadBuffer = some p → s'.heap p = .free →
      ∃ j, (s.flows j).ptrPayloadBuffer = some p) : s'.Owned := by
  have hself : s'.flows id = f' := by rw [hflows, Function.update_self]
  have hother : ∀ i, i ≠ id → s'.flows i = s.flows i := fun i hi => by
    rw [hflows, Function.update_of_ne hi]
  -- A flow for which the clean-up has freed is another one.
  have hkeep : ∀ p, (∃ k, (s.flows k).cleaned = true ∧ (s.flows k).ptrPayloadBuffer = some p) →
      ∃ k, (s'.flows k).cleaned = true ∧ (s'.flows k).ptrPayloadBuffer = some p := by
    rintro p ⟨k, hk, hkptr⟩
    have hne : k ≠ id := fun h => hpc (h ▸ hs.cleaned_failed k hk)
    exact ⟨k, by rw [hother k hne, hk], by rw [hother k hne, hkptr]⟩
  refine ⟨fun i hi => ?_, fun i hi => ?_, fun i p hp hfree => hkeep p ?_⟩
  · have hne : i ≠ id := by omega
    rw [hother i hne]
    exact hs.fresh i (by omega)
  · by_cases h : i = id
    · rw [h, hself, hcleaned] at hi
      cases hi
    · rw [hother i h] at hi ⊢
      exact hs.cleaned_failed i hi
  · by_cases h : i = id
    · rw [h, hself] at hp
      obtain ⟨j, hj⟩ := hptr p hp hfree
      exact hs.allocated j p hj (hheap p hfree)
    · rw [hother i h] at hp
      exact hs.allocated i p hp (hheap p hfree)

/-- The same, for a step that leaves the buffer of the flow and the memory. -/
theorem Buffers.Owned.move (hs : s.Owned) {pc : BufferPc} (hpc : (s.flows id).pc = pc)
    (hfailed : pc ≠ .failed) (habsent : pc ≠ .absent)
    (hflows : s'.flows = Function.update s.flows id f') (hcount : s.count ≤ s'.count)
    (hheap : s.heap = s'.heap) (hcleaned : f'.cleaned = (s.flows id).cleaned)
    (hptr : ∀ p, f'.ptrPayloadBuffer = some p → ∃ j, (s.flows j).ptrPayloadBuffer = some p) :
    s'.Owned := by
  rw [← hpc] at hfailed habsent
  refine hs.update hfailed hflows hcount (Nat.le_trans (hs.le_count habsent) hcount) ?_ ?_
    fun p hp _ => hptr p hp
  · exact fun p hp => hheap ▸ hp
  · rw [hcleaned, hs.not_cleaned hfailed]

/-- The clean-up has freed the buffer of a flow that has failed. -/
theorem Buffers.Owned.free {p : ℕ} (hs : s.Owned) (hfailed : (s.flows id).pc = .failed)
    (hptr : (s.flows id).ptrPayloadBuffer = some p)
    (hflows : s'.flows = Function.update s.flows id { s.flows id with cleaned := true })
    (hheap : s'.heap = Function.update s.heap p .free) (hcount : s.count ≤ s'.count) :
    s'.Owned := by
  have hid : id ≤ s.count := hs.le_count (by rw [hfailed]; nofun)
  have hself : s'.flows id = { s.flows id with cleaned := true } := by
    rw [hflows, Function.update_self]
  have hother : ∀ i, i ≠ id → s'.flows i = s.flows i := fun i hi => by
    rw [hflows, Function.update_of_ne hi]
  refine ⟨fun i hi => ?_, fun i hi => ?_, fun i q hq hfree => ?_⟩
  · rw [hother i (by omega)]
    exact hs.fresh i (by omega)
  · by_cases h : i = id
    · rw [h, hself]
      exact hfailed
    · rw [hother i h] at hi ⊢
      exact hs.cleaned_failed i hi
  · by_cases hqp : q = p
    · exact ⟨id, by rw [hself], by rw [hself, hqp, hptr]⟩
    · rw [hheap, Function.update_of_ne hqp] at hfree
      have hq : (s.flows i).ptrPayloadBuffer = some q := by
        by_cases h : i = id
        · rw [h, hself] at hq
          exact h ▸ hq
        · rwa [hother i h] at hq
      obtain ⟨k, hk, hkptr⟩ := hs.allocated i q hq hfree
      by_cases h : k = id
      · exact ⟨id, by rw [hself], by rw [hself]; exact h ▸ hkptr⟩
      · exact ⟨k, by rw [hother k h, hk], by rw [hother k h, hkptr]⟩

/-- Writing to a block does not free it. -/
theorem of_update_eq_free {heap : ℕ → BufferBlock} {block : BufferBlock} {p q : ℕ}
    (h : Function.update heap p block q = .free) (hblock : block ≠ .free) :
    q ≠ p ∧ heap q = .free := by
  by_cases hq : q = p
  · rw [hq, Function.update_self] at h
    exact absurd h hblock
  · rw [Function.update_of_ne hq] at h
    exact ⟨hq, h⟩

/-- Every step that frees only for failed flows. -/
theorem Buffers.Owned.step (hs : s.Owned) (hfrees : FreesFailed s a)
    (h : s.step managerMode files a = some s') : s'.Owned := by
  obtain ⟨hcount, ⟨hflows, hheap⟩ | ⟨id, f', hchange, hflows, hcreate⟩⟩ := Buffers.step_cases h
  · refine ⟨fun i hi => ?_, fun i => ?_, fun i p => ?_⟩
    · rw [hflows]
      exact hs.fresh i (by omega)
    · rw [hflows]
      exact hs.cleaned_failed i
    · simp only [hflows, hheap]
      exact hs.allocated i p
  · generalize hheap : s'.heap = heap' at hchange
    have hsame : ∀ p, (s.flows id).ptrPayloadBuffer = some p →
        ∃ j, (s.flows j).ptrPayloadBuffer = some p := fun p hp => ⟨id, hp⟩
    cases hchange with
    | create fileName hid =>
      have hpc := (hs.fresh id hid).1
      exact hs.update (by rw [hpc]; nofun) hflows hcount (hcreate fileName rfl)
        (fun p hp => hheap ▸ hp) rfl nofun
    | noFile hpc => exact hs.move hpc nofun nofun hflows hcount hheap.symm rfl hsame
    | startSearch name hpc => exact hs.move hpc nofun nofun hflows hcount hheap.symm rfl hsame
    | look j pc hpc => exact hs.move hpc nofun nofun hflows hcount hheap.symm rfl hsame
    | endSearch j hpc => exact hs.move hpc nofun nofun hflows hcount hheap.symm rfl hsame
    | takePtr j hpc =>
      exact hs.move hpc nofun nofun hflows hcount hheap.symm rfl fun p hp => ⟨j, hp⟩
    | takeDim j hpc => exact hs.move hpc nofun nofun hflows hcount hheap.symm rfl hsame
    | size name hpc => exact hs.move hpc nofun nofun hflows hcount hheap.symm rfl hsame
    | malloc p hpc hp =>
      have hnot : (s.flows id).pc ≠ .failed := by rw [hpc]; nofun
      refine hs.update hnot hflows hcount
        (Nat.le_trans (hs.le_count (by rw [hpc]; nofun)) hcount) (fun q hq => ?_)
        (hs.not_cleaned hnot) fun q hq hfree => ?_
      · rw [hheap] at hq
        exact (of_update_eq_free hq nofun).2
      · obtain rfl := Option.some.inj hq
        rw [hheap] at hfree
        exact absurd rfl (of_update_eq_free hfree nofun).1
    | read p name hpc hname hp =>
      have hnot : (s.flows id).pc ≠ .failed := by rw [hpc]; nofun
      refine hs.update hnot hflows hcount
        (Nat.le_trans (hs.le_count (by rw [hpc]; nofun)) hcount) (fun q hq => ?_)
        (hs.not_cleaned hnot) fun q hq _ => hsame q hq
      rw [hheap] at hq
      exact (of_update_eq_free hq nofun).2
    | send hpc => exact hs.move hpc nofun nofun hflows hcount hheap.symm rfl hsame
    | endDim hpc => exact hs.move hpc nofun nofun hflows hcount hheap.symm rfl hsame
    | endPtr hpc => exact hs.move hpc nofun nofun hflows hcount hheap.symm rfl nofun
    | fail hpc =>
      rcases hpc with hpc | hpc
      · exact hs.move hpc nofun nofun hflows hcount hheap.symm rfl hsame
      · exact hs.move hpc nofun nofun hflows hcount hheap.symm rfl hsame
    | free p hfreed =>
      exact hs.free (hfrees id p hfreed).1 (ptr_of_freed hfreed) hflows hheap hcount

theorem owned_start : Buffers.start.Owned := ⟨fun _ _ => ⟨rfl, rfl⟩, nofun, nofun⟩

end Owned

/-- All steps of the manager and of the flows. -/
theorem frees_soundly (managerMode : Bool) (files : List UInt8 → List UInt8)
    {actions : List BufferAction}
    (h : (buffers managerMode files).StepsVia FreesFailed .start actions) :
    (buffers managerMode files).StepsVia FreesSoundly .start actions :=
  h.of_invariant owned_start (fun _ _ => freesSoundly_of_freesFailed) fun _ _ _ =>
    Buffers.Owned.step

/-- A flow that has failed. The buffer is freed once. -/
theorem frees_soundly_failed :
    (buffers true fun _ => [1, 2]).StepsVia FreesSoundly .start
      [.create (some [97]), .manager, .parser 1, .parser 1, .parser 1, .parser 1, .malloc 1 7,
        .parser 1, .fail 1, .manager, .manager, .manager, .manager] := by
  refine frees_soundly true _ ?_
  iterate 12
    refine ⟨nofun, ?_⟩
    rintro _ ⟨⟩
  refine ⟨?_, fun _ _ => trivial⟩
  rintro j p ⟨⟩
  refine ⟨rfl, rfl, fun i hi => ?_⟩
  simp [Buffers.setFlow, Buffers.setBlock, Buffers.start, BufferFlow.new, Function.update, hi]

/-- A flow that has been parsed when the manager gets the mutex. -/
theorem not_frees_soundly : ¬∀ (files : List UInt8 → List UInt8) (actions : List BufferAction),
    (buffers true files).StepsVia FreesSoundly .start actions := by
  intro h
  have hsteps := h (fun _ => [1, 2])
    ([.create (some [97]), .manager, .parser 1, .parser 1, .parser 1, .parser 1, .malloc 1 7,
        .parser 1, .manager, .manager, .manager] ++ [.manager])
  have hsound := hsteps.of_run_append rfl
  exact absurd ((hsound 1 7 rfl).2 1 rfl) (by decide)

/-! ## Sharing -/

/-- The bytes of the file of a flow. -/
def BufferFlow.fileBytes (files : List UInt8 → List UInt8) (f : BufferFlow) :
    Option (List UInt8) :=
  f.fileName.map files

/-- The parser of the flow has come past `-Fp`. -/
def BufferFlow.Loaded (f : BufferFlow) : Prop :=
  f.pc = .parsed ∨ f.pc = .sending ∨ f.pc = .failed ∨ f.pc = .ending ∨ f.pc = .ended

/-- A buffer is only taken over from a flow that has been parsed, whose file has the same bytes
    and for which the clean-up has not freed it, or from one whose sender has set the length
    to 0 since. -/
def TakesSame (files : List UInt8 → List UInt8) (s : Buffers) (a : BufferAction) : Prop :=
  ∀ id j, a = .parser id → (s.flows id).pc = .takePtr j →
    ((s.flows j).pc = .ending ∨ (s.flows j).pc = .ended) ∨
      (s.flows j).Loaded ∧ (s.flows j).cleaned = false ∧
        (s.flows j).fileBytes files = (s.flows id).fileBytes files

/-- The pointer of the flow is to these bytes. -/
def Buffers.HasBytes (s : Buffers) (id : ℕ) (bytes : List UInt8) : Prop :=
  ∃ p, (s.flows id).ptrPayloadBuffer = some p ∧ s.heap p = .bytes bytes

/-- The pointer and the length are those of these bytes. -/
def Buffers.Describes (s : Buffers) (id : ℕ) (bytes : List UInt8) : Prop :=
  s.HasBytes id bytes ∧ (s.flows id).dimPayloadBuffer = bytes.length

/-- What the pointer and the length are at each place of a flow. -/
def Buffers.FileKept (s : Buffers) (id : ℕ) (bytes : List UInt8) : Prop :=
  match (s.flows id).pc with
  | .absent | .opened | .ending | .ended => True
  | .parsing => (s.flows id).dimPayloadBuffer = 0
  | .search _ | .takePtr _ => (s.flows id).dimPayloadBuffer ≠ 0 → s.Describes id bytes
  | .takeDim j =>
    (s.flows j).Loaded ∧ ((s.flows j).dimPayloadBuffer ≠ 0 →
      s.HasBytes id bytes ∧ (s.flows j).dimPayloadBuffer = bytes.length)
  | .sized | .allocated => (s.flows id).dimPayloadBuffer = bytes.length
  | .parsed | .sending => s.Describes id bytes
  | .failed => (s.flows id).cleaned = false → s.Describes id bytes

/-- All flows, each with the bytes of its file. -/
structure Buffers.Kept (files : List UInt8 → List UInt8) (s : Buffers) : Prop
    extends s.Owned where
  ended : ∀ i, (s.flows i).pc = .ending ∨ (s.flows i).pc = .ended →
    (s.flows i).dimPayloadBuffer = 0
  file : ∀ i bytes, (s.flows i).fileBytes files = some bytes → s.FileKept i bytes
  /-- What is read from a file goes to new memory. -/
  unwritten : ∀ i, (s.flows i).pc = .allocated →
    ∃ p, (s.flows i).ptrPayloadBuffer = some p ∧ s.heap p = .uninitialised
  alone : ∀ i j, (s.flows i).pc = .allocated → (s.flows j).pc = .allocated →
    (s.flows i).ptrPayloadBuffer = (s.flows j).ptrPayloadBuffer → i = j

section Sharing

variable {managerMode : Bool} {files : List UInt8 → List UInt8} {s s' : Buffers} {id i : ℕ}
  {f' : BufferFlow} {a : BufferAction} {heap' : ℕ → BufferBlock} {bytes : List UInt8}

/-- A step of one flow leaves the memory of another. -/
theorem Buffers.Kept.heap_eq (hs : s.Kept files) (hfrees : FreesFailed s a)
    (hchange : FlowChange files s id a f' heap') (hi : i ≠ id) {p : ℕ}
    (hp : (s.flows i).ptrPayloadBuffer = some p)
    (hblock : (∃ bytes, s.heap p = .bytes bytes) ∨
      s.heap p = .uninitialised ∧ (s.flows i).pc = .allocated) : heap' p = s.heap p := by
  cases hchange with
  | malloc q hpc hq =>
    refine Function.update_of_ne ?_ _ _
    rintro rfl
    obtain ⟨bytes, h⟩ | ⟨h, -⟩ := hblock <;> rw [hq] at h <;> cases h
  | read q name hpc hname hq =>
    refine Function.update_of_ne ?_ _ _
    rintro rfl
    obtain ⟨r, hr, hheap⟩ := hs.unwritten id hpc
    obtain rfl : p = r := Option.some.inj (hq.symm.trans hr)
    obtain ⟨bytes, h⟩ | ⟨-, h⟩ := hblock
    · rw [hheap] at h
      cases h
    · exact hi (hs.alone i id h hpc (hp.trans hq.symm))
  | free q hfreed =>
    refine Function.update_of_ne ?_ _ _
    rintro rfl
    exact (hfrees id p hfreed).2.2 i hi hp
  | _ => rfl

theorem Buffers.Kept.hasBytes (hs : s.Kept files) (hfrees : FreesFailed s a)
    (hchange : FlowChange files s id a f' s'.heap)
    (hflows : s'.flows = Function.update s.flows id f') (hi : i ≠ id)
    (h : s.HasBytes i bytes) : s'.HasBytes i bytes := by
  obtain ⟨p, hp, hheap⟩ := h
  refine ⟨p, ?_, ?_⟩
  · rw [hflows, Function.update_of_ne hi, hp]
  · rw [hs.heap_eq hfrees hchange hi hp (Or.inl ⟨bytes, hheap⟩), hheap]

theorem Buffers.Kept.describes (hs : s.Kept files) (hfrees : FreesFailed s a)
    (hchange : FlowChange files s id a f' s'.heap)
    (hflows : s'.flows = Function.update s.flows id f') (hi : i ≠ id)
    (h : s.Describes i bytes) : s'.Describes i bytes := by
  refine ⟨hs.hasBytes hfrees hchange hflows hi h.1, ?_⟩
  rw [hflows, Function.update_of_ne hi, h.2]

/-- A flow that has been loaded stays so, and its length stays or becomes 0. -/
theorem Buffers.Owned.loaded (hs : s.Owned) (hchange : FlowChange files s id a f' heap')
    (h : (s.flows id).Loaded) :
    f'.Loaded ∧
      (f'.dimPayloadBuffer = 0 ∨ f'.dimPayloadBuffer = (s.flows id).dimPayloadBuffer) := by
  cases hchange with
  | create fileName hid =>
    rw [BufferFlow.Loaded, (hs.fresh id hid).1] at h
    simp at h
  | send hpc => exact ⟨Or.inr (Or.inl rfl), Or.inr rfl⟩
  | endDim hpc => exact ⟨Or.inr (Or.inr (Or.inr (Or.inl rfl))), Or.inl rfl⟩
  | endPtr hpc => exact ⟨Or.inr (Or.inr (Or.inr (Or.inr rfl))), Or.inr rfl⟩
  | fail hpc => exact ⟨Or.inr (Or.inr (Or.inl rfl)), Or.inr rfl⟩
  | free p hfreed => exact ⟨h, Or.inr rfl⟩
  | _ =>
    rename_i hpc
    simp_all [BufferFlow.Loaded]

/-- A step of one flow keeps what holds of another. -/
theorem Buffers.Kept.fileKept_other (hs : s.Kept files) (hfrees : FreesFailed s a)
    (hchange : FlowChange files s id a f' s'.heap)
    (hflows : s'.flows = Function.update s.flows id f') (hi : i ≠ id)
    (h : s.FileKept i bytes) : s'.FileKept i bytes := by
  have hself : s'.flows i = s.flows i := by rw [hflows, Function.update_of_ne hi]
  have hbytes : s.HasBytes i bytes → s'.HasBytes i bytes :=
    hs.hasBytes hfrees hchange hflows hi
  have hdescribes : s.Describes i bytes → s'.Describes i bytes :=
    hs.describes hfrees hchange hflows hi
  rw [Buffers.FileKept, hself]
  rw [Buffers.FileKept] at h
  cases hpc : (s.flows i).pc with
  | absent | opened | ending | ended => trivial
  | parsing | sized | allocated => simpa only [hpc] using h
  | search j | takePtr j =>
    simp only [hpc] at h ⊢
    exact fun hdim => hdescribes (h hdim)
  | parsed | sending =>
    simp only [hpc] at h ⊢
    exact hdescribes h
  | failed =>
    simp only [hpc] at h ⊢
    exact fun hcleaned => hdescribes (h hcleaned)
  | takeDim j =>
    simp only [hpc] at h ⊢
    obtain ⟨hloaded, hfile⟩ := h
    by_cases hj : j = id
    · -- The flow taken over from goes on.
      subst hj
      rw [hflows, Function.update_self]
      obtain ⟨hloaded', hdim | hdim⟩ := hs.loaded hchange hloaded
      · exact ⟨hloaded', fun hne => absurd hdim hne⟩
      · rw [hdim]
        exact ⟨hloaded', fun hne => (hfile hne).imp_left hbytes⟩
    · rw [hflows, Function.update_of_ne hj]
      exact ⟨hloaded, fun hne => (hfile hne).imp_left hbytes⟩

/-- A flow that points to what another one describes. -/
theorem Buffers.Describes.hasBytes_of_ptr {j : ℕ} (h : s.Describes j bytes)
    (hptr : (s'.flows i).ptrPayloadBuffer = (s.flows j).ptrPayloadBuffer)
    (hheap : s'.heap = s.heap) : s'.HasBytes i bytes := by
  obtain ⟨⟨p, hp, hbytes⟩, -⟩ := h
  exact ⟨p, hptr.trans hp, by rw [hheap, hbytes]⟩

/-- A step of the flow that leaves its pointer, its length and the memory. -/
theorem Buffers.Describes.same (h : s.Describes id bytes)
    (hptr : (s'.flows id).ptrPayloadBuffer = (s.flows id).ptrPayloadBuffer)
    (hdim : (s'.flows id).dimPayloadBuffer = (s.flows id).dimPayloadBuffer)
    (hheap : s'.heap = s.heap) : s'.Describes id bytes :=
  ⟨h.hasBytes_of_ptr hptr hheap, hdim.trans h.2⟩

/-- A flow that has been parsed. -/
theorem Buffers.Kept.describes_of_parsed (hs : s.Kept files)
    (hbytes : (s.flows id).fileBytes files = some bytes)
    (hpc : (s.flows id).pc = .parsed ∨ (s.flows id).pc = .sending) : s.Describes id bytes := by
  have hkept := hs.file id bytes hbytes
  rw [Buffers.FileKept] at hkept
  obtain hpc | hpc := hpc <;> rw [hpc] at hkept <;> exact hkept

/-- A flow that has taken over a buffer. -/
theorem Buffers.Kept.describes_of_search (hs : s.Kept files)
    (hbytes : (s.flows id).fileBytes files = some bytes) {j : ℕ}
    (hpc : (s.flows id).pc = .search j) (hdim : (s.flows id).dimPayloadBuffer ≠ 0) :
    s.Describes id bytes := by
  have hkept := hs.file id bytes hbytes
  rw [Buffers.FileKept, hpc] at hkept
  exact hkept hdim

/-- A flow that reads its file. -/
theorem Buffers.Kept.dim_eq (hs : s.Kept files)
    (hbytes : (s.flows id).fileBytes files = some bytes)
    (hpc : (s.flows id).pc = .sized ∨ (s.flows id).pc = .allocated) :
    (s.flows id).dimPayloadBuffer = bytes.length := by
  have hkept := hs.file id bytes hbytes
  rw [Buffers.FileKept] at hkept
  obtain hpc | hpc := hpc <;> rw [hpc] at hkept <;> exact hkept

/-- A flow whose pointer is taken over has been loaded, and describes the bytes of the file. -/
theorem Buffers.Kept.takes (hs : s.Kept files) {j : ℕ} (htakes : TakesSame files s (.parser id))
    (hpc : (s.flows id).pc = .takePtr j) (hbytes : (s.flows id).fileBytes files = some bytes) :
    j ≠ id ∧ (s.flows j).Loaded ∧
      ((s.flows j).dimPayloadBuffer ≠ 0 → s.Describes j bytes) := by
  obtain hended | ⟨hloaded, hcleaned, hsame⟩ := htakes id j rfl hpc
  · refine ⟨?_, Or.inr (Or.inr (Or.inr hended)), fun hdim => absurd (hs.ended j hended) hdim⟩
    rintro rfl
    rw [hpc] at hended
    simp at hended
  · refine ⟨?_, hloaded, fun hdim => ?_⟩
    · rintro rfl
      simp [BufferFlow.Loaded, hpc] at hloaded
    · obtain h | h | h | h | h := hloaded
      · exact hs.describes_of_parsed (hsame.trans hbytes) (Or.inl h)
      · exact hs.describes_of_parsed (hsame.trans hbytes) (Or.inr h)
      · have hkept := hs.file j bytes (hsame.trans hbytes)
        rw [Buffers.FileKept, h] at hkept
        exact hkept hcleaned
      · exact absurd (hs.ended j (Or.inl h)) hdim
      · exact absurd (hs.ended j (Or.inr h)) hdim

/-- A step of a flow keeps what holds of it. -/
theorem Buffers.Kept.fileKept_self (hs : s.Kept files) (hfrees : FreesFailed s a)
    (htakes : TakesSame files s a) (hchange : FlowChange files s id a f' s'.heap)
    (hself : s'.flows id = f') (hother : ∀ i, i ≠ id → s'.flows i = s.flows i)
    (hbytes : f'.fileBytes files = some bytes) : s'.FileKept id bytes := by
  generalize hheap : s'.heap = heap' at hchange
  rw [Buffers.FileKept, hself]
  cases hchange with
  | create fileName hid => exact rfl
  | noFile hpc hname =>
    rw [BufferFlow.fileBytes, hname] at hbytes
    cases hbytes
  | startSearch name hpc =>
    have hkept := hs.file id bytes hbytes
    rw [Buffers.FileKept, hpc] at hkept
    exact fun hdim => absurd hkept hdim
  | look j pc hpc hpc' =>
    obtain rfl | rfl := hpc' <;> intro hdim <;>
      exact (hs.describes_of_search hbytes hpc hdim).same (by rw [hself]) (by rw [hself]) hheap
  | endSearch j hpc =>
    dsimp only
    split_ifs at hself ⊢ with hdim
    · trivial
    · have hdescribes := hs.describes_of_search hbytes hpc hdim
      exact hdescribes.same (by rw [hself]) (by rw [hself]) hheap
  | takePtr j hpc =>
    obtain ⟨hj, hloaded, hdescribes⟩ := hs.takes htakes hpc hbytes
    dsimp only
    rw [hother j hj]
    refine ⟨hloaded, fun hdim => ?_⟩
    exact ⟨(hdescribes hdim).hasBytes_of_ptr (by rw [hself]) hheap, (hdescribes hdim).2⟩
  | takeDim j hpc =>
    have hkept := hs.file id bytes hbytes
    rw [Buffers.FileKept, hpc] at hkept
    intro hdim
    obtain ⟨⟨p, hp, hblock⟩, hlength⟩ := hkept.2 hdim
    exact ⟨⟨p, by rw [hself]; exact hp, by rw [hheap]; exact hblock⟩, by rw [hself]; exact hlength⟩
  | size name hpc hname =>
    rw [BufferFlow.fileBytes, hname] at hbytes
    exact congrArg List.length (Option.some.inj hbytes)
  | malloc p hpc hp => exact hs.dim_eq hbytes (Or.inl hpc)
  | read p name hpc hname hp =>
    have hdim := hs.dim_eq hbytes (Or.inr hpc)
    rw [BufferFlow.fileBytes, hname] at hbytes
    obtain rfl : files name = bytes := Option.some.inj hbytes
    refine ⟨⟨p, by rw [hself]; exact hp, ?_⟩, by rw [hself]; exact hdim⟩
    rw [hheap, Function.update_self]
  | send hpc =>
    have hdescribes := hs.describes_of_parsed hbytes (Or.inl hpc)
    exact hdescribes.same (by rw [hself]) (by rw [hself]) hheap
  | endDim hpc => trivial
  | endPtr hpc => trivial
  | fail hpc =>
    intro _
    exact (hs.describes_of_parsed hbytes hpc).same (by rw [hself]) (by rw [hself]) hheap
  | free p hfreed =>
    dsimp only
    rw [(hfrees id p hfreed).1]
    exact nofun

/-- Neither do the lengths of flows that have ended change. -/
theorem Buffers.Kept.ended_step (hs : s.Kept files)
    (hchange : FlowChange files s id a f' heap') (h : f'.pc = .ending ∨ f'.pc = .ended) :
    f'.dimPayloadBuffer = 0 := by
  cases hchange with
  | endDim hpc => rfl
  | endPtr hpc => exact hs.ended id (Or.inl hpc)
  | free p hfreed => exact hs.ended id h
  | look j pc hpc hpc' => obtain rfl | rfl := hpc' <;> simp at h
  | endSearch j hpc =>
    dsimp only at h
    split_ifs at h <;> simp at h
  | _ => simp [BufferFlow.new] at h

/-- A flow that comes to the reading of its file has memory that was free. -/
theorem FlowChange.allocated (hfrees : FreesFailed s a)
    (hchange : FlowChange files s id a f' heap') (h : f'.pc = .allocated) :
    ∃ p, f'.ptrPayloadBuffer = some p ∧ s.heap p = .free ∧ heap' p = .uninitialised := by
  cases hchange with
  | malloc p hpc hp => exact ⟨p, rfl, hp, Function.update_self ..⟩
  | free p hfreed =>
    rw [(hfrees id p hfreed).1] at h
    cases h
  | look j pc hpc hpc' =>
    obtain rfl | rfl := hpc' <;> cases h
  | endSearch j hpc =>
    dsimp only at h
    split_ifs at h
  | _ => cases h

/-- No other flow is to read its file into this memory. -/
theorem Buffers.Kept.ptr_ne (hs : s.Kept files) (hfrees : FreesFailed s a)
    (hchange : FlowChange files s id a f' heap') (h : f'.pc = .allocated)
    (hi : (s.flows i).pc = .allocated) :
    f'.ptrPayloadBuffer ≠ (s.flows i).ptrPayloadBuffer := by
  obtain ⟨p, hp, hfree, -⟩ := hchange.allocated hfrees h
  obtain ⟨q, hq, hheap⟩ := hs.unwritten i hi
  intro hptr
  obtain rfl : p = q := Option.some.inj (hp.symm.trans (hptr.trans hq))
  rw [hfree] at hheap
  cases hheap

/-- A step that changes no flow. -/
theorem Buffers.Kept.congr (hs : s.Kept files) (howned : s'.Owned) (hflows : s'.flows = s.flows)
    (hheap : s'.heap = s.heap) : s'.Kept files where
  toOwned := howned
  ended := by
    rw [hflows]
    exact hs.ended
  file := by
    simp only [Buffers.FileKept, Buffers.Describes, Buffers.HasBytes, hflows, hheap]
    exact hs.file
  unwritten := by
    rw [hflows, hheap]
    exact hs.unwritten
  alone := by
    rw [hflows]
    exact hs.alone

/-- Every step that frees only for failed flows and takes over only the same bytes. -/
theorem Buffers.Kept.step (hs : s.Kept files) (hfrees : FreesFailed s a)
    (htakes : TakesSame files s a) (h : s.step managerMode files a = some s') :
    s'.Kept files := by
  have howned := hs.toOwned.step hfrees h
  obtain ⟨-, ⟨hflows, hheap⟩ | ⟨id, f', hchange, hflows, -⟩⟩ := Buffers.step_cases h
  · exact hs.congr howned hflows hheap
  have hself : s'.flows id = f' := by rw [hflows, Function.update_self]
  have hother : ∀ i, i ≠ id → s'.flows i = s.flows i := fun i hi => by
    rw [hflows, Function.update_of_ne hi]
  refine { toOwned := howned, ended := fun i hi => ?_, file := fun i bytes hbytes => ?_,
           unwritten := fun i hi => ?_, alone := fun i j hi hj hptr => ?_ }
  · by_cases hid : i = id
    · rw [hid, hself] at hi ⊢
      exact hs.ended_step hchange hi
    · rw [hother i hid] at hi ⊢
      exact hs.ended i hi
  · by_cases hid : i = id
    · rw [hid, hself] at hbytes
      exact hid ▸ hs.fileKept_self hfrees htakes hchange hself hother hbytes
    · rw [hother i hid] at hbytes
      exact hs.fileKept_other hfrees hchange hflows hid (hs.file i bytes hbytes)
  · by_cases hid : i = id
    · rw [hid, hself] at hi ⊢
      obtain ⟨p, hp, -, hheap⟩ := hchange.allocated hfrees hi
      exact ⟨p, hp, hheap⟩
    · rw [hother i hid] at hi ⊢
      obtain ⟨p, hp, hheap⟩ := hs.unwritten i hi
      exact ⟨p, hp, by rw [hs.heap_eq hfrees hchange hid hp (Or.inr ⟨hheap, hi⟩), hheap]⟩
  · by_cases hid : i = id <;> by_cases hjd : j = id
    · rw [hid, hjd]
    · rw [hid, hself] at hi hptr
      rw [hother j hjd] at hj hptr
      exact absurd hptr (hs.ptr_ne hfrees hchange hi hj)
    · rw [hjd, hself] at hj hptr
      rw [hother i hid] at hi hptr
      exact absurd hptr.symm (hs.ptr_ne hfrees hchange hj hi)
    · rw [hother i hid] at hi hptr
      rw [hother j hjd] at hj hptr
      exact hs.alone i j hi hj hptr

theorem kept_start : Buffers.start.Kept files where
  toOwned := owned_start
  ended _ _ := rfl
  file _ _ := nofun
  unwritten _ := nofun
  alone _ _ := nofun

end Sharing

/-- All flows, in any order of their parsers and senders. -/
theorem described (managerMode : Bool) (files : List UInt8 → List UInt8) {s : Buffers}
    (h : (buffers managerMode files).ReachVia
      (fun s a => TakesSame files s a ∧ FreesFailed s a) s)
    {id : ℕ} {name : List UInt8} (hname : (s.flows id).fileName = some name)
    (hpc : (s.flows id).pc = .parsed ∨ (s.flows id).pc = .sending) :
    ∃ p, (s.flows id).ptrPayloadBuffer = some p ∧ s.heap p = .bytes (files name) ∧
      (s.flows id).dimPayloadBuffer = (files name).length := by
  have hkept : s.Kept files :=
    h.invariant (fun s hs => hs ▸ kept_start) fun _ _ _ hs hP => hs.step hP.2 hP.1
  have hbytes : (s.flows id).fileBytes files = some (files name) := by
    rw [BufferFlow.fileBytes, hname, Option.map_some]
  obtain ⟨⟨p, hp, hheap⟩, hdim⟩ := hkept.describes_of_parsed hbytes hpc
  exact ⟨p, hp, hheap, hdim⟩

/-- A second flow with another name for the same bytes. -/
theorem described_second :
    ∃ s, (buffers false fun _ => [1, 2]).Reachable s ∧
      ∃ p, (s.flows 2).ptrPayloadBuffer = some p ∧ s.heap p = .bytes [1, 2] ∧
        (s.flows 2).dimPayloadBuffer = 2 := by
  have hrun : (buffers false fun _ => [1, 2]).StepsVia
      (fun s a => TakesSame (fun _ => [1, 2]) s a ∧ FreesFailed s a) .start
      [.create (some [97]), .manager, .parser 1, .parser 1, .parser 1, .parser 1, .malloc 1 7,
        .parser 1, .create (some [98]), .manager, .parser 2, .parser 2, .parser 2, .parser 2,
        .parser 2, .parser 2] := by
    iterate 13
      refine ⟨⟨?_, nofun⟩, ?_⟩
      · rintro _ _ ⟨⟩ ⟨⟩
      rintro _ ⟨⟩
    refine ⟨⟨?_, nofun⟩, ?_⟩
    · rintro _ _ ⟨⟩ ⟨⟩
      exact Or.inr ⟨Or.inl rfl, rfl, rfl⟩
    rintro _ ⟨⟩
    iterate 2
      refine ⟨⟨?_, nofun⟩, ?_⟩
      · rintro _ _ ⟨⟩ ⟨⟩
      rintro _ ⟨⟩
    trivial
  have hreach := Transition.ReachVia.run (.init rfl) hrun rfl
  exact ⟨_, hreach.reachable, described false _ hreach rfl (Or.inl rfl)⟩

/-- A second flow whose file is another one. -/
theorem not_described : ¬∀ (files : List UInt8 → List UInt8), (∀ name, files name ≠ []) →
    ∀ s, (buffers false files).Reachable s → ∀ id name, (s.flows id).fileName = some name →
      (s.flows id).pc = .parsed →
      ∃ p, (s.flows id).ptrPayloadBuffer = some p ∧ s.heap p = .bytes (files name) ∧
        (s.flows id).dimPayloadBuffer = (files name).length := by
  intro h
  have hrun : (buffers false (List.cons 1)).run .start
      [.create (some [97]), .manager, .parser 1, .parser 1, .parser 1, .parser 1, .malloc 1 7,
        .parser 1, .create (some [98]), .manager, .parser 2, .parser 2, .parser 2, .parser 2,
        .parser 2, .parser 2] = some _ := rfl
  have hreach := Transition.Reachable.run (.init rfl) hrun
  obtain ⟨p, hp, hheap, -⟩ := h _ (List.cons_ne_nil 1) _ hreach 2 [98] rfl rfl
  obtain rfl := Option.some.inj hp
  exact absurd hheap (by decide)

end Ditg
