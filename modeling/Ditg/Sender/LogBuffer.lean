import Ditg.Library.Batch
import Ditg.Library.Transition

/-!
# The log buffers of the flows of a script

In script mode every line of the script is a flow with two threads of its own: one that
reads the options of the line (`flowParser`), and one that sends the packets of the flow
and logs them (`flowSender`). The size of the log buffers, `logbuffer_size`, is a variable
of the process. It is set by the option `-q`, of the command line or of any line; a flow
that starts allocates a buffer of this size, and writes its buffer when it finds the number
of records in it equal to the variable.

So a line with `-q` may change the size for flows that have started already: these miss
their time to write the buffer, and store records behind its end.

* `script_log_sound`: as long as no line does so while a flow has more records in its
  buffer, or a smaller buffer, all records are stored inside the buffers, and they are
  written in order, each once;
* `exists_overrun`: if a line does so, the flow may store a record behind its buffer.
-/

namespace Ditg

/-! ## The model -/

/-- The life of a flow of the script. -/
inductive ScriptPc
  /-- Its options have not been read. -/
  | parsing
  | parsed
  /-- It has allocated its buffer and sends packets. -/
  | sending
  | ended
  deriving DecidableEq, Repr

/-- A flow of the script: its buffer `infos`, with what has been written of it, and the
    records stored so far. -/
structure ScriptFlow (R : Type) where
  pc : ScriptPc
  infos : BatchBuffer R
  stored : List R
  deriving DecidableEq

/-- The process. -/
structure Script (R : Type) where
  logbuffer_size : UInt16
  flows : List (ScriptFlow R)
  deriving DecidableEq

/-- What may happen next. -/
inductive ScriptAction (R : Type)
  /-- The parser of a flow reads the options of its line. -/
  | parse (id : ℕ)
  /-- The flow starts, and `malloc` returns the memory `mem`. -/
  | start (id : ℕ) (mem : List R)
  /-- The flow logs a packet it has sent or got back. -/
  | log (id : ℕ) (r : R)
  /-- The flow ends. -/
  | finish (id : ℕ)

section Process

variable {R : Type} (q : UInt16) (lines : List (Option UInt16))

/-- A flow where `pc` says. -/
def Script.flow? (s : Script R) (id : ℕ) (pc : ScriptPc) : Option (ScriptFlow R) :=
  s.flows[id]?.filter (·.pc = pc)

/-- The log block of a flow, which is the same for packets that have been sent, packets
    that come back during a wait and packets that come back in the end. -/
def ScriptFlow.log (logbuffer_size : UInt16) (f : ScriptFlow R) (r : R) : ScriptFlow R :=
  { f with infos := f.infos.log logbuffer_size.toNat r, stored := f.stored ++ [r] }

/-- One step, if it is possible. Line `id` has the option `-q n` if `lines[id]` is `n`. -/
def Script.step (s : Script R) : ScriptAction R → Option (Script R)
  | .parse id => do
    let f ← s.flow? id .parsing
    return {
      logbuffer_size := lines[id]?.join.getD s.logbuffer_size
      flows := s.flows.set id { f with pc := .parsed } }
  | .start id mem => do
    let f ← s.flow? id .parsed
    if mem.length = s.logbuffer_size.toNat then
      return { s with flows := s.flows.set id { f with pc := .sending, infos := .new mem } }
    else none
  | .log id r => do
    let f ← s.flow? id .sending
    return { s with flows := s.flows.set id (f.log s.logbuffer_size r) }
  | .finish id => do
    let f ← s.flow? id .sending
    return { s with flows := s.flows.set id { f with pc := .ended, infos := f.infos.flush } }

/-- No line has been read. -/
def Script.start : Script R := ⟨q, lines.map fun _ => ⟨.parsing, .new [], []⟩⟩

/-- The process from the start of the script, with the size `q` of the default or of the
    command line. -/
def script : Transition (Script R) (ScriptAction R) where
  init s := s = .start q lines
  step := Script.step lines

/-! ## All records, each once -/

variable {q lines}

/-- The next record is stored inside the buffer, and the records that have been written are
    those that have been stored, up to those in the buffer. -/
structure ScriptFlow.Sound (f : ScriptFlow R) : Prop where
  inside : f.pc = .sending → f.infos.count < f.infos.slots.length
  contents : f.infos.out ++ f.infos.held = f.stored
  written : f.pc = .ended → f.infos.out = f.stored

/-- A line with `-q n` does not change the size below the number of records in the buffer
    of a flow, nor above the size of the buffer. -/
def KeepsSize (lines : List (Option UInt16)) (s : Script R) : ScriptAction R → Prop
  | .parse id => ∀ n ∈ lines[id]?.join, ∀ f ∈ s.flows, f.pc = .sending →
      f.infos.count < n.toNat ∧ n.toNat ≤ f.infos.slots.length
  | _ => True

instance : ∀ (s : Script R) a, Decidable (KeepsSize lines s a)
  | _, .parse id => Option.decidableForallMem lines[id]?.join
  | _, .start _ _ | _, .log _ _ | _, .finish _ => isTrue trivial

/-- A flow at the size `logbuffer_size`. -/
structure ScriptFlow.Ok (logbuffer_size : UInt16) (f : ScriptFlow R) : Prop where
  room : f.pc = .sending →
    f.infos.count < logbuffer_size.toNat ∧ logbuffer_size.toNat ≤ f.infos.slots.length
  empty : f.pc ≠ .sending → f.infos.held = []
  fresh : f.pc = .parsing ∨ f.pc = .parsed → f.stored = []
  contents : f.infos.contents = f.stored

theorem ScriptFlow.Ok.sound {logbuffer_size : UInt16} {f : ScriptFlow R}
    (h : f.Ok logbuffer_size) : f.Sound where
  inside hpc := (h.room hpc).1.trans_le (h.room hpc).2
  contents := h.contents
  written hpc := by
    have hheld := h.empty (by rw [hpc]; decide)
    rw [← h.contents, BatchBuffer.contents, hheld, List.append_nil]

/-- The log block keeps a flow in order. -/
theorem ScriptFlow.Ok.log {logbuffer_size : UInt16} {f : ScriptFlow R}
    (h : f.Ok logbuffer_size) (hpc : f.pc = .sending) (r : R) :
    (f.log logbuffer_size r).Ok logbuffer_size where
  room _ := by
    obtain ⟨hcount, hlen⟩ := h.room hpc
    refine ⟨BatchBuffer.count_log_lt hcount r, ?_⟩
    rw [ScriptFlow.log, BatchBuffer.length_slots_log]
    exact hlen
  empty hne := absurd hpc hne
  fresh hfresh := by
    rcases hfresh with hfresh | hfresh <;> exact absurd (hpc.symm.trans hfresh) (by decide)
  contents := by
    obtain ⟨hcount, hlen⟩ := h.room hpc
    rw [ScriptFlow.log, BatchBuffer.contents_log (hcount.trans_le hlen), h.contents]

/-- What a step does to one of the flows. -/
inductive FlowStep (lines : List (Option UInt16)) (s : Script R) (f : ScriptFlow R) :
    ScriptAction R → ScriptFlow R → Prop
  | parse (id : ℕ) : f.pc = .parsing → FlowStep lines s f (.parse id) { f with pc := .parsed }
  | start (id : ℕ) (mem : List R) : f.pc = .parsed → mem.length = s.logbuffer_size.toNat →
      FlowStep lines s f (.start id mem) { f with pc := .sending, infos := .new mem }
  | log (id : ℕ) (r : R) : f.pc = .sending →
      FlowStep lines s f (.log id r) (f.log s.logbuffer_size r)
  | finish (id : ℕ) : f.pc = .sending →
      FlowStep lines s f (.finish id) { f with pc := .ended, infos := f.infos.flush }

variable {s s' : Script R} {a : ScriptAction R}

theorem flow?_eq_some {id : ℕ} {pc : ScriptPc} {f : ScriptFlow R} (h : s.flow? id pc = some f) :
    s.flows[id]? = some f ∧ f.pc = pc := by
  rw [Script.flow?, Option.filter_eq_some_iff] at h
  exact ⟨h.1, of_decide_eq_true h.2⟩

/-- A step is one of a flow, and only the parser of a line with `-q` changes the size. -/
theorem script_step_cases (h : s.step lines a = some s') :
    ∃ id f f', f ∈ s.flows ∧ FlowStep lines s f a f' ∧ s'.flows = s.flows.set id f' ∧
      (s'.logbuffer_size = s.logbuffer_size ∨
        ∃ n, a = .parse id ∧ n ∈ lines[id]?.join ∧ s'.logbuffer_size = n) := by
  cases a with
  | parse id =>
    obtain ⟨f, hf, h⟩ := Option.bind_eq_some_iff.1 h
    cases h
    obtain ⟨hf, hpc⟩ := flow?_eq_some hf
    refine ⟨id, f, _, List.mem_of_getElem? hf, .parse id hpc, rfl, ?_⟩
    -- The line may set the size.
    rcases hn : lines[id]?.join with _ | n
    · exact .inl rfl
    · exact .inr ⟨n, rfl, rfl, rfl⟩
  | start id mem =>
    obtain ⟨f, hf, h⟩ := Option.bind_eq_some_iff.1 h
    split_ifs at h with hlen
    cases h
    obtain ⟨hf, hpc⟩ := flow?_eq_some hf
    exact ⟨id, f, _, List.mem_of_getElem? hf, .start id mem hpc hlen, rfl, .inl rfl⟩
  | log id r =>
    obtain ⟨f, hf, h⟩ := Option.bind_eq_some_iff.1 h
    cases h
    obtain ⟨hf, hpc⟩ := flow?_eq_some hf
    exact ⟨id, f, _, List.mem_of_getElem? hf, .log id r hpc, rfl, .inl rfl⟩
  | finish id =>
    obtain ⟨f, hf, h⟩ := Option.bind_eq_some_iff.1 h
    cases h
    obtain ⟨hf, hpc⟩ := flow?_eq_some hf
    exact ⟨id, f, _, List.mem_of_getElem? hf, .finish id hpc, rfl, .inl rfl⟩

/-- A flow that makes a step is in order afterwards. -/
theorem ScriptFlow.Ok.step {f f' : ScriptFlow R} (h : f.Ok s.logbuffer_size)
    (hq : 0 < s.logbuffer_size.toNat) (hstep : FlowStep lines s f a f') :
    f'.Ok s.logbuffer_size := by
  cases hstep with
  | parse id hpc =>
    have hne : f.pc ≠ .sending := by
      rw [hpc]
      decide
    exact ⟨fun hpc' => (ScriptPc.noConfusion hpc'), fun _ => h.empty hne,
      fun _ => h.fresh (.inl hpc), h.contents⟩
  | start id mem hpc hlen =>
    exact ⟨fun _ => ⟨hq, hlen.ge⟩, fun _ => rfl,
      fun hfresh => hfresh.elim (fun hpc' => ScriptPc.noConfusion hpc')
        fun hpc' => ScriptPc.noConfusion hpc',
      (h.fresh (.inr hpc)).symm⟩
  | log id r hpc => exact h.log hpc r
  | finish id hpc =>
    refine ⟨fun hpc' => ScriptPc.noConfusion hpc', fun _ => rfl,
      fun hfresh => hfresh.elim (fun hpc' => ScriptPc.noConfusion hpc')
        fun hpc' => ScriptPc.noConfusion hpc', ?_⟩
    rw [BatchBuffer.contents_flush]
    exact h.contents

/-- Another size is as good if it leaves room. -/
theorem ScriptFlow.Ok.resize {q n : UInt16} {f : ScriptFlow R} (h : f.Ok q)
    (hroom : f.pc = .sending →
      f.infos.count < n.toNat ∧ n.toNat ≤ f.infos.slots.length) : f.Ok n :=
  { h with room := hroom }

/-- In the runs in which no line changes the size below the number of records in the buffer
    of a flow or above the size of its buffer, all records are stored inside the buffers and
    written in order, each once. -/
theorem script_log_sound (hq : 0 < q) (hlines : ∀ line ∈ lines, ∀ n ∈ line, 0 < n)
    (h : (script q lines).ReachVia (KeepsSize lines) s) : ∀ f ∈ s.flows, f.Sound := by
  have hinv : 0 < s.logbuffer_size ∧ ∀ f ∈ s.flows, f.Ok s.logbuffer_size := by
    induction h with
    | init hs =>
      rw [hs]
      refine ⟨hq, fun f hf => ?_⟩
      obtain ⟨line, -, rfl⟩ := List.mem_map.1 hf
      exact ⟨fun hpc => ScriptPc.noConfusion hpc, fun _ => rfl, fun _ => rfl, rfl⟩
    | @step s s' a _ hP hstep ih =>
      obtain ⟨id, f, f', hf, hstep, hflows, hsize⟩ := script_step_cases hstep
      rw [hflows]
      rcases hsize with hsize | ⟨n, rfl, hn, hsize⟩
      · rw [hsize]
        refine ⟨ih.1, fun g hg => ?_⟩
        -- At a size that does not change the flows stay in order.
        rcases List.mem_or_eq_of_mem_set hg with hg | rfl
        · exact ih.2 g hg
        · exact (ih.2 f hf).step (UInt16.lt_iff_toNat_lt.1 ih.1) hstep
      · -- The size changes, and leaves room for all flows.
        have hroom := hP n hn
        rw [hsize]
        have hline := List.mem_of_getElem? (Option.join_eq_some_iff.1 hn)
        refine ⟨hlines _ hline n rfl, fun g hg => ?_⟩
        rcases List.mem_or_eq_of_mem_set hg with hg | rfl
        · exact (ih.2 g hg).resize (hroom g hg)
        · have hok := (ih.2 f hf).step (UInt16.lt_iff_toNat_lt.1 ih.1) hstep
          cases hstep
          exact hok.resize fun hpc => ScriptPc.noConfusion hpc
  exact fun f hf => (hinv.2 f hf).sound

/-- Otherwise a flow with room for its records up to now may go on to the end of its buffer,
    and its next record is stored behind it. -/
theorem exists_overrun {id : ℕ} {f : ScriptFlow R} (hf : s.flows[id]? = some f)
    (hpc : f.pc = .sending) (hle : f.infos.count ≤ f.infos.slots.length)
    (hroom : ¬ (f.infos.count < s.logbuffer_size.toNat ∧
      s.logbuffer_size.toNat ≤ f.infos.slots.length)) (r : R) :
    ∃ as s', (script q lines).run s as = some s' ∧ ∃ g ∈ s'.flows, g.pc = .sending ∧ ¬ g.Sound := by
  obtain ⟨room, hn⟩ : ∃ room, room = f.infos.slots.length - f.infos.count := ⟨_, rfl⟩
  induction room generalizing s f with
  | zero =>
    -- The buffer is full to its end.
    refine ⟨[], s, rfl, f, List.mem_of_getElem? hf, hpc, fun h => ?_⟩
    have hinside := h.inside hpc
    omega
  | succ room ih =>
    -- The flow logs a record, and does not find its buffer full.
    have hlog : f.log s.logbuffer_size r =
        { f with infos := f.infos.store r, stored := f.stored ++ [r] } := by
      rw [ScriptFlow.log, BatchBuffer.log, if_neg (by omega)]
    have hflow : s.flow? id .sending = some f := by
      rw [Script.flow?, hf, Option.filter_some, if_pos (by simpa using hpc)]
    have hstep : (script q lines).step s (.log id r) =
        some { s with flows := s.flows.set id (f.log s.logbuffer_size r) } := by
      change Option.bind (s.flow? id .sending) _ = _
      rw [hflow]
      rfl
    have hlt : id < s.flows.length := (List.getElem?_eq_some_iff.1 hf).1
    have hcount : (f.log s.logbuffer_size r).infos.count = f.infos.count + 1 := by
      rw [hlog]
      rfl
    have hlen : (f.log s.logbuffer_size r).infos.slots.length = f.infos.slots.length := by
      rw [ScriptFlow.log, BatchBuffer.length_slots_log]
    obtain ⟨as, s', hrun, hs'⟩ := ih (s := { s with
        flows := s.flows.set id (f.log s.logbuffer_size r) }) (f := f.log s.logbuffer_size r)
      (List.getElem?_set_self hlt) hpc (by omega) (by rw [hcount, hlen]; dsimp only; omega)
      (by omega)
    refine ⟨.log id r :: as, s', ?_, hs'⟩
    rw [Transition.run_cons, hstep]
    exact hrun

end Process

/-! ## Two scripts -/

/-- Two flows with a `-q` each, and a third one without. -/
def someLines : List (Option UInt16) := [some 3, some 2, none]

/-- The line of the second flow makes the size smaller while the first one sends, with a record in
    its buffer. -/
def someActions : List (ScriptAction ℕ) :=
  [.parse 0, .start 0 [0, 0, 0], .log 0 7, .parse 1, .log 0 8, .start 1 [0, 0], .log 1 5, .parse 2,
    .log 0 6, .start 2 [0, 0], .log 2 9, .finish 0, .finish 2, .log 1 4]

/-- The records of all flows have been written in order, each once. -/
theorem script_log_sound_some : ∃ s : Script ℕ,
    (script 50 someLines).run (.start 50 someLines) someActions = some s ∧
      (script 50 someLines).ReachVia (KeepsSize someLines) s ∧ s.logbuffer_size = 2 ∧
      s.flows.map (·.infos.out) = [[7, 8, 6], [5, 4], [9]] ∧ ∀ f ∈ s.flows, f.Sound := by
  obtain ⟨s, hs, hend⟩ := Option.any_eq_true _ _ |>.1
    (show ((script 50 someLines).run (.start 50 someLines) someActions).any (fun s =>
      s.logbuffer_size = 2 ∧ s.flows.map (·.infos.out) = [[7, 8, 6], [5, 4], [9]]) by
        decide +kernel)
  obtain ⟨hsize, hout⟩ := of_decide_eq_true hend
  have hreach : (script 50 someLines).ReachVia (KeepsSize someLines) s :=
    .run (.init rfl) (by decide +kernel) hs
  exact ⟨s, hs, hreach, hsize, hout, script_log_sound (by decide) (by simp [someLines]) hreach⟩

/-- The first flow has a buffer for two records, and one in it when the line of the second
    one changes the size to one. -/
def overrunLines : List (Option UInt16) := [some 2, some 1]

@[inherit_doc overrunLines]
def overrunActions : List (ScriptAction ℕ) :=
  [.parse 0, .start 0 [0, 0], .log 0 7, .parse 1, .log 0 8]

/-- The flow does not find its buffer full, and stores its next record behind it. -/
theorem script_overrun : ¬ ∀ s : Script ℕ, (script 50 overrunLines).Reachable s →
    ∀ f ∈ s.flows, f.Sound := by
  intro h
  have hrun : (script 50 overrunLines).run (.start 50 overrunLines) overrunActions =
      some ⟨1, [⟨.sending, ⟨[7, 8], 2, []⟩, [7, 8]⟩, ⟨.parsed, .new [], []⟩]⟩ := by
    decide +kernel
  have hsound := h _ (Transition.Reachable.run (.init rfl) hrun) _ List.mem_cons_self
  exact absurd (hsound.inside rfl) (by decide)

end Ditg
