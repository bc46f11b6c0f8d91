import Ditg.Signaling.Message

/-!
# The port of the data channel

For every session the log server binds a socket to a free port and tells its number to the
receiver (`createDataChannel`). It tries random ports, `OFFSET_LOG_PORT` times at most
(`findPortFree`), and is meant to return 1 if none is free. But it compares the number of tries
with a number that they never exceed, so that it returns the last port when every try has
failed, which is then sent to the receiver.

* `findPortFree_iff`: the port that is found and sent is the one of the socket, and a search
  that fails is told, if and only if one of the tries succeeds.
-/

namespace Ditg

open Bytes

/-! ## The model -/

/-- `OFFSET_LOG_PORT`. -/
def offsetLogPort : ℕ := 1000
/-- `SEED_LOG_PORT`. -/
def seedLogPort : ℕ := 9003

/-- The variables of the search, and the calls of `bind` with the ports, and whether they have
    succeeded. -/
structure PortSearch where
  exit : ℕ
  randomPort : ℕ
  numTries : ℕ
  binds : List (ℕ × Bool)
  deriving DecidableEq, Repr

/-- Before the first try. (No port has been drawn yet.) -/
def PortSearch.start : PortSearch := ⟨1, 0, 0, []⟩

section Model

variable (rand : ℕ → ℕ) (bind : ℕ → ℤ) (s : PortSearch)

/-- The port of a try. -/
def tryPort (i : ℕ) : ℕ := rand i % offsetLogPort + seedLogPort

/-- A try, with the next random number and the next result of `bind`. -/
def PortSearch.next : PortSearch :=
  let port := tryPort rand s.binds.length
  if bind s.binds.length < 0 then ⟨1, port, s.numTries + 1, s.binds ++ [(port, false)]⟩
  else ⟨0, port, s.numTries, s.binds ++ [(port, true)]⟩

theorem numTries_next (h : (s.next rand bind).exit = 1) :
    (s.next rand bind).numTries = s.numTries + 1 := by
  rw [PortSearch.next] at h ⊢
  split_ifs at h ⊢
  rfl

/-- The loop. -/
def portLoop (s : PortSearch) : PortSearch :=
  if _h : (s.next rand bind).exit = 1 ∧ (s.next rand bind).numTries < offsetLogPort then
    portLoop (s.next rand bind)
  else s.next rand bind
termination_by offsetLogPort - s.numTries
decreasing_by
  have hnum := numTries_next rand bind s _h.1
  omega

/-- The search. -/
def portSearch : PortSearch := portLoop rand bind .start

/-- `findPortFree`. -/
def findPortFree : ℕ :=
  let s := portSearch rand bind
  if s.numTries > offsetLogPort then 1 else s.randomPort

/-- `createDataChannel`: the message that is sent to the receiver. -/
def createDataChannel (e : Endian) : Except Stop (List UInt8) :=
  let port := findPortFree rand bind
  if port = 1 then throw (.exit "createDataChannel" "findPortFree" "Cannot find a port free")
  else return store32 e (htonl e (UInt32.ofNat port))

end Model

/-- The port of the socket: the one of a call of `bind` that has succeeded, after which there
    is no other one. -/
def PortSearch.bound (s : PortSearch) : Option ℕ :=
  s.binds.getLast?.bind fun c => if c.2 then some c.1 else none

/-! ## The search -/

variable {rand : ℕ → ℕ} {bind : ℕ → ℤ} {s : PortSearch}

/-- All tries have failed so far. -/
structure PortSearch.Searching (bind : ℕ → ℤ) (s : PortSearch) : Prop where
  length_eq : s.binds.length = s.numTries
  failed : ∀ c ∈ s.binds, c.2 = false
  bind_neg : ∀ i < s.numTries, bind i < 0

/-- The last try has succeeded. -/
structure PortSearch.Found (bind : ℕ → ℤ) (s : PortSearch) : Prop where
  lt : s.numTries < offsetLogPort
  length_eq : s.binds.length = s.numTries + 1
  bound_eq : s.bound = some s.randomPort
  bind_nonneg : 0 ≤ bind s.numTries

theorem searching_start (bind : ℕ → ℤ) : PortSearch.start.Searching bind where
  length_eq := rfl
  failed := nofun
  bind_neg := nofun

/-- Ports are those of the range. -/
theorem randomPort_next (s : PortSearch) : seedLogPort ≤ (s.next rand bind).randomPort ∧
    (s.next rand bind).randomPort < seedLogPort + offsetLogPort := by
  have hmod := Nat.mod_lt (rand s.binds.length) (show 0 < offsetLogPort by decide)
  rw [PortSearch.next]
  split_ifs <;> simp only [tryPort] <;> omega

/-- A try that fails. -/
theorem PortSearch.Searching.next_of_neg (rand : ℕ → ℕ) (h : s.Searching bind)
    (hbind : bind s.numTries < 0) :
    (s.next rand bind).Searching bind ∧ (s.next rand bind).exit = 1 ∧
      (s.next rand bind).numTries = s.numTries + 1 := by
  rw [PortSearch.next, h.length_eq, if_pos hbind]
  refine ⟨⟨?_, fun c hc => ?_, fun i hi => ?_⟩, rfl, rfl⟩
  · rw [List.length_append, h.length_eq, List.length_singleton]
  · rcases List.mem_append.1 hc with hc | hc
    · exact h.failed c hc
    · rw [List.mem_singleton.1 hc]
  · rcases Nat.lt_succ_iff_lt_or_eq.1 hi with hi | rfl
    · exact h.bind_neg i hi
    · exact hbind

/-- A try that succeeds. -/
theorem PortSearch.Searching.next_of_nonneg (rand : ℕ → ℕ) (h : s.Searching bind)
    (hlt : s.numTries < offsetLogPort) (hbind : 0 ≤ bind s.numTries) :
    (s.next rand bind).Found bind ∧ (s.next rand bind).exit = 0 := by
  rw [PortSearch.next, h.length_eq, if_neg hbind.not_gt]
  refine ⟨⟨hlt, ?_, ?_, hbind⟩, rfl⟩
  · rw [List.length_append, h.length_eq, List.length_singleton]
  · rw [PortSearch.bound, List.getLast?_concat]
    rfl

/-- The loop ends with a try that succeeds, or when all tries have failed. -/
theorem PortSearch.Searching.portLoop (h : s.Searching bind) (hlt : s.numTries < offsetLogPort) :
    seedLogPort ≤ (portLoop rand bind s).randomPort ∧
    (portLoop rand bind s).randomPort < seedLogPort + offsetLogPort ∧
    ((portLoop rand bind s).Found bind ∨
      (portLoop rand bind s).Searching bind ∧
        (portLoop rand bind s).numTries = offsetLogPort) := by
  induction s using Ditg.portLoop.induct rand bind with
  | case1 s hgo ih =>
    -- The loop goes on after a try that fails.
    rw [Ditg.portLoop, dif_pos hgo]
    refine ih (h.next_of_neg _ (by_contra fun hbind => ?_)).1 hgo.2
    have hexit := (h.next_of_nonneg rand hlt (not_lt.1 hbind)).2
    rw [hexit] at hgo
    exact absurd hgo.1 (by decide)
  | case2 s hend =>
    rw [Ditg.portLoop, dif_neg hend]
    refine ⟨(randomPort_next s).1, (randomPort_next s).2, ?_⟩
    by_cases hbind : bind s.numTries < 0
    · obtain ⟨hnext, hexit, hnum⟩ := h.next_of_neg rand hbind
      have hge : ¬(s.next rand bind).numTries < offsetLogPort := fun hlt => hend ⟨hexit, hlt⟩
      exact .inr ⟨hnext, by omega⟩
    · exact .inl (h.next_of_nonneg _ hlt (not_lt.1 hbind)).1

/-- The search ends with a try that succeeds, or after `OFFSET_LOG_PORT` tries. -/
theorem portSearch_cases (rand : ℕ → ℕ) (bind : ℕ → ℤ) :
    seedLogPort ≤ (portSearch rand bind).randomPort ∧
    (portSearch rand bind).randomPort < seedLogPort + offsetLogPort ∧
    ((portSearch rand bind).Found bind ∨
      (portSearch rand bind).Searching bind ∧
        (portSearch rand bind).numTries = offsetLogPort) :=
  (searching_start bind).portLoop (by decide)

/-- The number of tries never exceeds `OFFSET_LOG_PORT`, so that the port that is returned is
    always the last one. -/
theorem findPortFree_eq (rand : ℕ → ℕ) (bind : ℕ → ℤ) :
    findPortFree rand bind = (portSearch rand bind).randomPort := by
  have hle : ¬(portSearch rand bind).numTries > offsetLogPort := by
    rcases (portSearch_cases rand bind).2.2 with hfound | ⟨-, hnum⟩
    · exact hfound.lt.le.not_gt
    · exact hnum.le.not_gt
  rw [findPortFree, if_neg hle]

/-- A port is always sent, the last one. -/
theorem createDataChannel_eq (rand : ℕ → ℕ) (bind : ℕ → ℤ) (e : Endian) :
    createDataChannel rand bind e =
      .ok (store32 e (htonl e (UInt32.ofNat (portSearch rand bind).randomPort))) := by
  have hne : (portSearch rand bind).randomPort ≠ 1 := by
    have hle := (portSearch_cases rand bind).1
    change 9003 ≤ _ at hle
    omega
  rw [createDataChannel, findPortFree_eq, if_neg hne]
  rfl

/-- The port a host of any byte order reads in the message. -/
theorem ntohl_port (rand : ℕ → ℕ) (bind : ℕ → ℤ) (e e' : Endian) :
    (ntohl e' (load32 e'
      (store32 e (htonl e (UInt32.ofNat (portSearch rand bind).randomPort))))).toNat =
      (portSearch rand bind).randomPort := by
  have hlt := (portSearch_cases rand bind).2.1
  change _ < 9003 + 1000 at hlt
  have hread := ntohl_load32_htonl e e' (UInt32.ofNat (portSearch rand bind).randomPort) []
  rw [List.append_nil] at hread
  rw [hread, UInt32.toNat_ofNat_of_lt' (hlt.trans (by decide))]

/-- Of any random numbers and any results of `bind`, there are at most `OFFSET_LOG_PORT` calls
    of `bind`; and a port other than 1 is that of the socket, 1 is returned if and only if every
    try has failed, and the port that is sent is that of the socket, if and only if one of the
    first `OFFSET_LOG_PORT` calls of `bind` succeeds. -/
theorem findPortFree_iff (rand : ℕ → ℕ) (bind : ℕ → ℤ) (e e' : Endian) :
    (portSearch rand bind).binds.length ≤ offsetLogPort ∧
    (((findPortFree rand bind ≠ 1 →
        (portSearch rand bind).bound = some (findPortFree rand bind)) ∧
      (findPortFree rand bind = 1 ↔ ∀ c ∈ (portSearch rand bind).binds, c.2 = false) ∧
      ∀ msg, createDataChannel rand bind e = .ok msg →
        (portSearch rand bind).bound = some (ntohl e' (load32 e' msg)).toNat) ↔
    ∃ i < offsetLogPort, 0 ≤ bind i) := by
  obtain ⟨hge, -, hcases⟩ := portSearch_cases rand bind
  have hne : (portSearch rand bind).randomPort ≠ 1 := by
    change 9003 ≤ _ at hge
    omega
  rw [findPortFree_eq, createDataChannel_eq]
  rcases hcases with hfound | ⟨hsearch, hnum⟩
  · refine ⟨hfound.length_eq.trans_le hfound.lt, iff_of_true ⟨fun _ => hfound.bound_eq,
      iff_of_false hne fun hall => ?_, ?_⟩ ⟨_, hfound.lt, hfound.bind_nonneg⟩⟩
    · -- The last call has succeeded.
      obtain ⟨c, hc, hok⟩ := Option.bind_eq_some_iff.1 hfound.bound_eq
      rw [hall c (List.mem_of_getLast? hc)] at hok
      cases hok
    · rintro msg ⟨⟩
      rw [ntohl_port]
      exact hfound.bound_eq
  · refine ⟨(hsearch.length_eq.trans hnum).le, iff_of_false ?_ ?_⟩
    · rintro ⟨-, hone, -⟩
      exact hne (hone.2 hsearch.failed)
    · rintro ⟨i, hi, hbind⟩
      exact hbind.not_gt (hsearch.bind_neg i (hnum ▸ hi))

/-- When every try fails, a port is sent to which the socket is not bound. -/
theorem not_findPortFree : ¬∀ (rand : ℕ → ℕ) (bind : ℕ → ℤ),
    (∀ c ∈ (portSearch rand bind).binds, c.2 = false) → findPortFree rand bind = 1 := by
  intro h
  have hfail : (portSearch (fun _ => 0) fun _ => -1).Searching fun _ => -1 := by
    rcases (portSearch_cases (fun _ => 0) fun _ => -1).2.2 with hfound | ⟨hsearch, -⟩
    · exact absurd hfound.bind_nonneg (by decide)
    · exact hsearch
  have hone := h _ _ hfail.failed
  rw [findPortFree_eq] at hone
  have hge := (portSearch_cases (fun _ => 0) fun _ => -1).1
  change 9003 ≤ _ at hge
  omega

end Ditg
