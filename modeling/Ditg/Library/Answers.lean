import Ditg.Library.Socket

/-!
# The answers to the calls of `recv`

A loop that reads depends on nothing but what its calls of `recv` return, so that it can be
run on any answers: bytes, no more than asked for, the end of the stream, which stays closed,
or an error, at any call.

* `Answers.received`: what the first calls give, when every call asks for what is left of the
  room at the start. This fits in the room (`length_received_le`), and as long as they give
  something there are no more calls than bytes (`le_length_received`).
-/

namespace Socket

/-- What a call of `recv` asking for `n` bytes may return. -/
def Received.Gives (n : ℕ) (r : Received) : Prop :=
  r.result = r.bytes.length ∧ 0 < r.bytes.length ∧ r.bytes.length ≤ n ∨
    r = ⟨0, []⟩ ∨ r = ⟨-1, []⟩

/-- The answers to the calls of `recv`, by their number and what they ask for. -/
abbrev Answers := ℕ → ℕ → Received

/-- A stream that is closed stays closed. -/
structure Answers.Valid (a : Answers) : Prop where
  gives : ∀ i n, (a i n).Gives n
  closed : ∀ i n, 0 < n → (a i n).result = 0 → ∀ j, i ≤ j → ∀ m, a j m = ⟨0, []⟩

namespace Answers

variable (a : Answers) (n : ℕ)

/-- What the first calls give, each asking for what is left of `n`. -/
def received : ℕ → List UInt8
  | 0 => []
  | i + 1 => received i ++ (a i (n - (received i).length)).bytes

/-- The `i`-th of these calls. -/
def call (i : ℕ) : Received := a i (n - (a.received n i).length)

theorem received_succ (i : ℕ) : a.received n (i + 1) = a.received n i ++ (a.call n i).bytes := rfl

variable {a n} {i : ℕ}

theorem Valid.call_cases (h : a.Valid) (i : ℕ) :
    (a.call n i).result = (a.call n i).bytes.length ∧ 0 < (a.call n i).bytes.length ∧
        (a.call n i).bytes.length ≤ n - (a.received n i).length ∨
      a.call n i = ⟨0, []⟩ ∨ a.call n i = ⟨-1, []⟩ :=
  h.gives i _

/-- A call that gives something. -/
theorem Valid.bytes_of_pos (h : a.Valid) (hpos : 0 < (a.call n i).result) :
    (a.call n i).result = (a.call n i).bytes.length ∧ 0 < (a.call n i).bytes.length ∧
      (a.call n i).bytes.length ≤ n - (a.received n i).length := by
  rcases h.call_cases i with hdata | hzero | herr
  · exact hdata
  · rw [hzero] at hpos
    exact absurd hpos (by decide)
  · rw [herr] at hpos
    exact absurd hpos (by decide)

/-- A call without an error. -/
theorem Valid.result_eq (h : a.Valid) (hr : 0 ≤ (a.call n i).result) :
    (a.call n i).result = (a.call n i).bytes.length := by
  rcases h.call_cases i with ⟨hres, -⟩ | hzero | herr
  · exact hres
  · rw [hzero]
    rfl
  · rw [herr] at hr
    exact absurd hr (by decide)

theorem Valid.length_received_le (h : a.Valid) (i : ℕ) : (a.received n i).length ≤ n := by
  induction i with
  | zero => exact Nat.zero_le n
  | succ i ih =>
    rw [received_succ, List.length_append]
    rcases h.call_cases (n := n) i with ⟨-, -, hle⟩ | hzero | herr
    · omega
    · rw [hzero]
      exact ih
    · rw [herr]
      exact ih

theorem Valid.le_length_received (h : a.Valid) (hpos : ∀ j < i, 0 < (a.call n j).result) :
    i ≤ (a.received n i).length := by
  induction i with
  | zero => exact Nat.zero_le _
  | succ i ih =>
    have hbytes := (h.bytes_of_pos (hpos i i.lt_succ_self)).2.1
    have ih := ih fun j hj => hpos j (Nat.lt_succ_of_lt hj)
    rw [received_succ, List.length_append]
    omega

/-- A stream is closed when a call that asks for something finds it so. -/
theorem Valid.closed_of_call (h : a.Valid) (hcall : a.call n i = ⟨0, []⟩)
    (hlt : (a.received n i).length < n) : ∀ j, i ≤ j → ∀ m, a j m = ⟨0, []⟩ :=
  h.closed i (n - (a.received n i).length) (Nat.sub_pos_of_lt hlt) (congrArg Received.result hcall)

/-- A loop that goes on only after calls that give something ends. -/
theorem Valid.exists_stop (h : a.Valid) {P : ℕ → Prop}
    (hpos : ∀ i, P i → 0 < (a.call n i).result) :
    ∃ i, (∀ j < i, P j) ∧ ¬P i := by
  by_contra hall
  push Not at hall
  have hP (i : ℕ) : P i := by
    induction i using Nat.strongRecOn with
    | ind i ih => exact hall i ih
  have hle := h.le_length_received (i := n + 1) fun j _ => hpos j (hP j)
  have hfit := h.length_received_le (n := n) (n + 1)
  omega

end Answers

end Socket
