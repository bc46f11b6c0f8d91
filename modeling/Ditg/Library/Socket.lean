import Mathlib.Data.Int.Basic
import Mathlib.Data.List.Basic
import Mathlib.Order.Basic
import Mathlib.Tactic.Common

/-!
# Reading a stream socket

What the successive calls of `recv` on a connected stream socket find: pieces of
the stream, as the network delivers them, the end of the stream once the peer has
closed it, or an error. A call asking for at most `n` bytes gets what is left of
the first piece, cut at `n`; the rest of the piece is found by the next call. A
closed stream stays closed, and a call that finds nothing at all blocks (`none`).

`Fragments s bs`: the socket holds the stream `bs`, cut into non-empty pieces in
any way. As a call may be given any non-empty piece no longer than what it asks
for, the sockets holding a stream are all the ways `recv` may return it: between
one and the requested number of bytes at every call (`recv_of_fragments`).

Where every call is given all the bytes it asks for, a socket is just its stream
(`recvAll`).
-/

namespace Socket

/-- What a call of `recv` may find. -/
inductive Event
  /-- Bytes of the stream. -/
  | data (bs : List UInt8)
  /-- The end of the stream: the peer has closed it. -/
  | closed
  /-- An error. -/
  | error
  deriving DecidableEq, Repr

/-- A socket: what the calls of `recv` find, in order. -/
abbrev Sock := List Event

/-- What `recv` returns: its result (the number of bytes, `0` on a closed stream
    and `-1` on an error) and the bytes it stores. -/
structure Received where
  /-- The result of the call. -/
  result : ℤ
  /-- The bytes stored in the buffer of the caller. -/
  bytes : List UInt8
  deriving DecidableEq, Repr

/-- `recv` asking for at most `n` bytes, with the socket it leaves; it blocks
    when nothing is there. -/
def recv (n : ℕ) : Sock → Option (Received × Sock)
  | [] => none
  | .data bs :: s =>
    if bs.length ≤ n then some (⟨bs.length, bs⟩, s)
    else some (⟨n, bs.take n⟩, .data (bs.drop n) :: s)
  | .closed :: s => some (⟨0, []⟩, .closed :: s)
  | .error :: s => some (⟨-1, []⟩, s)

/-- The result of a call that stores bytes is their number. -/
theorem result_of_pos {n : ℕ} {s s' : Sock} {r : Received} (h : recv n s = some (r, s'))
    (hr : 0 < r.result) : r.result = r.bytes.length := by
  rcases s with _ | ⟨bs | _ | _, s⟩
  · cases h
  · rw [recv] at h
    split_ifs at h with hn <;> cases h
    · rfl
    · simp only [List.length_take]
      omega
  · cases h; cases hr
  · cases h; cases hr

/-- The socket holds the stream `bs`, cut into non-empty pieces. -/
inductive Fragments : Sock → List UInt8 → Prop
  | nil : Fragments [] []
  | cons {s : Sock} {piece bs : List UInt8} :
      piece ≠ [] → Fragments s bs → Fragments (.data piece :: s) (piece ++ bs)

/-- The whole stream in one piece. -/
theorem Fragments.single {bs : List UInt8} (h : bs ≠ []) : Fragments [.data bs] bs := by
  simpa using Fragments.cons h .nil

/-- A stream cut after its first `n` bytes. -/
theorem Fragments.cut {s : Sock} {bs : List UInt8} {n : ℕ} (hn : 0 < n) (hbs : bs ≠ [])
    (h : Fragments s (bs.drop n)) : Fragments (.data (bs.take n) :: s) bs := by
  have htake : bs.take n ≠ [] := by simp [hbs, hn.ne']
  simpa only [List.take_append_drop] using Fragments.cons htake h

/-- The bytes of the pieces on a socket. -/
def bytes (s : Sock) : List UInt8 :=
  s.flatMap fun
    | .data bs => bs
    | _ => []

theorem Fragments.bytes_eq {s : Sock} {bs : List UInt8} (h : Fragments s bs) : bytes s = bs := by
  induction h with
  | nil => rfl
  | cons _ _ ih => rw [bytes, List.flatMap_cons, ← bytes, ih]

theorem Fragments.ne_nil {s : Sock} {bs : List UInt8} (h : Fragments s bs) (hs : s ≠ []) :
    bs ≠ [] := by
  cases h with
  | nil => exact absurd rfl hs
  | cons hp _ => exact fun he => hp (List.append_eq_nil_iff.1 he).1

theorem Fragments.eq_nil {s : Sock} (h : Fragments s []) : s = [] := by
  by_contra hs
  exact h.ne_nil hs rfl

/-- Reading a stream returns some of its next bytes, at least one and at most
    what is asked for, and leaves the rest of it. -/
theorem recv_of_fragments {s : Sock} {bs : List UInt8} (h : Fragments s bs) (hbs : bs ≠ [])
    {n : ℕ} (hn : 0 < n) :
    ∃ (k : ℕ) (s' : Sock), recv n s = some (⟨k, bs.take k⟩, s') ∧ 0 < k ∧ k ≤ n ∧ k ≤ bs.length ∧
      Fragments s' (bs.drop k) := by
  cases h with
  | nil => exact absurd rfl hbs
  | @cons s piece bs hp hs =>
    have hlen : 0 < piece.length := List.length_pos_iff.2 hp
    by_cases hle : piece.length ≤ n
    · refine ⟨piece.length, s, ?_, hlen, hle, by simp, by simpa using hs⟩
      rw [recv, if_pos hle, List.take_left' rfl]
    · have hdrop : piece.drop n ≠ [] := by
        simpa using hle
      refine ⟨n, .data (piece.drop n) :: s, ?_, hn, le_rfl, by simp; omega, ?_⟩
      · rw [recv, if_neg hle, List.take_append_of_le_length (by omega)]
      · rw [List.drop_append_of_le_length (by omega)]
        exact .cons hdrop hs

/-! ## Connections

A connection is a socket with the calls made on it: what a call asks for, and the
room for it in the memory of the caller. -/

/-- A call of `recv`. -/
structure Call where
  /-- The room behind the pointer it is given. -/
  room : ℕ
  /-- The bytes it asks for. -/
  asked : ℕ
  deriving DecidableEq, Repr

/-- A connection, with the calls of `recv` on it, the last one first. -/
structure Conn where
  sock : Sock
  calls : List Call
  deriving DecidableEq, Repr

/-- `recv` on a connection. -/
def Conn.recv (c : Conn) (room n : ℕ) : Option (Received × Conn) :=
  (Socket.recv n c.sock).map fun (r, s) => (r, ⟨s, ⟨room, n⟩ :: c.calls⟩)

/-- The connection holds the stream `bs`. -/
def Conn.Holds (c : Conn) (bs : List UInt8) : Prop := Fragments c.sock bs

theorem Conn.recv_eq_some {c c' : Conn} {room n : ℕ} {r : Received}
    (h : c.recv room n = some (r, c')) :
    Socket.recv n c.sock = some (r, c'.sock) ∧ c'.calls = ⟨room, n⟩ :: c.calls := by
  rw [Conn.recv, Option.map_eq_some_iff] at h
  obtain ⟨⟨r', s⟩, hr, heq⟩ := h
  obtain ⟨rfl, rfl⟩ := Prod.mk.inj heq
  exact ⟨hr, rfl⟩

/-- A call that stores bytes makes progress. -/
theorem Conn.length_pos {c c' : Conn} {room n : ℕ} {r : Received}
    (h : c.recv room n = some (r, c')) (hr : 0 < r.result) : 0 < r.bytes.length := by
  have := result_of_pos (Conn.recv_eq_some h).1 hr
  omega

/-- Reading a connection returns some of the next bytes of its stream. -/
theorem Conn.Holds.recv {c : Conn} {bs : List UInt8} (h : c.Holds bs) (hbs : bs ≠ [])
    (room : ℕ) {n : ℕ} (hn : 0 < n) :
    ∃ (k : ℕ) (c' : Conn), c.recv room n = some (⟨k, bs.take k⟩, c') ∧ 0 < k ∧ k ≤ n ∧
      k ≤ bs.length ∧ c'.Holds (bs.drop k) := by
  obtain ⟨k, s', hr, hk, hkn, hkl, hs⟩ := recv_of_fragments h hbs hn
  exact ⟨k, ⟨s', ⟨room, n⟩ :: c.calls⟩, by rw [Conn.recv, hr]; rfl, hk, hkn, hkl, hs⟩

/-! ## Streams that end

The bytes that arrive on a socket before anything else: the end of the stream, an error, or
nothing at all, for ever. -/

/-- The bytes before the stream ends, in any way. -/
def arrived : Sock → List UInt8
  | .data (b :: bs) :: s => b :: bs ++ arrived s
  | _ => []

theorem Fragments.arrived_eq {s : Sock} {bs : List UInt8} (h : Fragments s bs) :
    arrived s = bs := by
  induction h with
  | nil => rfl
  | @cons s piece bs hp _ ih =>
    obtain ⟨b, piece, rfl⟩ := List.exists_cons_of_ne_nil hp
    rw [arrived, ih]

/-- A call gives some of the bytes that arrive, if there are any. -/
theorem recv_of_arrived {s : Sock} (h : arrived s ≠ []) {n : ℕ} (hn : 0 < n) :
    ∃ (k : ℕ) (s' : Sock), recv n s = some (⟨k, (arrived s).take k⟩, s') ∧ 0 < k ∧ k ≤ n ∧
      k ≤ (arrived s).length ∧ arrived s' = (arrived s).drop k := by
  rcases s with _ | ⟨⟨_ | ⟨b, bs⟩⟩ | _ | _, s⟩
  · exact absurd rfl h
  · exact absurd rfl h
  · by_cases hle : (b :: bs).length ≤ n
    · refine ⟨(b :: bs).length, s, ?_, Nat.succ_pos _, hle, ?_, ?_⟩
      · rw [recv, if_pos hle, arrived, List.take_left' rfl]
      · rw [arrived, List.length_append]
        exact Nat.le_add_right ..
      · rw [arrived, List.drop_left' rfl]
    · have hlen := not_le.1 hle
      obtain ⟨x, xs, hdrop⟩ := List.exists_cons_of_ne_nil
        (show (b :: bs).drop n ≠ [] by simpa using hle)
      refine ⟨n, .data ((b :: bs).drop n) :: s, ?_, hn, le_rfl, ?_, ?_⟩
      · rw [recv, if_neg hle, arrived, List.take_append_of_le_length hlen.le]
      · rw [arrived, List.length_append]
        omega
      · rw [hdrop, arrived, ← hdrop, arrived, List.drop_append_of_le_length hlen.le]
  · exact absurd rfl h
  · exact absurd rfl h

/-- Without bytes that arrive, a call blocks or has no positive result. -/
theorem recv_nonpos {s s' : Sock} (h : arrived s = []) {n : ℕ} {r : Received}
    (hr : recv n s = some (r, s')) : r.result ≤ 0 := by
  rcases s with _ | ⟨⟨_ | ⟨b, bs⟩⟩ | _ | _, s⟩
  · cases hr
  · rw [recv, List.length_nil, if_pos (Nat.zero_le n)] at hr
    cases hr
    exact Int.le_refl 0
  · cases h
  · cases hr
    exact Int.le_refl 0
  · cases hr
    decide

/-- A socket on which no call blocks before there has been an error. -/
abbrev failing (s : Sock) : Sock := s ++ [.error]

theorem arrived_failing (s : Sock) : arrived (failing s) = arrived s := by
  induction s with
  | nil => rfl
  | cons e s ih =>
    rcases e with ⟨_ | ⟨b, bs⟩⟩ | _ | _
    · rfl
    · exact congrArg (b :: bs ++ ·) ih
    · rfl
    · rfl

/-- A call that gives something leaves such a socket. -/
theorem recv_failing {s : Sock} {n : ℕ} :
    ∃ r s', recv n (failing s) = some (r, s') ∧ (0 < r.result → ∃ t, s' = failing t) := by
  rcases s with _ | ⟨bs | _ | _, s⟩
  · exact ⟨_, _, rfl, fun h => absurd h (by decide)⟩
  · by_cases hle : bs.length ≤ n
    · exact ⟨_, _, if_pos hle, fun _ => ⟨s, rfl⟩⟩
    · exact ⟨_, _, if_neg hle, fun _ => ⟨.data (bs.drop n) :: s, rfl⟩⟩
  · exact ⟨_, _, rfl, fun _ => ⟨.closed :: s, rfl⟩⟩
  · exact ⟨_, _, rfl, fun _ => ⟨s, rfl⟩⟩

/-! ## What is behind some bytes

The calls take the pieces of a stream in order, so that the socket they leave is that of the
stream without as many bytes as they have given. -/

/-- The socket without the first `n` bytes of its pieces. -/
def behind : ℕ → Sock → Sock
  | n, .data bs :: s =>
    if bs.length ≤ n then behind (n - bs.length) s else .data (bs.drop n) :: s
  | _, s => s

/-- The first `n` bytes are in one piece. -/
def Uncut (n : ℕ) (s : Sock) : Prop := ∃ p s', s = .data p :: s' ∧ n ≤ p.length

/-- Some piece ends with the first `n` bytes. -/
def EndsAt (n : ℕ) (s : Sock) : Prop := ∃ j, (bytes (s.take j)).length = n

section Behind

variable {s : Sock} {bs p : List UInt8} {m n : ℕ}

@[simp] theorem bytes_cons (p : List UInt8) (s : Sock) : bytes (.data p :: s) = p ++ bytes s := rfl

theorem Fragments.behind_zero (h : Fragments s bs) : behind 0 s = s := by
  cases h with
  | nil => rfl
  | cons hp _ => exact if_neg (by simpa using hp)

/-- The bytes of a stream without the first ones. -/
theorem Fragments.behind (h : Fragments s bs) (hn : n ≤ bs.length) :
    Fragments (behind n s) (bs.drop n) := by
  induction h generalizing n with
  | nil => simpa [Socket.behind] using Fragments.nil
  | @cons s p bs hp hs ih =>
    rw [Socket.behind]
    split_ifs with hle
    · rw [List.length_append] at hn
      rw [List.drop_append, List.drop_eq_nil_iff.2 hle, List.nil_append]
      exact ih (by omega)
    · have hdrop : p.drop n ≠ [] := by simpa using hle
      rw [List.drop_append_of_le_length (by omega)]
      exact .cons hdrop hs

theorem Fragments.behind_behind (h : Fragments s bs) :
    Socket.behind m (Socket.behind n s) = Socket.behind (n + m) s := by
  induction h generalizing n with
  | nil => rfl
  | @cons s p bs hp hs ih =>
    rw [Socket.behind]
    split_ifs with hle
    · rw [ih, Socket.behind, if_pos (by omega), Nat.sub_add_comm hle]
    · rw [Socket.behind, Socket.behind, List.length_drop, List.drop_drop]
      split_ifs with hm hm' hm'
      · rw [show m - (p.length - n) = n + m - p.length by omega]
      · omega
      · omega
      · rfl

/-- A call gives the first piece of a stream, or as much of it as is asked for, whatever comes
    after the stream, and leaves what is behind that. -/
theorem Fragments.recv_append (h : Fragments s bs) (hbs : bs ≠ []) (hn : 0 < n) (u : Sock) :
    ∃ p s' k, s = .data p :: s' ∧ p ≠ [] ∧ k = min n p.length ∧ 0 < k ∧ k ≤ bs.length ∧
      recv n (s ++ u) = some (⟨k, bs.take k⟩, Socket.behind k s ++ u) := by
  cases h with
  | nil => exact absurd rfl hbs
  | @cons s p bs hp hs =>
    have hlen : 0 < p.length := List.length_pos_iff.2 hp
    refine ⟨p, s, min n p.length, rfl, hp, rfl, lt_min hn hlen, ?_, ?_⟩
    · rw [List.length_append]
      omega
    · rw [Socket.behind]
      by_cases hle : p.length ≤ n
      · rw [min_eq_right hle, if_pos le_rfl, Nat.sub_self, hs.behind_zero, List.take_left' rfl]
        exact if_pos hle
      · have hlt := not_le.1 hle
        rw [min_eq_left hlt.le, if_neg hle, List.take_append_of_le_length hlt.le]
        exact if_neg hle

/-- A call that returns leaves what is behind some bytes. -/
theorem Fragments.exists_behind {s' : Sock} {r : Received} (h : Fragments s bs)
    (hr : recv n s = some (r, s')) : ∃ k ≤ bs.length, s' = Socket.behind k s := by
  rcases Nat.eq_zero_or_pos n with rfl | hn
  · refine ⟨0, Nat.zero_le _, ?_⟩
    rw [h.behind_zero]
    cases h with
    | nil => cases hr
    | cons hp _ =>
      rw [recv, if_neg (by simpa using hp)] at hr
      cases hr
      rw [List.drop_zero]
  · by_cases hbs : bs = []
    · subst hbs
      rw [h.eq_nil] at hr
      cases hr
    · obtain ⟨p, s₁, k, -, -, -, -, hkl, hr'⟩ := h.recv_append hbs hn []
      rw [List.append_nil, List.append_nil, hr] at hr'
      exact ⟨k, hkl, (Prod.mk.inj (Option.some.inj hr')).2⟩

theorem uncut_cons_iff : Uncut n (.data p :: s) ↔ n ≤ p.length := by
  constructor
  · rintro ⟨_, _, heq, hle⟩
    cases heq
    exact hle
  · exact fun hle => ⟨p, s, rfl, hle⟩

theorem endsAt_zero (s : Sock) : EndsAt 0 s := ⟨0, rfl⟩

/-- Behind the first piece is the rest of a stream. -/
theorem Fragments.behind_piece (h : Fragments (.data p :: s) bs) :
    Socket.behind p.length (.data p :: s) = s := by
  cases h with
  | cons _ hs => rw [Socket.behind, if_pos le_rfl, Nat.sub_self, hs.behind_zero]

/-- A piece ends with more bytes if it does so behind the first piece. -/
theorem endsAt_cons_iff (hn : 0 < n) :
    EndsAt n (.data p :: s) ↔ p.length ≤ n ∧ EndsAt (n - p.length) s := by
  constructor
  · rintro ⟨_ | j, hj⟩
    · exact absurd hj (by simp [bytes]; omega)
    · rw [List.take_succ_cons, bytes_cons, List.length_append] at hj
      exact ⟨by omega, j, by omega⟩
  · rintro ⟨hle, j, hj⟩
    refine ⟨j + 1, ?_⟩
    rw [List.take_succ_cons, bytes_cons, List.length_append]
    omega

end Behind

/-! ## Whole reads -/

/-- `recv` of all the `n` bytes it asks for, with the stream it leaves; it blocks until
    they are there. -/
def recvAll {ε : Type*} (blocked : ε) (n : ℕ) (s : List UInt8) :
    Except ε (List UInt8 × List UInt8) :=
  if n ≤ s.length then .ok (s.take n, s.drop n) else .error blocked

/-- The bytes a call asks for are read, and the rest of the stream is left. -/
theorem recvAll_append {ε : Type*} (blocked : ε) {n : ℕ} {bs : List UInt8} (h : bs.length = n)
    (s : List UInt8) : recvAll blocked n (bs ++ s) = .ok (bs, s) := by
  subst h
  rw [recvAll, if_pos (by simp), List.take_left' rfl, List.drop_left' rfl]

@[simp] theorem recvAll_one {ε : Type*} (blocked : ε) (b : UInt8) (s : List UInt8) :
    recvAll blocked 1 (b :: s) = .ok ([b], s) :=
  recvAll_append blocked (show [b].length = 1 from rfl) s

end Socket
