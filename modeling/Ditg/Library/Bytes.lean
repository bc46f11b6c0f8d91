import Mathlib.Data.List.Basic
import Mathlib.Tactic.Ring

/-!
# Words in memory and on the network

How fixed-width words are laid out as bytes. The value of a word is a natural
number; `encodeLE` and `decodeLE` are its little-endian bytes and their value,
`store` and `load` the bytes of a word in the memory of a host of either byte
order.

The conversions between host and network order are characterised by their
effect on memory: the memory image of `hton n e x` on a host of order `e` is
`x` in network (big-endian) order (`store_hton`), and reading bytes in network
order through `load` and `ntoh` gives their big-endian value (`ntoh_load`). As
the network order is its own inverse on both hosts, `hton` and `ntoh` are the
same function, and an involution (`hton_hton`).
-/

/-- The byte order of a host. -/
inductive Endian
  | little
  | big
  deriving DecidableEq, Repr

namespace Bytes

/-- The `n` low bytes of `x`, the least significant first. -/
def encodeLE : ℕ → ℕ → List UInt8
  | 0, _ => []
  | n + 1, x => UInt8.ofNat x :: encodeLE n (x / 256)

/-- The value of bytes, the least significant first. -/
def decodeLE : List UInt8 → ℕ
  | [] => 0
  | b :: bs => b.toNat + 256 * decodeLE bs

@[simp] theorem length_encodeLE (n x : ℕ) : (encodeLE n x).length = n := by
  induction n generalizing x with
  | zero => rfl
  | succ n ih => simp [encodeLE, ih]

/-- Decoding the `n` bytes of `x` gives `x`, up to what `n` bytes can hold. -/
theorem decodeLE_encodeLE (n x : ℕ) : decodeLE (encodeLE n x) = x % 256 ^ n := by
  induction n generalizing x with
  | zero => simp [encodeLE, decodeLE, Nat.mod_one]
  | succ n ih =>
    have hx : (UInt8.ofNat x).toNat = x % 256 := by simp
    rw [encodeLE, decodeLE, ih, hx, pow_succ', Nat.mod_mul]

theorem decodeLE_lt (bs : List UInt8) : decodeLE bs < 256 ^ bs.length := by
  induction bs with
  | nil => simp [decodeLE]
  | cons b bs ih =>
    have hb := b.toNat_lt
    rw [decodeLE, List.length_cons, pow_succ]
    omega

/-- Encoding the value of `n` bytes gives the bytes. -/
theorem encodeLE_decodeLE (bs : List UInt8) : encodeLE bs.length (decodeLE bs) = bs := by
  induction bs with
  | nil => rfl
  | cons b bs ih =>
    have hb := b.toNat_lt
    have hmod : UInt8.ofNat (b.toNat + 256 * decodeLE bs) = b := by
      apply UInt8.toNat_inj.1
      rw [UInt8.toNat_ofNat']
      omega
    have hdiv : (b.toNat + 256 * decodeLE bs) / 256 = decodeLE bs := by omega
    rw [List.length_cons, encodeLE, decodeLE, hmod, hdiv, ih]

/-! ## Memory -/

/-- The bytes of the `n`-byte word `x` in the memory of a host. -/
def store (n : ℕ) : Endian → ℕ → List UInt8
  | .little, x => encodeLE n x
  | .big, x => (encodeLE n x).reverse

/-- The value of the word whose bytes are in the memory of a host. -/
def load : Endian → List UInt8 → ℕ
  | .little, bs => decodeLE bs
  | .big, bs => decodeLE bs.reverse

@[simp] theorem length_store (n : ℕ) (e : Endian) (x : ℕ) : (store n e x).length = n := by
  cases e <;> simp [store]

theorem load_store (n : ℕ) (e : Endian) (x : ℕ) : load e (store n e x) = x % 256 ^ n := by
  cases e <;> simp [store, load, decodeLE_encodeLE]

theorem load_lt (e : Endian) (bs : List UInt8) : load e bs < 256 ^ bs.length := by
  cases e
  · exact decodeLE_lt bs
  · simpa [load] using decodeLE_lt bs.reverse

theorem store_load (e : Endian) (bs : List UInt8) : store bs.length e (load e bs) = bs := by
  cases e
  · exact encodeLE_decodeLE bs
  · rw [store, load, ← List.length_reverse, encodeLE_decodeLE, List.reverse_reverse]

/-! ## Network order -/

/-- The conversion of an `n`-byte word from host to network order: the word
    whose bytes, in the memory of the host, are those of `x` in network order. -/
def hton (n : ℕ) (e : Endian) (x : ℕ) : ℕ := load e (store n .big x)

/-- The conversion from network to host order, which is the same function. -/
abbrev ntoh : ℕ → Endian → ℕ → ℕ := hton

theorem hton_lt (n : ℕ) (e : Endian) (x : ℕ) : hton n e x < 256 ^ n := by
  have := load_lt e (store n .big x)
  rwa [length_store] at this

/-- In memory, a word in network order is big-endian. -/
theorem store_hton (n : ℕ) (e : Endian) (x : ℕ) : store n e (hton n e x) = store n .big x := by
  have := store_load e (store n .big x)
  rwa [length_store] at this

/-- Reading bytes in network order gives their big-endian value. -/
theorem ntoh_load (e : Endian) (bs : List UInt8) : ntoh bs.length e (load e bs) = load .big bs := by
  cases e
  · -- The bytes of the little-endian value, read back in the other order.
    rw [ntoh, hton, store, load, load, load, encodeLE_decodeLE]
  · rw [ntoh, hton, store_load]

/-- The conversion is an involution on the words it applies to. -/
theorem hton_hton (n : ℕ) (e : Endian) (x : ℕ) : hton n e (hton n e x) = x % 256 ^ n := by
  have h := ntoh_load e (store n .big x)
  rw [length_store, load_store] at h
  exact h

/-! ## Words of 32 and 16 bits -/

/-- `htonl`, and `ntohl`: a 32-bit word between host and network order. -/
def htonl (e : Endian) (x : UInt32) : UInt32 := UInt32.ofNat (hton 4 e x.toNat)

/-- `htons`, and `ntohs`: a 16-bit word between host and network order. -/
def htons (e : Endian) (x : UInt16) : UInt16 := UInt16.ofNat (hton 2 e x.toNat)

/-- `ntohl` is `htonl`. -/
abbrev ntohl : Endian → UInt32 → UInt32 := htonl

/-- `ntohs` is `htons`. -/
abbrev ntohs : Endian → UInt16 → UInt16 := htons

/-- The 32-bit word at the start of some bytes. -/
def load32 (e : Endian) (bs : List UInt8) : UInt32 := UInt32.ofNat (load e (bs.take 4))

/-- The 16-bit word at the start of some bytes. -/
def load16 (e : Endian) (bs : List UInt8) : UInt16 := UInt16.ofNat (load e (bs.take 2))

/-- The bytes of a 32-bit word. -/
def store32 (e : Endian) (x : UInt32) : List UInt8 := store 4 e x.toNat

/-- The bytes of a 16-bit word. -/
def store16 (e : Endian) (x : UInt16) : List UInt8 := store 2 e x.toNat

@[simp] theorem length_store32 (e : Endian) (x : UInt32) : (store32 e x).length = 4 :=
  length_store 4 e x.toNat

@[simp] theorem length_store16 (e : Endian) (x : UInt16) : (store16 e x).length = 2 :=
  length_store 2 e x.toNat

@[simp] theorem toNat_htonl (e : Endian) (x : UInt32) : (htonl e x).toNat = hton 4 e x.toNat :=
  UInt32.toNat_ofNat_of_lt' (hton_lt 4 e x.toNat)

@[simp] theorem toNat_htons (e : Endian) (x : UInt16) : (htons e x).toNat = hton 2 e x.toNat :=
  UInt16.toNat_ofNat_of_lt' (hton_lt 2 e x.toNat)

/-- Four bytes hold a 32-bit word. -/
theorem toNat_mod_32 (x : UInt32) : x.toNat % 256 ^ 4 = x.toNat := Nat.mod_eq_of_lt x.toNat_lt

/-- Two bytes hold a 16-bit word. -/
theorem toNat_mod_16 (x : UInt16) : x.toNat % 256 ^ 2 = x.toNat := Nat.mod_eq_of_lt x.toNat_lt

@[simp] theorem htons_htons (e : Endian) (x : UInt16) : htons e (htons e x) = x := by
  apply UInt16.toNat_inj.1
  rw [toNat_htons, toNat_htons, hton_hton, toNat_mod_16]

/-- A little-endian host swaps the two bytes. -/
theorem toNat_htons_little (x : UInt16) :
    (htons .little x).toNat = x.toNat % 256 * 256 + x.toNat / 256 := by
  have hx := x.toNat_lt
  rw [toNat_htons]
  simp [hton, store, load, encodeLE, decodeLE]
  omega

/-- Only a word with two equal bytes is the same in both orders. -/
theorem htons_little_eq_self_iff {x : UInt16} :
    htons .little x = x ↔ x.toNat % 256 = x.toNat / 256 := by
  have hx := x.toNat_lt
  rw [← UInt16.toNat_inj, toNat_htons_little]
  omega

@[simp] theorem load32_store32 (e : Endian) (x : UInt32) (bs : List UInt8) :
    load32 e (store32 e x ++ bs) = x := by
  have hlen : (store32 e x).length = 4 := length_store32 e x
  rw [load32, List.take_left' hlen, store32, load_store, toNat_mod_32]
  exact UInt32.ofNat_toNat

/-- A 32-bit word in network order has the same bytes on every host. -/
theorem store32_htonl (e : Endian) (x : UInt32) : store32 e (htonl e x) = store32 .big x := by
  rw [store32, toNat_htonl, store_hton, store32]

/-- A 16-bit word in network order has the same bytes on every host. -/
theorem store16_htons (e : Endian) (x : UInt16) : store16 e (htons e x) = store16 .big x := by
  rw [store16, toNat_htons, store_hton, store16]

/-- Reading four bytes in network order gives their big-endian value. -/
theorem ntohl_load32 (e : Endian) {bs : List UInt8} (h : 4 ≤ bs.length) :
    ntohl e (load32 e bs) = load32 .big bs := by
  have hlen : (bs.take 4).length = 4 := by simp [h]
  have hlt : load e (bs.take 4) < 2 ^ 32 := by simpa [hlen] using load_lt e (bs.take 4)
  have hn : hton 4 e (load e (bs.take 4)) = load .big (bs.take 4) := by
    simpa [hlen] using ntoh_load e (bs.take 4)
  rw [ntohl, htonl, load32, UInt32.toNat_ofNat_of_lt' hlt, hn, load32]

/-- A 32-bit word sent in network order by a host of order `e₁` and read on one
    of order `e₂` is the word sent. -/
@[simp] theorem ntohl_load32_htonl (e₁ e₂ : Endian) (x : UInt32) (bs : List UInt8) :
    ntohl e₂ (load32 e₂ (store32 e₁ (htonl e₁ x) ++ bs)) = x := by
  rw [store32_htonl, ntohl_load32 e₂ (by simp), load32_store32]

/-- A 16-bit word sent in network order by a host of order `e₁` and read on one
    of order `e₂` is the word sent. -/
@[simp] theorem ntohs_load16_htons (e₁ e₂ : Endian) (x : UInt16) (bs : List UInt8) :
    ntohs e₂ (load16 e₂ (store16 e₁ (htons e₁ x) ++ bs)) = x := by
  have hlen : (store16 .big x).length = 2 := length_store16 .big x
  have hlt : load e₂ (store16 .big x) < 2 ^ 16 := by
    simpa [hlen] using load_lt e₂ (store16 .big x)
  have hn : hton 2 e₂ (load e₂ (store16 .big x)) = load .big (store16 .big x) := by
    simpa [hlen] using ntoh_load e₂ (store16 .big x)
  rw [store16_htons, load16, List.take_left' hlen, ntohs, htons,
    UInt16.toNat_ofNat_of_lt' hlt, hn, store16, load_store, toNat_mod_16]
  exact UInt16.ofNat_toNat

end Bytes
