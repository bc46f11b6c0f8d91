import Mathlib.Data.List.Basic
import Mathlib.Logic.Function.Basic

/-!
# Handles that are used again

The system gives handles to those who ask for one, and gives a handle again once it has been
closed. Holders keep handles, of which they cannot see who has them now: that a holder keeps
its handle is known from what has been done, not from the number.

* `Sound`: a handle that is kept is still open, for the one who has opened it, and no two
  holders keep the same one. This stays so when a handle is opened (`Sound.take`,
  `Sound.keep`), passed to another holder (`Sound.pass`), dropped (`Sound.drop`), or closed by
  the holder that keeps it (`Sound.close`), or while no holder keeps it (`Sound.free`).
-/

/-- A holder keeps a handle, opened by someone. -/
structure Kept (H N O : Type*) where
  holder : H
  handle : N
  opener : O
  deriving DecidableEq, Repr

/-- Who has opened the handles that are open, and which of them are kept. -/
structure Ownership (H N O : Type*) where
  owner : N → Option O
  kept : List (Kept H N O)

namespace Ownership

variable {H N O : Type*}

/-- Nothing has been opened. -/
def new : Ownership H N O := ⟨fun _ => none, []⟩

/-- A holder keeps some handle. -/
def Keeps (b : Ownership H N O) (x : H) : Prop := ∃ c ∈ b.kept, c.holder = x

instance [DecidableEq H] (b : Ownership H N O) (x : H) : Decidable (b.Keeps x) :=
  inferInstanceAs (Decidable (∃ c ∈ b.kept, c.holder = x))

/-- No two holders keep the same handle, and a handle that is kept has not been closed. -/
structure Sound (b : Ownership H N O) : Prop where
  owner_eq : ∀ c ∈ b.kept, b.owner c.handle = some c.opener
  holder_eq : ∀ c ∈ b.kept, ∀ d ∈ b.kept, c.handle = d.handle → c.holder = d.holder

theorem sound_new : (new : Ownership H N O).Sound where
  owner_eq := nofun
  holder_eq := nofun

variable {b : Ownership H N O} {x y : H} {n : N} {o : O}

/-- A handle that is closed, or another's, is not kept. -/
theorem Sound.handle_ne (h : b.Sound) (hn : b.owner n = none) {c : Kept H N O} (hc : c ∈ b.kept) :
    c.handle ≠ n := by
  rintro rfl
  exact absurd ((h.owner_eq c hc).symm.trans hn) nofun

/-- Fewer handles are kept. -/
theorem Sound.anti (h : b.Sound) {kept : List (Kept H N O)} (hkept : kept ⊆ b.kept) :
    Sound { b with kept := kept } where
  owner_eq c hc := h.owner_eq c (hkept hc)
  holder_eq c hc d hd := h.holder_eq c (hkept hc) d (hkept hd)

section Owner

variable [DecidableEq N]

/-- A handle is opened. -/
def take (b : Ownership H N O) (n : N) (o : O) : Ownership H N O :=
  { b with owner := Function.update b.owner n (some o) }

/-- A handle is closed. -/
def free (b : Ownership H N O) (n : N) : Ownership H N O :=
  { b with owner := Function.update b.owner n none }

/-- What becomes of a handle that nobody keeps does not matter. -/
theorem Sound.update (h : b.Sound) (hn : ∀ c ∈ b.kept, c.handle ≠ n) (v : Option O) :
    Sound { b with owner := Function.update b.owner n v } where
  owner_eq c hc := (Function.update_of_ne (hn c hc) v b.owner).trans (h.owner_eq c hc)
  holder_eq := h.holder_eq

theorem Sound.take (h : b.Sound) (hn : b.owner n = none) (o : O) : (b.take n o).Sound :=
  h.update (fun _ hc => h.handle_ne hn hc) (some o)

theorem Sound.free (h : b.Sound) (hn : ∀ c ∈ b.kept, c.handle ≠ n) : (b.free n).Sound :=
  h.update hn none

end Owner

section Holder

variable [DecidableEq H]

/-- A holder drops what it keeps. -/
def drop (b : Ownership H N O) (x : H) : Ownership H N O :=
  { b with kept := b.kept.filter (·.holder ≠ x) }

/-- A holder keeps a handle from now on. -/
def keep (b : Ownership H N O) (x : H) (n : N) (o : O) : Ownership H N O :=
  { b with kept := ⟨x, n, o⟩ :: (b.drop x).kept }

/-- A holder passes what it keeps to another one, which drops what it has kept before. -/
def pass (b : Ownership H N O) (x y : H) : Ownership H N O :=
  { b with
    kept := (b.kept.filter (·.holder = x)).map (fun c => { c with holder := y }) ++
      ((b.drop x).drop y).kept }

theorem mem_drop {c : Kept H N O} : c ∈ (b.drop x).kept ↔ c ∈ b.kept ∧ c.holder ≠ x := by
  rw [drop, List.mem_filter, decide_eq_true_iff]

theorem mem_keep {c : Kept H N O} :
    c ∈ (b.keep x n o).kept ↔ c = ⟨x, n, o⟩ ∨ c ∈ b.kept ∧ c.holder ≠ x := by
  rw [keep, List.mem_cons, mem_drop]

theorem mem_pass {c : Kept H N O} : c ∈ (b.pass x y).kept ↔
    (∃ d ∈ b.kept, d.holder = x ∧ c = { d with holder := y }) ∨
      c ∈ b.kept ∧ c.holder ≠ x ∧ c.holder ≠ y := by
  rw [pass, List.mem_append, List.mem_map, mem_drop, mem_drop, and_assoc]
  refine or_congr_left (exists_congr fun d => ?_)
  rw [List.mem_filter, decide_eq_true_iff, and_assoc, @eq_comm _ _ c]

theorem Sound.drop (h : b.Sound) (x : H) : (b.drop x).Sound := h.anti (List.filter_subset_self _)

theorem Sound.keep (h : b.Sound) (hn : ∀ c ∈ b.kept, c.handle ≠ n) (ho : b.owner n = some o)
    (x : H) : (b.keep x n o).Sound where
  owner_eq c hc := by
    rcases mem_keep.1 hc with rfl | hc
    · exact ho
    · exact h.owner_eq c hc.1
  holder_eq c hc d hd heq := by
    rcases mem_keep.1 hc with rfl | hc <;> rcases mem_keep.1 hd with rfl | hd
    · rfl
    · exact absurd heq.symm (hn d hd.1)
    · exact absurd heq (hn c hc.1)
    · exact h.holder_eq c hc.1 d hd.1 heq

theorem Sound.pass (h : b.Sound) (x y : H) : (b.pass x y).Sound where
  owner_eq c hc := by
    rcases mem_pass.1 hc with ⟨d, hd, -, rfl⟩ | hc
    · exact h.owner_eq d hd
    · exact h.owner_eq c hc.1
  holder_eq c hc d hd heq := by
    rcases mem_pass.1 hc with ⟨c', hc', hx, rfl⟩ | hc <;>
      rcases mem_pass.1 hd with ⟨d', hd', hx', rfl⟩ | hd
    · rfl
    · -- The handle that has been passed is kept by no other holder.
      exact absurd ((h.holder_eq c' hc' d hd.1 heq).symm.trans hx) hd.2.1
    · exact absurd ((h.holder_eq c hc.1 d' hd' heq).trans hx') hc.2.1
    · exact h.holder_eq c hc.1 d hd.1 heq

/-- A holder closes what it keeps. -/
theorem Sound.close [DecidableEq N] (h : b.Sound) {c : Kept H N O} (hc : c ∈ b.kept) :
    ((b.drop c.holder).free c.handle).Sound := by
  refine (h.drop c.holder).free fun d hd heq => ?_
  obtain ⟨hd, hne⟩ := mem_drop.1 hd
  exact hne (h.holder_eq d hd c hc heq)

end Holder

end Ownership
