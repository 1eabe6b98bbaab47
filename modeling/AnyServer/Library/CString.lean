import Mathlib.Data.List.Infix
import Mathlib.Data.List.TakeWhile

/-!
# Strings and Records in Fixed Buffers

A C program keeps strings and records of varying size in buffers of fixed size. `read z buf`
is the string that a buffer holds, ended by the terminator `z` or by the end of the buffer.
`copyInto buf room new` is a buffer after a value-result copy: the caller says how much room
there is, at most that much of `new` is copied to the front of the buffer, and the rest of
the buffer keeps what it had. The room announced may differ from the size of the buffer;
what would be copied past its end is left out.

## Main results

* `read_eq_iff`: which buffers hold a given string.
* `isSome_scan_iff`, `mem_copyInto_replicate_iff`: when reading a string stays inside its buffer,
  and when a copy into a cleared buffer leaves it so.
* `take_prefix_copyInto_iff`: a record arrives whole exactly if what did not fit into the
  room was in its place already.
-/

namespace CString

variable {α : Type*}

section Read

variable [DecidableEq α] {z : α} {s buf : List α}

/-- The string that a buffer holds. -/
def read (z : α) (buf : List α) : List α :=
  buf.takeWhile (· != z)

/-- A string without a terminator is the whole of what its buffer holds. -/
theorem read_eq_self_iff : read z buf = buf ↔ z ∉ buf := by
  rw [read, List.takeWhile_eq_self_iff]
  constructor
  · intro h hz
    simpa using h z hz
  · intro h x hx
    rw [bne_iff_ne]
    rintro rfl
    exact h hx

/-- What follows a terminator is not read. -/
@[simp] theorem read_append_cons (s t : List α) : read z (s ++ z :: t) = read z s := by
  induction s with
  | nil => simp [read]
  | cons x s ih =>
      by_cases hx : x = z
      · simp [read, hx]
      · simpa [read, hx] using ih

/-- What `strcpy` leaves in a buffer is read back. -/
theorem read_terminated : read z (read z buf ++ [z]) = read z buf := by
  have hbuf : ∀ x ∈ buf.takeWhile (· != z), (x != z) = true := fun _ => List.mem_takeWhile_imp
  rw [read, read, List.takeWhile_append_of_pos hbuf]
  simp

/-- Reading a string element by element up to its terminator; `none` is a read past the end of
the buffer. -/
def scan (z : α) : List α → Option (List α)
  | [] => none
  | x :: buf => if x = z then some [] else (scan z buf).map (x :: ·)

/-- A scan of the buffer finds the terminator, and reads up to it, exactly when there is one. -/
theorem scan_eq (buf : List α) :
    scan z buf = if z ∈ buf then some (read z buf) else none := by
  induction buf with
  | nil => simp [scan]
  | cons x buf ih =>
      by_cases hx : x = z
      · simp [scan, read, hx]
      · by_cases hz : z ∈ buf
        · simp [scan, read, ih, hx, hz]
        · simp [scan, ih, hx, hz, Ne.symm hx]

/-- Reading stays inside a buffer exactly if there is a terminator in it. -/
theorem isSome_scan_iff : (scan z buf).isSome ↔ z ∈ buf := by
  rw [scan_eq]
  split <;> simp [*]

/-- A buffer holds `s` if `s` stands at its front, followed by a terminator unless the
buffer ends there. -/
theorem read_eq_iff (hz : z ∉ s) (hle : s.length ≤ buf.length) :
    read z buf = s ↔ (s ++ [z]).take buf.length <+: buf := by
  have hs : ∀ x ∈ s, (x != z) = true := by
    rintro x hx
    simp only [bne_iff_ne]
    rintro rfl
    exact hz hx
  constructor
  · intro h
    have hsplit : s ++ buf.dropWhile (· != z) = buf := by
      rw [← h]
      exact List.takeWhile_append_dropWhile
    cases hd : buf.dropWhile (· != z) with
    | nil =>
        obtain rfl : s = buf := by simpa [hd] using hsplit
        simp
    | cons b t =>
        -- the scan stopped at a terminator
        obtain rfl : b = z := by
          have := List.head?_dropWhile_not (· != z) buf
          simpa [hd] using this
        refine (List.take_prefix _ _).trans ⟨t, ?_⟩
        rw [List.append_assoc, List.singleton_append, ← hd, hsplit]
  · intro h
    rcases Nat.lt_or_ge s.length buf.length with hlt | hge
    · rw [List.take_of_length_le (by simp; omega)] at h
      obtain ⟨t, rfl⟩ := h
      simp only [read, List.append_assoc, List.takeWhile_append_of_pos hs, List.singleton_append]
      rw [List.takeWhile_cons_of_neg (by simp), List.append_nil]
    · have hlen : s.length = buf.length := by omega
      rw [← hlen, List.take_left'] at h
      · obtain rfl := h.eq_of_length hlen
        exact List.takeWhile_eq_self_iff.mpr hs
      · rfl

end Read

section Copy

variable {buf new : List α} {room : ℕ}

/-- A buffer after `new` was copied into it with this much room. -/
def copyInto (buf : List α) (room : ℕ) (new : List α) : List α :=
  (new.take room ++ buf.drop (min room new.length)).take buf.length

/-- Copying does not change how long the buffer is. -/
@[simp] theorem length_copyInto : (copyInto buf room new).length = buf.length := by
  simp only [copyInto, List.length_take, List.length_append, List.length_drop]
  omega

/-- Copying nothing changes nothing. -/
@[simp] theorem copyInto_nil : copyInto buf room [] = buf := by
  simp [copyInto]

/-- A record that has room and is no larger than a cleared buffer. -/
theorem copyInto_replicate {z : α} {n : ℕ} (hroom : new.length ≤ room) (hlen : new.length ≤ n) :
    copyInto (List.replicate n z) room new = new ++ List.replicate (n - new.length) z := by
  rw [copyInto, List.take_of_length_le hroom, Nat.min_eq_right hroom, List.drop_replicate,
    List.take_of_length_le]
  simp only [List.length_append, List.length_replicate]
  omega

/-- It leaves a terminator in the buffer exactly if it does not fill it, or brings one. -/
theorem mem_copyInto_replicate_iff {z : α} {n : ℕ} (hroom : new.length ≤ room)
    (hlen : new.length ≤ n) :
    z ∈ copyInto (List.replicate n z) room new ↔ new.length < n ∨ z ∈ new := by
  rw [copyInto_replicate hroom hlen, List.mem_append, List.mem_replicate, or_comm]
  refine or_congr_left ?_
  simp only [and_true]
  omega

/-- A record of the size of the buffer that has room is copied whole. -/
theorem copyInto_full (hroom : new.length ≤ room) (hlen : new.length = buf.length) :
    copyInto buf room new = new := by
  rw [copyInto, List.take_of_length_le hroom, Nat.min_eq_right hroom, ← hlen, List.take_left']
  rfl

/-- **What arrives of a record.** It is there up to the end of the buffer exactly if the part
that did not fit into the room was in its place already. -/
theorem take_prefix_copyInto_iff :
    new.take buf.length <+: copyInto buf room new ↔
      (new.take buf.length).drop room <+: buf.drop room := by
  rcases Nat.lt_or_ge room new.length with hlt | hge
  · have hmin : min room new.length = room := by omega
    rcases Nat.lt_or_ge room buf.length with hlt' | hge'
    · have hcopy : copyInto buf room new = new.take room ++ buf.drop room := by
        rw [copyInto, hmin, List.take_of_length_le]
        simp only [List.length_append, List.length_take, List.length_drop]
        omega
      have hsplit : new.take buf.length = new.take room ++ (new.take buf.length).drop room := by
        have h := (List.take_append_drop room (new.take buf.length)).symm
        rwa [List.take_take, Nat.min_eq_left (by omega)] at h
      rw [hcopy]
      conv => lhs; rw [hsplit]
      exact List.prefix_append_right_inj _
    · -- the buffer ends before the room does
      have hcopy : copyInto buf room new = new.take buf.length := by
        rw [copyInto, hmin, List.take_append_of_le_length (by simp; omega), List.take_take,
          Nat.min_eq_left hge']
      rw [hcopy, List.drop_eq_nil_of_le (by simp; omega)]
      simp
  · have hcopy : new.take buf.length <+: copyInto buf room new := by
      rw [copyInto, List.take_of_length_le hge]
      exact List.IsPrefix.take (List.prefix_append _ _) _
    rw [List.drop_eq_nil_of_le (by simp; omega)]
    simp [hcopy]

end Copy

end CString
