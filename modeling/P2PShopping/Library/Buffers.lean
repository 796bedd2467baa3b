import Mathlib.Data.List.TakeWhile

/-! Texts through a fixed buffer of bytes.

A datagram is received into a buffer of `size` bytes of which the last is kept for a
terminator; the text is then read back up to the first NUL. A datagram without a NUL
comes through whole iff it is shorter than the buffer (`receive_eq_iff`), whatever
the buffer held before. -/
namespace Buffers

/-- `recvfrom` with this length: a longer datagram is cut. -/
def recvfrom (datagram : List UInt8) (length : Nat) : List UInt8 := datagram.take length

/-- The bytes at the front of the buffer, and the terminator after them. -/
def fill (buffer bytes : List UInt8) : List UInt8 :=
  (bytes ++ buffer.drop bytes.length).set bytes.length 0

/-- The string a `char*` stands for. -/
def cString (bytes : List UInt8) : List UInt8 := bytes.takeWhile (· ≠ 0)

/-- One round of a receive loop: nothing, or the text of what was received. -/
def receive {size : Nat} (buffer : Vector UInt8 size) (datagram : List UInt8) :
    Option (List UInt8) :=
  let received := recvfrom datagram (size - 1)
  if received.length > 0 then some (cString (fill buffer.toList received)) else none

theorem cString_fill {buffer bytes : List UInt8} (hlen : bytes.length < buffer.length)
    (hnul : 0 ∉ bytes) : cString (fill buffer bytes) = bytes := by
  have hfill : fill buffer bytes = bytes ++ 0 :: buffer.drop (bytes.length + 1) := by
    rw [fill, List.set_append_right _ _ le_rfl, Nat.sub_self, List.drop_eq_getElem_cons hlen,
      List.set_cons_zero]
  have hall : ∀ b ∈ bytes, decide (b ≠ 0) = true := fun b hb => by
    simp only [ne_eq, decide_not, Bool.not_eq_eq_eq_not, Bool.not_true, decide_eq_false_iff_not]
    exact fun h0 => hnul (h0 ▸ hb)
  rw [cString, hfill, List.takeWhile_append_of_pos hall]
  simp

/-- **A text comes through a buffer iff it and its terminator fit.** -/
theorem receive_eq_iff {size : Nat} (buffer : Vector UInt8 size) {datagram : List UInt8}
    (hne : datagram ≠ []) (hnul : 0 ∉ datagram) :
    receive buffer datagram = some datagram ↔ datagram.length < size := by
  have hpos : 0 < datagram.length := List.length_pos_iff.mpr hne
  constructor
  · intro h
    by_contra hlong
    have hlen : (recvfrom datagram (size - 1)).length < datagram.length := by
      simp only [recvfrom, List.length_take]
      omega
    unfold receive at h
    simp only at h
    split at h
    case isTrue hreceived =>
      have hsize : (recvfrom datagram (size - 1)).length < buffer.toList.length := by
        simp only [recvfrom, List.length_take, Vector.length_toList] at hreceived ⊢
        omega
      have hcut : 0 ∉ recvfrom datagram (size - 1) := fun h0 => hnul (List.mem_of_mem_take h0)
      rw [cString_fill hsize hcut] at h
      rw [Option.some.inj h] at hlen
      exact lt_irrefl _ hlen
    case isFalse => cases h
  · intro hfits
    have hwhole : recvfrom datagram (size - 1) = datagram := List.take_of_length_le (by omega)
    rw [receive, hwhole, if_pos hpos, cString_fill (by simpa using hfits) hnul]

end Buffers
