import Mathlib.Data.List.Basic

/-! A stream of frames, read one symbol at a time. The sender only appends frames; the
reader's position is the number of symbols it has taken. What it has taken since it
stood in front of a frame is a prefix of that frame and the frames after it, and stays
so while it reads on and while frames are appended. -/

namespace InfusedModbus.Foundation

variable {φ α : Type} (encode : φ → List α)

/-- The symbols of the frames, one after the other. -/
def wire (frames : List φ) : List α := frames.flatMap encode

variable {encode}

theorem wire_append (frames frames' : List φ) : wire encode (frames ++ frames') = wire encode frames ++ wire encode frames' :=
  List.flatMap_append

theorem wire_take_append_drop (frames : List φ) (k : ℕ) :
    wire encode (frames.take k) ++ wire encode (frames.drop k) = wire encode frames := by
  rw [← wire_append, List.take_append_drop]

variable (encode) in
/-- The reader has taken `received` since it stood in front of the `k`-th frame. -/
structure ReadSince (frames : List φ) (consumed k : ℕ) (received : List α) : Prop where
  le : k ≤ frames.length
  position : consumed = (wire encode (frames.take k)).length + received.length
  isPrefix : received <+: wire encode (frames.drop k)

namespace ReadSince

variable {frames : List φ} {consumed k : ℕ} {received : List α}

theorem start (hle : k ≤ frames.length) (hposition : consumed = (wire encode (frames.take k)).length) :
    ReadSince encode frames consumed k [] :=
  ⟨hle, hposition, List.nil_prefix⟩

theorem append (h : ReadSince encode frames consumed k received) (frames' : List φ) :
    ReadSince encode (frames ++ frames') consumed k received := by
  refine ⟨?_, ?_, ?_⟩
  · rw [List.length_append]
    exact Nat.le_add_right_of_le h.le
  · rw [List.take_append_of_le_length h.le]
    exact h.position
  · rw [List.drop_append_of_le_length h.le, wire_append]
    exact h.isPrefix.trans (List.prefix_append _ _)

/-- The next symbol of the stream extends what was received. -/
theorem next (h : ReadSince encode frames consumed k received) {b : α}
    (hb : (wire encode frames)[consumed]? = some b) : ReadSince encode frames (consumed + 1) k (received ++ [b]) := by
  refine ⟨h.le, ?_, ?_⟩
  · rw [List.length_append, List.length_singleton, h.position, Nat.add_assoc]
  · rw [← wire_take_append_drop frames k, h.position, List.getElem?_append_right (Nat.le_add_right _ _),
      Nat.add_sub_cancel_left] at hb
    have htake : received ++ [b] = (wire encode (frames.drop k)).take (received.length + 1) := by
      rw [List.take_add_one, hb, ← List.prefix_iff_eq_take.mp h.isPrefix]
      rfl
    rw [htake]
    exact List.take_prefix _ _

/-- Something was received, so the frame is there. -/
theorem exists_frame (h : ReadSince encode frames consumed k received) (hne : received ≠ []) :
    ∃ frame ∈ frames.drop k, received <+: encode frame ++ wire encode (frames.drop (k + 1)) := by
  cases hdrop : frames.drop k with
  | nil =>
    have hnil := h.isPrefix
    rw [hdrop] at hnil
    exact absurd (List.prefix_nil.mp hnil) hne
  | cons frame rest =>
    refine ⟨frame, List.mem_cons_self, ?_⟩
    have hstart := h.isPrefix
    rw [hdrop] at hstart
    rw [← List.drop_drop, hdrop]
    exact hstart

end ReadSince

end InfusedModbus.Foundation
