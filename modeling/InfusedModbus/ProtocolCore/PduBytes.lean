import InfusedModbus.Foundation.BigEndian
import InfusedModbus.Foundation.Outcome

/-! The byte buffer and the register list of the port without a heap. Both have a
fixed capacity; a write that would go past it is refused and changes nothing. The
encoders expect every write to fit, so a chain of their writes is one write of the
concatenation: it gives the bytes if all of them fit and panics otherwise. -/

namespace InfusedModbus.ProtocolCore

open Foundation Foundation.Outcome

variable {ε : Type}

/-- The largest PDU. -/
def maxPduLen : ℕ := 253

/-- A write was refused. -/
structure CapacityExceeded where
  deriving DecidableEq, Repr

/-! ### Bytes -/

/-- The used part of a buffer of `maxPduLen` bytes. -/
structure PduBytes where
  asSlice : Bytes
  len_le : asSlice.length ≤ maxPduLen
  deriving DecidableEq, Repr

namespace PduBytes

def new : PduBytes := ⟨[], by simp⟩

def len (self : PduBytes) : ℕ := self.asSlice.length

def push (self : PduBytes) (byte : UInt8) : Outcome CapacityExceeded PduBytes :=
  if h : self.asSlice.length = maxPduLen then .err ⟨⟩
  else .ok ⟨self.asSlice ++ [byte], by have := self.len_le; rw [List.length_append, List.length_singleton]; omega⟩

def extendFromSlice (self : PduBytes) (bytes : Bytes) : Outcome CapacityExceeded PduBytes :=
  if h : maxPduLen < self.asSlice.length + bytes.length then .err ⟨⟩
  else .ok ⟨self.asSlice ++ bytes, by rw [List.length_append]; omega⟩

@[simp] theorem asSlice_new : new.asSlice = [] := rfl

theorem push_eq_extendFromSlice (self : PduBytes) (byte : UInt8) :
    self.push byte = self.extendFromSlice [byte] := by
  have hle := self.len_le
  by_cases h : self.asSlice.length = maxPduLen
  · rw [push, extendFromSlice, dif_pos h, dif_pos (by simp; omega)]
  · rw [push, extendFromSlice, dif_neg h, dif_neg (by simp; omega)]

theorem extendFromSlice_eq_ok {self after : PduBytes} {bytes : Bytes}
    (h : self.extendFromSlice bytes = .ok after) : after.asSlice = self.asSlice ++ bytes := by
  unfold extendFromSlice at h
  split at h
  · cases h
  · obtain rfl := Outcome.ok.inj h
    rfl

theorem extendFromSlice_of_le {self : PduBytes} {bytes : Bytes}
    (h : self.asSlice.length + bytes.length ≤ maxPduLen) :
    self.extendFromSlice bytes = .ok ⟨self.asSlice ++ bytes, by rw [List.length_append]; exact h⟩ := by
  rw [extendFromSlice, dif_neg (by omega)]

theorem extendFromSlice_of_lt {self : PduBytes} {bytes : Bytes}
    (h : maxPduLen < self.asSlice.length + bytes.length) : self.extendFromSlice bytes = .err ⟨⟩ := by
  rw [extendFromSlice, dif_pos h]

end PduBytes

/-- A write that is expected to fit. -/
def emit (buffer : PduBytes) (bytes : Bytes) : Outcome ε PduBytes :=
  (buffer.extendFromSlice bytes).unwrap

theorem unwrap_push (buffer : PduBytes) (byte : UInt8) :
    ((buffer.push byte).unwrap : Outcome ε PduBytes) = emit buffer [byte] := by
  rw [PduBytes.push_eq_extendFromSlice, emit]

theorem unwrap_extendFromSlice (buffer : PduBytes) (bytes : Bytes) :
    ((buffer.extendFromSlice bytes).unwrap : Outcome ε PduBytes) = emit buffer bytes := rfl

theorem emit_nil (buffer : PduBytes) : (emit buffer [] : Outcome ε PduBytes) = .ok buffer := by
  rw [emit, PduBytes.extendFromSlice_of_le (by simpa using buffer.len_le)]
  simp

/-- Two writes are one. -/
theorem emit_bind_emit (buffer : PduBytes) (xs ys : Bytes) :
    ((emit buffer xs : Outcome ε PduBytes) >>= fun buffer => emit buffer ys) = emit buffer (xs ++ ys) := by
  by_cases hxs : maxPduLen < buffer.asSlice.length + xs.length
  · rw [emit, emit, PduBytes.extendFromSlice_of_lt hxs,
      PduBytes.extendFromSlice_of_lt (by rw [List.length_append]; omega)]
    rfl
  · rw [emit, PduBytes.extendFromSlice_of_le (by omega), unwrap_ok, ok_bind]
    have hassoc : (buffer.asSlice ++ xs).length + ys.length = buffer.asSlice.length + (xs ++ ys).length := by
      simp only [List.length_append, Nat.add_assoc]
    by_cases hys : maxPduLen < buffer.asSlice.length + (xs ++ ys).length
    · rw [emit, emit, PduBytes.extendFromSlice_of_lt hys, PduBytes.extendFromSlice_of_lt (by rwa [hassoc])]
    · rw [emit, emit, PduBytes.extendFromSlice_of_le (show (buffer.asSlice ++ xs).length + ys.length ≤ _ by omega),
        PduBytes.extendFromSlice_of_le (show buffer.asSlice.length + (xs ++ ys).length ≤ _ by omega)]
      simp only [unwrap_ok, List.append_assoc]

/-- A loop of writes is one write. -/
theorem foldlM_emit {α : Type} (f : α → Bytes) (xs : List α) (buffer : PduBytes) :
    xs.foldlM (fun buffer x => (emit buffer (f x) : Outcome ε PduBytes)) buffer = emit buffer (xs.flatMap f) := by
  induction xs generalizing buffer with
  | nil => rw [List.foldlM_nil, List.flatMap_nil, emit_nil, pure_eq]
  | cons x xs ih =>
    simp only [List.foldlM_cons, List.flatMap_cons, ih]
    exact emit_bind_emit _ _ _

/-- What is written to an empty buffer. -/
theorem emit_new_of_le {bytes : Bytes} (h : bytes.length ≤ maxPduLen) :
    (emit PduBytes.new bytes : Outcome ε PduBytes) = .ok ⟨bytes, h⟩ := by
  rw [emit, PduBytes.extendFromSlice_of_le (by simpa using h)]
  rfl

theorem emit_new_of_lt {bytes : Bytes} (h : maxPduLen < bytes.length) :
    (emit PduBytes.new bytes : Outcome ε PduBytes) = .panic := by
  rw [emit, PduBytes.extendFromSlice_of_lt (by simpa using h)]
  rfl

/-! ### Registers -/

/-- The most registers a PDU can carry. -/
def maxRegisterCount : ℕ := 125

/-- The used part of a list of `maxRegisterCount` registers. -/
structure RegisterValues where
  asSlice : List UInt16
  len_le : asSlice.length ≤ maxRegisterCount
  deriving DecidableEq, Repr

namespace RegisterValues

def new : RegisterValues := ⟨[], by simp⟩

def len (self : RegisterValues) : ℕ := self.asSlice.length

/-- The capacity is checked once for the whole of `values`. -/
def extendFromIter (self : RegisterValues) (values : List UInt16) : Outcome CapacityExceeded RegisterValues :=
  if h : maxRegisterCount < self.asSlice.length + values.length then .err ⟨⟩
  else .ok ⟨self.asSlice ++ values, by rw [List.length_append]; omega⟩

@[simp] theorem asSlice_new : new.asSlice = [] := rfl

theorem extendFromIter_new_of_le {values : List UInt16} (h : values.length ≤ maxRegisterCount) :
    new.extendFromIter values = .ok ⟨values, h⟩ := by
  rw [extendFromIter, dif_neg (by simpa using h)]
  rfl

end RegisterValues

end InfusedModbus.ProtocolCore
