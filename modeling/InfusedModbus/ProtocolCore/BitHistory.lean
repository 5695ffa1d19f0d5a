import InfusedModbus.Foundation.Execution
import InfusedModbus.ProtocolCore.BitWords

/-! The bit list over a run of appending operations, beside the plain list of the bits
that were appended. Every writer but one sets single bits in storage it takes to be
zero past the end. The packed one copies whole bytes, so the storage stays zero past
the end only if the last byte it copies is zero past the bits it was given for. Two of
them add a number of bits that may be any word to the length, and a sum that does not
fit a word panics or wraps around to a smaller length. The packed list stays the plain
one exactly as long as neither happens. -/

namespace InfusedModbus.ProtocolCore.BitValues

open Foundation Foundation.Outcome

/-- An operation that appends bits. -/
inductive Append where
  | push (value : Bool)
  | extendFromSlice (values : List Bool)
  | extendFromIter (values : List Bool)
  | extendFromPackedBytes (packed : Bytes) (bitCount : ℕ)
  deriving DecidableEq, Repr

/-- The bits an operation is given. -/
def Append.bits : Append → List Bool
  | .push value => [value]
  | .extendFromSlice values => values
  | .extendFromIter values => values
  | .extendFromPackedBytes packed bitCount => unpackBits bitCount packed

def append (build : Build) (self : BitValues) : Append → Outcome Empty (BitValues × Except CapacityExceeded Unit)
  | .push value => self.pushUsize build value
  | .extendFromSlice values => self.extendFromSliceUsize build values
  | .extendFromIter values => self.extendFromIterUsize build values
  | .extendFromPackedBytes packed bitCount => self.extendFromPackedBytesUsize build packed bitCount

/-- The operation with sums of natural numbers. -/
def appendExact (self : BitValues) : Append → Outcome CapacityExceeded BitValues
  | .push value => self.push value
  | .extendFromSlice values => self.extendFromSlice values
  | .extendFromIter values => self.extendFromSlice values
  | .extendFromPackedBytes packed bitCount => self.extendFromPackedBytes packed bitCount

/-- A list with the bits appended to it so far. -/
structure Appended where
  value : BitValues
  bits : List Bool
  deriving DecidableEq, Repr

namespace Appended

def start : Appended := ⟨new, []⟩

/-- One operation. What it leaves behind takes the place of the value, also when it
refuses; then it appended no bits. -/
def step (build : Build) (s : Appended) (op : Append) : Option Appended :=
  match s.value.append build op with
  | .ok (after, .ok _) => some ⟨after, s.bits ++ op.bits⟩
  | .ok (after, .error _) => some ⟨after, s.bits⟩
  | .err _ => none
  | .panic => none

/-- What an operation can be called with: a slice holds less than half as many bits as a
word has values, and the other numbers of bits are words; and what a caller has to see to:
packed bytes only at a byte boundary, and as many bytes as the bits need. -/
def Proper (build : Build) (s : Appended) : Append → Prop
  | .push _ => True
  | .extendFromSlice values => values.length < 2 ^ (build.usizeBits - 1)
  | .extendFromIter values => values.length < 2 ^ build.usizeBits
  | .extendFromPackedBytes packed bitCount =>
    s.value.len % 8 = 0 ∧ divCeil bitCount 8 ≤ packed.length ∧ bitCount < 2 ^ build.usizeBits

/-- The new length fits a word, wherever the number of bits is not that of a slice. -/
def FitsWord (build : Build) (s : Appended) : Append → Prop
  | .extendFromIter values => s.value.len + values.length < 2 ^ build.usizeBits
  | .extendFromPackedBytes _ bitCount => s.value.len + bitCount < 2 ^ build.usizeBits
  | _ => True

/-- Packed bytes that are accepted are zero past their last bit, up to the end of its byte. -/
def ZeroTail (s : Appended) : Append → Prop
  | .extendFromPackedBytes packed bitCount => s.value.len + bitCount ≤ maxBitCount →
      ∀ i, bitCount ≤ i → bitAt (packed.take (divCeil bitCount 8)) i = false
  | _ => True

def Sound (build : Build) (s : Appended) (op : Append) : Prop := FitsWord build s op ∧ ZeroTail s op

/-- Built by operations that keep to all of this. -/
def Built (build : Build) (s : Appended) : Prop :=
  ∃ ops, Permitted (step build) (fun s op => Proper build s op ∧ Sound build s op) start ops ∧
    execute (step build) start ops = some s

/-- The packed list is the plain one: in length, bit by bit, in its packed bytes, under
comparison, and through an operation that is refused. -/
def Faithful (build : Build) (s : Appended) : Prop :=
  s.value.len = s.bits.length ∧
  (∀ i, (s.value.get i : Outcome Empty (Option Bool)) = .ok s.bits[i]?) ∧
  s.value.ZeroPadding ∧
  (∀ other, Built build other → (s.value.eq other.value = true ↔ s.bits = other.bits)) ∧
  ∀ op after e, s.value.append build op = .ok (after, .error e) → after = s.value

/-- What the operations keep. -/
def Exact (s : Appended) : Prop := s.value.Clean ∧ s.value.bits = s.bits

end Appended

/-! ### One operation -/

variable {self after : BitValues}

/-- The bits of a list whose storage was copied into: the old ones, the copied ones, and
what lay beyond. -/
theorem bitAt_of_extendFromPackedBytes {packed : Bytes} {bitCount : ℕ}
    (hafter : self.extendFromPackedBytes packed bitCount = .ok after) (i : ℕ) :
    bitAt after.data i =
      if i < self.len then bitAt self.data i
      else if i < self.len + 8 * divCeil bitCount 8 then bitAt (packed.take (divCeil bitCount 8)) (i - self.len)
      else bitAt self.data i := by
  have hbits : maxBitCount = 2000 := rfl
  have hbytes : maxBitBytes = 250 := rfl
  have hdata := self.data_length
  have hceil := divCeil_eight bitCount
  unfold extendFromPackedBytes at hafter
  split at hafter
  · cases hafter
  split at hafter
  · cases hafter
  split at hafter
  · cases hafter
  next haligned hroom hpacked =>
  obtain rfl := Outcome.ok.inj hafter
  have hstart : (self.data.take (self.len / 8)).length = self.len / 8 := by
    rw [List.length_take]
    omega
  have hcopied : (packed.take (divCeil bitCount 8)).length = divCeil bitCount 8 := by
    rw [List.length_take]
    omega
  split
  · next hold =>
    rw [bitAt_append_left _ (by omega), bitAt_take (by omega)]
  next hold =>
  have hi : i = 8 * (self.data.take (self.len / 8)).length + (i - self.len) := by omega
  conv_lhs => rw [hi]
  rw [bitAt_append_right]
  split
  · next hnew => rw [bitAt_append_left _ (by omega)]
  · next hbeyond =>
    have hi' : i - self.len = 8 * (packed.take (divCeil bitCount 8)).length +
        (i - self.len - 8 * divCeil bitCount 8) := by omega
    rw [hi', bitAt_append_right, bitAt_drop]
    congr 1
    omega

theorem extendFromPackedBytes_len {packed : Bytes} {bitCount : ℕ}
    (hafter : self.extendFromPackedBytes packed bitCount = .ok after) :
    after.len = self.len + bitCount ∧ self.len % 8 = 0 ∧ self.len + bitCount ≤ maxBitCount := by
  unfold extendFromPackedBytes at hafter
  split at hafter
  · cases hafter
  split at hafter
  · cases hafter
  split at hafter
  · cases hafter
  obtain rfl := Outcome.ok.inj hafter
  exact ⟨rfl, by omega, by omega⟩

/-- On clean storage the new bits are those of the packed bytes. -/
theorem bits_of_extendFromPackedBytes {packed : Bytes} {bitCount : ℕ}
    (hafter : self.extendFromPackedBytes packed bitCount = .ok after) :
    after.bits = self.bits ++ unpackBits bitCount packed := by
  have hlen := (extendFromPackedBytes_len hafter).1
  have hceil := divCeil_eight bitCount
  apply List.ext_getElem (by simp [hlen])
  intro i h1 h2
  simp only [bits, unpackBits, List.getElem_map, List.getElem_range, List.getElem_append, List.length_map,
    List.length_range, bitAt_of_extendFromPackedBytes hafter]
  split
  · rfl
  · next hge =>
    have hlt : i < self.len + bitCount := by simpa [hlen] using h1
    rw [if_pos (by omega), bitAt_take (by omega)]

/-- On clean storage the padding is what the last copied byte holds past its bits. -/
theorem zeroPadding_of_extendFromPackedBytes {packed : Bytes} {bitCount : ℕ}
    (hafter : self.extendFromPackedBytes packed bitCount = .ok after) (hpadding : after.ZeroPadding) :
    ∀ i, bitCount ≤ i → bitAt (packed.take (divCeil bitCount 8)) i = false := by
  intro i hi
  obtain ⟨hlen, haligned, -⟩ := extendFromPackedBytes_len hafter
  have hceil := divCeil_eight bitCount
  have hceil' := divCeil_eight after.len
  by_cases hlast : i < 8 * divCeil bitCount 8
  · have hbit := hpadding (self.len + i) (by omega)
    rw [asPackedBytes, bitAt_take (by omega), bitAt_of_extendFromPackedBytes hafter, if_neg (by omega),
      if_pos (by omega), Nat.add_sub_cancel_left] at hbit
    exact hbit
  · apply bitAt_of_length_le
    rw [List.length_take]
    omega

theorem clean_of_extendFromPackedBytes (h : self.Clean) {packed : Bytes} {bitCount : ℕ}
    (hafter : self.extendFromPackedBytes packed bitCount = .ok after)
    (htail : ∀ i, bitCount ≤ i → bitAt (packed.take (divCeil bitCount 8)) i = false) : after.Clean := by
  intro i hi
  have hlen := (extendFromPackedBytes_len hafter).1
  rw [bitAt_of_extendFromPackedBytes hafter, if_neg (by omega)]
  split
  · exact htail _ (by omega)
  · exact h i (by omega)

/-- Comparison of packed bytes is comparison of bits where nothing is left in the padding. -/
theorem eq_iff {other : BitValues} (h : self.ZeroPadding) (h' : other.ZeroPadding) :
    self.eq other = true ↔ self.bits = other.bits := by
  simp only [eq, Bool.and_eq_true, beq_iff_eq]
  constructor
  · rintro ⟨hlen, hpacked⟩
    rw [bits_eq_unpackBits_asPackedBytes, bits_eq_unpackBits_asPackedBytes, hlen, hpacked]
  · intro hbits
    have hlen : self.len = other.len := by rw [← length_bits, ← length_bits, hbits]
    exact ⟨hlen, by rw [asPackedBytes_eq _ h, asPackedBytes_eq _ h', hbits]⟩

/-- An operation that refuses leaves the list as it was. -/
theorem eq_of_refused {build : Build} {op : Append} {e : CapacityExceeded}
    (h : self.append build op = .ok (after, .error e)) : after = self := by
  cases op with
  | push value =>
    rw [append, pushUsize] at h
    split at h
    · exact (Prod.mk.inj (ok.inj h)).1.symm
    · obtain ⟨written, -, h⟩ := bind_eq_ok.mp h
      obtain ⟨newLen, -, h⟩ := bind_eq_ok.mp h
      split at h
      · cases (Prod.mk.inj (ok.inj h)).2
      · cases h
  | extendFromSlice values | extendFromIter values =>
    obtain ⟨newLen, -, ⟨hdone, -⟩ | ⟨-, -, hafter⟩⟩ := extendFromSliceUsize_eq_ok h
    · cases hdone
    · exact hafter
  | extendFromPackedBytes packed bitCount =>
    obtain ⟨newLen, -, ⟨hdone, -⟩ | ⟨-, -, hafter⟩⟩ := extendFromPackedBytesUsize_eq_ok h
    · cases hdone
    · exact hafter

namespace Appended

variable {build : Build} {s t : Appended} {op : Append} {ops : List Append}

theorem exact_start : Exact start := ⟨clean_new, rfl⟩

/-- Where the new length fits a word, it is formed as a natural number would be. -/
theorem append_eq (hw : 16 ≤ build.usizeBits) (hproper : Proper build s op) (hfits : FitsWord build s op) :
    s.value.append build op = s.value.inPlace (s.value.appendExact op) := by
  cases op with
  | push value => exact pushUsize_eq hw value
  | extendFromSlice values =>
    have hhalf : 2 ^ (build.usizeBits - 1) * 2 = 2 ^ build.usizeBits := by
      rw [← Nat.pow_succ, Nat.succ_eq_add_one, Nat.sub_add_cancel (by omega)]
    have hmin : 2 ^ 15 ≤ 2 ^ (build.usizeBits - 1) := Nat.pow_le_pow_right (by omega) (by omega)
    have hle := s.value.len_le
    have hmax : maxBitCount = 2000 := rfl
    have hshort : values.length < 2 ^ (build.usizeBits - 1) := hproper
    exact extendFromSliceUsize_eq hw (by omega)
  | extendFromIter values => exact extendFromSliceUsize_eq hw hfits
  | extendFromPackedBytes packed bitCount => exact extendFromPackedBytesUsize_eq (.inr hproper.1) hfits

/-- A proper operation whose new length fits is carried out or refused. -/
theorem step_cases (hw : 16 ≤ build.usizeBits) (hproper : Proper build s op) (hfits : FitsWord build s op) :
    (∃ after, s.value.appendExact op = .ok after ∧ step build s op = some ⟨after, s.bits ++ op.bits⟩) ∨
      (∃ e, s.value.appendExact op = .err e) ∧ step build s op = some s := by
  have hne : s.value.appendExact op ≠ .panic := by
    cases op with
    | push value =>
      simp only [appendExact, BitValues.push]
      split <;> simp
    | extendFromSlice values | extendFromIter values =>
      simp only [appendExact, BitValues.extendFromSlice]
      split <;> simp
    | extendFromPackedBytes packed bitCount =>
      obtain ⟨haligned, hpacked, -⟩ := hproper
      rw [appendExact, BitValues.extendFromPackedBytes, dif_neg (by omega)]
      split
      · simp
      · rw [dif_neg (by omega)]
        simp
  unfold step
  rw [append_eq hw hproper hfits]
  cases h : s.value.appendExact op with
  | ok after => exact .inl ⟨after, rfl, rfl⟩
  | err e => exact .inr ⟨⟨e, rfl⟩, rfl⟩
  | panic => exact absurd h hne

/-- An operation that is carried out appends its bits; the storage stays clean if the
packed bytes end in zeros. -/
theorem Exact.append (h : Exact s) {after : BitValues} (hafter : s.value.appendExact op = .ok after) :
    after.bits = s.bits ++ op.bits ∧ (ZeroTail s op → after.Clean) ∧ (after.ZeroPadding → ZeroTail s op) := by
  obtain ⟨hclean, hbits⟩ := h
  rw [← hbits]
  cases op with
  | push value =>
    simp only [appendExact, push_eq_extendFromSlice] at hafter
    obtain ⟨hnew, hclean'⟩ := extendFromSlice_eq_ok hclean hafter
    exact ⟨hnew, fun _ => hclean', fun _ => trivial⟩
  | extendFromSlice values | extendFromIter values =>
    obtain ⟨hnew, hclean'⟩ := extendFromSlice_eq_ok hclean hafter
    exact ⟨hnew, fun _ => hclean', fun _ => trivial⟩
  | extendFromPackedBytes packed bitCount =>
    have hroom := (extendFromPackedBytes_len hafter).2.2
    exact ⟨bits_of_extendFromPackedBytes hafter,
      fun htail => clean_of_extendFromPackedBytes hclean hafter (htail hroom),
      fun hpadding _ => zeroPadding_of_extendFromPackedBytes hafter hpadding⟩

theorem Exact.step (h : Exact s) (hw : 16 ≤ build.usizeBits) (hproper : Proper build s op)
    (hsound : Sound build s op) : ∃ t, step build s op = some t ∧ Exact t := by
  rcases step_cases hw hproper hsound.1 with ⟨after, hafter, hstep⟩ | ⟨-, hstep⟩
  · obtain ⟨hbits, hclean, -⟩ := h.append hafter
    exact ⟨_, hstep, hclean hsound.2, hbits⟩
  · exact ⟨s, hstep, h⟩

/-! ### What a faithful step needs -/

theorem step_eq_some (h : Appended.step build s op = some t) :
    ∃ result, s.value.append build op = .ok (t.value, result) ∧ (result = .ok () → t.bits = s.bits ++ op.bits) := by
  unfold Appended.step at h
  split at h
  · next after _ hafter =>
    obtain rfl := Option.some.inj h
    exact ⟨.ok (), hafter, fun _ => rfl⟩
  · next after e hafter =>
    obtain rfl := Option.some.inj h
    exact ⟨.error e, hafter, fun hok => by cases hok⟩
  · cases h
  · cases h

/-- A sum that does not fit, if it is formed at all, is too small to be refused and too
small to be the number of bits. -/
theorem Exact.lt_of_sum (h : Exact s) (hw : 16 ≤ build.usizeBits) {count newLen : ℕ}
    (hcount : count < 2 ^ build.usizeBits)
    (hsum : (usizeSum build s.value.len count : Outcome Empty ℕ) = .ok newLen)
    (hnew : newLen = s.bits.length + count ∨ maxBitCount < newLen) : s.value.len + count < 2 ^ build.usizeBits := by
  by_contra hover
  have hle := s.value.len_le
  have hmax := maxBitCount_lt hw
  have hsmall := lt_of_usizeSum_eq_ok hsum (by omega) (by omega) hcount
  have hlen : s.value.len = s.bits.length := by rw [← h.2, length_bits]
  omega

/-- After a step that leaves as many bits as were appended the new length did fit. -/
theorem Exact.fitsWord (h : Exact s) (hw : 16 ≤ build.usizeBits) (hproper : Proper build s op)
    (hstep : Appended.step build s op = some t) (hlen : t.value.len = t.bits.length) : FitsWord build s op := by
  obtain ⟨result, happend, hbits⟩ := step_eq_some hstep
  cases op with
  | push value | extendFromSlice values => trivial
  | extendFromIter values =>
    obtain ⟨newLen, hsum, ⟨hdone, hnew⟩ | ⟨hfull, -⟩⟩ := extendFromSliceUsize_eq_ok happend
    · refine h.lt_of_sum hw hproper hsum (.inl ?_)
      rw [← hnew, hlen, hbits hdone, List.length_append]
      rfl
    · exact h.lt_of_sum hw hproper hsum (.inr hfull)
  | extendFromPackedBytes packed bitCount =>
    obtain ⟨newLen, hsum, ⟨hdone, hnew⟩ | ⟨hfull, -⟩⟩ := extendFromPackedBytesUsize_eq_ok happend
    · refine h.lt_of_sum hw hproper.2.2 hsum (.inl ?_)
      rw [← hnew, hlen, hbits hdone, List.length_append, Append.bits, length_unpackBits]
    · exact h.lt_of_sum hw hproper.2.2 hsum (.inr hfull)

/-- A step after which the padding is zero was given bytes that end in zeros. -/
theorem Exact.zeroTail (h : Exact s) (hw : 16 ≤ build.usizeBits) (hproper : Proper build s op)
    (hfits : FitsWord build s op) (hstep : Appended.step build s op = some t) (hpadding : t.value.ZeroPadding) :
    ZeroTail s op := by
  rcases step_cases hw hproper hfits with ⟨after, hafter, hdone⟩ | ⟨⟨e, hrefused⟩, -⟩
  · obtain rfl := Option.some.inj (hdone.symm.trans hstep)
    exact (h.append hafter).2.2 hpadding
  · cases op with
    | extendFromPackedBytes packed bitCount =>
      -- It was refused though it was proper, so there was no room.
      intro hroom
      obtain ⟨haligned, hpacked, -⟩ := hproper
      rw [appendExact, BitValues.extendFromPackedBytes, dif_neg (by omega), dif_neg (by omega),
        dif_neg (by omega)] at hrefused
      cases hrefused
    | _ => trivial

/-! ### Runs -/

/-- As long as the operations are sound, every state on the way is the plain list. -/
theorem Exact.execute (h : Exact s) (hw : 16 ≤ build.usizeBits)
    (hproper : Permitted (Appended.step build) (Proper build) s ops)
    (hsound : Permitted (Appended.step build) (Sound build) s ops) {before : List Append} (hbefore : before <+: ops) :
    ∃ t, Foundation.execute (Appended.step build) s before = some t ∧ Exact t := by
  induction ops generalizing s before with
  | nil =>
    obtain rfl := List.prefix_nil.mp hbefore
    exact ⟨s, rfl, h⟩
  | cons op ops ih =>
    cases before with
    | nil => exact ⟨s, rfl, h⟩
    | cons op' before =>
      obtain ⟨rfl, hrest⟩ := List.cons_prefix_cons.mp hbefore
      obtain ⟨s', hstep, hexact⟩ := h.step hw hproper.1 hsound.1
      obtain ⟨t, hrun, ht⟩ := ih hexact (hproper.2 s' hstep) (hsound.2 s' hstep) hrest
      exact ⟨t, execute_cons_eq_some.mpr ⟨s', hstep, hrun⟩, ht⟩

/-- The first operation that is not sound panics, leaves another number of bits, or leaves
something in the padding. -/
theorem Exact.permitted_sound (h : Exact s) (hw : 16 ≤ build.usizeBits)
    (hproper : Permitted (Appended.step build) (Proper build) s ops)
    (hfaithful : ∀ before, before <+: ops → ∃ t, Foundation.execute (Appended.step build) s before = some t ∧
      t.value.len = t.bits.length ∧ t.value.ZeroPadding) :
    Permitted (Appended.step build) (Sound build) s ops := by
  induction ops generalizing s with
  | nil => trivial
  | cons op ops ih =>
    obtain ⟨t, hrun, hlen, hpadding⟩ := hfaithful [op] (by simp)
    obtain ⟨s', hstep, hnil⟩ := execute_cons_eq_some.mp hrun
    obtain rfl := Option.some.inj hnil
    have hfits := h.fitsWord hw hproper.1 hstep hlen
    have hsound : Sound build s op := ⟨hfits, h.zeroTail hw hproper.1 hfits hstep hpadding⟩
    obtain ⟨s'', hstep', hexact⟩ := h.step hw hproper.1 hsound
    obtain rfl := Option.some.inj (hstep.symm.trans hstep')
    refine permitted_cons hsound hstep (ih hexact (hproper.2 s' hstep) ?_)
    intro before hbefore
    obtain ⟨t, hrun, ht⟩ := hfaithful (op :: before) (by simpa using hbefore)
    obtain ⟨s'', hstep'', hrest⟩ := execute_cons_eq_some.mp hrun
    obtain rfl := Option.some.inj (hstep.symm.trans hstep'')
    exact ⟨t, hrest, ht⟩

theorem Built.exact (h : Built build s) (hw : 16 ≤ build.usizeBits) : Exact s := by
  obtain ⟨ops, hops, hrun⟩ := h
  refine invariant_of_execute ?_ exact_start hops hrun
  intro s op s' hs hop hstep
  obtain ⟨t, hstep', ht⟩ := hs.step hw hop.1 hop.2
  obtain rfl := Option.some.inj (hstep.symm.trans hstep')
  exact ht

theorem Exact.faithful (h : Exact s) (hw : 16 ≤ build.usizeBits) : Faithful build s := by
  obtain ⟨hclean, hbits⟩ := h
  refine ⟨by rw [← hbits, length_bits], fun i => by rw [get_eq, hbits], hclean.zeroPadding, ?_,
    fun op after e => eq_of_refused⟩
  intro other hother
  obtain ⟨hclean', hbits'⟩ := hother.exact hw
  rw [eq_iff hclean.zeroPadding hclean'.zeroPadding, hbits, hbits']

/-- The packed list is the plain one in every state of a run exactly when every new length
fits a word and no packed bytes accepted on the way have a bit set between their last one
and the end of its byte. -/
theorem faithful_iff_sound (build : Build) (hw : 16 ≤ build.usizeBits) (ops : List Append)
    (hproper : Permitted (step build) (Proper build) start ops) :
    (∀ before, before <+: ops → ∃ s, execute (step build) start before = some s ∧ Faithful build s) ↔
      Permitted (step build) (Sound build) start ops := by
  constructor
  · intro h
    refine exact_start.permitted_sound hw hproper fun before hbefore => ?_
    obtain ⟨s, hrun, hlen, -, hpadding, -⟩ := h before hbefore
    exact ⟨s, hrun, hlen, hpadding⟩
  · intro hsound before hbefore
    obtain ⟨s, hrun, hexact⟩ := exact_start.execute hw hproper hsound hbefore
    exact ⟨s, hrun, hexact.faithful hw⟩

theorem faithful_iff_sound_unaligned_tail :
    Permitted (step ⟨true, true, 32⟩) (Proper ⟨true, true, 32⟩) start
        [.push true, .extendFromSlice (List.replicate 7 false), .extendFromPackedBytes [0x05, 0xff] 3,
          .extendFromIter [true]] ∧
      ∀ before, before <+: [.push true, .extendFromSlice (List.replicate 7 false),
          .extendFromPackedBytes [0x05, 0xff] 3, .extendFromIter [true]] →
        ∃ s, execute (step ⟨true, true, 32⟩) start before = some s ∧ Faithful ⟨true, true, 32⟩ s := by
  have hproper : Permitted (step ⟨true, true, 32⟩) (Proper ⟨true, true, 32⟩) start
      [.push true, .extendFromSlice (List.replicate 7 false), .extendFromPackedBytes [0x05, 0xff] 3,
        .extendFromIter [true]] :=
    permitted_cons trivial rfl (permitted_cons (by simp [Proper]) rfl
      (permitted_cons ⟨by decide, by decide, by decide⟩ rfl (permitted_cons (by simp [Proper]) rfl trivial)))
  refine ⟨hproper, (faithful_iff_sound _ (by decide) _ hproper).mpr (permitted_cons ⟨trivial, trivial⟩ rfl
    (permitted_cons ⟨trivial, trivial⟩ rfl (permitted_cons ⟨show _ < _ by decide, ?_⟩ rfl
      (permitted_cons ⟨show _ < _ by decide, trivial⟩ rfl trivial))))⟩
  intro _ i hi
  by_cases hbyte : i < 8
  · interval_cases i <;> decide
  · exact bitAt_of_length_le (by simp [divCeil]; omega)

/-- Bits of a read of three coils, as a server may well send them: the five bits after
the third are set too. They stay in the padding, so the list is not equal to the one built
bit by bit, and the next bit appended, a zero, is read back as a one. An iterator of a
word's greatest number of bits makes the length of a list with one bit overflow. -/
theorem packed_tail_not_faithful :
    Permitted (step ⟨true, true, 64⟩) (Proper ⟨true, true, 64⟩) start [.extendFromPackedBytes [0xfd] 3, .push false] ∧
      (∃ s t, execute (step ⟨true, true, 64⟩) start [.extendFromPackedBytes [0xfd] 3] = some s ∧
        execute (step ⟨true, true, 64⟩) start [.extendFromSlice [true, false, true]] = some t ∧
        ¬s.value.ZeroPadding ∧ s.bits = t.bits ∧ s.value.eq t.value = false) ∧
      (∃ s, execute (step ⟨true, true, 64⟩) start [.extendFromPackedBytes [0xfd] 3, .push false] = some s ∧
        s.bits[3]? = some false ∧ (s.value.get 3 : Outcome Empty (Option Bool)) = .ok (some true)) ∧
      ∃ values : List Bool, values.length = 2 ^ 64 - 1 ∧
        Permitted (step ⟨true, true, 64⟩) (Proper ⟨true, true, 64⟩) start [.push true, .extendFromIter values] ∧
        execute (step ⟨true, true, 64⟩) start [.push true, .extendFromIter values] = none := by
  obtain ⟨values, hlen⟩ : ∃ values : List Bool, values.length = 2 ^ 64 - 1 :=
    ⟨List.replicate (2 ^ 64 - 1) true, List.length_replicate⟩
  refine ⟨permitted_cons ⟨by decide, by decide, by decide⟩ rfl (permitted_cons trivial rfl trivial),
    ⟨_, _, rfl, rfl, ?_, by decide, by decide⟩, ⟨_, rfl, by decide, by decide⟩, values, hlen,
    permitted_cons trivial rfl ⟨?_, fun _ _ => trivial⟩, ?_⟩
  · intro hpadding
    have hbit := hpadding 3 (by decide)
    revert hbit
    decide
  · show values.length < 2 ^ 64
    omega
  · have hpush : ∃ s, step ⟨true, true, 64⟩ start (.push true) = some s ∧ s.value.len = 1 := ⟨_, rfl, rfl⟩
    obtain ⟨s, hpush, hone⟩ := hpush
    rw [execute, hpush, Option.bind_some, execute, step, append, extendFromIterUsize, extendFromSliceUsize, hone, hlen,
      usizeSum, if_pos rfl, usizeAdd, if_neg (by decide)]
    rfl

end Appended

end InfusedModbus.ProtocolCore.BitValues
