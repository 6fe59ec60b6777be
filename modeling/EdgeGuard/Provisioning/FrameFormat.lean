import EdgeGuard.Provisioning.Protocol

/-!
# The frame format

A frame is a header of 32 bytes and a fragment.  `encodeFrame` writes it as a peer
does; `egp_protocol_accept` takes the values that this writes of well-formed frames,
and no other.

## Main results

* `parseFrame_iff` — a value is taken as a frame exactly when it is the encoding of
  that frame and the frame is well formed.
-/

namespace EdgeGuard.Provisioning.FrameFormat

open EdgeGuard.Base.CText
open EdgeGuard.Provisioning.Model EdgeGuard.Provisioning.Protocol

/-! ## Frames as bytes -/

/-- Two bytes, the higher one first. -/
def be16 (n : Nat) : Bytes := [(n / 256).toUInt8, n.toUInt8]

/-- The byte of the flags START and END. -/
def flagsByte (start finish : Bool) : UInt8 := (start.toNat + 2 * finish.toNat).toUInt8

/-- What stands before the transaction identifier. -/
def headerFront (f : Frame) : Bytes :=
  ascii "EGP1" ++ [egpProtocolVersion, f.opcode, flagsByte f.start f.finish, 0]

/-- What stands between the transaction identifier and the fragment. -/
def headerBack (f : Frame) : Bytes :=
  be16 f.total ++ be16 f.offset ++ be16 f.fragment.length ++ [0, 0]

/-- The value that spells a frame. -/
def encodeFrame (f : Frame) : Bytes :=
  headerFront f ++ (f.transactionId.1 ++ (headerBack f ++ f.fragment))

/-- A frame that may be sent on a characteristic. -/
structure WellFormed (c : EgpWritableCharacteristic) (f : Frame) : Prop where
  opcode : opcodeAllowed c f.opcode = true
  total : f.total ≤ egpProtocolMaxJson
  fits : f.offset + f.fragment.length ≤ f.total
  id : transactionIdNonzero f.transactionId.1 = true
  start : f.start = true → f.offset = 0
  finish : f.finish = true → f.offset + f.fragment.length = f.total

/-! ## Numbers and flags -/

theorem readBe16_be16 {n : Nat} (h : n < 2 ^ 16) (rest : Bytes) :
    readBe16 (be16 n ++ rest) 0 = n := by
  have hhigh : ((n / 256).toUInt8).toNat = n / 256 := by
    rw [Nat.toUInt8, UInt8.toNat_ofNat']
    omega
  have hlow : (n.toUInt8).toNat = n % 256 := by
    rw [Nat.toUInt8, UInt8.toNat_ofNat']
  show ((n / 256).toUInt8).toNat * 256 + (n.toUInt8).toNat = n
  rw [hhigh, hlow]
  omega

theorem be16_bytes (high low : UInt8) : be16 (high.toNat * 256 + low.toNat) = [high, low] := by
  have hlow := low.toNat_lt
  have hdiv : (high.toNat * 256 + low.toNat) / 256 = high.toNat := by omega
  have hmod : (high.toNat * 256 + low.toNat).toUInt8 = low := by
    apply UInt8.toNat_inj.mp
    rw [Nat.toUInt8, UInt8.toNat_ofNat']
    omega
  rw [be16, hdiv, hmod]
  simp [Nat.toUInt8]

theorem flagsByte_bits : ∀ n < 4, flagsByte (n.testBit 0) (n.testBit 1) = n.toUInt8 := by decide

theorem flagsByte_of_lt {b : UInt8} (h : b.toNat < 4) :
    flagsByte (b.toNat.testBit 0) (b.toNat.testBit 1) = b := by
  rw [flagsByte_bits _ h]
  simp [Nat.toUInt8]

theorem flagsByte_lt (start finish : Bool) : (flagsByte start finish).toNat < 4 := by
  cases start <;> cases finish <;> decide

theorem flagsByte_start (start finish : Bool) :
    (flagsByte start finish).toNat.testBit 0 = start := by
  cases start <;> cases finish <;> decide

theorem flagsByte_finish (start finish : Bool) :
    (flagsByte start finish).toNat.testBit 1 = finish := by
  cases start <;> cases finish <;> decide

/-! ## The places of the header -/

theorem length_headerFront (f : Frame) : (headerFront f).length = 8 := rfl

theorem length_headerBack (f : Frame) : (headerBack f).length = 8 := rfl

theorem length_encodeFrame (f : Frame) :
    (encodeFrame f).length = egpFrameHeaderBytes + f.fragment.length := by
  have hid := f.transactionId.2
  simp only [encodeFrame, List.length_append, length_headerFront, length_headerBack, hid,
    egpFrameHeaderBytes]
  omega

theorem getD_append_length (front rest : Bytes) {n : Nat} (h : front.length = n) (k : Nat) :
    (front ++ rest).getD (n + k) 0 = rest.getD k 0 := by
  rw [List.getD_eq_getElem?_getD, List.getElem?_append_right (h ▸ Nat.le_add_right _ _), h,
    Nat.add_sub_cancel_left, ← List.getD_eq_getElem?_getD]

/-- A place behind the transaction identifier. -/
theorem getD_encodeFrame (f : Frame) (k : Nat) :
    (encodeFrame f).getD (24 + k) 0 = (headerBack f ++ f.fragment).getD k 0 := by
  rw [show 24 + k = 8 + (16 + k) from by omega, encodeFrame,
    getD_append_length _ _ (length_headerFront f), getD_append_length _ _ f.transactionId.2]

theorem readBe16_encodeFrame (f : Frame) (k : Nat) :
    readBe16 (encodeFrame f) (24 + k) = readBe16 (headerBack f ++ f.fragment) k := by
  unfold readBe16
  rw [getD_encodeFrame, Nat.add_assoc, getD_encodeFrame]

/-- The fields of an encoded frame are the ones it was made of. -/
theorem frameOf_encodeFrame {f : Frame} (htotal : f.total < 2 ^ 16) (hoffset : f.offset < 2 ^ 16)
    (h : egpFrameHeaderBytes ≤ (encodeFrame f).length) : frameOf (encodeFrame f) h = f := by
  have hid : ((encodeFrame f).drop 8).take 16 = f.transactionId.1 := by
    show (f.transactionId.1 ++ (headerBack f ++ f.fragment)).take 16 = f.transactionId.1
    exact List.take_left' f.transactionId.2
  have hfragment : (encodeFrame f).drop egpFrameHeaderBytes = f.fragment := by
    show ((f.transactionId.1 ++ (headerBack f ++ f.fragment)).drop 24) = f.fragment
    rw [← List.append_assoc]
    exact List.drop_left' (by
      rw [List.length_append, f.transactionId.2, length_headerBack])
  have htotal : readBe16 (encodeFrame f) 24 = f.total :=
    (readBe16_encodeFrame f 0).trans (readBe16_be16 htotal [])
  have hoffset : readBe16 (encodeFrame f) 26 = f.offset :=
    (readBe16_encodeFrame f 2).trans (readBe16_be16 hoffset [])
  have hstart : ((encodeFrame f).getD 6 0).toNat.testBit 0 = f.start :=
    flagsByte_start f.start f.finish
  have hfinish : ((encodeFrame f).getD 6 0).toNat.testBit 1 = f.finish :=
    flagsByte_finish f.start f.finish
  unfold frameOf
  simp only [hid, hfragment, htotal, hoffset, hstart, hfinish]
  rfl

theorem drop_cons_getD {value : Bytes} {n : Nat} (h : n < value.length) :
    value.drop n = value.getD n 0 :: value.drop (n + 1) := by
  rw [List.drop_eq_getElem_cons h, List.getD_eq_getElem?_getD, List.getElem?_eq_getElem h]
  rfl

theorem drop_pair {value : Bytes} {n : Nat} (h : n + 1 < value.length) :
    value.drop n = be16 (readBe16 value n) ++ value.drop (n + 2) := by
  rw [drop_cons_getD (Nat.lt_of_succ_lt h), drop_cons_getD h, readBe16, be16_bytes]
  rfl

/-- A value with the fixed bytes in their places is the encoding of its frame. -/
theorem encodeFrame_frameOf {value : Bytes} (h : egpFrameHeaderBytes ≤ value.length)
    (hmagic : value.take 4 = ascii "EGP1") (hversion : value.getD 4 0 = egpProtocolVersion)
    (hflags : (value.getD 6 0).toNat < 4) (hreserved : value.getD 7 0 = 0)
    (hzero : value.getD 30 0 = 0) (hzero' : value.getD 31 0 = 0)
    (hlength : readBe16 value 28 = (value.drop egpFrameHeaderBytes).length) :
    encodeFrame (frameOf value h) = value := by
  have hlong : 32 ≤ value.length := h
  have hfirst : value.drop 4 =
      value.getD 4 0 :: value.getD 5 0 :: value.getD 6 0 :: value.getD 7 0 :: value.drop 8 := by
    rw [drop_cons_getD (by omega), drop_cons_getD (by omega), drop_cons_getD (by omega),
      drop_cons_getD (by omega)]
  have hid : value.drop 8 = (value.drop 8).take 16 ++ value.drop 24 := by
    conv_lhs => rw [← List.take_append_drop 16 (value.drop 8), List.drop_drop]
  have hback : value.drop 24 = be16 (readBe16 value 24) ++ (be16 (readBe16 value 26) ++
      (be16 (readBe16 value 28) ++ value.getD 30 0 :: value.getD 31 0 :: value.drop 32)) := by
    rw [drop_pair (by omega), drop_pair (by omega), drop_pair (by omega),
      drop_cons_getD (by omega), drop_cons_getD (by omega)]
  have hflags : flagsByte (frameOf value h).start (frameOf value h).finish = value.getD 6 0 :=
    flagsByte_of_lt hflags
  conv_rhs =>
    rw [← List.take_append_drop 4 value, hfirst, hid, hback, hmagic, hversion, hreserved, hzero,
      hzero', hlength]
  unfold encodeFrame headerFront headerBack
  rw [hflags]
  rfl

/-! ## Acceptance -/

/-- What is taken as a frame is a well-formed one, written out. -/
theorem parseFrame_spelled {c : EgpWritableCharacteristic} {value : Bytes} {f : Frame}
    (h : parseFrame c value = .ok f) : WellFormed c f ∧ value = encodeFrame f := by
  unfold parseFrame at h
  split at h
  · rename_i hlong
    simp only at h
    split at h
    · cases h
    · split at h
      · cases h
      · split at h
        · cases h
        · split at h
          · cases h
          · rename_i hmagic hflags htotal hfits
            cases h
            simp only [Bool.or_eq_true, bne_iff_ne, decide_eq_true_eq, Bool.not_eq_true',
              Bool.and_eq_true, not_or, not_and, Decidable.not_not, Bool.not_eq_false] at *
            obtain ⟨⟨⟨⟨hflags, hreserved⟩, hzero⟩, hzero'⟩, hopcode⟩ := hflags
            obtain ⟨⟨⟨⟨⟨hlength, hoffset⟩, hroom⟩, hid⟩, hstart⟩, hfinish⟩ := hfits
            refine ⟨⟨hopcode, by omega, by omega, hid, hstart, hfinish⟩, ?_⟩
            exact (encodeFrame_frameOf hlong hmagic.1 hmagic.2 (by omega) hreserved hzero
              hzero' hlength).symm
  · cases h

/-- A well-formed frame is read back. -/
theorem parseFrame_encodeFrame {c : EgpWritableCharacteristic} {f : Frame} (hf : WellFormed c f) :
    parseFrame c (encodeFrame f) = .ok f := by
  have hsmall : egpProtocolMaxJson < 2 ^ 16 := by decide
  have htotal := hf.total
  have hfits := hf.fits
  have hlong : egpFrameHeaderBytes ≤ (encodeFrame f).length := by
    rw [length_encodeFrame]
    exact Nat.le_add_right _ _
  have hframe : frameOf (encodeFrame f) hlong = f :=
    frameOf_encodeFrame (by omega) (by omega) hlong
  have hlength : readBe16 (encodeFrame f) 28 = f.fragment.length :=
    (readBe16_encodeFrame f 4).trans (readBe16_be16 (by omega) [])
  have hmagic : (encodeFrame f).take 4 = ascii "EGP1" := rfl
  have hversion : (encodeFrame f).getD 4 0 = egpProtocolVersion := rfl
  have hflags : ((encodeFrame f).getD 6 0).toNat < 4 := flagsByte_lt f.start f.finish
  have hreserved : (encodeFrame f).getD 7 0 = 0 := rfl
  have hzero : (encodeFrame f).getD 30 0 = 0 := getD_encodeFrame f 6
  have hzero' : (encodeFrame f).getD 31 0 = 0 := getD_encodeFrame f 7
  unfold parseFrame
  rw [dif_pos hlong]
  simp only [hframe, hmagic, hversion, hreserved, hzero, hzero', hlength]
  rw [if_neg (by simp), if_neg (by simp only [hf.opcode, Nat.not_le.mpr hflags]; decide),
    if_neg (by omega), if_neg]
  simp only [Bool.or_eq_true, bne_iff_ne, decide_eq_true_eq, Bool.not_eq_true',
    Bool.and_eq_true, not_or, not_and, Decidable.not_not, Bool.not_eq_false]
  exact ⟨⟨⟨⟨⟨trivial, by omega⟩, by omega⟩, hf.id⟩, hf.start⟩, hf.finish⟩

/-- A value is taken as a frame exactly when it is what the frame is written as, and
the frame may be sent on the characteristic. -/
theorem parseFrame_iff (c : EgpWritableCharacteristic) (value : Bytes) (f : Frame) :
    parseFrame c value = .ok f ↔ WellFormed c f ∧ value = encodeFrame f := by
  constructor
  · intro h
    exact parseFrame_spelled h
  · rintro ⟨hf, rfl⟩
    exact parseFrame_encodeFrame hf

end EdgeGuard.Provisioning.FrameFormat
