import Mathlib
import TauTerm.Trdp.StreamDecoder

/-!
# Captures without a panic

Whatever lengths a frame or a file claims, no sum overflows and no index or range is outside of
the bytes there are.
-/

namespace TauTerm.Trdp.Capture

open Lib Lib.Checked

/-- One past the length of the longest slice. -/
def SLICE_LIMIT : Nat := 2 ^ 63

section Bytes

variable {data : List UInt8} {offset : Nat}

theorem ensures_be16 (hdata : data.length < SLICE_LIMIT) (hoffset : offset < WORD) :
    (be16 data offset).Ensures fun r => r.isSome → offset + 2 ≤ data.length := by
  have hword : data.length < WORD := hdata.trans (by decide)
  rw [be16, readWord_eq hword hoffset, ok_bind]
  change Option.isSome _ → _
  rw [Option.isSome_map, Trdp.readWord]
  split
  · rename_i hlen
    rw [List.length_take, List.length_drop] at hlen
    omega
  · exact fun h => absurd h (by decide)

theorem ensures_be32 (hdata : data.length < SLICE_LIMIT) (hoffset : offset < WORD) :
    (be32 data offset).Ensures fun _ => True := by
  have hword : data.length < WORD := hdata.trans (by decide)
  rw [be32, readWord_eq hword hoffset, ok_bind]
  exact trivial

theorem high_lt (byte : UInt8) : (byte >>> 4).toNat < 16 := by
  have := byte.toNat_lt
  rw [UInt8.toNat_shiftRight, Nat.shiftRight_eq_div_pow]
  change byte.toNat / 2 ^ 4 < 16
  omega

theorem low_lt (byte : UInt8) : (byte &&& 0x0F).toNat < 16 := by
  rw [UInt8.toNat_and]
  exact Nat.lt_succ_of_le Nat.and_le_right

theorem ensures_hex (data : List UInt8) : (hex data).Ensures fun _ => True := by
  induction data with
  | nil => exact trivial
  | cons byte data ih =>
    refine (ensures_index (high_lt byte)).bind fun high _ => ?_
    refine (ensures_index (low_lt byte)).bind fun low _ => ?_
    exact ih.bind fun _ _ => trivial

theorem ensures_ipv4 (hdata : 4 ≤ data.length) : (ipv4 data).Ensures fun _ => True := by
  refine (ensures_index (by omega)).bind fun a _ => ?_
  refine (ensures_index (by omega)).bind fun b _ => ?_
  refine (ensures_index (by omega)).bind fun c _ => ?_
  exact (ensures_index (by omega)).bind fun d _ => trivial

theorem ensures_indices {is : List Nat} (h : ∀ i ∈ is, i < data.length) :
    (indices data is).Ensures fun _ => True := by
  induction is with
  | nil => exact trivial
  | cons i is ih =>
    refine (ensures_index (h i List.mem_cons_self)).bind fun byte _ => ?_
    exact (ih fun j hj => h j (List.mem_cons_of_mem _ hj)).bind fun _ _ => trivial

theorem length_getRange {start stop : Nat} {part : List UInt8}
    (h : getRange data start stop = some part) : part.length = stop - start := by
  unfold getRange at h
  split at h
  · cases h
    rw [List.length_drop, List.length_take]
    omega
  · cases h

theorem ensures_uuidText (data : List UInt8) : (uuidText data).Ensures fun _ => True := by
  refine (ensures_of_eq rfl).letSome trivial fun bytes hbytes => ?_
  have hlen := length_getRange hbytes.symm
  refine (ensures_indices fun i hi => ?_).bind fun _ _ => trivial
  rw [hlen]
  exact List.mem_range.mp hi

theorem ensures_fixedText (data : List UInt8) : (fixedText data).Ensures fun _ => True :=
  (ensures_slice (Nat.zero_le _) List.findIdx_le_length).bind fun _ _ => trivial

end Bytes

section Telegrams

variable {trdp : List UInt8}

theorem ensures_validType (first : UInt8) (second trdp : List UInt8) :
    (validType first second trdp).Ensures fun _ => True := by
  unfold validType
  split
  · refine (ensures_index (by omega)).bind fun kind _ => ?_
    split
    · exact (ensures_index (by omega)).bind fun _ _ => trivial
    · exact trivial
  · exact trivial

theorem ensures_trdpHeaderLength (trdp : List UInt8) :
    (trdpHeaderLength trdp).Ensures fun r => ∀ n, r = some n → n = 116 ∨ n = 40 := by
  refine (ensures_validType _ _ trdp).bind fun isMd _ => ?_
  split
  · rintro n ⟨⟩
    exact .inl rfl
  · refine (ensures_validType _ _ trdp).bind fun isPd _ => ?_
    split
    · rintro n ⟨⟩
      exact .inr rfl
    · rintro n ⟨⟩

theorem ensures_mdFields (htrdp : trdp.length < SLICE_LIMIT) :
    (mdFields trdp).Ensures fun _ => True := by
  refine (ensures_be32 htrdp (by decide)).letSome trivial fun status _ => ?_
  refine (ensures_be32 htrdp (by decide)).bind fun timeout _ => ?_
  refine (ensures_of_eq rfl).letSome trivial fun session _ => ?_
  refine (ensures_uuidText session).bind fun _ _ => ?_
  refine (ensures_of_eq rfl).letSome trivial fun source _ => ?_
  refine (ensures_fixedText source).bind fun _ _ => ?_
  refine (ensures_of_eq rfl).letSome trivial fun destination _ => ?_
  exact (ensures_fixedText destination).bind fun _ _ => trivial

theorem ensures_decodeTrdpPayload (htrdp : trdp.length < SLICE_LIMIT) (origin : PacketOrigin)
    (allowTruncatedData : Bool) :
    (decodeTrdpPayload trdp origin allowTruncatedData).Ensures fun _ => True := by
  refine (ensures_trdpHeaderLength trdp).letSome trivial fun headerLength hlength => ?_
  have hheader := hlength headerLength rfl
  have hword : WORD = 2 ^ 64 := rfl
  split
  · exact trivial
  refine (ensures_be32 htrdp (by decide)).letSome trivial fun seqCount _ => ?_
  refine (ensures_be16 htrdp (by decide)).letSome trivial fun protocolVersion _ => ?_
  refine (ensures_of_eq rfl).letSome trivial fun kind _ => ?_
  refine (ensures_be32 htrdp (by decide)).letSome trivial fun comId _ => ?_
  refine (ensures_be32 htrdp (by decide)).letSome trivial fun etbTopoCount _ => ?_
  refine (ensures_be32 htrdp (by decide)).letSome trivial fun opTrnTopoCount _ => ?_
  refine (ensures_be32 htrdp (by decide)).letSome trivial fun dataLen _ => ?_
  refine (ensures_sub (by omega)).bind fun fcsOffset hfcs => ?_
  refine (ensures_add (by omega)).bind fun fcsEnd _ => ?_
  refine (ensures_of_eq rfl).letSome trivial fun fcs _ => ?_
  refine (ensures_of_eq rfl).letSome trivial fun covered _ => ?_
  dsimp only
  generalize (if headerLength + dataLen.toNat < WORD then some (headerLength + dataLen.toNat) else none) =
    declaredEnd
  split
  · exact trivial
  have hmd : (if (fromUtf8Lossy kind).head? = some 'M' then mdFields trdp
      else .ok (some noMdFields)).Ensures fun _ => True := by
    split
    · exact ensures_mdFields htrdp
    · exact trivial
  refine hmd.letSome trivial fun md _ => ?_
  exact (ensures_hex _).bind fun _ _ => trivial

end Telegrams

section Frames

variable {frame : List UInt8}

theorem ensures_cookedOffset (hframe : frame.length < SLICE_LIMIT) {length typeOffset : Nat}
    (htype : typeOffset < WORD) :
    (cookedOffset frame length typeOffset).Ensures fun r => ∀ ip, r = some ip → ip ≤ frame.length := by
  unfold cookedOffset
  split
  · refine (ensures_be16 hframe htype).letSome (fun ip h => nomatch h) fun protocol _ => ?_
    intro ip hip
    split at hip <;> cases hip
    assumption
  · intro ip hip
    cases hip

/-- The VLAN tags lie in the frame, each behind the other. -/
theorem ensures_vlan (hframe : frame.length < SLICE_LIMIT) (etherType : UInt16)
    (hstart : 14 ≤ frame.length) :
    (loop (vlanTurn frame) (frame.length + 1) (etherType, 14)).Ensures fun r =>
      ∀ ip, r = some ip → ip ≤ frame.length := by
  have hlimit : SLICE_LIMIT = 2 ^ 63 := rfl
  have hword : WORD = 2 ^ 64 := rfl
  refine ensures_loop (I := fun state : UInt16 × Nat => state.2 ≤ frame.length)
    (fun state : UInt16 × Nat => frame.length - state.2) ?_ hstart (by dsimp only; omega)
  rintro ⟨etherType, offset⟩ (hoffset : offset ≤ frame.length)
  unfold vlanTurn
  dsimp only
  split
  · refine (ensures_add (by omega)).bind fun position hposition => ?_
    subst hposition
    refine (ensures_be16 hframe (by omega)).letSome (fun ip h => nomatch h) fun next hnext => ?_
    have hle : offset + 2 + 2 ≤ frame.length := hnext rfl
    refine (ensures_add (by omega)).bind fun offset' hoffset' => ?_
    subst hoffset'
    exact ⟨hle, by dsimp only; omega⟩
  · intro ip hip
    split at hip <;> cases hip
    exact hoffset

theorem ensures_networkOffset (hframe : frame.length < SLICE_LIMIT) (linktype : UInt32) :
    (networkOffset frame linktype).Ensures fun r => ∀ ip, r = some ip → ip ≤ frame.length := by
  unfold networkOffset
  split
  · refine (ensures_be16 hframe (by decide)).letSome (fun ip h => nomatch h) fun etherType hether => ?_
    exact ensures_vlan hframe etherType (hether rfl)
  split
  · exact ensures_cookedOffset hframe (by decide)
  split
  · exact ensures_cookedOffset hframe (by decide)
  split
  · intro ip hip
    split at hip
    · cases hip
      rename_i h
      have : 5 ≤ frame.length := by simp at h; exact h.1
      omega
    · cases hip
  split
  · intro ip hip
    split at hip <;> cases hip
    exact Nat.zero_le _
  · intro ip hip
    cases hip

variable {context : IpFrame}

/-- The packet of a frame lies in it. -/
structure IpFrame.Inside (context : IpFrame) : Prop where
  frame : context.frame.length < SLICE_LIMIT
  stop : context.ipEnd ≤ context.frame.length
  transport : context.transportOffset < SLICE_LIMIT + 64

theorem ensures_feedUdp (ports : CapturePorts) (h : context.Inside) :
    (feedUdp ports context).Ensures fun _ => True := by
  have hframe := h.frame
  have hstop := h.stop
  have htransport := h.transport
  have hlimit : SLICE_LIMIT = 2 ^ 63 := rfl
  have hword : WORD = 2 ^ 64 := rfl
  refine (ensures_add (by omega)).bind fun headerEnd _ => ?_
  split
  · exact trivial
  refine (ensures_be16 hframe (by omega)).letSome trivial fun sourcePort _ => ?_
  refine (ensures_add (by omega)).bind fun destinationAt hdestination => ?_
  refine (ensures_be16 hframe (by omega)).letSome trivial fun destinationPort _ => ?_
  refine (ensures_add (by omega)).bind fun lengthAt hlength => ?_
  refine (ensures_be16 hframe (by omega)).letSome trivial fun udpLength _ => ?_
  have hudp : udpLength.toNat < 2 ^ 16 := udpLength.toNat_lt
  split
  · exact trivial
  split
  · exact trivial
  rename_i hshort
  refine (ensures_add (by omega)).bind fun packetEnd hpacket => ?_
  split
  · exact trivial
  rename_i hinside
  refine (ensures_add (by omega)).bind fun payloadStart hstart => ?_
  refine (ensures_add (by omega)).bind fun payloadEnd hend => ?_
  refine (ensures_slice (by omega) (by omega)).bind fun payload hpayload => ?_
  refine (ensures_decodeTrdpPayload (by omega) _ true).letSome trivial fun packet _ => ?_
  exact trivial

theorem ensures_tcpSegment (ports : CapturePorts) (h : context.Inside) :
    (tcpSegment ports context).Ensures fun r =>
      ∀ segment, r = some segment → segment.payload.length < SLICE_LIMIT := by
  have hframe := h.frame
  have hstop := h.stop
  have htransport := h.transport
  have hlimit : SLICE_LIMIT = 2 ^ 63 := rfl
  have hword : WORD = 2 ^ 64 := rfl
  have hnone : ∀ segment : Segment, none = some segment → segment.payload.length < SLICE_LIMIT :=
    fun _ h => nomatch h
  refine (ensures_add (by omega)).bind fun headerEnd hheader => ?_
  split
  · exact hnone
  refine (ensures_be16 hframe (by omega)).letSome hnone fun sourcePort _ => ?_
  refine (ensures_add (by omega)).bind fun destinationAt hdestination => ?_
  refine (ensures_be16 hframe (by omega)).letSome hnone fun destinationPort _ => ?_
  split
  · exact hnone
  refine (ensures_add (by omega)).bind fun offsetAt hoffset => ?_
  refine (ensures_index (by omega)).bind fun offsetByte _ => ?_
  have hbyte := high_lt offsetByte
  refine (ensures_mul (by omega)).bind fun headerLength hlength => ?_
  split
  · exact hnone
  refine (ensures_add (by omega)).bind fun payloadStart hstart => ?_
  split
  · exact hnone
  refine (ensures_add (by omega)).bind fun sequenceAt hsequence => ?_
  refine (ensures_be32 hframe (by omega)).letSome hnone fun sequence _ => ?_
  refine (ensures_add (by omega)).bind fun flagsAt hflags => ?_
  refine (ensures_index (by omega)).bind fun flags _ => ?_
  refine (ensures_add (by omega)).bind fun start hstart' => ?_
  refine (ensures_slice (by omega) (by omega)).bind fun payload hpayload => ?_
  rintro segment ⟨⟩
  change payload.length < SLICE_LIMIT
  omega

end Frames

section Tcp

theorem TcpFlow.length_trim (flow : TcpFlow) (payloadSequence : UInt32) (length : Nat) :
    (flow.trim payloadSequence length).1.buffer.length ≤ flow.buffer.length := by
  unfold TcpFlow.trim
  dsimp only
  split_ifs
  · exact Nat.zero_le _
  all_goals exact le_rfl

theorem ensures_lastBytes (append : List UInt8) (remaining : Nat) :
    (lastBytes append remaining).Ensures fun last => last.length ≤ remaining := by
  unfold lastBytes
  split
  · refine (ensures_sub (by omega)).bind fun start hstart => ?_
    refine (ensures_slice (by omega) le_rfl).mono fun last hlast => ?_
    omega
  · exact ensures_ok (by omega)

/-- A buffer does not grow beyond its limit. -/
theorem ensures_append (flow : TcpFlow) (payloadSequence : UInt32) (payload : List UInt8) :
    (flow.append payloadSequence payload).Ensures fun flow' =>
      flow'.buffer.length ≤ max flow.buffer.length TCP_BUFFER_CAP := by
  unfold TcpFlow.append
  split
  · exact le_max_left _ _
  have htrim := flow.length_trim payloadSequence payload.length
  generalize flow.trim payloadSequence payload.length = trimmed at htrim ⊢
  obtain ⟨flow', trim⟩ := trimmed
  dsimp only at htrim ⊢
  split
  · rename_i hlt
    refine (ensures_slice hlt.le le_rfl).bind fun append happend => ?_
    generalize hbuffer : (if saturate (flow'.buffer.length + append.length) > TCP_BUFFER_CAP then []
      else flow'.buffer) = buffer
    have hle : buffer.length ≤ flow.buffer.length := by
      rw [← hbuffer]
      split
      · exact Nat.zero_le _
      · exact htrim
    refine (ensures_lastBytes append _).bind fun last hlength => ?_
    change (buffer ++ last).length ≤ _
    rw [List.length_append]
    omega
  · exact htrim.trans (le_max_left _ _)

theorem ensures_findMd {buffer : List UInt8} {offsets : List Nat}
    (h : ∀ offset ∈ offsets, offset ≤ buffer.length) :
    (findMd buffer offsets).Ensures fun r => ∀ offset, r = some offset → offset ∈ offsets := by
  induction offsets with
  | nil =>
    rintro offset ⟨⟩
  | cons offset offsets ih =>
    refine (ensures_slice (h offset List.mem_cons_self) le_rfl).bind fun tail _ => ?_
    refine (ensures_validType _ _ tail).bind fun found _ => ?_
    split
    · rintro offset' ⟨⟩
      exact List.mem_cons_self
    · refine (ih fun other hother => h other (List.mem_cons_of_mem _ hother)).mono fun r hr other hother => ?_
      exact List.mem_cons_of_mem _ (hr other hother)

/-- A turn ends the loop, or takes a telegram from the buffer. -/
theorem ensures_mdTurn (origin : PacketOrigin) {buffer : List UInt8}
    (hbuffer : buffer.length < SLICE_LIMIT) (packets : List TrdpPacket) :
    (mdTurn origin (buffer, packets)).Ensures
      (Sum.elim (fun state => state.1.length < buffer.length)
        fun state => state.1.length ≤ buffer.length) := by
  have hlimit : SLICE_LIMIT = 2 ^ 63 := rfl
  have hword : WORD = 2 ^ 64 := rfl
  unfold mdTurn
  dsimp only
  refine (ensures_findMd fun offset hoffset => ?_).bind fun found hfound => ?_
  · have := List.mem_range.mp hoffset
    omega
  cases found with
  | none =>
    dsimp only
    split
    · refine (ensures_sub (by omega)).bind fun start hstart => ?_
      refine (ensures_slice (by omega) le_rfl).bind fun keep hkeep => ?_
      change keep.length ≤ buffer.length
      omega
    · exact le_refl buffer.length
  | some start =>
    have hstart := List.mem_range.mp (hfound start rfl)
    dsimp only
    refine (ensures_slice (by omega) le_rfl).bind fun rest hrest => ?_
    have hle : rest.length ≤ buffer.length := by omega
    split
    · exact hle
    refine (ensures_be32 (by omega) (by decide)).letSome hle fun dataLength _ => ?_
    split
    · exact Nat.zero_le buffer.length
    split
    · exact hle
    have htotal : saturate (116 + dataLength.toNat) = 116 + dataLength.toNat := by
      have := dataLength.toNat_lt
      exact Nat.min_eq_left (by omega)
    refine (ensures_slice (Nat.zero_le _) (by omega)).bind fun telegram htelegram => ?_
    refine (ensures_slice (by omega) le_rfl).bind fun more hmore => ?_
    refine (ensures_decodeTrdpPayload (by omega) origin true).bind fun packet _ => ?_
    change more.length < buffer.length
    omega

theorem ensures_mdLoop (origin : PacketOrigin) {buffer : List UInt8}
    (hbuffer : buffer.length < SLICE_LIMIT) :
    (loop (mdTurn origin) (buffer.length + 1) (buffer, [])).Ensures fun state =>
      state.1.length < SLICE_LIMIT := by
  refine ensures_loop (I := fun state : List UInt8 × List TrdpPacket => state.1.length < SLICE_LIMIT)
    (fun state : List UInt8 × List TrdpPacket => state.1.length) ?_ hbuffer (Nat.lt_succ_self _)
  rintro ⟨buffer, packets⟩ hbuffer
  refine (ensures_mdTurn origin hbuffer packets).mono fun next hnext => ?_
  cases next with
  | inl state => exact ⟨hnext.trans hbuffer, hnext⟩
  | inr state => exact hnext.trans_lt hbuffer

/-- The buffers of a decoder are vectors. -/
def TrdpStreamDecoder.Bounded (decoder : TrdpStreamDecoder) : Prop :=
  ∀ entry ∈ decoder.tcpFlows, entry.2.buffer.length < SLICE_LIMIT

variable {decoder : TrdpStreamDecoder}

theorem flow_mem {key : TcpFlowKey} {flow : TcpFlow} (h : decoder.flow key = some flow) :
    ∃ entry ∈ decoder.tcpFlows, entry.2 = flow := by
  obtain ⟨entry, hentry, rfl⟩ := Option.map_eq_some_iff.mp h
  exact ⟨entry, List.mem_of_find?_eq_some hentry, rfl⟩

theorem length_started (h : decoder.Bounded) (key : TcpFlowKey) (flags : UInt8)
    (payloadSequence : UInt32) :
    (decoder.started key flags payloadSequence).buffer.length < SLICE_LIMIT := by
  have hfound : ((decoder.flow key).getD ⟨0, false, []⟩).buffer.length < SLICE_LIMIT := by
    cases hflow : decoder.flow key with
    | none => decide
    | some flow =>
      obtain ⟨entry, hentry, rfl⟩ := flow_mem hflow
      exact h entry hentry
  unfold TrdpStreamDecoder.started
  dsimp only
  split_ifs <;> first | exact hfound | (change 0 < SLICE_LIMIT; decide)

theorem bounded_evict (h : decoder.Bounded) (key : TcpFlowKey) : (decoder.evict key).Bounded := by
  unfold TrdpStreamDecoder.evict
  split
  · exact fun entry hentry => h entry (List.mem_of_mem_tail hentry)
  · exact h

theorem bounded_setFlow (h : decoder.Bounded) (key : TcpFlowKey) {flow : TcpFlow}
    (hflow : flow.buffer.length < SLICE_LIMIT) : (decoder.setFlow key flow).Bounded := by
  unfold TrdpStreamDecoder.setFlow
  split
  · intro entry hentry
    obtain hentry | hentry := List.mem_append.mp hentry
    · exact h entry hentry
    · rw [List.mem_singleton.mp hentry]
      exact hflow
  · intro entry hentry
    obtain ⟨old, hold, rfl⟩ := List.mem_map.mp hentry
    split
    · exact hflow
    · exact h old hold

theorem bounded_removeFlow (h : decoder.Bounded) (key : TcpFlowKey) :
    (decoder.removeFlow key).Bounded :=
  fun entry hentry => h entry (List.mem_filter.mp hentry).1

theorem ensures_feedTcp (hdecoder : decoder.Bounded) {context : IpFrame} (h : context.Inside) :
    (decoder.feedTcp context).Ensures fun r => r.1.Bounded := by
  refine (ensures_tcpSegment decoder.ports h).letSome hdecoder fun segment hsegment => ?_
  dsimp only
  generalize hkey : (⟨context.link, context.sourceIp, context.destinationIp, segment.sourcePort,
    segment.destinationPort⟩ : TcpFlowKey) = key
  have hevict := bounded_evict hdecoder key
  refine (ensures_append _ _ segment.payload).bind fun flow hflow => ?_
  have hbuffer : flow.buffer.length < SLICE_LIMIT :=
    hflow.trans_lt (max_lt (length_started hevict key _ _) (by decide))
  refine (ensures_mdLoop _ hbuffer).bind fun state hstate => ?_
  have hset := @bounded_setFlow _ hevict key { flow with buffer := state.1 } hstate
  change (if _ then _ else _ : TrdpStreamDecoder).Bounded
  split
  · exact bounded_removeFlow hset key
  · exact hset

theorem ensures_feedFrame (hdecoder : decoder.Bounded) {frame : List UInt8}
    (hframe : frame.length < SLICE_LIMIT) (linktype : UInt32) (timestampUs : UInt64)
    (link : List Char) :
    (decoder.feedFrame frame linktype timestampUs link).Ensures fun r => r.1.Bounded := by
  have hlimit : SLICE_LIMIT = 2 ^ 63 := rfl
  have hword : WORD = 2 ^ 64 := rfl
  refine (ensures_networkOffset hframe linktype).letSome hdecoder fun ip hip => ?_
  have hle : ip ≤ frame.length := hip ip rfl
  split
  · exact hdecoder
  rename_i hversion
  have hlt : ip < frame.length := by
    by_contra hge
    rw [List.getElem?_eq_none (not_lt.mp hge)] at hversion
    exact hversion (by decide)
  refine (ensures_index hlt).bind fun first _ => ?_
  have hfirst := low_lt first
  refine (ensures_mul (by omega)).bind ?_
  rintro _ rfl
  refine (ensures_add (by omega)).bind ?_
  rintro _ rfl
  refine (ensures_be16 hframe (by omega)).letSome hdecoder fun totalLength _ => ?_
  have htotal : totalLength.toNat < 2 ^ 16 := totalLength.toNat_lt
  dsimp only
  split
  · exact hdecoder
  split
  · exact hdecoder
  refine (ensures_add (by omega)).bind ?_
  rintro _ rfl
  split
  · exact hdecoder
  refine (ensures_add (by omega)).bind ?_
  rintro _ rfl
  refine (ensures_be16 hframe (by omega)).letSome hdecoder fun fragment _ => ?_
  split
  · exact hdecoder
  refine (ensures_add (by omega)).bind ?_
  rintro _ rfl
  refine (ensures_add (by omega)).bind ?_
  rintro _ rfl
  refine (ensures_add (by omega)).bind ?_
  rintro _ rfl
  refine (ensures_of_eq rfl).letSome hdecoder fun sourceBytes hsourceBytes => ?_
  refine (ensures_add (by omega)).bind ?_
  rintro _ rfl
  refine (ensures_add (by omega)).bind ?_
  rintro _ rfl
  refine (ensures_of_eq rfl).letSome hdecoder fun destinationBytes hdestinationBytes => ?_
  refine (ensures_add (by omega)).bind ?_
  rintro _ rfl
  refine (ensures_be32 hframe (by omega)).letSome hdecoder fun sourceIp _ => ?_
  refine (ensures_add (by omega)).bind ?_
  rintro _ rfl
  refine (ensures_be32 hframe (by omega)).letSome hdecoder fun destinationIp _ => ?_
  have hsourceLength := length_getRange hsourceBytes.symm
  have hdestinationLength := length_getRange hdestinationBytes.symm
  refine (ensures_ipv4 (by omega)).bind fun sourceText _ => ?_
  refine (ensures_ipv4 (by omega)).bind fun destinationText _ => ?_
  refine (ensures_add (by omega)).bind ?_
  rintro _ rfl
  refine (ensures_add (by omega)).bind ?_
  rintro _ rfl
  have hstop : ip + totalLength.toNat ≤ frame.length := by omega
  have htransport : ip + (first &&& 0x0F).toNat * 4 < SLICE_LIMIT + 64 := by omega
  split
  · exact (ensures_feedUdp decoder.ports ⟨hframe, hstop, htransport⟩).bind fun _ _ => hdecoder
  · exact ensures_feedTcp hdecoder ⟨hframe, hstop, htransport⟩
  · exact hdecoder

end Tcp

/-! ## Captures -/

def TrdpStreamDecoder.new (pdPorts mdPorts : List UInt16) : TrdpStreamDecoder := ⟨⟨pdPorts, mdPorts⟩, []⟩

/-- The frames of a capture, one after the other. -/
def feedFrames (decoder : TrdpStreamDecoder) : List StoredFrame → Op (TrdpStreamDecoder × List TrdpPacket)
  | [] => .ok (decoder, [])
  | raw :: frames => do
    let (decoder, packets) ← decoder.feedFrame raw.bytes raw.linkType raw.timestampUs raw.link
    let (decoder, more) ← feedFrames decoder frames
    .ok (decoder, packets ++ more)

theorem ensures_feedFrames {decoder : TrdpStreamDecoder} (hdecoder : decoder.Bounded)
    {frames : List StoredFrame} (hframes : ∀ raw ∈ frames, raw.bytes.length < SLICE_LIMIT) :
    (feedFrames decoder frames).Ensures fun r => r.1.Bounded := by
  induction frames generalizing decoder with
  | nil => exact hdecoder
  | cons raw frames ih =>
    refine (ensures_feedFrame hdecoder (hframes raw List.mem_cons_self) _ _ _).bind fun fed hfed => ?_
    refine (ih hfed fun other hother => hframes other (List.mem_cons_of_mem _ hother)).bind fun rest hrest => ?_
    exact hrest

/-- A run that ends, and in which nothing panics. -/
def Safe {ε α : Type} (x : Checked ε α) : Prop := x.Ensures fun _ => True

/-- The readers end on every file, with every turn of their loops taking something from it, and
neither they nor the decoder of the frames panics. -/
theorem captures_safe (chunk : Nat → Nat → Nat) (reader : List UInt8) (pdPorts mdPorts : List UInt16)
    (frames : List StoredFrame) (hframes : ∀ raw ∈ frames, raw.bytes.length < SLICE_LIMIT) :
    (∀ turns > reader.length, Safe (visitPcap chunk turns reader) ∧
        Safe (visitPcapng chunk turns reader)) ∧
      (∀ littleEndian nanoseconds linktype rest rest' visited visited',
        pcapTurn chunk littleEndian nanoseconds linktype (rest, visited) = .ok (.inl (rest', visited')) →
          rest'.length + 16 ≤ rest.length) ∧
      (∀ s s' rest rest' visited visited',
        pcapngTurn chunk (s, rest, visited) = .ok (.inl (s', rest', visited')) →
          rest'.length + 12 ≤ rest.length) ∧
      Safe (feedFrames (TrdpStreamDecoder.new pdPorts mdPorts) frames) := by
  refine ⟨fun turns hturns => ⟨ensures_visitPcap chunk hturns, ?_⟩, ?_, ?_, ?_⟩
  · rw [visitPcapng_eq chunk hturns]
    exact (ensures_lift _).mono fun _ _ => trivial
  · intro littleEndian nanoseconds linktype rest rest' visited visited' hturn
    have h := ensures_pcapTurn chunk littleEndian nanoseconds linktype rest visited
    rw [hturn] at h
    exact h
  · intro s s' rest rest' visited visited' hturn
    exact pcapngTurn_consumes chunk hturn
  · exact (ensures_feedFrames (fun _ hentry => absurd hentry List.not_mem_nil) hframes).mono fun _ _ => trivial

/-- A process data telegram of four bytes, in UDP and IPv4. -/
def telegram : List UInt8 :=
  [0x45, 0, 0, 72, 0, 0, 0, 0, 64, 17, 0, 0, 10, 0, 0, 1, 10, 0, 0, 2] ++
    [67, 72, 67, 72, 0, 52, 0, 0] ++
    [0, 0, 0, 1, 1, 0, 0x50, 0x64, 0, 0, 3, 232] ++ List.replicate 8 0 ++ [0, 0, 0, 4] ++
    List.replicate 12 0 ++ [197, 93, 64, 138] ++ [0, 0, 0, 7]

def pcapHeader : List UInt8 :=
  [0xD4, 0xC3, 0xB2, 0xA1, 2, 0, 4, 0] ++ List.replicate 8 0 ++ [0xFF, 0xFF, 0, 0, 101, 0, 0, 0]

def pcapRecord : List UInt8 := [1, 0, 0, 0, 2, 0, 0, 0, 72, 0, 0, 0, 72, 0, 0, 0] ++ telegram

def telegramFrame : StoredFrame := ⟨"capture".toList, 1000002, telegram, LINKTYPE_RAW⟩

/-- A capture with one telegram, which is read in pieces of seven bytes, and its frame. -/
theorem captures_safe_telegram :
    let chunk : Nat → Nat → Nat := fun _ _ => 7
    let fed := feedFrames (TrdpStreamDecoder.new [17224] [17225]) [telegramFrame]
    (Safe (visitPcap chunk 113 (pcapHeader ++ pcapRecord)) ∧
        Safe (visitPcapng chunk 113 (pcapHeader ++ pcapRecord))) ∧
      (visitPcap chunk 113 (pcapHeader ++ pcapRecord)).toOption =
        some [.sectionStart, .frame telegramFrame] ∧
      (∀ rest visited, pcapTurn chunk true false 101 (pcapRecord, []) = .ok (.inl (rest, visited)) →
        rest.length + 16 ≤ pcapRecord.length) ∧
      Safe fed ∧ fed.toOption.map (fun r => r.2.map (·.comId)) = some [1000] := by
  intro chunk fed
  obtain ⟨hreaders, hpcap, -, hfed⟩ := captures_safe chunk (pcapHeader ++ pcapRecord) [17224] [17225]
    [telegramFrame] (by decide)
  exact ⟨hreaders 113 (by decide), by decide, fun rest visited => hpcap _ _ _ _ rest [] visited,
    hfed, by decide⟩

end TauTerm.Trdp.Capture
