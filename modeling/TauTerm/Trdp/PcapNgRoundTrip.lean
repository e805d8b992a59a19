import Mathlib
import TauTerm.Trdp.PcapNg

/-!
# pcapng files, written and read back

The blocks that the writer makes are read one by one (`nextBlock_block`), an interface as the
options in its block say (`readInterface`) and a frame as one of the interfaces in front of it. The
length of a link name is cut to 16 bits in its option, and the index of an interface to 32 bits.
-/

namespace TauTerm.Trdp

open Lib

/-! ## Blocks -/

/-- A block of a type with a body. -/
def blockBytes (blockType : Nat) (body : List UInt8) : List UInt8 :=
  leBytes 4 blockType ++ (leBytes 4 (12 + body.length) ++ (body ++ leBytes 4 (12 + body.length)))

theorem length_blockBytes (blockType : Nat) (body : List UInt8) :
    (blockBytes blockType body).length = 12 + body.length := by
  simp only [blockBytes, List.length_append, length_leBytes]
  omega

theorem readWord_append {width : Nat} (front : List UInt8) (value : Nat) (rest : List UInt8)
    {offset : Nat} (hoffset : offset = front.length) :
    readWord width (front ++ (leBytes width value ++ rest)) offset true =
      some (value % 256 ^ width) := by
  have htake : ((front ++ (leBytes width value ++ rest)).drop offset).take width =
      leBytes width value := by
    rw [hoffset, List.drop_left, List.take_left' (length_leBytes width value)]
  unfold readWord
  simp only [htake, length_leBytes, if_true, ofLeBytes_leBytes]

section Block

variable {s : Section} {blockType : Nat} {body : List UInt8}

theorem readU32_length (rest : List UInt8) (hlen : 12 + body.length ≤ maxPcapngBlockBytes) :
    readU32 (leBytes 4 blockType ++ (leBytes 4 (12 + body.length) ++ rest)) 4 true =
      some (12 + body.length) := by
  rw [readU32, readWord_append _ _ _ (length_leBytes 4 blockType).symm]
  unfold maxPcapngBlockBytes at hlen
  rw [Nat.mod_eq_of_lt (by omega)]

theorem readExactOrEof_append {n : Nat} (bytes rest : List UInt8) (h : bytes.length = n) :
    readExactOrEof n (bytes ++ rest) = .ok (some (bytes, rest)) := by
  unfold readExactOrEof
  rw [if_pos (by rw [List.length_append]; omega), List.take_left' h, List.drop_left' h]

theorem readRest_block (hle : s.littleEndian = true) (hmod : body.length % 4 = 0)
    (hlen : 12 + body.length ≤ maxPcapngBlockBytes) (rest : List UInt8) :
    s.readRest (leBytes 4 blockType ++ leBytes 4 (12 + body.length))
        (body ++ (leBytes 4 (12 + body.length) ++ rest)) =
      .ok (blockBytes blockType body, rest) := by
  have hinitial : (leBytes 4 blockType ++ leBytes 4 (12 + body.length)).length = 8 := by simp
  have hmissing : Section.readMissing (12 + body.length)
      (leBytes 4 blockType ++ leBytes 4 (12 + body.length))
      (body ++ (leBytes 4 (12 + body.length) ++ rest)) =
        .ok (body ++ leBytes 4 (12 + body.length), rest) := by
    unfold Section.readMissing readOrError
    rw [if_pos (by omega), ← List.append_assoc, readExactOrEof_append _ _ (by simp; omega)]
    rfl
  have hcheck : Section.checkLength (12 + body.length) 8 = .ok () := by
    unfold Section.checkLength
    rw [if_neg (by omega), if_neg (by omega)]
  have htrailing : readU32 (leBytes 4 blockType ++ leBytes 4 (12 + body.length) ++
      (body ++ leBytes 4 (12 + body.length))) (12 + body.length - 4) true =
        some (12 + body.length) := by
    have h := @readWord_append 4 (leBytes 4 blockType ++ leBytes 4 (12 + body.length) ++ body)
        (12 + body.length) [] (12 + body.length - 4) (by simp; omega)
    rw [List.append_nil, List.append_assoc _ body] at h
    unfold maxPcapngBlockBytes at hlen
    rw [readU32, h, Nat.mod_eq_of_lt (by omega)]
  have hblock : leBytes 4 blockType ++ leBytes 4 (12 + body.length) ++
      (body ++ leBytes 4 (12 + body.length)) = blockBytes blockType body := List.append_assoc _ _ _
  unfold Section.readRest
  rw [hle, hinitial]
  have hinit := @readU32_length blockType _ [] hlen
  rw [List.append_nil] at hinit
  rw [hinit]
  simp only [okOr, Option.elim, ok_bind, hcheck, hmissing, htrailing]
  rw [if_neg (not_not.mpr rfl), hblock]

/-- A block is read to its end. -/
theorem nextBlock_block (hle : s.littleEndian = true) (hsection : s.haveSection = true)
    (htype : (leBytes 4 blockType) ≠ [0x0A, 0x0D, 0x0D, 0x0A]) (hmod : body.length % 4 = 0)
    (hlen : 12 + body.length ≤ maxPcapngBlockBytes) (rest : List UInt8) :
    s.nextBlock (blockBytes blockType body ++ rest) =
      (s.visitBlock (blockBytes blockType body)).map fun (s', records) =>
        some (s', records, rest) := by
  have hblock : blockBytes blockType body ++ rest =
      (leBytes 4 blockType ++ leBytes 4 (12 + body.length)) ++
        (body ++ (leBytes 4 (12 + body.length) ++ rest)) := by
    simp only [blockBytes, List.append_assoc]
  have hinitial : s.readInitial (leBytes 4 blockType ++ leBytes 4 (12 + body.length))
      (body ++ (leBytes 4 (12 + body.length) ++ rest)) =
        .ok (s, leBytes 4 blockType ++ leBytes 4 (12 + body.length),
          body ++ (leBytes 4 (12 + body.length) ++ rest)) := by
    unfold Section.readInitial
    rw [List.take_left' (length_leBytes 4 blockType), if_neg htype, hsection]
    rfl
  unfold Section.nextBlock
  rw [hblock, readExactOrEof_append _ _ (by simp)]
  simp only [ok_bind, hinitial, readRest_block hle hmod hlen]
  cases s.visitBlock (blockBytes blockType body) with
  | error e => rfl
  | ok result => rfl

theorem blockType_block (hle : s.littleEndian = true)
    (htype : (leBytes 4 blockType) ≠ [0x0A, 0x0D, 0x0D, 0x0A]) :
    s.blockType (blockBytes blockType body) = .ok (blockType % 2 ^ 32) := by
  unfold Section.blockType
  rw [blockBytes, List.take_left' (length_leBytes 4 blockType), if_neg htype, hle]
  have h := @readWord_append 4 [] blockType
      (leBytes 4 (12 + body.length) ++ (body ++ leBytes 4 (12 + body.length))) 0 rfl
  rw [List.nil_append] at h
  rw [readU32, h]
  rfl

end Block

/-! ## Interfaces -/

/-- An option of a block. -/
def optionBytes (code : Nat) (value : List UInt8) : List UInt8 :=
  leBytes 2 code ++ (leBytes 2 value.length ++ (value ++ padding value.length))

theorem appendPcapngOption_eq (output : List UInt8) (code : Nat) (value : List UInt8) :
    appendPcapngOption output code value = output ++ optionBytes code value := by
  simp only [appendPcapngOption, appendU16, optionBytes, List.append_assoc]

theorem length_padding (n : Nat) : (n + (padding n).length) % 4 = 0 ∧ (padding n).length ≤ 3 := by
  rw [padding, List.length_replicate]
  omega

theorem length_optionBytes (code : Nat) (value : List UInt8) :
    (optionBytes code value).length % 4 = 0 ∧
      (optionBytes code value).length ≤ value.length + 7 ∧ 4 ≤ (optionBytes code value).length := by
  have hpad := length_padding value.length
  simp only [optionBytes, List.length_append, length_leBytes]
  omega

/-- The options of an interface. -/
def interfaceOptions (link : List Char) : List UInt8 :=
  optionBytes 2 (utf8 link) ++ (optionBytes 9 [6] ++ optionBytes 0 [])

theorem interfaceBody_eq (link : List Char) (linktype : UInt32) :
    PcapNgWriter.interfaceBody link linktype =
      leBytes 2 linktype.toNat ++ (leBytes 2 0 ++ leBytes 4 65535 ++ interfaceOptions link) := by
  simp only [PcapNgWriter.interfaceBody, appendPcapngOption_eq, appendU16, appendU32,
    interfaceOptions, List.append_assoc, List.nil_append]

theorem interfaceBlock_eq (link : List Char) (linktype : UInt32) :
    PcapNgWriter.interfaceBlock link linktype =
      blockBytes 1 (PcapNgWriter.interfaceBody link linktype) := by
  simp only [PcapNgWriter.interfaceBlock, appendU32, blockBytes, List.append_assoc, List.nil_append]

theorem length_interfaceBody (link : List Char) (linktype : UInt32) :
    (PcapNgWriter.interfaceBody link linktype).length = 8 + (interfaceOptions link).length := by
  rw [interfaceBody_eq]
  simp only [List.length_append, length_leBytes]
  omega

theorem length_interfaceOptions (link : List Char) :
    (interfaceOptions link).length % 4 = 0 ∧
      (interfaceOptions link).length ≤ (utf8 link).length + 19 := by
  have h2 := length_optionBytes 2 (utf8 link)
  have h9 : (optionBytes 9 [6]).length = 8 := by decide
  have h0 : (optionBytes 0 []).length = 4 := by decide
  simp only [interfaceOptions, List.length_append, h9, h0]
  omega

/-- What the reader makes of an interface; `default` is the name it gives to one without. -/
def readInterface (default : List Char) (link : List Char) (linktype : UInt32) : PcapNgInterface :=
  let options := parseIdbOptions true (interfaceOptions link) (6, false, none)
  { linktype := UInt32.ofNat (linktype.toNat % 256 ^ 2)
    timestampResolution := options.1
    timestampBase2 := options.2.1
    link := options.2.2.getD default }

theorem visitBlock_interface {s : Section} (hle : s.littleEndian = true) (link : List Char)
    (linktype : UInt32) :
    s.visitBlock (PcapNgWriter.interfaceBlock link linktype) =
      .ok ({ s with
        interfaces := s.interfaces ++
          [readInterface (s.defaultLink s.interfaces.length) link linktype] }, []) := by
  have htype : leBytes 4 1 ≠ [0x0A, 0x0D, 0x0D, 0x0A] := by decide
  rw [interfaceBlock_eq]
  have hlength := length_blockBytes 1 (PcapNgWriter.interfaceBody link linktype)
  rw [length_interfaceBody] at hlength
  have hlinktype : readU16 (blockBytes 1 (PcapNgWriter.interfaceBody link linktype)) 8 true =
      some (linktype.toNat % 256 ^ 2) := by
    rw [blockBytes, interfaceBody_eq, List.append_assoc (leBytes 2 _), ← List.append_assoc (leBytes 4 _)]
    exact readWord_append _ _ _ rfl
  have hoptions : ((blockBytes 1 (PcapNgWriter.interfaceBody link linktype)).drop 16).take
      ((blockBytes 1 (PcapNgWriter.interfaceBody link linktype)).length - 4 - 16) =
        interfaceOptions link := by
    have hfront : blockBytes 1 (PcapNgWriter.interfaceBody link linktype) =
        (leBytes 4 1 ++ leBytes 4 (12 + (PcapNgWriter.interfaceBody link linktype).length) ++
          leBytes 2 linktype.toNat ++ leBytes 2 0 ++ leBytes 4 65535) ++ (interfaceOptions link ++
            leBytes 4 (12 + (PcapNgWriter.interfaceBody link linktype).length)) := by
      simp only [blockBytes, List.append_assoc]
      rw [interfaceBody_eq]
      simp only [List.append_assoc]
    rw [hlength, hfront, List.drop_left' (by simp)]
    exact List.take_left' (by omega)
  unfold Section.visitBlock
  rw [blockType_block hle htype]
  simp only [ok_bind]
  rw [if_neg (by decide), if_pos ⟨by decide, by omega⟩]
  unfold Section.interfaceBlock
  rw [hle, hlinktype, hoptions]
  rfl

/-! ## Frames -/

def frameBody (interfaceIndex : Nat) (raw : StoredFrame) : List UInt8 :=
  leBytes 4 interfaceIndex ++ (leBytes 4 (raw.timestampUs.toNat / 2 ^ 32) ++
    (leBytes 4 raw.timestampUs.toNat ++ (leBytes 4 raw.bytes.length ++
      (leBytes 4 raw.bytes.length ++ (raw.bytes ++ padding raw.bytes.length)))))

theorem length_frameBody (interfaceIndex : Nat) (raw : StoredFrame) :
    (frameBody interfaceIndex raw).length = 20 + (raw.bytes.length + 3) / 4 * 4 := by
  have hpad : (padding raw.bytes.length).length = (4 - raw.bytes.length % 4) % 4 :=
    List.length_replicate
  simp only [frameBody, List.length_append, length_leBytes, hpad]
  omega

theorem frameBlock_eq (interfaceIndex : Nat) (raw : StoredFrame) :
    PcapNgWriter.frameBlock interfaceIndex raw = blockBytes 6 (frameBody interfaceIndex raw) := by
  have hlength : 32 + (raw.bytes.length + 3) / 4 * 4 = 12 + (frameBody interfaceIndex raw).length := by
    rw [length_frameBody]
    omega
  simp only [PcapNgWriter.frameBlock, appendU32, blockBytes, hlength]
  simp only [frameBody, List.append_assoc, List.nil_append]

/-- A frame as it is read as one of the interface. -/
def readFrame (interface : PcapNgInterface) (raw : StoredFrame) : StoredFrame where
  link := interface.link
  timestampUs := pcapngTimestampToUs raw.timestampUs interface.timestampResolution
    interface.timestampBase2
  bytes := raw.bytes
  linkType := interface.linktype

theorem timestamp_halves (t : UInt64) :
    UInt64.ofNat (t.toNat / 2 ^ 32 % 256 ^ 4 * 2 ^ 32 + t.toNat % 256 ^ 4) = t := by
  have ht := t.toNat_lt
  have hsum : t.toNat / 2 ^ 32 % 256 ^ 4 * 2 ^ 32 + t.toNat % 256 ^ 4 = t.toNat := by omega
  rw [hsum, UInt64.ofNat_toNat]

theorem visitBlock_frame {s : Section} {interface : PcapNgInterface} (hle : s.littleEndian = true)
    {index : Nat} {raw : StoredFrame} (hlen : raw.bytes.length ≤ maxCaptureFrameBytes)
    (hinterface : s.interfaces[index % 2 ^ 32]? = some interface) :
    s.visitBlock (PcapNgWriter.frameBlock index raw) = .ok (s, [.frame (readFrame interface raw)]) := by
  have htype : leBytes 4 6 ≠ [0x0A, 0x0D, 0x0D, 0x0A] := by decide
  have hlength := length_blockBytes 6 (frameBody index raw)
  rw [length_frameBody] at hlength
  have hlt : raw.bytes.length < 256 ^ 4 := by
    unfold maxCaptureFrameBytes at hlen
    omega
  rw [frameBlock_eq]
  have hwords : ∀ offset (front : List UInt8) value rest, offset = front.length →
      blockBytes 6 (frameBody index raw) = front ++ (leBytes 4 value ++ rest) →
      (readU32 (blockBytes 6 (frameBody index raw)) offset true).getD 0 = value % 256 ^ 4 := by
    intro offset front value rest hoffset hblock
    rw [hblock, readU32, readWord_append front value rest hoffset]
    rfl
  have h8 := hwords 8 (leBytes 4 6 ++ leBytes 4 (12 + (frameBody index raw).length)) index _ rfl
    (by simp only [blockBytes, frameBody, List.append_assoc]; rfl)
  have h12 := hwords 12 (leBytes 4 6 ++ leBytes 4 (12 + (frameBody index raw).length) ++
    leBytes 4 index) (raw.timestampUs.toNat / 2 ^ 32) _ rfl
    (by simp only [blockBytes, frameBody, List.append_assoc]; rfl)
  have h16 := hwords 16 (leBytes 4 6 ++ leBytes 4 (12 + (frameBody index raw).length) ++
    leBytes 4 index ++ leBytes 4 (raw.timestampUs.toNat / 2 ^ 32)) raw.timestampUs.toNat _ rfl
    (by simp only [blockBytes, frameBody, List.append_assoc]; rfl)
  have h20 := hwords 20 (leBytes 4 6 ++ leBytes 4 (12 + (frameBody index raw).length) ++
    leBytes 4 index ++ leBytes 4 (raw.timestampUs.toNat / 2 ^ 32) ++
      leBytes 4 raw.timestampUs.toNat) raw.bytes.length _ rfl
    (by simp only [blockBytes, frameBody, List.append_assoc]; rfl)
  have hbytes : ((blockBytes 6 (frameBody index raw)).drop 28).take raw.bytes.length = raw.bytes := by
    have hfront : blockBytes 6 (frameBody index raw) =
        (leBytes 4 6 ++ leBytes 4 (12 + (frameBody index raw).length) ++ leBytes 4 index ++
          leBytes 4 (raw.timestampUs.toNat / 2 ^ 32) ++ leBytes 4 raw.timestampUs.toNat ++
            leBytes 4 raw.bytes.length ++ leBytes 4 raw.bytes.length) ++
          (raw.bytes ++ (padding raw.bytes.length ++
            leBytes 4 (12 + (frameBody index raw).length))) := by
      simp only [blockBytes, frameBody, List.append_assoc]
    rw [hfront, List.drop_left' (by simp)]
    exact List.take_left
  have hinterface' : s.interfaces.getD (index % 256 ^ 4) (s.defaultInterface (index % 256 ^ 4)) =
      interface := by
    rw [List.getD_eq_getElem?_getD, show (256 : Nat) ^ 4 = 2 ^ 32 by decide, hinterface]
    rfl
  unfold Section.visitBlock
  rw [blockType_block hle htype]
  simp only [ok_bind]
  rw [if_neg (by decide), if_neg fun h => absurd h.1 (by decide), if_pos ⟨by decide, by omega⟩]
  unfold Section.packetBlock
  rw [hle]
  simp only [h8, h12, h16, h20, Nat.mod_eq_of_lt hlt]
  rw [if_neg (Nat.not_lt.mpr hlen), if_neg (by omega), hbytes, hinterface']
  rw [timestamp_halves]
  rfl

/-! ## Files -/

/-- The interfaces as they are read. -/
def readInterfaces (interfaces : List (List Char × UInt32)) : List PcapNgInterface :=
  interfaces.mapIdx fun i key =>
    readInterface ((⟨true, true, 1, []⟩ : Section).defaultLink i) key.1 key.2

/-- The reader behind the blocks of these interfaces. -/
def sectionOf (interfaces : List (List Char × UInt32)) : Section :=
  ⟨true, true, 1, readInterfaces interfaces⟩

def frameKey (raw : StoredFrame) : List Char × UInt32 := (raw.link, raw.linkType)

theorem readInterfaces_concat (interfaces : List (List Char × UInt32)) (link : List Char)
    (linktype : UInt32) :
    readInterfaces (interfaces ++ [(link, linktype)]) =
      readInterfaces interfaces ++
        [readInterface ((sectionOf interfaces).defaultLink (readInterfaces interfaces).length) link
          linktype] := by
  rw [readInterfaces, List.mapIdx_concat, readInterfaces, List.length_mapIdx]
  rfl

/-- What the claims about a frame need: its name and its bytes fit into blocks. -/
structure Fits (raw : StoredFrame) : Prop where
  bytes_ne_nil : raw.bytes ≠ []
  bytes_le : raw.bytes.length ≤ maxCaptureFrameBytes
  frameLink_eq : PcapNgWriter.frameLink raw = raw.link
  link_le : (utf8 raw.link).length ≤ 2 ^ 18

theorem nextBlock_interface {interfaces : List (List Char × UInt32)} {link : List Char}
    (linktype : UInt32) (hlink : (utf8 link).length ≤ 2 ^ 18) (rest : List UInt8) :
    (sectionOf interfaces).nextBlock (PcapNgWriter.interfaceBlock link linktype ++ rest) =
      .ok (some (sectionOf (interfaces ++ [(link, linktype)]), [], rest)) := by
  have hoptions := length_interfaceOptions link
  have hbody := length_interfaceBody link linktype
  have hvisit := visitBlock_interface (s := sectionOf interfaces) rfl link linktype
  rw [interfaceBlock_eq] at hvisit ⊢
  rw [nextBlock_block rfl rfl (by decide) (by omega) (by unfold maxPcapngBlockBytes; omega), hvisit]
  unfold sectionOf
  rw [readInterfaces_concat]
  rfl

theorem nextBlock_frame {interfaces : List (List Char × UInt32)} {interface : PcapNgInterface}
    {index : Nat} {raw : StoredFrame} (hfits : Fits raw)
    (hinterface : (readInterfaces interfaces)[index % 2 ^ 32]? = some interface)
    (rest : List UInt8) :
    (sectionOf interfaces).nextBlock (PcapNgWriter.frameBlock index raw ++ rest) =
      .ok (some (sectionOf interfaces, [.frame (readFrame interface raw)], rest)) := by
  have hbody := length_frameBody index raw
  have hlen := hfits.bytes_le
  have hvisit := visitBlock_frame (s := sectionOf interfaces) rfl hlen hinterface
  unfold maxCaptureFrameBytes at hlen
  rw [frameBlock_eq] at hvisit ⊢
  rw [nextBlock_block rfl rfl (by decide) (by omega) (by unfold maxPcapngBlockBytes; omega), hvisit]
  rfl

/-- The frame as it is read from a file with these interfaces. -/
def readAs (interfaces : List (List Char × UInt32)) (raw : StoredFrame) : StoredFrame :=
  readFrame ((readInterfaces interfaces).getD (interfaces.idxOf (frameKey raw) % 2 ^ 32)
    (Section.start.defaultInterface 0)) raw

/-- Further interfaces do not change how a frame is read. -/
theorem readAs_prefix {interfaces more : List (List Char × UInt32)} {raw : StoredFrame}
    (h : interfaces <+: more) (hkey : frameKey raw ∈ interfaces) :
    readAs more raw = readAs interfaces raw := by
  obtain ⟨rest, rfl⟩ := h
  have hindex := List.idxOf_lt_length_of_mem hkey
  have hlt : interfaces.idxOf (frameKey raw) % 2 ^ 32 < interfaces.length :=
    Nat.lt_of_le_of_lt (Nat.mod_le _ _) hindex
  unfold readAs
  rw [List.idxOf_append_of_mem hkey, readInterfaces, readInterfaces, List.getD_eq_getElem?_getD,
    List.getD_eq_getElem?_getD, List.getElem?_mapIdx, List.getElem?_mapIdx,
    List.getElem?_append_left hlt]

/-- What writing a frame adds to a file, and how it is read. -/
structure Written (w w' : PcapNgWriter) (raw : StoredFrame) : Prop where
  interfaces_prefix : w.interfaces <+: w'.interfaces
  key_mem : frameKey raw ∈ w'.interfaces
  interfaces_eq : w'.interfaces =
    if frameKey raw ∈ w.interfaces then w.interfaces else w.interfaces ++ [frameKey raw]
  read : ∃ bytes, w'.writer = w.writer ++ bytes ∧ ∀ rest,
    visitPcapng (sectionOf w.interfaces) (bytes ++ rest) =
      (visitPcapng (sectionOf w'.interfaces) rest).map
        (.frame (readAs w'.interfaces raw) :: ·)

theorem ensureInterface_mem {w : PcapNgWriter} {link : List Char} {linktype : UInt32}
    (h : (link, linktype) ∈ w.interfaces) :
    w.ensureInterface link linktype = (w.interfaces.idxOf (link, linktype), w) := by
  have hfind : w.interfaces.findIdx? (· == (link, linktype)) =
      some (w.interfaces.idxOf (link, linktype)) := by
    rw [List.findIdx?_eq_some_iff_findIdx_eq]
    exact ⟨List.idxOf_lt_length_of_mem h, rfl⟩
  unfold PcapNgWriter.ensureInterface
  rw [hfind]

theorem ensureInterface_not_mem {w : PcapNgWriter} {link : List Char} {linktype : UInt32}
    (h : (link, linktype) ∉ w.interfaces) :
    w.ensureInterface link linktype =
      (w.interfaces.length, ⟨w.writer ++ PcapNgWriter.interfaceBlock link linktype,
        w.interfaces ++ [(link, linktype)]⟩) := by
  have hfind : w.interfaces.findIdx? (· == (link, linktype)) = none :=
    List.findIdx?_eq_none_iff.mpr fun key hkey =>
      beq_eq_false_iff_ne.mpr fun heq => h (heq ▸ hkey)
  unfold PcapNgWriter.ensureInterface
  rw [hfind]

theorem map_map_ok {α : Type} (x : Except String (List α)) (f g : List α → List α) :
    (x.map f).map g = x.map (g ∘ f) := by
  cases x <;> rfl

theorem getElem?_readInterfaces {interfaces : List (List Char × UInt32)} {raw : StoredFrame}
    (hkey : frameKey raw ∈ interfaces) :
    (readInterfaces interfaces)[interfaces.idxOf (frameKey raw) % 2 ^ 32]? =
      some ((readInterfaces interfaces).getD (interfaces.idxOf (frameKey raw) % 2 ^ 32)
        (Section.start.defaultInterface 0)) := by
  have hlt : interfaces.idxOf (frameKey raw) % 2 ^ 32 < (readInterfaces interfaces).length := by
    rw [readInterfaces, List.length_mapIdx]
    exact Nat.lt_of_le_of_lt (Nat.mod_le _ _) (List.idxOf_lt_length_of_mem hkey)
  rw [List.getElem?_eq_getElem hlt, List.getD_eq_getElem _ _ hlt]

theorem written_writeFrame {w : PcapNgWriter} {raw : StoredFrame} (hfits : Fits raw) :
    Written w (w.writeFrame raw) raw := by
  have hwrite : w.writeFrame raw =
      { (w.ensureInterface raw.link raw.linkType).2 with
        writer := (w.ensureInterface raw.link raw.linkType).2.writer ++
          PcapNgWriter.frameBlock (w.ensureInterface raw.link raw.linkType).1 raw } := by
    unfold PcapNgWriter.writeFrame
    rw [if_neg hfits.bytes_ne_nil, hfits.frameLink_eq]
  by_cases hmem : frameKey raw ∈ w.interfaces
  · rw [ensureInterface_mem hmem] at hwrite
    rw [hwrite]
    refine ⟨List.prefix_rfl, hmem, (if_pos hmem).symm, _, rfl, fun rest => ?_⟩
    have hnext := @nextBlock_frame _ _ (w.interfaces.idxOf (frameKey raw)) _ hfits
        (getElem?_readInterfaces hmem) rest
    exact visitPcapng_some hnext
  · rw [ensureInterface_not_mem hmem] at hwrite
    rw [hwrite]
    have hkey : frameKey raw ∈ w.interfaces ++ [(raw.link, raw.linkType)] :=
      List.mem_append_right _ (List.mem_singleton.mpr rfl)
    have hindex : (w.interfaces ++ [(raw.link, raw.linkType)]).idxOf (frameKey raw) =
        w.interfaces.length := by
      rw [List.idxOf_append_of_notMem hmem, frameKey, List.idxOf_cons_self, Nat.add_zero]
    refine ⟨List.prefix_append _ _, hkey, (if_neg hmem).symm, _, List.append_assoc _ _ _,
      fun rest => ?_⟩
    have hframe := @nextBlock_frame _ _ w.interfaces.length _ hfits
        (hindex ▸ getElem?_readInterfaces hkey) rest
    rw [List.append_assoc, visitPcapng_some (nextBlock_interface raw.linkType hfits.link_le _),
      visitPcapng_some hframe, map_map_ok]
    unfold readAs
    rw [hindex]
    rfl

/-- What writing several frames adds to a file, and how they are read. -/
theorem written_foldl {frames : List StoredFrame} (h : ∀ f ∈ frames, Fits f) (w : PcapNgWriter) :
    w.interfaces <+: (frames.foldl PcapNgWriter.writeFrame w).interfaces ∧
    (∀ f ∈ frames, frameKey f ∈ (frames.foldl PcapNgWriter.writeFrame w).interfaces) ∧
    ∃ bytes, (frames.foldl PcapNgWriter.writeFrame w).writer = w.writer ++ bytes ∧ ∀ rest,
      visitPcapng (sectionOf w.interfaces) (bytes ++ rest) =
        (visitPcapng (sectionOf (frames.foldl PcapNgWriter.writeFrame w).interfaces) rest).map
          (frames.map (fun f => CaptureRecord.frame
            (readAs (frames.foldl PcapNgWriter.writeFrame w).interfaces f)) ++ ·) := by
  induction frames generalizing w with
  | nil =>
    refine ⟨List.prefix_rfl, fun _ hf => absurd hf List.not_mem_nil, [],
      (List.append_nil _).symm, fun rest => ?_⟩
    simp only [List.nil_append, List.foldl_nil, List.map_nil]
    cases visitPcapng (sectionOf w.interfaces) rest <;> rfl
  | cons raw frames ih =>
    have hraw := written_writeFrame (w := w) (h raw List.mem_cons_self)
    obtain ⟨hfront, hkeys, bytes, hbytes, hread⟩ :=
      ih (fun f hf => h f (List.mem_cons_of_mem _ hf)) (w.writeFrame raw)
    obtain ⟨first, hfirst, hreadFirst⟩ := hraw.read
    rw [List.foldl_cons]
    refine ⟨hraw.interfaces_prefix.trans hfront, ?_, first ++ bytes, ?_, fun rest => ?_⟩
    · intro f hf
      rcases List.mem_cons.mp hf with rfl | hf
      · exact hfront.subset hraw.key_mem
      · exact hkeys f hf
    · rw [hbytes, hfirst, List.append_assoc]
    · rw [List.append_assoc, hreadFirst, hread, map_map_ok, List.map_cons,
        readAs_prefix hfront hraw.key_mem]
      rfl

theorem nextBlock_header (rest : List UInt8) :
    Section.start.nextBlock (PcapNgWriter.new.writer ++ rest) =
      .ok (some (sectionOf [], [.sectionStart], rest)) := by
  have hheader : PcapNgWriter.new.writer = [0x0A, 0x0D, 0x0D, 0x0A, 28, 0, 0, 0] ++
      ([0x4D, 0x3C, 0x2B, 0x1A] ++ [1, 0, 0, 0, 255, 255, 255, 255, 255, 255, 255, 255, 28, 0, 0, 0]) := by
    decide
  have hinitial : Section.start.readInitial [0x0A, 0x0D, 0x0D, 0x0A, 28, 0, 0, 0]
      ([0x4D, 0x3C, 0x2B, 0x1A] ++ ([1, 0, 0, 0, 255, 255, 255, 255, 255, 255, 255, 255, 28, 0, 0, 0]
        ++ rest)) = .ok (⟨true, true, 0, []⟩, [0x0A, 0x0D, 0x0D, 0x0A, 28, 0, 0, 0, 0x4D, 0x3C, 0x2B,
          0x1A], [1, 0, 0, 0, 255, 255, 255, 255, 255, 255, 255, 255, 28, 0, 0, 0] ++ rest) := by
    unfold Section.readInitial readOrError
    rw [if_pos (by decide), readExactOrEof_append _ _ (by rfl)]
    rfl
  have hrest : (⟨true, true, 0, []⟩ : Section).readRest
      [0x0A, 0x0D, 0x0D, 0x0A, 28, 0, 0, 0, 0x4D, 0x3C, 0x2B, 0x1A]
      ([1, 0, 0, 0, 255, 255, 255, 255, 255, 255, 255, 255, 28, 0, 0, 0] ++ rest) =
        .ok ([0x0A, 0x0D, 0x0D, 0x0A, 28, 0, 0, 0, 0x4D, 0x3C, 0x2B, 0x1A, 1, 0, 0, 0, 255, 255, 255,
          255, 255, 255, 255, 255, 28, 0, 0, 0], rest) := by
    have hmissing : Section.readMissing 28
        [0x0A, 0x0D, 0x0D, 0x0A, 28, 0, 0, 0, 0x4D, 0x3C, 0x2B, 0x1A]
        ([1, 0, 0, 0, 255, 255, 255, 255, 255, 255, 255, 255, 28, 0, 0, 0] ++ rest) =
          .ok ([1, 0, 0, 0, 255, 255, 255, 255, 255, 255, 255, 255, 28, 0, 0, 0], rest) := by
      unfold Section.readMissing readOrError
      rw [if_pos (by decide), readExactOrEof_append _ _ (by rfl)]
      rfl
    have hlength : readU32 [0x0A, 0x0D, 0x0D, 0x0A, 28, 0, 0, 0, 0x4D, 0x3C, 0x2B, 0x1A] 4 true =
        some 28 := by
      decide
    unfold Section.readRest
    rw [hlength]
    simp only [okOr, Option.elim, ok_bind, hmissing]
    rfl
  unfold Section.nextBlock
  rw [hheader, List.append_assoc, List.append_assoc, readExactOrEof_append _ _ (by rfl)]
  simp only [ok_bind, hinitial, hrest]
  rfl

/-- The interfaces of a file. -/
def interfacesOf (frames : List StoredFrame) : List (List Char × UInt32) :=
  (frames.foldl PcapNgWriter.writeFrame PcapNgWriter.new).interfaces

theorem visit_saveFrames {frames : List StoredFrame} (h : ∀ f ∈ frames, Fits f) :
    visitPcapng Section.start (saveFrames frames) =
      .ok (.sectionStart ::
        frames.map fun f => CaptureRecord.frame (readAs (interfacesOf frames) f)) := by
  obtain ⟨-, hkeys, bytes, hbytes, hread⟩ := written_foldl h PcapNgWriter.new
  unfold saveFrames PcapNgWriter.finish
  cases frames with
  | nil =>
    have hcapture := @nextBlock_interface [] PcapNgWriter.captureLink linktypeEthernet (by decide)
        []
    rw [List.append_nil] at hcapture
    rw [List.foldl_nil, if_pos (show PcapNgWriter.new.interfaces = [] from rfl),
      ensureInterface_not_mem (by exact List.not_mem_nil),
      visitPcapng_some (nextBlock_header _), visitPcapng_some hcapture, visitPcapng_nil]
    rfl
  | cons f frames =>
    have hne : (List.foldl PcapNgWriter.writeFrame PcapNgWriter.new (f :: frames)).interfaces ≠ [] :=
      List.ne_nil_of_mem (hkeys f List.mem_cons_self)
    have hbody := hread []
    rw [List.append_nil, visitPcapng_nil] at hbody
    rw [if_neg hne, hbytes, visitPcapng_some (nextBlock_header _)]
    refine (congrArg (Except.map _) hbody).trans ?_
    simp only [Except.map, List.append_nil]
    rfl

/-! ## Names -/

theorem optionName_encode {link : List Char} (hne : link ≠ []) (hlast : link.getLast? ≠ some (Char.ofNat 0)) :
    optionName (utf8 link) = some link := by
  have htrim : (link.reverse.dropWhile (· == Char.ofNat 0)).reverse = link := by
    obtain ⟨front, last, rfl⟩ := List.eq_nil_or_concat link |>.resolve_left hne
    rw [List.concat_eq_append] at hlast ⊢
    rw [List.getLast?_concat] at hlast
    rw [List.reverse_append, List.reverse_singleton, List.singleton_append,
      List.dropWhile_cons_of_neg (by simpa using hlast), List.reverse_cons, List.reverse_reverse]
  unfold optionName
  rw [fromUtf8Lossy_encode, htrim]
  exact if_neg hne

theorem length_optionName {value : List UInt8} {name : List Char} (h : optionName value = some name) :
    name.length ≤ (fromUtf8Lossy value).length := by
  unfold optionName at h
  dsimp only at h
  split_ifs at h
  cases h
  rw [List.length_reverse]
  exact (List.length_dropWhile_le _ _).trans (List.length_reverse).le

/-- One option is taken, or the rest is left. -/
theorem parseIdbOptions_cases (data : List UInt8) (le : Bool)
    (found : UInt8 × Bool × Option (List Char)) :
    parseIdbOptions le data found = found ∨
      ∃ code length, 4 ≤ data.length ∧ readU16 data 0 le = some code ∧
        readU16 data 2 le = some length ∧ code ≠ 0 ∧ length ≤ (data.drop 4).length ∧
        parseIdbOptions le data found =
          parseIdbOptions le ((data.drop 4).drop ((length + 3) / 4 * 4))
            (foundOption code ((data.drop 4).take length) found) := by
  by_cases hlen : 4 ≤ data.length
  · obtain ⟨code, hcode⟩ : ∃ code, readU16 data 0 le = some code :=
      ⟨_, if_pos (by simp; omega)⟩
    obtain ⟨length, hlength⟩ : ∃ length, readU16 data 2 le = some length :=
      ⟨_, if_pos (by simp; omega)⟩
    rw [parseIdbOptions, dif_pos hlen]
    simp only [hcode, hlength, Option.getD_some]
    by_cases hstop : code = 0 ∨ (data.drop 4).length < length
    · exact .inl (if_pos hstop)
    · rw [not_or, Nat.not_lt] at hstop
      refine .inr ⟨code, length, hlen, rfl, rfl, hstop.1, hstop.2, ?_⟩
      rw [if_neg (by rw [not_or, Nat.not_lt]; exact hstop)]
      unfold foundOption
      rw [List.length_take_of_le hstop.2]
  · left
    rw [parseIdbOptions, dif_neg hlen]

/-- An option that was written is read. -/
theorem parseIdbOptions_option {code : Nat} {value : List UInt8} (hcode : code % 256 ^ 2 ≠ 0)
    (hvalue : value.length < 256 ^ 2) (rest : List UInt8)
    (found : UInt8 × Bool × Option (List Char)) :
    parseIdbOptions true (optionBytes code value ++ rest) found =
      parseIdbOptions true rest (foundOption (code % 256 ^ 2) value found) := by
  have hcodeRead : readU16 (optionBytes code value ++ rest) 0 true = some (code % 256 ^ 2) := by
    rw [optionBytes, List.append_assoc]
    exact readWord_append [] _ _ rfl
  have hlengthRead : readU16 (optionBytes code value ++ rest) 2 true = some value.length := by
    rw [optionBytes, List.append_assoc, List.append_assoc, readU16, readWord_append _ _ _ (by simp),
      Nat.mod_eq_of_lt hvalue]
  have hrest : (optionBytes code value ++ rest).drop 4 = value ++ (padding value.length ++ rest) := by
    have hsplit : optionBytes code value ++ rest = (leBytes 2 code ++ leBytes 2 value.length) ++
        (value ++ (padding value.length ++ rest)) := by
      simp only [optionBytes, List.append_assoc]
    rw [hsplit, List.drop_left' (by simp)]
  have hnext : (value ++ (padding value.length ++ rest)).drop ((value.length + 3) / 4 * 4) = rest := by
    have hpad := length_padding value.length
    rw [← List.append_assoc]
    exact List.drop_left' (by rw [List.length_append]; omega)
  rw [parseIdbOptions, dif_pos (by rw [List.length_append]; have := length_optionBytes code value; omega)]
  simp only [hcodeRead, hlengthRead, hrest, Option.getD_some]
  rw [if_neg (by rw [not_or]; exact ⟨hcode, by rw [List.length_append]; omega⟩), List.take_left, hnext]
  rfl

/-- A name of less than 2^16 bytes is read as it was written. -/
theorem readInterface_short {link : List Char} (hne : link ≠ [])
    (hlast : link.getLast? ≠ some (Char.ofNat 0)) (hlen : (utf8 link).length < 2 ^ 16)
    {linktype : UInt32} (htype : linktype < 65536) (default : List Char) :
    readInterface default link linktype = ⟨linktype, 6, false, link⟩ := by
  have hpos : 0 < (utf8 link).length := by
    obtain ⟨c, cs, rfl⟩ := List.exists_cons_of_ne_nil hne
    exact List.length_pos_iff.mpr (List.append_ne_nil_of_left_ne_nil String.utf8EncodeChar_ne_nil _)
  have hname : foundOption (2 % 256 ^ 2) (utf8 link) (6, false, none) = (6, false, some link) := by
    unfold foundOption
    rw [if_pos ⟨by decide, hpos⟩, optionName_encode hne hlast]
    rfl
  have hend : parseIdbOptions true (optionBytes 0 []) (6, false, some link) =
      (6, false, some link) := by
    rcases parseIdbOptions_cases (optionBytes 0 []) true (6, false, some link) with h | h
    · exact h
    · obtain ⟨code, -, -, hcode, -, hne, -⟩ := h
      exact absurd (Option.some_inj.mp (hcode.symm.trans (show _ = some 0 by decide))) hne
  have hparse : parseIdbOptions true (interfaceOptions link) (6, false, none) =
      (6, false, some link) := by
    rw [interfaceOptions, parseIdbOptions_option (by decide) hlen, hname,
      parseIdbOptions_option (by decide) (by decide)]
    exact hend
  have htype' : UInt32.ofNat (linktype.toNat % 256 ^ 2) = linktype := by
    have hlt : linktype.toNat < 256 ^ 2 := UInt32.lt_iff_toNat_lt.mp htype
    rw [Nat.mod_eq_of_lt hlt, UInt32.ofNat_toNat]
  unfold readInterface
  simp only [hparse, htype', Option.getD_some]

/-- Every name that is found is the name in some option. -/
theorem parseIdbOptions_names {P : List Char → Prop} {le : Bool} (n : Nat) (data : List UInt8)
    (hn : data.length ≤ n) (found : UInt8 × Bool × Option (List Char)) (hfound : ∀ name ∈ found.2.2, P name)
    (hoption : ∀ offset length name, readU16 (data.drop offset) 2 le = some length →
      offset + 4 + length ≤ data.length →
      optionName ((data.drop (offset + 4)).take length) = some name → P name) :
    ∀ name ∈ (parseIdbOptions le data found).2.2, P name := by
  induction n generalizing data found with
  | zero =>
    rcases parseIdbOptions_cases data le found with h | ⟨code, length, hlen, -⟩
    · rw [h]
      exact hfound
    · omega
  | succ n ih =>
    rcases parseIdbOptions_cases data le found with h | ⟨code, length, hlen, -, hlength, -, hle, h⟩
    · rw [h]
      exact hfound
    rw [List.length_drop] at hle
    rw [h, List.drop_drop]
    refine ih _ (by rw [List.length_drop]; omega) _ (fun name hname => ?_) ?_
    · unfold foundOption at hname
      split_ifs at hname
      · cases hopt : optionName ((data.drop 4).take length) with
        | none =>
          rw [hopt] at hname
          exact hfound name hname
        | some first =>
          rw [hopt] at hname
          cases hname
          exact hoption 0 length name hlength (by omega) hopt
      · exact hfound name hname
      · exact hfound name hname
    · intro offset length' name hlength' hle' hname
      rw [List.drop_drop] at hlength' hname
      rw [List.length_drop] at hle'
      refine hoption (4 + (length + 3) / 4 * 4 + offset) length' name hlength' (by omega) ?_
      rwa [Nat.add_assoc]

theorem length_defaultLink (s : Section) (index : Nat) : (s.defaultLink index).length ≤ 49 := by
  have hdigits : ∀ n, (Nat.toDigits 10 (n % 2 ^ 64)).length ≤ 20 := fun n =>
    (Nat.length_toDigits_le_iff (by decide) (by decide)).mpr
      (Nat.lt_trans (Nat.mod_lt n (by decide)) (by decide))
  have h1 := hdigits (s.sectionIndex - 1)
  have h2 := hdigits index
  have h3 : "capture:".toList.length = 8 := by decide
  unfold Section.defaultLink
  rw [List.length_append, List.length_append, List.length_cons, h3]
  omega

/-- No name has more characters than an option has bytes. -/
def NamesBounded (s : Section) : Prop := ∀ i ∈ s.interfaces, i.link.length < 2 ^ 16

theorem namesBounded_interfaceBlock {s : Section} (h : NamesBounded s) (block : List UInt8) :
    NamesBounded (s.interfaceBlock block) := by
  intro i hi
  rcases List.mem_append.mp hi with hi | hi
  · exact h i hi
  rw [List.mem_singleton.mp hi]
  dsimp only
  have hnames := @parseIdbOptions_names (fun name => name.length < 2 ^ 16) s.littleEndian _
      ((block.drop 16).take (block.length - 4 - 16)) le_rfl (6, false, none)
      (fun _ hname => absurd hname (by simp)) (fun offset length name hlength _ hname => by
      have hlt := readWord_lt hlength
      have hname := length_optionName hname
      have hlossy := length_fromUtf8Lossy_le
        (((((block.drop 16).take (block.length - 4 - 16)).drop (offset + 4)).take length))
      rw [List.length_take] at hlossy
      omega)
  cases hname : (parseIdbOptions s.littleEndian ((block.drop 16).take (block.length - 4 - 16))
    (6, false, none)).2.2 with
  | none => exact Nat.lt_of_le_of_lt (length_defaultLink s _) (by decide)
  | some name => exact hnames name hname

/-- The name of an interface that is looked up. -/
theorem length_interface_link {s : Section} (h : NamesBounded s) {i : PcapNgInterface} {index : Nat}
    (hi : i ∈ s.interfaces ∨ i = s.defaultInterface index) : i.link.length < 2 ^ 16 := by
  rcases hi with hi | rfl
  · exact h i hi
  · exact Nat.lt_of_le_of_lt (length_defaultLink s index) (by decide)

theorem getD_mem {α : Type} (l : List α) (n : Nat) (d : α) : l.getD n d ∈ l ∨ l.getD n d = d := by
  rcases Nat.lt_or_ge n l.length with h | h
  · exact .inl (by rw [List.getD_eq_getElem _ _ h]; exact List.getElem_mem h)
  · exact .inr (List.getD_eq_default _ _ h)

theorem visitBlock_names {s s' : Section} {block : List UInt8} {records : List CaptureRecord}
    (h : NamesBounded s) (hvisit : s.visitBlock block = .ok (s', records)) :
    NamesBounded s' ∧ ∀ f, .frame f ∈ records → f.link.length < 2 ^ 16 := by
  have hnone : ∀ f, CaptureRecord.frame f ∈ ([] : List CaptureRecord) → f.link.length < 2 ^ 16 :=
    fun _ hf => absurd hf List.not_mem_nil
  unfold Section.visitBlock at hvisit
  obtain ⟨blockType, -, hvisit⟩ := bind_eq_ok.mp hvisit
  split_ifs at hvisit
  · cases hvisit
    exact ⟨fun i hi => absurd hi List.not_mem_nil, fun f hf => by simp [Section.sectionBlock] at hf⟩
  · cases hvisit
    exact ⟨namesBounded_interfaceBlock h block, hnone⟩
  · obtain ⟨record, hrecord, hvisit⟩ := bind_eq_ok.mp hvisit
    cases hvisit
    refine ⟨h, fun f hf => ?_⟩
    rw [← List.mem_singleton.mp hf] at hrecord
    unfold Section.packetBlock at hrecord
    dsimp only at hrecord
    split_ifs at hrecord
    cases hrecord
    exact length_interface_link h (getD_mem _ _ _)
  · obtain ⟨record, hrecord, hvisit⟩ := bind_eq_ok.mp hvisit
    cases hvisit
    refine ⟨h, fun f hf => ?_⟩
    rw [← List.mem_singleton.mp hf] at hrecord
    unfold Section.simplePacketBlock at hrecord
    dsimp only at hrecord
    split_ifs at hrecord
    cases hrecord
    refine @length_interface_link _ h _ 0 ?_
    cases s.interfaces with
    | nil => exact .inr rfl
    | cons i is => exact .inl List.mem_cons_self
  · cases hvisit
    exact ⟨h, hnone⟩

theorem nextBlock_names {s s' : Section} {reader rest : List UInt8} {records : List CaptureRecord}
    (h : NamesBounded s) (hnext : s.nextBlock reader = .ok (some (s', records, rest))) :
    NamesBounded s' ∧ ∀ f, .frame f ∈ records → f.link.length < 2 ^ 16 := by
  unfold Section.nextBlock at hnext
  obtain ⟨read, -, hnext⟩ := bind_eq_ok.mp hnext
  cases read with
  | none => cases hnext
  | some read =>
    obtain ⟨head, reader'⟩ := read
    obtain ⟨⟨s₁, initial, rest₁⟩, hinitial, hnext⟩ := bind_eq_ok.mp hnext
    obtain ⟨⟨block, rest₂⟩, -, hnext⟩ := bind_eq_ok.mp hnext
    obtain ⟨⟨s₂, records'⟩, hvisit, hnext⟩ := bind_eq_ok.mp hnext
    cases hnext
    refine visitBlock_names ?_ hvisit
    unfold Section.readInitial at hinitial
    split_ifs at hinitial
    · obtain ⟨⟨magic, rest'⟩, -, hinitial⟩ := bind_eq_ok.mp hinitial
      obtain ⟨le, -, hinitial⟩ := bind_eq_ok.mp hinitial
      cases hinitial
      exact h
    · cases hinitial
      exact h

theorem visitPcapng_names {s : Section} {reader : List UInt8} {records : List CaptureRecord}
    (h : NamesBounded s) (hvisit : visitPcapng s reader = .ok records) :
    ∀ f, .frame f ∈ records → f.link.length < 2 ^ 16 := by
  induction s, reader using visitPcapng.induct generalizing records with
  | case1 s reader e he =>
    rw [visitPcapng] at hvisit
    split at hvisit <;> simp_all
  | case2 s reader hnone =>
    rw [visitPcapng] at hvisit
    split at hvisit <;> simp_all
  | case3 s reader s' first rest hnext ih =>
    obtain ⟨hs', hfirst⟩ := nextBlock_names h hnext
    rw [visitPcapng_some hnext] at hvisit
    cases hrest : visitPcapng s' rest with
    | error e =>
      rw [hrest] at hvisit
      cases hvisit
    | ok more =>
      rw [hrest] at hvisit
      cases hvisit
      intro f hf
      rcases List.mem_append.mp hf with hf | hf
      · exact hfirst f hf
      · exact ih hs' hrest f hf

/-! ## Names that are too long -/

theorem toNat_utf8_le {text : List Char} : ∀ b ∈ utf8 text, b.toNat ≤ 0xF7 := by
  intro b hb
  obtain ⟨c, -, hb⟩ := List.mem_flatMap.mp hb
  unfold String.utf8EncodeChar at hb
  dsimp only at hb
  split_ifs at hb
  all_goals simp only [List.mem_cons, List.not_mem_nil, or_false] at hb
  · rw [hb, toNat_ofNat_of_lt (by omega)]
    omega
  · rcases hb with hb | hb <;> (rw [hb, toNat_ofNat_of_lt (by omega)]; omega)
  · rcases hb with hb | hb | hb <;> (rw [hb, toNat_ofNat_of_lt (by omega)]; omega)
  · rcases hb with hb | hb | hb | hb <;> (rw [hb, toNat_ofNat_of_lt (by omega)]; omega)

/-- What is behind the name in the options of an interface. -/
def optionsTail (link : List Char) : List UInt8 :=
  padding (utf8 link).length ++ (optionBytes 9 [6] ++ optionBytes 0 [])

theorem interfaceOptions_eq (link : List Char) :
    interfaceOptions link = leBytes 2 2 ++ leBytes 2 (utf8 link).length ++
      (utf8 link ++ optionsTail link) := by
  simp only [interfaceOptions, optionBytes, optionsTail, List.append_assoc]

theorem length_optionsTail (link : List Char) : (optionsTail link).length ≤ 15 := by
  have hpad := length_padding (utf8 link).length
  have h9 : (optionBytes 9 [6]).length = 8 := by decide
  have h0 : (optionBytes 0 []).length = 4 := by decide
  simp only [optionsTail, List.length_append, h9, h0]
  omega

theorem readU16_high {data : List UInt8} {offset length : Nat}
    (h : readU16 (data.drop offset) 2 true = some length) :
    ∃ low high : UInt8, data[offset + 3]? = some high ∧ length = low.toNat + 256 * high.toNat := by
  unfold readU16 readWord at h
  rw [List.drop_drop] at h
  dsimp only at h
  split_ifs at h with hlen hle
  · obtain ⟨low, high, hword⟩ := List.length_eq_two.mp hlen
    rw [hword] at h
    cases h
    refine ⟨low, high, ?_, by simp [ofLeBytes]⟩
    have hget := congrArg (·[1]?) hword
    simpa [List.getElem?_take, List.getElem?_drop, Nat.add_assoc] using hget
  · exact absurd rfl hle

/-- An option that is read where the name is leaves out much of it. -/
theorem option_leaves_out {link : List Char} (hlong : 2 ^ 16 ≤ (utf8 link).length)
    {offset length : Nat} (hlength : readU16 ((interfaceOptions link).drop offset) 2 true = some length)
    (hle : offset + 4 + length ≤ (interfaceOptions link).length) :
    length + 2048 ≤ (utf8 link).length := by
  have htail := length_optionsTail link
  have hsplit := interfaceOptions_eq link
  have hlen : (interfaceOptions link).length =
      4 + ((utf8 link).length + (optionsTail link).length) := by
    rw [hsplit]
    simp only [List.length_append, length_leBytes]
  rcases Nat.eq_zero_or_pos offset with rfl | hpos
  · have hread : readU16 (interfaceOptions link) 2 true = some ((utf8 link).length % 256 ^ 2) := by
      rw [hsplit, List.append_assoc]
      exact readWord_append _ _ _ (by simp)
    rw [List.drop_zero, hread] at hlength
    cases hlength
    omega
  · obtain ⟨low, high, hget, rfl⟩ := readU16_high hlength
    have hlow := low.toNat_lt
    rcases Nat.lt_or_ge (offset + 3) (4 + (utf8 link).length) with hin | hout
    · have hfront : (leBytes 2 2 ++ leBytes 2 (utf8 link).length).length = 4 := by simp
      have hmem : high ∈ utf8 link := by
        rw [hsplit, List.getElem?_append_right (by omega), hfront,
          List.getElem?_append_left (by omega)] at hget
        exact List.mem_of_getElem? hget
      have hhigh := toNat_utf8_le high hmem
      omega
    · omega

/-- A name of 2^16 bytes or more is not read as it was written. -/
theorem readInterface_long {link : List Char} (hlong : 2 ^ 16 ≤ (utf8 link).length)
    (linktype : UInt32) (s : Section) (index : Nat) :
    (readInterface (s.defaultLink index) link linktype).link ≠ link := by
  have htail := length_optionsTail link
  have hchars := length_encode_le link
  have hnames := @parseIdbOptions_names (fun name => name.length < link.length) true _
      (interfaceOptions link) le_rfl (6, false, none) (fun _ hname => absurd hname (by simp))
      (fun offset length name hlength hle hname => by
      have hout := option_leaves_out hlong hlength hle
      have hname := length_optionName hname
      have hslice := length_fromUtf8Lossy_slice link (optionsTail link) offset length
      have hdrop : (interfaceOptions link).drop (offset + 4) =
          (utf8 link ++ optionsTail link).drop offset := by
        rw [interfaceOptions_eq, Nat.add_comm offset 4, ← List.drop_drop, List.drop_left' (by simp)]
      rw [hdrop] at hname
      omega)
  intro heq
  unfold readInterface at heq
  dsimp only at heq
  cases hname : (parseIdbOptions true (interfaceOptions link) (6, false, none)).2.2 with
  | none =>
    rw [hname, Option.getD_none] at heq
    have hdefault := length_defaultLink s index
    rw [heq] at hdefault
    omega
  | some name =>
    rw [hname, Option.getD_some] at heq
    have hlt := hnames name hname
    rw [heq] at hlt
    exact Nat.lt_irrefl _ hlt

/-! ## The round trip -/

/-- A frame that can be stored: its name is neither blank nor ends in a NUL. -/
structure Storable (raw : StoredFrame) : Prop where
  bytes_ne_nil : raw.bytes ≠ []
  bytes_le : raw.bytes.length ≤ maxCaptureFrameBytes
  link_not_blank : raw.link.all Rust.isWhitespace = false
  link_no_nul : raw.link.getLast? ≠ some (Char.ofNat 0)
  linkType_lt : raw.linkType < 65536

theorem Storable.link_ne_nil {raw : StoredFrame} (h : Storable raw) : raw.link ≠ [] := by
  intro hnil
  have hblank := h.link_not_blank
  rw [hnil] at hblank
  cases hblank

theorem Storable.fits {raw : StoredFrame} (h : Storable raw)
    (hlink : (utf8 raw.link).length ≤ 2 ^ 18) : Fits raw where
  bytes_ne_nil := h.bytes_ne_nil
  bytes_le := h.bytes_le
  frameLink_eq := if_neg (by rw [h.link_not_blank]; exact Bool.false_ne_true)
  link_le := hlink

theorem interfaces_foldl {frames : List StoredFrame} (h : ∀ f ∈ frames, Fits f) {w : PcapNgWriter}
    (hnodup : w.interfaces.Nodup) :
    (frames.foldl PcapNgWriter.writeFrame w).interfaces.Nodup ∧
      ∀ key, key ∈ (frames.foldl PcapNgWriter.writeFrame w).interfaces ↔
        key ∈ w.interfaces ∨ key ∈ frames.map frameKey := by
  induction frames generalizing w with
  | nil => exact ⟨hnodup, fun key => by simp⟩
  | cons raw frames ih =>
    have hwritten := (written_writeFrame (w := w) (h raw List.mem_cons_self)).interfaces_eq
    have hnodup' : (w.writeFrame raw).interfaces.Nodup := by
      rw [hwritten]
      split_ifs with hmem
      · exact hnodup
      · exact List.nodup_append.mpr ⟨hnodup, List.nodup_singleton _, fun a ha b hb hab => by
          rw [List.mem_singleton.mp hb] at hab
          exact hmem (hab ▸ ha)⟩
    obtain ⟨hfinal, hkeys⟩ := ih (fun f hf => h f (List.mem_cons_of_mem _ hf)) hnodup'
    refine ⟨hfinal, fun key => ?_⟩
    rw [List.foldl_cons, hkeys, hwritten, List.map_cons, List.mem_cons]
    split_ifs with hmem
    · constructor
      · rintro (hkey | hkey)
        · exact .inl hkey
        · exact .inr (.inr hkey)
      · rintro (hkey | rfl | hkey)
        · exact .inl hkey
        · exact .inl hmem
        · exact .inr hkey
    · rw [List.mem_append, List.mem_singleton, or_assoc]

/-- There are as many interfaces as different keys. -/
theorem length_interfacesOf {frames : List StoredFrame} (h : ∀ f ∈ frames, Fits f) :
    (interfacesOf frames).Nodup ∧ (∀ key, key ∈ interfacesOf frames ↔ key ∈ frames.map frameKey) ∧
      (interfacesOf frames).length = (frames.map frameKey).dedup.length := by
  obtain ⟨hnodup, hkeys⟩ := interfaces_foldl h (w := PcapNgWriter.new) List.nodup_nil
  have hmem : ∀ key, key ∈ interfacesOf frames ↔ key ∈ frames.map frameKey := fun key =>
    (hkeys key).trans (or_iff_right List.not_mem_nil)
  refine ⟨hnodup, hmem, ?_⟩
  refine ((List.perm_ext_iff_of_nodup hnodup (List.nodup_dedup _)).mpr fun key => ?_).length_eq
  rw [List.mem_dedup]
  exact hmem key

theorem frameKey_of_readFrame {interface : PcapNgInterface} {raw : StoredFrame}
    (h : readFrame interface raw = raw) : frameKey raw = (interface.link, interface.linktype) :=
  congrArg frameKey h.symm

/-- The interface at the index that is in the block of the frame. -/
theorem readAs_eq {interfaces : List (List Char × UInt32)} {raw : StoredFrame}
    {key : List Char × UInt32} {index : Nat}
    (hindex : interfaces.idxOf (frameKey raw) % 2 ^ 32 = index) (hkey : interfaces[index]? = some key) :
    readAs interfaces raw =
      readFrame (readInterface ((⟨true, true, 1, []⟩ : Section).defaultLink index) key.1 key.2) raw := by
  unfold readAs
  rw [hindex, List.getD_eq_getElem?_getD, readInterfaces, List.getElem?_mapIdx, hkey]
  rfl

/-- Short names and few interfaces: every frame is read as it was. -/
theorem readAs_short {frames : List StoredFrame} {raw : StoredFrame} (hraw : Storable raw)
    (hkey : frameKey raw ∈ interfacesOf frames) (hlen : (utf8 raw.link).length < 2 ^ 16)
    (hcount : (interfacesOf frames).length ≤ 2 ^ 32) : readAs (interfacesOf frames) raw = raw := by
  have hlt := List.idxOf_lt_length_of_mem hkey
  have hindex : (interfacesOf frames).idxOf (frameKey raw) % 2 ^ 32 =
      (interfacesOf frames).idxOf (frameKey raw) := Nat.mod_eq_of_lt (by omega)
  have hget : (interfacesOf frames)[(interfacesOf frames).idxOf (frameKey raw)]? =
      some (frameKey raw) := by
    rw [List.getElem?_eq_getElem hlt, List.getElem_idxOf]
  rw [readAs_eq hindex hget, frameKey,
    readInterface_short hraw.link_ne_nil hraw.link_no_nul hlen hraw.linkType_lt]
  rfl

/-- More than 2^32 interfaces: some frame is read as one of another. -/
theorem length_le_of_readAs {frames : List StoredFrame} (hfits : ∀ f ∈ frames, Fits f)
    (hread : ∀ f ∈ frames, readAs (interfacesOf frames) f = f) :
    (interfacesOf frames).length ≤ 2 ^ 32 := by
  obtain ⟨hnodup, hkeys, -⟩ := length_interfacesOf hfits
  by_contra hlt
  rw [Nat.not_le] at hlt
  have hframe : ∀ i (hi : i < (interfacesOf frames).length), ∃ f ∈ frames,
      frameKey f = (interfacesOf frames)[i] ∧ (interfacesOf frames).idxOf (frameKey f) = i := by
    intro i hi
    obtain ⟨f, hf, hkey⟩ := List.mem_map.mp ((hkeys _).mp (List.getElem_mem hi))
    exact ⟨f, hf, hkey, by rw [hkey, hnodup.idxOf_getElem]⟩
  obtain ⟨first, hfirst, hkeyFirst, hindexFirst⟩ := hframe 0 (by omega)
  obtain ⟨last, hlast, hkeyLast, hindexLast⟩ := hframe (2 ^ 32) hlt
  have hzero : (interfacesOf frames)[0]? = some (frameKey first) := by
    rw [List.getElem?_eq_getElem (by omega), hkeyFirst]
  have hreadFirst := (readAs_eq (by rw [hindexFirst]; rfl) hzero).symm.trans (hread first hfirst)
  have hreadLast := (readAs_eq (by rw [hindexLast, Nat.mod_self]) hzero).symm.trans (hread last hlast)
  have hsame : frameKey last = frameKey first :=
    (frameKey_of_readFrame hreadLast).trans (frameKey_of_readFrame hreadFirst).symm
  rw [hsame, hindexFirst] at hindexLast
  omega

theorem link_short_of_readAs {frames : List StoredFrame} {raw : StoredFrame}
    (hkey : frameKey raw ∈ interfacesOf frames) (hcount : (interfacesOf frames).length ≤ 2 ^ 32)
    (hread : readAs (interfacesOf frames) raw = raw) : (utf8 raw.link).length < 2 ^ 16 := by
  by_contra hlong
  rw [Nat.not_lt] at hlong
  have hlt := List.idxOf_lt_length_of_mem hkey
  have hindex : (interfacesOf frames).idxOf (frameKey raw) % 2 ^ 32 =
      (interfacesOf frames).idxOf (frameKey raw) := Nat.mod_eq_of_lt (by omega)
  have hget : (interfacesOf frames)[(interfacesOf frames).idxOf (frameKey raw)]? =
      some (frameKey raw) := by
    rw [List.getElem?_eq_getElem hlt, List.getElem_idxOf]
  rw [readAs_eq hindex hget] at hread
  exact readInterface_long hlong (frameKey raw).2 _ _
    (congrArg Prod.fst (frameKey_of_readFrame hread)).symm

theorem bounds_of_visit {frames : List StoredFrame} (h : ∀ f ∈ frames, Storable f)
    (hvisit : visitPcapng Section.start (saveFrames frames) =
      .ok (.sectionStart :: frames.map .frame)) :
    (∀ f ∈ frames, (utf8 f.link).length < 2 ^ 16) ∧
      (frames.map frameKey).dedup.length ≤ 2 ^ 32 := by
  have hnames := visitPcapng_names (s := Section.start) (fun i hi => absurd hi List.not_mem_nil) hvisit
  have hfits : ∀ f ∈ frames, Fits f := fun f hf => (h f hf).fits (by
    have hlink := hnames f (List.mem_cons_of_mem _ (List.mem_map_of_mem hf))
    have hbytes : (utf8 f.link).length ≤ 4 * f.link.length := length_encode_le f.link
    omega)
  obtain ⟨-, hkeys, hlength⟩ := length_interfacesOf hfits
  rw [visit_saveFrames hfits, Except.ok.injEq, List.cons.injEq, List.map_inj_left] at hvisit
  have hread : ∀ f ∈ frames, readAs (interfacesOf frames) f = f := fun f hf =>
    CaptureRecord.frame.inj (hvisit.2 f hf)
  have hcount := length_le_of_readAs hfits hread
  refine ⟨fun f hf => ?_, hlength ▸ hcount⟩
  exact link_short_of_readAs ((hkeys _).mpr (List.mem_map_of_mem hf)) hcount (hread f hf)

theorem visit_of_bounds {frames : List StoredFrame} (h : ∀ f ∈ frames, Storable f)
    (hshort : ∀ f ∈ frames, (utf8 f.link).length < 2 ^ 16)
    (hcount : (frames.map frameKey).dedup.length ≤ 2 ^ 32) :
    visitPcapng Section.start (saveFrames frames) = .ok (.sectionStart :: frames.map .frame) := by
  have hfits : ∀ f ∈ frames, Fits f := fun f hf => (h f hf).fits (by have := hshort f hf; omega)
  obtain ⟨-, hkeys, hlength⟩ := length_interfacesOf hfits
  have hcount' : (interfacesOf frames).length ≤ 2 ^ 32 := hlength ▸ hcount
  rw [visit_saveFrames hfits, Except.ok.injEq, List.cons.injEq, List.map_inj_left]
  refine ⟨rfl, fun f hf => congrArg CaptureRecord.frame ?_⟩
  exact readAs_short (h f hf) ((hkeys _).mpr (List.mem_map_of_mem hf)) (hshort f hf) hcount'

/-- A saved capture is read as it was exactly if every link name has less than 2^16 bytes and there
are at most 2^32 interfaces. -/
theorem visit_saveFrames_iff {frames : List StoredFrame} (h : ∀ f ∈ frames, Storable f) :
    visitPcapng Section.start (saveFrames frames) = .ok (.sectionStart :: frames.map .frame) ↔
      (∀ f ∈ frames, (utf8 f.link).length < 2 ^ 16) ∧
        (frames.map frameKey).dedup.length ≤ 2 ^ 32 :=
  ⟨bounds_of_visit h, fun hbounds => visit_of_bounds h hbounds.1 hbounds.2⟩

/-- Two frames of different links, as the test of the writer has them. -/
theorem visit_saveFrames_two :
    visitPcapng Section.start (saveFrames
        [⟨"link-A".toList, 123, [1, 2, 3], 1⟩, ⟨"link-B".toList, 456, [4], 101⟩]) =
      .ok [.sectionStart, .frame ⟨"link-A".toList, 123, [1, 2, 3], 1⟩,
        .frame ⟨"link-B".toList, 456, [4], 101⟩] := by
  have hstorable : ∀ f ∈ ([⟨"link-A".toList, 123, [1, 2, 3], 1⟩, ⟨"link-B".toList, 456, [4], 101⟩] :
      List StoredFrame), Storable f := by
    intro f hf
    simp only [List.mem_cons, List.not_mem_nil, or_false] at hf
    rcases hf with rfl | rfl
    · exact ⟨by decide, by decide, by decide, by decide, by decide⟩
    · exact ⟨by decide, by decide, by decide, by decide, by decide⟩
  exact (visit_saveFrames_iff hstorable).mpr ⟨by decide, by decide⟩

/-- A name of 2^16 characters is lost. -/
theorem not_visit_long_name :
    visitPcapng Section.start (saveFrames [⟨List.replicate (2 ^ 16) 'a', 0, [0], 1⟩]) ≠
      .ok [.sectionStart, .frame ⟨List.replicate (2 ^ 16) 'a', 0, [0], 1⟩] := by
  have hlength : ∀ n, (utf8 (List.replicate n 'a')).length = n := by
    intro n
    induction n with
    | zero => rfl
    | succ n ih =>
      rw [List.replicate_succ]
      exact congrArg Nat.succ ih
  have hstorable : ∀ n, 0 < n → Storable ⟨List.replicate n 'a', 0, [0], 1⟩ := by
    intro n hn
    have hlast : (List.replicate n 'a').getLast? = some 'a' := by
      rw [List.getLast?_replicate, if_neg (Nat.pos_iff_ne_zero.mp hn)]
    have hbytes : ([0] : List UInt8).length ≤ maxCaptureFrameBytes := by decide
    have htype : (1 : UInt32) < 65536 := by decide
    refine ⟨List.cons_ne_nil 0 [], hbytes, ?_, by rw [hlast]; decide, htype⟩
    rw [List.all_replicate, if_neg (Nat.pos_iff_ne_zero.mp hn)]
    decide
  intro hvisit
  have hbounds := bounds_of_visit (List.forall_mem_singleton.mpr (hstorable _ (by decide))) hvisit
  exact absurd (hbounds.1 _ (List.mem_singleton.mpr rfl)) (Nat.not_lt.mpr (hlength _).ge)

end TauTerm.Trdp
