import Mathlib
import TauTerm.Transfer.YModemDelivery

/-!
# Block 0 of YModem, written and read back

The metadata block of `ymodem_send` and what the outer loop of `ymodem_receive` makes of it. A
string of more than 125 bytes goes into a block of the configured size. One of 1024 bytes is taken
for data, and in one of 128 bytes the two bytes of the sector count overwrite the end of the
string (`Intact` says when that does no harm).
-/

namespace TauTerm.Transfer.YModem

open Lib XModem

/-! ## The sender -/

/-- A number as `format!` prints it. -/
def printDigits (base n : Nat) : List UInt8 :=
  (Nat.toDigits base n).map fun c => UInt8.ofNat c.toNat

structure FileInfo where
  name : List Char
  size : Nat
  mtime : Nat
  deriving DecidableEq

/-- What is left of a batch. The sizes of its files are summed in 64 bits. -/
structure Outgoing where
  fileInfo : FileInfo
  laterFiles : List FileInfo
  filesLeft : Nat
  filesLeft_lt : filesLeft < 2 ^ 32
  total_lt : ((fileInfo :: laterFiles).map FileInfo.size).sum < 2 ^ 64

namespace Outgoing

def totalLeft (o : Outgoing) : Nat := ((o.fileInfo :: o.laterFiles).map FileInfo.size).sum

/-- The fields behind the name, up to `filesleft`. -/
def leadingFields (o : Outgoing) : List UInt8 :=
  printDigits 10 o.fileInfo.size ++ 0x20 :: (printDigits 8 o.fileInfo.mtime ++
    0x20 :: (printDigits 8 0o100644 ++ 0x20 :: (printDigits 10 0 ++
      0x20 :: printDigits 10 o.filesLeft)))

/-- `meta_str`. -/
def metaStr (o : Outgoing) : List UInt8 :=
  utf8 (safeName o.fileInfo.name) ++
    0 :: (o.leadingFields ++ 0x20 :: printDigits 10 o.totalLeft)

def sectors (o : Outgoing) : Nat := (o.fileInfo.size + 127) % 2 ^ 64 / 128

/-- `b0_block_size`. -/
def b0BlockSize (userBlockSize : Nat) (o : Outgoing) : Nat :=
  if 125 < o.metaStr.length then userBlockSize else 128

def block0 (userBlockSize : Nat) (o : Outgoing) : List UInt8 :=
  let size := o.b0BlockSize userBlockSize
  let copied := o.metaStr.take size
  let block := copied ++ List.replicate (size - copied.length) 0
  if 128 ≤ size then
    (block.set 126 (UInt8.ofNat o.sectors)).set 127 (UInt8.ofNat (o.sectors / 256))
  else block

end Outgoing

/-! ## The remaining files -/

/-- `split_whitespace`, on characters that are one byte. -/
def splitWhitespace (info : List UInt8) : List (List UInt8) :=
  (info.splitOnP isWhitespace).filter (· ≠ [])

/-- `str::parse::<u32>`. -/
def parseU32 (token : List UInt8) : Option Nat := (parseU64 token).filter (· < 2 ^ 32)

/-- The `filesleft` a block 0 announces, 0 if it does not. -/
def announcedFilesLeft (info : List UInt8) : Nat :=
  ((splitWhitespace info)[4]?.bind parseU32).getD 0

/-- The text behind a name that ends at `pos`. -/
def infoStr (data : List UInt8) (pos : Nat) : List UInt8 :=
  (data.drop (pos + 1)).takeWhile (· != 0)

/-- The `filesleft` of a block 0 with a NUL. -/
def receivedFilesLeft (data : List UInt8) : Option Nat :=
  (data.findIdx? (· == 0)).map fun pos => announcedFilesLeft (infoStr data pos)

/-! ## Numbers -/

theorem toDigits_range {base n : Nat} {c : Char} (hbase : 0 < base) (hle : base ≤ 10)
    (h : c ∈ Nat.toDigits base n) : 0x30 ≤ c.toNat ∧ c.toNat ≤ 0x39 := by
  have hdigit := Nat.isDigit_of_mem_toDigits hbase hle h
  simp only [Char.isDigit, Bool.and_eq_true, decide_eq_true_eq, ge_iff_le,
    UInt32.le_iff_toNat_le] at hdigit
  exact hdigit

theorem isDigit_printDigits {base n : Nat} {b : UInt8} (hbase : 0 < base) (hle : base ≤ 10)
    (h : b ∈ printDigits base n) : isDigit b = true := by
  obtain ⟨c, hc, rfl⟩ := List.mem_map.mp h
  have hrange := toDigits_range hbase hle hc
  simp only [isDigit, Bool.and_eq_true, decide_eq_true_eq, UInt8.le_iff_toNat_le,
    toNat_ofNat_of_lt (show c.toNat < 256 by omega)]
  exact hrange

theorem printDigits_ne_nil (base n : Nat) : printDigits base n ≠ [] := by
  unfold printDigits
  rw [ne_eq, List.map_eq_nil_iff]
  exact Nat.toDigits_ne_nil

/-- The digits of a number add up to it. -/
theorem foldl_printDigits (n : Nat) :
    (printDigits 10 n).foldl (fun acc b => acc * 10 + (b.toNat - 0x30)) 0 = n := by
  have hfold : ∀ (cs : List Char) (acc : Nat), (∀ c ∈ cs, c.toNat < 256) →
      (cs.map fun c => UInt8.ofNat c.toNat).foldl (fun acc b => acc * 10 + (b.toNat - 0x30)) acc =
        Nat.ofDigitChars 10 cs acc := by
    intro cs
    induction cs with
    | nil => exact fun acc _ => Nat.ofDigitChars_nil.symm
    | cons c cs ih =>
      intro acc h
      rw [List.map_cons, List.foldl_cons, Nat.ofDigitChars_cons,
        toNat_ofNat_of_lt (h c List.mem_cons_self), ih _ fun d hd => h d (List.mem_cons_of_mem _ hd),
        Nat.mul_comm]
      rfl
  refine (hfold _ 0 fun c hc => ?_).trans Nat.ofDigitChars_ten_toDigits
  have hrange := toDigits_range (by decide) (by decide) hc
  omega

theorem printDigits_length_eq_one_iff (n : Nat) : (printDigits 10 n).length = 1 ↔ n < 10 := by
  have hpos := Nat.length_toDigits_pos (b := 10) (n := n)
  have hle := Nat.length_toDigits_le_iff (b := 10) (n := n) (k := 1) (by decide) (by decide)
  rw [printDigits, List.length_map]
  omega

set_option maxRecDepth 20000 in
theorem isDigit_ne {b : UInt8} (h : isDigit b = true) : b ≠ 0x2B ∧ b ≠ 0 ∧ isWhitespace b = false := by
  have hall : ∀ n : Fin 256, isDigit (UInt8.ofNat n) = true →
      UInt8.ofNat n ≠ 0x2B ∧ UInt8.ofNat n ≠ 0 ∧ isWhitespace (UInt8.ofNat n) = false := by
    decide
  have hb := hall ⟨b.toNat, b.toNat_lt⟩
  rw [UInt8.ofNat_toNat] at hb
  exact hb h

theorem parseU64_printDigits {n : Nat} (hn : n < 2 ^ 64) : parseU64 (printDigits 10 n) = some n := by
  have hhead : (printDigits 10 n).head? ≠ some 0x2B := by
    intro h
    exact (isDigit_ne (isDigit_printDigits (by decide) (by decide) (List.mem_of_mem_head? h))).1 rfl
  have hall : (printDigits 10 n).all isDigit = true :=
    List.all_eq_true.mpr fun b hb => isDigit_printDigits (by decide) (by decide) hb
  simp only [parseU64]
  rw [if_neg hhead, foldl_printDigits, if_pos ⟨printDigits_ne_nil 10 n, hall, hn⟩]

theorem parseU32_printDigits {n : Nat} (hn : n < 2 ^ 32) : parseU32 (printDigits 10 n) = some n := by
  rw [parseU32, parseU64_printDigits (by omega)]
  exact Option.filter_eq_some_iff.mpr ⟨rfl, by simpa using hn⟩

/-- A control character behind the digits spoils a number. -/
theorem parseU32_append_control (n : Nat) : parseU32 (printDigits 10 n ++ [0x01]) = none := by
  have hhead : (printDigits 10 n ++ [0x01]).head? ≠ some 0x2B := by
    rw [List.head?_append_of_ne_nil _ (printDigits_ne_nil 10 n)]
    intro h
    exact (isDigit_ne (isDigit_printDigits (by decide) (by decide) (List.mem_of_mem_head? h))).1 rfl
  have hall : (printDigits 10 n ++ [0x01]).all isDigit = false := by
    rw [List.all_append]
    exact Bool.and_false _
  simp only [parseU32, parseU64]
  rw [if_neg hhead, if_neg (by rw [hall]; simp)]
  rfl

/-! ## Fields -/

/-- A field: nothing in it is white space. -/
def IsField (token : List UInt8) : Prop := token ≠ [] ∧ ∀ b ∈ token, isWhitespace b = false

theorem isField_printDigits {base n : Nat} (hbase : 0 < base) (hle : base ≤ 10) :
    IsField (printDigits base n) :=
  ⟨printDigits_ne_nil base n, fun _ hb => (isDigit_ne (isDigit_printDigits hbase hle hb)).2.2⟩

theorem splitWhitespace_cons {token : List UInt8} (h : IsField token) (rest : List UInt8) :
    splitWhitespace (token ++ 0x20 :: rest) = token :: splitWhitespace rest := by
  unfold splitWhitespace
  rw [List.splitOnP_append_cons_of_forall_mem h.2 0x20 rfl]
  exact List.filter_cons_of_pos (by simpa using h.1)

theorem splitWhitespace_singleton {token : List UInt8} (h : IsField token) :
    splitWhitespace token = [token] := by
  unfold splitWhitespace
  rw [List.splitOnP_eq_singleton h.2]
  exact List.filter_cons_of_pos (by simpa using h.1)

theorem firstToken_cons {token : List UInt8} (h : IsField token) (rest : List UInt8) :
    firstToken (token ++ 0x20 :: rest) = token := by
  obtain ⟨b, bs, rfl⟩ := List.exists_cons_of_ne_nil h.1
  unfold firstToken
  rw [List.cons_append, List.dropWhile_cons_of_neg (by simp [h.2 b List.mem_cons_self]),
    ← List.cons_append, List.takeWhile_append_of_pos fun c hc => by simp [h.2 c hc]]
  exact List.append_nil _

/-! ## The block -/

namespace Outgoing

variable {o : Outgoing}

/-- A name without separators and without a NUL. -/
def IsBaseName (name : List Char) : Prop := name ≠ [] ∧ '/' ∉ name ∧ Char.ofNat 0 ∉ name

instance (name : List Char) : Decidable (IsBaseName name) :=
  inferInstanceAs (Decidable (_ ∧ _ ∧ _))

theorem splitSlash_of_not_mem {text : List Char} (h : '/' ∉ text) : splitSlash text = [text] := by
  induction text with
  | nil => rfl
  | cons c text ih =>
    rw [List.mem_cons, not_or] at h
    unfold splitSlash
    rw [if_neg (Ne.symm h.1), ih h.2]

theorem safeName_of_isBaseName {name : List Char} (h : '/' ∉ name) : safeName name = name := by
  have hnew : Path.new name = ⟨false, [name]⟩ := by
    unfold Path.new
    split
    · exact absurd List.mem_cons_self h
    · rw [splitSlash_of_not_mem h]
  unfold safeName
  cases hfile : (Path.new name).fileName with
  | none => rfl
  | some found =>
    have hmem := (Path.fileName_normal hfile).1
    rw [hnew] at hmem
    exact List.mem_singleton.mp hmem

theorem zero_not_mem_encode {c : Char} (hc : c ≠ Char.ofNat 0) : 0 ∉ String.utf8EncodeChar c := by
  have hv : c.val.toNat ≠ 0 := fun h => hc (Char.ext (UInt32.toNat_inj.mp h))
  have hne : ∀ n, 0 < n → n < 256 → (0 : UInt8) ≠ UInt8.ofNat n := fun n hpos hlt h => by
    have hz := congrArg UInt8.toNat h
    rw [toNat_ofNat_of_lt hlt] at hz
    exact absurd hz.symm (Nat.pos_iff_ne_zero.mp hpos)
  unfold String.utf8EncodeChar
  dsimp only
  intro hmem
  split_ifs at hmem
  all_goals simp only [List.mem_cons, List.not_mem_nil, or_false] at hmem
  · exact hne _ (by omega) (by omega) hmem
  · rcases hmem with h | h <;> exact hne _ (by omega) (by omega) h
  · rcases hmem with h | h | h <;> exact hne _ (by omega) (by omega) h
  · rcases hmem with h | h | h | h <;> exact hne _ (by omega) (by omega) h

/-- The bytes of the name. -/
def nameBytes (o : Outgoing) : List UInt8 := utf8 (safeName o.fileInfo.name)

/-- What is behind the NUL. -/
def infoBytes (o : Outgoing) : List UInt8 :=
  o.leadingFields ++ 0x20 :: printDigits 10 o.totalLeft

theorem metaStr_eq (o : Outgoing) : o.metaStr = o.nameBytes ++ 0 :: o.infoBytes := rfl

theorem nameBytes_ne_zero (h : IsBaseName o.fileInfo.name) : ∀ b ∈ o.nameBytes, b ≠ 0 := by
  intro b hb hzero
  subst hzero
  rw [nameBytes, safeName_of_isBaseName h.2.1] at hb
  obtain ⟨c, hc, hmem⟩ := List.mem_flatMap.mp hb
  refine zero_not_mem_encode ?_ hmem
  rintro rfl
  exact h.2.2 hc

theorem nameBytes_ne_nil (h : IsBaseName o.fileInfo.name) : o.nameBytes ≠ [] := by
  obtain ⟨c, cs, hname⟩ := List.exists_cons_of_ne_nil h.1
  rw [nameBytes, safeName_of_isBaseName h.2.1, hname, utf8_cons]
  exact List.append_ne_nil_of_left_ne_nil String.utf8EncodeChar_ne_nil _

theorem decode_nameBytes (h : IsBaseName o.fileInfo.name) :
    safeName (fromUtf8Lossy o.nameBytes) = o.fileInfo.name := by
  rw [nameBytes, fromUtf8Lossy_encode, safeName_of_isBaseName h.2.1, safeName_of_isBaseName h.2.1]

theorem infoBytes_ne_zero (o : Outgoing) : ∀ b ∈ o.infoBytes, b ≠ 0 := by
  have hdigits : ∀ (base n : Nat), 0 < base → base ≤ 10 → ∀ b ∈ printDigits base n, b ≠ 0 :=
    fun _ _ hbase hle _ hb => (isDigit_ne (isDigit_printDigits hbase hle hb)).2.1
  intro b hb
  simp only [infoBytes, leadingFields, List.mem_append, List.mem_cons] at hb
  rcases hb with (hb | hb | hb | hb | hb | hb | hb | hb | hb) | hb | hb
  all_goals first | (subst hb; decide) | exact hdigits _ _ (by decide) (by decide) b hb

/-- There are at least sixteen bytes behind the NUL, fifteen of them behind the size. -/
theorem length_leadingFields (o : Outgoing) : 14 ≤ o.leadingFields.length := by
  have hpos : ∀ base n, 1 ≤ (printDigits base n).length := fun base n =>
    List.length_pos_iff.mpr (printDigits_ne_nil base n)
  have h1 := hpos 10 o.fileInfo.size
  have h2 := hpos 8 o.fileInfo.mtime
  have h3 := hpos 10 o.filesLeft
  have h4 := hpos 10 0
  have h5 : (printDigits 8 0o100644).length = 6 := by decide
  simp only [leadingFields, List.length_append, List.length_cons]
  omega

/-- Behind the first 126 bytes of a short block is the sector count. -/
theorem block0_short {userBlockSize : Nat} (hsize : o.b0BlockSize userBlockSize = 128)
    (hfits : o.metaStr.length ≤ 128) :
    o.block0 userBlockSize =
      o.metaStr.take 126 ++ (List.replicate (126 - o.metaStr.length) 0 ++
        [UInt8.ofNat o.sectors, UInt8.ofNat (o.sectors / 256)]) := by
  have hset : ∀ (l : List UInt8) (lo hi : UInt8), l.length = 128 →
      (l.set 126 lo).set 127 hi = l.take 126 ++ [lo, hi] := by
    intro l lo hi hl
    refine List.ext_getElem? fun i => ?_
    simp only [List.getElem?_set, List.getElem?_append, List.length_take, List.getElem?_take,
      List.length_set]
    by_cases h127 : i = 127
    · subst h127
      simp [hl]
    · by_cases h126 : i = 126
      · subst h126
        simp [hl]
      · rcases Nat.lt_or_ge i 126 with hlt | hge
        · simp [hl, hlt, Ne.symm h126, Ne.symm h127]
        · rw [if_neg (Ne.symm h127), if_neg (Ne.symm h126), if_neg (by omega)]
          rw [List.getElem?_eq_none (by omega), List.getElem?_eq_none (by simp; omega)]
  unfold block0
  simp only [hsize]
  rw [if_pos (le_refl 128), List.take_of_length_le hfits, hset _ _ _ (by simp; omega),
    List.take_append, List.take_replicate, ← List.append_assoc]
  congr 3
  omega

/-! ## Reading the block -/

theorem findIdx?_zero {name rest : List UInt8} (h : ∀ b ∈ name, b ≠ 0) :
    (name ++ 0 :: rest).findIdx? (· == 0) = some name.length := by
  have hnone : name.findIdx? (· == 0) = none :=
    List.findIdx?_eq_none_iff.mpr fun b hb => beq_eq_false_iff_ne.mpr (h b hb)
  rw [List.findIdx?_append, hnone, List.findIdx?_cons]
  simp

theorem infoStr_append {name rest : List UInt8} :
    infoStr (name ++ 0 :: rest) name.length = rest.takeWhile (· != 0) := by
  rw [infoStr, List.drop_length_add_append, List.drop_succ_cons, List.drop_zero]

/-- What the sector count leaves of the fields, and what it adds to them. -/
theorem infoStr_block0 {userBlockSize : Nat} (hsize : o.b0BlockSize userBlockSize = 128)
    (hfits : o.metaStr.length ≤ 128) :
    ∃ rest, o.block0 userBlockSize = o.nameBytes ++ 0 :: rest ∧
      rest.takeWhile (· != 0) =
        if o.metaStr.length ≤ 125 then o.infoBytes
        else o.infoBytes.take (125 - o.nameBytes.length) ++
          [UInt8.ofNat o.sectors, UInt8.ofNat (o.sectors / 256)].takeWhile (· != 0) := by
  have hlen : o.metaStr.length = o.nameBytes.length + (o.infoBytes.length + 1) := by
    rw [metaStr_eq, List.length_append, List.length_cons]
  have hinfo : 15 ≤ o.infoBytes.length := by
    have hlead := o.length_leadingFields
    rw [infoBytes, List.length_append, List.length_cons]
    omega
  have htake : o.metaStr.take 126 =
      o.nameBytes ++ 0 :: o.infoBytes.take (125 - o.nameBytes.length) := by
    rw [metaStr_eq, List.take_append, List.take_of_length_le (by omega),
      show 126 - o.nameBytes.length = (125 - o.nameBytes.length) + 1 by omega, List.take_succ_cons]
  have hpos : ∀ (fields rest : List UInt8), (∀ b ∈ fields, b ≠ 0) →
      (fields ++ rest).takeWhile (· != 0) = fields ++ rest.takeWhile (· != 0) :=
    fun fields rest h => List.takeWhile_append_of_pos fun b hb => bne_iff_ne.mpr (h b hb)
  refine ⟨_, by rw [block0_short hsize hfits, htake, List.append_assoc, List.cons_append], ?_⟩
  rw [hpos _ _ fun b hb => o.infoBytes_ne_zero b (List.mem_of_mem_take hb)]
  split_ifs with hshort
  · rw [List.take_of_length_le (by omega),
      show 126 - o.metaStr.length = (125 - o.metaStr.length) + 1 by omega, List.replicate_succ]
    exact List.append_nil _
  · rw [show 126 - o.metaStr.length = 0 by omega]
    rfl

theorem announcedSize_fields (o : Outgoing) (rest : List UInt8) :
    announcedSize (o.leadingFields ++ rest) = o.fileInfo.size := by
  have hle : o.fileInfo.size < 2 ^ 64 :=
    Nat.lt_of_le_of_lt (by simp) o.total_lt
  rw [announcedSize, leadingFields, List.append_assoc, List.cons_append,
    firstToken_cons (isField_printDigits (by decide) (by decide)), parseU64_printDigits hle]
  rfl

/-- The remaining files are in the fifth field. -/
theorem announcedFilesLeft_fields (o : Outgoing) (rest : List UInt8) :
    announcedFilesLeft (o.leadingFields ++ rest) =
      ((splitWhitespace (printDigits 10 o.filesLeft ++ rest))[0]?.bind parseU32).getD 0 := by
  have hfield : ∀ base n, 0 < base → base ≤ 10 → IsField (printDigits base n) :=
    fun base n hbase hle => isField_printDigits hbase hle
  unfold announcedFilesLeft leadingFields
  simp only [List.append_assoc, List.cons_append]
  rw [splitWhitespace_cons (hfield 10 _ (by decide) (by decide)),
    splitWhitespace_cons (hfield 8 _ (by decide) (by decide)),
    splitWhitespace_cons (hfield 8 _ (by decide) (by decide)),
    splitWhitespace_cons (hfield 10 _ (by decide) (by decide))]
  rfl

theorem announcedFilesLeft_intact (o : Outgoing) (rest : List UInt8)
    (h : rest = [] ∨ ∃ junk, rest = 0x20 :: junk) :
    announcedFilesLeft (o.leadingFields ++ rest) = o.filesLeft := by
  have hfield := @isField_printDigits 10 o.filesLeft (by decide) (by decide)
  rw [announcedFilesLeft_fields]
  rcases h with rfl | ⟨junk, rfl⟩
  · rw [List.append_nil, splitWhitespace_singleton hfield]
    simp [parseU32_printDigits o.filesLeft_lt]
  · rw [splitWhitespace_cons hfield]
    simp [parseU32_printDigits o.filesLeft_lt]

theorem announcedFilesLeft_spoiled (o : Outgoing) :
    announcedFilesLeft (o.leadingFields ++ [0x01]) = 0 := by
  have hfield := @isField_printDigits 10 o.filesLeft (by decide) (by decide)
  have hspoiled : IsField (printDigits 10 o.filesLeft ++ [0x01]) := by
    refine ⟨List.append_ne_nil_of_left_ne_nil hfield.1 _, fun b hb => ?_⟩
    rcases List.mem_append.mp hb with hb | hb
    · exact hfield.2 b hb
    · rw [List.mem_singleton.mp hb]
      rfl
  rw [announcedFilesLeft_fields, splitWhitespace_singleton hspoiled]
  simp [parseU32_append_control]

/-- The sector count begins where the space in front of a total of one digit was. -/
def Overwritten (o : Outgoing) : Prop := o.metaStr.length = 128 ∧ o.totalLeft < 10

theorem sectors_of_overwritten (h : o.totalLeft < 10) :
    [UInt8.ofNat o.sectors, UInt8.ofNat (o.sectors / 256)].takeWhile (· != 0) =
      if o.fileInfo.size = 0 then [] else [0x01] := by
  have hle : o.fileInfo.size ≤ o.totalLeft := by
    rw [totalLeft, List.map_cons, List.sum_cons]
    exact Nat.le_add_right _ _
  split_ifs with hzero
  · rw [sectors, hzero]
    rfl
  · have hone : o.sectors = 1 := by
      rw [sectors]
      omega
    rw [hone]
    rfl

theorem block0_text {userBlockSize : Nat} (hsize : o.b0BlockSize userBlockSize = 128)
    (hfits : o.metaStr.length ≤ 128) :
    ∃ rest text, o.block0 userBlockSize = o.nameBytes ++ 0 :: rest ∧
      rest.takeWhile (· != 0) = o.leadingFields ++ text ∧
      (¬o.Overwritten ∧ (∃ junk, text = 0x20 :: junk) ∨
        o.Overwritten ∧ text = if o.fileInfo.size = 0 then [] else [0x01]) := by
  have hlen : o.metaStr.length =
      o.nameBytes.length + (o.leadingFields.length + ((printDigits 10 o.totalLeft).length + 1) + 1) := by
    rw [metaStr_eq, infoBytes, List.length_append, List.length_cons, List.length_append,
      List.length_cons]
  have hdigit := printDigits_length_eq_one_iff o.totalLeft
  have hlead := o.length_leadingFields
  obtain ⟨rest, hblock, hrest⟩ := infoStr_block0 hsize hfits
  split_ifs at hrest with hshort
  · exact ⟨rest, _, hblock, hrest, .inl ⟨fun h => by have := h.1; omega, _, rfl⟩⟩
  · by_cases hover : o.Overwritten
    · have hone := hdigit.mpr hover.2
      have htake : o.infoBytes.take (125 - o.nameBytes.length) = o.leadingFields := by
        have := hover.1
        rw [infoBytes, List.take_append_of_le_length (by omega), List.take_of_length_le (by omega)]
      rw [htake, sectors_of_overwritten hover.2] at hrest
      exact ⟨rest, _, hblock, hrest, .inr ⟨hover, rfl⟩⟩
    · have hroom : o.leadingFields.length + 1 ≤ 125 - o.nameBytes.length := by
        have hpos := List.length_pos_iff.mpr (printDigits_ne_nil 10 o.totalLeft)
        rw [Overwritten, not_and] at hover
        by_cases h128 : o.metaStr.length = 128
        · have := hover h128
          omega
        · omega
      have htake : o.infoBytes.take (125 - o.nameBytes.length) = o.leadingFields ++
          0x20 :: (printDigits 10 o.totalLeft).take
            (125 - o.nameBytes.length - o.leadingFields.length - 1) := by
        rw [infoBytes, List.take_append, List.take_of_length_le (by omega), List.take_cons (by omega)]
      rw [htake, List.append_assoc] at hrest
      exact ⟨rest, _, hblock, hrest, .inl ⟨hover, _, rfl⟩⟩

/-! ## The receiver -/

instance (o : Outgoing) : Decidable o.Overwritten := inferInstanceAs (Decidable (_ ∧ _))

/-- Received where a further file may begin, the block opens a file of the name and the size that
were sent, and it announces the remaining files that were sent. -/
def ReadBack (userBlockSize : Nat) (o : Outgoing) : Prop :=
  (∀ (downloadDir : Path) (createFile : Path → Option String) (b : Batch),
    ((⟨b, .waiting⟩ : Receiver).run downloadDir createFile
        (arriving (sendPacketOnly 0 (o.block0 userBlockSize) true))).1 =
      (b.complete.openOrFail downloadDir createFile ⟨o.fileInfo.name, o.fileInfo.size⟩
        [ack, wantCrc]).1) ∧
  receivedFilesLeft (o.block0 userBlockSize) = some o.filesLeft

/-- The metadata is in a block of 128 bytes, and the sector count leaves the fields as they are. -/
def Intact (userBlockSize : Nat) (o : Outgoing) : Prop :=
  o.metaStr.length ≤ 125 ∨
    userBlockSize = 128 ∧ ¬(o.Overwritten ∧ 0 < o.fileInfo.size ∧ 0 < o.filesLeft)

instance (userBlockSize : Nat) (o : Outgoing) : Decidable (o.Intact userBlockSize) :=
  inferInstanceAs (Decidable (_ ∨ _ ∧ ¬(_ ∧ _ ∧ _)))

theorem length_block0 {userBlockSize : Nat} (o : Outgoing) :
    (o.block0 userBlockSize).length = o.b0BlockSize userBlockSize := by
  unfold block0
  dsimp only
  split_ifs <;> simp

theorem blockZero_block0 {userBlockSize : Nat} (hname : IsBaseName o.fileInfo.name)
    (hsize : o.b0BlockSize userBlockSize = 128) (hfits : o.metaStr.length ≤ 128)
    (downloadDir : Path) (createFile : Path → Option String) (b : Batch) :
    b.blockZero downloadDir createFile (o.block0 userBlockSize) =
      b.complete.openOrFail downloadDir createFile ⟨o.fileInfo.name, o.fileInfo.size⟩
        [ack, wantCrc] := by
  obtain ⟨rest, text, hblock, hrest, -⟩ := block0_text hsize hfits
  have hzero := nameBytes_ne_zero hname
  have hhead : (o.block0 userBlockSize).head? ≠ some 0 := by
    rw [hblock, List.head?_append_of_ne_nil _ (nameBytes_ne_nil hname)]
    exact fun h => hzero 0 (List.mem_of_mem_head? h) rfl
  have hpadding : (o.block0 userBlockSize).all (· == cpmeof) = false := by
    rw [hblock, List.all_append, List.all_cons]
    simp [cpmeof]
  have hparse : parseNul (o.block0 userBlockSize) o.nameBytes.length =
      ⟨o.fileInfo.name, o.fileInfo.size⟩ := by
    unfold parseNul
    refine (congrArg₂ Metadata.mk ?_ ?_ :)
    · rw [hblock, List.take_left, decode_nameBytes hname]
    · rw [hblock, List.drop_length_add_append, List.drop_succ_cons, List.drop_zero, hrest,
        announcedSize_fields]
  unfold Batch.blockZero
  dsimp only
  rw [if_neg hhead, if_neg (by rw [hpadding]; exact Bool.false_ne_true), hblock, findIdx?_zero hzero,
    ← hblock]
  dsimp only
  rw [hparse, if_neg hname.1]

theorem run_block0 {userBlockSize : Nat} (hname : IsBaseName o.fileInfo.name)
    (hsize : o.b0BlockSize userBlockSize = 128) (hfits : o.metaStr.length ≤ 128)
    (downloadDir : Path) (createFile : Path → Option String) (b : Batch) :
    ((⟨b, .waiting⟩ : Receiver).run downloadDir createFile
        (arriving (sendPacketOnly 0 (o.block0 userBlockSize) true))).1 =
      (b.complete.openOrFail downloadDir createFile ⟨o.fileInfo.name, o.fileInfo.size⟩
        [ack, wantCrc]).1 := by
  have hlen : (o.block0 userBlockSize).length = 128 := o.length_block0.trans hsize
  have hheader : headerOf (o.block0 userBlockSize) ≠ stx := by
    rw [headerOf, hlen]
    decide
  rw [run_sent (.inl hlen), ← blockZero_block0 hname hsize hfits]
  unfold Batch.block
  rw [if_neg (show ¬(!true) = true from Bool.false_ne_true), if_pos ⟨rfl, hheader⟩]

theorem receivedFilesLeft_block0 {userBlockSize : Nat} (hname : IsBaseName o.fileInfo.name)
    (hsize : o.b0BlockSize userBlockSize = 128) (hfits : o.metaStr.length ≤ 128) :
    receivedFilesLeft (o.block0 userBlockSize) = some o.filesLeft ↔
      ¬(o.Overwritten ∧ 0 < o.fileInfo.size ∧ 0 < o.filesLeft) := by
  obtain ⟨rest, text, hblock, hrest, htext⟩ := block0_text hsize hfits
  rw [receivedFilesLeft, hblock, findIdx?_zero (nameBytes_ne_zero hname), Option.map_some,
    infoStr_append, hrest, Option.some_inj]
  rcases htext with ⟨hover, hjunk⟩ | ⟨hover, rfl⟩
  · exact iff_of_true (o.announcedFilesLeft_intact _ (.inr hjunk)) fun h => hover h.1
  · split_ifs with hzero
    · exact iff_of_true (o.announcedFilesLeft_intact _ (.inl rfl)) fun h => by omega
    · rw [announcedFilesLeft_spoiled]
      constructor
      · intro h hbad
        omega
      · intro h
        by_contra hne
        exact h ⟨hover, by omega, by omega⟩

/-- A block of 1024 bytes is taken for data. -/
theorem not_readBack_long (hlen : 125 < o.metaStr.length) : ¬o.ReadBack 1024 := by
  intro h
  have hsize : (o.block0 1024).length = 1024 := by
    rw [length_block0, b0BlockSize, if_pos hlen]
  have hheader : headerOf (o.block0 1024) = stx := if_pos hsize
  have hrun := h.1 (.new []) (fun _ => none) ymodemReceive.1.batch
  rw [run_sent (.inr hsize), hheader, Batch.block,
    if_neg (show ¬(!true) = true from Bool.false_ne_true), if_neg fun h => h.2 rfl] at hrun
  exact absurd (congrArg (fun r : Receiver => r.batch.opened) hrun) (List.cons_ne_nil _ _).symm

theorem readBack_iff_intact {userBlockSize : Nat} (hname : IsBaseName o.fileInfo.name)
    (hconfig : userBlockSize = 128 ∨ userBlockSize = 1024)
    (hfits : o.metaStr.length ≤ o.b0BlockSize userBlockSize) :
    o.ReadBack userBlockSize ↔ o.Intact userBlockSize := by
  by_cases hshort : o.metaStr.length ≤ 125
  · have hsize : o.b0BlockSize userBlockSize = 128 := if_neg (Nat.not_lt.mpr hshort)
    have hover : ¬(o.Overwritten ∧ 0 < o.fileInfo.size ∧ 0 < o.filesLeft) := fun h => by
      have := h.1.1
      omega
    exact iff_of_true ⟨run_block0 hname hsize (by omega),
      (receivedFilesLeft_block0 hname hsize (by omega)).mpr hover⟩ (.inl hshort)
  rcases hconfig with rfl | rfl
  · have hsize : o.b0BlockSize 128 = 128 := ite_self 128
    rw [hsize] at hfits
    rw [Intact, or_iff_right hshort, and_iff_right rfl, ← receivedFilesLeft_block0 hname hsize hfits]
    exact and_iff_right (run_block0 hname hsize hfits)
  · refine iff_of_false (not_readBack_long (by omega)) ?_
    rintro (h | h)
    · exact hshort h
    · exact absurd h.1 (by decide)

set_option maxRecDepth 20000 in
/-- A name of 100 characters in a short block. -/
theorem readBack_iff_intact_short :
    ReadBack 128 ⟨⟨List.replicate 100 'a', 5, 1700000000⟩, [], 1, by decide, by decide⟩ :=
  (readBack_iff_intact (by decide) (.inl rfl) (by decide)).mpr (by right; decide)

set_option maxRecDepth 20000 in
/-- One more character, and the remaining files are lost in a short block; in a long one nothing is
left. -/
theorem not_readBack_long_name :
    ¬ReadBack 1024 ⟨⟨List.replicate 101 'a', 5, 1700000000⟩, [], 1, by decide, by decide⟩ ∧
      ¬ReadBack 128 ⟨⟨List.replicate 101 'a', 5, 1700000000⟩, [], 1, by decide, by decide⟩ := by
  refine ⟨not_readBack_long (by decide), fun h => ?_⟩
  exact (receivedFilesLeft_block0 (by decide) (ite_self 128) (by decide)).mp h.2 (by decide)

end Outgoing

end TauTerm.Transfer.YModem
