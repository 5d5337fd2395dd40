import RsModbus.Types

/-!
# `utils.rs`

Checksums, address-range checks, the packing of coils and registers, and the RTU length
predictor, as the source computes them. A function that indexes a slice or adds `u16` values can
panic, and returns in `Except Panic`.
-/

namespace RsModbus

/-! ## Words -/

/-- `u16::from_be_bytes([hi, lo])`. -/
def u16FromBe (hi lo : UInt8) : UInt16 := UInt16.ofNat (hi.toNat * 256 + lo.toNat)

/-- `u16::from_le_bytes([lo, hi])`. -/
def u16FromLe (lo hi : UInt8) : UInt16 := u16FromBe hi lo

/-- `u16::to_be_bytes`. -/
def u16ToBe (x : UInt16) : Bytes := [UInt8.ofNat (x.toNat / 256), UInt8.ofNat x.toNat]

/-- `u16::to_le_bytes`. -/
def u16ToLe (x : UInt16) : Bytes := [UInt8.ofNat x.toNat, UInt8.ofNat (x.toNat / 256)]

/-- The big-endian bytes of a word read back as the word. -/
@[simp] theorem u16FromBe_toBe (x : UInt16) :
    u16FromBe (UInt8.ofNat (x.toNat / 256)) (UInt8.ofNat x.toNat) = x := by
  apply UInt16.toNat_inj.mp
  have hx := x.toNat_lt
  simp only [u16FromBe, UInt8.toNat_ofNat', UInt16.toNat_ofNat']
  omega

@[simp] theorem u16FromLe_toLe (x : UInt16) :
    u16FromLe (UInt8.ofNat x.toNat) (UInt8.ofNat (x.toNat / 256)) = x :=
  u16FromBe_toBe x

@[simp] theorem length_u16ToBe (x : UInt16) : (u16ToBe x).length = 2 := rfl

@[simp] theorem length_u16ToLe (x : UInt16) : (u16ToLe x).length = 2 := rfl

/-- `data.chunks(n)` on a slice: `ceil(len / n)` pieces, all of length `n` but the last. -/
def chunks {α : Type} (n : Nat) (xs : List α) : List (List α) :=
  (List.range ((xs.length + n - 1) / n)).map fun i => (xs.drop (n * i)).take n

/-! ## Checksums -/

/-- `CRC_TABLE`. -/
def crcTable : Array UInt16 := #[
    0x0000, 0xc0c1, 0xc181, 0x0140, 0xc301, 0x03c0, 0x0280, 0xc241, 0xc601, 0x06c0, 0x0780, 0xc741,
    0x0500, 0xc5c1, 0xc481, 0x0440, 0xcc01, 0x0cc0, 0x0d80, 0xcd41, 0x0f00, 0xcfc1, 0xce81, 0x0e40,
    0x0a00, 0xcac1, 0xcb81, 0x0b40, 0xc901, 0x09c0, 0x0880, 0xc841, 0xd801, 0x18c0, 0x1980, 0xd941,
    0x1b00, 0xdbc1, 0xda81, 0x1a40, 0x1e00, 0xdec1, 0xdf81, 0x1f40, 0xdd01, 0x1dc0, 0x1c80, 0xdc41,
    0x1400, 0xd4c1, 0xd581, 0x1540, 0xd701, 0x17c0, 0x1680, 0xd641, 0xd201, 0x12c0, 0x1380, 0xd341,
    0x1100, 0xd1c1, 0xd081, 0x1040, 0xf001, 0x30c0, 0x3180, 0xf141, 0x3300, 0xf3c1, 0xf281, 0x3240,
    0x3600, 0xf6c1, 0xf781, 0x3740, 0xf501, 0x35c0, 0x3480, 0xf441, 0x3c00, 0xfcc1, 0xfd81, 0x3d40,
    0xff01, 0x3fc0, 0x3e80, 0xfe41, 0xfa01, 0x3ac0, 0x3b80, 0xfb41, 0x3900, 0xf9c1, 0xf881, 0x3840,
    0x2800, 0xe8c1, 0xe981, 0x2940, 0xeb01, 0x2bc0, 0x2a80, 0xea41, 0xee01, 0x2ec0, 0x2f80, 0xef41,
    0x2d00, 0xedc1, 0xec81, 0x2c40, 0xe401, 0x24c0, 0x2580, 0xe541, 0x2700, 0xe7c1, 0xe681, 0x2640,
    0x2200, 0xe2c1, 0xe381, 0x2340, 0xe101, 0x21c0, 0x2080, 0xe041, 0xa001, 0x60c0, 0x6180, 0xa141,
    0x6300, 0xa3c1, 0xa281, 0x6240, 0x6600, 0xa6c1, 0xa781, 0x6740, 0xa501, 0x65c0, 0x6480, 0xa441,
    0x6c00, 0xacc1, 0xad81, 0x6d40, 0xaf01, 0x6fc0, 0x6e80, 0xae41, 0xaa01, 0x6ac0, 0x6b80, 0xab41,
    0x6900, 0xa9c1, 0xa881, 0x6840, 0x7800, 0xb8c1, 0xb981, 0x7940, 0xbb01, 0x7bc0, 0x7a80, 0xba41,
    0xbe01, 0x7ec0, 0x7f80, 0xbf41, 0x7d00, 0xbdc1, 0xbc81, 0x7c40, 0xb401, 0x74c0, 0x7580, 0xb541,
    0x7700, 0xb7c1, 0xb681, 0x7640, 0x7200, 0xb2c1, 0xb381, 0x7340, 0xb101, 0x71c0, 0x7080, 0xb041,
    0x5000, 0x90c1, 0x9181, 0x5140, 0x9301, 0x53c0, 0x5280, 0x9241, 0x9601, 0x56c0, 0x5780, 0x9741,
    0x5500, 0x95c1, 0x9481, 0x5440, 0x9c01, 0x5cc0, 0x5d80, 0x9d41, 0x5f00, 0x9fc1, 0x9e81, 0x5e40,
    0x5a00, 0x9ac1, 0x9b81, 0x5b40, 0x9901, 0x59c0, 0x5880, 0x9841, 0x8801, 0x48c0, 0x4980, 0x8941,
    0x4b00, 0x8bc1, 0x8a81, 0x4a40, 0x4e00, 0x8ec1, 0x8f81, 0x4f40, 0x8d01, 0x4dc0, 0x4c80, 0x8c41,
    0x4400, 0x84c1, 0x8581, 0x4540, 0x8701, 0x47c0, 0x4680, 0x8641, 0x8201, 0x42c0, 0x4380, 0x8341,
    0x4100, 0x81c1, 0x8081, 0x4040]

/-- `crc_with_seed`: the running CRC extended by the bytes of `data`. -/
def crcWithSeed (data : Bytes) (seed : UInt16) : UInt16 :=
  data.foldl (fun crc byte =>
    crcTable.getD ((crc ^^^ byte.toUInt16) &&& 0xff).toNat 0 ^^^ (crc >>> 8)) seed

/-- `crc`. -/
def crc (data : Bytes) : UInt16 := crcWithSeed data 0xffff

/-- `lrc`. -/
def lrc (data : Bytes) : UInt8 := 0 - data.foldl (· + ·) 0

/-! ## Address ranges -/

/-- `in_range`. -/
def inRange (n : UInt16) (range : UInt16 × UInt16) : Bool := range.1 ≤ n && n ≤ range.2

/-- `check_range`: every value lies in one and the same valid range; no range is no restriction. -/
def checkRange (value : List UInt16) (range : List (UInt16 × UInt16)) : Bool :=
  range.isEmpty || range.any fun r => decide (r.1 ≤ r.2) && value.all (inRange · r)

/-! ## Coils and registers -/

/-- The byte of one chunk of coils: `byte |= 1 << bit_idx` for every set coil. -/
def packByte (chunk : List Bool) : UInt8 :=
  chunk.zipIdx.foldl (fun byte v => if v.1 then byte ||| (1 <<< UInt8.ofNat v.2) else byte) 0

/-- `(byte >> bit_idx) & 1 == 1`. -/
def bitOf (byte : UInt8) (bitIdx : Nat) : Bool := (byte >>> UInt8.ofNat bitIdx) &&& 1 == 1

/-- `((length + 7) / 8) as usize`. -/
def coilBytes (checks : Bool) (length : UInt16) : Except Panic Nat :=
  return ((← addU16 checks length 7) / 8).toNat

/-- `(length * 2) as usize`. -/
def registerBytes (checks : Bool) (length : UInt16) : Except Panic Nat :=
  return (← mulU16 checks length 2).toNat

/-- `pack_coils`. -/
def packCoils (checks : Bool) (coils : List Bool) (length : UInt16) : Except Panic Bytes :=
  return UInt8.ofNat (← coilBytes checks length) :: (chunks 8 coils).map packByte

/-- `parse_coils`. -/
def parseCoils (checks : Bool) (data : Bytes) (length : UInt16) : Except Panic (List Bool) := do
  let parts ← (List.range (← coilBytes checks length)).mapM fun byteIdx => do
    let byte ← index data (1 + byteIdx)
    -- the inner loop breaks at the first index past `length`
    return ((List.range 8).takeWhile (byteIdx * 8 + · < length.toNat)).map (bitOf byte)
  return parts.flatten

/-- `pack_registers`. -/
def packRegisters (checks : Bool) (registers : List UInt16) (length : UInt16) :
    Except Panic Bytes :=
  return UInt8.ofNat (← registerBytes checks length) :: registers.flatMap u16ToBe

/-- `parse_registers`. -/
def parseRegisters (data : Bytes) (length : UInt16) : Except Panic (List UInt16) :=
  (List.range length.toNat).mapM fun i => do
    return u16FromBe (← index data (1 + i * 2)) (← index data (1 + i * 2 + 1))

/-! ## The RTU length predictor -/

/-- `PredictResult`. -/
inductive PredictResult where
  | length (n : Nat)
  | needMore
  | unknown
  deriving DecidableEq, Repr

/-- `is_standard_fc`. -/
def isStandardFc (fc : UInt8) (isResponse : Bool) : Bool :=
  if isResponse && (fc &&& exceptionOffset != 0) then true
  else if isResponse then
    fc ∈ [0x05, 0x06, 0x0f, 0x10, 0x16, 0x01, 0x02, 0x03, 0x04, 0x11, 0x17, 0x2b]
  else (0x01 ≤ fc ∧ fc ≤ 0x06) ∨ fc ∈ [0x11, 0x16, 0x2b, 0x0f, 0x10, 0x17]

/-- The object walk of `predict_fc43_14_response`, with `numObjs` objects left. -/
def predictObjects (buffer : Bytes) : Nat → Nat → PredictResult
  | 0, offset => .length (offset + 2)
  | numObjs + 1, offset =>
    if buffer.length < offset + 2 then .needMore
    else predictObjects buffer numObjs (offset + 2 + (buffer.getD (offset + 1) 0).toNat)

/-- `predict_fc43_14_response`. -/
def predictFc43Response (buffer : Bytes) : PredictResult :=
  if buffer.length < 8 then .needMore
  else if buffer.getD 2 0 ≠ meiReadDeviceId then .unknown
  else predictObjects buffer (buffer.getD 7 0).toNat 8

/-- The frame length of a function code whose frames all have one length. -/
def fixedLength (isResponse : Bool) (fc : UInt8) : Option Nat :=
  if isResponse then
    if fc = 0x05 ∨ fc = 0x06 ∨ fc = 0x0f ∨ fc = 0x10 then some 8
    else if fc = 0x16 then some 10
    else none
  else
    if 0x01 ≤ fc ∧ fc ≤ 0x06 then some 8
    else if fc = 0x11 then some 4
    else if fc = 0x16 then some 10
    else if fc = 0x2b then some 7
    else none

/-- The offset of a function code's byte count, and the frame's length without the counted
bytes. -/
def byteCountOffset (isResponse : Bool) (fc : UInt8) : Option (Nat × Nat) :=
  if isResponse then
    if fc = 0x01 ∨ fc = 0x02 ∨ fc = 0x03 ∨ fc = 0x04 ∨ fc = 0x11 ∨ fc = 0x17 then some (2, 5)
    else none
  else
    if fc = 0x0f ∨ fc = 0x10 then some (6, 9)
    else if fc = 0x17 then some (10, 13)
    else none

/-- `predict_rtu_frame_length`. -/
def predictRtuFrameLength (buffer : Bytes) (isResponse : Bool) : PredictResult :=
  if buffer.length < 2 then .needMore
  else
    let fc := buffer.getD 1 0
    if isResponse && (fc &&& exceptionOffset != 0) then .length 5
    else
      match fixedLength isResponse fc with
      | some n => .length n
      | none =>
        match byteCountOffset isResponse fc with
        | some (offset, extra) =>
          if buffer.length ≤ offset then .needMore
          else .length (extra + (buffer.getD offset 0).toNat)
        | none =>
          if isResponse && fc == 0x2b then predictFc43Response buffer else .unknown

end RsModbus
