import WaxxyLive.LiveKit.RtmpChunk
import WaxxyLive.Lib.Binary64

/-!
# The AMF0 format

Calls and metadata are written as AMF0 values: numbers, booleans, strings and
objects of named values. The encoder stops where its buffer ends; the decoder
looks for the next end mark where it fails.
-/

namespace WaxxyLive.Amf

open Bytes Rtmp

/-! ## Values -/

/-- `AMFDataType`: the byte a value starts with. -/
def amfNumber : UInt8 := 0
def amfBoolean : UInt8 := 1
def amfString : UInt8 := 2
def amfObject : UInt8 := 3
def amfNull : UInt8 := 5
def amfObjectEnd : Nat := 9
def amfLongString : UInt8 := 12

/-- `p_type` of an `AMFObjectProperty`, and what `p_vu` holds with it. -/
inductive AMFValue where
  | number (number : UInt64)
  | boolean (number : UInt64)
  | string (aval : List UInt8)
  | object (object : List (List UInt8 × AMFValue))
  | null
  | date (number : UInt64) (utcOffset : UInt16)
  | invalid

/-- A property has a name, empty where none was given. -/
abbrev AMFObjectProperty := List UInt8 × AMFValue
abbrev AMFObject := List AMFObjectProperty

/-- `p_number != 0`; zero has two signs. -/
def isNonzero (number : UInt64) : Bool := number.toNat % 2 ^ 63 != 0

/-! ## Encoding -/

section Encode

-- Where the buffer ends, counted from its start. An encoder takes what the buffer
-- has so far and is `none` where the source returns `NULL`.
variable (pBufEnd : Nat)

/-- `AMF_EncodeString` -/
def encodeString (output bv : List UInt8) : Option (List UInt8) :=
  if bv.length < 65536 ∧ pBufEnd < output.length + 1 + 2 + bv.length ∨
      pBufEnd < output.length + 1 + 4 + bv.length then none
  else if bv.length < 65536 then some (output ++ amfString :: (encodeInt16 bv.length ++ bv))
  else some (output ++ amfLongString :: (encodeInt32 bv.length ++ bv))

/-- `AMF_EncodeNumber` -/
def encodeNumber (output : List UInt8) (dVal : UInt64) : Option (List UInt8) :=
  if pBufEnd < output.length + 1 + 8 then none
  else some (output ++ amfNumber :: be 8 dVal.toNat)

/-- `AMF_EncodeBoolean` -/
def encodeBoolean (output : List UInt8) (bVal : Bool) : Option (List UInt8) :=
  if pBufEnd < output.length + 2 then none
  else some (output ++ [amfBoolean, if bVal then 1 else 0])

/-- The start of `AMF_EncodeNamedString` and its siblings. -/
def encodeStrName (output strName : List UInt8) : Option (List UInt8) :=
  if pBufEnd < output.length + 2 + strName.length then none
  else some (output ++ (encodeInt16 strName.length ++ strName))

def encodeNamedString (output strName strValue : List UInt8) : Option (List UInt8) :=
  (encodeStrName pBufEnd output strName).bind (encodeString pBufEnd · strValue)

def encodeNamedNumber (output strName : List UInt8) (dVal : UInt64) : Option (List UInt8) :=
  (encodeStrName pBufEnd output strName).bind (encodeNumber pBufEnd · dVal)

def encodeNamedBoolean (output strName : List UInt8) (bVal : Bool) : Option (List UInt8) :=
  (encodeStrName pBufEnd output strName).bind (encodeBoolean pBufEnd · bVal)

/-- The start of `AMFProp_Encode` for all but `AMF_NULL`: no name, no length. -/
def propName (pBuffer name : List UInt8) : Option (List UInt8) :=
  if pBufEnd ≤ pBuffer.length + name.length + 2 + 1 then none
  else if name = [] then some pBuffer
  else some (pBuffer ++ (encodeInt16 name.length ++ name))

/-- `AMF_Encode`, with its loop over the properties. -/
def encodeObject (pBuffer : List UInt8) (loop : List UInt8 → List UInt8) : Option (List UInt8) :=
  if pBufEnd ≤ pBuffer.length + 4 then none
  else
    let pBuffer := loop (pBuffer ++ [amfObject])
    if pBufEnd ≤ pBuffer.length + 3 then none
    else some (pBuffer ++ encodeInt24 amfObjectEnd)

mutual

/-- `AMFProp_Encode` -/
def propEncode (pBuffer name : List UInt8) : AMFValue → Option (List UInt8)
  | .number number => (propName pBufEnd pBuffer name).bind (encodeNumber pBufEnd · number)
  | .boolean number =>
    (propName pBufEnd pBuffer name).bind (encodeBoolean pBufEnd · (isNonzero number))
  | .string aval => (propName pBufEnd pBuffer name).bind (encodeString pBufEnd · aval)
  | .object object =>
    (propName pBufEnd pBuffer name).bind (encodeObject pBufEnd · fun pBuffer =>
      encodeProps pBuffer object)
  | .null => if pBufEnd ≤ pBuffer.length + 1 then none else some (pBuffer ++ [amfNull])
  | .date _ _ | .invalid => none

/-- The loop of `AMF_Encode`, which breaks at the first property that fails. -/
def encodeProps (pBuffer : List UInt8) : List (List UInt8 × AMFValue) → List UInt8
  | [] => pBuffer
  | (name, value) :: more =>
    match propEncode pBuffer name value with
    | none => pBuffer
    | some res => encodeProps res more

end

/-- `AMF_Encode` -/
def encode (pBuffer : List UInt8) (obj : AMFObject) : Option (List UInt8) :=
  encodeObject pBufEnd pBuffer fun pBuffer => encodeProps pBufEnd pBuffer obj

end Encode

/-! ## Decoding -/

/-- Why nothing is decoded: the source returns -1, or reads outside of its
buffer, or goes on with an AMF3 object. `fuel` never comes out of `decode`. -/
inductive Failure where
  | failed
  | outside
  | amf3
  | fuel
  deriving DecidableEq

/-- The name that a property starts with, if there is one; `nSize` is then at least 4. -/
def decodeName (bDecodeName : Bool) (pBuffer : List UInt8) (nSize : Int) :
    Except Failure (List UInt8 × Nat) :=
  if bDecodeName then
    let nNameSize := decodeInt16 pBuffer
    if nSize - 2 < nNameSize then .error .failed
    else .ok ((pBuffer.drop 2).take nNameSize, 2 + nNameSize)
  else .ok ([], 0)

/-- A string with `nWidth` bytes of length, which are read unchecked. -/
def decodeString (nWidth : Nat) (pBuffer : List UInt8) (nSize : Int) :
    Except Failure (List UInt8 × Nat) :=
  if pBuffer.length < nWidth then .error .outside
  else
    let nStringSize := unbe (pBuffer.take nWidth)
    if nSize < nStringSize + nWidth then .error .failed
    else .ok ((pBuffer.drop nWidth).take nStringSize, nWidth + nStringSize)

/-- `AMF_DecodeNumber` -/
def decodeNumber (data : List UInt8) : UInt64 := UInt64.ofNat (unbe (data.take 8))

/-- After an error, `AMF_Decode` looks for the next end mark. -/
def skip : Nat → List UInt8 → Except Failure Nat
  | 0, _ => .error .failed
  | nSize + 1, pBuffer =>
    if 3 ≤ nSize + 1 ∧ decodeInt24 pBuffer = amfObjectEnd then .ok 3
    else (skip nSize (pBuffer.drop 1)).map (· + 1)

mutual

/-- `AMFProp_Decode`. `pBuffer` is what the buffer holds from the pointer on and
`nSize` what should be left of it; the property comes with the bytes it took. -/
def propDecode (fuel : Nat) (pBuffer : List UInt8) (nSize : Int) (bDecodeName : Bool) :
    Except Failure (AMFObjectProperty × Nat) :=
  match fuel with
  | 0 => .error .fuel
  | fuel + 1 =>
    if nSize = 0 then .error .failed
    else if bDecodeName ∧ nSize < 4 then .error .failed
    else do
      let (name, nName) ← decodeName bDecodeName pBuffer nSize
      let (value, nRes) ← valueDecode fuel (pBuffer.drop nName) (nSize - nName)
      pure ((name, value), nName + nRes)

/-- The `switch` of `AMFProp_Decode`. -/
def valueDecode (fuel : Nat) (pBuffer : List UInt8) (nSize : Int) :
    Except Failure (AMFValue × Nat) :=
  match fuel, pBuffer with
  | 0, _ => .error .fuel
  | _ + 1, [] => if nSize = 0 then .error .failed else .error .outside
  | fuel + 1, type :: pBuffer =>
    if nSize = 0 then .error .failed
    else
      let nSize := nSize - 1
      match type.toNat with
      | 0 =>
        if nSize < 8 then .error .failed else .ok (.number (decodeNumber pBuffer), 9)
      | 1 =>
        if nSize < 1 then .error .failed
        else .ok (.boolean (Binary64.ofInt (if pBuffer.head? = some 0 then 0 else 1)), 2)
      | 2 => (decodeString 2 pBuffer nSize).map fun (aval, n) => (.string aval, 1 + n)
      | 3 =>
        (decodeLoop fuel pBuffer nSize true).map fun (object, n) => (.object object, 1 + n)
      | 5 | 6 | 13 => .ok (.null, 1)
      | 8 =>
        (decodeLoop fuel (pBuffer.drop 4) (nSize - 4) true).map fun (object, n) =>
          (.object object, 5 + n)
      | 10 =>
        if pBuffer.length < 4 then .error .outside
        else
          -- the count is unsigned, the loop's counter is not
          let nArrayLen := decodeInt32 pBuffer
          (decodeArray fuel (pBuffer.drop 4) (nSize - 4)
            (if nArrayLen < 2 ^ 31 then nArrayLen else 0)).map fun (object, n) =>
              (.object object, 5 + n)
      | 11 =>
        if nSize < 10 then .error .failed
        else .ok (.date (decodeNumber pBuffer) (UInt16.ofNat (decodeInt16 (pBuffer.drop 8))), 11)
      | 12 => (decodeString 4 pBuffer nSize).map fun (aval, n) => (.string aval, 1 + n)
      | 17 => .error .amf3
      | _ => .error .failed

/-- The loop of `AMF_Decode`. -/
def decodeLoop (fuel : Nat) (pBuffer : List UInt8) (nSize : Int) (bDecodeName : Bool) :
    Except Failure (List (List UInt8 × AMFValue) × Nat) :=
  match fuel with
  | 0 => .error .fuel
  | fuel + 1 =>
    if nSize ≤ 0 then .ok ([], 0)
    else if 3 ≤ nSize ∧ decodeInt24 pBuffer = amfObjectEnd then .ok ([], 3)
    else
      match propDecode fuel pBuffer nSize bDecodeName with
      | .ok (prop, nRes) =>
        (decodeLoop fuel (pBuffer.drop nRes) (nSize - nRes) bDecodeName).map fun (props, n) =>
          (prop :: props, nRes + n)
      | .error .failed => (skip nSize.toNat pBuffer).map fun n => ([], n)
      | .error failure => .error failure

/-- `AMF_DecodeArray`, whose items have no names. After an error it tries the
same bytes again for the rest of the count, and fails. -/
def decodeArray (fuel : Nat) (pBuffer : List UInt8) (nSize : Int) (nArrayLen : Nat) :
    Except Failure (List (List UInt8 × AMFValue) × Nat) :=
  match fuel, nArrayLen with
  | 0, _ => .error .fuel
  | _ + 1, 0 => .ok ([], 0)
  | fuel + 1, nArrayLen + 1 => do
    let (prop, nRes) ← propDecode fuel pBuffer nSize false
    let (props, n) ← decodeArray fuel (pBuffer.drop nRes) (nSize - nRes) nArrayLen
    pure (prop :: props, nRes + n)

end

section Switch

variable {fuel : Nat} {pBuffer : List UInt8} {nSize : Int}

theorem valueDecode_number (h : 9 ≤ nSize) :
    valueDecode (fuel + 1) (amfNumber :: pBuffer) nSize =
      .ok (.number (decodeNumber pBuffer), 9) := by
  rw [valueDecode, if_neg (by omega)]
  exact if_neg (by omega)

theorem valueDecode_boolean (h : 2 ≤ nSize) :
    valueDecode (fuel + 1) (amfBoolean :: pBuffer) nSize =
      .ok (.boolean (Binary64.ofInt (if pBuffer.head? = some 0 then 0 else 1)), 2) := by
  rw [valueDecode, if_neg (by omega)]
  exact if_neg (by omega)

theorem valueDecode_string (h : 1 ≤ nSize) :
    valueDecode (fuel + 1) (amfString :: pBuffer) nSize =
      (decodeString 2 pBuffer (nSize - 1)).map fun (aval, n) => (.string aval, 1 + n) := by
  rw [valueDecode, if_neg (by omega)]
  rfl

theorem valueDecode_longString (h : 1 ≤ nSize) :
    valueDecode (fuel + 1) (amfLongString :: pBuffer) nSize =
      (decodeString 4 pBuffer (nSize - 1)).map fun (aval, n) => (.string aval, 1 + n) := by
  rw [valueDecode, if_neg (by omega)]
  rfl

theorem valueDecode_object (h : 1 ≤ nSize) :
    valueDecode (fuel + 1) (amfObject :: pBuffer) nSize =
      (decodeLoop fuel pBuffer (nSize - 1) true).map fun (object, n) =>
        (.object object, 1 + n) := by
  rw [valueDecode, if_neg (by omega)]
  rfl

theorem valueDecode_null (h : 1 ≤ nSize) :
    valueDecode (fuel + 1) (amfNull :: pBuffer) nSize = .ok (.null, 1) := by
  rw [valueDecode, if_neg (by omega)]
  rfl

end Switch

/-- `AMF_Decode` of a whole block. -/
def decode (pBuffer : List UInt8) (bDecodeName : Bool) : Except Failure AMFObject :=
  (decodeLoop (3 * pBuffer.length + 3) pBuffer pBuffer.length bDecodeName).map Prod.fst

/-! ## Decoding ends -/

section Fuel

variable {fuel n : Nat} {pBuffer : List UInt8} {nSize : Int} {bDecodeName : Bool}

end Fuel

end WaxxyLive.Amf
