import WaxxyLive.LiveKit.Amf

/-!
# What is read of AMF0 values

`valueBytes` is a value written out whole. The decoder reads it back, unless a
number stands without a name where its first bytes look like an end mark; the
encoder writes it, cut at each level to the properties before the first one that
it cannot encode.
-/

namespace WaxxyLive.Amf

open Bytes Rtmp Binary64

/-! ## Values written out -/

mutual

/-- The bytes of a value that can be encoded. -/
def valueBytes : AMFValue → List UInt8
  | .number number => amfNumber :: be 8 number.toNat
  | .boolean number => [amfBoolean, if isNonzero number then 1 else 0]
  | .string aval =>
    if aval.length < 65536 then amfString :: (encodeInt16 aval.length ++ aval)
    else amfLongString :: (encodeInt32 aval.length ++ aval)
  | .object object => amfObject :: (propsBytes object ++ encodeInt24 amfObjectEnd)
  | .null => [amfNull]
  | .date _ _ | .invalid => []

/-- The bytes of named properties. -/
def propsBytes : List (List UInt8 × AMFValue) → List UInt8
  | [] => []
  | (name, value) :: more =>
    encodeInt16 name.length ++ (name ++ (valueBytes value ++ propsBytes more))

end

mutual

/-- The booleans of a value are 0 or 1, its strings have a length that fits, and
the properties of its objects have names. `dates` says whether there may be
dates and invalid values in it, which the encoder refuses. -/
def Fits (dates : Prop) : AMFValue → Prop
  | .number _ | .null => True
  | .boolean number => number = ofInt 0 ∨ number = ofInt 1
  | .string aval => aval.length < 2 ^ 31
  | .object object => FitProps dates object
  | .date _ _ | .invalid => dates

def FitProps (dates : Prop) : List (List UInt8 × AMFValue) → Prop
  | [] => True
  | (name, value) :: more =>
    name ≠ [] ∧ name.length < 65536 ∧ value ≠ .null ∧ Fits dates value ∧ FitProps dates more

end

theorem decodeInt16_encodeInt16 {n : Nat} (h : n < 65536) (rest : List UInt8) :
    decodeInt16 (encodeInt16 n ++ rest) = n := by
  rw [decodeInt16, encodeInt16, List.take_left' (length_be 2 n),
    unbe_be_of_lt (by simpa using h)]

theorem decodeName_bytes {name rest : List UInt8} {nSize : Int} (h : name.length < 65536)
    (hsize : name.length + 2 ≤ nSize) :
    decodeName true (encodeInt16 name.length ++ (name ++ rest)) nSize =
      .ok (name, 2 + name.length) := by
  have hdrop : (encodeInt16 name.length ++ (name ++ rest)).drop 2 = name ++ rest :=
    List.drop_left' (length_be 2 _)
  unfold decodeName
  dsimp only
  rw [if_pos rfl, decodeInt16_encodeInt16 h, if_neg (by omega), hdrop, List.take_left]

theorem decodeString_bytes {w : Nat} {aval rest : List UInt8} {nSize : Int}
    (h : aval.length < 256 ^ w) (hsize : aval.length + w ≤ nSize) :
    decodeString w (be w aval.length ++ (aval ++ rest)) nSize = .ok (aval, w + aval.length) := by
  have htake : (be w aval.length ++ (aval ++ rest)).take w = be w aval.length :=
    List.take_left' (length_be w _)
  have hdrop : (be w aval.length ++ (aval ++ rest)).drop w = aval ++ rest :=
    List.drop_left' (length_be w _)
  have hlength : ¬(be w aval.length ++ (aval ++ rest)).length < w := by
    rw [List.length_append, length_be]
    omega
  unfold decodeString
  dsimp only
  rw [if_neg hlength, htake, unbe_be_of_lt h, if_neg (by omega), hdrop, List.take_left]

theorem decodeNumber_bytes (number : UInt64) (rest : List UInt8) :
    decodeNumber (be 8 number.toNat ++ rest) = number := by
  have hlt : number.toNat < 256 ^ 8 := by simpa using number.toNat_lt
  rw [decodeNumber, List.take_left' (length_be 8 _), unbe_be_of_lt hlt, UInt64.ofNat_toNat]

/-- Named properties never look like an end mark: no name is empty. -/
theorem named_ne_mark {name rest : List UInt8} (hne : name ≠ []) (h : name.length < 65536) :
    decodeInt24 (encodeInt16 name.length ++ (name ++ rest)) ≠ amfObjectEnd := by
  obtain ⟨b, bs, rfl⟩ := List.exists_cons_of_ne_nil hne
  have htake : (encodeInt16 (b :: bs).length ++ (b :: bs ++ rest)).take 3 =
      encodeInt16 (b :: bs).length ++ [b] := by
    simp [encodeInt16, be]
  have hpos : 0 < (b :: bs).length := by simp
  rw [decodeInt24, htake]
  generalize (b :: bs).length = n at *
  simp only [encodeInt16, be, List.cons_append, List.nil_append, unbe, List.length_cons,
    List.length_nil, amfObjectEnd, UInt8.toNat_ofNat']
  have hb := b.toNat_lt
  omega

/-! ## Reading it back -/

theorem isNonzero_ofInt_zero : isNonzero (ofInt 0) = false := by decide

theorem isNonzero_ofInt_one : isNonzero (ofInt 1) = true := by decide

theorem valueBytes_ne_nil {v : AMFValue} (hv : Fits False v) : valueBytes v ≠ [] := by
  cases v with
  | string aval =>
    rw [valueBytes]
    split <;> simp
  | date number offset => exact hv.elim
  | invalid => exact hv.elim
  | _ => simp [valueBytes]

/-- A property that stands first is read, and the loop goes on after it. -/
theorem decodeLoop_of_ok {fuel nRes : Nat} {pBuffer : List UInt8} {nSize : Int}
    {bDecodeName : Bool} {prop : AMFObjectProperty} (hsize : 0 < nSize)
    (hmark : decodeInt24 pBuffer ≠ amfObjectEnd)
    (h : propDecode fuel pBuffer nSize bDecodeName = .ok (prop, nRes)) :
    decodeLoop (fuel + 1) pBuffer nSize bDecodeName =
      (decodeLoop fuel (pBuffer.drop nRes) (nSize - nRes) bDecodeName).map fun (props, n) =>
        (prop :: props, nRes + n) := by
  rw [decodeLoop, if_neg (by omega), if_neg (fun hm => hmark hm.2), h]

mutual

theorem valueDecode_bytes : ∀ (v : AMFValue), Fits False v → ∀ (fuel : Nat) (rest : List UInt8)
    (nSize : Int), 3 * (valueBytes v).length ≤ fuel → (valueBytes v).length ≤ nSize →
      valueDecode fuel (valueBytes v ++ rest) nSize = .ok (v, (valueBytes v).length)
  | .number number, _, fuel, rest, nSize, hfuel, hsize => by
    simp only [valueBytes, List.length_cons, length_be] at hfuel hsize
    obtain ⟨fuel, rfl⟩ : ∃ f, fuel = f + 1 := ⟨fuel - 1, by omega⟩
    rw [valueBytes, List.cons_append, valueDecode_number hsize, decodeNumber_bytes,
      List.length_cons, length_be]
  | .boolean number, hv, fuel, rest, nSize, hfuel, hsize => by
    simp only [valueBytes, List.length_cons, List.length_nil] at hfuel hsize
    obtain ⟨fuel, rfl⟩ : ∃ f, fuel = f + 1 := ⟨fuel - 1, by omega⟩
    rw [valueBytes, List.cons_append, List.cons_append, List.nil_append,
      valueDecode_boolean (by omega)]
    rcases hv with rfl | rfl
    · simp [isNonzero_ofInt_zero]
    · simp [isNonzero_ofInt_one]
  | .string aval, hv, fuel, rest, nSize, hfuel, hsize => by
    have hlong : aval.length < 256 ^ 4 := by
      have hlt : aval.length < 2 ^ 31 := hv
      omega
    by_cases hshort : aval.length < 65536
    · simp only [valueBytes, if_pos hshort, List.length_cons, List.length_append, encodeInt16,
        length_be] at hfuel hsize
      obtain ⟨fuel, rfl⟩ : ∃ f, fuel = f + 1 := ⟨fuel - 1, by omega⟩
      rw [valueBytes, if_pos hshort, List.cons_append, List.append_assoc,
        valueDecode_string (by omega), encodeInt16, decodeString_bytes hshort (by omega)]
      simp [Except.map, Nat.add_comm, Nat.add_left_comm]
    · simp only [valueBytes, if_neg hshort, List.length_cons, List.length_append, encodeInt32,
        length_be] at hfuel hsize
      obtain ⟨fuel, rfl⟩ : ∃ f, fuel = f + 1 := ⟨fuel - 1, by omega⟩
      rw [valueBytes, if_neg hshort, List.cons_append, List.append_assoc,
        valueDecode_longString (by omega), encodeInt32, decodeString_bytes hlong (by omega)]
      simp [Except.map, Nat.add_comm, Nat.add_left_comm]
  | .object object, hv, fuel, rest, nSize, hfuel, hsize => by
    simp only [valueBytes, List.length_cons, List.length_append, encodeInt24, length_be]
      at hfuel hsize
    obtain ⟨fuel, rfl⟩ : ∃ f, fuel = f + 1 := ⟨fuel - 1, by omega⟩
    rw [valueBytes, List.cons_append, List.append_assoc, valueDecode_object (by omega),
      decodeLoop_bytes object hv fuel rest (nSize - 1) (by omega) (by omega)]
    simp [Except.map, encodeInt24, Nat.add_comm]
  | .null, _, fuel, rest, nSize, hfuel, hsize => by
    simp only [valueBytes, List.length_cons, List.length_nil] at hfuel hsize
    obtain ⟨fuel, rfl⟩ : ∃ f, fuel = f + 1 := ⟨fuel - 1, by omega⟩
    exact valueDecode_null (by omega)

theorem decodeLoop_bytes : ∀ (o : List (List UInt8 × AMFValue)), FitProps False o →
    ∀ (fuel : Nat) (rest : List UInt8) (nSize : Int), 3 * (propsBytes o).length + 1 ≤ fuel →
      (propsBytes o).length + 3 ≤ nSize →
        decodeLoop fuel (propsBytes o ++ (encodeInt24 amfObjectEnd ++ rest)) nSize true =
          .ok (o, (propsBytes o).length + 3)
  | [], _, fuel, rest, nSize, hfuel, hsize => by
    simp only [propsBytes, List.length_nil] at hfuel hsize
    obtain ⟨fuel, rfl⟩ : ∃ f, fuel = f + 1 := ⟨fuel - 1, by omega⟩
    have hmark : decodeInt24 (encodeInt24 amfObjectEnd ++ rest) = amfObjectEnd := by
      rw [decodeInt24, encodeInt24, List.take_left' (length_be 3 _)]
      decide
    rw [propsBytes, List.nil_append, decodeLoop, if_neg (by omega), if_pos ⟨by omega, hmark⟩]
    rfl
  | (name, value) :: more, ho, fuel, rest, nSize, hfuel, hsize => by
    obtain ⟨hne, hname, -, hvalue, hmore⟩ := ho
    simp only [propsBytes, List.length_append, encodeInt16, length_be] at hfuel hsize
    obtain ⟨fuel, rfl⟩ : ∃ f, fuel = f + 2 := ⟨fuel - 2, by omega⟩
    have hpos : 0 < (valueBytes value).length :=
      List.length_pos_iff.mpr (valueBytes_ne_nil hvalue)
    generalize htail : propsBytes more ++ (encodeInt24 amfObjectEnd ++ rest) = tail
    have hread : propDecode (fuel + 1)
        (encodeInt16 name.length ++ (name ++ (valueBytes value ++ tail))) nSize true =
          .ok ((name, value), 2 + name.length + (valueBytes value).length) := by
      have hdrop : (encodeInt16 name.length ++ (name ++ (valueBytes value ++ tail))).drop
          (2 + name.length) = valueBytes value ++ tail := by
        rw [← List.append_assoc]
        exact List.drop_left' (by simp [encodeInt16])
      rw [propDecode, if_neg (by omega), if_neg (by omega), decodeName_bytes hname (by omega)]
      simp only [bind, Except.bind, hdrop]
      rw [valueDecode_bytes value hvalue fuel tail _ (by omega) (by omega)]
      rfl
    have hdrop : (encodeInt16 name.length ++ (name ++ (valueBytes value ++ tail))).drop
        (2 + name.length + (valueBytes value).length) = tail := by
      rw [← List.append_assoc, ← List.append_assoc]
      exact List.drop_left' (by simp [encodeInt16]; omega)
    rw [propsBytes, List.append_assoc, List.append_assoc, List.append_assoc, htail,
      decodeLoop_of_ok (by omega) (named_ne_mark hne hname) hread, hdrop, ← htail,
      decodeLoop_bytes more hmore (fuel + 1) rest _ (by omega) (by omega)]
    simp [Except.map, encodeInt16]
    omega

end

/-! ## What is written of an object -/

mutual

/-- `Cut v w` when `v` is `w` with properties left out at the end of its objects. -/
inductive Cut : AMFValue → AMFValue → Prop
  | number (number : UInt64) : Cut (.number number) (.number number)
  | boolean (number : UInt64) : Cut (.boolean number) (.boolean number)
  | string (aval : List UInt8) : Cut (.string aval) (.string aval)
  | object {kept given : List (List UInt8 × AMFValue)} (h : Cuts kept given) :
      Cut (.object kept) (.object given)
  | null : Cut .null .null

inductive Cuts : List (List UInt8 × AMFValue) → List (List UInt8 × AMFValue) → Prop
  | stop (given : List (List UInt8 × AMFValue)) : Cuts [] given
  | keep (name : List UInt8) {v w : AMFValue} {kept given : List (List UInt8 × AMFValue)}
      (hv : Cut v w) (h : Cuts kept given) : Cuts ((name, v) :: kept) ((name, w) :: given)

end

/-- The bytes before a value: an empty name is not written. -/
def nameBytes (name : List UInt8) : List UInt8 :=
  if name = [] then [] else encodeInt16 name.length ++ name

section Writes

variable {pBufEnd : Nat} {out b name res : List UInt8}

theorem propName_eq_some (h : propName pBufEnd out name = some b) : b = out ++ nameBytes name := by
  unfold propName at h
  unfold nameBytes
  split at h
  · cases h
  · split at h
    · rw [if_pos ‹_›, List.append_nil, Option.some.inj h]
    · rw [if_neg ‹_›, Option.some.inj h]

theorem encodeNumber_eq_some {number : UInt64} (h : encodeNumber pBufEnd out number = some res) :
    res = out ++ valueBytes (.number number) := by
  unfold encodeNumber at h
  split at h
  · cases h
  · exact (Option.some.inj h).symm

theorem encodeBoolean_eq_some {number : UInt64}
    (h : encodeBoolean pBufEnd out (isNonzero number) = some res) :
    res = out ++ valueBytes (.boolean number) := by
  unfold encodeBoolean at h
  split at h
  · cases h
  · exact (Option.some.inj h).symm

theorem encodeString_eq_some {aval : List UInt8} (h : encodeString pBufEnd out aval = some res) :
    res = out ++ valueBytes (.string aval) := by
  unfold encodeString at h
  rw [valueBytes]
  split at h
  · cases h
  · split at h
    · rw [if_pos ‹_›, Option.some.inj h]
    · rw [if_neg ‹_›, Option.some.inj h]

/-- An object is written around what its loop writes. -/
theorem encodeObject_eq_some {loop : List UInt8 → List UInt8}
    {kept : List (List UInt8 × AMFValue)}
    (hloop : loop (out ++ [amfObject]) = out ++ [amfObject] ++ propsBytes kept)
    (h : encodeObject pBufEnd out loop = some res) :
    res = out ++ valueBytes (.object kept) ∧ res.length < pBufEnd := by
  unfold encodeObject at h
  split at h
  · cases h
  · dsimp only at h
    split at h
    · cases h
    · rw [← Option.some.inj h, hloop, valueBytes]
      refine ⟨by simp, ?_⟩
      rw [List.length_append, encodeInt24, length_be, ← hloop]
      omega

mutual

theorem propEncode_writes : ∀ (v : AMFValue), Fits True v → ∀ (out name res : List UInt8),
    (v = .null → name = []) → propEncode pBufEnd out name v = some res →
      ∃ w, Cut w v ∧ Fits False w ∧ (w = .null → v = .null) ∧
        res = out ++ (nameBytes name ++ valueBytes w)
  | .number number, _, out, name, res, _, h => by
    rw [propEncode] at h
    obtain ⟨b, hb, h⟩ := Option.bind_eq_some_iff.mp h
    refine ⟨.number number, .number number, trivial, nofun, ?_⟩
    rw [encodeNumber_eq_some h, propName_eq_some hb, List.append_assoc]
  | .boolean number, hv, out, name, res, _, h => by
    rw [propEncode] at h
    obtain ⟨b, hb, h⟩ := Option.bind_eq_some_iff.mp h
    refine ⟨.boolean number, .boolean number, hv, nofun, ?_⟩
    rw [encodeBoolean_eq_some h, propName_eq_some hb, List.append_assoc]
  | .string aval, hv, out, name, res, _, h => by
    rw [propEncode] at h
    obtain ⟨b, hb, h⟩ := Option.bind_eq_some_iff.mp h
    refine ⟨.string aval, .string aval, hv, nofun, ?_⟩
    rw [encodeString_eq_some h, propName_eq_some hb, List.append_assoc]
  | .object object, hv, out, name, res, _, h => by
    rw [propEncode] at h
    obtain ⟨b, hb, h⟩ := Option.bind_eq_some_iff.mp h
    obtain ⟨kept, hcuts, hkept, heq⟩ := encodeProps_writes object hv (b ++ [amfObject])
    obtain ⟨rfl, -⟩ := encodeObject_eq_some heq h
    refine ⟨.object kept, .object hcuts, hkept, nofun, ?_⟩
    rw [propName_eq_some hb, List.append_assoc]
  | .null, _, out, name, res, hnull, h => by
    refine ⟨.null, .null, trivial, fun _ => rfl, ?_⟩
    rw [hnull rfl]
    unfold propEncode at h
    split at h
    · cases h
    · exact (Option.some.inj h).symm
  | .date _ _, _, out, name, res, _, h => by
    rw [propEncode] at h
    cases h
  | .invalid, _, out, name, res, _, h => by
    rw [propEncode] at h
    cases h

theorem encodeProps_writes : ∀ (o : List (List UInt8 × AMFValue)), FitProps True o →
    ∀ (out : List UInt8),
      ∃ kept, Cuts kept o ∧ FitProps False kept ∧
        encodeProps pBufEnd out o = out ++ propsBytes kept
  | [], _, out => ⟨[], .stop _, trivial, by simp [encodeProps, propsBytes]⟩
  | (name, value) :: more, ho, out => by
    obtain ⟨hne, hname, hnull, hvalue, hmore⟩ := ho
    cases hprop : propEncode pBufEnd out name value with
    | none =>
      -- the loop breaks: what was written so far is all that is kept
      refine ⟨[], .stop _, trivial, ?_⟩
      rw [encodeProps, hprop]
      simp [propsBytes]
    | some res =>
      obtain ⟨w, hcut, hw, hwnull, rfl⟩ :=
        propEncode_writes value hvalue out name res (fun hv => absurd hv hnull) hprop
      obtain ⟨kept, hcuts, hkept, heq⟩ :=
        encodeProps_writes more hmore (out ++ (nameBytes name ++ valueBytes w))
      refine ⟨(name, w) :: kept, .keep name hcut hcuts,
        ⟨hne, hname, fun hv => hnull (hwnull hv), hw, hkept⟩, ?_⟩
      rw [encodeProps, hprop]
      dsimp only
      rw [heq, propsBytes, nameBytes, if_neg hne]
      simp

end

theorem room_for_loop {o : List (List UInt8 × AMFValue)}
    (h : out.length + (valueBytes (.object o)).length < pBufEnd) :
    (out ++ [amfObject]).length + (propsBytes o).length + 3 < pBufEnd := by
  simp only [valueBytes, List.length_cons, List.length_append, List.length_nil, encodeInt24,
    length_be] at h ⊢
  omega

/-- It is written when it ends before the buffer does. -/
theorem encodeObject_of_room {loop : List UInt8 → List UInt8} {o : List (List UInt8 × AMFValue)}
    (hloop : loop (out ++ [amfObject]) = out ++ [amfObject] ++ propsBytes o)
    (h : out.length + (valueBytes (.object o)).length < pBufEnd) :
    encodeObject pBufEnd out loop = some (out ++ valueBytes (.object o)) := by
  have hloopRoom := room_for_loop h
  simp only [List.length_append, List.length_singleton] at hloopRoom
  rw [encodeObject, if_neg (by omega), hloop]
  dsimp only
  rw [if_neg (by simp only [List.length_append, List.length_singleton]; omega), valueBytes]
  simp

theorem propName_of_room (h : out.length + name.length + 3 < pBufEnd) :
    propName pBufEnd out name = some (out ++ nameBytes name) := by
  rw [propName, if_neg (by omega), nameBytes]
  split
  · rw [List.append_nil]
  · rfl

theorem length_nameBytes (name : List UInt8) : name.length ≤ (nameBytes name).length := by
  unfold nameBytes
  split
  · simp [*]
  · simp

/-- A name takes its own length and, with it, two bytes. -/
theorem room_for_name {n : Nat} (h : out.length + (nameBytes name).length + n + 3 < pBufEnd)
    (hn : 0 < n) : out.length + name.length + 3 < pBufEnd ∧
      (out ++ nameBytes name).length + n + 3 < pBufEnd := by
  have hname := length_nameBytes name
  rw [List.length_append]
  omega

mutual

theorem propEncode_whole : ∀ (v : AMFValue), Fits False v → ∀ (out name : List UInt8),
    (v = .null → name = []) →
      out.length + (nameBytes name).length + (valueBytes v).length + 3 < pBufEnd →
        propEncode pBufEnd out name v = some (out ++ (nameBytes name ++ valueBytes v))
  | .number number, hv, out, name, _, h => by
    obtain ⟨hname, hroom⟩ := room_for_name h (List.length_pos_iff.mpr (valueBytes_ne_nil hv))
    simp only [valueBytes, List.length_cons, length_be] at hroom
    rw [propEncode, propName_of_room hname, Option.bind_some, encodeNumber, if_neg (by omega),
      List.append_assoc, valueBytes]
  | .boolean number, hv, out, name, _, h => by
    obtain ⟨hname, hroom⟩ := room_for_name h (List.length_pos_iff.mpr (valueBytes_ne_nil hv))
    simp only [valueBytes, List.length_cons, List.length_nil] at hroom
    rw [propEncode, propName_of_room hname, Option.bind_some, encodeBoolean, if_neg (by omega),
      List.append_assoc, valueBytes]
  | .string aval, hv, out, name, _, h => by
    obtain ⟨hname, hroom⟩ := room_for_name h (List.length_pos_iff.mpr (valueBytes_ne_nil hv))
    rw [propEncode, propName_of_room hname, Option.bind_some, encodeString]
    rw [valueBytes] at hroom ⊢
    by_cases hshort : aval.length < 65536
    · simp only [if_pos hshort, List.length_cons, List.length_append, encodeInt16, length_be]
        at hroom
      rw [List.length_append, if_neg (by omega), if_pos hshort, if_pos hshort, List.append_assoc]
    · simp only [if_neg hshort, List.length_cons, List.length_append, encodeInt32, length_be]
        at hroom
      rw [List.length_append, if_neg (by omega), if_neg hshort, if_neg hshort, List.append_assoc]
  | .object object, hv, out, name, _, h => by
    obtain ⟨hname, hroom⟩ := room_for_name h (List.length_pos_iff.mpr (valueBytes_ne_nil hv))
    have hwhole : (out ++ nameBytes name).length + (valueBytes (.object object)).length <
        pBufEnd := by
      omega
    rw [propEncode, propName_of_room hname, Option.bind_some,
      encodeObject_of_room (encodeProps_whole object hv _ (room_for_loop hwhole)) hwhole,
      List.append_assoc]
  | .null, _, out, name, hnull, h => by
    rw [hnull rfl] at h ⊢
    simp only [nameBytes, if_pos, valueBytes, List.length_cons, List.length_nil] at h
    rw [propEncode, if_neg (by omega)]
    rfl

theorem encodeProps_whole : ∀ (o : List (List UInt8 × AMFValue)), FitProps False o →
    ∀ (out : List UInt8), out.length + (propsBytes o).length + 3 < pBufEnd →
      encodeProps pBufEnd out o = out ++ propsBytes o
  | [], _, out, _ => by rw [encodeProps, propsBytes, List.append_nil]
  | (name, value) :: more, ho, out, h => by
    obtain ⟨hne, hname, hnull, hvalue, hmore⟩ := ho
    have hbytes : propsBytes ((name, value) :: more) =
        nameBytes name ++ valueBytes value ++ propsBytes more := by
      rw [propsBytes, nameBytes, if_neg hne, List.append_assoc, List.append_assoc]
    rw [hbytes, List.length_append, List.length_append] at h
    rw [encodeProps, propEncode_whole value hvalue out name (fun hv => absurd hv hnull) (by omega)]
    dsimp only
    rw [encodeProps_whole more hmore _ (by simp only [List.length_append]; omega), hbytes]
    simp

end

end Writes

/-! ## Values one after the other -/

/-- A number whose first bytes, after the byte for its type, are those of an end mark. -/
def LooksEnd : AMFValue → Prop
  | .number number => number.toNat / 2 ^ 48 = amfObjectEnd
  | _ => False

theorem unbe_ne_mark {type : UInt8} (htype : type.toNat ≠ 0 ∧ type.toNat ≠ 9) (l : List UInt8) :
    unbe ((type :: l).take 3) ≠ amfObjectEnd := by
  have hpos : 0 < type.toNat := Nat.pos_of_ne_zero htype.1
  rw [List.take_succ_cons, unbe]
  cases hl : l.take 2 with
  | nil => simpa [unbe, amfObjectEnd] using htype.2
  | cons b bs =>
    have hpow : 256 ^ (b :: bs).length = 256 ^ bs.length * 256 := pow_succ _ _
    have hone : 0 < 256 ^ bs.length := Nat.pow_pos (by decide)
    have hle : 256 ^ (b :: bs).length ≤ type.toNat * 256 ^ (b :: bs).length :=
      Nat.le_mul_of_pos_left _ hpos
    unfold amfObjectEnd
    omega

theorem decodeInt24_valueBytes {v : AMFValue} (hv : Fits False v) (tail : List UInt8) :
    decodeInt24 (valueBytes v ++ tail) = amfObjectEnd ↔ LooksEnd v := by
  have hother (type : UInt8) (l : List UInt8) (htype : type.toNat ≠ 0 ∧ type.toNat ≠ 9) :
      decodeInt24 (type :: l) = amfObjectEnd ↔ False := by
    rw [iff_false]
    exact unbe_ne_mark htype l
  cases v with
  | number number =>
    have hlt := number.toNat_lt
    have hread : decodeInt24 (valueBytes (.number number) ++ tail) = number.toNat / 2 ^ 48 := by
      simp only [valueBytes, be, List.cons_append, decodeInt24, List.take_succ_cons, List.take_zero,
        unbe, List.length_cons, List.length_nil, amfNumber, UInt8.toNat_zero, UInt8.toNat_ofNat']
      omega
    rw [hread]
    rfl
  | boolean number => exact hother amfBoolean _ (by decide)
  | string aval =>
    rw [valueBytes]
    split
    · exact hother amfString _ (by decide)
    · exact hother amfLongString _ (by decide)
  | object object => exact hother amfObject _ (by decide)
  | null => exact hother amfNull _ (by decide)
  | date number offset => exact hv.elim
  | invalid => exact hv.elim

theorem propDecode_bytes {v : AMFValue} (hv : Fits False v) {fuel : Nat} {tail : List UInt8}
    {nSize : Int} (hfuel : 3 * (valueBytes v).length < fuel) (hsize : (valueBytes v).length ≤ nSize) :
    propDecode fuel (valueBytes v ++ tail) nSize false = .ok (([], v), (valueBytes v).length) := by
  obtain ⟨fuel, rfl⟩ : ∃ f, fuel = f + 1 := ⟨fuel - 1, by omega⟩
  have hpos : 0 < (valueBytes v).length := List.length_pos_iff.mpr (valueBytes_ne_nil hv)
  rw [propDecode, if_neg (by omega), if_neg (by simp), decodeName, if_neg (by simp)]
  simp only [bind, Except.bind, List.drop_zero]
  rw [valueDecode_bytes v hv fuel tail _ (by omega) (by omega)]
  simp [pure, Except.pure]

/-- A value that does not look like an end mark is read, and the loop goes on after it. -/
theorem decodeLoop_value {v : AMFValue} (hv : Fits False v) (hend : ¬LooksEnd v) {fuel : Nat}
    {tail : List UInt8} (hfuel : 3 * (valueBytes v).length < fuel) :
    decodeLoop (fuel + 1) (valueBytes v ++ tail) (valueBytes v ++ tail).length false =
      (decodeLoop fuel tail tail.length false).map fun (props, n) =>
        (([], v) :: props, (valueBytes v).length + n) := by
  have hpos : 0 < (valueBytes v).length := List.length_pos_iff.mpr (valueBytes_ne_nil hv)
  have hlength : ((valueBytes v ++ tail).length : Int) - (valueBytes v).length = tail.length := by
    rw [List.length_append]
    omega
  rw [decodeLoop_of_ok (by simp; omega) (fun h => hend ((decodeInt24_valueBytes hv tail).mp h))
    (propDecode_bytes hv hfuel (by simp)), hlength, List.drop_left]

/-- One that does ends the loop. -/
theorem decodeLoop_end {v : AMFValue} (hv : Fits False v) (hend : LooksEnd v) (fuel : Nat)
    (tail : List UInt8) :
    decodeLoop (fuel + 1) (valueBytes v ++ tail) (valueBytes v ++ tail).length false =
      .ok ([], 3) := by
  have hmark := (decodeInt24_valueBytes hv tail).mpr hend
  cases v with
  | number number =>
    rw [decodeLoop, if_neg (by simp [valueBytes]; omega),
      if_pos ⟨by simp [valueBytes]; omega, hmark⟩]
  | _ => exact hend.elim

theorem decodeLoop_values {args : List AMFValue} (hargs : ∀ v ∈ args, Fits False v) {fuel : Nat}
    (hfuel : 3 * (args.flatMap valueBytes).length + 1 < fuel) :
    (decodeLoop fuel (args.flatMap valueBytes) (args.flatMap valueBytes).length false).map Prod.fst =
        .ok (args.map (Prod.mk [])) ↔
      ∀ v ∈ args, ¬LooksEnd v := by
  induction args generalizing fuel with
  | nil =>
    obtain ⟨fuel, rfl⟩ : ∃ f, fuel = f + 1 := ⟨fuel - 1, by omega⟩
    simp [decodeLoop, Except.map]
  | cons v more ih =>
    have hv := hargs v List.mem_cons_self
    have hpos : 0 < (valueBytes v).length := List.length_pos_iff.mpr (valueBytes_ne_nil hv)
    rw [List.flatMap_cons, List.length_append] at hfuel
    obtain ⟨fuel, rfl⟩ : ∃ f, fuel = f + 1 := ⟨fuel - 1, by omega⟩
    rw [List.flatMap_cons, List.forall_mem_cons]
    by_cases hend : LooksEnd v
    · rw [decodeLoop_end hv hend]
      simp [Except.map, hend]
    · have hmore := @ih (fun w hw => hargs w (List.mem_cons_of_mem _ hw)) fuel (by omega)
      rw [decodeLoop_value hv hend (by omega), ← hmore]
      generalize decodeLoop fuel (more.flatMap valueBytes) (more.flatMap valueBytes).length false =
        read
      cases read <;> simp [Except.map, hend]

/-- Values written one after the other without names, as the arguments of a call
are, are read back if and only if no number among them looks like an end mark. -/
theorem arguments_read_iff {args : List AMFValue} (hargs : ∀ v ∈ args, Fits False v) :
    decode (args.flatMap valueBytes) false = .ok (args.map (Prod.mk [])) ↔
      ∀ v ∈ args, ¬LooksEnd v :=
  decodeLoop_values hargs (by omega)

/-- The call of `createStream`, with 2 as its number. -/
def createStreamCall : List AMFValue :=
  [.string [99, 114, 101, 97, 116, 101, 83, 116, 114, 101, 97, 109], .number (ofInt 2), .null]

theorem arguments_read_createStreamCall :
    decode (createStreamCall.flatMap valueBytes) false =
      .ok (createStreamCall.map (Prod.mk [])) := by
  refine (arguments_read_iff ?_).mpr ?_
  · simp [createStreamCall, Fits]
  · simp only [createStreamCall, List.forall_mem_cons, LooksEnd]
    exact ⟨nofun, by decide, nofun, nofun⟩

theorem decode_object {o : AMFObject} (ho : FitProps False o) :
    decode (valueBytes (.object o)) false = .ok [([], .object o)] := by
  have hread := (@decodeLoop_values [.object o] (by simpa [Fits] using ho)
    (3 * ([AMFValue.object o].flatMap valueBytes).length + 3) (by omega)).mpr (by simp [LooksEnd])
  rw [List.flatMap_singleton] at hread
  exact hread

/-- Whatever `encode` writes of an object, `decode` reads: the object, cut at
each level to a prefix of its properties. It is whole if and only if nothing in
it is refused by the encoder and it ends before the buffer does. -/
theorem object_read {pBufEnd : Nat} {out res : List UInt8} {o : AMFObject} (ho : FitProps True o)
    (h : encode pBufEnd out o = some res) :
    ∃ kept, Cuts kept o ∧ decode (res.drop out.length) false = .ok [([], .object kept)] ∧
      (kept = o ↔
        FitProps False o ∧ out.length + (valueBytes (.object o)).length < pBufEnd) := by
  obtain ⟨kept, hcuts, hkept, heq⟩ := encodeProps_writes o ho (out ++ [amfObject])
  obtain ⟨rfl, hroom⟩ := encodeObject_eq_some heq h
  refine ⟨kept, hcuts, ?_, ?_⟩
  · rw [List.drop_left]
    exact decode_object hkept
  · constructor
    · rintro rfl
      rw [List.length_append] at hroom
      exact ⟨hkept, hroom⟩
    · rintro ⟨hfits, hwhole⟩
      -- both are read from the same bytes
      have hbytes : valueBytes (.object o) = valueBytes (.object kept) := by
        rw [encode, encodeObject_of_room (encodeProps_whole o hfits _ (room_for_loop hwhole)) hwhole]
          at h
        exact List.append_cancel_left (Option.some.inj h)
      have hread := decode_object hfits
      rw [hbytes, decode_object hkept] at hread
      simpa using hread

/-- A date stands between two numbers. -/
def datedObject : AMFObject :=
  [([97], .number (ofInt 1)), ([98], .date 0 0), ([99], .number (ofInt 3))]

theorem object_read_datedObject :
    ∃ res kept, encode 64 [] datedObject = some res ∧ Cuts kept datedObject ∧
      decode (res.drop 0) false = .ok [([], .object kept)] ∧ kept ≠ datedObject := by
  have hfits : FitProps True datedObject := by simp [datedObject, FitProps, Fits]
  have hencode : (encode 64 [] datedObject).isSome := by decide
  obtain ⟨res, hres⟩ := Option.isSome_iff_exists.mp hencode
  obtain ⟨kept, hcuts, hread, hwhole⟩ := object_read hfits hres
  refine ⟨res, kept, hres, hcuts, hread, ?_⟩
  rw [ne_eq, hwhole]
  simp [datedObject, FitProps, Fits]

end WaxxyLive.Amf
