import Mathlib.Data.List.Basic

/-
  Byte strings, JavaScript strings and hexadecimal text.

  A JavaScript string is modeled by its list of characters
  and a byte array by its list of bytes.
-/

-- Byte Strings and Errors

open List

namespace TsStack

/- A byte array. -/
abbrev Bytes := List UInt8

abbrev JsString := List Char

inductive JsError where
| error (message : String)
| typeError (message : String)
| rangeError (message : String)
deriving DecidableEq, Repr

/- The largest integer `Number.isSafeInteger` accepts. -/
def maxSafeInteger : Nat :=
  9007199254740991

/- `Number.isSafeInteger` on a non-negative integer. -/
def isSafeInteger (n : Nat) : Bool :=
  n ≤ maxSafeInteger

@[simp] theorem isSafeInteger_iff (n : Nat) : isSafeInteger n = true ↔ n ≤ maxSafeInteger := by
  simp [isSafeInteger]

theorem mem_concat_iff {α : Type} {x y : α} {xs : List α} : x ∈ xs ++ [y] ↔ x ∈ xs ∨ x = y := by
  simp

-- Computations That Throw

variable {ε α β : Type}

@[simp] theorem pure_eq_ok (value : α) : (pure value : Except ε α) = .ok value := rfl

@[simp] theorem ok_bind (value : α) (f : α → Except ε β) : (Except.ok value >>= f) = f value := rfl

@[simp] theorem error_bind (error : ε) (f : α → Except ε β) :
  (Except.error error >>= f) = .error error := rfl

/- Mapping a function that does not throw. -/
theorem mapM_eq_ok {f : α → Except ε β} {g : α → β} (values : List α)
  (hf : ∀ value ∈ values, f value = .ok (g value)) : values.mapM f = .ok (values.map g) := by
  induction values with
  | nil => rfl
  | cons value values ih =>
    have hTail := ih fun v hv => hf v (mem_cons_of_mem _ hv)
    rw [mapM_cons, hf value mem_cons_self, hTail]
    rfl

/- A sequence returns through an intermediate value. -/
theorem bind_eq_ok_iff {x : Except ε α} {f : α → Except ε β} {result : β} :
  (x >>= f) = .ok result ↔ ∃ value, x = .ok value ∧ f value = .ok result := by
  cases x with
  | error e => simp
  | ok value => simp

-- Hexadecimal Text

def hexByteString (byte : UInt8) : JsString :=
  [Nat.digitChar (byte.toNat / 16), Nat.digitChar (byte.toNat % 16)]

/- `toHex` of `primitives/utils.ts`. -/
def toHex (msg : Bytes) : JsString :=
  msg.flatMap hexByteString

/- `HEX_CHAR_TO_VALUE`; `none` stands for `-1`. -/
def hexCharToValue (c : Char) : Option Nat :=
  if '0' ≤ c ∧ c ≤ '9' then some (c.toNat - 48)
  else if 'A' ≤ c ∧ c ≤ 'F' then some (c.toNat - 55)
  else if 'a' ≤ c ∧ c ≤ 'f' then some (c.toNat - 87)
  else none

/- Decode an even number of digits, two for each byte. -/
def hexPairs : JsString → Option Bytes
| [] => some []
| [_] => none
| hi :: lo :: rest =>
  match hexCharToValue hi, hexCharToValue lo, hexPairs rest with
  | some h, some l, some bytes => some (UInt8.ofNat (16 * h + l) :: bytes)
  | _, _, _ => none

/-
  `hexToUint8Array`: every character must be a hexadecimal
  digit, and odd input gets a leading zero.
-/
def hexToUint8Array (msg : JsString) :
  Except JsError Bytes :=
  let normalized := if msg.length % 2 = 0 then msg else '0' :: msg
  match hexPairs normalized with
  | some bytes => .ok bytes
  | none => .error (.error "Invalid hex string")

-- Digit Values

theorem hexCharToValue_lt {c : Char} {v : Nat} (hValue : hexCharToValue c = some v) : v < 16 := by
  unfold hexCharToValue at hValue
  split_ifs at hValue with hDigit hUpper hLower
  · have hLe : c.toNat ≤ 57 := hDigit.2
    have hEq := Option.some.inj hValue
    omega
  · have hLe : c.toNat ≤ 70 := hUpper.2
    have hEq := Option.some.inj hValue
    omega
  · have hLe : c.toNat ≤ 102 := hLower.2
    have hEq := Option.some.inj hValue
    omega

theorem hexCharToValue_digitChar {n : Nat} (hn : n < 16) :
  hexCharToValue (Nat.digitChar n) = some n := by
  have hAll : ∀ m : Fin 16, hexCharToValue (Nat.digitChar m.1) = some m.1 := by decide
  exact hAll ⟨n, hn⟩

def hexByteValues (byte : UInt8) : List (Option Nat) :=
  [some (byte.toNat / 16), some (byte.toNat % 16)]

theorem ofNat_digits (byte : UInt8) : UInt8.ofNat (16 * (byte.toNat / 16) + byte.toNat % 16) =
    byte := by
  rw [Nat.div_add_mod]
  exact UInt8.ofNat_toNat

theorem hexByteValues_ofNat {h l : Nat} (hh : h < 16) (hl : l < 16) :
  hexByteValues (UInt8.ofNat (16 * h + l)) = [some h, some l] := by
  have hByte : (UInt8.ofNat (16 * h + l)).toNat = 16 * h + l := by
    rw [UInt8.toNat_ofNat']
    omega
  simp only [hexByteValues, hByte]
  congr 2 <;> congr 1 <;> omega

theorem hexByteValues_injective : Function.Injective hexByteValues := by
  intro a b hEq
  simp only [hexByteValues, List.cons.injEq, Option.some.injEq, and_true] at hEq
  rw [← ofNat_digits a, ← ofNat_digits b, hEq.1, hEq.2]

/- Decoding reads exactly the digit values of the text. -/
theorem hexPairs_eq_some_iff (msg : JsString) (bytes : Bytes) :
  hexPairs msg = some bytes ↔ msg.map hexCharToValue = bytes.flatMap hexByteValues := by
  induction msg using hexPairs.induct generalizing bytes with
  | case1 =>
    cases bytes with
    | nil => simp [hexPairs]
    | cons byte bytes => simp [hexPairs, hexByteValues]
  | case2 c =>
    cases bytes with
    | nil => simp [hexPairs]
    | cons byte bytes => simp [hexPairs, hexByteValues]
  | case3 hi lo rest h l tail hTail hLo hHi ih =>
    have hh := hexCharToValue_lt hHi
    have hl := hexCharToValue_lt hLo
    have hRest := (ih tail).mp hTail
    simp only [hexPairs, hHi, hLo, hTail, Option.some.injEq, map_cons, hRest]
    constructor
    · rintro rfl
      rw [flatMap_cons, hexByteValues_ofNat hh hl]
      rfl
    · intro hValues
      cases bytes with
      | nil => simp at hValues
      | cons byte bytes =>
        have hBytes : hexPairs rest = some bytes := by
          refine (ih bytes).mpr ?_
          simp only [flatMap_cons, hexByteValues, cons_append, nil_append,
            List.cons.injEq] at hValues
          exact hRest.trans hValues.2.2
        have hByte : hexByteValues (UInt8.ofNat (16 * h + l)) = hexByteValues byte := by
          rw [hexByteValues_ofNat hh hl]
          simp only [flatMap_cons, hexByteValues, cons_append, nil_append,
            List.cons.injEq] at hValues
          simp [hexByteValues, hValues.1, hValues.2.1]
        rw [hexByteValues_injective hByte, Option.some.inj (hTail.symm.trans hBytes)]
  | case4 hi lo rest hNone ih =>
    simp only [hexPairs]
    constructor
    · intro hSome
      cases hSome
    · intro hValues
      cases bytes with
      | nil => simp at hValues
      | cons byte bytes =>
        simp only [map_cons, flatMap_cons, hexByteValues, cons_append,
          nil_append, List.cons.injEq] at hValues
        exact (hNone _ _ bytes hValues.1 hValues.2.1 ((ih bytes).mpr hValues.2.2)).elim

theorem map_hexCharToValue_toHex (bytes : Bytes) :
  (toHex bytes).map hexCharToValue = bytes.flatMap hexByteValues := by
  induction bytes with
  | nil => rfl
  | cons byte bytes ih =>
    have hHigh : byte.toNat / 16 < 16 := by
      have hByte := byte.toNat_lt
      omega
    have hLow : byte.toNat % 16 < 16 := by omega
    simp only [toHex] at ih
    simp [toHex, hexByteString, hexByteValues, ih, hexCharToValue_digitChar hHigh,
      hexCharToValue_digitChar hLow]

theorem isSome_of_mem_toHex {bytes : Bytes} {char : Char} (hChar : char ∈ toHex bytes) :
  (hexCharToValue char).isSome = true := by
  have hValue : hexCharToValue char ∈ bytes.flatMap hexByteValues := by
    rw [← map_hexCharToValue_toHex]
    exact List.mem_map_of_mem hChar
  rcases mem_flatMap.mp hValue with ⟨byte, _, hByte⟩
  rcases mem_cons.mp hByte with hHigh | hLow
  · simp [hHigh]
  · simp [mem_singleton.mp hLow]

@[simp] theorem length_toHex (bytes : Bytes) : (toHex bytes).length = 2 * bytes.length := by
  induction bytes with
  | nil => rfl
  | cons byte bytes ih =>
    simp only [toHex] at ih
    simp [toHex, hexByteString, ih]
    omega

@[simp] theorem toHex_eq_nil_iff (bytes : Bytes) : toHex bytes = [] ↔ bytes = [] := by
  rw [← length_eq_zero_iff, length_toHex, ← length_eq_zero_iff (l := bytes)]
  omega

-- Round Trip and Cancellation

/- The text `hexToUint8Array` decodes: even length. -/
def normalizeHexLength (msg : JsString) : JsString :=
  if msg.length % 2 = 0 then msg else '0' :: msg

/- Successful decoding reads the normalized digit values. -/
theorem hexToUint8Array_eq_ok_iff (msg : JsString) (bytes : Bytes) :
  hexToUint8Array msg = .ok bytes ↔ (normalizeHexLength msg).map hexCharToValue =
      bytes.flatMap hexByteValues := by
  rw [← hexPairs_eq_some_iff]
  unfold hexToUint8Array normalizeHexLength
  cases hPairs : hexPairs (if msg.length % 2 = 0 then msg else '0' :: msg) with
  | none => simp [hPairs]
  | some decoded => simp [hPairs]

/- Printing and decoding returns the bytes. -/
@[simp] theorem hexToUint8Array_toHex (bytes : Bytes) :
  hexToUint8Array (toHex bytes) = .ok bytes := by
  rw [hexToUint8Array_eq_ok_iff, normalizeHexLength, if_pos (by simp)]
  exact map_hexCharToValue_toHex bytes

/- Printing loses no information. -/
theorem toHex_injective : Function.Injective toHex := by
  intro a b hEq
  have hDecode := hexToUint8Array_toHex a
  rw [hEq, hexToUint8Array_toHex] at hDecode
  exact (Except.ok.inj hDecode).symm

variable {a b : Bytes}

/- Printed bytes with equal digit values are equal. -/
theorem toHex_eq_of_map_eq (hEq : (toHex a).map hexCharToValue = (toHex b).map hexCharToValue) :
  a = b := by
  have hDecode : hexToUint8Array (toHex a) = .ok b := by
    rw [hexToUint8Array_eq_ok_iff, normalizeHexLength, if_pos (by simp), hEq]
    exact map_hexCharToValue_toHex b
  rw [hexToUint8Array_toHex] at hDecode
  exact Except.ok.inj hDecode

variable {bytes : Bytes}

/- Equal-length texts decoding alike have equal values. -/
theorem map_eq_of_hexToUint8Array_eq
  {u v : JsString} (hLen : u.length = v.length) (hu : hexToUint8Array u = .ok bytes)
  (hv : hexToUint8Array v = .ok bytes) : u.map hexCharToValue = v.map hexCharToValue := by
  rw [hexToUint8Array_eq_ok_iff] at hu hv
  have hEq := hu.trans hv.symm
  unfold normalizeHexLength at hEq
  rw [hLen] at hEq
  split_ifs at hEq with hEven
  · exact hEq
  · simpa using hEq

/- A common prefix cancels from equal decodings. -/
theorem hexToUint8Array_append_left_cancel {left : JsString} (hLen : a.length = b.length)
  (ha : hexToUint8Array (left ++ toHex a) = .ok bytes)
  (hb : hexToUint8Array (left ++ toHex b) = .ok bytes) : a = b := by
  have hEq := map_eq_of_hexToUint8Array_eq (by simp [hLen]) ha hb
  simp only [map_append] at hEq
  exact toHex_eq_of_map_eq (append_cancel_left hEq)

/- A common suffix cancels from equal decodings. -/
theorem hexToUint8Array_append_right_cancel {right : JsString} (hLen : a.length = b.length)
  (ha : hexToUint8Array (toHex a ++ right) = .ok bytes)
  (hb : hexToUint8Array (toHex b ++ right) = .ok bytes) : a = b := by
  have hEq := map_eq_of_hexToUint8Array_eq (by simp [hLen]) ha hb
  simp only [map_append] at hEq
  exact toHex_eq_of_map_eq (append_cancel_right hEq)

end TsStack
