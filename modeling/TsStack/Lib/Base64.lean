import Mathlib.Data.List.GetD
import Mathlib.Data.List.Nodup
import Mathlib.Algebra.Order.Ring.Nat

/-
  Groups of six bits, as base 64 writes bytes.

  Strict reading refuses a last group of one character, and
  bits that no byte has; forgiving reading drops those bits.
-/

-- Groups of Six Bits

open List

namespace Base64

/- The groups of six bits of bytes, padded by zeros. -/
def sextets : List UInt8 → List Nat
| [] => []
| [a] => [a.toNat / 4, a.toNat % 4 * 16]
| [a, b] => [a.toNat / 4, a.toNat % 4 * 16 + b.toNat / 16, b.toNat % 16 * 4]
| a :: b :: c :: rest =>
  a.toNat / 4 :: (a.toNat % 4 * 16 + b.toNat / 16) :: (b.toNat % 16 * 4 + c.toNat / 64) ::
      (c.toNat % 64) :: sextets rest

/- The bytes of groups of six bits. -/
def bytes : List Nat → Option (List UInt8)
| [] => some []
| [_] => none
| [p, q] =>
  if q % 16 = 0 then some [UInt8.ofNat (p * 4 + q / 16)]
  else none
| [p, q, r] =>
  if r % 4 = 0 then some [UInt8.ofNat (p * 4 + q / 16), UInt8.ofNat (q % 16 * 16 + r / 4)]
  else none
| p :: q :: r :: s :: rest =>
  (bytes rest).map fun tail =>
    UInt8.ofNat (p * 4 + q / 16) :: UInt8.ofNat (q % 16 * 16 + r / 4) ::
        UInt8.ofNat (r % 4 * 64 + s) :: tail

/- The bytes of groups, whatever bits are left over. -/
def forgivingBytes : List Nat → Option (List UInt8)
| [] => some []
| [_] => none
| [p, q] => some [UInt8.ofNat (p * 4 + q / 16)]
| [p, q, r] =>
  some [UInt8.ofNat (p * 4 + q / 16), UInt8.ofNat (q % 16 * 16 + r / 4)]
| p :: q :: r :: s :: rest =>
  (forgivingBytes rest).map fun tail =>
    UInt8.ofNat (p * 4 + q / 16) :: UInt8.ofNat (q % 16 * 16 + r / 4) ::
        UInt8.ofNat (r % 4 * 64 + s) :: tail

variable {groups : List Nat}

/- What is read strictly is read the same forgivingly. -/
theorem forgivingBytes_of_bytes {data : List UInt8} (hBytes : bytes groups = some data) :
  forgivingBytes groups = some data := by
  fun_induction bytes groups generalizing data with
  | case1 => exact hBytes
  | case2 p => cases hBytes
  | case3 p q hZero => exact hBytes
  | case4 p q hZero => cases hBytes
  | case5 p q r hZero => exact hBytes
  | case6 p q r hZero => cases hBytes
  | case7 p q r s rest ih =>
    rcases Option.map_eq_some_iff.mp hBytes with ⟨tail, hTail, hData⟩
    rw [forgivingBytes, ih hTail, Option.map_some, hData]

theorem ofNat_eq {byte : UInt8} {number : Nat} (hNum : number = byte.toNat) :
  UInt8.ofNat number = byte := by
  rw [hNum, UInt8.ofNat_toNat]

theorem bytes_sextets (data : List UInt8) : bytes (sextets data) = some data := by
  match data with
  | [] => rfl
  | [a] =>
    have hA : a.toNat / 4 * 4 + a.toNat % 4 * 16 / 16 =
        a.toNat := by
      omega
    have hZero : a.toNat % 4 * 16 % 16 = 0 := by omega
    simp only [sextets, bytes]
    rw [if_pos hZero, ofNat_eq hA]
  | [a, b] =>
    have hB := b.toNat_lt
    have hFst : a.toNat / 4 * 4 + (a.toNat % 4 * 16 + b.toNat / 16) / 16 =
          a.toNat := by
      omega
    have hSnd : (a.toNat % 4 * 16 + b.toNat / 16) % 16 * 16 + b.toNat % 16 * 4 / 4 =
          b.toNat := by
      omega
    have hZero : b.toNat % 16 * 4 % 4 = 0 := by omega
    simp only [sextets, bytes]
    rw [if_pos hZero, ofNat_eq hFst, ofNat_eq hSnd]
  | a :: b :: c :: rest =>
    have hB := b.toNat_lt
    have hC := c.toNat_lt
    have hFst : a.toNat / 4 * 4 + (a.toNat % 4 * 16 + b.toNat / 16) / 16 =
          a.toNat := by
      omega
    have hSnd :
        (a.toNat % 4 * 16 + b.toNat / 16) % 16 * 16 + (b.toNat % 16 * 4 + c.toNat / 64) / 4 =
          b.toNat := by
      omega
    have hThird : (b.toNat % 16 * 4 + c.toNat / 64) % 4 * 64 + c.toNat % 64 =
          c.toNat := by
      omega
    simp only [sextets, bytes]
    rw [bytes_sextets rest, ofNat_eq hFst, ofNat_eq hSnd, ofNat_eq hThird]
    rfl

/- Groups are numbers below sixty-four. -/
theorem sextets_lt (data : List UInt8) : ∀ value ∈ sextets data, value < 64 := by
  match data with
  | [] => exact fun _ hMem => by cases hMem
  | [a] =>
    have hA : a.toNat < 256 := a.toNat_lt
    have hNil : ∀ value ∈ ([] : List Nat), value < 64 := fun _ hMem => by cases hMem
    simp only [sextets, forall_mem_cons]
    exact ⟨by omega, by omega, hNil⟩
  | [a, b] =>
    have hA : a.toNat < 256 := a.toNat_lt
    have hB : b.toNat < 256 := b.toNat_lt
    have hNil : ∀ value ∈ ([] : List Nat), value < 64 := fun _ hMem => by cases hMem
    simp only [sextets, forall_mem_cons]
    exact ⟨by omega, by omega, by omega, hNil⟩
  | a :: b :: c :: rest =>
    have hA : a.toNat < 256 := a.toNat_lt
    have hB : b.toNat < 256 := b.toNat_lt
    have hC : c.toNat < 256 := c.toNat_lt
    have hTail := sextets_lt rest
    simp only [sextets, forall_mem_cons]
    exact ⟨by omega, by omega, by omega, by omega, hTail⟩

/- Four groups for three bytes, and one more than the rest. -/
theorem length_sextets (data : List UInt8) : (sextets data).length = (data.length * 4 + 2) / 3 := by
  match data with
  | [] => rfl
  | [_] => simp [sextets]
  | [_, _] => simp [sextets]
  | _ :: _ :: _ :: rest =>
    simp only [sextets, length_cons]
    rw [length_sextets rest]
    omega

-- Alphabets

variable {α : Type} [DecidableEq α] [Inhabited α]

/- The characters of groups. -/
def digits (alphabet : List α) (values : List Nat) : List α :=
  values.map fun value => alphabet.getD value default

/- The groups of characters, if they are all known. -/
def values (alphabet : List α) (text : List α) : Option (List Nat) :=
  text.mapM fun char => alphabet.idxOf? char

variable {alphabet : List α}

theorem idxOf?_getD (hNodup : alphabet.Nodup) {value : Nat} (hValue : value < alphabet.length) :
  alphabet.idxOf? (alphabet.getD value default) = some value := by
  rw [getD_eq_getElem _ _ hValue, idxOf?_eq_some_iff]
  refine ⟨hValue, rfl, ?_⟩
  intro earlier hEarlier hEq
  have hSame := (List.Nodup.getElem_inj_iff hNodup).mp hEq
  omega

theorem values_digits
  (hNodup : alphabet.Nodup) (hGroups : ∀ value ∈ groups, value < alphabet.length) :
  values alphabet (digits alphabet groups) = some groups := by
  unfold values digits
  induction groups with
  | nil => rfl
  | cons value groups ih =>
    have hTail := ih fun other hMem => hGroups other (mem_cons_of_mem _ hMem)
    rw [map_cons, mapM_cons, idxOf?_getD hNodup (hGroups value mem_cons_self), hTail]
    rfl

variable {char : α}

omit [DecidableEq α] in
theorem mem_of_mem_digits
  (hGroups : ∀ value ∈ groups, value < alphabet.length) (hChar : char ∈ digits alphabet groups) :
  char ∈ alphabet := by
  rcases List.mem_map.mp hChar with ⟨value, hValue, rfl⟩
  have hLt := hGroups value hValue
  rw [List.getD_eq_getElem _ _ hLt]
  exact List.getElem_mem hLt

-- Text of Bytes

/- Bytes as text without padding. -/
def encode (alphabet : List α) (data : List UInt8) : List α :=
  digits alphabet (sextets data)

def decode (alphabet : List α) (text : List α) : Option (List UInt8) :=
  (values alphabet text).bind bytes

def decodeForgiving (alphabet : List α) (text : List α) : Option (List UInt8) :=
  (values alphabet text).bind forgivingBytes

/- The padding of so many bytes fills up four characters. -/
def paddingLength (count : Nat) : Nat :=
  (3 - count % 3) % 3

def encodePadded (alphabet : List α) (pad : α) (data : List UInt8) : List α :=
  encode alphabet data ++ List.replicate (paddingLength data.length) pad

def dropPad (pad : α) (text : List α) : List α :=
  if text.getLast? = some pad then text.dropLast
  else text

def decodePadded (alphabet : List α) (pad : α) (text : List α) : Option (List UInt8) :=
  if text.length % 4 = 0 then decode alphabet (dropPad pad (dropPad pad text))
  else none

/- Bytes return from their text. -/
theorem decode_encode (hNodup : alphabet.Nodup) (hLen : alphabet.length = 64) (data : List UInt8) :
  decode alphabet (encode alphabet data) = some data := by
  have hGroups : ∀ value ∈ sextets data, value < alphabet.length := by
    rw [hLen]
    exact sextets_lt data
  unfold decode encode
  rw [values_digits hNodup hGroups]
  exact bytes_sextets data

theorem decodeForgiving_encode
  (hNodup : alphabet.Nodup) (hLen : alphabet.length = 64) (data : List UInt8) :
  decodeForgiving alphabet (encode alphabet data) = some data := by
  have hGroups : ∀ value ∈ sextets data, value < alphabet.length := by
    rw [hLen]
    exact sextets_lt data
  unfold decodeForgiving encode
  rw [values_digits hNodup hGroups]
  exact forgivingBytes_of_bytes (bytes_sextets data)

omit [DecidableEq α] in
theorem length_encode (alphabet : List α) (data : List UInt8) :
  (encode alphabet data).length = (data.length * 4 + 2) / 3 := by
  unfold encode digits
  rw [List.length_map]
  exact length_sextets data

omit [DecidableEq α] in
theorem length_encodePadded (alphabet : List α) (pad : α) (data : List UInt8) :
  (encodePadded alphabet pad data).length = 4 * ((data.length + 2) / 3) := by
  unfold encodePadded paddingLength
  rw [List.length_append, length_encode, List.length_replicate]
  omega

omit [Inhabited α] in
theorem dropPad_append (pad : α) (text : List α) : dropPad pad (text ++ [pad]) = text := by
  unfold dropPad
  rw [List.getLast?_concat, if_pos rfl, List.dropLast_concat]

variable
    {pad : α} {text : List α}

omit [Inhabited α] in
theorem dropPad_of_notMem (hPad : pad ∉ text) : dropPad pad text = text := by
  unfold dropPad
  rw [if_neg]
  intro hLast
  exact hPad (List.mem_of_getLast? hLast)

omit [Inhabited α] in
/- Two characters of padding at most are dropped. -/
theorem dropPad_replicate (hPad : pad ∉ text) {count : Nat} (hCount : count < 3) :
  dropPad pad (dropPad pad (text ++ List.replicate count pad)) =
    text := by
  match count with
  | 0 => rw [List.replicate_zero, List.append_nil, dropPad_of_notMem hPad, dropPad_of_notMem hPad]
  | 1 => rw [List.replicate_one, dropPad_append, dropPad_of_notMem hPad]
  | 2 =>
    have hTwo : text ++ List.replicate 2 pad = (text ++ [pad]) ++ [pad] := by
      rw [List.append_assoc]
      rfl
    rw [hTwo, dropPad_append, dropPad_append]

/- Bytes return from their padded text. -/
theorem decodePadded_encodePadded
  (hNodup : alphabet.Nodup) (hLen : alphabet.length = 64) (hPad : pad ∉ alphabet)
  (data : List UInt8) : decodePadded alphabet pad (encodePadded alphabet pad data) = some data := by
  have hGroups : ∀ value ∈ sextets data, value < alphabet.length := by
    rw [hLen]
    exact sextets_lt data
  have hFree : pad ∉ encode alphabet data := fun hMem => hPad (mem_of_mem_digits hGroups hMem)
  have hCount : paddingLength data.length < 3 := Nat.mod_lt _ (by decide)
  unfold decodePadded
  rw [length_encodePadded, if_pos (Nat.mul_mod_right 4 _)]
  unfold encodePadded
  rw [dropPad_replicate hFree hCount]
  exact decode_encode hNodup hLen data

omit [Inhabited α] in
theorem mem_of_values (hText : (values alphabet text).isSome = true) (hChar : char ∈ text) :
  char ∈ alphabet := by
  unfold values at hText
  induction text with
  | nil => cases hChar
  | cons head text ih =>
    rw [List.mapM_cons] at hText
    cases hHead : alphabet.idxOf? head with
    | none =>
      rw [hHead] at hText
      cases hText
    | some value =>
      rw [hHead] at hText
      simp only [Option.pure_def, Option.bind_eq_bind, Option.bind_some] at hText
      rcases List.mem_cons.mp hChar with hEq | hTail
      · rw [hEq]
        by_contra hNot
        rw [List.idxOf?_eq_none_iff.mpr hNot] at hHead
        cases hHead
      · apply ih _ hTail
        cases hRest : text.mapM fun char => alphabet.idxOf? char with
        | none =>
          rw [hRest] at hText
          cases hText
        | some values => rfl

omit [Inhabited α] in
theorem mem_dropPad (pad : α) (hChar : char ∈ text) : char ∈ dropPad pad text ∨ char = pad := by
  unfold dropPad
  by_cases hLast : text.getLast? = some pad
  · rw [if_pos hLast]
    have hSplit := List.dropLast_append_getLast? pad hLast
    rw [← hSplit] at hChar
    rcases List.mem_append.mp hChar with hInit | hEnd
    · exact .inl hInit
    · exact .inr (List.mem_singleton.mp hEnd)
  · rw [if_neg hLast]
    exact .inl hChar

omit [Inhabited α] in
theorem mem_of_decodePadded
  (hText : (decodePadded alphabet pad text).isSome = true) (hChar : char ∈ text) :
  char ∈ alphabet ∨ char = pad := by
  unfold decodePadded at hText
  split at hText
  · have hValues : (values alphabet (dropPad pad (dropPad pad text))).isSome = true := by
      unfold decode at hText
      cases hValues : values alphabet (dropPad pad (dropPad pad text)) with
      | none =>
        rw [hValues] at hText
        cases hText
      | some groups => rfl
    rcases mem_dropPad pad hChar with hOnce | hPad
    · rcases mem_dropPad pad hOnce with hTwice | hPad
      · exact .inl (mem_of_values hValues hTwice)
      · exact .inr hPad
    · exact .inr hPad
  · cases hText

end Base64
