import TsStack.Lib.LittleEndian
import TsStack.Lib.ListParser
import TsStack.Primitives.Hex

/-
  The byte reader of `primitives/ReaderUint8Array.ts` and
  the CompactSize numbers of `readVarIntNumStrict.ts` and
  of the writer.

  A reader is a parser of the bytes after its position.
-/

-- Fixed-Width Reads

open List

namespace TsStack

open ListParser

open LittleEndian

abbrev ByteReader := ListParser JsError UInt8

def readError : JsError :=
  .rangeError "ReaderUint8Array read exceeds available data"

/- `read(len)`. -/
def ByteReader.read (len : Nat) : ByteReader Bytes :=
  ListParser.take readError len

/- An unsigned little-endian number of some bytes. -/
def readUInt (width : Nat) : ByteReader Nat := do
  let bytes ← ByteReader.read width
  pure (leToNat bytes)

def readUInt8 : ByteReader Nat :=
  readUInt 1

def readUInt16LE : ByteReader Nat :=
  readUInt 2

def readUInt32LE : ByteReader Nat :=
  readUInt 4

def readUInt64LEBn : ByteReader Nat :=
  readUInt 8

theorem reads_read (bytes : Bytes) : (ByteReader.read bytes.length).Reads bytes bytes :=
  reads_take readError bytes

theorem yields_read (len : Nat) : (ByteReader.read len).Yields (fun bytes => bytes.length = len) :=
  yields_take readError len

variable (width : Nat)

theorem reads_readUInt {n : Nat} (hBound : n < 256 ^ width) :
  (readUInt width).Reads n (leBytes width n) := by
  have hRead := reads_read (leBytes width n)
  rw [length_leBytes] at hRead
  refine hRead.bind_nil ?_
  rw [leToNat_leBytes hBound]
  exact reads_pure n

theorem parses_readUInt :
  (readUInt width).Parses (fun n tokens => n < 256 ^ width ∧ tokens = leBytes width n) := by
  apply (parses_take readError width).bind
  rintro bytes tokens ⟨rfl, hLen⟩
  apply parses_pure
  rw [append_nil, ← hLen]
  exact ⟨leToNat_lt bytes, (leBytes_leToNat bytes).symm⟩

theorem yields_readUInt : (readUInt width).Yields (fun n => n < 256 ^ width) := by
  refine (yields_read width).bind fun bytes hBytes => ?_
  refine yields_pure ?_
  exact hBytes ▸ leToNat_lt bytes

-- CompactSize

/- The error of an encoding that is too long. -/
def nonCanonicalError : JsError :=
  .error "non-canonical varInt"

/- `readVarIntNumStrict(false)`. -/
def readVarIntNumStrict : ByteReader Nat := do
  let first ← readUInt8
  if first < 0xfd then pure first
  else if first = 0xfd then do
    let value ← readUInt16LE
    if value < 0xfd then ListParser.fail nonCanonicalError
    else pure value
  else if first = 0xfe then do
    let value ← readUInt32LE
    if value ≤ 0xffff then ListParser.fail nonCanonicalError
    else pure value
  else do
    let value ← readUInt64LEBn
    if value ≤ 0xffffffff then ListParser.fail nonCanonicalError
    else if value > maxSafeInteger then
      ListParser.fail (.error ("number too large to retain precision - " ++ "use readVarIntBn"))
    else pure value

/- `Writer.varIntNum` on a non-negative integer. -/
def varIntNum (n : Nat) : Bytes :=
  if n < 253 then leBytes 1 n
  else if n < 0x10000 then 253 :: leBytes 2 n
  else if n < 0x100000000 then 254 :: leBytes 4 n
  else 255 :: leBytes 8 n

/-
  The strict readers, which differ in the value they return
  and in what they do with a number of eight bytes.
-/
def readCompactSize {α : Type} (small : Nat → α) (large : Nat → ByteReader α) : ByteReader α := do
  let first ← readUInt8
  if first < 0xfd then pure (small first)
  else if first = 0xfd then do
    let value ← readUInt16LE
    if value < 0xfd then ListParser.fail nonCanonicalError
    else pure (small value)
  else if first = 0xfe then do
    let value ← readUInt32LE
    if value ≤ 0xffff then ListParser.fail nonCanonicalError
    else pure (small value)
  else do
    let value ← readUInt64LEBn
    if value ≤ 0xffffffff then ListParser.fail nonCanonicalError
    else large value

def tooLargeError : JsError :=
  .error ("number too large to retain precision - " ++ "use readVarIntBn")

theorem readVarIntNumStrict_eq : readVarIntNumStrict = readCompactSize id fun value =>
    if value > maxSafeInteger then fail tooLargeError else pure value :=
  rfl

/- `readVarIntNumStrict(true)`. -/
def readVarIntNumStrictSigned : ByteReader Int :=
  readCompactSize Int.ofNat fun value =>
    if value = 2 ^ 64 - 1 then pure (-1)
    else if value > maxSafeInteger then ListParser.fail tooLargeError
    else pure value

def readVarIntBnStrict : ByteReader Nat :=
  readCompactSize id pure

section Readers

variable {α : Type} {small : Nat → α} {large : Nat → ByteReader α} {n : Nat}

theorem reads_marker (marker : Nat) (hByte : marker < 256) :
  readUInt8.Reads marker [UInt8.ofNat marker] :=
  reads_readUInt 1 hByte

theorem reads_readCompactSize_small (hSmall : n ≤ 0xffffffff) :
  (readCompactSize small large).Reads (small n) (varIntNum n) := by
  unfold varIntNum
  split_ifs with hOne hTwo hFour
  · refine (reads_readUInt 1 (by omega)).bind_nil ?_
    rw [if_pos hOne]
    exact reads_pure _
  · refine (reads_marker 0xfd (by omega)).bind (a := 0xfd) ?_
    rw [if_neg (by omega), if_pos rfl]
    refine (reads_readUInt 2 (by omega)).bind_nil ?_
    rw [if_neg hOne]
    exact reads_pure _
  · refine (reads_marker 0xfe (by omega)).bind (a := 0xfe) ?_
    rw [if_neg (by omega), if_neg (by omega), if_pos rfl]
    refine (reads_readUInt 4 (by omega)).bind_nil ?_
    rw [if_neg (by omega)]
    exact reads_pure _
  · omega

theorem reads_readCompactSize_large
  {value : α} (hLarge : 0xffffffff < n) (hBound : n < 2 ^ 64) (hRead : (large n).Reads value []) :
  (readCompactSize small large).Reads value (varIntNum n) := by
  rw [varIntNum, if_neg (by omega), if_neg (by omega), if_neg (by omega)]
  refine (reads_marker 0xff (by omega)).bind (a := 0xff) ?_
  rw [if_neg (by omega), if_neg (by omega), if_neg (by omega)]
  refine (reads_readUInt 8 (by omega)).bind_nil ?_
  rwa [if_neg (by omega)]

/- A strict reader accepts the writer's bytes only. -/
theorem parses_readCompactSize
  {R : α → Bytes → Prop} (hSmall : ∀ n ≤ 0xffffffff, R (small n) (varIntNum n))
  (hLarge : ∀ n, 0xffffffff < n → n < 2 ^ 64 →
    (large n).Parses fun value tokens => R value (varIntNum n ++ tokens)) :
  (readCompactSize small large).Parses R := by
  apply (parses_readUInt 1).bind
  rintro first tokens ⟨hFst, rfl⟩
  apply ListParser.Parses.ite
  · intro hOne
    apply parses_pure
    have hTail := hSmall first (by omega)
    rwa [varIntNum, if_pos hOne, ← append_nil (leBytes 1 first)] at hTail
  intro hOne
  apply ListParser.Parses.ite
  · rintro rfl
    apply (parses_readUInt 2).bind
    rintro value tokens ⟨hValue, rfl⟩
    apply ListParser.Parses.ite fun _ => parses_fail _ _
    intro hLong
    apply parses_pure
    have hTail := hSmall value (by omega)
    rw [varIntNum, if_neg hLong, if_pos (by omega)] at hTail
    rwa [append_nil]
  intro hTwo
  apply ListParser.Parses.ite
  · rintro rfl
    apply (parses_readUInt 4).bind
    rintro value tokens ⟨hValue, rfl⟩
    apply ListParser.Parses.ite fun _ => parses_fail _ _
    intro hLong
    apply parses_pure
    have hTail := hSmall value (by omega)
    rw [varIntNum, if_neg (by omega), if_neg (by omega), if_pos (by omega)] at hTail
    rwa [append_nil]
  intro hFour
  obtain rfl : first = 0xff := by omega
  apply (parses_readUInt 8).bind
  rintro value tokens ⟨hValue, rfl⟩
  apply ListParser.Parses.ite fun _ => parses_fail _ _
  intro hLong
  have hTail := hLarge value (by omega) (by omega)
  rwa [varIntNum, if_neg (by omega), if_neg (by omega), if_neg (by omega)] at hTail

end Readers

theorem reads_readVarIntNumStrict {n : Nat} (hSafe : n ≤ maxSafeInteger) :
  readVarIntNumStrict.Reads n (varIntNum n) := by
  rw [readVarIntNumStrict_eq]
  by_cases hSmall : n ≤ 0xffffffff
  · exact reads_readCompactSize_small hSmall
  · refine reads_readCompactSize_large (by omega) (by unfold maxSafeInteger at hSafe; omega) ?_
    rw [if_neg (by omega)]
    exact reads_pure n

/- The strict reader accepts the writer's bytes only. -/
theorem parses_readVarIntNumStrict :
  readVarIntNumStrict.Parses (fun n tokens => n ≤ maxSafeInteger ∧ tokens = varIntNum n) := by
  refine parses_readCompactSize (fun n hSmall => ⟨by unfold maxSafeInteger; omega, rfl⟩)
    fun n _ _ => .ite (fun _ => parses_fail _ _) fun hSafe => ?_
  exact parses_pure ⟨by omega, append_nil _⟩

theorem yields_readVarIntNumStrict : readVarIntNumStrict.Yields (fun n => n ≤ maxSafeInteger) := by
  intro input n rest hRun
  rcases parses_readVarIntNumStrict _ _ _ hRun with ⟨_, _, hSafe, _⟩
  exact hSafe

-- The Writer

/- The operand of a bitwise operator: 32 bits with a sign. -/
def int32 (n : Int) : Int :=
  (n + 2 ^ 31) % 2 ^ 32 - 2 ^ 31

/- `(n >> shift) & 0xff`. -/
def byteAt (n : Int) (shift : Nat) : UInt8 :=
  UInt8.ofNat ((int32 n / 2 ^ shift) % 256).toNat

namespace Writer

/- `writeUInt64LEBn` of a number below 2^64. -/
def uInt64LEBn (bn : Int) : Bytes :=
  leBytes 8 bn.toNat

def varIntBn (bn : Int) : Bytes :=
  let bn := if bn < 0 then bn + 2 ^ 64 else bn
  if bn < 253 then [UInt8.ofNat bn.toNat]
  else if bn < 0x10000 then [253, byteAt bn 0, byteAt bn 8]
  else if bn < 0x100000000 then [254, byteAt bn 0, byteAt bn 8, byteAt bn 16, byteAt bn 24]
  else 255 :: uInt64LEBn bn

/- `varIntNum` of an integer. -/
def varIntNum (n : Int) : Bytes :=
  if n < 0 then varIntBn n
  else if n < 253 then [UInt8.ofNat n.toNat]
  else if n < 0x10000 then [253, byteAt n 0, byteAt n 8]
  else if n < 0x100000000 then [254, byteAt n 0, byteAt n 8, byteAt n 16, byteAt n 24]
  else
    let low := int32 n
    let high := int32 (n / 0x100000000)
    [255, byteAt low 0, byteAt low 8, byteAt low 16, byteAt low 24,
      byteAt high 0, byteAt high 8, byteAt high 16, byteAt high 24]

/- The operators take the bytes of a number. -/
theorem byteAt_eq (n k : Nat) (hByte : k < 4) : byteAt n (8 * k) = UInt8.ofNat (n / 256 ^ k) := by
  rw [byteAt, int32, ← UInt8.toNat_inj, UInt8.toNat_ofNat', UInt8.toNat_ofNat']
  obtain rfl | rfl | rfl | rfl : k = 0 ∨ k = 1 ∨ k = 2 ∨ k = 3 := by omega
  all_goals
    simp only [Nat.reduceMul, Nat.reducePow, Int.reducePow]
    omega

theorem leBytes_two (n : Nat) : leBytes 2 n = [byteAt n 0, byteAt n 8] := by
  simp [leBytes, byteAt_eq n 0, byteAt_eq n 1]

theorem leBytes_four (n : Nat) :
  leBytes 4 n = [byteAt n 0, byteAt n 8, byteAt n 16, byteAt n 24] := by
  simp [leBytes, byteAt_eq n 0, byteAt_eq n 1, byteAt_eq n 2, byteAt_eq n 3, Nat.div_div_eq_div_mul]

theorem byteAt_int32 (n : Int) (shift : Nat) : byteAt (int32 n) shift = byteAt n shift := by
  have hTwice : int32 (int32 n) = int32 n := by
    unfold int32
    omega
  rw [byteAt, byteAt, hTwice]

variable {n : Nat}

theorem varIntBn_eq (hBound : n < 2 ^ 64) : varIntBn n = TsStack.varIntNum n := by
  simp only [varIntBn, if_neg (show ¬ (n : Int) < 0 by omega), TsStack.varIntNum, leBytes_two,
    leBytes_four, uInt64LEBn, Int.toNat_natCast]
  split_ifs <;> first | omega | rfl

theorem varIntNum_eq : varIntNum n = TsStack.varIntNum n := by
  have hHalves : leBytes 8 n = leBytes 4 n ++ leBytes 4 (n / 0x100000000) := by
    simp [leBytes, Nat.div_div_eq_div_mul]
  simp only [varIntNum, if_neg (show ¬ (n : Int) < 0 by omega), TsStack.varIntNum, hHalves,
    leBytes_two, leBytes_four, Int.toNat_natCast, byteAt_int32]
  split_ifs <;> first | omega | rfl

end Writer

/- The word of minus one is that of the largest number. -/
theorem Writer.varIntNum_neg_one : Writer.varIntNum (-1) = TsStack.varIntNum (2 ^ 64 - 1) := by
  decide

theorem reads_readVarIntNumStrictSigned {n : Int} (hValid : n = -1 ∨ 0 ≤ n ∧ n ≤ maxSafeInteger) :
  readVarIntNumStrictSigned.Reads n (Writer.varIntNum n) := by
  rcases hValid with rfl | ⟨hSign, hSafe⟩
  · rw [Writer.varIntNum_neg_one]
    refine reads_readCompactSize_large (by omega) (by omega) ?_
    rw [if_pos rfl]
    exact reads_pure _
  · obtain ⟨m, rfl⟩ := Int.eq_ofNat_of_zero_le hSign
    have hSafe := Int.ofNat_le.mp hSafe
    have hBound : m < 2 ^ 64 - 1 := lt_of_le_of_lt hSafe (by decide)
    rw [Writer.varIntNum_eq]
    by_cases hSmall : m ≤ 0xffffffff
    · exact reads_readCompactSize_small hSmall
    · refine reads_readCompactSize_large (by omega) (by omega) ?_
      rw [if_neg (by omega), if_neg (by omega)]
      exact reads_pure _

theorem parses_readVarIntNumStrictSigned : readVarIntNumStrictSigned.Parses fun n tokens =>
    (n = -1 ∨ 0 ≤ n ∧ n ≤ maxSafeInteger) ∧ tokens = Writer.varIntNum n := by
  refine parses_readCompactSize (fun n hSmall => ⟨.inr ⟨Int.natCast_nonneg n, ?_⟩, ?_⟩)
    fun n _ _ => ?_
  · unfold maxSafeInteger
    simp only [Int.ofNat_eq_natCast]
    omega
  · exact Writer.varIntNum_eq.symm
  · refine .ite (fun hLast => parses_pure ⟨.inl rfl, ?_⟩) fun _ =>
      .ite (fun _ => parses_fail _ _) fun hSafe => parses_pure ⟨.inr ?_, ?_⟩
    · rw [append_nil, hLast, Writer.varIntNum_neg_one]
    · omega
    · rw [append_nil, Writer.varIntNum_eq]

theorem eq_ok_iff_of_reads {α : Type} {p : ByteReader α} {Valid : α → Prop} {encode : α → Bytes}
  (hReads : ∀ value, Valid value → p.Reads value (encode value))
  (hParses : p.Parses fun value tokens => Valid value ∧ tokens = encode value)
  (input rest : Bytes) (value : α) :
  p input = .ok (value, rest) ↔ Valid value ∧ input = encode value ++ rest := by
  constructor
  · intro hRun
    rcases hParses _ _ _ hRun with ⟨tokens, hInput, hValid, rfl⟩
    exact ⟨hValid, hInput⟩
  · rintro ⟨hValid, rfl⟩
    exact hReads value hValid rest

/-
  The strict readers accept what the writer writes of the
  numbers in their range, and nothing else.
-/
theorem compactSize_canonical (input rest : Bytes) :
  (∀ n : Nat, readVarIntNumStrict input = .ok (n, rest) ↔
    n ≤ maxSafeInteger ∧ input = Writer.varIntNum n ++ rest) ∧
  (∀ n : Nat, readVarIntBnStrict input = .ok (n, rest) ↔
    n < 2 ^ 64 ∧ input = Writer.varIntBn n ++ rest) ∧
  (∀ n : Nat, n ≤ maxSafeInteger → Writer.varIntNum n = Writer.varIntBn n) ∧
  ∀ n : Int, readVarIntNumStrictSigned input = .ok (n, rest) ↔
    (n = -1 ∨ 0 ≤ n ∧ n ≤ maxSafeInteger) ∧ input = Writer.varIntNum n ++ rest := by
  refine ⟨fun n => ?_, fun n => ?_, fun n hSafe => ?_, fun n => ?_⟩
  · rw [eq_ok_iff_of_reads (fun _ => reads_readVarIntNumStrict) parses_readVarIntNumStrict]
    exact and_congr_right fun _ => by rw [Writer.varIntNum_eq]
  · rw [@eq_ok_iff_of_reads _ _ (· < 2 ^ 64) varIntNum]
    · exact and_congr_right fun hBound => by rw [Writer.varIntBn_eq hBound]
    · intro value hBound
      by_cases hSmall : value ≤ 0xffffffff
      · exact reads_readCompactSize_small hSmall
      · exact reads_readCompactSize_large (by omega) hBound (ListParser.reads_pure _)
    · exact parses_readCompactSize (fun n hSmall => ⟨show n < 2 ^ 64 by omega, rfl⟩)
        fun n _ hBound => ListParser.parses_pure ⟨hBound, List.append_nil _⟩
  · unfold maxSafeInteger at hSafe
    rw [Writer.varIntNum_eq, Writer.varIntBn_eq (by omega)]
  · exact eq_ok_iff_of_reads (fun _ => reads_readVarIntNumStrictSigned)
      parses_readVarIntNumStrictSigned _ _ _

end TsStack
