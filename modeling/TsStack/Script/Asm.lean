import Mathlib.Data.List.Nodup
import TsStack.Script.RoundTrip

/-
  The ASM text of `script/Script.ts`: `toASM` and `fromASM`.

  A chunk with data is printed by its data alone, so that an
  `OP_RETURN` with data does not come back.
-/

-- Opcode Names

open List

namespace TsStack

namespace OP

def namesFrom (start : Nat) (names : List String) : List (JsString × Nat) :=
  names.mapIdx fun i name => (name.toList, start + i)

/- `namedOP` by number; a second name of a number is last. -/
def namedOP : List (JsString × Nat) :=
  namesFrom 0x00 ["OP_0"] ++
  namesFrom 0x4c ["OP_PUSHDATA1", "OP_PUSHDATA2", "OP_PUSHDATA4", "OP_1NEGATE",
    "OP_RESERVED", "OP_1", "OP_2", "OP_3", "OP_4", "OP_5", "OP_6", "OP_7", "OP_8",
    "OP_9", "OP_10", "OP_11", "OP_12", "OP_13", "OP_14", "OP_15", "OP_16"] ++
  namesFrom 0x61 ["OP_NOP", "OP_VER", "OP_IF", "OP_NOTIF", "OP_VERIF",
    "OP_VERNOTIF", "OP_ELSE", "OP_ENDIF", "OP_VERIFY", "OP_RETURN"] ++
  namesFrom 0x6b ["OP_TOALTSTACK", "OP_FROMALTSTACK", "OP_2DROP", "OP_2DUP",
    "OP_3DUP", "OP_2OVER", "OP_2ROT", "OP_2SWAP", "OP_IFDUP", "OP_DEPTH", "OP_DROP",
    "OP_DUP", "OP_NIP", "OP_OVER", "OP_PICK", "OP_ROLL", "OP_ROT", "OP_SWAP", "OP_TUCK"] ++
  namesFrom 0x7e ["OP_CAT", "OP_SPLIT", "OP_NUM2BIN", "OP_BIN2NUM", "OP_SIZE"] ++
  namesFrom 0x83 ["OP_INVERT", "OP_AND", "OP_OR", "OP_XOR", "OP_EQUAL",
    "OP_EQUALVERIFY", "OP_RESERVED1", "OP_RESERVED2"] ++
  namesFrom 0x8b ["OP_1ADD", "OP_1SUB", "OP_2MUL", "OP_2DIV", "OP_NEGATE",
    "OP_ABS", "OP_NOT", "OP_0NOTEQUAL", "OP_ADD", "OP_SUB", "OP_MUL", "OP_DIV",
    "OP_MOD", "OP_LSHIFT", "OP_RSHIFT", "OP_BOOLAND", "OP_BOOLOR", "OP_NUMEQUAL",
    "OP_NUMEQUALVERIFY", "OP_NUMNOTEQUAL", "OP_LESSTHAN", "OP_GREATERTHAN",
    "OP_LESSTHANOREQUAL", "OP_GREATERTHANOREQUAL", "OP_MIN", "OP_MAX", "OP_WITHIN"] ++
  namesFrom 0xa6 ["OP_RIPEMD160", "OP_SHA1", "OP_SHA256", "OP_HASH160",
    "OP_HASH256", "OP_CODESEPARATOR", "OP_CHECKSIG", "OP_CHECKSIGVERIFY",
    "OP_CHECKMULTISIG", "OP_CHECKMULTISIGVERIFY"] ++
  namesFrom 0xb0 ["OP_NOP1", "OP_CHECKLOCKTIMEVERIFY", "OP_CHECKSEQUENCEVERIFY",
    "OP_SUBSTR", "OP_LEFT", "OP_RIGHT", "OP_LSHIFTNUM", "OP_RSHIFTNUM", "OP_NOP9", "OP_NOP10"] ++
  (List.range 63).map (fun i => ("OP_NOP".toList ++ Nat.toDigits 10 (11 + i), 0xba + i)) ++
  namesFrom 0xf9 ["OP_SMALLDATA", "OP_SMALLINTEGER", "OP_PUBKEYS", "OP_NOP77",
    "OP_PUBKEYHASH", "OP_PUBKEY", "OP_INVALIDOPCODE"] ++
  namesFrom 0x00 ["OP_FALSE"] ++ namesFrom 0x51 ["OP_TRUE"] ++
  namesFrom 0xb1 ["OP_NOP2", "OP_NOP3", "OP_NOP4", "OP_NOP5", "OP_NOP6", "OP_NOP7", "OP_NOP8"]

/- `OP[token]`. -/
def numberOf (token : JsString) : Option Nat :=
  namedOP.lookup token

/- `OP[op]`: the first name of a number. -/
def nameOf (op : Nat) : Option JsString :=
  (namedOP.find? (·.2 = op)).map (·.1)

/- A number of a name, to tell names apart by. -/
def nameCode (name : JsString) : Nat :=
  name.foldl (fun code c => 256 * code + c.toNat) 0

theorem numberOf_of_mem {entry : JsString × Nat} (hIn : entry ∈ namedOP) :
  numberOf entry.1 = some entry.2 := by
  have hCodes : ((namedOP.map (·.1)).map nameCode).Nodup := by decide +kernel
  have hNames : (namedOP.map (·.1)).Nodup := hCodes.of_map nameCode
  rcases append_of_mem hIn with ⟨before, after, hSplit⟩
  rw [hSplit, map_append, map_cons, nodup_append] at hNames
  refine lookup_eq_some_iff.mpr ⟨before, after, hSplit, fun other hOther => ?_⟩
  have hNe := hNames.2.2 other.1 (List.mem_map_of_mem hOther) entry.1 mem_cons_self
  simpa using hNe.symm

theorem nameOf_spec {op : Nat} {name : JsString} (hName : nameOf op = some name) :
  name.take 3 = "OP_".toList ∧ ' ' ∉ name ∧ numberOf name = some op := by
  have hAll : ∀ entry ∈ namedOP, entry.1.take 3 = "OP_".toList ∧ ' ' ∉ entry.1 := by decide +kernel
  rcases Option.map_eq_some_iff.mp hName with ⟨entry, hFind, rfl⟩
  have hIn := mem_of_find?_eq_some hFind
  have hOp : entry.2 = op := by simpa using find?_some hFind
  rw [← hOp]
  exact ⟨(hAll entry hIn).1, (hAll entry hIn).2, numberOf_of_mem hIn⟩

end OP

/- What `#_chunkToString` prints after the blank. -/
def asmToken (chunk : ScriptChunk) : JsString :=
  match chunk.data with
  | none => (OP.nameOf chunk.op).getD "undefined".toList
  | some data => toHex data

/- `#_chunkToString`. -/
def chunkToString (chunk : ScriptChunk) : JsString :=
  ' ' :: asmToken chunk

def Script.toASM (script : Script) : Except JsError JsString := do
  let texts ← script.chunks.mapM fun
    | none => .error (holeError "op")
    | some chunk => .ok (chunkToString chunk)
  return texts.flatten.drop 1

-- Parsing

def pushdataOpCodeNum (len : Nat) : Nat :=
  if len < OP.OP_PUSHDATA1 then len
  else if len < 2 ^ 8 then OP.OP_PUSHDATA1
  else if len < 2 ^ 16 then OP.OP_PUSHDATA2
  else OP.OP_PUSHDATA4

/-
  `#parseASMToken`: the chunk of a token and the number of
  tokens it takes, with the token two places on.
-/
def parseASMToken
  (token : JsString) (data : Option JsString) : Except JsError (ScriptChunk × Nat) :=
  if token = "0".toList then .ok ({ op := 0 }, 1)
  else if token = "-1".toList then .ok ({ op := OP.OP_1NEGATE }, 1)
  else
    match if token.take 3 = "OP_".toList then OP.numberOf token else none with
    | some opCodeNum =>
      if opCodeNum = OP.OP_PUSHDATA1 ∨ opCodeNum = OP.OP_PUSHDATA2 ∨
          opCodeNum = OP.OP_PUSHDATA4 then do
        let arr ← (data.map hexToUint8Array).getD (.ok [])
        return ({ op := opCodeNum, data := some arr }, 3)
      else .ok ({ op := opCodeNum }, 1)
    | none => do
        let hex := normalizeHexLength token
        let arr ← hexToUint8Array hex
        if toHex arr ≠ hex then .error (.error "invalid hex string in script")
        else return ({ op := pushdataOpCodeNum arr.length, data := some arr }, 1)

/- The loop of `fromASM`, past tokens that were taken. -/
def parseASMTokens :
  Nat → List JsString → Except JsError (List ScriptChunk)
| _, [] => .ok []
| taken + 1, _ :: tokens => parseASMTokens taken tokens
| 0, token :: tokens => do
    let parsed ← parseASMToken token tokens[1]?
    let chunks ← parseASMTokens (parsed.2 - 1) tokens
    return parsed.1 :: chunks

def Script.fromASM (asm : JsString) : Except JsError Script := do
  let chunks ← parseASMTokens 0 (asm.splitOn ' ')
  return .ofChunks chunks

-- Chunks That Come Back

/-
  A chunk of `writeOpCode` with a defined opcode that is no
  push with data, or of `writeBin` with data.
-/
inductive AsmChunk : ScriptChunk → Prop where
| opCode
    {op : Nat} (hName : (OP.nameOf op).isSome) (hPush : op = 0 ∨ OP.OP_PUSHDATA4 < op) :
    AsmChunk { op := op }
| bin
    {bin : Bytes} {chunk : ScriptChunk} (hBin : Script.binChunk bin = .ok chunk)
    (hData : 0 < bin.length) :
    AsmChunk chunk

theorem hexCharToValue_of_mem_toHex {bytes : Bytes} {c : Char} (hc : c ∈ toHex bytes) :
  hexCharToValue c ≠ none := by
  have hValue := List.mem_map_of_mem (f := hexCharToValue) hc
  rw [map_hexCharToValue_toHex] at hValue
  rcases mem_flatMap.mp hValue with ⟨byte, -, hByte⟩
  intro hNone
  simp [hNone, hexByteValues] at hByte

/- Printed data is parsed as the push of `#pushdataOpCodeNum`. -/
theorem parseASMToken_toHex (bytes : Bytes) (data : Option JsString) :
  parseASMToken (toHex bytes) data =
    .ok ({ op := pushdataOpCodeNum bytes.length, data := some bytes }, 1) := by
  have hLen := length_toHex bytes
  have hZero : toHex bytes ≠ "0".toList := by
    intro hEq
    rw [hEq] at hLen
    have hOdd : "0".toList.length = 1 := by decide
    omega
  have hDigits
      (c : Char)
      (hc : hexCharToValue c = none) :
      c ∉ toHex bytes :=
    fun hIn => hexCharToValue_of_mem_toHex hIn hc
  have hMinus : toHex bytes ≠ "-1".toList := by
    intro hEq
    have hNot := hDigits '-' (by decide)
    rw [hEq] at hNot
    exact hNot (by decide)
  have hName : (toHex bytes).take 3 ≠ "OP_".toList := by
    intro hEq
    apply hDigits 'O' (by decide)
    apply mem_of_mem_take (i := 3)
    rw [hEq]
    decide
  have hEven : normalizeHexLength (toHex bytes) = toHex bytes := if_pos (by omega)
  unfold parseASMToken
  rw [if_neg hZero, if_neg hMinus, if_neg hName]
  simp [hEven]

/- `writeBin` takes the opcode `#pushdataOpCodeNum` has. -/
theorem eq_of_binChunk {bin : Bytes} {chunk : ScriptChunk} (hBin : Script.binChunk bin = .ok chunk)
  (hData : 0 < bin.length) : chunk = { op := pushdataOpCodeNum bin.length, data := some bin } := by
  unfold Script.binChunk at hBin
  have hNotEmpty : bin.length ≠ 0 := by omega
  simp only [hData, hNotEmpty, if_true, if_false, true_and] at hBin
  unfold pushdataOpCodeNum
  split_ifs at hBin ⊢
  all_goals
    cases hBin
    rfl

theorem AsmChunk.parseASMToken_eq
  {chunk : ScriptChunk} (hChunk : AsmChunk chunk) (data : Option JsString) :
  ' ' ∉ asmToken chunk ∧ parseASMToken (asmToken chunk) data = .ok (chunk, 1) := by
  cases hChunk with
  | @opCode op hName hPush =>
    rcases Option.isSome_iff_exists.mp hName with ⟨name, hName⟩
    rcases OP.nameOf_spec hName with ⟨hTake, hBlank, hNum⟩
    have hToken : asmToken { op := op } = name := by simp [asmToken, hName]
    have hZero : name ≠ "0".toList := by
      rintro rfl
      exact absurd hTake (by decide)
    have hMinus : name ≠ "-1".toList := by
      rintro rfl
      exact absurd hTake (by decide)
    have hNoPush : ¬(op = OP.OP_PUSHDATA1 ∨ op = OP.OP_PUSHDATA2 ∨ op = OP.OP_PUSHDATA4) := by
      simp only [OP.OP_PUSHDATA1, OP.OP_PUSHDATA2, OP.OP_PUSHDATA4] at hPush ⊢
      omega
    rw [hToken]
    refine ⟨hBlank, ?_⟩
    unfold parseASMToken
    rw [if_neg hZero, if_neg hMinus, if_pos hTake, hNum]
    exact if_neg hNoPush
  | @bin bin chunk hBin hData =>
    rw [eq_of_binChunk hBin hData]
    exact ⟨fun hIn => hexCharToValue_of_mem_toHex hIn (by decide), parseASMToken_toHex bin data⟩

variable {chunks : List ScriptChunk}

theorem parseASMTokens_append
  (hChunks : ∀ chunk ∈ chunks, AsmChunk chunk) (tokens : List JsString) :
  parseASMTokens 0 (chunks.map asmToken ++ tokens) = do
    let rest ← parseASMTokens 0 tokens
    return chunks ++ rest := by
  induction chunks with
  | nil =>
    rw [map_nil, nil_append]
    cases parseASMTokens 0 tokens <;> rfl
  | cons chunk chunks ih =>
    have hHead := hChunks chunk mem_cons_self
    have hTail := ih fun c hc => hChunks c (mem_cons_of_mem chunk hc)
    rw [map_cons, cons_append, parseASMTokens, (hHead.parseASMToken_eq _).2]
    cases hRest : parseASMTokens 0 tokens with
    | error error => simp [hTail, hRest]
    | ok rest => simp [hTail, hRest]

theorem drop_flatMap_chunkToString (chunks : List ScriptChunk) :
  (chunks.flatMap chunkToString).drop 1 = [' '].intercalate (chunks.map asmToken) := by
  cases chunks with
  | nil => rfl
  | cons chunk chunks =>
    rw [flatMap_cons, chunkToString, cons_append, drop_one,
      tail_cons, map_cons]
    induction chunks generalizing chunk with
    | nil => simp
    | cons next chunks ih =>
      rw [flatMap_cons, chunkToString, cons_append, ih next,
        map_cons, intercalate_cons_cons]
      simp

theorem fromASM_toASM (hTokens : ∀ chunk ∈ chunks, ' ' ∉ asmToken chunk) (hChunks : chunks ≠ []) :
  (Script.ofChunks chunks).toASM >>= Script.fromASM = do
    let parsed ← parseASMTokens 0 (chunks.map asmToken)
    return .ofChunks parsed := by
  have hText : (Script.ofChunks chunks).toASM = .ok ([' '].intercalate (chunks.map asmToken)) := by
    have hMap : (Script.ofChunks chunks).chunks = chunks.map some := rfl
    have hTexts := @mapM_eq_ok _ _ _ (fun
      | none => .error (holeError "op")
      | some chunk => .ok (chunkToString chunk)) (fun chunk =>
        chunkToString (chunk.getD { op := 0 })) (chunks.map some)
      (by
        intro chunk hIn
        rcases List.mem_map.mp hIn with ⟨chunk, -, rfl⟩
        rfl)
    rw [← drop_flatMap_chunkToString, Script.toASM, hMap, hTexts, List.map_map]
    rfl
  rw [hText, ok_bind, Script.fromASM, splitOn_intercalate]
  · intro token hToken
    rcases List.mem_map.mp hToken with ⟨chunk, hChunk, rfl⟩
    exact hTokens chunk hChunk
  · simpa using hChunks

-- Round Trips

/- `OP_RETURN` with the data after it. -/
def returnChunk (data : Bytes) : ScriptChunk :=
  { op := OP.OP_RETURN, data := some data }

theorem toBinary_ofChunks (chunks : List ScriptChunk) :
  (Script.ofChunks chunks).toBinary = .ok (chunkListBytes chunks) := by
  have hBytes := serializeChunksToBytes_map_some chunks
  simp [Script.toBinary, Script.getSerializedBytes, Script.ofChunks, Script.ensureParsed, hBytes]

theorem pushdataOpCodeNum_le (len : Nat) : pushdataOpCodeNum len ≤ OP.OP_PUSHDATA4 := by
  unfold pushdataOpCodeNum
  simp only [OP.OP_PUSHDATA1, OP.OP_PUSHDATA2, OP.OP_PUSHDATA4]
  split_ifs <;> omega

/- Written chunks are serialized before those that follow. -/
theorem chunkListBytes_append
  (hChunks : ∀ chunk ∈ chunks, AsmChunk chunk) (rest : List ScriptChunk) :
  chunkListBytes (chunks ++ rest) = chunkListBytes chunks ++ chunkListBytes rest := by
  induction chunks with
  | nil => rfl
  | cons chunk chunks ih =>
    have hTail := ih fun c hc => hChunks c (mem_cons_of_mem chunk hc)
    cases hChunks chunk mem_cons_self with
    | opCode => simp [chunkListBytes, hTail]
    | @bin bin chunk hBin hData =>
      have hOp := pushdataOpCodeNum_le bin.length
      have hNoReturn : pushdataOpCodeNum bin.length ≠ OP.OP_RETURN := by
        simp only [OP.OP_PUSHDATA4, OP.OP_RETURN] at hOp ⊢
        omega
      rw [eq_of_binChunk hBin hData]
      simp [chunkListBytes, hTail, hNoReturn]

/-
  A script of written chunks comes back from its text exactly
  if there are any and no `OP_RETURN` with data is last.
-/
theorem Script.asm_round_trips_iff
  (body : List ScriptChunk) (tail : Option Bytes) (hBody : ∀ chunk ∈ body, AsmChunk chunk) :
  ((ofChunks (body ++ (tail.map returnChunk).toList)).toASM >>= fromASM >>= toBinary) =
      (ofChunks (body ++ (tail.map returnChunk).toList)).toBinary ↔
    body ≠ [] ∧ tail = none := by
  cases tail with
  | none =>
    rw [Option.map_none, Option.toList_none, List.append_nil, toBinary_ofChunks]
    by_cases hEmpty : body = []
    · subst hEmpty
      have hText : ((ofChunks []).toASM >>= fromASM >>= toBinary) = .ok [0] := rfl
      rw [hText]
      simp [chunkListBytes]
    · have hParse := parseASMTokens_append hBody []
      rw [List.append_nil] at hParse
      rw [fromASM_toASM (fun chunk hIn => ((hBody chunk hIn).parseASMToken_eq none).1)
        hEmpty, hParse]
      simp [parseASMTokens, toBinary_ofChunks, hEmpty]
  | some data =>
    have hTokens : ∀ chunk ∈ body ++ [returnChunk data], ' ' ∉ asmToken chunk := by
      intro chunk hIn
      rcases List.mem_append.mp hIn with hIn | hLast
      · exact ((hBody chunk hIn).parseASMToken_eq none).1
      · rw [List.mem_singleton.mp hLast]
        exact fun hBlank => hexCharToValue_of_mem_toHex hBlank (by decide)
    have hLast : asmToken (returnChunk data) = TsStack.toHex data := rfl
    rw [Option.map_some, Option.toList_some, fromASM_toASM hTokens (by simp),
      List.map_append, parseASMTokens_append hBody, toBinary_ofChunks,
      chunkListBytes_append hBody, List.map_singleton, hLast]
    simp only [parseASMTokens, parseASMToken_toHex, ok_bind, pure_eq_ok,
      toBinary_ofChunks, chunkListBytes_append hBody]
    -- the opcode of the push is not that of the return
    have hOp := pushdataOpCodeNum_le data.length
    constructor
    · intro hEq
      have hHead := (List.cons.inj (List.append_cancel_left (Except.ok.inj hEq))).1
      have hNat := congrArg UInt8.toNat hHead
      rw [UInt8.toNat_ofNat', UInt8.toNat_ofNat'] at hNat
      simp only [returnChunk, OP.OP_PUSHDATA4, OP.OP_RETURN] at hOp hNat
      omega
    · rintro ⟨-, hNone⟩
      cases hNone

theorem Script.asm_round_trips_iff_dropPush :
  ((ofChunks [{ op := OP.OP_DROP }, { op := 1, data := some [7] }]).toASM >>=
      fromASM >>= toBinary) =
    (ofChunks [{ op := OP.OP_DROP }, { op := 1, data := some [7] }]).toBinary := by
  refine (asm_round_trips_iff [{ op := OP.OP_DROP }, { op := 1, data := some [7] }]
    none ?_).mpr ⟨by simp, rfl⟩
  intro chunk hIn
  rcases List.mem_pair.mp hIn with rfl | rfl
  · exact .opCode (by decide +kernel) (by decide)
  · exact @AsmChunk.bin [7] _ rfl (by decide)

/- `OP_RETURN` with a byte comes back as a push of it. -/
theorem Script.not_asm_round_trips_return :
  ¬ ∀ (body : List ScriptChunk) (tail : Option Bytes),
    (∀ chunk ∈ body, AsmChunk chunk) → (∀ data ∈ tail, data ≠ []) →
      ((ofChunks (body ++ (tail.map returnChunk).toList)).toASM >>= fromASM >>= toBinary) =
        (ofChunks (body ++ (tail.map returnChunk).toList)).toBinary := by
  intro hAll
  have hText := hAll [] (some [1]) (by simp) (by simp)
  have hBytes : ((ofChunks [returnChunk [1]]).toASM >>= fromASM >>= toBinary) = .ok [1, 1] := rfl
  cases hBytes.symm.trans hText

end TsStack
