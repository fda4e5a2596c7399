import Mathlib.Init

/-
  Opcode numbers of `script/OP.ts`.

  Only the names the interpreter and the script codec use
  are listed.
-/

-- Push Values

namespace TsStack.OP

@[match_pattern] abbrev OP_0 : Nat := 0x00
@[match_pattern] abbrev OP_PUSHDATA1 : Nat := 0x4c
@[match_pattern] abbrev OP_PUSHDATA2 : Nat := 0x4d
@[match_pattern] abbrev OP_PUSHDATA4 : Nat := 0x4e
@[match_pattern] abbrev OP_1NEGATE : Nat := 0x4f
@[match_pattern] abbrev OP_1 : Nat := 0x51
@[match_pattern] abbrev OP_2 : Nat := 0x52
@[match_pattern] abbrev OP_3 : Nat := 0x53
@[match_pattern] abbrev OP_4 : Nat := 0x54
@[match_pattern] abbrev OP_5 : Nat := 0x55
@[match_pattern] abbrev OP_6 : Nat := 0x56
@[match_pattern] abbrev OP_7 : Nat := 0x57
@[match_pattern] abbrev OP_8 : Nat := 0x58
@[match_pattern] abbrev OP_9 : Nat := 0x59
@[match_pattern] abbrev OP_10 : Nat := 0x5a
@[match_pattern] abbrev OP_11 : Nat := 0x5b
@[match_pattern] abbrev OP_12 : Nat := 0x5c
@[match_pattern] abbrev OP_13 : Nat := 0x5d
@[match_pattern] abbrev OP_14 : Nat := 0x5e
@[match_pattern] abbrev OP_15 : Nat := 0x5f
@[match_pattern] abbrev OP_16 : Nat := 0x60

-- Control

@[match_pattern] abbrev OP_NOP : Nat := 0x61
@[match_pattern] abbrev OP_VER : Nat := 0x62
@[match_pattern] abbrev OP_IF : Nat := 0x63
@[match_pattern] abbrev OP_NOTIF : Nat := 0x64
@[match_pattern] abbrev OP_VERIF : Nat := 0x65
@[match_pattern] abbrev OP_VERNOTIF : Nat := 0x66
@[match_pattern] abbrev OP_ELSE : Nat := 0x67
@[match_pattern] abbrev OP_ENDIF : Nat := 0x68
@[match_pattern] abbrev OP_VERIFY : Nat := 0x69
@[match_pattern] abbrev OP_RETURN : Nat := 0x6a

-- Stack Operations

@[match_pattern] abbrev OP_TOALTSTACK : Nat := 0x6b
@[match_pattern] abbrev OP_FROMALTSTACK : Nat := 0x6c
@[match_pattern] abbrev OP_2DROP : Nat := 0x6d
@[match_pattern] abbrev OP_2DUP : Nat := 0x6e
@[match_pattern] abbrev OP_3DUP : Nat := 0x6f
@[match_pattern] abbrev OP_2OVER : Nat := 0x70
@[match_pattern] abbrev OP_2ROT : Nat := 0x71
@[match_pattern] abbrev OP_2SWAP : Nat := 0x72
@[match_pattern] abbrev OP_IFDUP : Nat := 0x73
@[match_pattern] abbrev OP_DEPTH : Nat := 0x74
@[match_pattern] abbrev OP_DROP : Nat := 0x75
@[match_pattern] abbrev OP_DUP : Nat := 0x76
@[match_pattern] abbrev OP_NIP : Nat := 0x77
@[match_pattern] abbrev OP_OVER : Nat := 0x78
@[match_pattern] abbrev OP_PICK : Nat := 0x79
@[match_pattern] abbrev OP_ROLL : Nat := 0x7a
@[match_pattern] abbrev OP_ROT : Nat := 0x7b
@[match_pattern] abbrev OP_SWAP : Nat := 0x7c
@[match_pattern] abbrev OP_TUCK : Nat := 0x7d

-- Data Manipulation

@[match_pattern] abbrev OP_CAT : Nat := 0x7e
@[match_pattern] abbrev OP_SPLIT : Nat := 0x7f
@[match_pattern] abbrev OP_NUM2BIN : Nat := 0x80
@[match_pattern] abbrev OP_BIN2NUM : Nat := 0x81
@[match_pattern] abbrev OP_SIZE : Nat := 0x82

-- Bit Logic

@[match_pattern] abbrev OP_INVERT : Nat := 0x83
@[match_pattern] abbrev OP_AND : Nat := 0x84
@[match_pattern] abbrev OP_OR : Nat := 0x85
@[match_pattern] abbrev OP_XOR : Nat := 0x86
@[match_pattern] abbrev OP_EQUAL : Nat := 0x87
@[match_pattern] abbrev OP_EQUALVERIFY : Nat := 0x88

-- Arithmetic

@[match_pattern] abbrev OP_1ADD : Nat := 0x8b
@[match_pattern] abbrev OP_1SUB : Nat := 0x8c
@[match_pattern] abbrev OP_2MUL : Nat := 0x8d
@[match_pattern] abbrev OP_2DIV : Nat := 0x8e
@[match_pattern] abbrev OP_NEGATE : Nat := 0x8f
@[match_pattern] abbrev OP_ABS : Nat := 0x90
@[match_pattern] abbrev OP_NOT : Nat := 0x91
@[match_pattern] abbrev OP_0NOTEQUAL : Nat := 0x92
@[match_pattern] abbrev OP_ADD : Nat := 0x93
@[match_pattern] abbrev OP_SUB : Nat := 0x94
@[match_pattern] abbrev OP_MUL : Nat := 0x95
@[match_pattern] abbrev OP_DIV : Nat := 0x96
@[match_pattern] abbrev OP_MOD : Nat := 0x97
@[match_pattern] abbrev OP_LSHIFT : Nat := 0x98
@[match_pattern] abbrev OP_RSHIFT : Nat := 0x99
@[match_pattern] abbrev OP_BOOLAND : Nat := 0x9a
@[match_pattern] abbrev OP_BOOLOR : Nat := 0x9b
@[match_pattern] abbrev OP_NUMEQUAL : Nat := 0x9c
@[match_pattern] abbrev OP_NUMEQUALVERIFY : Nat := 0x9d
@[match_pattern] abbrev OP_NUMNOTEQUAL : Nat := 0x9e
@[match_pattern] abbrev OP_LESSTHAN : Nat := 0x9f
@[match_pattern] abbrev OP_GREATERTHAN : Nat := 0xa0
@[match_pattern] abbrev OP_LESSTHANOREQUAL : Nat := 0xa1
@[match_pattern] abbrev OP_GREATERTHANOREQUAL : Nat := 0xa2
@[match_pattern] abbrev OP_MIN : Nat := 0xa3
@[match_pattern] abbrev OP_MAX : Nat := 0xa4
@[match_pattern] abbrev OP_WITHIN : Nat := 0xa5

-- Cryptography

@[match_pattern] abbrev OP_RIPEMD160 : Nat := 0xa6
@[match_pattern] abbrev OP_SHA1 : Nat := 0xa7
@[match_pattern] abbrev OP_SHA256 : Nat := 0xa8
@[match_pattern] abbrev OP_HASH160 : Nat := 0xa9
@[match_pattern] abbrev OP_HASH256 : Nat := 0xaa
@[match_pattern] abbrev OP_CODESEPARATOR : Nat := 0xab
@[match_pattern] abbrev OP_CHECKSIG : Nat := 0xac
@[match_pattern] abbrev OP_CHECKSIGVERIFY : Nat := 0xad
@[match_pattern] abbrev OP_CHECKMULTISIG : Nat := 0xae
@[match_pattern] abbrev OP_CHECKMULTISIGVERIFY : Nat := 0xaf

-- Expansion

@[match_pattern] abbrev OP_NOP1 : Nat := 0xb0
@[match_pattern] abbrev OP_CHECKLOCKTIMEVERIFY : Nat := 0xb1
@[match_pattern] abbrev OP_CHECKSEQUENCEVERIFY : Nat := 0xb2
@[match_pattern] abbrev OP_SUBSTR : Nat := 0xb3
@[match_pattern] abbrev OP_LEFT : Nat := 0xb4
@[match_pattern] abbrev OP_RIGHT : Nat := 0xb5
@[match_pattern] abbrev OP_LSHIFTNUM : Nat := 0xb6
@[match_pattern] abbrev OP_RSHIFTNUM : Nat := 0xb7
@[match_pattern] abbrev OP_NOP9 : Nat := 0xb8
@[match_pattern] abbrev OP_NOP10 : Nat := 0xb9

/- The opcodes whose names occur in error texts. -/
def names : List (Nat × String) :=
  [(OP_VER, "OP_VER"), (OP_VERIF, "OP_VERIF"), (OP_VERNOTIF, "OP_VERNOTIF"), (OP_PICK, "OP_PICK"),
    (OP_ROLL, "OP_ROLL"), (OP_AND, "OP_AND"), (OP_OR, "OP_OR"), (OP_XOR, "OP_XOR"),
    (OP_EQUAL, "OP_EQUAL"), (OP_EQUALVERIFY, "OP_EQUALVERIFY"), (OP_1ADD, "OP_1ADD"),
    (OP_1SUB, "OP_1SUB"), (OP_2MUL, "OP_2MUL"), (OP_2DIV, "OP_2DIV"), (OP_NEGATE, "OP_NEGATE"),
    (OP_ABS, "OP_ABS"), (OP_NOT, "OP_NOT"), (OP_0NOTEQUAL, "OP_0NOTEQUAL"), (OP_ADD, "OP_ADD"),
    (OP_SUB, "OP_SUB"), (OP_MUL, "OP_MUL"), (OP_DIV, "OP_DIV"), (OP_MOD, "OP_MOD"),
    (OP_LSHIFT, "OP_LSHIFT"), (OP_RSHIFT, "OP_RSHIFT"), (OP_BOOLAND, "OP_BOOLAND"),
    (OP_BOOLOR, "OP_BOOLOR"), (OP_NUMEQUAL, "OP_NUMEQUAL"),
    (OP_NUMEQUALVERIFY, "OP_NUMEQUALVERIFY"), (OP_NUMNOTEQUAL, "OP_NUMNOTEQUAL"),
    (OP_LESSTHAN, "OP_LESSTHAN"), (OP_GREATERTHAN, "OP_GREATERTHAN"),
    (OP_LESSTHANOREQUAL, "OP_LESSTHANOREQUAL"), (OP_GREATERTHANOREQUAL, "OP_GREATERTHANOREQUAL"),
    (OP_MIN, "OP_MIN"), (OP_MAX, "OP_MAX"), (OP_RIPEMD160, "OP_RIPEMD160"), (OP_SHA1, "OP_SHA1"),
    (OP_SHA256, "OP_SHA256"), (OP_HASH160, "OP_HASH160"), (OP_HASH256, "OP_HASH256"),
    (OP_CHECKSIG, "OP_CHECKSIG"), (OP_CHECKSIGVERIFY, "OP_CHECKSIGVERIFY"),
    (OP_CHECKMULTISIG, "OP_CHECKMULTISIG"), (OP_CHECKMULTISIGVERIFY, "OP_CHECKMULTISIGVERIFY"),
    (OP_NOP1, "OP_NOP1"), (OP_CHECKLOCKTIMEVERIFY, "OP_CHECKLOCKTIMEVERIFY"),
    (OP_CHECKSEQUENCEVERIFY, "OP_CHECKSEQUENCEVERIFY"), (OP_SUBSTR, "OP_SUBSTR"),
    (OP_LEFT, "OP_LEFT"), (OP_RIGHT, "OP_RIGHT"), (OP_LSHIFTNUM, "OP_LSHIFTNUM"),
    (OP_RSHIFTNUM, "OP_RSHIFTNUM"), (OP_NOP9, "OP_NOP9"), (OP_NOP10, "OP_NOP10")]

/- `OP[opcode]`. -/
def name (opcode : Nat) : String :=
  (names.lookup opcode).getD "undefined"

end TsStack.OP
