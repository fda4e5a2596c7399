import TsStack.Lib.UnicodeText
import Mathlib.Data.Nat.Digits.Lemmas

/-
  JSON values and their text, as JavaScript writes and reads
  it: texts are UTF-16 code units, and lone surrogates are
  escaped.

  Numbers are integers, written in full: numerals with a
  fraction or an exponent are not read.  An object keeps its
  members in the order of the text, and the last member of a
  key is the one found.
-/

-- Values

inductive Json where
| null
| bool (value : Bool)
| number (value : Int)
| string (text : List UInt16)
| array (items : List Json)
| object (members : List (List UInt16 × Json))

open List Option

namespace Json

/- The code units of a text of characters below 65536. -/
def text (chars : String) : List UInt16 :=
  chars.toList.map fun char => UInt16.ofNat char.toNat

def member (members : List (List UInt16 × Json)) (key : List UInt16) : Option Json :=
  (members.reverse.find? fun entry => entry.1 == key).map Prod.snd

-- Strings

def quote : UInt16 := 0x22

def backslash : UInt16 := 0x5c

/- A lower-case digit of base 16. -/
def hexDigit (value : Nat) : UInt16 :=
  UInt16.ofNat (if value < 10 then 48 + value else 87 + value)

def hexValue (unit : UInt16) : Option Nat :=
  if 48 ≤ unit.toNat ∧ unit.toNat ≤ 57 then some (unit.toNat - 48)
  else if 97 ≤ unit.toNat ∧ unit.toNat ≤ 102 then some (unit.toNat - 87)
  else if 65 ≤ unit.toNat ∧ unit.toNat ≤ 70 then some (unit.toNat - 55)
  else none

def unicodeEscape (unit : UInt16) : List UInt16 :=
  [backslash, 0x75, hexDigit (unit.toNat / 4096 % 16), hexDigit (unit.toNat / 256 % 16),
    hexDigit (unit.toNat / 16 % 16), hexDigit (unit.toNat % 16)]

def shortEscape (unit : UInt16) : Option UInt16 :=
  if unit = 0x22 then some 0x22
  else if unit = 0x5c then some 0x5c
  else if unit = 0x08 then some 0x62
  else if unit = 0x0c then some 0x66
  else if unit = 0x0a then some 0x6e
  else if unit = 0x0d then some 0x72
  else if unit = 0x09 then some 0x74
  else none

/- The code unit a short escape stands for. -/
def shortValue (letter : UInt16) : Option UInt16 :=
  if letter = 0x22 then some 0x22
  else if letter = 0x5c then some 0x5c
  else if letter = 0x2f then some 0x2f
  else if letter = 0x62 then some 0x08
  else if letter = 0x66 then some 0x0c
  else if letter = 0x6e then some 0x0a
  else if letter = 0x72 then some 0x0d
  else if letter = 0x74 then some 0x09
  else none

/- A code unit that is no part of a pair of surrogates. -/
def escapeUnit (unit : UInt16) : List UInt16 :=
  match shortEscape unit with
  | some letter => [backslash, letter]
  | none =>
    if unit.toNat < 0x20 ∨ UnicodeText.isHighSurrogate unit = true ∨
        UnicodeText.isLowSurrogate unit = true then
      unicodeEscape unit
    else [unit]

/- The text of a string between its quotes. -/
def escape : List UInt16 → List UInt16
| [] => []
| [unit] => escapeUnit unit
| unit :: next :: rest =>
  if UnicodeText.isHighSurrogate unit = true ∧ UnicodeText.isLowSurrogate next = true then
    unit :: next :: escape rest
  else escapeUnit unit ++ escape (next :: rest)

def readString :
  List UInt16 → Option (List UInt16 × List UInt16)
| [] => none
| unit :: rest =>
  if unit = quote then some ([], rest)
  else if unit = backslash then
    match rest with
    | 0x75 :: a :: b :: c :: d :: after => do
        let a ← hexValue a
        let b ← hexValue b
        let c ← hexValue c
        let d ← hexValue d
        let (tail, left) ← readString after
        return (UInt16.ofNat (a * 4096 + b * 256 + c * 16 + d) :: tail, left)
    | letter :: after => do
        let value ← shortValue letter
        let (tail, left) ← readString after
        return (value :: tail, left)
    | [] => none
  else if unit.toNat < 0x20 then none
  else do
    let (tail, left) ← readString rest
    return (unit :: tail, left)

theorem hexValue_hexDigit : ∀ value < 16, hexValue (hexDigit value) = some value := by
  decide

theorem readString_quote (rest : List UInt16) : readString (quote :: rest) = some ([], rest) := by
  rw [readString.eq_def]
  exact if_pos rfl

variable {unit : UInt16}

theorem readString_plain
  (hQuote : unit ≠ quote) (hBackslash : unit ≠ backslash) (hControl : ¬ unit.toNat < 0x20)
  (rest : List UInt16) :
  readString (unit :: rest) = (readString rest).map fun read => (unit :: read.1, read.2) := by
  rw [readString.eq_def]
  simp only
  rw [if_neg hQuote, if_neg hBackslash, if_neg hControl]
  cases readString rest with
  | none => rfl
  | some read => rfl

theorem readString_unicodeEscape (unit : UInt16) (rest : List UInt16) :
  readString (unicodeEscape unit ++ rest) = (readString rest).map fun read =>
      (unit :: read.1, read.2) := by
  have hDigit : ∀ value, hexValue (hexDigit (value % 16)) = some (value % 16) :=
    fun value => hexValue_hexDigit _ (Nat.mod_lt value (by decide))
  have hBound : unit.toNat < 65536 := unit.toNat_lt
  have hUnit :
      unit.toNat / 4096 % 16 * 4096 + unit.toNat / 256 % 16 * 256 + unit.toNat / 16 % 16 * 16 +
        unit.toNat % 16 = unit.toNat := by
    omega
  have hEscape : backslash ≠ quote := by decide
  simp only [unicodeEscape, cons_append, nil_append]
  rw [readString, if_neg hEscape, if_pos rfl]
  simp only [hDigit, bind_eq_bind, bind_some, hUnit, UInt16.ofNat_toNat]
  cases readString rest with
  | none => rfl
  | some read => rfl

theorem readString_shortEscape
  {letter : UInt16} (hLetter : shortEscape unit = some letter) (rest : List UInt16) :
  readString (backslash :: letter :: rest) = (readString rest).map fun read =>
      (unit :: read.1, read.2) := by
  have hEscape : backslash ≠ quote := by decide
  have hValue : shortValue letter = some unit ∧ letter ≠ 0x75 := by
    unfold shortEscape at hLetter
    split_ifs at hLetter
    all_goals
      cases hLetter
      subst unit
      decide
  rw [readString, if_neg hEscape, if_pos rfl]
  · rw [hValue.1]
    cases readString rest with
    | none => rfl
    | some read => rfl
  · intro a b c d after hEq
    exact fun _ => hValue.2 hEq

theorem shortEscape_eq_none (hNone : shortEscape unit = none) :
  unit ≠ quote ∧ unit ≠ backslash := by
  constructor
  · intro hEq
    rw [hEq] at hNone
    cases hNone
  · intro hEq
    rw [hEq] at hNone
    cases hNone

theorem readString_escapeUnit (unit : UInt16) (rest : List UInt16) :
  readString (escapeUnit unit ++ rest) = (readString rest).map fun read =>
      (unit :: read.1, read.2) := by
  unfold escapeUnit
  cases hShort : shortEscape unit with
  | some letter => exact readString_shortEscape hShort rest
  | none =>
    have hPlain := shortEscape_eq_none hShort
    simp only
    split
    · exact readString_unicodeEscape unit rest
    · rename_i hNot
      exact readString_plain hPlain.1 hPlain.2 (fun hControl => hNot (Or.inl hControl)) rest

theorem readString_surrogate (hSurrogate : 0xd800 ≤ unit.toNat) (rest : List UInt16) :
  readString (unit :: rest) = (readString rest).map fun read => (unit :: read.1, read.2) := by
  have hQuote : unit ≠ quote := by
    intro hEq
    rw [hEq] at hSurrogate
    exact absurd hSurrogate (by decide)
  have hBackslash : unit ≠ backslash := by
    intro hEq
    rw [hEq] at hSurrogate
    exact absurd hSurrogate (by decide)
  exact readString_plain hQuote hBackslash (by omega) rest

theorem readString_escape (string rest : List UInt16) :
  readString (escape string ++ quote :: rest) = some (string, rest) := by
  fun_induction escape string with
  | case1 => rw [nil_append, readString_quote]
  | case2 unit =>
    rw [readString_escapeUnit, readString_quote]
    rfl
  | case3 unit next tail hPair ih =>
    have hHigh : 0xd800 ≤ unit.toNat := by
      have hUnit := hPair.1
      simp only [UnicodeText.isHighSurrogate, Bool.and_eq_true, decide_eq_true_eq] at hUnit
      exact hUnit.1
    have hLow : 0xd800 ≤ next.toNat := by
      have hNext := hPair.2
      simp only [UnicodeText.isLowSurrogate, Bool.and_eq_true, decide_eq_true_eq] at hNext
      omega
    rw [cons_append, cons_append, readString_surrogate hHigh,
      readString_surrogate hLow, ih]
    rfl
  | case4 unit next tail hPair ih =>
    rw [append_assoc, readString_escapeUnit, ih]
    rfl

-- Numbers

def isDigit (unit : UInt16) : Bool :=
  48 ≤ unit.toNat && unit.toNat ≤ 57

def naturalText (value : Nat) : List UInt16 :=
  if value = 0 then [48]
  else (Nat.digits 10 value).reverse.map fun digit => UInt16.ofNat (48 + digit)

def numeral (value : Int) : List UInt16 :=
  if value < 0 then 0x2d :: naturalText value.natAbs
  else naturalText value.natAbs

/- No numeral goes on in such a text. -/
def endsNumeral : List UInt16 → Bool
| [] => true
| unit :: _ => !isDigit unit && unit != 0x2e && unit != 0x45 && unit != 0x65

def readNatural (text : List UInt16) : Option (Nat × List UInt16) :=
  let digits := text.takeWhile isDigit
  let rest := text.dropWhile isDigit
  if digits = [] ∨ (digits.head? = some 48 ∧ digits.length ≠ 1) ∨ endsNumeral rest = false then none
  else some (Nat.ofDigits 10 (digits.reverse.map fun unit => unit.toNat - 48), rest)

def readNumber :
  List UInt16 → Option (Int × List UInt16)
| 0x2d :: text => (readNatural text).map fun read => (-(read.1 : Int), read.2)
| text => (readNatural text).map fun read => ((read.1 : Int), read.2)

theorem toNat_digit {digit : Nat} (hDigit : digit < 10) :
  (UInt16.ofNat (48 + digit)).toNat = 48 + digit := by
  rw [UInt16.toNat_ofNat']
  exact Nat.mod_eq_of_lt (by omega)

theorem isDigit_digit {digit : Nat} (hDigit : digit < 10) :
  isDigit (UInt16.ofNat (48 + digit)) = true := by
  unfold isDigit
  rw [toNat_digit hDigit]
  simp only [Bool.and_eq_true, decide_eq_true_eq]
  omega

theorem isDigit_of_mem_naturalText {value : Nat} (hUnit : unit ∈ naturalText value) :
  isDigit unit = true := by
  unfold naturalText at hUnit
  split at hUnit
  · rw [mem_singleton.mp hUnit]
    decide
  · rcases List.mem_map.mp hUnit with ⟨digit, hDigit, rfl⟩
    exact isDigit_digit (Nat.digits_lt_base (by decide) (mem_reverse.mp hDigit))

variable (value : Nat)

theorem naturalText_ne_nil : naturalText value ≠ [] := by
  unfold naturalText
  split
  · exact cons_ne_nil _ _
  · rename_i hValue
    intro hNil
    have hDigits := reverse_eq_nil_iff.mp (map_eq_nil_iff.mp hNil)
    exact hValue (Nat.digits_eq_nil_iff_eq_zero.mp hDigits)

theorem head?_naturalText {value : Nat} (hValue : value ≠ 0) :
  (naturalText value).head? ≠ some 48 := by
  have hDigits : Nat.digits 10 value ≠ [] :=
    fun hNil => hValue (Nat.digits_eq_nil_iff_eq_zero.mp hNil)
  have hLast := Nat.getLast_digit_ne_zero 10 hValue
  have hBound : (Nat.digits 10 value).getLast hDigits < 10 :=
    Nat.digits_lt_base (by decide) (getLast_mem hDigits)
  unfold naturalText
  rw [if_neg hValue, head?_map, head?_reverse, getLast?_eq_some_getLast hDigits]
  intro hEq
  have hUnit := congrArg UInt16.toNat (Option.some.inj hEq)
  rw [toNat_digit hBound] at hUnit
  have hZero : (Nat.digits 10 value).getLast hDigits = 0 := by
    have hEight : (48 : UInt16).toNat = 48 := rfl
    omega
  exact hLast hZero

theorem ofDigits_naturalText :
  Nat.ofDigits 10 ((naturalText value).reverse.map fun unit => unit.toNat - 48) =
    value := by
  unfold naturalText
  split
  · rename_i hValue
    rw [hValue]
    rfl
  · rw [← map_reverse, reverse_reverse, List.map_map]
    have hSame : (Nat.digits 10 value).map ((fun unit => unit.toNat - 48) ∘
              fun digit => UInt16.ofNat (48 + digit)) =
          Nat.digits 10 value := by
      have hEach : ∀ digit ∈ Nat.digits 10 value, ((fun unit => unit.toNat - 48) ∘
            fun digit => UInt16.ofNat (48 + digit)) digit =
          id digit := by
        intro digit hDigit
        have hBound : digit < 10 := Nat.digits_lt_base (by decide) hDigit
        change (UInt16.ofNat (48 + digit)).toNat - 48 = digit
        rw [toNat_digit hBound]
        omega
      rw [map_congr_left hEach, List.map_id]
    rw [hSame]
    exact Nat.ofDigits_digits 10 value

variable {rest : List UInt16}

theorem readNatural_naturalText (hRest : endsNumeral rest = true) :
  readNatural (naturalText value ++ rest) = some (value, rest) := by
  have hAll : ∀ unit ∈ naturalText value, isDigit unit = true :=
    fun _ hUnit => isDigit_of_mem_naturalText hUnit
  have hStop : rest.takeWhile isDigit = [] := by
    cases rest with
    | nil => rfl
    | cons unit tail =>
      simp only [endsNumeral, Bool.and_eq_true, Bool.not_eq_true'] at hRest
      rw [takeWhile_cons, hRest.1.1.1]
      rfl
  have hKeep : rest.dropWhile isDigit = rest := by
    have hSplit := @takeWhile_append_dropWhile _ isDigit rest
    rw [hStop] at hSplit
    exact hSplit
  unfold readNatural
  rw [takeWhile_append_of_pos hAll, hStop, append_nil, dropWhile_append_of_pos hAll,
    hKeep]
  simp only
  rw [if_neg, ofDigits_naturalText]
  rintro (hNil | hZero | hEnds)
  · exact naturalText_ne_nil value hNil
  · by_cases hValue : value = 0
    · rw [hValue] at hZero
      exact hZero.2 rfl
    · exact head?_naturalText hValue hZero.1
  · rw [hRest] at hEnds
    cases hEnds

theorem readNumber_numeral (value : Int) (hRest : endsNumeral rest = true) :
  readNumber (numeral value ++ rest) = some (value, rest) := by
  unfold numeral
  by_cases hNegative : value < 0
  · rw [if_pos hNegative, cons_append, readNumber, readNatural_naturalText value.natAbs hRest]
    have hValue : -(value.natAbs : Int) = value := by omega
    rw [map_some, hValue]
  · have hValue : (value.natAbs : Int) = value := by omega
    have hDigit : ∀ unit ∈ (naturalText value.natAbs).head?, isDigit unit = true :=
      fun unit hUnit => isDigit_of_mem_naturalText (mem_of_head? hUnit)
    rw [if_neg hNegative]
    cases hText : naturalText value.natAbs with
    | nil => exact absurd hText (naturalText_ne_nil _)
    | cons unit tail =>
      have hHead : unit ≠ 0x2d := by
        intro hEq
        rw [hText] at hDigit
        have hUnit := hDigit unit rfl
        rw [hEq] at hUnit
        exact absurd hUnit (by decide)
      have hRead := readNatural_naturalText value.natAbs hRest
      rw [hText] at hRead
      rw [cons_append] at hRead ⊢
      rw [readNumber, hRead, map_some, hValue]
      exact fun tail hEq => hHead (List.cons.inj hEq).1

-- Writing and Reading

def stringText (string : List UInt16) : List UInt16 :=
  quote :: (escape string ++ [quote])

mutual

def stringify : Json → List UInt16
| null => text "null"
| bool true => text "true"
| bool false => text "false"
| number value => numeral value
| string value => stringText value
| array [] => text "[]"
| array (item :: items) => 0x5b :: (stringify item ++ itemsText items)
| object [] => [0x7b, 0x7d]
| object ((key, value) :: members) =>
  0x7b :: (stringText key ++ 0x3a :: stringify value ++ membersText members)

def itemsText : List Json → List UInt16
| [] => [0x5d]
| item :: items => 0x2c :: (stringify item ++ itemsText items)

def membersText :
  List (List UInt16 × Json) → List UInt16
| [] => [0x7d]
| (key, value) :: members =>
  0x2c :: (stringText key ++ 0x3a :: stringify value ++ membersText members)

end

def isSpace (unit : UInt16) : Bool :=
  unit == 0x20 || unit == 0x09 || unit == 0x0a || unit == 0x0d

def skipSpaces (text : List UInt16) : List UInt16 :=
  text.dropWhile isSpace

def readLiteral (literal : List UInt16) (value : Json) (text : List UInt16) :
  Option (Json × List UInt16) :=
  if literal.isPrefixOf text then some (value, text.drop literal.length)
  else none

mutual

def readValue :
  Nat → List UInt16 → Option (Json × List UInt16)
| 0, _ => none
| fuel + 1, input =>
  match skipSpaces input with
  | [] => none
  | 0x22 :: rest => (readString rest).map fun read => (string read.1, read.2)
  | 0x5b :: rest =>
    match skipSpaces rest with
    | 0x5d :: after => some (array [], after)
    | _ => (readItems fuel rest).map fun read => (array read.1, read.2)
  | 0x7b :: rest =>
    match skipSpaces rest with
    | 0x7d :: after => some (object [], after)
    | _ => (readMembers fuel rest).map fun read => (object read.1, read.2)
  | 0x6e :: rest => readLiteral (text "null") null (0x6e :: rest)
  | 0x74 :: rest => readLiteral (text "true") (bool true) (0x74 :: rest)
  | 0x66 :: rest => readLiteral (text "false") (bool false) (0x66 :: rest)
  | numeral => (readNumber numeral).map fun read => (number read.1, read.2)

def readItems :
  Nat → List UInt16 → Option (List Json × List UInt16)
| 0, _ => none
| fuel + 1, input => do
    let (item, rest) ← readValue fuel input
    match skipSpaces rest with
    | 0x2c :: after =>
      let (items, left) ← readItems fuel after
      return (item :: items, left)
    | 0x5d :: after => return ([item], after)
    | _ => none

def readMembers :
  Nat → List UInt16 → Option (List (List UInt16 × Json) × List UInt16)
| 0, _ => none
| fuel + 1, input =>
  match skipSpaces input with
  | 0x22 :: start => do
      let (key, rest) ← readString start
      match skipSpaces rest with
      | 0x3a :: after =>
        let (value, rest) ← readValue fuel after
        match skipSpaces rest with
        | 0x2c :: after =>
          let (members, left) ← readMembers fuel after
          return ((key, value) :: members, left)
        | 0x7d :: after => return ([(key, value)], after)
        | _ => none
      | _ => none
  | _ => none

end

def parse (input : List UInt16) : Option Json :=
  match readValue (2 * input.length + 2) input with
  | some (value, rest) => if skipSpaces rest = [] then some value else none
  | none => none

-- Values Return from Their Text

def beginsValue (unit : UInt16) : Bool :=
  !isSpace unit && unit != 0x5d && unit != 0x7d

def beginsNumeral (unit : UInt16) : Bool :=
  unit == 0x2d || isDigit unit

theorem numeral_begins (value : Int) :
  ∃ unit tail, numeral value = unit :: tail ∧ beginsNumeral unit = true := by
  unfold numeral
  by_cases hNegative : value < 0
  · rw [if_pos hNegative]
    exact ⟨_, _, rfl, rfl⟩
  · rw [if_neg hNegative]
    cases hText : naturalText value.natAbs with
    | nil => exact absurd hText (naturalText_ne_nil _)
    | cons unit tail =>
      have hDigit : isDigit unit = true := by
        apply isDigit_of_mem_naturalText
        rw [hText]
        exact mem_cons_self
      refine ⟨unit, tail, rfl, ?_⟩
      unfold beginsNumeral
      rw [hDigit, Bool.or_true]

theorem ne_of_beginsNumeral
  {other : UInt16} (hUnit : beginsNumeral unit = true) (hOther : beginsNumeral other = false) :
  unit ≠ other := by
  intro hEq
  rw [hEq, hOther] at hUnit
  cases hUnit

theorem beginsValue_of_beginsNumeral (hUnit : beginsNumeral unit = true) :
  beginsValue unit = true := by
  have hNe : ∀ other, beginsNumeral other = false → (unit == other) = false :=
    fun other hOther => beq_eq_false_iff_ne.mpr (ne_of_beginsNumeral hUnit hOther)
  unfold beginsValue isSpace bne
  rw [hNe 0x20 rfl, hNe 0x09 rfl, hNe 0x0a rfl, hNe 0x0d rfl, hNe 0x5d rfl, hNe 0x7d rfl]
  rfl

theorem stringify_begins (value : Json) :
  ∃ unit tail, stringify value = unit :: tail ∧ beginsValue unit = true := by
  cases value with
  | null => exact ⟨_, _, rfl, by decide⟩
  | bool flag =>
    cases flag with
    | false => exact ⟨_, _, rfl, by decide⟩
    | true => exact ⟨_, _, rfl, by decide⟩
  | number value =>
    rcases numeral_begins value with ⟨unit, tail, hEq, hUnit⟩
    rw [stringify]
    exact ⟨unit, tail, hEq, beginsValue_of_beginsNumeral hUnit⟩
  | string value =>
    rw [stringify]
    exact ⟨_, _, rfl, by decide⟩
  | array items =>
    cases items with
    | nil => exact ⟨_, _, rfl, by decide⟩
    | cons item items =>
      rw [stringify]
      exact ⟨_, _, rfl, by decide⟩
  | object members =>
    cases members with
    | nil => exact ⟨_, _, rfl, by decide⟩
    | cons entry members =>
      rcases entry with ⟨key, value⟩
      rw [stringify]
      exact ⟨_, _, rfl, by decide⟩

theorem skipSpaces_cons (hUnit : isSpace unit = false) (rest : List UInt16) :
  skipSpaces (unit :: rest) = unit :: rest := by
  unfold skipSpaces
  rw [dropWhile_cons, hUnit]
  rfl

theorem isSpace_of_beginsValue (hUnit : beginsValue unit = true) : isSpace unit = false := by
  simp only [beginsValue, Bool.and_eq_true, Bool.not_eq_true'] at hUnit
  exact hUnit.1.1

theorem endsNumeral_itemsText (items : List Json) (rest : List UInt16) :
  endsNumeral (itemsText items ++ rest) = true := by
  cases items with
  | nil => rw [itemsText]; rfl
  | cons item items => rw [itemsText]; rfl

theorem endsNumeral_membersText (members : List (List UInt16 × Json)) (rest : List UInt16) :
  endsNumeral (membersText members ++ rest) = true := by
  cases members with
  | nil => rw [membersText]; rfl
  | cons entry members =>
    rcases entry with ⟨key, value⟩
    rw [membersText]
    rfl

structure ReadsBack (fuel : Nat) : Prop where
  value : ∀ value rest, 2 * (stringify value).length + 1 ≤ fuel →
    endsNumeral rest = true → readValue fuel (stringify value ++ rest) = some (value, rest)
  items : ∀ item items rest, 2 * (stringify item ++ itemsText items).length + 2 ≤ fuel →
      readItems fuel (stringify item ++ itemsText items ++ rest) = some (item :: items, rest)
  members : ∀ key value members rest, 2 * (stringText key ++ 0x3a :: stringify value ++
        membersText members).length + 2 ≤ fuel →
      readMembers fuel (stringText key ++ 0x3a :: stringify value ++ membersText members ++ rest) =
        some ((key, value) :: members, rest)

theorem readValue_number (fuel : Nat) (value : Int) (hRest : endsNumeral rest = true) :
  readValue (fuel + 1) (numeral value ++ rest) = some (number value, rest) := by
  have hRead := readNumber_numeral value hRest
  rcases numeral_begins value with ⟨unit, tail, hEq, hUnit⟩
  have hSpace := isSpace_of_beginsValue (beginsValue_of_beginsNumeral hUnit)
  rw [hEq, cons_append] at hRead ⊢
  rw [readValue, skipSpaces_cons hSpace]
  split
  case h_1 hNil => cases hNil
  case h_8 =>
    rw [hRead]
    rfl
  all_goals
    rename_i hCons
    rw [(List.cons.inj hCons).1] at hUnit
    exact absurd hUnit (by decide)

theorem readString_stringText (string rest : List UInt16) :
  readString (escape string ++ [quote] ++ rest) = some (string, rest) := by
  rw [append_assoc]
  exact readString_escape string rest

variable {fuel : Nat}

section

variable (hReads : ReadsBack fuel)

include hReads

theorem readItems_step (item : Json) (items : List Json) (rest : List UInt16)
  (hFuel : 2 * (stringify item ++ itemsText items).length + 2 ≤ fuel + 1) :
  readItems (fuel + 1) (stringify item ++ itemsText items ++ rest) =
    some (item :: items, rest) := by
  rw [length_append] at hFuel
  rw [append_assoc, readItems, hReads.value item _ (by omega)
    (endsNumeral_itemsText items rest)]
  simp only [bind_eq_bind, bind_some]
  cases items with
  | nil =>
    rw [itemsText]
    rfl
  | cons next items =>
    rw [itemsText, length_cons] at hFuel
    rw [itemsText, cons_append, skipSpaces_cons (by decide)]
    simp only
    rw [hReads.items next items rest (by omega)]
    rfl

theorem readMembers_step (key : List UInt16) (value : Json)
  (members : List (List UInt16 × Json)) (rest : List UInt16)
  (hFuel : 2 * (stringText key ++ 0x3a :: stringify value ++
        membersText members).length + 2 ≤ fuel + 1) :
  readMembers (fuel + 1) (stringText key ++ 0x3a :: stringify value ++
        membersText members ++ rest) =
    some ((key, value) :: members, rest) := by
  have hText : stringText key ++ 0x3a :: stringify value ++ membersText members ++ rest =
        quote :: (escape key ++ [quote] ++ 0x3a :: (stringify value ++
          (membersText members ++ rest))) := by
    unfold stringText
    simp only [append_assoc, cons_append, nil_append]
  simp only [length_append, length_cons] at hFuel
  rw [hText, readMembers, skipSpaces_cons (by decide)]
  unfold quote
  simp only
  rw [← quote, readString_stringText]
  simp only [bind_eq_bind, bind_some]
  rw [skipSpaces_cons (by decide)]
  simp only
  rw [hReads.value value _ (by omega) (endsNumeral_membersText members rest)]
  simp only [bind_some]
  cases members with
  | nil =>
    rw [membersText]
    rfl
  | cons entry members =>
    rcases entry with ⟨next, other⟩
    rw [membersText, length_cons] at hFuel
    rw [membersText, cons_append, skipSpaces_cons (by decide)]
    simp only
    rw [hReads.members next other members rest (by omega)]
    rfl

theorem readValue_array (items : List Json) (rest : List UInt16)
  (hFuel : 2 * (stringify (array items)).length ≤ fuel) :
  readValue (fuel + 1) (stringify (array items) ++ rest) = some (array items, rest) := by
  cases items with
  | nil =>
    rw [stringify, readValue]
    rfl
  | cons item items =>
    rcases stringify_begins item with ⟨unit, tail, hEq, hUnit⟩
    rw [stringify, length_cons] at hFuel
    have hRead := hReads.items item items rest (by omega)
    have hClose : unit ≠ 0x5d := by
      intro hEq
      rw [hEq] at hUnit
      cases hUnit
    rw [hEq] at hRead
    simp only [cons_append] at hRead
    rw [stringify, cons_append, readValue, skipSpaces_cons (by decide), hEq]
    simp only [cons_append]
    rw [skipSpaces_cons (isSpace_of_beginsValue hUnit)]
    split
    · rename_i hCons
      exact absurd (List.cons.inj hCons).1 hClose
    · rw [hRead]
      rfl

theorem readValue_object (members : List (List UInt16 × Json)) (rest : List UInt16)
  (hFuel : 2 * (stringify (object members)).length ≤ fuel) :
  readValue (fuel + 1) (stringify (object members) ++ rest) = some (object members, rest) := by
  cases members with
  | nil =>
    rw [stringify, readValue]
    rfl
  | cons entry members =>
    rcases entry with ⟨key, value⟩
    rw [stringify, length_cons] at hFuel
    have hRead := hReads.members key value members rest (by omega)
    rw [stringify, cons_append, readValue, skipSpaces_cons (by decide)]
    unfold stringText at hRead ⊢
    simp only [cons_append, append_assoc] at hRead ⊢
    rw [skipSpaces_cons (by decide)]
    unfold quote at hRead ⊢
    rw [hRead]
    rfl

theorem readValue_step (value : Json) (rest : List UInt16)
  (hFuel : 2 * (stringify value).length + 1 ≤ fuel + 1) (hRest : endsNumeral rest = true) :
  readValue (fuel + 1) (stringify value ++ rest) = some (value, rest) := by
  cases value with
  | null => rw [stringify, readValue]; rfl
  | bool flag =>
    cases flag with
    | false => rw [stringify, readValue]; rfl
    | true => rw [stringify, readValue]; rfl
  | number value =>
    rw [stringify]
    exact readValue_number fuel value hRest
  | string value =>
    have hRead := readString_stringText value rest
    rw [stringify, stringText, cons_append, readValue, skipSpaces_cons (by decide)]
    unfold quote at hRead ⊢
    simp only
    rw [hRead]
    rfl
  | array items => exact readValue_array hReads items rest (by omega)
  | object members => exact readValue_object hReads members rest (by omega)

end

theorem readsBack (fuel : Nat) : ReadsBack fuel := by
  induction fuel with
  | zero =>
    constructor
    case value =>
      intro value rest hFuel
      omega
    case items =>
      intro item items rest hFuel
      omega
    case members =>
      intro key value members rest hFuel
      omega
  | succ fuel ih =>
    constructor
    case value => exact readValue_step ih
    case items => exact readItems_step ih
    case members => exact readMembers_step ih

theorem parse_stringify (value : Json) : parse (stringify value) = some value := by
  have hRead := (readsBack (2 * (stringify value).length + 2)).value value [] (by omega) rfl
  rw [append_nil] at hRead
  unfold parse
  rw [hRead]
  exact if_pos rfl

end Json
