import Mathlib.Data.List.Basic

/-!
# JSON documents and their text

Documents are what the grammar derives, with every lexical choice: a string is a list of
characters and escapes, a number the digits it is written with. The text of a document is
its UTF-8 encoding without insignificant whitespace. What a string stands for is a list of
UTF-16 code units.
-/

namespace Json

/-- A text as bytes. -/
def bytesOf (text : String) : List UInt8 := text.toList.flatMap String.utf8EncodeChar

/-- A text as UTF-16 code units. -/
def unitsOf (c : Char) : List Nat :=
  if c.toNat < 0x10000 then [c.toNat]
  else [0xD800 + (c.toNat - 0x10000) / 0x400, 0xDC00 + (c.toNat - 0x10000) % 0x400]

def valueOf (text : String) : List Nat := text.toList.flatMap unitsOf

def quote : UInt8 := 34

def backslash : UInt8 := 92

def colon : UInt8 := 58

/-- The escapes of two characters. -/
inductive Escape where
  | quote
  | backslash
  | slash
  | backspace
  | formFeed
  | lineFeed
  | carriageReturn
  | tab
  deriving DecidableEq, Repr

/-- The character after the backslash. -/
def Escape.letter : Escape → UInt8
  | .quote => 34
  | .backslash => 92
  | .slash => 47
  | .backspace => 98
  | .formFeed => 102
  | .lineFeed => 110
  | .carriageReturn => 114
  | .tab => 116

/-- The character that is meant. -/
def Escape.value : Escape → Nat
  | .quote => 34
  | .backslash => 92
  | .slash => 47
  | .backspace => 8
  | .formFeed => 12
  | .lineFeed => 10
  | .carriageReturn => 13
  | .tab => 9

structure HexDigit where
  value : Fin 16
  upper : Bool
  deriving DecidableEq, Repr

def HexDigit.byte (digit : HexDigit) : UInt8 :=
  if digit.value.val < 10 then UInt8.ofNat (48 + digit.value.val)
  else if digit.upper then UInt8.ofNat (55 + digit.value.val)
  else UInt8.ofNat (87 + digit.value.val)

/-- The characters that need no escape. -/
def Allowed (c : Char) : Prop := 32 ≤ c.toNat ∧ c.toNat ≠ 34 ∧ c.toNat ≠ 92

instance (c : Char) : Decidable (Allowed c) := inferInstanceAs (Decidable (_ ∧ _))

/-- What a string is made of. -/
inductive Item where
  | plain (c : Char) (allowed : Allowed c)
  | escaped (escape : Escape)
  | unicode (first second third fourth : HexDigit)
  deriving DecidableEq

def Item.bytes : Item → List UInt8
  | .plain c _ => String.utf8EncodeChar c
  | .escaped escape => [backslash, escape.letter]
  | .unicode first second third fourth =>
      [backslash, 117, first.byte, second.byte, third.byte, fourth.byte]

def Item.units : Item → List Nat
  | .plain c _ => unitsOf c
  | .escaped escape => [escape.value]
  | .unicode first second third fourth =>
      [((first.value.val * 16 + second.value.val) * 16 + third.value.val) * 16 +
        fourth.value.val]

abbrev Text := List Item

/-- A string as it is written between its quotes. -/
def Text.raw (text : Text) : List UInt8 := text.flatMap Item.bytes

/-- What a string stands for. -/
def Text.value (text : Text) : List Nat := text.flatMap Item.units

/-- One or more digits. -/
structure Digits where
  first : Fin 10
  rest : List (Fin 10)
  deriving DecidableEq, Repr

def digitByte (digit : Fin 10) : UInt8 := UInt8.ofNat (48 + digit.val)

def Digits.bytes (digits : Digits) : List UInt8 := (digits.first :: digits.rest).map digitByte

/-- The exponent of a number, with its letter and its sign. -/
structure Exponent where
  upper : Bool
  sign : Option Bool
  digits : Digits
  deriving DecidableEq, Repr

/-- The letter and the sign of an exponent. -/
def exponentMark (upper : Bool) : Option Bool → List UInt8
  | none => if upper then [69] else [101]
  | some negative => [if upper then 69 else 101, if negative then 45 else 43]

def Exponent.bytes (exponent : Exponent) : List UInt8 :=
  exponentMark exponent.upper exponent.sign ++ exponent.digits.bytes

/-- A number as it is written. Only a zero begins with one. -/
structure Number where
  negative : Bool
  integer : Digits
  fraction : Option Digits
  exponent : Option Exponent
  canonical : integer.first = 0 → integer.rest = []
  deriving DecidableEq, Repr

/-- What follows the integer part. -/
def Number.more (number : Number) : List UInt8 :=
  (match number.fraction with
    | none => ([] : List UInt8)
    | some digits => 46 :: digits.bytes) ++
  match number.exponent with
  | none => []
  | some exponent => exponent.bytes

def Number.bytes (number : Number) : List UInt8 :=
  if number.negative then 45 :: number.integer.bytes ++ number.more
  else number.integer.bytes ++ number.more

mutual

inductive Value where
  | null
  | bool (value : Bool)
  | number (number : Number)
  | string (text : Text)
  | array (elements : Elements)
  | object (members : Members)

inductive Elements where
  | nil
  | cons (head : Value) (tail : Elements)

inductive Members where
  | nil
  | cons (key : Text) (value : Value) (tail : Members)

end

/-- The comma before further elements. -/
def Elements.comma : Elements → List UInt8
  | .nil => []
  | .cons _ _ => [44]

def Members.comma : Members → List UInt8
  | .nil => []
  | .cons _ _ _ => [44]

/-- A string with its quotes. -/
def Text.quoted (text : Text) : List UInt8 := quote :: text.raw ++ [quote]

mutual

/-- The text of a document. -/
def Value.render : Value → List UInt8
  | .null => bytesOf "null"
  | .bool true => bytesOf "true"
  | .bool false => bytesOf "false"
  | .number number => number.bytes
  | .string text => text.quoted
  | .array elements => 91 :: elements.render ++ [93]
  | .object members => 123 :: members.render ++ [125]

def Elements.render : Elements → List UInt8
  | .nil => []
  | .cons head tail => head.render ++ tail.comma ++ tail.render

def Members.render : Members → List UInt8
  | .nil => []
  | .cons key value tail => key.quoted ++ colon :: value.render ++ tail.comma ++ tail.render

end

/-- The members of an object itself. -/
def Members.toList : Members → List (Text × Value)
  | .nil => []
  | .cons key value tail => (key, value) :: tail.toList

mutual

/-- The members of all objects in a document, in the order of the text. -/
def Value.members : Value → List (Text × Value)
  | .array elements => elements.members
  | .object members => members.members
  | _ => []

def Elements.members : Elements → List (Text × Value)
  | .nil => []
  | .cons head tail => head.members ++ tail.members

def Members.members : Members → List (Text × Value)
  | .nil => []
  | .cons key value tail => (key, value) :: value.members ++ tail.members

end

/-! ## Quotes in a text -/

/-- A quote inside of a string follows a backslash. -/
def Escaped (raw : List UInt8) : Prop :=
  ∀ before after, raw = before ++ quote :: after → ∃ start, before = start ++ [backslash]

theorem escaped_of_not_mem {raw : List UInt8} (absent : quote ∉ raw) : Escaped raw := by
  intro before after same
  rw [same] at absent
  exact absurd (List.mem_append_right before List.mem_cons_self) absent

theorem Escaped.append {left right : List UInt8} (first : Escaped left)
    (second : Escaped right) : Escaped (left ++ right) := by
  intro before after same
  rcases List.append_eq_append_iff.mp same with ⟨middle, rfl, split⟩ | ⟨middle, rfl, split⟩
  · rcases second middle after split with ⟨start, rfl⟩
    exact ⟨left ++ start, (List.append_assoc _ _ _).symm⟩
  · cases middle with
    | nil =>
        -- A string does not begin with a quote.
        rcases second [] after split.symm with ⟨start, nothing⟩
        exact absurd nothing (List.append_ne_nil_of_right_ne_nil start
          (List.cons_ne_nil _ _)).symm
    | cons byte middle =>
        rw [List.cons_append, List.cons.injEq] at split
        rw [← split.1] at first
        exact first before middle rfl

theorem toNat_ofNat_high {n : Nat} (low : 128 ≤ n) (below : n < 256) :
    128 ≤ (UInt8.ofNat n).toNat := by
  rw [UInt8.toNat_ofNat_of_lt' below]
  exact low

/-- A byte of a character is the character, or the character is not in ASCII. -/
theorem mem_utf8EncodeChar {c : Char} {byte : UInt8} (member : byte ∈ String.utf8EncodeChar c) :
    byte.toNat = c.toNat ∨ 128 ≤ byte.toNat := by
  have encoded : c.val.toNat = c.toNat := rfl
  rw [String.utf8EncodeChar] at member
  simp only [encoded] at member
  split at member
  next ascii =>
    rw [List.mem_singleton.mp member]
    left
    exact UInt8.toNat_ofNat_of_lt' (Nat.lt_of_le_of_lt ascii (by decide))
  next =>
    right
    split at member
    next =>
      simp only [List.mem_cons, List.not_mem_nil, or_false] at member
      rcases member with rfl | rfl <;> apply toNat_ofNat_high <;> omega
    next =>
      split at member
      next =>
        simp only [List.mem_cons, List.not_mem_nil, or_false] at member
        rcases member with rfl | rfl | rfl <;> apply toNat_ofNat_high <;> omega
      next =>
        simp only [List.mem_cons, List.not_mem_nil, or_false] at member
        rcases member with rfl | rfl | rfl | rfl <;> apply toNat_ofNat_high <;> omega

/-- A character that needs no escape has no bytes of one that does. -/
theorem quote_not_mem {c : Char} (allowed : Allowed c) : quote ∉ String.utf8EncodeChar c := by
  intro member
  rcases mem_utf8EncodeChar member with same | high
  · exact allowed.2.1 same.symm
  · exact absurd high (by decide)

theorem Escape.escaped_bytes (escape : Escape) : Escaped [Json.backslash, escape.letter] := by
  intro before after same
  match before, same with
  | [], same => exact absurd (List.cons.inj same).1 (by decide)
  | [first], same => exact ⟨[], congrArg ([·]) (List.cons.inj same).1.symm⟩
  | _ :: _ :: [], same => cases same
  | _ :: _ :: _ :: _, same => cases same

theorem HexDigit.ne_quote (digit : HexDigit) : quote ≠ digit.byte := by
  rcases digit with ⟨value, upper⟩
  revert value upper
  decide

/-- A quote in a string is that of an escape. -/
theorem Item.escaped_bytes (item : Item) : Escaped item.bytes := by
  cases item with
  | plain c allowed => exact escaped_of_not_mem (quote_not_mem allowed)
  | escaped escape => exact escape.escaped_bytes
  | unicode first second third fourth =>
      apply escaped_of_not_mem
      intro member
      simp only [Item.bytes, List.mem_cons, List.not_mem_nil, or_false] at member
      rcases member with same | same | same | same | same | same
      · contradiction
      · contradiction
      · exact first.ne_quote same
      · exact second.ne_quote same
      · exact third.ne_quote same
      · exact fourth.ne_quote same

theorem Text.escaped_raw (text : Text) : Escaped text.raw := by
  induction text with
  | nil => exact escaped_of_not_mem (List.not_mem_nil)
  | cons item text ih =>
      rw [Text.raw, List.flatMap_cons]
      exact item.escaped_bytes.append ih

/-! ## Texts without escapes -/

/-- A text that is written without escapes. -/
def Text.Plain (text : Text) : Prop :=
  ∀ item ∈ text, ∃ (c : Char) (allowed : Allowed c), item = .plain c allowed

theorem encode_ascii {c : Char} (ascii : c.toNat < 128) :
    String.utf8EncodeChar c = [UInt8.ofNat c.toNat] ∧ unitsOf c = [c.toNat] := by
  have value : c.val.toNat = c.toNat := rfl
  constructor
  · simp only [String.utf8EncodeChar, value]
    exact if_pos (Nat.le_of_lt_succ ascii)
  · exact if_pos (Nat.lt_trans ascii (by decide))

theorem unitsOf_ne_nil (c : Char) : unitsOf c ≠ [] := by
  rw [unitsOf]
  split
  next => exact List.cons_ne_nil _ _
  next => exact List.cons_ne_nil _ _

/-- The first byte of a character tells the characters in ASCII. -/
theorem byte_of_first {c n : Char} (ascii : n.toNat < 128) {bytes more : List UInt8} :
    String.utf8EncodeChar c ++ bytes = UInt8.ofNat n.toNat :: more ↔ c = n ∧ bytes = more := by
  have exact_ : (UInt8.ofNat n.toNat).toNat = n.toNat :=
    UInt8.toNat_ofNat_of_lt' (Nat.lt_trans ascii (by decide))
  by_cases low : c.toNat < 128
  · have byte_iff : UInt8.ofNat c.toNat = UInt8.ofNat n.toNat ↔ c = n := by
      rw [← UInt8.toNat_inj, exact_, UInt8.toNat_ofNat_of_lt' (Nat.lt_trans low (by decide)),
        Char.toNat_inj]
    rw [(encode_ascii low).1, List.singleton_append, List.cons.injEq, byte_iff]
  · apply iff_of_false
    · intro same
      have member : UInt8.ofNat n.toNat ∈ String.utf8EncodeChar c := by
        cases encoded : String.utf8EncodeChar c with
        | nil => exact absurd encoded String.utf8EncodeChar_ne_nil
        | cons first tail =>
            rw [encoded] at same
            rw [← (List.cons.inj same).1]
            exact List.mem_cons_self
      have value := mem_utf8EncodeChar member
      rw [exact_] at value
      omega
    · rintro ⟨rfl, _⟩
      exact low ascii

/-- The first unit of a character does so too. -/
theorem unit_of_first {c n : Char} (ascii : n.toNat < 128) {units rest : List Nat} :
    unitsOf c ++ units = n.toNat :: rest ↔ c = n ∧ units = rest := by
  by_cases low : c.toNat < 128
  · rw [(encode_ascii low).2, List.singleton_append, List.cons.injEq, Char.toNat_inj]
  · apply iff_of_false
    · intro same
      rw [unitsOf] at same
      split at same
      next => exact absurd (List.cons.inj same).1 (by omega)
      next => exact absurd (List.cons.inj same).1 (by omega)
    · rintro ⟨rfl, _⟩
      exact low ascii

/-- A text without escapes is written as what it stands for. -/
theorem raw_eq_iff {text : Text} (plain : text.Plain) {name : List Char}
    (ascii : ∀ c ∈ name, c.toNat < 128) :
    text.raw = name.flatMap String.utf8EncodeChar ↔ text.value = name.flatMap unitsOf := by
  induction text generalizing name with
  | nil =>
      cases name with
      | nil => exact iff_of_true rfl rfl
      | cons n name =>
          have first := encode_ascii (ascii n List.mem_cons_self)
          rw [List.flatMap_cons, List.flatMap_cons, first.1, first.2]
          exact iff_of_false nofun nofun
  | cons item text ih =>
      rcases plain item List.mem_cons_self with ⟨c, allowed, rfl⟩
      have rest : Text.Plain text := fun item member => plain item (List.mem_cons_of_mem _ member)
      rw [Text.raw, Text.value, List.flatMap_cons, List.flatMap_cons]
      cases name with
      | nil =>
          apply iff_of_false
          · exact List.append_ne_nil_of_left_ne_nil String.utf8EncodeChar_ne_nil _
          · exact List.append_ne_nil_of_left_ne_nil (unitsOf_ne_nil c) _
      | cons n name =>
          have low := ascii n List.mem_cons_self
          have first := encode_ascii low
          rw [List.flatMap_cons, List.flatMap_cons, first.1, first.2, List.singleton_append,
            List.singleton_append, Item.bytes, Item.units, byte_of_first low, unit_of_first low]
          apply and_congr_right
          intro _
          exact ih rest fun c member => ascii c (List.mem_cons_of_mem _ member)

theorem quote_not_mem_plain {text : Text} (plain : text.Plain) : quote ∉ text.raw := by
  intro member
  rcases List.mem_flatMap.mp member with ⟨item, inside, byte⟩
  rcases plain item inside with ⟨c, allowed, rfl⟩
  exact quote_not_mem allowed byte

/-! ## Numbers -/

/-- The bytes of a number. -/
def Numeric (byte : UInt8) : Prop :=
  byte = 45 ∨ byte = 43 ∨ byte = 46 ∨ byte = 69 ∨ byte = 101 ∨ 48 ≤ byte ∧ byte ≤ 57

instance (byte : UInt8) : Decidable (Numeric byte) := inferInstanceAs (Decidable (_ ∨ _))

theorem Digits.numeric (digits : Digits) : ∀ byte ∈ digits.bytes, Numeric byte := by
  intro byte member
  rcases List.mem_map.mp member with ⟨digit, _, rfl⟩
  have every : ∀ digit : Fin 10, Numeric (digitByte digit) := by decide
  exact every digit

theorem numeric_exponentMark (upper : Bool) (sign : Option Bool) :
    ∀ byte ∈ exponentMark upper sign, Numeric byte := by
  have every : (exponentMark upper sign).all (fun byte => decide (Numeric byte)) = true := by
    cases sign with
    | none => cases upper <;> decide
    | some negative => cases upper <;> cases negative <;> decide
  intro byte member
  exact of_decide_eq_true (List.all_eq_true.mp every byte member)

theorem Exponent.numeric (exponent : Exponent) : ∀ byte ∈ exponent.bytes, Numeric byte := by
  intro byte member
  rcases List.mem_append.mp member with mark | digit
  · exact numeric_exponentMark _ _ byte mark
  · exact exponent.digits.numeric byte digit

theorem Number.numeric_more (number : Number) : ∀ byte ∈ number.more, Numeric byte := by
  rcases number with ⟨negative, integer, fraction, exponent, canonical⟩
  rw [Number.more]
  intro byte member
  rcases List.mem_append.mp member with fractional | exponential
  · cases fraction with
    | none => contradiction
    | some digits =>
        rcases List.mem_cons.mp fractional with rfl | digit
        · decide
        · exact digits.numeric byte digit
  · cases exponent with
    | none => contradiction
    | some exponent => exact exponent.numeric byte exponential

theorem Number.numeric (number : Number) : ∀ byte ∈ number.bytes, Numeric byte := by
  intro byte member
  have parts : byte = 45 ∨ byte ∈ number.integer.bytes ++ number.more := by
    rw [Number.bytes] at member
    split at member
    next => exact List.mem_cons.mp member
    next => exact .inr member
  rcases parts with rfl | unsigned
  · decide
  · rcases List.mem_append.mp unsigned with digit | more
    · exact number.integer.numeric byte digit
    · exact number.numeric_more byte more

theorem Number.bytes_ne_nil (number : Number) : number.bytes ≠ [] := by
  rw [Number.bytes]
  split
  next => exact List.cons_ne_nil _ _
  next => exact List.append_ne_nil_of_left_ne_nil (List.cons_ne_nil _ _) _

end Json
