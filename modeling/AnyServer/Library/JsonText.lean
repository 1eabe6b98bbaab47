import Mathlib.Data.List.Basic

/-!
# JSON Texts

The syntax of JSON in bytes, as trees: a tree is a value as it is written, with its white space,
its escape sequences and the case of its digits. `Tree.text` is the text and `Tree.depth` how deep
values lie in one another. In two points the syntax is wider than the usual one: strings may hold
any bytes but control characters, the quotation mark and the backslash, well-formed UTF-8 or not,
and the integral part of a number may have leading zeros.

A character that is written in escape sequences stands for its UTF-8 encoding. The two halves of
a surrogate pair are one character.

## Main results

* `Number.text_head` / `Tree.text_head`: what texts start with.
* `Tree.one_le_depth`: a value is at least one deep.
-/

namespace JsonText

/-- The bytes of a literal. -/
def literal (s : String) : List UInt8 :=
  s.toList.map Char.toUInt8

/-! ### White space -/

/-- White space. -/
def IsWs (c : UInt8) : Prop :=
  c = ' '.toUInt8 ∨ c = '\t'.toUInt8 ∨ c = '\r'.toUInt8 ∨ c = '\n'.toUInt8

/-- White space. -/
abbrev Ws := { l : List UInt8 // ∀ c ∈ l, IsWs c }

/-- No white space. -/
def Ws.none : Ws :=
  ⟨[], nofun⟩

/-! ### Numbers -/

/-- A decimal digit. -/
abbrev Digit := Fin 10

/-- A digit as it is written. -/
def Digit.byte (d : Digit) : UInt8 :=
  ('0'.toNat + d).toUInt8

/-- One digit or more. -/
abbrev Digits := { ds : List Digit // ds ≠ [] }

/-- Digits as they are written. -/
def Digits.text (ds : Digits) : List UInt8 :=
  ds.1.map Digit.byte

/-- A number with one more digit behind it. -/
def appendDigit (n : ℕ) (d : Digit) : ℕ :=
  n * 10 + d

/-- The number that digits stand for. -/
def Digits.value (ds : Digits) : ℕ :=
  ds.1.foldl appendDigit 0

/-- An exponent, with its letter and its sign. -/
structure Exponent where
  upper : Bool
  sign : Option Bool
  digits : Digits

/-- A number. -/
structure Number where
  negative : Bool
  int : Digits
  frac : Option Digits
  exp : Option Exponent

/-- The sign of an exponent, if it is written. -/
def signText : Option Bool → List UInt8
  | none => []
  | some false => ['+'.toUInt8]
  | some true => ['-'.toUInt8]

/-- An exponent as it is written. -/
def Exponent.text (e : Exponent) : List UInt8 :=
  (if e.upper then 'E'.toUInt8 else 'e'.toUInt8) :: (signText e.sign ++ e.digits.text)

/-- The fractional part, with its point. -/
def fracText : Option Digits → List UInt8
  | none => []
  | some ds => '.'.toUInt8 :: ds.text

/-- The exponential part. -/
def expText : Option Exponent → List UInt8
  | none => []
  | some e => e.text

/-- A number as it is written. -/
def Number.text (n : Number) : List UInt8 :=
  (if n.negative then ['-'.toUInt8] else []) ++ (n.int.text ++ (fracText n.frac ++ expText n.exp))

/-! ### Strings -/

/-- A hexadecimal digit, in one case or the other. -/
structure HexDigit where
  value : Fin 16
  upper : Bool

/-- A remainder by sixteen is a hexadecimal digit. -/
theorem mod_sixteen_lt (n : ℕ) : n % 16 < 16 :=
  Nat.mod_lt n (Nat.succ_pos 15)

/-- The last digit of a number. -/
def HexDigit.ofNat (n : ℕ) (upper : Bool) : HexDigit :=
  ⟨⟨n % 16, mod_sixteen_lt n⟩, upper⟩

/-- A hexadecimal digit as it is written. -/
def HexDigit.byte (d : HexDigit) : UInt8 :=
  if d.value < 10 then ('0'.toNat + d.value).toUInt8
  else if d.upper then ('A'.toNat + (d.value - 10)).toUInt8
  else ('a'.toNat + (d.value - 10)).toUInt8

/-- The number of an escape sequence. -/
structure CodeUnit where
  a : HexDigit
  b : HexDigit
  c : HexDigit
  d : HexDigit

/-- The number that four hexadecimal digits stand for. -/
def CodeUnit.value (u : CodeUnit) : ℕ :=
  ((u.a.value * 16 + u.b.value) * 16 + u.c.value) * 16 + u.d.value

/-- The escape sequence of a code unit. -/
def CodeUnit.text (u : CodeUnit) : List UInt8 :=
  ['\\'.toUInt8, 'u'.toUInt8, u.a.byte, u.b.byte, u.c.byte, u.d.byte]

/-- The first half of a surrogate pair. -/
def CodeUnit.IsHigh (u : CodeUnit) : Prop :=
  0xD800 ≤ u.value ∧ u.value ≤ 0xDBFF

/-- The second half. -/
def CodeUnit.IsLow (u : CodeUnit) : Prop :=
  0xDC00 ≤ u.value ∧ u.value ≤ 0xDFFF

/-- The characters with a short escape sequence. -/
inductive Escape
  | quote
  | backslash
  | slash
  | b
  | f
  | n
  | r
  | t

/-- The letter behind the backslash. -/
def Escape.letter : Escape → UInt8
  | .quote => '"'.toUInt8
  | .backslash => '\\'.toUInt8
  | .slash => '/'.toUInt8
  | .b => 'b'.toUInt8
  | .f => 'f'.toUInt8
  | .n => 'n'.toUInt8
  | .r => 'r'.toUInt8
  | .t => 't'.toUInt8

/-- The character that it stands for. -/
def Escape.byte : Escape → UInt8
  | .quote => '"'.toUInt8
  | .backslash => '\\'.toUInt8
  | .slash => '/'.toUInt8
  | .b => 0x08
  | .f => 0x0C
  | .n => 0x0A
  | .r => 0x0D
  | .t => 0x09

/-- A byte that may stand in a string as it is. -/
def IsUnescaped (c : UInt8) : Prop :=
  0x20 ≤ c ∧ c ≠ '"'.toUInt8 ∧ c ≠ '\\'.toUInt8

/-- A character of a string. -/
inductive StringChar
  | unescaped (c : UInt8) (h : IsUnescaped c)
  | escaped (e : Escape)
  | unicode (u : CodeUnit) (h : ¬u.IsHigh ∧ ¬u.IsLow)
  | surrogates (high low : CodeUnit) (h : high.IsHigh ∧ low.IsLow)

/-- A character of a string as it is written. -/
def StringChar.text : StringChar → List UInt8
  | .unescaped c _ => [c]
  | .escaped e => ['\\'.toUInt8, e.letter]
  | .unicode u _ => u.text
  | .surrogates high low _ => high.text ++ low.text

/-- The code point of a surrogate pair. -/
def codePoint (high low : CodeUnit) : ℕ :=
  0x10000 + (high.value - 0xD800) * 0x400 + (low.value - 0xDC00)

/-- What a character stands for, in bytes. -/
def StringChar.bytes : StringChar → List UInt8
  | .unescaped c _ => [c]
  | .escaped e => [e.byte]
  | .unicode u _ => String.utf8EncodeChar (Char.ofNat u.value)
  | .surrogates high low _ => String.utf8EncodeChar (Char.ofNat (codePoint high low))

/-- The characters between the quotation marks. -/
def charsText (s : List StringChar) : List UInt8 :=
  s.flatMap StringChar.text

/-- The bytes that the characters of a string stand for. -/
def charsBytes (s : List StringChar) : List UInt8 :=
  s.flatMap StringChar.bytes

/-- A string as it is written, with its quotation marks. -/
def stringText (s : List StringChar) : List UInt8 :=
  '"'.toUInt8 :: (charsText s ++ ['"'.toUInt8])

/-! ### Values -/

/-- The name of a member, with the white space around it. -/
structure Name where
  before : Ws
  chars : List StringChar
  after : Ws

/-- The name of a member with its white space and its colon. -/
def Name.text (name : Name) : List UInt8 :=
  name.before.1 ++ (stringText name.chars ++ (name.after.1 ++ [':'.toUInt8]))

mutual

/-- A value as it is written. -/
inductive Tree
  | null
  | bool (b : Bool)
  | number (n : Number)
  | string (s : List StringChar)
  | emptyArray (ws : Ws)
  | array (elements : Elements)
  | emptyObject (ws : Ws)
  | object (members : Members)

/-- The elements of an array, with the white space around each. -/
inductive Elements
  | last (before : Ws) (t : Tree) (after : Ws)
  | more (before : Ws) (t : Tree) (after : Ws) (elements : Elements)

/-- The members of an object. -/
inductive Members
  | last (name : Name) (before : Ws) (t : Tree) (after : Ws)
  | more (name : Name) (before : Ws) (t : Tree) (after : Ws) (members : Members)

end

mutual

/-- A value as it is written. -/
def Tree.text : Tree → List UInt8
  | .null => literal "null"
  | .bool true => literal "true"
  | .bool false => literal "false"
  | .number n => n.text
  | .string s => stringText s
  | .emptyArray ws => '['.toUInt8 :: (ws.1 ++ [']'.toUInt8])
  | .array elements => '['.toUInt8 :: elements.text
  | .emptyObject ws => '{'.toUInt8 :: (ws.1 ++ ['}'.toUInt8])
  | .object members => '{'.toUInt8 :: members.text

/-- The elements up to the closing bracket. -/
def Elements.text : Elements → List UInt8
  | .last before t after => before.1 ++ (t.text ++ (after.1 ++ [']'.toUInt8]))
  | .more before t after elements =>
      before.1 ++ (t.text ++ (after.1 ++ ','.toUInt8 :: elements.text))

/-- The members up to the closing brace. -/
def Members.text : Members → List UInt8
  | .last name before t after =>
      name.text ++ (before.1 ++ (t.text ++ (after.1 ++ ['}'.toUInt8])))
  | .more name before t after members =>
      name.text ++ (before.1 ++ (t.text ++ (after.1 ++ ','.toUInt8 :: members.text)))

end

mutual

/-- How many values lie in one another. -/
def Tree.depth : Tree → ℕ
  | .null => 1
  | .bool _ => 1
  | .number _ => 1
  | .string _ => 1
  | .emptyArray _ => 1
  | .array elements => elements.depth + 1
  | .emptyObject _ => 1
  | .object members => members.depth + 1

/-- How deep the deepest of the elements is. -/
def Elements.depth : Elements → ℕ
  | .last _ t _ => t.depth
  | .more _ t _ elements => max t.depth elements.depth

/-- How deep the deepest of the members is. -/
def Members.depth : Members → ℕ
  | .last _ _ t _ => t.depth
  | .more _ _ t _ members => max t.depth members.depth

end

/-- Every value is at least one deep. -/
theorem Tree.one_le_depth (t : Tree) : 1 ≤ t.depth := by
  cases t <;> simp [Tree.depth]

/-! ### What texts start with -/

/-- A byte that a value may start with. -/
def StartsValue (c : UInt8) : Prop :=
  ¬IsWs c ∧ c ≠ '/'.toUInt8 ∧ c ≠ ']'.toUInt8

/-- A digit may begin a value. -/
theorem Digit.byte_startsValue (d : Digit) : StartsValue d.byte := by
  revert d
  unfold StartsValue IsWs
  decide

/-- There is at least one digit. -/
theorem Digits.text_cons (ds : Digits) : ∃ d l, ds.text = Digit.byte d :: l := by
  obtain ⟨_ | ⟨d, ds⟩, hne⟩ := ds
  · exact absurd rfl hne
  · exact ⟨d, ds.map Digit.byte, rfl⟩

/-- A number begins like a value. -/
theorem Number.text_head (n : Number) : ∃ c l, n.text = c :: l ∧ StartsValue c := by
  cases hneg : n.negative with
  | true => exact ⟨_, _, by rw [Number.text, if_pos hneg]; rfl, by unfold StartsValue IsWs; decide⟩
  | false =>
      obtain ⟨d, l, htext⟩ := n.int.text_cons
      refine ⟨d.byte, l ++ (fracText n.frac ++ expText n.exp), ?_, d.byte_startsValue⟩
      rw [Number.text, hneg, htext]
      rfl

/-- The text of a value starts with neither white space, nor a slash, nor a bracket that
closes. -/
theorem Tree.text_head (t : Tree) : ∃ c l, t.text = c :: l ∧ StartsValue c := by
  cases t with
  | null => exact ⟨_, _, rfl, by unfold StartsValue IsWs; decide⟩
  | bool b => cases b <;> exact ⟨_, _, rfl, by unfold StartsValue IsWs; decide⟩
  | number n => exact n.text_head
  | string s => exact ⟨_, _, rfl, by unfold StartsValue IsWs; decide⟩
  | emptyArray ws => exact ⟨_, _, rfl, by unfold StartsValue IsWs; decide⟩
  | array elements => exact ⟨_, _, rfl, by unfold StartsValue IsWs; decide⟩
  | emptyObject ws => exact ⟨_, _, rfl, by unfold StartsValue IsWs; decide⟩
  | object members => exact ⟨_, _, rfl, by unfold StartsValue IsWs; decide⟩

end JsonText
