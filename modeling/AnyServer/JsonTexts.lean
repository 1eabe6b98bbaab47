import Mathlib.Data.Fintype.Basic
import Mathlib.Data.List.DropRight
import Mathlib.Tactic.FinCases
import AnyServer.Library.JsonText
import AnyServer.JsonTokens

/-!
# The Tokens of a JSON Text

What the scanner makes of a JSON text. It finds the tokens of a text as the grammar does: it takes
all of a number, and a string with all its escape sequences up to its closing quotation mark. A
string decodes to the UTF-8 encoding of its characters, and the check
against overflow in `decodeNumber` is exact, so that a number is an integer wherever it fits.

## Main results

* `codePointToUTF8_eq`: `codePointToUTF8` is the UTF-8 encoding.
* `readToken_number` / `readToken_string`: a number or a string is one token.
* `decodeString_text`: a string decodes to its characters.
* `decodeNumber_text`: a number decodes to its integer, or as a `double`.
-/

namespace AnyServer.Json

open JsonText

/-! ### UTF-8 -/

/-- A tag above some bits of a number. -/
theorem tag_or_and (a k x : ℕ) : 2 ^ k * a ||| ((2 ^ k - 1) &&& x) = x % 2 ^ k + 2 ^ k * a := by
  rw [Nat.and_comm, Nat.and_two_pow_sub_one_eq_mod,
    ← Nat.two_pow_add_eq_or_of_lt (Nat.mod_lt x (Nat.two_pow_pos k)), Nat.add_comm]

/-- **`codePointToUTF8` is the UTF-8 encoding.** -/
theorem codePointToUTF8_eq (c : Char) : codePointToUTF8 c.toNat = String.utf8EncodeChar c := by
  have hmax : c.toNat ≤ 0x10FFFF := by
    have := c.valid
    rcases this with h | h <;> (simp only [Char.toNat]; omega)
  have htail (x : ℕ) : 0x80 ||| (0x3f &&& x) = x % 0x40 + 0x80 := tag_or_and 2 6 x
  have hlead₂ (x : ℕ) : 0xC0 ||| (0x1f &&& x) = x % 0x20 + 0xC0 := tag_or_and 6 5 x
  have hlead₃ (x : ℕ) : 0xE0 ||| (0xf &&& x) = x % 0x10 + 0xE0 := tag_or_and 14 4 x
  have hlead₄ (x : ℕ) : 0xF0 ||| (0x7 &&& x) = x % 0x08 + 0xF0 := tag_or_and 30 3 x
  simp only [codePointToUTF8, String.utf8EncodeChar, htail, hlead₂, hlead₃, hlead₄,
    Nat.shiftRight_eq_div_pow, if_pos hmax]
  rfl

/-! ### White space and the tokens of one character -/

section

variable {l rest : Bytes} {c : UInt8}

/-- The reader's white space is that of the grammar. -/
theorem isSpace_iff : isSpace c = true ↔ IsWs c := by
  simp [isSpace, IsWs]

/-- `skipSpaces` skips all of it. -/
theorem skipSpaces_ws (ws : Ws) (l : Bytes) : skipSpaces (ws.1 ++ l) = skipSpaces l :=
  List.dropWhile_append_of_pos fun c hc => isSpace_iff.mpr (ws.2 c hc)

/-- It stops at anything else. -/
theorem skipSpaces_cons (h : ¬IsWs c) : skipSpaces (c :: l) = c :: l :=
  List.dropWhile_cons_of_neg fun hc => h (isSpace_iff.mp hc)

/-- There is nothing left to skip the second time. -/
theorem skipSpaces_skipSpaces (l : Bytes) : skipSpaces (skipSpaces l) = skipSpaces l :=
  List.dropWhile_idempotent isSpace l

/-- What a token is depends on what is behind the spaces. -/
theorem readToken_congr {l l' : Bytes} (h : skipSpaces l = skipSpaces l') :
    readToken l = readToken l' := by
  rw [readToken, h, readToken]

/-- A token is the same with white space before it. -/
theorem readToken_ws (ws : Ws) (l : Bytes) : readToken (ws.1 ++ l) = readToken l :=
  readToken_congr (skipSpaces_ws ws l)

/-- The literal null is one token. -/
theorem readToken_null :
    readToken (literal "null" ++ l) = ⟨.tokenNull, literal "null" ++ l, l⟩ := rfl

/-- The literal true is one token. -/
theorem readToken_true :
    readToken (literal "true" ++ l) = ⟨.tokenTrue, literal "true" ++ l, l⟩ := rfl

/-- The literal false is one token. -/
theorem readToken_false :
    readToken (literal "false" ++ l) = ⟨.tokenFalse, literal "false" ++ l, l⟩ := rfl

/-- An opening bracket is one token. -/
theorem readToken_arrayBegin :
    readToken (byte '[' :: l) = ⟨.tokenArrayBegin, byte '[' :: l, l⟩ := rfl

/-- An opening brace is one token. -/
theorem readToken_objectBegin :
    readToken (byte '{' :: l) = ⟨.tokenObjectBegin, byte '{' :: l, l⟩ := rfl

/-- The next token that is no comment depends only on what follows the white space. -/
theorem skipCommentTokens_congr {l l' : Bytes} (h : skipSpaces l = skipSpaces l') :
    skipCommentTokens l = skipCommentTokens l' := by
  have hstep : (readTokenWhile (· = .tokenComment) rfl).step l =
      (readTokenWhile (· = .tokenComment) rfl).step l' := by
    simp only [readTokenWhile, readToken_congr h]
  rw [skipCommentTokens, Loop.exec_eq, hstep, ← Loop.exec_eq, skipCommentTokens]

/-- It is the same with white space before it. -/
theorem skipCommentTokens_ws (ws : Ws) (l : Bytes) :
    skipCommentTokens (ws.1 ++ l) = skipCommentTokens l :=
  skipCommentTokens_congr (skipSpaces_ws ws l)

/-- The text of a token is what lies between its ends. -/
theorem Token.text_append {type_ : TokenType} {text : Bytes} :
    (⟨type_, text ++ rest, rest⟩ : Token).text = text := by
  simp [Token.text]

/-! ### Numbers -/

/-- What may follow a number without being taken for a part of it. -/
def NumberEnds (rest : Bytes) : Prop :=
  ∀ c ∈ rest.head?, isDigit c = false ∧ c ≠ byte '.' ∧ c ≠ byte 'e' ∧ c ≠ byte 'E'

/-- A number ends at a byte that cannot go on with it. -/
theorem numberEnds_cons (h : isDigit c = false ∧ c ≠ byte '.' ∧ c ≠ byte 'e' ∧ c ≠ byte 'E') :
    NumberEnds (c :: rest) := by
  rintro c' hc'
  obtain rfl := Option.some.inj hc'
  exact h

/-- It ends at white space, when it ends at what follows. -/
theorem numberEnds_ws {ws : Ws} (h : NumberEnds rest) : NumberEnds (ws.1 ++ rest) := by
  obtain ⟨_ | ⟨c, ws⟩, hws⟩ := ws
  · exact h
  · have hc : IsWs c := hws c List.mem_cons_self
    refine numberEnds_cons ?_
    rcases hc with rfl | rfl | rfl | rfl <;> decide

/-- A digit of the grammar is one for the reader. -/
theorem isDigit_byte (d : Digit) : isDigit d.byte = true := by
  revert d
  decide

/-- Its value is its distance from zero. -/
theorem toNat_byte (d : Digit) : d.byte.toNat - '0'.toNat = d := by
  revert d
  decide

/-- A digit is no sign. -/
theorem byte_ne_sign (d : Digit) : ¬(d.byte = byte '+' ∨ d.byte = byte '-') := by
  revert d
  decide

/-- A run of digits is skipped up to what is not a digit. -/
theorem dropWhile_digits {ds : List Digit} (h : ∀ c ∈ rest.head?, isDigit c = false) :
    (ds.map Digit.byte ++ rest).dropWhile isDigit = rest := by
  rw [List.dropWhile_append_of_pos fun c hc => ?_]
  · cases rest with
    | nil => rfl
    | cons c rest => exact List.dropWhile_cons_of_neg (by simp [h c rfl])
  · obtain ⟨d, -, rfl⟩ := List.mem_map.mp hc
    exact isDigit_byte d

/-- `readExponent` reads the whole exponent. -/
theorem readExponent_text (exp : Option Exponent) (h : NumberEnds rest) :
    readExponent (expText exp ++ rest) = rest := by
  have hdigit : ∀ c ∈ rest.head?, isDigit c = false := fun c hc => (h c hc).1
  cases exp with
  | none =>
      cases rest with
      | nil => rfl
      | cons c rest =>
          obtain ⟨-, -, he, hE⟩ := h c rfl
          rw [expText, List.nil_append, readExponent.eq_def]
          exact if_neg (by tauto)
  | some e =>
      obtain ⟨upper, sign, digits⟩ := e
      have hletter : (if upper then 'E'.toUInt8 else 'e'.toUInt8) = byte 'e' ∨
          (if upper then 'E'.toUInt8 else 'e'.toUInt8) = byte 'E' := by
        cases upper <;> simp
      rw [expText, Exponent.text, List.cons_append, readExponent.eq_def]
      simp only [if_pos hletter]
      cases sign with
      | none =>
          obtain ⟨d, ds, htext⟩ := digits.text_cons
          have hdigits : (digits.text ++ rest).dropWhile isDigit = rest := dropWhile_digits hdigit
          rw [htext, List.cons_append] at hdigits
          simp only [signText, htext, List.nil_append, List.cons_append]
          rw [if_neg (byte_ne_sign d), hdigits]
      | some sign =>
          cases sign <;> exact dropWhile_digits hdigit

/-- An exponent, or what follows the number, begins with neither a digit nor a point. -/
theorem head?_expText (exp : Option Exponent) (h : NumberEnds rest) :
    ∀ c ∈ (expText exp ++ rest).head?, isDigit c = false ∧ c ≠ byte '.' := by
  cases exp with
  | none => exact fun c hc => ⟨(h c hc).1, (h c hc).2.1⟩
  | some e =>
      rintro c hc
      obtain rfl := Option.some.inj hc
      cases e.upper <;> decide

/-- A fraction does not begin with a digit. -/
theorem head?_fracText {frac : Option Digits} (h : ∀ c ∈ l.head?, isDigit c = false) :
    ∀ c ∈ (fracText frac ++ l).head?, isDigit c = false := by
  cases frac with
  | none => exact h
  | some ds =>
      rintro c hc
      obtain rfl := Option.some.inj hc
      decide

/-- `readFraction` reads the whole fraction and the exponent behind it. -/
theorem readFraction_text {frac : Option Digits} {exp : Option Exponent} (h : NumberEnds rest) :
    readFraction (fracText frac ++ (expText exp ++ rest)) = rest := by
  have hhead := head?_expText exp h
  have hexp := readExponent_text exp h
  cases frac with
  | none =>
      rw [fracText, List.nil_append]
      revert hhead hexp
      cases expText exp ++ rest with
      | nil => exact fun _ => id
      | cons c l =>
          intro hhead hexp
          rw [readFraction, if_neg (hhead c rfl).2, hexp]
  | some ds =>
      rw [fracText, List.cons_append, readFraction, if_pos rfl, Digits.text,
        dropWhile_digits fun c hc => (hhead c hc).1, hexp]

/-- `readNumber` on digits and what follows them. -/
theorem readNumber_text (ds : List Digit) (frac : Option Digits) (exp : Option Exponent)
    (h : NumberEnds rest) :
    readNumber (ds.map Digit.byte ++ (fracText frac ++ (expText exp ++ rest))) = rest := by
  rw [readNumber, dropWhile_digits (head?_fracText fun c hc => (head?_expText exp h c hc).1),
    readFraction_text h]

/-- A token that begins with a digit is a number. -/
theorem readToken_digit (d : Digit) (l : Bytes) :
    readToken (d.byte :: l) = ⟨.tokenNumber, d.byte :: l, readNumber l⟩ := by
  fin_cases d <;> rfl

/-- **A number is one token.** -/
theorem readToken_number (n : Number) (h : NumberEnds rest) :
    readToken (n.text ++ rest) = ⟨.tokenNumber, n.text ++ rest, rest⟩ := by
  obtain ⟨negative, ⟨_ | ⟨d, ds⟩, hne⟩, frac, exp⟩ := n
  · exact absurd rfl hne
  · cases negative with
    | true =>
        have hread := readNumber_text (d :: ds) frac exp h
        simp only [Number.text, Digits.text, if_true, List.cons_append, List.append_assoc]
        exact congrArg (Token.mk _ _) hread
    | false =>
        have hread := readNumber_text ds frac exp h
        simp only [Number.text, Digits.text, List.map_cons, Bool.false_eq_true, if_false,
          List.nil_append, List.cons_append, List.append_assoc, readToken_digit]
        exact congrArg (Token.mk _ _) hread

/-! ### The value of a number -/

/-- Appending digits does not make a number smaller. -/
theorem le_foldl_digits (ds : List Digit) (n : ℕ) :
    n ≤ ds.foldl appendDigit n := by
  induction ds generalizing n with
  | nil => exact le_rfl
  | cons d ds ih => exact (by rw [appendDigit]; omega : n ≤ appendDigit n d).trans (ih _)

/-- What is not a digit ends the integer. -/
theorem decodeDigits_eq_none {max value : ℕ} (h : ∃ c ∈ l, isDigit c = false) :
    decodeDigits max l value = none := by
  induction l generalizing value with
  | nil => obtain ⟨c, hc, -⟩ := h; cases hc
  | cons c l ih =>
      obtain ⟨c', hc', hdigit⟩ := h
      rw [decodeDigits]
      split
      · next hc =>
        rcases List.mem_cons.mp hc' with rfl | hmem
        · rw [hc] at hdigit; cases hdigit
        · dsimp only
          split
          · rfl
          · exact ih ⟨c', hmem, hdigit⟩
      · rfl

/-- **The check against overflow is exact**: digits decode to the number that they stand for if
it is not above the largest one, and to none if it is. -/
theorem decodeDigits_text {max : ℕ} (hmax : 10 ≤ max) (ds : List Digit) {value : ℕ}
    (hvalue : value ≤ max) : decodeDigits max (ds.map Digit.byte) value =
      if ds.foldl appendDigit value ≤ max
      then some (ds.foldl appendDigit value) else none := by
  induction ds generalizing value with
  | nil => exact (if_pos hvalue).symm
  | cons d ds ih =>
      have hd : (d : ℕ) ≤ 9 := by omega
      have hle : value * 10 + d ≤ ds.foldl appendDigit (appendDigit value d) :=
        le_foldl_digits ds _
      rw [List.map_cons, decodeDigits, if_pos (isDigit_byte d), toNat_byte, List.foldl_cons]
      dsimp only
      split
      · next hover =>
        obtain ⟨hthreshold, hover⟩ := hover
        refine (if_neg ?_).symm
        cases ds with
        | nil =>
            rcases hover with hlt | hne | hlast
            · rw [List.foldl_nil] at hle ⊢; omega
            · exact absurd rfl hne
            · rw [List.foldl_nil] at hle ⊢; omega
        | cons d' ds =>
            have hle' : (value * 10 + d) * 10 + d' ≤
                (d' :: ds).foldl appendDigit (appendDigit value d) :=
              le_foldl_digits ds _
            omega
      · next hfits => exact ih (by omega)

/-- What a number stands for: an integer if it is written as one and fits, and else what it is
as a `double`. -/
def numberValue (extractDouble : Bytes → Option Real) (n : Number) : Option Value :=
  if n.frac.isSome ∨ n.exp.isSome then (extractDouble n.text).map .real
  else if n.negative then
    if n.int.value ≤ maxLargestInt + 1 then some (.int (-n.int.value))
    else (extractDouble n.text).map .real
  else if n.int.value ≤ maxInt then some (.int n.int.value)
  else if n.int.value ≤ maxLargestUInt then some (.uint n.int.value)
  else (extractDouble n.text).map .real

/-- `decodeDouble` gives what `extractDouble` converts. -/
theorem decodeDouble_toOption {extractDouble : Bytes → Option Real} {text : Bytes} :
    (decodeDouble extractDouble text).toOption = (extractDouble text).map .real := by
  rw [decodeDouble]
  cases extractDouble text <;> rfl

/-- A digit is not a sign. -/
theorem head?_ne_minus {ds : Digits} : (ds.text ++ l).head? ≠ some (byte '-') := by
  obtain ⟨d, ds', htext⟩ := ds.text_cons
  rw [htext]
  exact fun h => byte_ne_sign d (.inr (Option.some.inj h))

/-- A fraction or an exponent is not digits. -/
theorem exists_not_isDigit {frac : Option Digits} {exp : Option Exponent}
    (h : frac.isSome ∨ exp.isSome) {l : Bytes} :
    ∃ c ∈ l ++ (fracText frac ++ expText exp), isDigit c = false := by
  cases frac with
  | some ds => exact ⟨byte '.', by simp [fracText], rfl⟩
  | none =>
      cases exp with
      | none => simp at h
      | some e =>
          refine ⟨if e.upper then 'E'.toUInt8 else 'e'.toUInt8, by simp [expText, Exponent.text],
            ?_⟩
          cases e.upper <;> rfl

/-- The digits of a number behind its sign. -/
theorem decodeDigits_number {max : ℕ} (hmax : 10 ≤ max) (n : Number) :
    decodeDigits max (n.int.text ++ (fracText n.frac ++ expText n.exp)) 0 =
      if n.frac.isSome ∨ n.exp.isSome then none
      else if n.int.value ≤ max then some n.int.value else none := by
  split
  · next h => exact decodeDigits_eq_none (exists_not_isDigit h)
  · next h =>
    obtain ⟨hfrac, hexp⟩ : n.frac = none ∧ n.exp = none := by simpa [not_or] using h
    rw [hfrac, hexp]
    rw [fracText, expText, List.append_nil, List.append_nil]
    exact decodeDigits_text hmax n.int.1 (Nat.zero_le max)

/-- **A number decodes to what it stands for.** -/
theorem decodeNumber_text (extractDouble : Bytes → Option Real) (n : Number) :
    (decodeNumber extractDouble n.text).toOption = numberValue extractDouble n := by
  have hdigits (max : ℕ) (hmax : 10 ≤ max) := decodeDigits_number hmax n
  rw [decodeNumber, numberValue]
  cases hneg : n.negative with
  | true =>
      have htext : n.text = byte '-' :: (n.int.text ++ (fracText n.frac ++ expText n.exp)) := by
        rw [Number.text, hneg]
        rfl
      simp only [htext, List.head?_cons, List.tail_cons, decide_true, if_true,
        hdigits (maxLargestInt + 1) (by decide)]
      by_cases hint : n.frac.isSome ∨ n.exp.isSome
      · simp only [if_pos hint, decodeDouble_toOption]
      · by_cases hle : n.int.value ≤ maxLargestInt + 1
        · simp only [if_neg hint, if_pos hle]
          split
          · next heq => rw [heq.2]; rfl
          · rfl
        · simp only [if_neg hint, if_neg hle, decodeDouble_toOption]
  | false =>
      have htext : n.text = n.int.text ++ (fracText n.frac ++ expText n.exp) := by
        rw [Number.text, hneg]
        rfl
      have hhead : decide (n.text.head? = some (byte '-')) = false :=
        decide_eq_false (htext ▸ head?_ne_minus)
      simp only [hhead, Bool.false_eq_true, if_false, false_and]
      rw [htext, hdigits maxLargestUInt (by decide), ← htext]
      by_cases hint : n.frac.isSome ∨ n.exp.isSome
      · simp only [if_pos hint, decodeDouble_toOption]
      · by_cases hle : n.int.value ≤ maxLargestUInt
        · simp only [if_neg hint, if_pos hle]
          split <;> rfl
        · have hgt : ¬n.int.value ≤ maxInt := by
            simp only [maxInt, maxLargestUInt] at hle ⊢
            omega
          simp only [if_neg hint, if_neg hle, if_neg hgt, decodeDouble_toOption]

/-! ### Strings -/

/-- A string ends at its closing quote. -/
theorem readString_quote : readString (byte '"' :: l) = (true, l) := by
  cases l <;> rfl

/-- The byte behind a backslash never ends the string. -/
theorem readString_escape {c' : UInt8} :
    readString (byte '\\' :: c' :: l) = readString l := by
  rw [readString, if_pos rfl]

/-- A byte that is neither a quotation mark nor a backslash is passed over. -/
theorem readString_plain (h : c ≠ byte '"' ∧ c ≠ byte '\\') :
    readString (c :: l) = readString l := by
  cases l with
  | nil => simp [readString, h.1]
  | cons c' l => rw [readString, if_neg h.2, if_neg h.1]

/-- A hexadecimal digit has its value. -/
theorem hexDigit_byte (d : HexDigit) : hexDigit d.byte = some d.value := by
  obtain ⟨value, upper⟩ := d
  revert value upper
  decide

/-- It is neither a quote nor a backslash. -/
theorem HexDigit_byte_plain (d : HexDigit) : d.byte ≠ byte '"' ∧ d.byte ≠ byte '\\' := by
  obtain ⟨value, upper⟩ := d
  revert value upper
  decide

/-- The string goes on behind a code unit. -/
theorem readString_codeUnit (u : CodeUnit) : readString (u.text ++ l) = readString l := by
  simp only [CodeUnit.text, List.cons_append, List.nil_append]
  rw [readString_escape, readString_plain (HexDigit_byte_plain u.a),
    readString_plain (HexDigit_byte_plain u.b), readString_plain (HexDigit_byte_plain u.c),
    readString_plain (HexDigit_byte_plain u.d)]

/-- It goes on behind each of its characters. -/
theorem readString_char (x : StringChar) : readString (x.text ++ l) = readString l := by
  cases x with
  | unescaped c h => exact readString_plain h.2
  | escaped e => exact readString_escape
  | unicode u _ => exact readString_codeUnit u
  | surrogates high low _ =>
      rw [StringChar.text, List.append_assoc, readString_codeUnit, readString_codeUnit]

/-- So it is read up to its closing quote. -/
theorem readString_chars (s : List StringChar) :
    readString (charsText s ++ byte '"' :: rest) = (true, rest) := by
  induction s with
  | nil => exact readString_quote
  | cons x s ih =>
      rw [charsText, List.flatMap_cons, List.append_assoc, readString_char]
      exact ih

/-- **A string is one token.** -/
theorem readToken_string (s : List StringChar) :
    readToken (stringText s ++ rest) = ⟨.tokenString, stringText s ++ rest, rest⟩ := by
  have hread : readString (charsText s ++ byte '"' :: rest) = (true, rest) := readString_chars s
  rw [stringText, List.cons_append, List.append_assoc, List.singleton_append]
  have htoken (l : Bytes) : readToken (byte '"' :: l) =
      .ofRead .tokenString (byte '"' :: l) (readString l) := rfl
  rw [htoken, hread]
  rfl

/-- The four digits of an escape sequence. -/
theorem decodeUnicodeEscapeSequence_text (u : CodeUnit) :
    decodeUnicodeEscapeSequence (u.a.byte :: u.b.byte :: u.c.byte :: u.d.byte :: l) =
      .ok (u.value, l) := by
  have hlength : ¬(u.a.byte :: u.b.byte :: u.c.byte :: u.d.byte :: l).length < 4 := by simp
  rw [decodeUnicodeEscapeSequence, if_neg hlength]
  simp only [List.take_succ_cons, List.take_zero, List.mapM_cons, List.mapM_nil, hexDigit_byte,
    List.drop_succ_cons, List.drop_zero]
  simp [CodeUnit.value]

/-- A code unit that is not the high half of a pair is its own code point. -/
theorem decodeUnicodeCodePoint_unicode {u : CodeUnit} (h : ¬u.IsHigh) :
    decodeUnicodeCodePoint (u.a.byte :: u.b.byte :: u.c.byte :: u.d.byte :: l) =
      .ok (u.value, l) := by
  rw [decodeUnicodeCodePoint, decodeUnicodeEscapeSequence_text]
  exact if_neg h

/-- The bits that the reader takes of the halves of a pair. -/
theorem surrogates_eq {high low : CodeUnit} (h : high.IsHigh ∧ low.IsLow) :
    surrogates high.value low.value = codePoint high low := by
  have hmod (x : ℕ) : x &&& 0x3FF = x % 2 ^ 10 := Nat.and_two_pow_sub_one_eq_mod x 10
  have hshift (x : ℕ) : (x &&& 0x3FF) <<< 10 = x % 2 ^ 10 * 0x400 := by
    rw [hmod, Nat.shiftLeft_eq]
  unfold CodeUnit.IsHigh CodeUnit.IsLow at h
  unfold surrogates codePoint
  have hhigh := hshift high.value
  have hlow := hmod low.value
  omega

/-- The two halves of a pair are decoded together. -/
theorem decodeUnicodeCodePoint_surrogates {high low : CodeUnit} (h : high.IsHigh ∧ low.IsLow) :
    decodeUnicodeCodePoint
        (high.a.byte :: high.b.byte :: high.c.byte :: high.d.byte :: (low.text ++ l)) =
      .ok (codePoint high low, l) := by
  have hlength : ¬(low.text ++ l).length < 6 := by simp [CodeUnit.text]
  have htake : (low.text ++ l).take 2 = ascii "\\u" := rfl
  rw [decodeUnicodeCodePoint, decodeUnicodeEscapeSequence_text]
  have hhigh : 0xD800 ≤ high.value ∧ high.value ≤ 0xDBFF := h.1
  simp only [if_pos hhigh, if_neg hlength, if_pos htake]
  rw [← surrogates_eq h]
  simp only [CodeUnit.text, List.cons_append, List.nil_append, List.drop_succ_cons,
    List.drop_zero, decodeUnicodeEscapeSequence_text]

/-- A code unit outside the pairs is a character. -/
theorem CodeUnit_isValidChar {u : CodeUnit} (h : ¬u.IsHigh ∧ ¬u.IsLow) : u.value.isValidChar := by
  have hlt : u.value < 0x10000 := by
    unfold CodeUnit.value
    omega
  unfold CodeUnit.IsHigh CodeUnit.IsLow at h
  unfold Nat.isValidChar
  omega

/-- So is what a pair stands for. -/
theorem codePoint_isValidChar {high low : CodeUnit} (h : high.IsHigh ∧ low.IsLow) :
    (codePoint high low).isValidChar := by
  unfold CodeUnit.IsHigh CodeUnit.IsLow at h
  unfold Nat.isValidChar codePoint
  omega

/-- `codePointToUTF8` encodes each character in UTF-8. -/
theorem codePointToUTF8_ofNat {n : ℕ} (h : n.isValidChar) :
    codePointToUTF8 n = String.utf8EncodeChar (Char.ofNat n) := by
  have hcode : (Char.ofNat n).toNat = n := by
    rw [Char.ofNat, dif_pos h]
    rfl
  rw [← codePointToUTF8_eq, hcode]

/-- The loop decodes an escape and goes on behind it. -/
theorem decodeChars_escape {escape : UInt8} {current unescaped decoded : Bytes}
    (h : decodeEscape escape l = .ok (unescaped, current)) :
    decodeChars.exec (byte '\\' :: escape :: l, decoded) =
      decodeChars.exec (current, decoded ++ unescaped) := by
  refine Loop.exec_of_inl ?_
  dsimp only [decodeChars]
  rw [if_neg (by decide), if_pos rfl, h]

/-- Any other byte is taken over as it is. -/
theorem decodeChars_plain {decoded : Bytes} (h : c ≠ byte '"' ∧ c ≠ byte '\\') :
    decodeChars.exec (c :: l, decoded) = decodeChars.exec (l, decoded ++ [c]) :=
  Loop.exec_of_inl ((if_neg h.1).trans (if_neg h.2))

/-- The escape u gives its code point in UTF-8. -/
theorem decodeEscape_u {current : Bytes} {unicode : ℕ}
    (h : decodeUnicodeCodePoint l = .ok (unicode, current)) :
    decodeEscape (byte 'u') l = .ok (codePointToUTF8 unicode, current) := by
  rw [decodeEscape, h]
  rfl

/-- A character between quotation marks decodes to what it stands for. -/
theorem decodeChars_char (x : StringChar) (decoded : Bytes) :
    decodeChars.exec (x.text ++ l, decoded) = decodeChars.exec (l, decoded ++ x.bytes) := by
  cases x with
  | unescaped c h => exact decodeChars_plain h.2
  | escaped e => cases e <;> exact decodeChars_escape rfl
  | unicode u h =>
      rw [StringChar.bytes, ← codePointToUTF8_ofNat (CodeUnit_isValidChar h)]
      exact decodeChars_escape (decodeEscape_u (decodeUnicodeCodePoint_unicode h.1))
  | surrogates high low h =>
      rw [StringChar.bytes, ← codePointToUTF8_ofNat (codePoint_isValidChar h), StringChar.text,
        List.append_assoc]
      exact decodeChars_escape (decodeEscape_u (decodeUnicodeCodePoint_surrogates h))

/-- **A string decodes to its characters.** -/
theorem decodeString_text (s : List StringChar) :
    decodeString (stringText s) = .ok (charsBytes s) := by
  have hloop (decoded : Bytes) :
      decodeChars.exec (charsText s, decoded) = .ok (decoded ++ charsBytes s) := by
    induction s generalizing decoded with
    | nil => exact (Loop.exec_of_inr rfl).trans (congrArg _ (List.append_nil decoded).symm)
    | cons x s ih =>
        rw [charsText, List.flatMap_cons, decodeChars_char, ← charsText, ih,
          List.append_assoc]
        rfl
  rw [decodeString, stringText, List.drop_succ_cons, List.drop_zero, List.dropLast_concat, hloop,
    List.nil_append]

end

end AnyServer.Json
