import Mathlib.Data.List.Lex
import AnyServer.Library.Loop
import AnyServer.Configuration

/-!
# The Tokens of a JSON Document

The scanner of jsoncpp's `Json::Reader`, with the features that `Features::all()` switches on, and
how the texts of strings and numbers are decoded.

A location in the document is what the document has from there on, and the end of the
document is `[]`. A read at the end gives the byte 0, which is what `getNextChar` returns there
and what stands behind the characters of a `std::string`. The conversion of a number with a
fraction, an exponent or too many digits is `extractDouble`, the `operator>>` of a stream into a
`double`; it is a parameter.

## Main results

* `readToken_spec`: a token lies in the document, and a token other than the end of the stream
  has bytes.
* `skipCommentTokens_ne_comment`: what follows the comments is not a comment.
-/

namespace AnyServer.Json

/-! ### Characters -/

/-- A byte, compared with the characters that the source writes. -/
abbrev chr (c : UInt8) : Char :=
  Char.ofUInt8 c

/-- A character that the source writes, as a byte. -/
abbrev byte (c : Char) : UInt8 :=
  c.toUInt8

instance linearOrderUInt8 : LinearOrder UInt8 where
  le_refl := UInt8.le_refl
  le_trans _ _ _ := UInt8.le_trans
  le_antisymm _ _ := UInt8.le_antisymm
  le_total := UInt8.le_total
  lt_iff_le_not_ge a b := by rw [UInt8.not_le]; exact ⟨fun h => ⟨UInt8.le_of_lt h, h⟩, And.right⟩
  toDecidableLE := inferInstance
  toDecidableLT := inferInstance

/-- What the scanner takes for white space. -/
def isSpace (c : UInt8) : Bool :=
  c = byte ' ' ∨ c = byte '\t' ∨ c = byte '\r' ∨ c = byte '\n'

/-- What the scanner takes for a digit. -/
def isDigit (c : UInt8) : Bool :=
  byte '0' ≤ c ∧ c ≤ byte '9'

/-- `codePointToUTF8`. -/
def codePointToUTF8 (cp : ℕ) : Bytes :=
  if cp ≤ 0x7f then [cp.toUInt8]
  else if cp ≤ 0x7FF then
    [(0xC0 ||| (0x1f &&& (cp >>> 6))).toUInt8, (0x80 ||| (0x3f &&& cp)).toUInt8]
  else if cp ≤ 0xFFFF then
    [(0xE0 ||| (0xf &&& (cp >>> 12))).toUInt8, (0x80 ||| (0x3f &&& (cp >>> 6))).toUInt8,
      (0x80 ||| (0x3f &&& cp)).toUInt8]
  else if cp ≤ 0x10FFFF then
    [(0xF0 ||| (0x7 &&& (cp >>> 18))).toUInt8, (0x80 ||| (0x3f &&& (cp >>> 12))).toUInt8,
      (0x80 ||| (0x3f &&& (cp >>> 6))).toUInt8, (0x80 ||| (0x3f &&& cp)).toUInt8]
  else []

/-! ### Tokens -/

/-- `Reader::TokenType`. -/
inductive TokenType
  | tokenEndOfStream
  | tokenObjectBegin
  | tokenObjectEnd
  | tokenArrayBegin
  | tokenArrayEnd
  | tokenString
  | tokenNumber
  | tokenTrue
  | tokenFalse
  | tokenNull
  | tokenArraySeparator
  | tokenMemberSeparator
  | tokenComment
  | tokenError
  deriving DecidableEq, Repr

/-- `Reader::Token`. -/
structure Token where
  type_ : TokenType
  start_ : Bytes
  end_ : Bytes
  deriving DecidableEq, Repr

/-- The bytes from `start_` to `end_`. -/
def Token.text (token : Token) : Bytes :=
  token.start_.take (token.start_.length - token.end_.length)

/-- `Reader::skipSpaces`. -/
def skipSpaces (current_ : Bytes) : Bytes :=
  current_.dropWhile isSpace

/-- `Reader::match`. -/
def matchPattern (pattern : Bytes) (current_ : Bytes) : Bool × Bytes :=
  if pattern.isPrefixOf current_ then (true, current_.drop pattern.length) else (false, current_)

/-- `Reader::readCStyleComment`. -/
def readCStyleComment : Bytes → Bool × Bytes
  | [] => (false, [])
  | c :: current_ =>
      if c = byte '*' ∧ current_.head? = some (byte '/') then (true, current_.tail)
      else readCStyleComment current_

/-- `Reader::readCppStyleComment`, which always succeeds. -/
def readCppStyleComment : Bytes → Bytes
  | [] => []
  | c :: current_ =>
      if c = byte '\n' then current_
      else if c = byte '\r' then
        if current_.head? = some (byte '\n') then current_.tail else current_
      else readCppStyleComment current_

/-- `Reader::readComment`, after the first slash. -/
def readComment : Bytes → Bool × Bytes
  | [] => (false, [])
  | c :: current_ =>
      if c = byte '*' then readCStyleComment current_
      else if c = byte '/' then (true, readCppStyleComment current_)
      else (false, current_)

/-- The exponential part of a number. -/
def readExponent : Bytes → Bytes
  | [] => []
  | c :: current_ =>
      if c = byte 'e' ∨ c = byte 'E' then
        match current_ with
        | [] => []
        | c' :: rest =>
            if c' = byte '+' ∨ c' = byte '-' then rest.dropWhile isDigit
            else current_.dropWhile isDigit
      else c :: current_

/-- The fractional part of a number, and what follows it. -/
def readFraction : Bytes → Bytes
  | [] => []
  | c :: current_ =>
      if c = byte '.' then readExponent (current_.dropWhile isDigit)
      else readExponent (c :: current_)

/-- `Reader::readNumber`, after the first character. -/
def readNumber (current_ : Bytes) : Bytes :=
  readFraction (current_.dropWhile isDigit)

/-- `Reader::readString`, after the opening quote. -/
def readString : Bytes → Bool × Bytes
  | [] => (false, [])
  | [c] => (c = byte '"', [])
  | c :: c' :: current_ =>
      if c = byte '\\' then readString current_
      else if c = byte '"' then (true, c' :: current_)
      else readString (c' :: current_)

/-- A token of one type if it could be read, and an error token if not. -/
def Token.ofRead (type_ : TokenType) (start_ : Bytes) (read : Bool × Bytes) : Token :=
  ⟨if read.1 then type_ else .tokenError, start_, read.2⟩

/-- `Reader::readToken`, which always returns `true`; `current_` is the `end_` of the token. -/
def readToken (current_ : Bytes) : Token :=
  match skipSpaces current_ with
  | [] => ⟨.tokenEndOfStream, [], []⟩
  | c :: rest =>
      match chr c with
      | '{' => ⟨.tokenObjectBegin, c :: rest, rest⟩
      | '}' => ⟨.tokenObjectEnd, c :: rest, rest⟩
      | '[' => ⟨.tokenArrayBegin, c :: rest, rest⟩
      | ']' => ⟨.tokenArrayEnd, c :: rest, rest⟩
      | '"' => .ofRead .tokenString (c :: rest) (readString rest)
      | '/' => .ofRead .tokenComment (c :: rest) (readComment rest)
      | '0' | '1' | '2' | '3' | '4' | '5' | '6' | '7' | '8' | '9' | '-' =>
          ⟨.tokenNumber, c :: rest, readNumber rest⟩
      | 't' => .ofRead .tokenTrue (c :: rest) (matchPattern (ascii "rue") rest)
      | 'f' => .ofRead .tokenFalse (c :: rest) (matchPattern (ascii "alse") rest)
      | 'n' => .ofRead .tokenNull (c :: rest) (matchPattern (ascii "ull") rest)
      | ',' => ⟨.tokenArraySeparator, c :: rest, rest⟩
      | ':' => ⟨.tokenMemberSeparator, c :: rest, rest⟩
      | '\x00' => ⟨.tokenEndOfStream, c :: rest, rest⟩
      | _ => ⟨.tokenError, c :: rest, rest⟩

/-! ### Where the tokens lie -/

section

variable {l t : Bytes} {token : Token}

/-- Skipping bytes leaves a suffix. -/
theorem dropWhile_suffix {p : UInt8 → Bool} : l.dropWhile p <:+ l :=
  List.dropWhile_suffix p

/-- A C comment is read from the front. -/
theorem readCStyleComment_suffix : (readCStyleComment l).2 <:+ l := by
  fun_induction readCStyleComment l with
  | case1 => exact List.suffix_refl _
  | case2 c l _ => exact (List.tail_suffix l).trans (List.suffix_cons c l)
  | case3 c l _ ih => exact ih.trans (List.suffix_cons c l)

/-- So is a C++ comment. -/
theorem readCppStyleComment_suffix : readCppStyleComment l <:+ l := by
  fun_induction readCppStyleComment l with
  | case1 => exact List.suffix_refl _
  | case2 l => exact List.suffix_cons _ l
  | case3 l _ _ => exact (List.tail_suffix l).trans (List.suffix_cons _ l)
  | case4 l => exact List.suffix_cons _ l
  | case5 c l _ _ ih => exact ih.trans (List.suffix_cons c l)

/-- So is either of them. -/
theorem readComment_suffix : (readComment l).2 <:+ l := by
  fun_cases readComment l with
  | case1 => exact List.suffix_refl _
  | case2 l => exact readCStyleComment_suffix.trans (List.suffix_cons _ l)
  | case3 l => exact readCppStyleComment_suffix.trans (List.suffix_cons _ l)
  | case4 c l => exact List.suffix_cons c l

/-- An exponent is read from the front. -/
theorem readExponent_suffix : readExponent l <:+ l := by
  fun_cases readExponent l with
  | case1 => exact List.suffix_refl _
  | case2 c _ => exact List.nil_suffix
  | case3 c _ c' l _ =>
      exact dropWhile_suffix.trans ((List.suffix_cons c' l).trans (List.suffix_cons c _))
  | case4 c _ c' l _ => exact dropWhile_suffix.trans (List.suffix_cons c _)
  | case5 => exact List.suffix_refl _

/-- So is a fraction. -/
theorem readFraction_suffix : readFraction l <:+ l := by
  fun_cases readFraction l with
  | case1 => exact List.suffix_refl _
  | case2 l => exact readExponent_suffix.trans (dropWhile_suffix.trans (List.suffix_cons _ l))
  | case3 => exact readExponent_suffix

/-- So is a whole number. -/
theorem readNumber_suffix : readNumber l <:+ l :=
  readFraction_suffix.trans dropWhile_suffix

/-- So is a string. -/
theorem readString_suffix : (readString l).2 <:+ l := by
  fun_induction readString l with
  | case1 => exact List.suffix_refl _
  | case2 => exact List.nil_suffix
  | case3 c' l ih => exact ih.trans ((List.suffix_cons c' l).trans (List.suffix_cons _ _))
  | case4 c' l => exact List.suffix_cons _ _
  | case5 c c' l _ _ ih => exact ih.trans (List.suffix_cons c _)

/-- So is a literal. -/
theorem matchPattern_suffix {pattern : Bytes} : (matchPattern pattern l).2 <:+ l := by
  rw [matchPattern]
  split
  · exact List.drop_suffix _ l
  · exact List.suffix_refl _

/-- **A token lies in the document**: it starts behind the spaces, and it ends behind its
first byte if there is one. -/
theorem readToken_spec (l : Bytes) : (readToken l).start_ = skipSpaces l ∧
    (readToken l).end_ <:+ (skipSpaces l).tail := by
  rw [readToken]
  cases skipSpaces l with
  | nil => exact ⟨rfl, List.suffix_refl _⟩
  | cons c rest =>
      dsimp only
      split
      all_goals first
        | exact ⟨rfl, List.suffix_refl _⟩
        | exact ⟨rfl, readString_suffix⟩
        | exact ⟨rfl, readComment_suffix⟩
        | exact ⟨rfl, readNumber_suffix⟩
        | exact ⟨rfl, matchPattern_suffix⟩

/-- A token begins behind the white space. -/
theorem readToken_start (l : Bytes) : (readToken l).start_ = skipSpaces l :=
  (readToken_spec l).1

/-- When nothing is left but white space, the stream is at its end. -/
theorem readToken_nil_iff (l : Bytes) :
    (readToken l).start_ = [] → (readToken l).type_ = .tokenEndOfStream := by
  rw [readToken_start, readToken]
  intro h
  rw [h]

/-- A token begins within what was there. -/
theorem readToken_start_suffix (l : Bytes) : (readToken l).start_ <:+ l :=
  readToken_start l ▸ dropWhile_suffix

/-- It ends within it. -/
theorem readToken_suffix (l : Bytes) : (readToken l).end_ <:+ l :=
  (readToken_spec l).2.trans ((List.tail_suffix _).trans dropWhile_suffix)

/-- A token that is not the end of the stream has bytes. -/
theorem readToken_length_lt (h : (readToken l).type_ ≠ .tokenEndOfStream) :
    (readToken l).end_.length < l.length := by
  have hle : (skipSpaces l).length ≤ l.length := dropWhile_suffix.length_le
  have hend : (readToken l).end_.length ≤ (skipSpaces l).tail.length :=
    (readToken_spec l).2.length_le
  have hpos : (skipSpaces l).length ≠ 0 := fun hzero =>
    h (readToken_nil_iff l ((readToken_start l).trans (List.length_eq_zero_iff.mp hzero)))
  rw [List.length_tail] at hend
  omega

/-! ### Reading tokens until one of a type -/

/-- Read tokens while they are of the types `p`. -/
def readTokenWhile (p : TokenType → Bool) (hp : p .tokenEndOfStream = false) :
    Loop Bytes Token where
  step current_ :=
    let token := readToken current_
    if p token.type_ then .inl token.end_ else .inr token
  measure := List.length
  decreases {s s'} h := by
    dsimp only at h
    split at h
    · next htype =>
      obtain rfl := Sum.inl.inj h
      exact readToken_length_lt fun heq => by rw [heq, hp] at htype; cases htype
    · cases h

/-- `Reader::skipCommentTokens`. -/
def skipCommentTokens (current_ : Bytes) : Token :=
  (readTokenWhile (· = .tokenComment) rfl).exec current_

/-- The loop of `Reader::recoverFromError`. -/
def skipUntil (skipUntilToken : TokenType) (current_ : Bytes) : Token :=
  (readTokenWhile (fun type => type ≠ skipUntilToken ∧ type ≠ .tokenEndOfStream) (by simp)).exec
    current_

section

variable {p : TokenType → Bool} {hp : p .tokenEndOfStream = false}

/-- A token of another type ends the loop at once. -/
theorem readTokenWhile_of_false (h : p (readToken l).type_ = false) :
    (readTokenWhile p hp).exec l = readToken l :=
  Loop.exec_of_inr (by simp [readTokenWhile, h])

/-- What the loop stops at is a token of the document, and not of the types. -/
theorem readTokenWhile_spec (p : TokenType → Bool) (hp : p .tokenEndOfStream = false)
    (l : Bytes) : ∃ t, t <:+ l ∧ (readTokenWhile p hp).exec l = readToken t ∧
      p (readToken t).type_ = false := by
  refine Loop.rule (L := readTokenWhile p hp) (fun t => t <:+ l)
    (Q := fun token => ∃ t, t <:+ l ∧ token = readToken t ∧ p (readToken t).type_ = false)
    (fun t t' ht hstep => ?_) (fun t token ht hstep => ?_) (List.suffix_refl l)
  · dsimp only [readTokenWhile] at hstep
    split at hstep
    · obtain rfl := Sum.inl.inj hstep
      exact (readToken_suffix t).trans ht
    · cases hstep
  · dsimp only [readTokenWhile] at hstep
    split at hstep
    · cases hstep
    · next htype =>
      obtain rfl := Sum.inr.inj hstep
      exact ⟨t, ht, rfl, by simpa using htype⟩

end

/-- The token it gives is one that the text has, and no comment. -/
theorem skipCommentTokens_spec (l : Bytes) : ∃ t, t <:+ l ∧ skipCommentTokens l = readToken t ∧
    (readToken t).type_ ≠ .tokenComment := by
  obtain ⟨t, ht, heq, htype⟩ := readTokenWhile_spec (· = .tokenComment) rfl l
  exact ⟨t, ht, heq, by simpa using htype⟩

/-- **What follows the comments is not a comment.** -/
theorem skipCommentTokens_ne_comment (l : Bytes) :
    (skipCommentTokens l).type_ ≠ .tokenComment := by
  obtain ⟨t, -, heq, htype⟩ := skipCommentTokens_spec l
  exact heq ▸ htype

/-- Where no comment is, the next token is read. -/
theorem skipCommentTokens_of_ne (h : (readToken l).type_ ≠ .tokenComment) :
    skipCommentTokens l = readToken l :=
  readTokenWhile_of_false (by simpa using h)

/-- It begins within what was there. -/
theorem skipCommentTokens_start_suffix (l : Bytes) : (skipCommentTokens l).start_ <:+ l := by
  obtain ⟨t, ht, heq, -⟩ := skipCommentTokens_spec l
  exact heq ▸ (readToken_start_suffix t).trans ht

/-- It ends within it. -/
theorem skipCommentTokens_suffix (l : Bytes) : (skipCommentTokens l).end_ <:+ l := by
  obtain ⟨t, ht, heq, -⟩ := skipCommentTokens_spec l
  exact heq ▸ (readToken_suffix t).trans ht

/-- Only the end of the stream reads nothing. -/
theorem skipCommentTokens_length_lt (h : (skipCommentTokens l).type_ ≠ .tokenEndOfStream) :
    (skipCommentTokens l).end_.length < l.length := by
  obtain ⟨t, ht, heq, -⟩ := skipCommentTokens_spec l
  rw [heq] at h ⊢
  exact (readToken_length_lt h).trans_le ht.length_le

end

/-! ### Decoding the text of a token -/

/-- The digit of a hexadecimal number. -/
def hexDigit (c : UInt8) : Option ℕ :=
  if byte '0' ≤ c ∧ c ≤ byte '9' then some (c.toNat - '0'.toNat)
  else if byte 'a' ≤ c ∧ c ≤ byte 'f' then some (c.toNat - 'a'.toNat + 10)
  else if byte 'A' ≤ c ∧ c ≤ byte 'F' then some (c.toNat - 'A'.toNat + 10)
  else none

/-- `Reader::decodeUnicodeEscapeSequence`: the number, and what follows the digits. -/
def decodeUnicodeEscapeSequence (current : Bytes) : Except Bytes (ℕ × Bytes) :=
  if current.length < 4 then
    .error (ascii "Bad unicode escape sequence in string: four digits expected.")
  else
    match (current.take 4).mapM hexDigit with
    | none =>
        .error (ascii "Bad unicode escape sequence in string: hexadecimal digit expected.")
    | some digits =>
        .ok (digits.foldl (fun unicode digit => unicode * 16 + digit) 0, current.drop 4)

/-- The code point that two escape sequences stand for. -/
def surrogates (unicode surrogatePair : ℕ) : ℕ :=
  0x10000 + ((unicode &&& 0x3FF) <<< 10) + (surrogatePair &&& 0x3FF)

/-- `Reader::decodeUnicodeCodePoint`. -/
def decodeUnicodeCodePoint (current : Bytes) : Except Bytes (ℕ × Bytes) :=
  match decodeUnicodeEscapeSequence current with
  | .error message => .error message
  | .ok (unicode, current) =>
      if 0xD800 ≤ unicode ∧ unicode ≤ 0xDBFF then
        if current.length < 6 then
          .error (ascii "additional six characters expected to parse unicode surrogate pair.")
        else if current.take 2 = ascii "\\u" then
          match decodeUnicodeEscapeSequence (current.drop 2) with
          | .error message => .error message
          | .ok (surrogatePair, current) => .ok (surrogates unicode surrogatePair, current)
        else
          .error (ascii ("expecting another \\u token to begin the second half of " ++
            "a unicode surrogate pair"))
      else .ok (unicode, current)

/-- What an escape sequence stands for, by its first character after the backslash. -/
def decodeEscape (escape : UInt8) (current : Bytes) : Except Bytes (Bytes × Bytes) :=
  match chr escape with
  | '"' => .ok ([byte '"'], current)
  | '/' => .ok ([byte '/'], current)
  | '\\' => .ok ([byte '\\'], current)
  | 'b' => .ok ([0x08], current)
  | 'f' => .ok ([0x0C], current)
  | 'n' => .ok ([byte '\n'], current)
  | 'r' => .ok ([byte '\r'], current)
  | 't' => .ok ([byte '\t'], current)
  | 'u' =>
      match decodeUnicodeCodePoint current with
      | .error message => .error message
      | .ok (unicode, current) => .ok (codePointToUTF8 unicode, current)
  | _ => .error (ascii "Bad escape sequence in string")

/-- The four hexadecimal digits are read from the front. -/
theorem decodeUnicodeEscapeSequence_suffix {current : Bytes} {r : ℕ × Bytes}
    (h : decodeUnicodeEscapeSequence current = .ok r) : r.2 <:+ current := by
  rw [decodeUnicodeEscapeSequence] at h
  split at h
  · cases h
  · split at h
    · cases h
    · obtain rfl := Except.ok.inj h
      exact List.drop_suffix 4 current

/-- So is a whole code point. -/
theorem decodeUnicodeCodePoint_suffix {current : Bytes} {r : ℕ × Bytes}
    (h : decodeUnicodeCodePoint current = .ok r) : r.2 <:+ current := by
  rw [decodeUnicodeCodePoint] at h
  split at h
  · cases h
  · next unicode rest hfirst =>
    have hrest : rest <:+ current := decodeUnicodeEscapeSequence_suffix hfirst
    split at h
    · split at h
      · cases h
      · split at h
        · split at h
          · cases h
          · next surrogatePair rest' hsecond =>
            obtain rfl := Except.ok.inj h
            have hrest' : rest' <:+ rest.drop 2 := decodeUnicodeEscapeSequence_suffix hsecond
            exact hrest'.trans ((List.drop_suffix 2 rest).trans hrest)
        · cases h
    · obtain rfl := Except.ok.inj h
      exact hrest

/-- So is any escape. -/
theorem decodeEscape_suffix {escape : UInt8} {current : Bytes} {r : Bytes × Bytes}
    (h : decodeEscape escape current = .ok r) : r.2 <:+ current := by
  rw [decodeEscape] at h
  split at h
  case h_9 =>
    split at h
    · cases h
    · next unicode rest hdecode =>
      obtain rfl := Except.ok.inj h
      exact decodeUnicodeCodePoint_suffix (r := (unicode, rest)) hdecode
  case h_10 => cases h
  all_goals
    obtain rfl := Except.ok.inj h
    exact List.suffix_refl _

/-- The loop of `Reader::decodeString`, on what is left between the quotes and what is decoded. -/
def decodeChars : Loop (Bytes × Bytes) (Except Bytes Bytes) where
  step
    | ([], decoded) => .inr (.ok decoded)
    | (c :: current, decoded) =>
        if c = byte '"' then .inr (.ok decoded)
        else if c = byte '\\' then
          match current with
          | [] => .inr (.error (ascii "Empty escape sequence in string"))
          | escape :: current =>
              match decodeEscape escape current with
              | .error message => .inr (.error message)
              | .ok (unescaped, current) => .inl (current, decoded ++ unescaped)
        else .inl (current, decoded ++ [c])
  measure s := s.1.length
  decreases {s s'} h := by
    rcases s with ⟨_ | ⟨c, current⟩, decoded⟩
    · cases h
    · dsimp only at h
      split at h
      · cases h
      · split at h
        · split at h
          · cases h
          · split at h
            · cases h
            · next hdecode =>
              obtain rfl := Sum.inl.inj h
              have hle := (decodeEscape_suffix hdecode).length_le
              simp only [List.length_cons] at hle ⊢
              omega
        · obtain rfl := Sum.inl.inj h
          exact Nat.lt_succ_self _

/-- `Reader::decodeString`, on the text of a token. -/
def decodeString (text : Bytes) : Except Bytes Bytes :=
  decodeChars.exec ((text.drop 1).dropLast, [])

/-- The loop of `Reader::decodeNumber`; `none` where it calls `decodeDouble`. -/
def decodeDigits (maxIntegerValue : ℕ) : Bytes → ℕ → Option ℕ
  | [], value => some value
  | c :: current, value =>
      if isDigit c then
        let digit := c.toNat - '0'.toNat
        let threshold := maxIntegerValue / 10
        if threshold ≤ value ∧
            (threshold < value ∨ current ≠ [] ∨ maxIntegerValue % 10 < digit) then none
        else decodeDigits maxIntegerValue current (value * 10 + digit)
      else none

/-- `Value::minLargestInt`. -/
def minLargestInt : ℤ := -2 ^ 63
/-- `Value::maxLargestInt`. -/
def maxLargestInt : ℕ := 2 ^ 63 - 1
/-- `Value::maxLargestUInt`. -/
def maxLargestUInt : ℕ := 2 ^ 64 - 1
/-- `Value::maxInt`. -/
def maxInt : ℕ := 2 ^ 31 - 1

/-- `Reader::decodeDouble`, on the text of a token. -/
def decodeDouble (extractDouble : Bytes → Option Real) (text : Bytes) : Except Bytes Value :=
  match extractDouble text with
  | none => .error (ascii "'" ++ text ++ ascii "' is not a number.")
  | some value => .ok (.real value)

/-- `Reader::decodeNumber`, on the text of a token. -/
def decodeNumber (extractDouble : Bytes → Option Real) (text : Bytes) : Except Bytes Value :=
  let isNegative : Bool := text.head? = some (byte '-')
  let current := if isNegative then text.tail else text
  let maxIntegerValue := if isNegative then maxLargestInt + 1 else maxLargestUInt
  match decodeDigits maxIntegerValue current 0 with
  | none => decodeDouble extractDouble text
  | some value =>
      if isNegative ∧ value = maxIntegerValue then .ok (.int minLargestInt)
      else if isNegative then .ok (.int (-value))
      else if value ≤ maxInt then .ok (.int value)
      else .ok (.uint value)

end AnyServer.Json
