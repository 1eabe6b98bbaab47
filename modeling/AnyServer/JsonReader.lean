import AnyServer.Library.SortedKeys
import AnyServer.JsonTokens

/-!
# The Reader of jsoncpp

`Json::Reader` without comments collected: what turns the bytes of a configuration file into
a `Json::Value`. Objects keep their members in the order of a `std::map`, in which a name that
comes again replaces the value that it had.

A value is read with a limit on the nesting, so that `readValue` recurses on the number of
calls that `stackLimit_g` still allows. The loops over elements and members consume bytes.

## Main results

* `readElements_step` / `readMembers_step`: all that one step of the two loops can do.
* `readValue`: reading a value that is there consumes bytes, whatever the document.
-/

namespace AnyServer.Json

/-! ### Values -/

/-- `Reader::ErrorInfo`. -/
structure ErrorInfo where
  token_ : Token
  message_ : Bytes
  deriving DecidableEq, Repr

/-- `Reader`: where it is in the document, and the errors so far. -/
structure Reader where
  current_ : Bytes
  errors_ : List ErrorInfo
  deriving DecidableEq, Repr

/-- What a function of the reader does: it returns `true` with a value, or `false`, or throws
`RuntimeError`. -/
inductive Outcome (α : Type)
  | returns (value : Option α) (s : Reader)
  | throws

/-- Behind a token. -/
def Reader.past (s : Reader) (token : Token) : Reader :=
  { s with current_ := token.end_ }

/-- `Reader::addError`. -/
def Reader.addError (s : Reader) (message : Bytes) (token : Token) : Reader :=
  { s with errors_ := s.errors_ ++ [⟨token, message⟩] }

/-- `Reader::recoverFromError`; reading tokens adds no errors, so that none are discarded. -/
def Reader.recoverFromError (s : Reader) (skipUntilToken : TokenType) : Reader :=
  s.past (skipUntil skipUntilToken s.current_)

/-- `Reader::addErrorAndRecover`. -/
def Reader.addErrorAndRecover (s : Reader) (message : Bytes) (token : Token)
    (skipUntilToken : TokenType) : Reader :=
  (s.addError message token).recoverFromError skipUntilToken

/-- A decoded value, or the error that decoding the token adds. -/
def Reader.decoded {α : Type} (s : Reader) (token : Token) : Except Bytes α → Outcome α
  | .ok value => .returns (some value) s
  | .error message => .returns none (s.addError message token)

/-- A function that reads a value, and that consumes bytes if there is one. -/
structure ValueReader where
  read : Reader → Outcome Value
  consumes : ∀ {s s' v}, read s = .returns (some v) s' → s'.current_.length < s.current_.length

section

variable {s s' : Reader} {v : Value} {token : Token}

/-- The reader goes on behind the token. -/
@[simp] theorem Reader.past_current : (s.past token).current_ = token.end_ := rfl

@[simp] theorem Reader.past_errors : (s.past token).errors_ = s.errors_ := rfl

@[simp] theorem Reader.addError_current {message : Bytes} :
    (s.addError message token).current_ = s.current_ := rfl

/-- The loop of `Reader::readArray`, on the elements so far. -/
def readElements (readValue : ValueReader) : Loop (List Value × Reader) (Outcome Value) where
  step
    | (elems, s) =>
        match readValue.read s with
        | .throws => .inr .throws
        | .returns none s => .inr (.returns none (s.recoverFromError .tokenArrayEnd))
        | .returns (some value) s =>
            let token := skipCommentTokens s.current_
            let s := s.past token
            if token.type_ ≠ .tokenArraySeparator ∧ token.type_ ≠ .tokenArrayEnd then
              .inr (.returns none (s.addErrorAndRecover
                (ascii "Missing ',' or ']' in array declaration") token .tokenArrayEnd))
            else if token.type_ = .tokenArrayEnd then
              .inr (.returns (some (.array (elems ++ [value]))) s)
            else .inl (elems ++ [value], s)
  measure s := s.2.current_.length
  decreases {x x'} h := by
    obtain ⟨elems, s⟩ := x
    dsimp only at h
    split at h
    · cases h
    · cases h
    · next value s₁ hread =>
      split at h
      · cases h
      · split at h
        · cases h
        · obtain rfl := Sum.inl.inj h
          exact (skipCommentTokens_suffix s₁.current_).length_le.trans_lt
            (readValue.consumes hread)

/-- `Reader::readArray`, after the bracket. -/
def readArray (readValue : ValueReader) (s : Reader) : Outcome Value :=
  let current_ := skipSpaces s.current_
  if current_.head? = some (byte ']') then
    .returns (some (.array [])) (s.past (readToken current_))
  else (readElements readValue).exec ([], { s with current_ })

/-- The loop of `Reader::readObject`, on the name of the member before and the members so
far. -/
def readMembers (readValue : ValueReader) :
    Loop (Bytes × List (Bytes × Value) × Reader) (Outcome Value) where
  step
    | (name, members, s) =>
        let tokenName := skipCommentTokens s.current_
        let s := s.past tokenName
        if tokenName.type_ = .tokenObjectEnd ∧ name = [] then
          .inr (.returns (some (.object members)) s)
        else if tokenName.type_ ≠ .tokenString then
          .inr (.returns none (s.addErrorAndRecover
            (ascii "Missing '\x7d' or object member name") tokenName .tokenObjectEnd))
        else
          match decodeString tokenName.text with
          | .error message =>
              .inr (.returns none
                ((s.addError message tokenName).recoverFromError .tokenObjectEnd))
          | .ok name =>
              let colon := readToken s.current_
              let s := s.past colon
              if colon.type_ ≠ .tokenMemberSeparator then
                .inr (.returns none (s.addErrorAndRecover
                  (ascii "Missing ':' after object member name") colon .tokenObjectEnd))
              else
                match readValue.read s with
                | .throws => .inr .throws
                | .returns none s => .inr (.returns none (s.recoverFromError .tokenObjectEnd))
                | .returns (some value) s =>
                    let comma := readToken s.current_
                    if comma.type_ ≠ .tokenObjectEnd ∧ comma.type_ ≠ .tokenArraySeparator ∧
                        comma.type_ ≠ .tokenComment then
                      .inr (.returns none ((s.past comma).addErrorAndRecover
                        (ascii "Missing ',' or '\x7d' in object declaration") comma
                        .tokenObjectEnd))
                    else
                      -- behind comments any token but the end of the object separates
                      let comma := skipCommentTokens s.current_
                      let members := SortedKeys.assign members name value
                      let s := s.past comma
                      if comma.type_ = .tokenObjectEnd then
                        .inr (.returns (some (.object members)) s)
                      else .inl (name, members, s)
  measure s := s.2.2.current_.length
  decreases {x x'} h := by
    obtain ⟨name, members, s⟩ := x
    dsimp only at h
    split at h
    · cases h
    · split at h
      · cases h
      · split at h
        · cases h
        · split at h
          · cases h
          · split at h
            · cases h
            · cases h
            · next value s₁ hread =>
              split at h
              · cases h
              · split at h
                · cases h
                · obtain rfl := Sum.inl.inj h
                  calc (skipCommentTokens s₁.current_).end_.length
                      ≤ s₁.current_.length := (skipCommentTokens_suffix _).length_le
                    _ < _ := readValue.consumes hread
                    _ ≤ (skipCommentTokens s.current_).end_.length :=
                      (readToken_suffix _).length_le
                    _ ≤ s.current_.length := (skipCommentTokens_suffix _).length_le

/-- `Reader::readObject`, after the brace. -/
def readObject (readValue : ValueReader) (s : Reader) : Outcome Value :=
  (readMembers readValue).exec ([], [], s)

/-! ### What the loops do in one step -/

/-- Recovering forgets the errors that the skipped tokens give. -/
@[simp] theorem Reader.recoverFromError_errors {type : TokenType} :
    (s.recoverFromError type).errors_ = s.errors_ := rfl

/-- `addError` records one error at its token. -/
@[simp] theorem Reader.addError_errors {message : Bytes} :
    (s.addError message token).errors_ = s.errors_ ++ [⟨token, message⟩] := rfl

/-- So does `addErrorAndRecover`, and nothing more. -/
@[simp] theorem Reader.addErrorAndRecover_errors {message : Bytes} {type : TokenType} :
    (s.addErrorAndRecover message token type).errors_ = s.errors_ ++ [⟨token, message⟩] := rfl

/-- One step of `readArray`: it fails with an error of its own, or comes to what reading an
element comes to, ends behind an element, or goes on behind it. -/
inductive ElementsStep (readValue : ValueReader) (elems : List Value) (s : Reader) :
    (List Value × Reader) ⊕ Outcome Value → Prop
  | throws : readValue.read s = .throws → ElementsStep readValue elems s (.inr .throws)
  | failsIn {s₁ s'} : readValue.read s = .returns none s₁ → s'.errors_ = s₁.errors_ →
      ElementsStep readValue elems s (.inr (.returns none s'))
  | fails {value s₁ s' error} : readValue.read s = .returns (some value) s₁ →
      s'.errors_ = s₁.errors_ ++ [error] → error.token_.start_ <:+ s₁.current_ →
      ElementsStep readValue elems s (.inr (.returns none s'))
  | ends {value s₁} : readValue.read s = .returns (some value) s₁ →
      (skipCommentTokens s₁.current_).type_ = .tokenArrayEnd →
      ElementsStep readValue elems s (.inr (.returns (some (.array (elems ++ [value])))
        (s₁.past (skipCommentTokens s₁.current_))))
  | goesOn {value s₁} : readValue.read s = .returns (some value) s₁ →
      (skipCommentTokens s₁.current_).type_ = .tokenArraySeparator →
      ElementsStep readValue elems s
        (.inl (elems ++ [value], s₁.past (skipCommentTokens s₁.current_)))

/-- What one round of the array's loop does. -/
theorem readElements_step (readValue : ValueReader) (elems : List Value) (s : Reader) :
    ElementsStep readValue elems s ((readElements readValue).step (elems, s)) := by
  dsimp only [readElements]
  split
  · next hread => exact .throws hread
  · next s₁ hread => exact .failsIn hread rfl
  · next value s₁ hread =>
    split
    · exact .fails hread rfl (skipCommentTokens_start_suffix _)
    · next htype =>
      split
      · next hend => exact .ends hread hend
      · next hend => exact .goesOn hread (by tauto)

/-- One step of `readObject`: it fails with an error of its own, or comes to what reading the
value of a member comes to, ends where there is no member, ends behind a member, or goes on
behind it. -/
inductive MembersStep (readValue : ValueReader) (name : Bytes) (members : List (Bytes × Value))
    (s : Reader) : (Bytes × List (Bytes × Value) × Reader) ⊕ Outcome Value → Prop
  | fails {s' error} : s'.errors_ = s.errors_ ++ [error] → error.token_.start_ <:+ s.current_ →
      MembersStep readValue name members s (.inr (.returns none s'))
  | empty : (skipCommentTokens s.current_).type_ = .tokenObjectEnd → name = [] →
      MembersStep readValue name members s
        (.inr (.returns (some (.object members)) (s.past (skipCommentTokens s.current_))))
  | throws {s₁} : readValue.read s₁ = .throws →
      MembersStep readValue name members s (.inr .throws)
  | failsIn {s₁ s₂ s'} : s₁.current_ <:+ s.current_ → s₁.errors_ = s.errors_ →
      readValue.read s₁ = .returns none s₂ → s'.errors_ = s₂.errors_ →
      MembersStep readValue name members s (.inr (.returns none s'))
  | failsBehind {s₁ s₂ s' value error} : s₁.current_ <:+ s.current_ →
      s₁.errors_ = s.errors_ → readValue.read s₁ = .returns (some value) s₂ →
      s'.errors_ = s₂.errors_ ++ [error] → error.token_.start_ <:+ s₂.current_ →
      MembersStep readValue name members s (.inr (.returns none s'))
  | ends {name' s₁ s₂ value} : decodeString (skipCommentTokens s.current_).text = .ok name' →
      s₁.current_ <:+ s.current_ → s₁.errors_ = s.errors_ →
      readValue.read s₁ = .returns (some value) s₂ →
      (skipCommentTokens s₂.current_).type_ = .tokenObjectEnd →
      MembersStep readValue name members s
        (.inr (.returns (some (.object (SortedKeys.assign members name' value)))
          (s₂.past (skipCommentTokens s₂.current_))))
  | goesOn {name' s₁ s₂ value} : decodeString (skipCommentTokens s.current_).text = .ok name' →
      s₁.current_ <:+ s.current_ → s₁.errors_ = s.errors_ →
      readValue.read s₁ = .returns (some value) s₂ →
      (skipCommentTokens s₂.current_).type_ ≠ .tokenObjectEnd →
      MembersStep readValue name members s (.inl (name', SortedKeys.assign members name' value,
        s₂.past (skipCommentTokens s₂.current_)))

/-- What one round of the object's loop does. -/
theorem readMembers_step (readValue : ValueReader) (name : Bytes)
    (members : List (Bytes × Value)) (s : Reader) :
    MembersStep readValue name members s ((readMembers readValue).step (name, members, s)) := by
  let s₁ := (s.past (skipCommentTokens s.current_)).past
    (readToken (skipCommentTokens s.current_).end_)
  have herrors : s₁.errors_ = s.errors_ := rfl
  have hcolon : s₁.current_ <:+ s.current_ :=
    (readToken_suffix _).trans (skipCommentTokens_suffix _)
  dsimp only [readMembers]
  split
  · next hend => exact .empty hend.1 hend.2
  · split
    · exact .fails rfl (skipCommentTokens_start_suffix _)
    · split
      · exact .fails rfl (skipCommentTokens_start_suffix _)
      · next name' hname =>
        split
        · exact .fails rfl ((readToken_start_suffix _).trans (skipCommentTokens_suffix _))
        · split
          · next hread => exact .throws hread
          · next s₂ hread => exact .failsIn hcolon herrors hread rfl
          · next value s₂ hread =>
            split
            · exact .failsBehind hcolon herrors hread rfl (readToken_start_suffix _)
            · split
              · next hcomma => exact .ends hname hcolon herrors hread hcomma
              · next hcomma => exact .goesOn hname hcolon herrors hread hcomma

/-- An array that is read is not longer than what was there. -/
theorem readArray_length_le {readValue : ValueReader}
    (h : readArray readValue s = .returns (some v) s') :
    s'.current_.length ≤ s.current_.length := by
  have hspaces : (skipSpaces s.current_).length ≤ s.current_.length :=
    dropWhile_suffix.length_le
  rw [readArray] at h
  split at h
  · cases h
    exact (readToken_suffix _).length_le.trans hspaces
  · refine Loop.rule (L := readElements readValue)
      (fun x => x.2.current_.length ≤ s.current_.length)
      (Q := fun r => ∀ v s', r = .returns (some v) s' → s'.current_.length ≤ s.current_.length)
      (fun x x' hx hstep => ((readElements readValue).decreases hstep).le.trans hx)
      (fun x r hx hstep v s' hr => ?_) hspaces v s' h
    have hcases := readElements_step readValue x.1 x.2
    rw [hstep, hr] at hcases
    cases hcases with
    | ends hread _ =>
        exact (skipCommentTokens_suffix _).length_le.trans ((readValue.consumes hread).le.trans hx)

/-- Nor is an object. -/
theorem readObject_length_le {readValue : ValueReader}
    (h : readObject readValue s = .returns (some v) s') :
    s'.current_.length ≤ s.current_.length := by
  refine Loop.rule (L := readMembers readValue)
    (fun x => x.2.2.current_.length ≤ s.current_.length)
    (Q := fun r => ∀ v s', r = .returns (some v) s' → s'.current_.length ≤ s.current_.length)
    (fun x x' hx hstep => ((readMembers readValue).decreases hstep).le.trans hx)
    (fun x r hx hstep v s' hr => ?_) le_rfl v s' h
  have hcases := readMembers_step readValue x.1 x.2.1 x.2.2
  rw [hstep, hr] at hcases
  cases hcases with
  | empty _ _ => exact (skipCommentTokens_suffix _).length_le.trans hx
  | ends _ hs _ hread _ =>
      exact (skipCommentTokens_suffix _).length_le.trans
        ((readValue.consumes hread).le.trans (hs.length_le.trans hx))

/-! ### The document -/

/-- The `switch` of `Reader::readValue`, behind the token that is there. -/
def readTokenValue (extractDouble : Bytes → Option Real) (readValue : ValueReader) (s : Reader)
    (token : Token) : Outcome Value :=
  match token.type_ with
  | .tokenObjectBegin => readObject readValue s
  | .tokenArrayBegin => readArray readValue s
  | .tokenNumber => s.decoded token (decodeNumber extractDouble token.text)
  | .tokenString => s.decoded token ((decodeString token.text).map .string)
  | .tokenTrue => .returns (some (.bool true)) s
  | .tokenFalse => .returns (some (.bool false)) s
  | .tokenNull => .returns (some .null) s
  | _ =>
      .returns none (s.addError (ascii "Syntax error: value, object or array expected.") token)

/-- `Reader::readValue`, with what reads the values within. -/
def readValueWith (extractDouble : Bytes → Option Real) (readValue : ValueReader) (s : Reader) :
    Outcome Value :=
  let token := skipCommentTokens s.current_
  readTokenValue extractDouble readValue (s.past token) token

/-- Decoding a token reads nothing more. -/
theorem Reader.decoded_current {x : Except Bytes Value}
    (h : s.decoded token x = .returns (some v) s') : s' = s := by
  cases x with
  | ok value => cases h; rfl
  | error message => cases h

/-- `Reader::readValue`, with the number of calls that `stackLimit_g` allows yet, of which it
takes one. It gives it back when it has read a value; behind a failure no value is read. -/
def readValue (extractDouble : Bytes → Option Real) : ℕ → ValueReader
  | 0 => ⟨fun _ => .throws, nofun⟩
  | depth + 1 =>
      ⟨readValueWith extractDouble (readValue extractDouble depth), fun {s s' v} h => by
        have htoken : (skipCommentTokens s.current_).type_ ≠ .tokenEndOfStream →
            (skipCommentTokens s.current_).end_.length < s.current_.length :=
          skipCommentTokens_length_lt
        rw [readValueWith, readTokenValue] at h
        split at h
        case h_1 htype => exact (readObject_length_le h).trans_lt (htoken (by simp [htype]))
        case h_2 htype => exact (readArray_length_le h).trans_lt (htoken (by simp [htype]))
        case h_3 htype => exact Reader.decoded_current h ▸ htoken (by simp [htype])
        case h_4 htype => exact Reader.decoded_current h ▸ htoken (by simp [htype])
        case h_5 htype => cases h; exact htoken (by simp [htype])
        case h_6 htype => cases h; exact htoken (by simp [htype])
        case h_7 htype => cases h; exact htoken (by simp [htype])
        case h_8 => cases h⟩

/-- `stackLimit_g`: how deep values may lie in one another. -/
def stackLimit_g : ℕ := 1000

/-- `Reader::parse`, of a document. What follows the value is not looked at but for comments. -/
def Reader.parse (extractDouble : Bytes → Option Real) (document : Bytes) : Outcome Value :=
  match (readValue extractDouble stackLimit_g).read ⟨document, []⟩ with
  | .throws => .throws
  | .returns value s => .returns value (s.past (skipCommentTokens s.current_))

/-- `Reader::parse`, of a stream: `getline` reads up to the byte that `EOF` is as a `char`. -/
def Reader.parseStream (extractDouble : Bytes → Option Real) (sin : Bytes) : Outcome Value :=
  Reader.parse extractDouble (sin.takeWhile (· ≠ 0xFF))

end

end AnyServer.Json
