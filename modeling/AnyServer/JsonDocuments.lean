import AnyServer.JsonReader
import AnyServer.JsonTexts

/-!
# Reading JSON Documents

What the reader makes of a whole JSON text. By induction over the text, it returns what the text
stands for and stops behind it, as long as the values do not lie deeper in one another than the
limit allows, and throws if they do. Of the members of one name the last counts. What follows
the value in the document has no effect.

## Main results

* `valueOf_object`: an object has its names in order and the last value of each.
* `readValue_text`: reading the text of a value, within any document.
* `parseStream_text`: reading a file.
-/

namespace AnyServer.Json

open JsonText

section

variable (extractDouble : Bytes → Option Real)

mutual

/-- What a value as it is written stands for; `none` if it has a number that does not decode. -/
def valueOf : Tree → Option Value
  | .null => some .null
  | .bool b => some (.bool b)
  | .number n => numberValue extractDouble n
  | .string s => some (.string (charsBytes s))
  | .emptyArray _ => some (.array [])
  | .array elements => (elementsOf elements).map .array
  | .emptyObject _ => some (.object [])
  | .object members => (membersOf members).map fun l => .object (SortedKeys.ofList l)

/-- The elements of an array, in order. -/
def elementsOf : Elements → Option (List Value)
  | .last _ t _ => (valueOf t).map ([·])
  | .more _ t _ elements => do
      let v ← valueOf t
      let vs ← elementsOf elements
      pure (v :: vs)

/-- The members as they are written, of which the last of a name counts. -/
def membersOf : Members → Option (List (Bytes × Value))
  | .last name _ t _ => (valueOf t).map fun v => [(charsBytes name.chars, v)]
  | .more name _ t _ members => do
      let v ← valueOf t
      let l ← membersOf members
      pure ((charsBytes name.chars, v) :: l)

end

end

section

variable {extractDouble : Bytes → Option Real} {l rest : Bytes} {d : ℕ} {s s₁ : Reader}
  {errors : List ErrorInfo} {v : Value} {elems : List Value} {token : Token}

/-- What an object stands for has its names in order, and the last value of each name. -/
theorem valueOf_object {members : Members} {entries : List (Bytes × Value)}
    (h : membersOf extractDouble members = some entries) :
    ∃ m, valueOf extractDouble (.object members) = some (.object m) ∧ SortedKeys.Sorted m ∧
      ∀ name, m.lookup name = entries.reverse.lookup name :=
  ⟨_, by rw [valueOf, h, Option.map_some], SortedKeys.sorted_ofList, fun _ =>
    SortedKeys.lookup_ofList⟩

/-- Where no comment starts, the token behind the white space is read. -/
theorem skipCommentTokens_text (ws : Ws) (h : (readToken l).type_ ≠ .tokenComment) :
    skipCommentTokens (ws.1 ++ l) = readToken l :=
  (skipCommentTokens_ws ws l).trans (skipCommentTokens_of_ne h)

/-- What a value is depends on what is behind the spaces. -/
theorem readValue_skipSpaces (l : Bytes) : (readValue extractDouble d).read ⟨skipSpaces l, errors⟩ =
    (readValue extractDouble d).read ⟨l, errors⟩ := by
  cases d with
  | zero => rfl
  | succ d =>
      have htoken : skipCommentTokens (skipSpaces l) = skipCommentTokens l :=
        skipCommentTokens_congr (skipSpaces_skipSpaces l)
      simp only [readValue, readValueWith, htoken, Reader.past]

/-! The loop over the elements. -/

section

variable {readValue : ValueReader}

/-- The array throws when one of its values does. -/
theorem readElements_throws (h : readValue.read s = .throws) :
    (readElements readValue).exec (elems, s) = .throws :=
  Loop.exec_of_inr (by simp [readElements, h])

/-- A closing bracket ends the array. -/
theorem readElements_ends (h : readValue.read s = .returns (some v) s₁)
    (htoken : skipCommentTokens s₁.current_ = token) (htype : token.type_ = .tokenArrayEnd) :
    (readElements readValue).exec (elems, s) =
      .returns (some (.array (elems ++ [v]))) (s₁.past token) :=
  Loop.exec_of_inr (by simp [readElements, h, htoken, htype])

/-- A comma goes on with the next value. -/
theorem readElements_goesOn (h : readValue.read s = .returns (some v) s₁)
    (htoken : skipCommentTokens s₁.current_ = token) (htype : token.type_ = .tokenArraySeparator) :
    (readElements readValue).exec (elems, s) =
      (readElements readValue).exec (elems ++ [v], s₁.past token) :=
  Loop.exec_of_inl (by simp [readElements, h, htoken, htype])

end

/-- White space before a value does not matter. -/
theorem readElements_skipSpaces (l : Bytes) :
    (readElements (readValue extractDouble d)).exec (elems, ⟨skipSpaces l, errors⟩) =
      (readElements (readValue extractDouble d)).exec (elems, ⟨l, errors⟩) := by
  have hstep : (readElements (readValue extractDouble d)).step (elems, ⟨skipSpaces l, errors⟩) =
      (readElements (readValue extractDouble d)).step (elems, ⟨l, errors⟩) := by
    simp only [readElements, readValue_skipSpaces]
  rw [Loop.exec_eq, hstep, ← Loop.exec_eq]

/-! The loop over the members, behind a name. -/

section

variable {readValue : ValueReader} {name : Name} {name₀ : Bytes} {members : List (Bytes × Value)}

/-- A member begins with the string of its name. -/
theorem skipCommentTokens_name : skipCommentTokens (name.text ++ l) =
    ⟨.tokenString, stringText name.chars ++ (name.after.1 ++ byte ':' :: l),
      name.after.1 ++ byte ':' :: l⟩ := by
  rw [Name.text]
  simp only [List.append_assoc, List.singleton_append]
  rw [skipCommentTokens_text _ (by rw [readToken_string]; simp), readToken_string]

/-- A colon follows it, after any white space. -/
theorem readToken_colon : readToken (name.after.1 ++ byte ':' :: l) =
    ⟨.tokenMemberSeparator, byte ':' :: l, l⟩ :=
  readToken_ws _ _

/-- The object throws when one of its values does. -/
theorem readMembers_throws (h : readValue.read ⟨l, errors⟩ = .throws) :
    (readMembers readValue).exec (name₀, members, ⟨name.text ++ l, errors⟩) = .throws :=
  Loop.exec_of_inr (by
    simp [readMembers, skipCommentTokens_name, Token.text_append, decodeString_text,
      readToken_colon, Reader.past, h])

/-- A closing brace ends the object. -/
theorem readMembers_ends (h : readValue.read ⟨l, errors⟩ = .returns (some v) s₁)
    (htoken : readToken s₁.current_ = token) (htype : token.type_ = .tokenObjectEnd) :
    (readMembers readValue).exec (name₀, members, ⟨name.text ++ l, errors⟩) =
      .returns (some (.object (SortedKeys.assign members (charsBytes name.chars) v)))
        (s₁.past token) := by
  have hskip : skipCommentTokens s₁.current_ = token :=
    htoken ▸ skipCommentTokens_of_ne (by rw [htoken, htype]; simp)
  exact Loop.exec_of_inr (by
    simp [readMembers, skipCommentTokens_name, Token.text_append, decodeString_text,
      readToken_colon, Reader.past, h, htoken, hskip, htype])

/-- A comma goes on with the next member. -/
theorem readMembers_goesOn (h : readValue.read ⟨l, errors⟩ = .returns (some v) s₁)
    (htoken : readToken s₁.current_ = token) (htype : token.type_ = .tokenArraySeparator) :
    (readMembers readValue).exec (name₀, members, ⟨name.text ++ l, errors⟩) =
      (readMembers readValue).exec (charsBytes name.chars,
        SortedKeys.assign members (charsBytes name.chars) v, s₁.past token) := by
  have hskip : skipCommentTokens s₁.current_ = token :=
    htoken ▸ skipCommentTokens_of_ne (by rw [htoken, htype]; simp)
  exact Loop.exec_of_inl (by
    simp [readMembers, skipCommentTokens_name, Token.text_append, decodeString_text,
      readToken_colon, Reader.past, h, htoken, hskip, htype])

end

/-! The induction over the text. -/

/-- The elements of an array do not start with its end. -/
theorem head?_elements (elements : Elements) :
    (skipSpaces (elements.text ++ rest)).head? ≠ some (byte ']') := by
  have hhead (before : Ws) (t : Tree) (l : Bytes) :
      (skipSpaces (before.1 ++ (t.text ++ l))).head? ≠ some (byte ']') := by
    obtain ⟨c, l', htext, hws, -, hend⟩ := t.text_head
    rw [skipSpaces_ws, htext, List.cons_append, skipSpaces_cons hws]
    exact fun h => hend (Option.some.inj h)
  cases elements with
  | last before t after =>
      simp only [Elements.text, List.append_assoc]
      exact hhead before t _
  | more before t after elements =>
      simp only [Elements.text, List.append_assoc]
      exact hhead before t _

/-- The value, or the exception, by whether the limit allows the depth. -/
def limited (depth limit : ℕ) (v : Value) (s : Reader) : Outcome Value :=
  if depth ≤ limit then .returns (some v) s else .throws

/-- Within the limit of nesting the value is returned. -/
theorem limited_of_le {depth limit : ℕ} (h : depth ≤ limit) :
    limited depth limit v s = .returns (some v) s :=
  if_pos h

/-- Beyond it the reader throws. -/
theorem limited_of_lt {depth limit : ℕ} (h : limit < depth) :
    limited depth limit v s = .throws :=
  if_neg (Nat.not_le.mpr h)

/-- A number ends at a comma, a bracket or a brace, with or without white space before it. -/
theorem numberEnds_after {c : UInt8} (after : Ws) (rest : Bytes)
    (h : c = byte ',' ∨ c = byte ']' ∨ c = byte '}') : NumberEnds (after.1 ++ c :: rest) := by
  refine numberEnds_ws (numberEnds_cons ?_)
  rcases h with rfl | rfl | rfl <;> decide

/-- The value within a pair of brackets or braces. -/
theorem limited_succ {depth limit : ℕ} :
    limited (depth + 1) (limit + 1) v s = limited depth limit v s := by
  simp [limited]

/-- `readValue`, by the token that is there. -/
theorem readValue_token {ws : Ws} {type_ : TokenType} {start_ end_ : Bytes}
    (htoken : readToken l = ⟨type_, start_, end_⟩) (htype : type_ ≠ .tokenComment) :
    (readValue extractDouble (d + 1)).read ⟨ws.1 ++ l, errors⟩ =
      readTokenValue extractDouble (readValue extractDouble d) ⟨end_, errors⟩
        ⟨type_, start_, end_⟩ := by
  have hskip : skipCommentTokens (ws.1 ++ l) = ⟨type_, start_, end_⟩ :=
    htoken ▸ skipCommentTokens_text ws (by rw [htoken]; exact htype)
  simp only [readValue, readValueWith, hskip, Reader.past]

/-- A token that is decoded gives its value. -/
theorem decoded_of_toOption {x : Except Bytes Value} (h : x.toOption = some v) :
    s.decoded token x = .returns (some v) s := by
  cases x with
  | ok value =>
      obtain rfl := Option.some.inj h
      rfl
  | error message => cases h

mutual

/-- **Reading the text of a value.** -/
theorem readValue_text (t : Tree) (d : ℕ) (ws : Ws) {rest : Bytes} (errors : List ErrorInfo)
    {v : Value} (hv : valueOf extractDouble t = some v) (hrest : NumberEnds rest) :
    (readValue extractDouble d).read ⟨ws.1 ++ (t.text ++ rest), errors⟩ =
      limited t.depth d v ⟨rest, errors⟩ := by
  obtain _ | d := d
  · exact (limited_of_lt t.one_le_depth).symm
  · cases t with
    | null =>
        obtain rfl := Option.some.inj hv
        exact (readValue_token readToken_null nofun).trans
          (limited_of_le (Nat.le_add_left 1 d)).symm
    | bool b =>
        obtain rfl := Option.some.inj hv
        cases b with
        | true =>
            exact (readValue_token readToken_true nofun).trans
              (limited_of_le (Nat.le_add_left 1 d)).symm
        | false =>
            exact (readValue_token readToken_false nofun).trans
              (limited_of_le (Nat.le_add_left 1 d)).symm
    | number n =>
        rw [Tree.text, readValue_token (readToken_number n hrest) nofun, Tree.depth,
          limited_of_le (Nat.le_add_left 1 d)]
        refine decoded_of_toOption ?_
        rw [Token.text_append, decodeNumber_text]
        exact hv
    | string s =>
        obtain rfl := Option.some.inj hv
        rw [Tree.text, readValue_token (readToken_string s) nofun, Tree.depth,
          limited_of_le (Nat.le_add_left 1 d)]
        refine decoded_of_toOption ?_
        rw [Token.text_append, decodeString_text]
        rfl
    | emptyArray ws' =>
        obtain rfl := Option.some.inj hv
        have hspaces : skipSpaces (ws'.1 ++ byte ']' :: rest) = byte ']' :: rest :=
          skipSpaces_ws ws' _
        simp only [Tree.text, List.cons_append, List.append_assoc, List.nil_append]
        rw [readValue_token readToken_arrayBegin nofun, Tree.depth,
          limited_of_le (Nat.le_add_left 1 d)]
        dsimp only [readTokenValue]
        rw [readArray, hspaces]
        rfl
    | array elements =>
        obtain ⟨vs, hvs, rfl⟩ := Option.map_eq_some_iff.mp hv
        rw [Tree.text, List.cons_append, readValue_token readToken_arrayBegin nofun]
        dsimp only [readTokenValue]
        rw [readArray, if_neg (head?_elements elements), readElements_skipSpaces,
          readElements_text elements _ _ _ _ hvs, Tree.depth, limited_succ]
        rfl
    | emptyObject ws' =>
        obtain rfl := Option.some.inj hv
        have htoken : skipCommentTokens (ws'.1 ++ byte '}' :: rest) =
            ⟨.tokenObjectEnd, byte '}' :: rest, rest⟩ :=
          skipCommentTokens_text ws' nofun
        simp only [Tree.text, List.cons_append, List.append_assoc, List.nil_append]
        rw [readValue_token readToken_objectBegin nofun, Tree.depth,
          limited_of_le (Nat.le_add_left 1 d)]
        exact Loop.exec_of_inr (by simp [readMembers, htoken, Reader.past])
    | object members =>
        obtain ⟨l, hl, rfl⟩ := Option.map_eq_some_iff.mp hv
        rw [Tree.text, List.cons_append, readValue_token readToken_objectBegin nofun]
        dsimp only [readTokenValue]
        rw [readObject, readMembers_text members _ _ _ _ _ hl, Tree.depth, limited_succ]
        rfl

/-- Reading the elements of an array, up to its end. -/
theorem readElements_text (elements : Elements) (d : ℕ) (rest : Bytes)
    (errors : List ErrorInfo) (elems : List Value) {vs : List Value}
    (hvs : elementsOf extractDouble elements = some vs) :
    (readElements (readValue extractDouble d)).exec (elems, ⟨elements.text ++ rest, errors⟩) =
      limited elements.depth d (.array (elems ++ vs)) ⟨rest, errors⟩ := by
  cases elements with
  | last before t after =>
      obtain ⟨v, hv, rfl⟩ := Option.map_eq_some_iff.mp hvs
      have hread := readValue_text t d before errors hv
        (numberEnds_after after rest (.inr (.inl rfl)))
      have htoken : skipCommentTokens (after.1 ++ byte ']' :: rest) =
          ⟨.tokenArrayEnd, byte ']' :: rest, rest⟩ := skipCommentTokens_text after nofun
      simp only [Elements.text, Elements.depth, List.append_assoc, List.singleton_append]
      by_cases hle : t.depth ≤ d
      · rw [limited_of_le hle] at hread ⊢
        exact readElements_ends hread htoken rfl
      · rw [limited_of_lt (Nat.lt_of_not_le hle)] at hread ⊢
        exact readElements_throws hread
  | more before t after elements =>
      simp only [elementsOf, Option.bind_eq_bind, Option.bind_eq_some_iff] at hvs
      obtain ⟨v, hv, vs, hvs, heq⟩ := hvs
      obtain rfl := Option.some.inj heq
      have hread := readValue_text t d before errors hv
        (numberEnds_after after (elements.text ++ rest) (.inl rfl))
      have htoken : skipCommentTokens (after.1 ++ byte ',' :: (elements.text ++ rest)) =
          ⟨.tokenArraySeparator, byte ',' :: (elements.text ++ rest), elements.text ++ rest⟩ :=
        skipCommentTokens_text after nofun
      simp only [Elements.text, Elements.depth, List.append_assoc, List.cons_append]
      by_cases hle : t.depth ≤ d
      · rw [limited_of_le hle] at hread
        rw [readElements_goesOn hread htoken rfl]
        refine (readElements_text elements d rest errors (elems ++ [v]) hvs).trans ?_
        simp only [limited, List.append_assoc, List.singleton_append, max_le_iff, hle, true_and]
      · rw [limited_of_lt (Nat.lt_of_not_le hle)] at hread
        rw [limited_of_lt (lt_max_of_lt_left (Nat.lt_of_not_le hle))]
        exact readElements_throws hread

/-- Reading the members of an object, up to its end. -/
theorem readMembers_text (members : Members) (d : ℕ) (rest : Bytes)
    (errors : List ErrorInfo) (name : Bytes) (m : List (Bytes × Value)) {l : List (Bytes × Value)}
    (hl : membersOf extractDouble members = some l) :
    (readMembers (readValue extractDouble d)).exec (name, m, ⟨members.text ++ rest, errors⟩) =
      limited members.depth d (.object (SortedKeys.assignAll m l)) ⟨rest, errors⟩ := by
  cases members with
  | last name' before t after =>
      obtain ⟨v, hv, rfl⟩ := Option.map_eq_some_iff.mp hl
      have hread := readValue_text t d before errors hv
        (numberEnds_after after rest (.inr (.inr rfl)))
      have htoken : readToken (after.1 ++ byte '}' :: rest) =
          ⟨.tokenObjectEnd, byte '}' :: rest, rest⟩ := readToken_ws after _
      simp only [Members.text, Members.depth, List.append_assoc, List.singleton_append]
      by_cases hle : t.depth ≤ d
      · rw [limited_of_le hle] at hread ⊢
        exact readMembers_ends hread htoken rfl
      · rw [limited_of_lt (Nat.lt_of_not_le hle)] at hread ⊢
        exact readMembers_throws hread
  | more name' before t after members =>
      simp only [membersOf, Option.bind_eq_bind, Option.bind_eq_some_iff] at hl
      obtain ⟨v, hv, l, hl, heq⟩ := hl
      obtain rfl := Option.some.inj heq
      have hread := readValue_text t d before errors hv
        (numberEnds_after after (members.text ++ rest) (.inl rfl))
      have htoken : readToken (after.1 ++ byte ',' :: (members.text ++ rest)) =
          ⟨.tokenArraySeparator, byte ',' :: (members.text ++ rest), members.text ++ rest⟩ :=
        readToken_ws after _
      simp only [Members.text, Members.depth, List.append_assoc, List.cons_append]
      by_cases hle : t.depth ≤ d
      · rw [limited_of_le hle] at hread
        rw [readMembers_goesOn hread htoken rfl]
        refine (readMembers_text members d rest errors (charsBytes name'.chars)
          (SortedKeys.assign m (charsBytes name'.chars) v) hl).trans ?_
        simp only [limited, SortedKeys.assignAll_cons, max_le_iff, hle, true_and]
      · rw [limited_of_lt (Nat.lt_of_not_le hle)] at hread
        rw [limited_of_lt (lt_max_of_lt_left (Nat.lt_of_not_le hle))]
        exact readMembers_throws hread

end

/-- Parsing a document: a document with the text of a value, and what may follow one, is
read as what the text stands for if its values do not lie deeper in one another than
`stackLimit_g`; if they do, the reader throws. -/
theorem parse_text (extractDouble : Bytes → Option Real) (t : Tree) (ws : Ws) (rest : Bytes)
    (v : Value) (hv : valueOf extractDouble t = some v) (hrest : NumberEnds rest) :
    Reader.parse extractDouble (ws.1 ++ (t.text ++ rest)) =
      if t.depth ≤ stackLimit_g then .returns (some v) ⟨(skipCommentTokens rest).end_, []⟩
      else .throws := by
  rw [Reader.parse, readValue_text t _ _ _ hv hrest]
  by_cases hle : t.depth ≤ stackLimit_g
  · rw [limited_of_le hle, if_pos hle]
    rfl
  · rw [limited_of_lt (Nat.lt_of_not_le hle), if_neg hle]

end

end AnyServer.Json
