import AnyServer.JsonTexts
import AnyServer.JsonReader

/-!
# What the Reader Leaves

Two invariants of `Json::Reader` over every document, each from one step of the loops over
elements and members and by induction on the nesting.

The first is about the errors. A function that returns `true` has added none, and one that
returns `false` has added one, for a token of the document: after a failure no value is read, and
the recovery adds nothing. The second is about the values. The names of an object are in order and
distinct, the integers are in the range of their type, and no value lies deeper than the limit.
A stream is read up to its first byte 0xFF, and no escape sequence makes that byte, so that no
string has it.

## Main results

* `parse_errors`: a document that is not read leaves one error, and one that is read none.
* `parseStream_canonical`: what a value that is read is like.
-/

namespace AnyServer.Json

section

variable {α : Type} {readValue : ValueReader} {s s' s₁ : Reader} {v : Value} {token : Token}
  {l : Bytes}

/-! ### The errors -/

/-- What a call that starts in `s` may do to the place in the document and to the errors. -/
def Outcome.Sound (s : Reader) : Outcome α → Prop
  | .returns (some _) s' => s'.current_ <:+ s.current_ ∧ s'.errors_ = s.errors_
  | .returns none s' =>
      ∃ error, s'.errors_ = s.errors_ ++ [error] ∧ error.token_.start_ <:+ s.current_
  | .throws => True

/-- A call from a place further on. -/
theorem Outcome.Sound.from {r : Outcome α} (hr : r.Sound s₁)
    (hcurrent : s₁.current_ <:+ s.current_) (herrors : s₁.errors_ = s.errors_) : r.Sound s := by
  cases r with
  | throws => exact trivial
  | returns value s' =>
      cases value with
      | some value => exact ⟨hr.1.trans hcurrent, hr.2.trans herrors⟩
      | none =>
          obtain ⟨error, herror, hstart⟩ := hr
          exact ⟨error, herrors ▸ herror, hstart.trans hcurrent⟩

/-- A failure, whatever has been skipped since. -/
theorem Outcome.Sound.fails (hr : (Outcome.returns (none : Option α) s').Sound s)
    (h : s₁.errors_ = s'.errors_) : (Outcome.returns (none : Option α) s₁).Sound s := by
  obtain ⟨error, herror, hstart⟩ := hr
  exact ⟨error, h.trans herror, hstart⟩

/-- A function that reads values, wherever it starts. -/
def ValueReader.Sound (readValue : ValueReader) : Prop :=
  ∀ s, (readValue.read s).Sound s

/-- What a sound reader returns is sound. -/
theorem ValueReader.Sound.of_eq (hsound : readValue.Sound) {r : Outcome Value}
    (h : readValue.read s = r) : r.Sound s :=
  h ▸ hsound s

/-- The loop of an array is sound when the reader of its values is. -/
theorem readElements_sound (hsound : readValue.Sound) (elems : List Value) (s : Reader) :
    ((readElements readValue).exec (elems, s)).Sound s := by
  refine Loop.rule (L := readElements readValue)
    (fun x => x.2.current_ <:+ s.current_ ∧ x.2.errors_ = s.errors_)
    (fun x x' hx hstep => ?_) (fun x r hx hstep => ?_) ⟨List.suffix_refl _, rfl⟩
  all_goals
    have hcases := readElements_step readValue x.1 x.2
    rw [hstep] at hcases
    cases hcases
  case goesOn h _ =>
    obtain ⟨hcurrent, herrors⟩ := (hsound.of_eq h).from hx.1 hx.2
    exact ⟨(skipCommentTokens_suffix _).trans hcurrent, herrors⟩
  case throws => exact trivial
  case failsIn h herrors => exact ((hsound.of_eq h).from hx.1 hx.2).fails herrors
  case fails h herror hstart =>
    obtain ⟨hcurrent, herrors⟩ := (hsound.of_eq h).from hx.1 hx.2
    exact ⟨_, herrors ▸ herror, hstart.trans hcurrent⟩
  case ends h _ =>
    obtain ⟨hcurrent, herrors⟩ := (hsound.of_eq h).from hx.1 hx.2
    exact ⟨(skipCommentTokens_suffix _).trans hcurrent, herrors⟩

/-- So is the whole array. -/
theorem readArray_sound (hsound : readValue.Sound) (s : Reader) :
    (readArray readValue s).Sound s := by
  rw [readArray]
  split
  · exact ⟨(readToken_suffix _).trans dropWhile_suffix, rfl⟩
  · exact (readElements_sound hsound [] _).from dropWhile_suffix rfl

/-- And the object. -/
theorem readObject_sound (hsound : readValue.Sound) (s : Reader) :
    (readObject readValue s).Sound s := by
  refine Loop.rule (L := readMembers readValue)
    (fun x => x.2.2.current_ <:+ s.current_ ∧ x.2.2.errors_ = s.errors_)
    (fun x x' hx hstep => ?_) (fun x r hx hstep => ?_) ⟨List.suffix_refl _, rfl⟩
  all_goals
    have hcases := readMembers_step readValue x.1 x.2.1 x.2.2
    rw [hstep] at hcases
    cases hcases
  case goesOn _ hcurrent herrors h _ =>
    obtain ⟨hcurrent, herrors⟩ :=
      (hsound.of_eq h).from (hcurrent.trans hx.1) (herrors.trans hx.2)
    exact ⟨(skipCommentTokens_suffix _).trans hcurrent, herrors⟩
  case fails herror hstart => exact ⟨_, hx.2 ▸ herror, hstart.trans hx.1⟩
  case empty => exact ⟨(skipCommentTokens_suffix _).trans hx.1, hx.2⟩
  case throws => exact trivial
  case failsIn hcurrent herrors h herrors' =>
    exact ((hsound.of_eq h).from (hcurrent.trans hx.1) (herrors.trans hx.2)).fails herrors'
  case failsBehind hcurrent herrors h herror hstart =>
    obtain ⟨hcurrent, herrors⟩ :=
      (hsound.of_eq h).from (hcurrent.trans hx.1) (herrors.trans hx.2)
    exact ⟨_, herrors ▸ herror, hstart.trans hcurrent⟩
  case ends _ hcurrent herrors h _ =>
    obtain ⟨hcurrent, herrors⟩ :=
      (hsound.of_eq h).from (hcurrent.trans hx.1) (herrors.trans hx.2)
    exact ⟨(skipCommentTokens_suffix _).trans hcurrent, herrors⟩

/-- Decoding a token within the text is sound. -/
theorem decoded_sound {x : Except Bytes α} (hstart : token.start_ <:+ l)
    (hend : token.end_ <:+ l) {errors : List ErrorInfo} :
    (Reader.decoded (Reader.past ⟨l, errors⟩ token) token x).Sound ⟨l, errors⟩ := by
  cases x with
  | ok value => exact ⟨hend, rfl⟩
  | error message => exact ⟨_, rfl, hstart⟩

/-- The reader of values is sound at every depth. -/
theorem readValue_sound (extractDouble : Bytes → Option Real) (d : ℕ) :
    (Json.readValue extractDouble d).Sound := by
  induction d with
  | zero => exact fun s => trivial
  | succ d ih =>
      intro s
      have hstart := skipCommentTokens_start_suffix s.current_
      have hend := skipCommentTokens_suffix s.current_
      change (readValueWith extractDouble (Json.readValue extractDouble d) s).Sound s
      rw [readValueWith, readTokenValue]
      split
      case h_1 => exact (readObject_sound ih _).from hend rfl
      case h_2 => exact (readArray_sound ih _).from hend rfl
      case h_3 => exact decoded_sound hstart hend
      case h_4 => exact decoded_sound hstart hend
      case h_5 => exact ⟨hend, rfl⟩
      case h_6 => exact ⟨hend, rfl⟩
      case h_7 => exact ⟨hend, rfl⟩
      case h_8 => exact ⟨_, rfl, hstart⟩

/-- **One error, or none.** When `parse` returns, it has added no error if there is a value, and
one error, for a token of the document, if there is none. -/
theorem parse_errors (extractDouble : Bytes → Option Real) (document : Bytes)
    (value : Option Value) (s : Reader)
    (h : Reader.parse extractDouble document = .returns value s) :
    (value.isSome → s.errors_ = []) ∧
      (value = none → ∃ error, s.errors_ = [error] ∧ error.token_.start_ <:+ document) := by
  have hsound := readValue_sound extractDouble stackLimit_g ⟨document, []⟩
  rw [Reader.parse] at h
  split at h
  · cases h
  · next value' s' hread =>
    cases h
    rw [hread] at hsound
    cases value with
    | some value => exact ⟨fun _ => hsound.2, nofun⟩
    | none => exact ⟨nofun, fun _ => hsound⟩

/-- A document that is not read, and its error. -/
theorem parse_errors_comma : ∃ error : ErrorInfo,
    [⟨⟨.tokenArrayEnd, ascii "]", []⟩,
      ascii "Syntax error: value, object or array expected."⟩] = [error] ∧
    error.token_.start_ <:+ ascii "[1,]" :=
  (parse_errors (fun _ => none) (ascii "[1,]") none _ rfl).2 rfl

/-! ### The values -/

/-- A value that a file can hold, at most so deep. -/
inductive Value.Canonical (extractDouble : Bytes → Option Real) : ℕ → Value → Prop
  | null {depth} : Canonical extractDouble (depth + 1) .null
  | bool {depth} (b) : Canonical extractDouble (depth + 1) (.bool b)
  | int {depth n} : minLargestInt ≤ n → n ≤ maxInt → Canonical extractDouble (depth + 1) (.int n)
  | uint {depth n} : maxInt < n → n ≤ maxLargestUInt →
      Canonical extractDouble (depth + 1) (.uint n)
  | real {depth text r} : extractDouble text = some r →
      Canonical extractDouble (depth + 1) (.real r)
  | string {depth s} : 0xFF ∉ s → Canonical extractDouble (depth + 1) (.string s)
  | array {depth elems} : (∀ v ∈ elems, Canonical extractDouble depth v) →
      Canonical extractDouble (depth + 1) (.array elems)
  | object {depth members} : SortedKeys.Sorted members → (∀ x ∈ members, 0xFF ∉ x.1) →
      (∀ x ∈ members, Canonical extractDouble depth x.2) →
      Canonical extractDouble (depth + 1) (.object members)

/-- What a text does not hold no suffix of it holds. -/
theorem not_mem_of_suffix {l' : Bytes} (h : 0xFF ∉ l) (hl : l' <:+ l) : 0xFF ∉ l' :=
  fun hmem => h (hl.mem hmem)

/-- No code point is encoded with the byte 0xFF. -/
theorem codePointToUTF8_clean (cp : ℕ) : 0xFF ∉ codePointToUTF8 cp := by
  have htail (x : ℕ) : 0x80 ||| (0x3f &&& x) = x % 0x40 + 0x80 := tag_or_and 2 6 x
  have hlead₂ (x : ℕ) : 0xC0 ||| (0x1f &&& x) = x % 0x20 + 0xC0 := tag_or_and 6 5 x
  have hlead₃ (x : ℕ) : 0xE0 ||| (0xf &&& x) = x % 0x10 + 0xE0 := tag_or_and 14 4 x
  have hlead₄ (x : ℕ) : 0xF0 ||| (0x7 &&& x) = x % 0x08 + 0xF0 := tag_or_and 30 3 x
  have hbyte (n : ℕ) (hn : n < 0xFF) : (0xFF : UInt8) ≠ n.toUInt8 := by
    intro h
    have hnat : 0xFF = n % 256 := congrArg UInt8.toNat h
    omega
  simp only [codePointToUTF8, htail, hlead₂, hlead₃, hlead₄]
  split
  · exact List.not_mem_cons_of_ne_of_not_mem (hbyte _ (by omega)) List.not_mem_nil
  · split
    · simp only [List.mem_cons, List.not_mem_nil, or_false, not_or]
      exact ⟨hbyte _ (by omega), hbyte _ (by omega)⟩
    · split
      · simp only [List.mem_cons, List.not_mem_nil, or_false, not_or]
        exact ⟨hbyte _ (by omega), hbyte _ (by omega), hbyte _ (by omega)⟩
      · split
        · simp only [List.mem_cons, List.not_mem_nil, or_false, not_or]
          exact ⟨hbyte _ (by omega), hbyte _ (by omega), hbyte _ (by omega), hbyte _ (by omega)⟩
        · exact List.not_mem_nil

/-- No escape gives the byte 0xFF. -/
theorem decodeEscape_clean {escape : UInt8} {current : Bytes} {r : Bytes × Bytes}
    (h : decodeEscape escape current = .ok r) : 0xFF ∉ r.1 := by
  rw [decodeEscape] at h
  split at h
  case h_9 =>
    split at h
    · cases h
    · obtain rfl := Except.ok.inj h
      exact codePointToUTF8_clean _
  case h_10 => cases h
  all_goals
    obtain rfl := Except.ok.inj h
    exact of_decide_eq_true rfl

/-- A step that goes on decodes a byte of the text or an escape sequence. -/
theorem decodeChars_goesOn {decoded : Bytes} {x : Bytes × Bytes}
    (h : decodeChars.step (l, decoded) = .inl x) : x.1 <:+ l ∧ ∃ piece, x.2 = decoded ++ piece ∧
      ((∃ c ∈ l, piece = [c]) ∨
        ∃ escape current rest, decodeEscape escape current = .ok (piece, rest)) := by
  rcases l with _ | ⟨c, l⟩
  · cases h
  · dsimp only [decodeChars] at h
    split at h
    · cases h
    · split at h
      · split at h
        · cases h
        · next escape current =>
          split at h
          · cases h
          · next unescaped rest hdecode =>
            obtain rfl := Sum.inl.inj h
            have hrest : rest <:+ current := decodeEscape_suffix hdecode
            exact ⟨hrest.trans ((List.suffix_cons escape current).trans (List.suffix_cons c _)),
              unescaped, rfl, .inr ⟨escape, current, rest, hdecode⟩⟩
      · obtain rfl := Sum.inl.inj h
        exact ⟨List.suffix_cons c l, [c], rfl, .inl ⟨c, List.mem_cons_self, rfl⟩⟩

/-- What has been decoded is the string. -/
theorem decodeChars_ends {decoded decoded' : Bytes}
    (h : decodeChars.step (l, decoded) = .inr (.ok decoded')) : decoded' = decoded := by
  rcases l with _ | ⟨c, l⟩
  · cases h
    rfl
  · dsimp only [decodeChars] at h
    split at h
    · cases h
      rfl
    · split at h
      · split at h
        · cases h
        · split at h <;> cases h
      · cases h

/-- A string has the byte 0xFF only if its text has. -/
theorem decodeString_clean {text decoded : Bytes} (htext : 0xFF ∉ text)
    (h : decodeString text = .ok decoded) : 0xFF ∉ decoded := by
  refine Loop.rule (L := decodeChars) (fun x => 0xFF ∉ x.1 ∧ 0xFF ∉ x.2)
    (Q := fun r => ∀ decoded, r = .ok decoded → 0xFF ∉ decoded) (fun x x' hx hstep => ?_)
    (fun x r hx hstep decoded hr => ?_)
    ⟨fun hmem => htext (List.mem_of_mem_drop (List.mem_of_mem_dropLast hmem)), List.not_mem_nil⟩
    decoded h
  · obtain ⟨hsuffix, piece, heq, hpiece⟩ := decodeChars_goesOn hstep
    have hclean : 0xFF ∉ piece := by
      rcases hpiece with ⟨c, hc, rfl⟩ | ⟨escape, current, rest, hdecode⟩
      · exact fun hmem => hx.1 (List.mem_singleton.mp hmem ▸ hc)
      · exact decodeEscape_clean hdecode
    refine ⟨not_mem_of_suffix hx.1 hsuffix, ?_⟩
    rw [heq]
    exact fun hmem => (List.mem_append.mp hmem).elim hx.2 hclean
  · exact decodeChars_ends (hr ▸ hstep) ▸ hx.2

/-- What the digits come to is not above the largest integer. -/
theorem decodeDigits_le {max value n : ℕ} (hvalue : value ≤ max)
    (h : decodeDigits max l value = some n) : n ≤ max := by
  induction l generalizing value with
  | nil =>
      obtain rfl := Option.some.inj h
      exact hvalue
  | cons c l ih =>
      rw [decodeDigits] at h
      split at h
      · next hdigit =>
        have hc : c.toNat - '0'.toNat ≤ 9 := by
          have hle : c.toNat ≤ 57 := UInt8.le_iff_toNat_le.mp (of_decide_eq_true hdigit).2
          have hzero : '0'.toNat = 48 := rfl
          omega
        dsimp only at h
        split at h
        · cases h
        · exact ih (by omega) h
      · cases h

/-- A number that is decoded is in its canonical form. -/
theorem decodeNumber_canonical {extractDouble : Bytes → Option Real} {text : Bytes} {d : ℕ}
    (h : decodeNumber extractDouble text = .ok v) : v.Canonical extractDouble (d + 1) := by
  rw [decodeNumber] at h
  split at h
  · rw [decodeDouble] at h
    split at h
    · cases h
    · next value hreal =>
      obtain rfl := Except.ok.inj h
      exact .real hreal
  · next value hdigits =>
    have hle := decodeDigits_le (Nat.zero_le _) hdigits
    cases hneg : decide (text.head? = some (byte '-')) with
    | true =>
        simp only [hneg, if_true, true_and, maxLargestInt] at h hle
        split at h
        · obtain rfl := Except.ok.inj h
          exact .int le_rfl (by decide)
        · obtain rfl := Except.ok.inj h
          refine .int ?_ ?_
          · unfold minLargestInt; omega
          · unfold maxInt; omega
    | false =>
        simp only [hneg, Bool.false_eq_true, if_false, false_and] at h hle
        split at h
        · next hmax =>
          obtain rfl := Except.ok.inj h
          refine .int ?_ ?_
          · unfold minLargestInt; omega
          · exact Int.ofNat_le.mpr hmax
        · next hmax =>
          obtain rfl := Except.ok.inj h
          exact .uint (Nat.lt_of_not_le hmax) hle

/-- A function that reads canonical values where the byte 0xFF is not. -/
def ValueReader.ReadsCanonical (extractDouble : Bytes → Option Real) (depth : ℕ)
    (readValue : ValueReader) : Prop :=
  ∀ {s s' v}, 0xFF ∉ s.current_ → readValue.read s = .returns (some v) s' →
    v.Canonical extractDouble depth

section

variable {extractDouble : Bytes → Option Real} {depth : ℕ}

/-- An array of canonical values is canonical. -/
theorem readArray_canonical (hsound : readValue.Sound)
    (hcanonical : readValue.ReadsCanonical extractDouble depth) (hs : 0xFF ∉ s.current_)
    (h : readArray readValue s = .returns (some v) s') :
    v.Canonical extractDouble (depth + 1) := by
  rw [readArray] at h
  split at h
  · cases h
    exact .array nofun
  · refine Loop.rule (L := readElements readValue)
      (fun x => 0xFF ∉ x.2.current_ ∧ ∀ v ∈ x.1, v.Canonical extractDouble depth)
      (Q := fun r => ∀ v s', r = .returns (some v) s' → v.Canonical extractDouble (depth + 1))
      (fun x x' hx hstep => ?_) (fun x r hx hstep v s' hr => ?_)
      ⟨not_mem_of_suffix hs dropWhile_suffix, List.forall_mem_nil _⟩ v s' h
    · have hcases := readElements_step readValue x.1 x.2
      rw [hstep] at hcases
      cases hcases with
      | goesOn hread _ =>
          refine ⟨not_mem_of_suffix hx.1 ((skipCommentTokens_suffix _).trans
            (hsound.of_eq hread).1), fun v hv => ?_⟩
          rcases List.mem_append.mp hv with hv | hv
          · exact hx.2 v hv
          · exact List.mem_singleton.mp hv ▸ hcanonical hx.1 hread
    · have hcases := readElements_step readValue x.1 x.2
      rw [hstep, hr] at hcases
      cases hcases with
      | ends hread _ =>
          refine .array fun v hv => ?_
          rcases List.mem_append.mp hv with hv | hv
          · exact hx.2 v hv
          · exact List.mem_singleton.mp hv ▸ hcanonical hx.1 hread

/-- The members are in order, and names and values are what a file can hold. -/
def CanonicalMembers (extractDouble : Bytes → Option Real) (depth : ℕ)
    (members : List (Bytes × Value)) : Prop :=
  SortedKeys.Sorted members ∧ (∀ x ∈ members, 0xFF ∉ x.1) ∧
    ∀ x ∈ members, x.2.Canonical extractDouble depth

/-- Assigning a canonical value to a clean name keeps the members canonical. -/
theorem CanonicalMembers.assign {members : List (Bytes × Value)} {name : Bytes}
    (h : CanonicalMembers extractDouble depth members) (hname : 0xFF ∉ name)
    (hv : v.Canonical extractDouble depth) :
    CanonicalMembers extractDouble depth (SortedKeys.assign members name v) := by
  refine ⟨SortedKeys.sorted_assign h.1, fun x hx => ?_, fun x hx => ?_⟩
  · rcases SortedKeys.mem_assign hx with rfl | hx
    · exact hname
    · exact h.2.1 x hx
  · rcases SortedKeys.mem_assign hx with rfl | hx
    · exact hv
    · exact h.2.2 x hx

/-- The text of a token holds no byte that the whole text does not hold. -/
theorem token_text_clean (hs : 0xFF ∉ l) (hstart : token.start_ <:+ l) : 0xFF ∉ token.text :=
  fun hmem => hs (hstart.mem (List.mem_of_mem_take hmem))

/-- An object of canonical values is canonical. -/
theorem readObject_canonical (hsound : readValue.Sound)
    (hcanonical : readValue.ReadsCanonical extractDouble depth) (hs : 0xFF ∉ s.current_)
    (h : readObject readValue s = .returns (some v) s') :
    v.Canonical extractDouble (depth + 1) := by
  refine Loop.rule (L := readMembers readValue)
    (fun x => 0xFF ∉ x.2.2.current_ ∧ CanonicalMembers extractDouble depth x.2.1)
    (Q := fun r => ∀ v s', r = .returns (some v) s' → v.Canonical extractDouble (depth + 1))
    (fun x x' hx hstep => ?_) (fun x r hx hstep v s' hr => ?_)
    ⟨hs, SortedKeys.sorted_nil, List.forall_mem_nil _, List.forall_mem_nil _⟩ v s' h
  · have hcases := readMembers_step readValue x.1 x.2.1 x.2.2
    have htoken := token_text_clean hx.1 (skipCommentTokens_start_suffix _)
    rw [hstep] at hcases
    cases hcases with
    | goesOn hname hcurrent _ hread _ =>
        have hs₁ := not_mem_of_suffix hx.1 hcurrent
        refine ⟨not_mem_of_suffix hs₁ ((skipCommentTokens_suffix _).trans
          (hsound.of_eq hread).1), ?_⟩
        exact hx.2.assign (decodeString_clean htoken hname) (hcanonical hs₁ hread)
  · have hcases := readMembers_step readValue x.1 x.2.1 x.2.2
    have htoken := token_text_clean hx.1 (skipCommentTokens_start_suffix _)
    rw [hstep, hr] at hcases
    cases hcases with
    | empty _ _ => exact .object hx.2.1 hx.2.2.1 hx.2.2.2
    | ends hname hcurrent _ hread _ =>
        have hs₁ := not_mem_of_suffix hx.1 hcurrent
        obtain ⟨hsorted, hnames, hvalues⟩ :=
          hx.2.assign (decodeString_clean htoken hname) (hcanonical hs₁ hread)
        exact .object hsorted hnames hvalues

/-- Every value that is read is in its canonical form. -/
theorem readValue_canonical (extractDouble : Bytes → Option Real) (depth : ℕ) :
    (Json.readValue extractDouble depth).ReadsCanonical extractDouble depth := by
  induction depth with
  | zero => intro s s' v hs h; cases h
  | succ depth ih =>
      intro s s' v hs h
      have htoken := token_text_clean hs (skipCommentTokens_start_suffix s.current_)
      have hend := not_mem_of_suffix hs (skipCommentTokens_suffix s.current_)
      have hsound := readValue_sound extractDouble depth
      change readValueWith extractDouble (Json.readValue extractDouble depth) s = _ at h
      rw [readValueWith, readTokenValue] at h
      split at h
      case h_1 => exact readObject_canonical hsound ih hend h
      case h_2 => exact readArray_canonical hsound ih hend h
      case h_3 =>
        cases hdecode : decodeNumber extractDouble (skipCommentTokens s.current_).text with
        | ok value =>
            rw [hdecode] at h
            cases h
            exact decodeNumber_canonical hdecode
        | error message => rw [hdecode] at h; cases h
      case h_4 =>
        cases hdecode : decodeString (skipCommentTokens s.current_).text with
        | ok decoded =>
            rw [hdecode] at h
            cases h
            exact .string (decodeString_clean htoken hdecode)
        | error message => rw [hdecode] at h; cases h
      case h_5 => cases h; exact .bool true
      case h_6 => cases h; exact .bool false
      case h_7 => cases h; exact .null
      case h_8 => cases h

/-- What a file can hold: whatever the bytes of a stream, a value that is read from it has
its names in order, its integers in range, no string with the byte 0xFF, and lies no deeper than
the limit. -/
theorem parseStream_canonical (extractDouble : Bytes → Option Real) (sin : Bytes) (v : Value)
    (s : Reader) (h : Reader.parseStream extractDouble sin = .returns (some v) s) :
    v.Canonical extractDouble stackLimit_g := by
  have hclean : 0xFF ∉ sin.takeWhile (· ≠ 0xFF) := fun hmem => by
    simpa using List.mem_takeWhile_imp hmem
  rw [Reader.parseStream, Reader.parse] at h
  split at h
  · cases h
  · next value s' hread =>
    cases h
    exact readValue_canonical extractDouble stackLimit_g hclean hread

end

end

end AnyServer.Json
