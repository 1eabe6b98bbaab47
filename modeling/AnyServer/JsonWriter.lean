import AnyServer.JsonDocuments
import AnyServer.JsonValues

/-!
# The Writer of jsoncpp

`Json::FastWriter`, as it is constructed, which writes a `Json::Value` in one line, and what the
reader makes of its text. A double is written as `asString` converts it.

What is written is the text of a value, in which every string has the escape sequences that it
needs and no others, so that reading it back follows from the reading of texts. The value that
comes back is the one that was written but for the type of integers: the reader takes those up
to `maxInt` for signed and those above it for unsigned. A value that has been read from a file
comes back as it is.

## Main results

* `uintToString_text`: a number is written with the digits that it has.
* `valueToQuotedStringN_text`: a string is written with the characters that it has.
* `parse_write`: what is written and read.
* `parseStream_write`: what is read, written and read again.
* `parseStream_iff`: the values that files hold.
-/

namespace AnyServer.Json

open JsonText

/-! ### Numbers and strings -/

/-- The loop of `uintToString`, on what is left of the number and the buffer so far. -/
def uintToStringLoop : Loop (ℕ × Bytes) Bytes where
  step
    | (value, current) =>
        let current := (value % 10 + '0'.toNat).toUInt8 :: current
        let value := value / 10
        if value ≠ 0 then .inl (value, current) else .inr current
  measure := Prod.fst
  decreases {s s'} h := by
    obtain ⟨value, current⟩ := s
    dsimp only at h
    split at h
    · next hne =>
      obtain rfl := Sum.inl.inj h
      exact Nat.div_lt_self (Nat.pos_of_ne_zero fun hzero => hne (by simp [hzero])) (by decide)
    · cases h

/-- `uintToString`, which fills a buffer from its end. -/
def uintToString (value : ℕ) : Bytes :=
  uintToStringLoop.exec (value, [])

/-- `valueToString` of a `LargestInt`. -/
def valueToString (value : ℤ) : Bytes :=
  if value = minLargestInt then byte '-' :: uintToString (maxLargestInt + 1)
  else if value < 0 then byte '-' :: uintToString (-value).toNat
  else uintToString value.toNat

/-- `isControlCharacter`. -/
def isControlCharacter (c : UInt8) : Bool :=
  0 < c ∧ c ≤ 0x1F

/-- `containsControlCharacter0`. -/
def containsControlCharacter0 (value : Bytes) : Bool :=
  value.any fun c => isControlCharacter c || c = 0

/-- An upper-case hexadecimal digit. -/
def hexUpper (n : ℕ) : UInt8 :=
  if n < 10 then ('0'.toNat + n).toUInt8 else ('A'.toNat + (n - 10)).toUInt8

/-- What a stream writes for a number with `hex`, `uppercase` and a width of four zeros. -/
def hex4 (n : ℕ) : Bytes :=
  [hexUpper (n / 0x1000 % 16), hexUpper (n / 0x100 % 16), hexUpper (n / 0x10 % 16),
    hexUpper (n % 16)]

/-- One round of the loop of `valueToQuotedStringN`. -/
def quoteChar (c : UInt8) : Bytes :=
  if c = byte '"' then ascii "\\\""
  else if c = byte '\\' then ascii "\\\\"
  else if c = 0x08 then ascii "\\b"
  else if c = 0x0C then ascii "\\f"
  else if c = byte '\n' then ascii "\\n"
  else if c = byte '\r' then ascii "\\r"
  else if c = byte '\t' then ascii "\\t"
  else if isControlCharacter c ∨ c = 0 then ascii "\\u" ++ hex4 c.toNat
  else [c]

/-- The characters that `valueToQuotedStringN` looks for with `strnpbrk`. -/
def toEscape : Bytes :=
  [byte '"', byte '\\', 0x08, 0x0C, byte '\n', byte '\r', byte '\t']

/-- `valueToQuotedStringN`. -/
def valueToQuotedStringN (value : Bytes) : Bytes :=
  if value.all (fun c => c ∉ toEscape) ∧ containsControlCharacter0 value = false then
    byte '"' :: (value ++ [byte '"'])
  else byte '"' :: (value.flatMap quoteChar ++ [byte '"'])

/-! ### Values -/

mutual

/-- `FastWriter::writeValue`. -/
def writeValue : Value → Bytes
  | .null => ascii "null"
  | .int n => valueToString n
  | .uint n => uintToString n
  | .real r => r.asString
  | .string s => valueToQuotedStringN s
  | .bool b => if b then ascii "true" else ascii "false"
  | .array elems => byte '[' :: (writeElements true elems ++ [byte ']'])
  | .object members => byte '{' :: (writeMembers true members ++ [byte '}'])

/-- The elements, with a comma before each but the first. -/
def writeElements (first : Bool) : List Value → Bytes
  | [] => []
  | value :: elems =>
      (if first then [] else [byte ',']) ++ (writeValue value ++ writeElements false elems)

/-- The members, with a comma before each but the first. -/
def writeMembers (first : Bool) : List (Bytes × Value) → Bytes
  | [] => []
  | (name, value) :: members =>
      (if first then [] else [byte ',']) ++ (valueToQuotedStringN name ++
        (byte ':' :: (writeValue value ++ writeMembers false members)))

end

/-- `FastWriter::write`. -/
def FastWriter.write (root : Value) : Bytes :=
  writeValue root ++ [byte '\n']

/-! ### The text of what is written -/

section

variable {c : UInt8} {n : ℕ} {s : Bytes}

/-- **A number is written with its digits.** -/
theorem uintToString_text (n : ℕ) : ∃ ds : Digits, ds.text = uintToString n ∧ ds.value = n := by
  refine Loop.rule (L := uintToStringLoop)
    (fun x => ∃ ds : List Digit, ds.map Digit.byte = x.2 ∧ ds.foldl appendDigit x.1 = n)
    (Q := fun r => ∃ ds : Digits, ds.text = r ∧ ds.value = n)
    (fun x x' hx hstep => ?_) (fun x r hx hstep => ?_) ⟨[], rfl, rfl⟩
  all_goals
    obtain ⟨value, current⟩ := x
    obtain ⟨ds, hds, hvalue⟩ := hx
    have hdigit : Digit.byte ⟨value % 10, Nat.mod_lt _ (by decide)⟩ =
        (value % 10 + '0'.toNat).toUInt8 := by rw [Digit.byte, Nat.add_comm]
    dsimp only [uintToStringLoop] at hstep
    split at hstep
  · obtain rfl := Sum.inl.inj hstep
    refine ⟨⟨value % 10, Nat.mod_lt _ (by decide)⟩ :: ds, ?_, ?_⟩
    · rw [List.map_cons, hdigit, hds]
    · rw [List.foldl_cons, appendDigit, Nat.div_add_mod']
      exact hvalue
  · cases hstep
  · cases hstep
  · next hzero =>
    obtain rfl := Sum.inr.inj hstep
    refine ⟨⟨⟨value % 10, Nat.mod_lt _ (by decide)⟩ :: ds, List.cons_ne_nil _ _⟩, ?_, ?_⟩
    · rw [Digits.text, List.map_cons, hdigit, hds]
    · have hmod : value % 10 = value := by omega
      rw [Digits.value, List.foldl_cons, appendDigit, Nat.zero_mul, Nat.zero_add]
      simpa only [hmod] using hvalue

/-- A decimal digit has the byte the writer computes for it. -/
theorem digitChar_byte {d : ℕ} (h : d < 10) :
    (Nat.digitChar d).toNat.toUInt8 = (d + '0'.toNat).toUInt8 := by
  have hall : ∀ d : Fin 10, (Nat.digitChar d).toNat.toUInt8 = (d.1 + '0'.toNat).toUInt8 := by
    decide
  exact hall ⟨d, h⟩

/-- The loop puts the decimal digits in front of what it has. -/
theorem uintToStringLoop_exec (n : ℕ) (current : Bytes) : uintToStringLoop.exec (n, current) =
    (Nat.toDigits 10 n).map (fun c => c.toNat.toUInt8) ++ current := by
  induction n using Nat.strongRecOn generalizing current with
  | ind n ih =>
      have hlast : (Nat.digitChar (n % 10)).toNat.toUInt8 = (n % 10 + '0'.toNat).toUInt8 :=
        digitChar_byte (Nat.mod_lt n (by decide))
      rw [Nat.toDigits_eq_if (by decide)]
      split
      · next hlt =>
        rw [Loop.exec_of_inr (if_neg (by omega : ¬n / 10 ≠ 0)), ← hlast, Nat.mod_eq_of_lt hlt]
        rfl
      · next hge =>
        rw [Loop.exec_of_inl (if_pos (by omega : n / 10 ≠ 0)), ih (n / 10) (by omega),
          List.map_append, List.append_assoc, ← hlast]
        rfl

/-- `uintToString` writes a number in decimal. -/
theorem uintToString_eq (n : ℕ) : uintToString n = ascii (toString n) := by
  rw [uintToString, uintToStringLoop_exec, List.append_nil, ascii]
  exact congrArg _ Nat.toList_repr.symm

/-- `asString` of an integer is what `valueToString` makes of it. -/
theorem valueToString_eq (n : ℤ) : valueToString n = ascii (toString n) := by
  have hminus (s : String) : ascii ("-" ++ s) = byte '-' :: ascii s := by
    rw [ascii, String.toList_append]
    rfl
  rw [valueToString, Int.toString_eq_repr, Int.repr_eq_if]
  by_cases hneg : 0 ≤ n
  · rw [if_neg (by unfold minLargestInt; omega), if_neg (by omega), if_pos hneg]
    exact uintToString_eq n.toNat
  · rw [if_neg hneg, hminus]
    split
    · next h => rw [h]; exact congrArg _ (uintToString_eq _)
    · rw [if_pos (by omega)]
      exact congrArg _ (uintToString_eq _)

/-- The escape sequence of a control character. -/
def controlUnit (n : Fin 32) : CodeUnit :=
  ⟨.ofNat 0 true, .ofNat 0 true, .ofNat (n / 16) true, .ofNat n true⟩

/-- The escape of a control character is its four hexadecimal digits. -/
theorem controlUnit_text (n : Fin 32) : (controlUnit n).text = ascii "\\u" ++ hex4 n := by
  revert n
  decide

/-- It stands for this character. -/
theorem controlUnit_value (n : Fin 32) : (controlUnit n).value = n := by
  revert n
  decide

/-- In UTF-8 a control character is its own byte. -/
theorem utf8EncodeChar_control (n : Fin 32) :
    String.utf8EncodeChar (Char.ofNat n) = [n.1.toUInt8] := by
  revert n
  decide

/-- What is written for a byte is a character that stands for the byte. -/
theorem quoteChar_text (c : UInt8) : ∃ x : StringChar, x.text = quoteChar c ∧ x.bytes = [c] := by
  rw [quoteChar]
  split
  · next h => exact ⟨.escaped .quote, rfl, by rw [h]; rfl⟩
  · next hquote =>
    split
    · next h => exact ⟨.escaped .backslash, rfl, by rw [h]; rfl⟩
    · next hbackslash =>
      split
      · next h => exact ⟨.escaped .b, rfl, by rw [h]; rfl⟩
      · split
        · next h => exact ⟨.escaped .f, rfl, by rw [h]; rfl⟩
        · split
          · next h => exact ⟨.escaped .n, rfl, by rw [h]; rfl⟩
          · split
            · next h => exact ⟨.escaped .r, rfl, by rw [h]; rfl⟩
            · split
              · next h => exact ⟨.escaped .t, rfl, by rw [h]; rfl⟩
              · split
                · next h =>
                  have hlt : c.toNat < 32 := by
                    rcases h with h | rfl
                    · have hle : c.toNat ≤ 31 :=
                        UInt8.le_iff_toNat_le.mp (of_decide_eq_true h).2
                      omega
                    · decide
                  have hunit := controlUnit_value ⟨c.toNat, hlt⟩
                  refine ⟨.unicode (controlUnit ⟨c.toNat, hlt⟩) ?_, controlUnit_text _, ?_⟩
                  · unfold CodeUnit.IsHigh CodeUnit.IsLow
                    rw [hunit]
                    omega
                  · rw [StringChar.bytes, hunit, utf8EncodeChar_control]
                    simp
                · next h =>
                  refine ⟨.unescaped c ⟨?_, hquote, hbackslash⟩, rfl, rfl⟩
                  rw [isControlCharacter, decide_eq_true_eq, not_or, not_and_or] at h
                  obtain ⟨hcontrol | hcontrol, hzero⟩ := h
                  · exact absurd (UInt8.pos_iff_ne_zero.mpr hzero) hcontrol
                  · rw [UInt8.not_le] at hcontrol
                    exact UInt8.le_iff_toNat_le.mpr (UInt8.lt_iff_toNat_lt.mp hcontrol)

/-- A byte that needs no escape is written as it is. -/
theorem quoteChar_plain (hescape : c ∉ toEscape)
    (hcontrol : (isControlCharacter c || c = 0) = false) : quoteChar c = [c] := by
  simp only [toEscape, List.mem_cons, List.not_mem_nil, or_false, not_or] at hescape
  obtain ⟨h₁, h₂, h₃, h₄, h₅, h₆, h₇⟩ := hescape
  have hnot : ¬(isControlCharacter c ∨ c = 0) := by simpa using hcontrol
  rw [quoteChar, if_neg h₁, if_neg h₂, if_neg h₃, if_neg h₄, if_neg h₅, if_neg h₆, if_neg h₇,
    if_neg hnot]

/-- Where no character has to be escaped, escaping changes nothing. -/
theorem valueToQuotedStringN_eq (value : Bytes) :
    valueToQuotedStringN value = byte '"' :: (value.flatMap quoteChar ++ [byte '"']) := by
  rw [valueToQuotedStringN]
  split
  · next h =>
    have hplain : value.flatMap quoteChar = value.flatMap fun c => [c] := by
      refine List.flatMap_congr fun c hc => quoteChar_plain ?_ ?_
      · simpa using List.all_eq_true.mp h.1 c hc
      · exact (List.any_eq_false.mp h.2 c hc : ¬_) |> Bool.eq_false_iff.mpr
    rw [hplain, List.flatMap_singleton']
  · rfl

/-- **A string is written with its characters.** -/
theorem valueToQuotedStringN_text (value : Bytes) : ∃ s : List StringChar,
    stringText s = valueToQuotedStringN value ∧ charsBytes s = value := by
  have hchars : ∃ s : List StringChar,
      charsText s = value.flatMap quoteChar ∧ charsBytes s = value := by
    induction value with
    | nil => exact ⟨[], rfl, rfl⟩
    | cons c value ih =>
        obtain ⟨s, htext, hbytes⟩ := ih
        obtain ⟨x, hx, hc⟩ := quoteChar_text c
        refine ⟨x :: s, ?_, ?_⟩
        · rw [charsText, List.flatMap_cons, hx, ← charsText, htext, List.flatMap_cons]
        · rw [charsBytes, List.flatMap_cons, hc, ← charsBytes, hbytes, List.singleton_append]
  obtain ⟨s, htext, hbytes⟩ := hchars
  exact ⟨s, by rw [stringText, htext, valueToQuotedStringN_eq], hbytes⟩

end

/-! ### What comes back -/

/-- The integer as the reader takes it: unsigned above `maxInt`. -/
def canonicalInt (n : ℤ) : Value :=
  if n ≤ maxInt then .int n else .uint n.toNat

mutual

/-- The value with its integers as the reader takes them. -/
def Value.canonical : Value → Value
  | .null => .null
  | .bool b => .bool b
  | .int n => canonicalInt n
  | .uint n => canonicalInt n
  | .real r => .real r
  | .string s => .string s
  | .array elems => .array (canonicalElems elems)
  | .object members => .object (canonicalMembers members)

/-- The elements with their integers as the reader takes them. -/
def canonicalElems : List Value → List Value
  | [] => []
  | v :: elems => v.canonical :: canonicalElems elems

/-- The members with their integers as the reader takes them. -/
def canonicalMembers : List (Bytes × Value) → List (Bytes × Value)
  | [] => []
  | (name, v) :: members => (name, v.canonical) :: canonicalMembers members

end

mutual

/-- How deep values lie in one another. -/
def Value.depth : Value → ℕ
  | .null => 1
  | .bool _ => 1
  | .int _ => 1
  | .uint _ => 1
  | .real _ => 1
  | .string _ => 1
  | .array elems => depthElems elems + 1
  | .object members => depthMembers members + 1

/-- How deep the deepest element lies. -/
def depthElems : List Value → ℕ
  | [] => 0
  | v :: elems => max v.depth (depthElems elems)

/-- How deep the deepest member lies. -/
def depthMembers : List (Bytes × Value) → ℕ
  | [] => 0
  | (_, v) :: members => max v.depth (depthMembers members)

end

/-- A value without doubles, with integers in the ranges of their types, names in order, and
names and strings of which `P` holds. -/
inductive Value.Plain (P : Bytes → Prop) : Value → Prop
  | null : Plain P .null
  | bool (b : Bool) : Plain P (.bool b)
  | int {n} : minLargestInt ≤ n → n ≤ maxLargestInt → Plain P (.int n)
  | uint {n} : n ≤ maxLargestUInt → Plain P (.uint n)
  | string {s} : P s → Plain P (.string s)
  | array {elems} : (∀ v ∈ elems, Plain P v) → Plain P (.array elems)
  | object {members} : SortedKeys.Sorted members → (∀ x ∈ members, P x.1) →
      (∀ x ∈ members, Plain P x.2) → Plain P (.object members)

section

variable {extractDouble : Bytes → Option Real} {P : Bytes → Prop} {v : Value}

/-- The tree of an integer. -/
def intTree (negative : Bool) (ds : Digits) : Tree :=
  .number ⟨negative, ds, none, none⟩

/-- `valueToString` writes a number of the grammar with its value. -/
theorem valueToString_text (n : ℤ) : ∃ ds : Digits,
    (intTree (n < 0) ds).text = valueToString n ∧ ds.value = n.natAbs := by
  rw [valueToString]
  split
  · next h =>
    obtain ⟨ds, htext, hvalue⟩ := uintToString_text (maxLargestInt + 1)
    refine ⟨ds, ?_, by rw [hvalue, h]; rfl⟩
    rw [h, ← htext]
    exact congrArg (byte '-' :: ·) (List.append_nil ds.text)
  · split
    · next hneg =>
      obtain ⟨ds, htext, hvalue⟩ := uintToString_text (-n).toNat
      refine ⟨ds, ?_, by rw [hvalue]; omega⟩
      rw [← htext, decide_eq_true hneg]
      exact congrArg (byte '-' :: ·) (List.append_nil ds.text)
    · next hneg =>
      obtain ⟨ds, htext, hvalue⟩ := uintToString_text n.toNat
      refine ⟨ds, ?_, by rw [hvalue]; omega⟩
      rw [← htext, decide_eq_false hneg]
      exact List.append_nil ds.text

/-- What the digits of an integer are read as. -/
theorem valueOf_intTree {ds : Digits} {n : ℤ} (hmin : minLargestInt ≤ n)
    (hmax : n ≤ maxLargestUInt) (hvalue : ds.value = n.natAbs) :
    valueOf extractDouble (intTree (n < 0) ds) = some (canonicalInt n) := by
  rw [intTree, valueOf, numberValue, if_neg (by simp), canonicalInt]
  unfold minLargestInt at hmin
  by_cases hneg : n < 0
  · have hle : ds.value ≤ maxLargestInt + 1 := by unfold maxLargestInt; omega
    have hint : n ≤ maxInt := by unfold maxInt; omega
    have hnat : -(ds.value : ℤ) = n := by omega
    simp only [decide_eq_true hneg, if_true, if_pos hle, if_pos hint, hnat]
  · have hnat : (ds.value : ℤ) = n := by omega
    have hle : ds.value ≤ maxLargestUInt := by omega
    simp only [decide_eq_false hneg, Bool.false_eq_true, if_false, if_pos hle]
    by_cases hint : n ≤ maxInt
    · rw [if_pos hint, if_pos (by omega), hnat]
    · rw [if_neg hint, if_neg (by omega), ← hnat, Int.toNat_natCast]

/-- A tree whose text is what is written for a value, and which stands for it. -/
def IsTreeOf (extractDouble : Bytes → Option Real) (v : Value) (t : Tree) : Prop :=
  t.text = writeValue v ∧ t.depth = v.depth ∧ valueOf extractDouble t = some v.canonical

/-- The elements of an array are written as elements of the grammar. -/
theorem exists_elements {elems : List Value}
    (h : ∀ v' ∈ v :: elems, ∃ t, IsTreeOf extractDouble v' t) : ∃ es : Elements,
      es.text = writeElements true (v :: elems) ++ [byte ']'] ∧
      es.depth = depthElems (v :: elems) ∧
      elementsOf extractDouble es = some (canonicalElems (v :: elems)) := by
  induction elems generalizing v with
  | nil =>
      obtain ⟨t, htext, hdepth, hvalue⟩ := h v List.mem_cons_self
      refine ⟨.last .none t .none, ?_, ?_, ?_⟩
      · simp [Elements.text, Ws.none, writeElements, htext]
      · simp [Elements.depth, depthElems, hdepth]
      · rw [elementsOf, hvalue]
        rfl
  | cons v' elems ih =>
      obtain ⟨t, htext, hdepth, hvalue⟩ := h v List.mem_cons_self
      obtain ⟨es, hes, hdepths, hvalues⟩ := ih fun w hw => h w (List.mem_cons_of_mem v hw)
      refine ⟨.more .none t .none es, ?_, ?_, ?_⟩
      · rw [Elements.text, htext, hes]
        simp [Ws.none, writeElements]
      · rw [Elements.depth, hdepth, hdepths]
        rfl
      · rw [elementsOf, hvalue, hvalues]
        rfl

/-- The members of an object are written as members of the grammar. -/
theorem exists_members {name : Bytes} {members : List (Bytes × Value)}
    (h : ∀ x ∈ (name, v) :: members, ∃ t, IsTreeOf extractDouble x.2 t) : ∃ ms : Members,
      ms.text = writeMembers true ((name, v) :: members) ++ [byte '}'] ∧
      ms.depth = depthMembers ((name, v) :: members) ∧
      membersOf extractDouble ms = some (canonicalMembers ((name, v) :: members)) := by
  obtain ⟨s, hs, hbytes⟩ := valueToQuotedStringN_text name
  obtain ⟨t, htext, hdepth, hvalue⟩ := h (name, v) List.mem_cons_self
  induction members generalizing name v s t with
  | nil =>
      refine ⟨.last ⟨.none, s, .none⟩ .none t .none, ?_, ?_, ?_⟩
      · simp [Members.text, Name.text, Ws.none, writeMembers, htext, hs]
      · simp [Members.depth, depthMembers, hdepth]
      · rw [membersOf, hvalue, hbytes]
        rfl
  | cons x members ih =>
      obtain ⟨name', v'⟩ := x
      obtain ⟨s', hs', hbytes'⟩ := valueToQuotedStringN_text name'
      have hrest : ∀ x ∈ (name', v') :: members, ∃ t, IsTreeOf extractDouble x.2 t :=
        fun x hx => h x (List.mem_cons_of_mem _ hx)
      obtain ⟨t', htext', hdepth', hvalue'⟩ := hrest (name', v') List.mem_cons_self
      obtain ⟨ms, hms, hdepths, hvalues⟩ := ih hrest s' hs' hbytes' t' htext' hdepth' hvalue'
      refine ⟨.more ⟨.none, s, .none⟩ .none t .none ms, ?_, ?_, ?_⟩
      · rw [Members.text, htext, hms]
        simp [Name.text, Ws.none, writeMembers, hs]
      · rw [Members.depth, hdepth, hdepths]
        rfl
      · rw [membersOf, hvalue, hbytes, hvalues]
        rfl

/-- The members in canonical form are those of the canonical values. -/
theorem canonicalMembers_eq (members : List (Bytes × Value)) :
    canonicalMembers members = members.map fun x => (x.1, x.2.canonical) := by
  induction members with
  | nil => rfl
  | cons x members ih => rw [canonicalMembers, ih, List.map_cons]

/-- The elements in canonical form are the canonical elements. -/
theorem canonicalElems_eq (elems : List Value) :
    canonicalElems elems = elems.map Value.canonical := by
  induction elems with
  | nil => rfl
  | cons v elems ih => rw [canonicalElems, ih, List.map_cons]

/-- The canonical form keeps the names, and so their order. -/
theorem sorted_canonicalMembers {members : List (Bytes × Value)}
    (h : SortedKeys.Sorted members) : SortedKeys.Sorted (canonicalMembers members) :=
  canonicalMembers_eq members ▸ SortedKeys.sorted_map (fun _ => rfl) h

/-- **What is written is the text of a value.** -/
theorem exists_tree (extractDouble : Bytes → Option Real) (hv : v.Plain P) :
    ∃ t, IsTreeOf extractDouble v t := by
  induction hv with
  | null => exact ⟨.null, rfl, rfl, rfl⟩
  | bool b => exact ⟨.bool b, by cases b <;> rfl, rfl, rfl⟩
  | @int n hmin hmax =>
      obtain ⟨ds, htext, hvalue⟩ := valueToString_text n
      refine ⟨intTree (n < 0) ds, htext, rfl, valueOf_intTree hmin (hmax.trans ?_) hvalue⟩
      decide
  | @uint n hmax =>
      obtain ⟨ds, htext, hvalue⟩ := uintToString_text n
      have htree : intTree (decide ((n : ℤ) < 0)) ds = intTree false ds := by
        rw [decide_eq_false (Int.not_lt.mpr (Int.natCast_nonneg n))]
      refine ⟨intTree false ds, ?_, rfl, ?_⟩
      · exact (List.append_nil ds.text).trans htext
      · rw [← htree]
        refine valueOf_intTree ?_ (Int.ofNat_le.mpr hmax) hvalue
        unfold minLargestInt
        omega
  | @string s _ =>
      obtain ⟨chars, htext, hbytes⟩ := valueToQuotedStringN_text s
      exact ⟨.string chars, htext, rfl, congrArg (fun s => some (Value.string s)) hbytes⟩
  | @array elems _ ih =>
      cases elems with
      | nil => exact ⟨.emptyArray .none, rfl, rfl, rfl⟩
      | cons v elems =>
          obtain ⟨es, htext, hdepth, hvalues⟩ := exists_elements ih
          refine ⟨.array es, congrArg (byte '[' :: ·) htext, ?_, ?_⟩
          · rw [Tree.depth, hdepth, Value.depth]
          · rw [valueOf, hvalues]
            rfl
  | @object members hsorted _ _ ih =>
      cases members with
      | nil => exact ⟨.emptyObject .none, rfl, rfl, rfl⟩
      | cons x members =>
          obtain ⟨ms, htext, hdepth, hvalues⟩ := exists_members ih
          refine ⟨.object ms, congrArg (byte '{' :: ·) htext, ?_, ?_⟩
          · rw [Tree.depth, hdepth, Value.depth]
          · have hmembers := sorted_canonicalMembers hsorted
            rw [valueOf, hvalues, Option.map_some, SortedKeys.ofList_of_sorted hmembers]
            rfl

/-- What is written and read: a value that is written comes back with its integers in the
type that the reader takes them for, and whatever its strings and names hold, if its values do not
lie deeper in one another than `stackLimit_g`; if they do, the reader throws. -/
theorem parse_write (extractDouble : Bytes → Option Real) (v : Value)
    (hv : v.Plain fun _ => True) : Reader.parse extractDouble (FastWriter.write v) =
      if v.depth ≤ stackLimit_g then .returns (some v.canonical) ⟨[], []⟩ else .throws := by
  obtain ⟨t, htext, hdepth, hvalue⟩ := exists_tree extractDouble hv
  have hparse := parse_text extractDouble t .none [byte '\n'] v.canonical hvalue
    (numberEnds_cons (by decide))
  rw [htext, hdepth] at hparse
  exact hparse

/-! ### A file that is written back -/

/-- A decimal number holds no byte 0xFF. -/
theorem uintToString_clean (n : ℕ) : 0xFF ∉ uintToString n := by
  obtain ⟨ds, htext, -⟩ := uintToString_text n
  rw [← htext]
  intro hmem
  obtain ⟨d, -, hd⟩ := List.mem_map.mp hmem
  exact absurd hd (by revert d; decide)

/-- Nor does one with a sign. -/
theorem valueToString_clean (n : ℤ) : 0xFF ∉ valueToString n := by
  rw [valueToString]
  split
  · exact List.not_mem_cons_of_ne_of_not_mem (by decide) (uintToString_clean _)
  · split
    · exact List.not_mem_cons_of_ne_of_not_mem (by decide) (uintToString_clean _)
    · exact uintToString_clean _

/-- Nor does a hexadecimal digit. -/
theorem hexDigit_clean (d : HexDigit) : d.byte ≠ 0xFF := by
  obtain ⟨value, upper⟩ := d
  revert value upper
  decide

/-- Nor does an escape. -/
theorem codeUnit_clean (u : CodeUnit) : 0xFF ∉ u.text := by
  simp only [CodeUnit.text, List.mem_cons, List.not_mem_nil, or_false, not_or]
  exact ⟨by decide, by decide, (hexDigit_clean u.a).symm, (hexDigit_clean u.b).symm,
    (hexDigit_clean u.c).symm, (hexDigit_clean u.d).symm⟩

/-- Escape sequences are written without the byte 0xFF. -/
theorem stringChar_clean {x : StringChar} (h : 0xFF ∉ x.bytes) : 0xFF ∉ x.text := by
  cases x with
  | unescaped c _ => exact h
  | escaped e => cases e <;> decide
  | unicode u _ => exact codeUnit_clean u
  | surrogates high low _ =>
      exact fun hmem => (List.mem_append.mp hmem).elim (codeUnit_clean high) (codeUnit_clean low)

/-- Nor does a quoted string, when its characters do not. -/
theorem valueToQuotedStringN_clean {value : Bytes} (h : 0xFF ∉ value) :
    0xFF ∉ valueToQuotedStringN value := by
  obtain ⟨s, htext, hbytes⟩ := valueToQuotedStringN_text value
  rw [← htext]
  intro hmem
  rcases List.mem_cons.mp hmem with heq | hmem
  · exact absurd heq (by decide)
  · rcases List.mem_append.mp hmem with hmem | hmem
    · obtain ⟨x, hx, hmem⟩ := List.mem_flatMap.mp hmem
      refine stringChar_clean (fun hx' => h ?_) hmem
      rw [← hbytes]
      exact List.mem_flatMap.mpr ⟨x, hx, hx'⟩
    · exact absurd (List.mem_singleton.mp hmem) (by decide)

/-- Nor do the elements of an array. -/
theorem writeElements_clean {elems : List Value} (h : ∀ v ∈ elems, 0xFF ∉ writeValue v)
    (first : Bool) : 0xFF ∉ writeElements first elems := by
  induction elems generalizing first with
  | nil => exact List.not_mem_nil
  | cons v elems ih =>
      have hrest := ih (fun w hw => h w (List.mem_cons_of_mem v hw)) false
      simp only [writeElements, List.mem_append, not_or]
      exact ⟨by cases first <;> decide, h v List.mem_cons_self, hrest⟩

/-- Nor do the members of an object. -/
theorem writeMembers_clean {members : List (Bytes × Value)} (hnames : ∀ x ∈ members, 0xFF ∉ x.1)
    (h : ∀ x ∈ members, 0xFF ∉ writeValue x.2) (first : Bool) :
    0xFF ∉ writeMembers first members := by
  induction members generalizing first with
  | nil => exact List.not_mem_nil
  | cons x members ih =>
      have hrest := ih (fun y hy => hnames y (List.mem_cons_of_mem x hy))
        (fun y hy => h y (List.mem_cons_of_mem x hy)) false
      simp only [writeMembers, List.mem_append, List.mem_cons, not_or]
      exact ⟨by cases first <;> decide,
        valueToQuotedStringN_clean (hnames x List.mem_cons_self), by decide,
        h x List.mem_cons_self, hrest⟩

/-- The byte 0xFF is written only for strings and names that have it. -/
theorem writeValue_clean (hv : v.Plain fun s => 0xFF ∉ s) : 0xFF ∉ writeValue v := by
  induction hv with
  | null => decide
  | bool b => cases b <;> decide
  | int _ _ => exact valueToString_clean _
  | uint _ => exact uintToString_clean _
  | string hs => exact valueToQuotedStringN_clean hs
  | array _ ih =>
      simp only [writeValue, List.mem_cons, List.mem_append, not_or]
      exact ⟨by decide, writeElements_clean ih true, by decide, List.not_mem_nil⟩
  | object _ hnames _ ih =>
      simp only [writeValue, List.mem_cons, List.mem_append, not_or]
      exact ⟨by decide, writeMembers_clean hnames ih true, by decide, List.not_mem_nil⟩

/-- A stream without the byte 0xFF is read to its end. -/
theorem parseStream_of_clean {sin : Bytes} (h : 0xFF ∉ sin) :
    Reader.parseStream extractDouble sin = Reader.parse extractDouble sin := by
  have htake : sin.takeWhile (· ≠ 0xFF) = sin :=
    List.takeWhile_eq_self_iff.mpr fun c hc => decide_eq_true fun heq => h (heq ▸ hc)
  rw [Reader.parseStream, htake]

/-- So a document that is written holds none. -/
theorem write_clean (hv : v.Plain fun s => 0xFF ∉ s) : 0xFF ∉ FastWriter.write v :=
  fun hmem => (List.mem_append.mp hmem).elim (writeValue_clean hv) (by decide)

/-- A value that has the stronger property has the weaker one. -/
theorem Value.Plain.mono {Q : Bytes → Prop} (hv : v.Plain P) (h : ∀ s, P s → Q s) :
    v.Plain Q := by
  induction hv with
  | null => exact .null
  | bool b => exact .bool b
  | int hmin hmax => exact .int hmin hmax
  | uint hmax => exact .uint hmax
  | string hs => exact .string (h _ hs)
  | array _ ih => exact .array ih
  | object hsorted hnames _ ih => exact .object hsorted (fun x hx => h _ (hnames x hx)) ih

/-- The depth of the elements is that of the deepest. -/
theorem depthElems_le {elems : List Value} {d : ℕ} (h : ∀ v ∈ elems, v.depth ≤ d) :
    depthElems elems ≤ d := by
  induction elems with
  | nil => exact Nat.zero_le d
  | cons v elems ih =>
      exact max_le (h v List.mem_cons_self) (ih fun w hw => h w (List.mem_cons_of_mem v hw))

/-- The depth of the members is that of the deepest. -/
theorem depthMembers_le {members : List (Bytes × Value)} {d : ℕ}
    (h : ∀ x ∈ members, x.2.depth ≤ d) : depthMembers members ≤ d := by
  induction members with
  | nil => exact Nat.zero_le d
  | cons x members ih =>
      exact max_le (h x List.mem_cons_self) (ih fun y hy => h y (List.mem_cons_of_mem x hy))

/-- A value that a file can hold comes back as it is. -/
theorem Value.Canonical.plain {d : ℕ} (hv : v.Canonical extractDouble d) (hplain : v.Plain P) :
    (v.Plain fun s => 0xFF ∉ s) ∧ v.canonical = v ∧ v.depth ≤ d := by
  induction hv with
  | null => exact ⟨.null, rfl, Nat.le_add_left 1 _⟩
  | bool b => exact ⟨.bool b, rfl, Nat.le_add_left 1 _⟩
  | int hmin hmax =>
      refine ⟨.int hmin (hmax.trans (by decide)), ?_, Nat.le_add_left 1 _⟩
      exact if_pos hmax
  | uint hmin hmax =>
      refine ⟨.uint hmax, ?_, Nat.le_add_left 1 _⟩
      exact if_neg (Int.not_le.mpr (Int.ofNat_lt.mpr hmin))
  | real _ => cases hplain
  | string hs => exact ⟨.string hs, rfl, Nat.le_add_left 1 _⟩
  | @array d elems _ ih =>
      cases hplain with
      | array helems =>
          have ih' := fun w hw => ih w hw (helems w hw)
          refine ⟨.array fun w hw => (ih' w hw).1, ?_, ?_⟩
          · rw [Value.canonical, canonicalElems_eq,
              List.map_congr_left fun w hw => (ih' w hw).2.1, List.map_id']
          · exact Nat.succ_le_succ (depthElems_le fun w hw => (ih' w hw).2.2)
  | @object d members hsorted hnames _ ih =>
      cases hplain with
      | object _ _ hvalues =>
          have ih' := fun x hx => ih x hx (hvalues x hx)
          refine ⟨.object hsorted hnames fun x hx => (ih' x hx).1, ?_, ?_⟩
          · rw [Value.canonical, canonicalMembers_eq,
              List.map_congr_left fun x hx => by rw [(ih' x hx).2.1], List.map_id']
          · exact Nat.succ_le_succ (depthMembers_le fun x hx => (ih' x hx).2.2)

/-- A value that a file can hold, when it is written. -/
theorem Value.Canonical.read_write (h : v.Canonical extractDouble stackLimit_g)
    (hv : v.Plain fun _ => True) :
    Reader.parseStream extractDouble (FastWriter.write v) = .returns (some v) ⟨[], []⟩ := by
  obtain ⟨hclean, hcanonical, hdepth⟩ := h.plain hv
  rw [parseStream_of_clean (write_clean hclean), parse_write extractDouble v hv, if_pos hdepth,
    hcanonical]

/-- **A file that is written back.** What is read from a file, and has no doubles, and is
written, reads the same. -/
theorem parseStream_write (extractDouble : Bytes → Option Real) (sin : Bytes) (v : Value)
    (s : Reader) (hread : Reader.parseStream extractDouble sin = .returns (some v) s)
    (hv : v.Plain fun _ => True) :
    Reader.parseStream extractDouble (FastWriter.write v) = .returns (some v) ⟨[], []⟩ :=
  (parseStream_canonical extractDouble sin v s hread).read_write hv

/-- Members that were not in order, with a comment, and a name that came twice. -/
theorem parseStream_write_object :
    Reader.parseStream (fun _ => none)
        (FastWriter.write (.object [([97], .null), ([98], .int 2)])) =
      .returns (some (.object [([97], .null), ([98], .int 2)])) ⟨[], []⟩ :=
  parseStream_write (fun _ => none)
    (ascii "\x7b\"b\": 1, /**/ \"a\": null, \"b\": 2\x7d ...") _ _ rfl
    (.object (by unfold SortedKeys.Sorted; decide) (by simp) (by
      intro x hx
      rcases List.mem_pair.mp hx with rfl | rfl
      · exact .null
      · exact .int (by decide) (by decide)))

end

end AnyServer.Json
