import ZcashSoloPool.JavaScript.CodeUnits
import Mathlib.Data.Rat.Defs

/-!
# JSON values

What `JSON.parse` returns, with the conversions to a string and to a number,
which can throw, and the text that `JSON.stringify` writes.  Keys of an object
are distinct, as the parser leaves them; a member that is absent is `none`.
-/

namespace ZcashSoloPool.JavaScript

/-- A JSON value.  A number that is too large is read as infinite. -/
inductive Json where
  | null
  | bool (flag : Bool)
  | number (value : ℚ)
  | infinity (negative : Bool)
  | string (text : Text)
  | array (elements : List Json)
  | object (members : List (Text × Json))

/-- The conversions between finite numbers and strings; `none` for a string that
is no finite number. -/
structure NumberFormat where
  write : ℚ → Text
  read : Text → Option ℚ
  /-- A safe integer is written in decimal. -/
  write_integer : ∀ n : Int, n.natAbs < 2 ^ 53 → write n = (toString n).toList
  /-- A number is written in printable characters. -/
  printable : ∀ value, ∀ c ∈ write value, 0x20 ≤ c.toNat ∧ c.toNat < 0x7f

/-- The decimal digits of an integer. -/
def integerText : Int → Text
  | .ofNat n => Nat.toDigits 10 n
  | .negSucc n => '-' :: Nat.toDigits 10 (n + 1)

theorem toList_toString (n : Int) : (toString n).toList = integerText n := by
  cases n with
  | ofNat n => simp [integerText, toString, Int.repr, Nat.repr]
  | negSucc n => simp [integerText, toString, Int.repr, Nat.repr]

theorem printable_toDigits (n : Nat) :
    ∀ c ∈ Nat.toDigits 10 n, 0x20 ≤ c.toNat ∧ c.toNat < 0x7f := by
  intro c member
  have digit := Nat.isDigit_of_mem_toDigits (by decide) (by decide) member
  simp only [Char.isDigit, Bool.and_eq_true, decide_eq_true_eq] at digit
  have low : '0'.toNat ≤ c.toNat := digit.1
  have high : c.toNat ≤ '9'.toNat := digit.2
  constructor
  · exact Nat.le_trans (by decide) low
  · exact Nat.lt_of_le_of_lt high (by decide)

theorem printable_integerText (n : Int) :
    ∀ c ∈ integerText n, 0x20 ≤ c.toNat ∧ c.toNat < 0x7f := by
  cases n with
  | ofNat n => exact printable_toDigits n
  | negSucc n =>
      intro c member
      rcases List.mem_cons.mp member with rfl | digit
      · decide
      · exact printable_toDigits (n + 1) c digit

/-- A format that is right for integers; it writes a fraction by its two parts
and reads nothing. -/
def NumberFormat.integers : NumberFormat where
  write value :=
    integerText value.num ++ if value.den = 1 then [] else '/' :: Nat.toDigits 10 value.den
  read _ := none
  write_integer n _ := by
    rw [toList_toString]
    exact List.append_nil _
  printable value c member := by
    rcases List.mem_append.mp member with digits | fraction
    · exact printable_integerText value.num c digits
    · split at fraction
      · contradiction
      · rcases List.mem_cons.mp fraction with rfl | digit
        · decide
        · exact printable_toDigits value.den c digit

namespace Json

/-! ## Reading members -/

/-- Conversion to a boolean. -/
def truthy : Json → Bool
  | null => false
  | bool flag => flag
  | number value => decide (value ≠ 0)
  | infinity _ => true
  | string text => !text.isEmpty
  | array _ => true
  | object _ => true

/-- The value is `null`. -/
def isNull : Json → Bool
  | null => true
  | _ => false

/-- A member of a value that is read by its name. -/
def member (name : String) : Json → Option Json
  | object members => members.lookup name.toList
  | _ => none

/-- `_[0]`.  Of a surrogate pair the first half is no character of its own and
is replaced. -/
def elementZero : Json → Option Json
  | array elements => elements.head?
  | object members => members.lookup "0".toList
  | string (c :: _) => some (string [if c.toNat < 0x10000 then c else '\ufffd'])
  | _ => none

/-- `_.length`. -/
def length : Json → Option Json
  | array elements => some (number elements.length)
  | object members => members.lookup "length".toList
  | string text => some (number (unitLength text))
  | _ => none

/-! ## Conversions -/

mutual

/-- `String(_)`, with `none` where it throws: the conversion finds a member
`toString`, which is no function, in place of the inherited one. -/
def toText? (numbers : NumberFormat) : Json → Option Text
  | null => some "null".toList
  | bool flag => some (if flag then "true".toList else "false".toList)
  | number value => some (numbers.write value)
  | infinity negative => some (if negative then "-Infinity".toList else "Infinity".toList)
  | string text => some text
  | array [] => some []
  | array (element :: rest) => do
      let first ← if element.isNull then some [] else element.toText? numbers
      let others ← restText? numbers rest
      pure (first ++ others)
  | object members =>
      if (members.lookup "toString".toList).isSome then none else some "[object Object]".toList

/-- The elements after the first as `Array.prototype.join` writes them. -/
def restText? (numbers : NumberFormat) : List Json → Option Text
  | [] => some []
  | element :: rest => do
      let first ← if element.isNull then some [] else element.toText? numbers
      let others ← restText? numbers rest
      pure (',' :: first ++ others)

end

/-- `Number(_)`, with `none` where it throws and `some none` where the result is
not finite. -/
def toNumber? (numbers : NumberFormat) : Json → Option (Option ℚ)
  | null => some (some 0)
  | bool flag => some (some (if flag then 1 else 0))
  | number value => some (some value)
  | infinity _ => some none
  | string text => some (numbers.read text)
  | array elements => ((array elements).toText? numbers).map numbers.read
  | object members => ((object members).toText? numbers).map numbers.read

/-- The value as the pool's other functions see it.  The identity of an object
tells whether its conversion throws, which no other value needs; a number that
is no safe integer is known by its text only. -/
def toValue (numbers : NumberFormat) : Json → Value
  | null => .null
  | bool flag => .bool flag
  | number value =>
      if safe : value.num.natAbs < 2 ^ 53 ∧ value.den = 1 then .number ⟨value.num, safe.1⟩
      else .object 0 (numbers.write value) none
  | infinity negative => .object 0 (if negative then "-Infinity".toList else "Infinity".toList) none
  | string text => .string text
  | array elements =>
      match (array elements).toText? numbers with
      | some text => .object 0 text none
      | none => .object 1 [] none
  | object members =>
      match (object members).toText? numbers with
      | some text => .object 0 text none
      | none => .object 1 [] none

/-- The conversion of such a value throws. -/
def unconverted (identity : Nat) : Bool :=
  identity == 1

/-! ## `JSON.stringify` -/

/-- A character inside a quoted string.  The character `DEL` is not escaped. -/
def escape (c : Char) : Text :=
  if c = '"' then ['\\', '"']
  else if c = '\\' then ['\\', '\\']
  else if c = '\u0008' then ['\\', 'b']
  else if c = '\u000c' then ['\\', 'f']
  else if c = '\n' then ['\\', 'n']
  else if c = '\r' then ['\\', 'r']
  else if c = '\t' then ['\\', 't']
  else if c.toNat < 0x20 then "\\u".toList ++ padStart 4 (hexText c.toNat)
  else [c]

/-- A quoted string. -/
def quote (text : Text) : Text :=
  '"' :: text.flatMap escape ++ ['"']

mutual

/-- `JSON.stringify`. -/
def stringify (numbers : NumberFormat) : Json → Text
  | null => "null".toList
  | bool flag => if flag then "true".toList else "false".toList
  | number value => numbers.write value
  | infinity _ => "null".toList
  | string text => quote text
  | array [] => ['[', ']']
  | array (element :: rest) =>
      '[' :: element.stringify numbers ++ stringifyRest numbers rest ++ [']']
  | object [] => ['\x7b', '\x7d']
  | object (entry :: rest) =>
      '\x7b' :: quote entry.1 ++ ':' :: entry.2.stringify numbers ++
        stringifyMembers numbers rest ++ ['\x7d']

/-- The elements after the first. -/
def stringifyRest (numbers : NumberFormat) : List Json → Text
  | [] => []
  | element :: rest => ',' :: element.stringify numbers ++ stringifyRest numbers rest

/-- The members after the first. -/
def stringifyMembers (numbers : NumberFormat) : List (Text × Json) → Text
  | [] => []
  | entry :: rest =>
      ',' :: quote entry.1 ++ ':' :: entry.2.stringify numbers ++ stringifyMembers numbers rest

end

mutual

/-- The strings and the keys of a value. -/
def texts : Json → List Text
  | string text => [text]
  | array elements => textsOf elements
  | object members => textsOfMembers members
  | _ => []

/-- Those of the elements. -/
def textsOf : List Json → List Text
  | [] => []
  | element :: rest => element.texts ++ textsOf rest

/-- Those of the members. -/
def textsOfMembers : List (Text × Json) → List Text
  | [] => []
  | entry :: rest => entry.1 :: entry.2.texts ++ textsOfMembers rest

end

/-! ## Conversions through values -/

@[simp]
theorem truthy_toValue (numbers : NumberFormat) (json : Json) :
    (json.toValue numbers).truthy = json.truthy := by
  cases json with
  | number value =>
      rw [toValue]
      split
      · next safe =>
          apply decide_eq_decide.mpr
          exact Rat.num_ne_zero
      · next other =>
          apply Eq.symm
          apply decide_eq_true
          rintro rfl
          exact other ⟨Nat.two_pow_pos 53, rfl⟩
  | array elements =>
      rw [toValue]
      split <;> rfl
  | object members =>
      rw [toValue]
      split <;> rfl
  | _ => rfl

/-- A conversion that does not throw is that of the value. -/
theorem toText_toValue {numbers : NumberFormat} {json : Json} {text : Text}
    (converts : json.toText? numbers = some text) : (json.toValue numbers).toText = text := by
  cases json with
  | number value =>
      rw [toText?, Option.some.injEq] at converts
      rw [toValue, ← converts]
      split
      · next safe =>
          have whole : value = (value.num : ℚ) := (Rat.coe_int_num_of_den_eq_one safe.2).symm
          conv_rhs => rw [whole]
          exact (numbers.write_integer value.num safe.1).symm
      · rfl
  | array elements =>
      rw [toValue, converts]
      rfl
  | object members =>
      rw [toValue, converts]
      rfl
  | bool flag =>
      cases converts
      cases flag <;> rfl
  | _ =>
      cases converts
      rfl

end Json

/-! ## Control characters -/

/-- The character `DEL`. -/
def isDel (c : Char) : Bool :=
  c.toNat == 0x7f

theorem isControlChar_eq_false_of_printable {c : Char}
    (printable : 0x20 ≤ c.toNat ∧ c.toNat < 0x7f) :
    isControlChar c = false := by
  rw [isControlChar, Bool.or_eq_false_iff, decide_eq_false_iff_not, beq_eq_false_iff_ne]
  omega

namespace Json

theorem any_escapedUnit : ∀ n < 0x20,
    ("\\u".toList ++ padStart 4 (hexText n)).any isControlChar = false := by
  decide

/-- An escaped character is printable, unless it is `DEL`. -/
theorem any_escape (c : Char) : (escape c).any isControlChar = isDel c := by
  unfold escape
  split_ifs with quotes backslash backspace feed newline carriage tab low
  · rw [quotes]
    decide
  · rw [backslash]
    decide
  · rw [backspace]
    decide
  · rw [feed]
    decide
  · rw [newline]
    decide
  · rw [carriage]
    decide
  · rw [tab]
    decide
  · rw [any_escapedUnit c.toNat low, isDel]
    apply Eq.symm
    apply beq_eq_false_iff_ne.mpr
    omega
  · have high : decide (c.toNat ≤ 0x1f) = false := by
      apply decide_eq_false
      omega
    rw [List.any_cons, List.any_nil, Bool.or_false, isControlChar, high, Bool.false_or, isDel]

theorem any_quote (text : Text) : (quote text).any isControlChar = text.any isDel := by
  have escaped : (text.flatMap escape).any isControlChar = text.any isDel := by
    induction text with
    | nil => rfl
    | cons c rest ih => rw [List.flatMap_cons, List.any_append, any_escape, ih, List.any_cons]
  have mark : isControlChar '"' = false := by decide
  rw [quote, List.cons_append, List.any_cons, List.any_append, escaped, List.any_cons, List.any_nil,
    mark, Bool.false_or, Bool.or_false, Bool.or_false]

theorem any_write (numbers : NumberFormat) (value : ℚ) :
    (numbers.write value).any isControlChar = false := by
  rw [List.any_eq_false]
  intro c member
  rw [isControlChar_eq_false_of_printable (numbers.printable value c member)]
  exact Bool.false_ne_true

/-- The marks between strings and numbers. -/
theorem any_marks : isControlChar ',' = false ∧ isControlChar ':' = false ∧
    isControlChar '[' = false ∧ isControlChar ']' = false ∧ isControlChar '\x7b' = false ∧
      isControlChar '\x7d' = false := by
  decide

mutual

/-- The text of a value has the `DEL`s of its strings and keys and no other
control character. -/
theorem any_stringify (numbers : NumberFormat) : ∀ json : Json,
    (json.stringify numbers).any isControlChar = json.texts.any (·.any isDel)
  | null => rfl
  | bool true => rfl
  | bool false => rfl
  | number value => any_write numbers value
  | infinity _ => rfl
  | string text => by
      rw [stringify, any_quote, texts, List.any_cons, List.any_nil, Bool.or_false]
  | array [] => rfl
  | array (element :: rest) => by
      have first := any_stringify numbers element
      have others := any_stringifyRest numbers rest
      simp [stringify, texts, textsOf, first, others, any_marks]
  | object [] => rfl
  | object (entry :: rest) => by
      have first := any_stringify numbers entry.2
      have others := any_stringifyMembers numbers rest
      simp [stringify, texts, textsOfMembers, first, others, any_quote, any_marks]

theorem any_stringifyRest (numbers : NumberFormat) : ∀ elements : List Json,
    (stringifyRest numbers elements).any isControlChar = (textsOf elements).any (·.any isDel)
  | [] => rfl
  | element :: rest => by
      have first := any_stringify numbers element
      have others := any_stringifyRest numbers rest
      simp [stringifyRest, textsOf, first, others, any_marks]

theorem any_stringifyMembers (numbers : NumberFormat) : ∀ members : List (Text × Json),
    (stringifyMembers numbers members).any isControlChar =
      (textsOfMembers members).any (·.any isDel)
  | [] => rfl
  | entry :: rest => by
      have first := any_stringify numbers entry.2
      have others := any_stringifyMembers numbers rest
      simp [stringifyMembers, textsOfMembers, first, others, any_quote, any_marks]

end

end Json

end ZcashSoloPool.JavaScript
