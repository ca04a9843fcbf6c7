import Mathlib.Data.List.Infix
import Mathlib.Data.Fintype.Basic
import Mathlib.Data.Nat.Digits.Defs

/-!
# Literal IPv4 addresses

An address is four octets, and its text their decimals with points between
them.  A host name is read off its front: up to the first point it is an octet
of the address, or the host name is no address at all.
-/

namespace ZcashSoloPool.Web

/-- An IPv4 address. -/
structure Ipv4 where
  first : Fin 256
  second : Fin 256
  third : Fin 256
  fourth : Fin 256
  deriving DecidableEq, Repr

/-- The decimal of an octet. -/
def decimal (octet : Fin 256) : List Char :=
  Nat.toDigits 10 octet

/-- Two parts with a point between them. -/
def pointed (front back : List Char) : List Char :=
  front ++ '.' :: back

theorem isDigit_of_mem_decimal {octet : Fin 256} {c : Char} (member : c ∈ decimal octet) :
    c.isDigit = true :=
  Nat.isDigit_of_mem_toDigits (by decide) (by decide) member

theorem point_not_mem_decimal (octet : Fin 256) : '.' ∉ decimal octet := by
  intro member
  have digit := isDigit_of_mem_decimal member
  contradiction

/-- What stands before the first point is told apart from what stands behind it. -/
theorem pointed_isPrefix_iff {left right tail rest : List Char} (plainLeft : '.' ∉ left)
    (plainRight : '.' ∉ right) :
    pointed left tail <+: pointed right rest ↔ left = right ∧ tail <+: rest := by
  induction left generalizing right with
  | nil =>
      cases right with
      | nil => simp [pointed]
      | cons c right =>
          have other : '.' ≠ c := fun same => plainRight (same ▸ List.mem_cons_self)
          simp [pointed, List.cons_prefix_cons, other]
  | cons d left ih =>
      have plainRest : '.' ∉ left := fun member => plainLeft (List.mem_cons_of_mem _ member)
      cases right with
      | nil =>
          have other : d ≠ '.' := fun same => plainLeft (same ▸ List.mem_cons_self)
          simp [pointed, List.cons_prefix_cons, other]
      | cons c right =>
          have plainTail : '.' ∉ right := fun member => plainRight (List.mem_cons_of_mem _ member)
          have step := ih plainRest plainTail
          unfold pointed at step ⊢
          rw [List.cons_append, List.cons_append, List.cons_prefix_cons, step, List.cons.injEq,
            and_assoc]

namespace Ipv4

/-- The text of an address. -/
def text (address : Ipv4) : List Char :=
  pointed (decimal address.first)
    (pointed (decimal address.second)
      (pointed (decimal address.third) (decimal address.fourth)))

theorem text_ne_nil (address : Ipv4) : address.text ≠ [] := by
  simp [text, pointed]

/-- The address is in one of the blocks `10/8`, `172.16/12` and `192.168/16`. -/
def Private (address : Ipv4) : Prop :=
  address.first = 10 ∨ address.first = 172 ∧ 16 ≤ address.second ∧ address.second ≤ 31 ∨
    address.first = 192 ∧ address.second = 168

instance (address : Ipv4) : Decidable address.Private :=
  inferInstanceAs (Decidable (_ ∨ _ ∨ _))

/-- There are only digits and points in the text of an address. -/
theorem digit_or_point {address : Ipv4} {c : Char} (member : c ∈ address.text) :
    c.isDigit = true ∨ c = '.' := by
  unfold text pointed at member
  simp only [List.mem_append, List.mem_cons] at member
  rcases member with digit | point | digit | point | digit | point | digit
  · exact Or.inl (isDigit_of_mem_decimal digit)
  · exact Or.inr point
  · exact Or.inl (isDigit_of_mem_decimal digit)
  · exact Or.inr point
  · exact Or.inl (isDigit_of_mem_decimal digit)
  · exact Or.inr point
  · exact Or.inl (isDigit_of_mem_decimal digit)

/-- A prefix up to a point tells the first octet. -/
theorem first_of_isPrefix (address : Ipv4) {octet : List Char} (plain : '.' ∉ octet)
    (tail : List Char) :
    pointed octet tail <+: address.text ↔ octet = decimal address.first ∧
      tail <+: pointed (decimal address.second)
        (pointed (decimal address.third) (decimal address.fourth)) :=
  pointed_isPrefix_iff plain (point_not_mem_decimal _)

end Ipv4

/-! ## Reading an address -/

/-- The octet with a decimal. -/
def octet (text : List Char) : Option (Fin 256) :=
  if small : Nat.ofDigitChars 10 text 0 < 256 then
    if decimal ⟨Nat.ofDigitChars 10 text 0, small⟩ = text then
      some ⟨Nat.ofDigitChars 10 text 0, small⟩
    else none
  else none

theorem ofDigitChars_decimal (value : Fin 256) :
    Nat.ofDigitChars 10 (decimal value) 0 = value :=
  Nat.ofDigitChars_ten_toDigits

@[simp]
theorem octet_decimal (value : Fin 256) : octet (decimal value) = some value := by
  have small : Nat.ofDigitChars 10 (decimal value) 0 < 256 :=
    (ofDigitChars_decimal value).trans_lt value.isLt
  have same : (⟨Nat.ofDigitChars 10 (decimal value) 0, small⟩ : Fin 256) = value :=
    Fin.ext (ofDigitChars_decimal value)
  rw [octet, dif_pos small, if_pos (congrArg decimal same), same]

theorem octet_eq_some_iff {text : List Char} {value : Fin 256} :
    octet text = some value ↔ text = decimal value := by
  constructor
  · intro read
    unfold octet at read
    split at read
    · split at read
      · next written =>
          cases read
          exact written.symm
      · contradiction
    · contradiction
  · rintro rfl
    exact octet_decimal value

namespace Ipv4

/-- The address with a text. -/
def read (text : List Char) : Option Ipv4 :=
  match text.splitOn '.' with
  | [first, second, third, fourth] => do
      pure ⟨← octet first, ← octet second, ← octet third, ← octet fourth⟩
  | _ => none

/-- The decimals of the octets. -/
def decimals (address : Ipv4) : List (List Char) :=
  [decimal address.first, decimal address.second, decimal address.third, decimal address.fourth]

theorem text_eq_intercalate (address : Ipv4) :
    address.text = ['.'].intercalate address.decimals := by
  simp [text, pointed, decimals, List.intercalate]

/-- The points of an address stand between its octets and nowhere else. -/
theorem splitOn_text (address : Ipv4) : address.text.splitOn '.' = address.decimals := by
  rw [text_eq_intercalate]
  apply List.splitOn_intercalate
  · intro part member
    unfold decimals at member
    simp only [List.mem_cons, List.not_mem_nil, or_false] at member
    rcases member with rfl | rfl | rfl | rfl <;> exact point_not_mem_decimal _
  · exact List.cons_ne_nil _ _

theorem read_eq_some_iff {text : List Char} {address : Ipv4} :
    read text = some address ↔ text = address.text := by
  constructor
  · intro found
    unfold read at found
    split at found
    · next first second third fourth parts =>
        simp only [bind, pure, Option.bind_eq_some_iff, Option.some.injEq] at found
        obtain ⟨_, one, _, two, _, three, _, four, rfl⟩ := found
        have whole : ['.'].intercalate (text.splitOn '.') = text := List.intercalate_splitOn '.'
        rw [← whole, parts, octet_eq_some_iff.mp one, octet_eq_some_iff.mp two,
          octet_eq_some_iff.mp three, octet_eq_some_iff.mp four, text_eq_intercalate]
        rfl
    · contradiction
  · rintro rfl
    unfold read
    rw [splitOn_text]
    simp [decimals]

@[simp]
theorem read_text (address : Ipv4) : read address.text = some address :=
  read_eq_some_iff.mpr rfl

theorem text_injective : Function.Injective text := by
  intro left right same
  have read : read left.text = some right := read_eq_some_iff.mpr same
  rw [read_text] at read
  exact Option.some.inj read

/-- The number of an address, the first octet highest. -/
def number (address : Ipv4) : Nat :=
  ((address.first * 256 + address.second) * 256 + address.third) * 256 + address.fourth

theorem number_lt (address : Ipv4) : address.number < 2 ^ 32 := by
  unfold number
  omega

/-- The 32 bits of an address. -/
def bits (address : Ipv4) : BitVec 32 :=
  BitVec.ofNat 32 address.number

theorem bits_injective : Function.Injective bits := by
  intro left right same
  have equal : left.number = right.number := by
    have numbers := congrArg BitVec.toNat same
    rwa [bits, bits, BitVec.toNat_ofNat, BitVec.toNat_ofNat, Nat.mod_eq_of_lt left.number_lt,
      Nat.mod_eq_of_lt right.number_lt] at numbers
  obtain ⟨first, second, third, fourth⟩ := left
  obtain ⟨first', second', third', fourth'⟩ := right
  simp only [number] at equal
  simp only [mk.injEq, Fin.ext_iff]
  omega

end Ipv4

/-- The text of a private address. -/
def PrivateLiteral (host : List Char) : Prop :=
  ∃ address : Ipv4, address.Private ∧ host = address.text

/-- A name with a letter is no address. -/
theorem not_privateLiteral_of_mem {host : List Char} {c : Char} (member : c ∈ host)
    (letter : c.isDigit = false) (other : c ≠ '.') : ¬PrivateLiteral host := by
  rintro ⟨address, _, rfl⟩
  rcases Ipv4.digit_or_point member with digit | point
  · rw [letter] at digit
    contradiction
  · exact other point

end ZcashSoloPool.Web
